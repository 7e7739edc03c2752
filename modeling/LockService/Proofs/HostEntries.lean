import LockService.Config.Entry
import Mathlib.Data.List.TakeWhile

/-!
# What a host entry names

Reading an entry of a host list accepts exactly the texts that name an address, and finds that address. The normal form
of an entry is the one text of its address that `Address.IsNormal` describes, and is its own normal form
(`Address.entries_have_normal_forms`).
-/

namespace LockService

/-! ### White space around a text -/

namespace Text

/-- Trimming takes white space off at both ends and nothing else. -/
private theorem exists_trim (cs : List Char) : ∃ before after, cs = before ++ trim cs ++ after ∧
    (∀ c ∈ before, isBlank c = true) ∧ ∀ c ∈ after, isBlank c = true := by
  refine ⟨cs.takeWhile isBlank, ((cs.dropWhile isBlank).reverse.takeWhile isBlank).reverse, ?_, ?_, ?_⟩
  · rw [trim, List.append_assoc, ← List.reverse_append, List.takeWhile_append_dropWhile, List.reverse_reverse,
      List.takeWhile_append_dropWhile]
  · exact fun c hc => List.mem_takeWhile_imp hc
  · exact fun c hc => List.mem_takeWhile_imp (List.mem_reverse.mp hc)

private theorem dropWhile_isBlank_append {blanks cs : List Char} (hb : ∀ c ∈ blanks, isBlank c = true)
    (hcs : ∀ c ∈ cs, isBlank c = false) (hne : cs ≠ []) (rest : List Char) :
    (blanks ++ cs ++ rest).dropWhile isBlank = cs ++ rest := by
  obtain ⟨c, cs, rfl⟩ := List.exists_cons_of_ne_nil hne
  have hc : ¬ isBlank c = true := by simp [hcs c List.mem_cons_self]
  rw [List.append_assoc, List.dropWhile_append_of_pos hb, List.cons_append, List.dropWhile_cons_of_neg hc]

/-- Trimming finds what stands without white space between white space. -/
private theorem trim_append {before cs after : List Char} (hbefore : ∀ c ∈ before, isBlank c = true)
    (hafter : ∀ c ∈ after, isBlank c = true) (hcs : ∀ c ∈ cs, isBlank c = false) (hne : cs ≠ []) :
    trim (before ++ cs ++ after) = cs := by
  have hrest : (after.reverse ++ cs.reverse ++ []).dropWhile isBlank = cs.reverse ++ [] :=
    dropWhile_isBlank_append (fun c hc => hafter c (List.mem_reverse.mp hc))
      (fun c hc => hcs c (List.mem_reverse.mp hc)) (by simpa using hne) []
  rw [List.append_nil, List.append_nil] at hrest
  rw [trim, dropWhile_isBlank_append hbefore hcs hne, List.reverse_append, hrest, List.reverse_reverse]

/-! ### Decimal digits -/

theorem isDecimal_toDigits (n : Nat) : IsDecimal (Nat.toDigits 10 n) n where
  nonempty := List.ne_nil_of_length_pos Nat.length_toDigits_pos
  digits _ hc := Nat.isDigit_of_mem_toDigits (by decide) (by decide) hc
  value := Nat.ofDigitChars_toDigits (by decide) (by decide)

private theorem digitChar_of_isDigit {c : Char} (hc : c.isDigit = true) :
    c.toNat - '0'.toNat < 10 ∧ (c.toNat - '0'.toNat).digitChar = c := by
  have hbounds := Char.isDigit_iff_toNat.mp hc
  have hzero : '0'.toNat = 48 := rfl
  have hnine : '9'.toNat = 57 := rfl
  refine ⟨by omega, Char.toNat_inj.mp ?_⟩
  rw [Nat.toNat_digitChar_of_lt_ten (by omega)]
  omega

/-- Further digits behind those of a number. -/
private theorem toDigits_append {n : Nat} (hn : 0 < n) {cs : List Char} (hcs : ∀ c ∈ cs, c.isDigit = true) :
    Nat.toDigits 10 n ++ cs = Nat.toDigits 10 (Nat.ofDigitChars 10 cs n) := by
  induction cs generalizing n with
  | nil => exact List.append_nil _
  | cons c cs ih =>
    obtain ⟨hlt, hc⟩ := digitChar_of_isDigit (hcs c List.mem_cons_self)
    have hstep : Nat.toDigits 10 n ++ [c] = Nat.toDigits 10 (10 * n + (c.toNat - '0'.toNat)) := by
      rw [← Nat.toDigits_append_toDigits (by decide) hn hlt, Nat.toDigits_of_lt_base hlt, hc]
    rw [List.append_cons, hstep, ih (by omega) fun d hd => hcs d (List.mem_cons_of_mem _ hd), Nat.ofDigitChars_cons]

/-- Without leading zeros the digits of a number are determined by it. -/
theorem IsDecimal.eq_toDigits {cs : List Char} {n : Nat} (h : IsDecimal cs n) (hhead : cs.head? ≠ some '0') :
    cs = Nat.toDigits 10 n := by
  obtain ⟨hne, hdigits, rfl⟩ := h
  obtain ⟨c, cs, rfl⟩ := List.exists_cons_of_ne_nil hne
  obtain ⟨hlt, hc⟩ := digitChar_of_isDigit (hdigits c List.mem_cons_self)
  have hpos : 0 < c.toNat - '0'.toNat := by
    refine Nat.pos_of_ne_zero fun hzero => hhead ?_
    rw [← hc, hzero]
    rfl
  rw [Nat.ofDigitChars_cons, Nat.mul_zero, Nat.zero_add, ← toDigits_append hpos fun d hd =>
    hdigits d (List.mem_cons_of_mem _ hd), Nat.toDigits_of_lt_base hlt, hc]
  rfl

/-- The digits of a number that is not zero do not begin with a zero. -/
private theorem head?_toDigits_ne {n : Nat} (hn : 0 < n) : (Nat.toDigits 10 n).head? ≠ some '0' := by
  induction n using Nat.strong_induction_on with
  | _ n ih =>
    rw [Nat.toDigits_eq_if (by decide)]
    split
    · rename_i hlt
      intro hzero
      have hvalue := congrArg Char.toNat (Option.some.inj hzero)
      rw [Nat.toNat_digitChar_of_lt_ten hlt] at hvalue
      have hzero : '0'.toNat = 48 := rfl
      omega
    · rw [List.head?_append, Option.or_of_isSome (by simp [(isDecimal_toDigits _).nonempty])]
      exact ih (n / 10) (by omega) (by omega)

end Text

namespace Address

variable {cs inner tail : List Char} {a : Address} {port : Nat}

/-! ### Ports -/

/-- A port is read exactly from its spellings. -/
private theorem port?_eq_some_iff : port? cs = some port ↔ SpellsPort cs port := by
  have hdigits : ∀ digits : List Char,
      (if digits.isEmpty || !digits.all Char.isDigit then none
        else if 1 ≤ Text.digitsValue digits ∧ Text.digitsValue digits ≤ 65535 then some (Text.digitsValue digits)
        else none) = some port ↔ Text.IsDecimal digits port ∧ 1 ≤ port ∧ port ≤ 65535 := by
    intro digits
    have hvalue : Text.digitsValue digits = Nat.ofDigitChars 10 digits 0 := rfl
    rw [hvalue]
    constructor
    · intro h
      simp only [Option.ite_none_left_eq_some, Option.ite_none_right_eq_some, Option.some.injEq, Bool.or_eq_true,
        List.isEmpty_iff, Bool.not_eq_true', List.all_eq_false, not_or, not_exists, not_and, not_not] at h
      obtain ⟨⟨hne, hall⟩, hbounds, rfl⟩ := h
      exact ⟨⟨hne, hall, rfl⟩, hbounds⟩
    · rintro ⟨⟨hne, hall, rfl⟩, hbounds⟩
      rw [if_neg (by simpa [hne] using hall), if_pos hbounds]
  unfold port?
  split
  · next rest =>
    refine (hdigits rest).trans ⟨fun h => ⟨⟨rest, .inr rfl, h.1⟩, h.2⟩, ?_⟩
    rintro ⟨⟨digits, rfl | heq, hd⟩, hbounds⟩
    · exact absurd (hd.digits '+' List.mem_cons_self) (by decide)
    · cases heq
      exact ⟨hd, hbounds⟩
  · next hplus =>
    refine (hdigits cs).trans ⟨fun h => ⟨⟨cs, .inl rfl, h.1⟩, h.2⟩, ?_⟩
    rintro ⟨⟨digits, rfl | rfl, hd⟩, hbounds⟩
    · exact ⟨hd, hbounds⟩
    · exact absurd rfl (hplus digits)

/-! ### The text behind a host -/

private theorem spellsTail_nil_iff : SpellsTail [] port ↔ port = defaultPort :=
  ⟨fun h => by cases h; rfl, fun h => h ▸ .absent⟩

private theorem spellsTail_cons_iff {c : Char} : SpellsTail (c :: cs) port ↔ c = ':' ∧ SpellsPort cs port := by
  constructor
  · rintro ⟨⟩
    exact ⟨rfl, ‹_›⟩
  · rintro ⟨rfl, hport⟩
    exact .present hport

private theorem default_eq_some_iff {host : List Char} :
    some (⟨host, defaultPort⟩ : Address) = some a ↔ a.host = host ∧ SpellsTail [] a.port := by
  rw [spellsTail_nil_iff, Option.some_inj, eq_comm, Address.ext_iff]

private theorem map_port?_eq_some_iff {host : List Char} :
    (port? cs).map (fun p => (⟨host, p⟩ : Address)) = some a ↔ a.host = host ∧ SpellsTail (':' :: cs) a.port := by
  rw [spellsTail_cons_iff, Option.map_eq_some_iff]
  constructor
  · rintro ⟨port, hport, rfl⟩
    exact ⟨rfl, rfl, port?_eq_some_iff.mp hport⟩
  · rintro ⟨rfl, -, hport⟩
    exact ⟨a.port, port?_eq_some_iff.mpr hport, rfl⟩

/-! ### Hosts -/

private theorem takeWhile_ne_append_cons {d : Char} (hd : d ∉ inner) :
    (inner ++ d :: tail).takeWhile (· ≠ d) = inner := by
  rw [List.takeWhile_append_of_pos fun c hc => by simpa using ne_of_mem_of_not_mem hc hd,
    List.takeWhile_cons_of_neg (by simp), List.append_nil]

private theorem dropWhile_ne_append_cons {d : Char} (hd : d ∉ inner) :
    (inner ++ d :: tail).dropWhile (· ≠ d) = d :: tail := by
  rw [List.dropWhile_append_of_pos fun c hc => by simpa using ne_of_mem_of_not_mem hc hd,
    List.dropWhile_cons_of_neg (by simp)]

/-- A text without a character, or one that is cut at the first place of that character. -/
theorem cut_at (d : Char) (cs : List Char) : (d ∉ cs ∧ cs.takeWhile (· ≠ d) = cs ∧ cs.dropWhile (· ≠ d) = []) ∨
    ∃ inner tail, d ∉ inner ∧ cs = inner ++ d :: tail ∧ cs.takeWhile (· ≠ d) = inner ∧
      cs.dropWhile (· ≠ d) = d :: tail := by
  by_cases hd : d ∈ cs
  · obtain ⟨inner, tail, rfl, hinner⟩ := List.eq_append_cons_of_mem hd
    exact .inr ⟨inner, tail, hinner, rfl, takeWhile_ne_append_cons hinner, dropWhile_ne_append_cons hinner⟩
  · have hall : ∀ c ∈ cs, (decide (c ≠ d)) = true := fun c hc => by simpa using ne_of_mem_of_not_mem hc hd
    exact .inl ⟨hd, List.takeWhile_eq_self_iff.mpr hall, List.dropWhile_eq_nil_iff.mpr hall⟩

/-- A text is cut at the first place of a character in one way only. -/
theorem append_cons_inj {d : Char} {inner' tail' : List Char} (hinner : d ∉ inner) (hinner' : d ∉ inner')
    (heq : inner ++ d :: tail = inner' ++ d :: tail') : inner = inner' ∧ tail = tail' := by
  have htake := congrArg (List.takeWhile (· ≠ d)) heq
  rw [takeWhile_ne_append_cons hinner, takeWhile_ne_append_cons hinner'] at htake
  subst htake
  exact ⟨rfl, (List.cons.inj (List.append_cancel_left heq)).2⟩

/-- What begins with a bracket has its host between brackets. -/
theorem spells_bracketed_iff (hinner : ']' ∉ inner) : Spells ('[' :: (inner ++ ']' :: tail)) a ↔
    inner ≠ [] ∧ a.host = '[' :: inner ++ [']'] ∧ SpellsTail tail a.port := by
  obtain ⟨host, port⟩ := a
  constructor
  · rintro ⟨hhost, tail', heq, htail⟩
    cases hhost with
    | @bracketed inner' hne hcloses =>
      have hcut : inner ++ ']' :: tail = inner' ++ ']' :: tail' := by simpa using heq
      obtain ⟨rfl, rfl⟩ := append_cons_inj hinner hcloses hcut
      exact ⟨hne, rfl, htail⟩
    | bare hne hopens _ =>
      obtain ⟨c, host, rfl⟩ := List.exists_cons_of_ne_nil hne
      obtain ⟨rfl, -⟩ := List.cons.inj heq
      exact absurd rfl hopens
  · rintro ⟨hne, rfl, htail⟩
    exact ⟨.bracketed hne hinner, tail, by simp, htail⟩

private theorem not_spells_of_unclosed (hcs : ']' ∉ cs) : ¬ Spells ('[' :: cs) a := by
  obtain ⟨host, port⟩ := a
  rintro ⟨hhost, tail, heq, -⟩
  cases hhost with
  | bracketed _ _ =>
    obtain ⟨-, rfl⟩ := List.cons.inj heq
    exact hcs (by simp)
  | bare hne hopens _ =>
    obtain ⟨c, host, rfl⟩ := List.exists_cons_of_ne_nil hne
    obtain ⟨rfl, -⟩ := List.cons.inj heq
    exact hopens rfl

/-- What starts with a bracket is read exactly if it spells an address. -/
private theorem bracketed?_eq_some_iff : bracketed? cs = some a ↔ Spells ('[' :: cs) a := by
  unfold bracketed?
  rcases cut_at ']' cs with ⟨hcs, -, hdrop⟩ | ⟨inner, tail, hinner, rfl, htake, hdrop⟩
  · rw [hdrop]
    simp [not_spells_of_unclosed hcs]
  · rw [hdrop, htake, spells_bracketed_iff hinner, Option.ite_none_left_eq_some, List.isEmpty_iff]
    refine and_congr_right fun _ => ?_
    split
    · next heq =>
      cases heq
      exact default_eq_some_iff
    · next heq =>
      cases heq
      exact map_port?_eq_some_iff
    · next hnone hcolon =>
      refine ⟨nofun, ?_⟩
      rintro ⟨-, htail⟩
      cases tail with
      | nil => exact absurd rfl (hnone ']')
      | cons c tail =>
        obtain ⟨rfl, -⟩ := spellsTail_cons_iff.mp htail
        exact absurd rfl (hcolon ']' tail)

/-- What does not begin with a bracket has its host before the first colon. -/
theorem spells_bare_iff (hopens : cs.head? ≠ some '[') : Spells cs a ↔
    (a.host ≠ [] ∧ ':' ∉ a.host) ∧ ∃ tail, cs = a.host ++ tail ∧ SpellsTail tail a.port := by
  obtain ⟨host, port⟩ := a
  constructor
  · rintro ⟨hhost, htail⟩
    refine ⟨?_, htail⟩
    cases hhost with
    | bracketed _ _ =>
      obtain ⟨tail, rfl, -⟩ := htail
      exact absurd rfl hopens
    | bare hne _ hcolon => exact ⟨hne, hcolon⟩
  · rintro ⟨⟨hne, hcolon⟩, tail, rfl, htail⟩
    refine ⟨.bare hne ?_ hcolon, tail, rfl, htail⟩
    rwa [List.head?_append, Option.or_of_isSome (by simpa using hne)] at hopens

/-- What starts with no bracket is read exactly if it spells an address. -/
private theorem bare?_eq_some_iff (hopens : cs.head? ≠ some '[') : bare? cs = some a ↔ Spells cs a := by
  rw [spells_bare_iff hopens]
  unfold bare?
  rcases cut_at ':' cs with ⟨hcs, htake, hdrop⟩ | ⟨host, tail, hhost, rfl, htake, hdrop⟩
  · -- without a colon the whole text is the host
    rw [hdrop, htake, Option.ite_none_left_eq_some, List.isEmpty_iff, default_eq_some_iff]
    constructor
    · rintro ⟨hne, rfl, htail⟩
      exact ⟨⟨hne, hcs⟩, [], (List.append_nil _).symm, htail⟩
    · rintro ⟨⟨hne, -⟩, tail, rfl, htail⟩
      cases tail with
      | nil => exact ⟨by simpa using hne, (List.append_nil _).symm, htail⟩
      | cons c tail =>
        obtain ⟨rfl, -⟩ := spellsTail_cons_iff.mp htail
        exact absurd (by simp) hcs
  · rw [hdrop, htake, Option.ite_none_left_eq_some, List.isEmpty_iff, map_port?_eq_some_iff]
    constructor
    · rintro ⟨hne, rfl, htail⟩
      exact ⟨⟨hne, hhost⟩, _, rfl, htail⟩
    · rintro ⟨⟨hne, hcolon⟩, tail', heq, htail⟩
      cases tail' with
      | nil =>
        rw [List.append_nil] at heq
        exact absurd (by simp [← heq]) hcolon
      | cons c tail' =>
        obtain ⟨rfl, -⟩ := spellsTail_cons_iff.mp htail
        obtain ⟨rfl, rfl⟩ := append_cons_inj hhost hcolon heq
        exact ⟨hne, rfl, htail⟩

/-! ### Entries -/

private theorem Spells.ne_nil (h : Spells cs a) : cs ≠ [] := by
  obtain ⟨hhost, tail, rfl, -⟩ := h
  intro hnil
  rw [List.append_eq_nil_iff] at hnil
  cases hnil.1 ▸ hhost with
  | bare hne => exact hne rfl

/-- Reading an entry finds what its text without the white space around it spells. -/
theorem parse?_eq_some_iff_spells {entry : String} : parse? entry = some a ↔
    (∀ c ∈ Text.trim entry.toList, Text.isBlank c = false) ∧ Spells (Text.trim entry.toList) a := by
  unfold parse?
  generalize Text.trim entry.toList = cs
  have hblank : ¬ cs.any Text.isBlank = true ↔ ∀ c ∈ cs, Text.isBlank c = false := by simp
  rw [Option.ite_none_left_eq_some, hblank]
  refine and_congr_right fun _ => ?_
  split
  · exact bracketed?_eq_some_iff
  · next hopens =>
    refine bare?_eq_some_iff fun hhead => ?_
    obtain ⟨rest, rfl⟩ := List.head?_eq_some_iff.mp hhead
    exact hopens rest rfl

/-- Parsing reads the addresses that the grammar gives an entry, and no others. -/
private theorem parse?_eq_some_iff {entry : String} : parse? entry = some a ↔ Names entry a := by
  rw [parse?_eq_some_iff_spells]
  constructor
  · rintro ⟨hblank, hspells⟩
    obtain ⟨before, after, heq, hbefore, hafter⟩ := Text.exists_trim entry.toList
    exact ⟨before, _, after, heq, hbefore, hafter, hblank, hspells⟩
  · rintro ⟨before, cs, after, heq, hbefore, hafter, hblank, hspells⟩
    rw [heq, Text.trim_append hbefore hafter hblank hspells.ne_nil]
    exact ⟨hblank, hspells⟩

/-! ### Normal forms -/

variable {entry : String}

theorem isBlank_of_isDigit {c : Char} (hc : c.isDigit = true) : Text.isBlank c = false := by
  have hbounds := Char.isDigit_iff_toNat.mp hc
  have hzero : '0'.toNat = 48 := rfl
  have hnine : '9'.toNat = 57 := rfl
  simp only [Text.isBlank, Bool.or_eq_false_iff, Bool.and_eq_false_iff, decide_eq_false_iff_not, beq_eq_false_iff_ne]
  omega

/-- A named port is at least 1 and at most 65535. -/
private theorem Names.port_bounds (h : Names entry a) : 1 ≤ a.port ∧ a.port ≤ 65535 := by
  obtain ⟨_, _, _, -, -, -, -, -, tail, -, htail⟩ := h
  cases tail with
  | nil =>
    rw [spellsTail_nil_iff.mp htail]
    decide
  | cons c cs => exact (spellsTail_cons_iff.mp htail).2.bounds

/-- An address that an entry names has one normal text. -/
theorem Names.isNormal_iff {t : String} (h : Names entry a) : IsNormal a t ↔ t = a.text := by
  constructor
  · rintro ⟨digits, ht, hdigits, hhead⟩
    rw [text, ← hdigits.eq_toDigits hhead, ← ht, String.ofList_toList]
  · rintro rfl
    exact ⟨_, String.toList_ofList, Text.isDecimal_toDigits _, Text.head?_toDigits_ne h.port_bounds.1⟩

/-- The normal text of an address names it. -/
theorem Names.names_text (h : Names entry a) : Names a.text a := by
  have hbounds := h.port_bounds
  obtain ⟨_, cs, _, -, -, -, hblank, hhost, tail, rfl, -⟩ := h
  have hdigits := Text.isDecimal_toDigits a.port
  refine ⟨[], a.host ++ ':' :: Nat.toDigits 10 a.port, [], ?_, nofun, nofun, fun c hc => ?_, hhost, _, rfl, ?_⟩
  · rw [text, String.toList_ofList, List.append_nil, List.nil_append]
  · rcases List.mem_append.mp hc with hc | hc
    · exact hblank c (List.mem_append_left _ hc)
    · rcases List.mem_cons.mp hc with rfl | hc
      · rfl
      · exact isBlank_of_isDigit (hdigits.digits c hc)
  · exact spellsTail_cons_iff.mpr ⟨rfl, ⟨_, .inl rfl, hdigits⟩, hbounds⟩

/-- The normal form of an entry is that of the address it names. -/
private theorem normalForm?_eq_some_iff {t : String} :
    normalForm? entry = some t ↔ ∃ a, Names entry a ∧ IsNormal a t := by
  rw [normalForm?, Option.map_eq_some_iff]
  refine exists_congr fun a => ?_
  rw [parse?_eq_some_iff]
  exact and_congr_right fun h => eq_comm.trans h.isNormal_iff.symm

/-- An entry is read as the address that it names, and refused if it names none. Its normal form is the normal text of
that address, and is its own normal form. -/
theorem entries_have_normal_forms (entry : String) : (∀ a, parse? entry = some a ↔ Names entry a) ∧
    (∀ t, normalForm? entry = some t ↔ ∃ a, Names entry a ∧ IsNormal a t) ∧
    (normalForm? entry).bind normalForm? = normalForm? entry := by
  refine ⟨fun a => parse?_eq_some_iff, fun t => normalForm?_eq_some_iff, ?_⟩
  rw [normalForm?]
  cases hparse : parse? entry with
  | none => rfl
  | some a =>
    have hnames : Names a.text a := (parse?_eq_some_iff.mp hparse).names_text
    show normalForm? a.text = some a.text
    rw [normalForm?, parse?_eq_some_iff.mpr hnames]
    rfl

/-- White space around an entry does not count, and a port may have a sign and leading zeros. -/
example : normalForm? " [::1]:+0080\n" = some "[::1]:80" := by decide +kernel

end Address

end LockService
