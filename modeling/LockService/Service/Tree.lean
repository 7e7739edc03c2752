import LockService.Pending.Assoc
import LockService.Service.Basic
import Mathlib.Logic.Relation

/-!
# A service that keeps trees of keys

The service of one database, as far as trees are concerned. It learns that one key is the parent of another from marks
alone, counts the marks of each child and forgets the link when as many have been taken back. A plain lock on a key is
refused while that key is held, or any key above or below it by the links known at that moment (`TreeService.isTaken`).
`mem_above_iff` says that the search for the keys above is complete as long as the links go in no circle.
-/

namespace LockService

open Relation (TransGen ReflTransGen)

/-- The links that are known: a child's key, its parent's and the number of marks for the link. -/
abbrev TreeLinks := List (LockKey × LockKey × Nat)

namespace TreeLinks

/-- A link leads from a child to its parent. -/
def Leads (links : TreeLinks) (child parent : LockKey) : Prop :=
  ∃ marks, Assoc.get? child links = some (parent, marks)

/-- The keys above a key, nearest first. A link that has been followed is not followed again. -/
def climb : Nat → TreeLinks → LockKey → List LockKey
  | 0, _, _ => []
  | fuel + 1, links, key =>
    match Assoc.get? key links with
    | some (parent, _) => parent :: climb fuel (Assoc.erase key links) parent
    | none => []

variable {links : TreeLinks} {a b c p : LockKey}

theorem Leads.unique (h : Leads links a b) (h' : Leads links a c) : b = c := by
  obtain ⟨m, hm⟩ := h
  obtain ⟨m', hm'⟩ := h'
  rw [hm] at hm'
  cases hm'
  rfl

theorem leads_erase_iff : Leads (Assoc.erase p links) a b ↔ a ≠ p ∧ Leads links a b := by
  unfold Leads
  by_cases h : a = p
  · subst h
    simp
  · simp [h, Assoc.get?_erase_of_ne h]

/-- Without circles, a path that has left a key does not come back to it. -/
private theorem transGen_erase (hcircle : ∀ k, ¬ TransGen (Leads links) k k) (hap : Leads links a p)
    (h : TransGen (Leads links) p b) : TransGen (Leads (Assoc.erase a links)) p b := by
  have avoid : ∀ {k}, ReflTransGen (Leads links) p k → k ≠ a := by
    rintro k hk rfl
    exact hcircle k (TransGen.head' hap hk)
  have along : ∀ {k}, TransGen (Leads links) k b → ReflTransGen (Leads links) p k →
      TransGen (Leads (Assoc.erase a links)) k b := by
    intro k hk
    induction hk using TransGen.head_induction_on with
    | single hkb => exact fun hpk => .single (leads_erase_iff.mpr ⟨avoid hpk, hkb⟩)
    | head hkl _ ih => exact fun hpk => .head (leads_erase_iff.mpr ⟨avoid hpk, hkl⟩) (ih (hpk.tail hkl))
  exact along h .refl

theorem mem_climb_iff {fuel : Nat} (hfuel : links.length ≤ fuel) (hcircle : ∀ k, ¬ TransGen (Leads links) k k) :
    b ∈ climb fuel links a ↔ TransGen (Leads links) a b := by
  induction fuel generalizing links a with
  | zero =>
    obtain rfl : links = [] := List.eq_nil_of_length_eq_zero (Nat.le_zero.mp hfuel)
    refine ⟨fun h => absurd h List.not_mem_nil, fun h => ?_⟩
    obtain ⟨c, ⟨_, hc⟩, -⟩ := TransGen.head'_iff.mp h
    cases hc
  | succ fuel ih =>
    unfold climb
    cases hget : Assoc.get? a links with
    | none =>
      refine ⟨fun h => absurd h List.not_mem_nil, fun h => ?_⟩
      obtain ⟨c, ⟨_, hc⟩, -⟩ := TransGen.head'_iff.mp h
      rw [hget] at hc
      cases hc
    | some link =>
      obtain ⟨p, marks⟩ := link
      have hap : Leads links a p := ⟨marks, hget⟩
      have hmono : ∀ {k l}, TransGen (Leads (Assoc.erase a links)) k l → TransGen (Leads links) k l :=
        fun h => TransGen.mono (fun _ _ hl => (leads_erase_iff.mp hl).2) _ _ h
      have hlength : (Assoc.erase a links).length ≤ fuel := by
        have hlt : (Assoc.erase a links).length < links.length := List.length_filter_lt_length_iff_exists.mpr
          ⟨_, Assoc.mem_of_get?_eq_some hget, by simp⟩
        omega
      have hrest := ih (a := p) hlength fun k hk => hcircle k (hmono hk)
      simp only [List.mem_cons, hrest]
      constructor
      · rintro (rfl | h)
        · exact .single hap
        · exact .head hap (hmono h)
      · intro h
        obtain ⟨c, hac, hcb⟩ := TransGen.head'_iff.mp h
        obtain rfl := hap.unique hac
        rcases Relation.reflTransGen_iff_eq_or_transGen.mp hcb with rfl | hcb
        · exact .inl rfl
        · exact .inr (transGen_erase hcircle hap hcb)

end TreeLinks

/-- The state of the service: who holds which key, and the links. -/
structure TreeService where
  holders : List (LockKey × Ident) := []
  links : TreeLinks := []

/-- The link that a mark stands for: a child's mark on the parent's key can be told by its count. -/
def LockRequest.markedLink (r : LockRequest) : LockKey × LockKey :=
  if r.count = unboundedCount then (⟨r.lockId.block⟩, r.lockKey) else (r.lockKey, ⟨r.lockId.block⟩)

namespace TreeService

/-- The keys above a key by the links known. -/
def above (s : TreeService) (key : LockKey) : List LockKey := s.links.climb s.links.length key

/-- Whether a key is held, or one above or below it. -/
def isTaken (s : TreeService) (key : LockKey) : Bool :=
  s.holders.any fun holder => holder.1 = key || (s.above key).contains holder.1 || (s.above holder.1).contains key

def mark (s : TreeService) (child parent : LockKey) : UInt8 × TreeService :=
  match Assoc.get? child s.links with
  | some (known, marks) =>
    (ResultCode.locked, { s with links := Assoc.insert child (known, marks + 1) s.links })
  | none => (ResultCode.success, { s with links := Assoc.insert child (parent, 1) s.links })

def unmark (s : TreeService) (child : LockKey) : UInt8 × TreeService :=
  match Assoc.get? child s.links with
  | some (_, 0) | some (_, 1) => (ResultCode.success, { s with links := Assoc.erase child s.links })
  | some (known, marks + 2) =>
    (ResultCode.success, { s with links := Assoc.insert child (known, marks + 1) s.links })
  | none => (ResultCode.unlocked, s)

/-- Takes a key, or refuses it, at once or after a wait. -/
def take (s : TreeService) (r : LockRequest) : UInt8 × TreeService :=
  if s.isTaken r.lockKey then
    (if r.timeout.waitSpan = Span.zero then ResultCode.locked else ResultCode.timeout, s)
  else (ResultCode.success, { s with holders := s.holders ++ [(r.lockKey, r.lockId)] })

def giveBack (s : TreeService) (r : LockRequest) : UInt8 × TreeService :=
  if (r.lockKey, r.lockId) ∈ s.holders then
    (ResultCode.success, { s with holders := s.holders.filter (· ≠ (r.lockKey, r.lockId)) })
  else if s.holders.any (·.1 = r.lockKey) then (ResultCode.notOwner, s)
  else (ResultCode.unlocked, s)

def handle (s : TreeService) (r : LockRequest) : UInt8 × TreeService :=
  if r.flag &&& LockFlag.treeMark ≠ 0 then
    if r.kind = .unlock then s.unmark r.markedLink.1 else s.mark r.markedLink.1 r.markedLink.2
  else if r.kind = .unlock then s.giveBack r
  else s.take r

def respond : Responder TreeService := fun s r => (r.answer (s.handle r).1, (s.handle r).2)

variable {s : TreeService} {a b : LockKey}

theorem mem_above_iff (hcircle : ∀ k, ¬ TransGen s.links.Leads k k) : b ∈ s.above a ↔ TransGen s.links.Leads a b :=
  TreeLinks.mem_climb_iff (Nat.le_refl _) hcircle

theorem isTaken_iff (hcircle : ∀ k, ¬ TransGen s.links.Leads k k) : s.isTaken a = true ↔
    ∃ holder ∈ s.holders, holder.1 = a ∨ TransGen s.links.Leads a holder.1 ∨ TransGen s.links.Leads holder.1 a := by
  simp only [isTaken, List.any_eq_true, Bool.or_eq_true, decide_eq_true_eq, List.contains_iff_mem,
    mem_above_iff hcircle, or_assoc]

/-! ### Marks -/

/-- What is known of a child to which so many marks stand. -/
def marked (parent : LockKey) (marks : Nat) : Option (LockKey × Nat) :=
  if marks = 0 then none else some (parent, marks)

variable {child parent other : LockKey} {marks : Nat}

@[simp] theorem holders_mark : (s.mark child parent).2.holders = s.holders := by
  unfold mark
  split <;> rfl

@[simp] theorem holders_unmark : (s.unmark child).2.holders = s.holders := by
  unfold unmark
  split <;> rfl

theorem code_mark : (s.mark child parent).1 = ResultCode.success ∨ (s.mark child parent).1 = ResultCode.locked := by
  unfold mark
  split
  · exact .inr rfl
  · exact .inl rfl

theorem code_unmark : (s.unmark child).1 = ResultCode.success ∨ (s.unmark child).1 = ResultCode.unlocked := by
  unfold unmark
  split
  · exact .inl rfl
  · exact .inl rfl
  · exact .inl rfl
  · exact .inr rfl

theorem get?_mark (h : Assoc.get? child s.links = marked parent marks) :
    Assoc.get? child (s.mark child parent).2.links = marked parent (marks + 1) := by
  unfold mark
  cases marks with
  | zero =>
    rw [show Assoc.get? child s.links = none from h]
    exact Assoc.get?_insert_self _ _ _
  | succ marks =>
    rw [show Assoc.get? child s.links = some (parent, marks + 1) from h]
    exact Assoc.get?_insert_self _ _ _

theorem get?_mark_of_ne (h : other ≠ child) :
    Assoc.get? other (s.mark child parent).2.links = Assoc.get? other s.links := by
  unfold mark
  split
  · exact Assoc.get?_insert_of_ne h _ _
  · exact Assoc.get?_insert_of_ne h _ _

theorem get?_unmark (h : Assoc.get? child s.links = marked parent (marks + 1)) :
    Assoc.get? child (s.unmark child).2.links = marked parent marks := by
  unfold unmark
  rw [show Assoc.get? child s.links = some (parent, marks + 1) from h]
  cases marks with
  | zero => exact Assoc.get?_erase_self _ _
  | succ marks => exact Assoc.get?_insert_self _ _ _

theorem get?_unmark_of_ne (h : other ≠ child) :
    Assoc.get? other (s.unmark child).2.links = Assoc.get? other s.links := by
  unfold unmark
  split
  · exact Assoc.get?_erase_of_ne h _
  · exact Assoc.get?_erase_of_ne h _
  · exact Assoc.get?_insert_of_ne h _ _
  · rfl

end TreeService

end LockService
