import LockService.Proofs.Coherence
import LockService.Proofs.Correlation
import LockService.Proofs.Lasting

/-!
# Pending requests are settled once

Whatever comes in, times out, fails or ends on a switchboard gives some of those who are pending an outcome each and
leaves the others as they are (`Settles`). Whoever has an outcome is pending no more and gets nothing again, as long as
everybody pending has a place of its own (`Clear`).
-/

namespace LockService.Switchboard

/-- Everybody pending is found in one place and has no outcome yet, and no outcome is there for those to come. -/
structure Clear (b : Switchboard) : Prop where
  coherent : b.Coherent [] []
  apart : ∀ t r t' r' p, b.holder? t r = some p → b.holder? t' r' = some p → t = t' ∧ r = r'
  waiting : ∀ t r p, b.holder? t r = some p → b.outcomes p = []
  numbered : ∀ t r w, b.holder? t r = some (.waiter w) → w < b.waiters
  unheard : ∀ w, b.waiters ≤ w → b.outcomes (.waiter w) = []

/-- Those for whom `hit` has an outcome get it and are pending no more; all others stay as they are. -/
structure Settles (hit : Pending → Option (Outcome Reply)) (b b' : Switchboard) : Prop where
  outcomes : ∀ p, b'.outcomes p = b.outcomes p ++ (hit p).toList
  holder? : ∀ t r p, b'.holder? t r = some p ↔ b.holder? t r = some p ∧ hit p = none
  pending : ∀ p, hit p ≠ none → ∃ t r, b.holder? t r = some p
  waiters : b.waiters ≤ b'.waiters

variable {b b' b'' : Switchboard} {hit hit' : Pending → Option (Outcome Reply)} {t : TableId} {id : Ident}
  {p : Pending}

private theorem Settles.of_eq (hd : b'.delivered = b.delivered) (ht : ∀ t, b'.table t = b.table t)
    (hw : b.waiters ≤ b'.waiters) : Settles (fun _ => none) b b' where
  outcomes p := by rw [outcomes_eq_of_delivered hd, Option.toList_none, List.append_nil]
  holder? t r p := by simp [Switchboard.holder?, ht]
  pending p h := absurd rfl h
  waiters := hw

private theorem Settles.refl (b : Switchboard) : Settles (fun _ => none) b b :=
  .of_eq rfl (fun _ => rfl) (Nat.le_refl _)

private theorem Settles.trans (h : Settles hit b b') (h' : Settles hit' b' b'') :
    Settles (fun p => (hit p).or (hit' p)) b b'' where
  outcomes p := by
    -- whoever has an outcome is pending no more, so the second list adds nothing to it
    have hone : hit p ≠ none → hit' p = none := by
      intro hp
      refine Decidable.byContradiction fun hp' => ?_
      obtain ⟨t, r, ht⟩ := h'.pending p hp'
      exact hp ((h.holder? t r p).mp ht).2
    rw [h'.outcomes, h.outcomes]
    cases hp : hit p with
    | none => simp
    | some o => simp [hone (by simp [hp])]
  holder? t r p := by rw [h'.holder?, h.holder?, Option.or_eq_none_iff, and_assoc]
  pending p hp := by
    by_cases hp' : hit p = none
    · obtain ⟨t, r, ht⟩ := h'.pending p fun hn => hp (by simp [hp', hn])
      exact ⟨t, r, ((h.holder? t r p).mp ht).1⟩
    · exact h.pending p hp'
  waiters := Nat.le_trans h.waiters h'.waiters

theorem Clear.of_settles (h : b.Clear) (hs : Settles hit b b') (hc : b'.Coherent [] []) : b'.Clear where
  coherent := hc
  apart t r t' r' p hp hp' := h.apart t r t' r' p ((hs.holder? t r p).mp hp).1 ((hs.holder? t' r' p).mp hp').1
  waiting t r p hp := by
    obtain ⟨hp, hn⟩ := (hs.holder? t r p).mp hp
    rw [hs.outcomes, hn, h.waiting t r p hp]
    rfl
  numbered t r w hp := Nat.lt_of_lt_of_le (h.numbered t r w ((hs.holder? t r _).mp hp).1) hs.waiters
  unheard w hw := by
    have hw := Nat.le_trans hs.waiters hw
    have hn : hit (.waiter w) = none := by
      refine Decidable.byContradiction fun hn => ?_
      obtain ⟨t, r, hp⟩ := hs.pending _ hn
      exact absurd (h.numbered t r w hp) (Nat.not_lt.mpr hw)
    rw [hs.outcomes, hn, h.unheard w hw]
    rfl

/-- Whoever is pending still listens. -/
private theorem Clear.isOpen (h : b.Clear) (hp : b.holder? t id = some p) : b.isOpen p = true := by
  cases p with
  | waiter w => rfl
  | entry e => exact (h.coherent.armedInTable t id e hp).1

/-- A closed table has nobody in it. -/
theorem Clear.holder?_of_closed (h : b.Clear) (hc : (b.table t).closed = true) (id : Ident) :
    b.holder? t id = none := by
  rw [Switchboard.holder?, (h.coherent.sound.orderly t).empty hc]
  rfl

/-! ### One outcome -/

@[simp] theorem waiters_unpark (b : Switchboard) (e : EntryId) : (b.unpark e).waiters = b.waiters := by
  unfold Switchboard.unpark
  split <;> rfl

@[simp] theorem waiters_resolve (b : Switchboard) (outcome : Outcome Reply) (p : Pending) :
    (b.resolve outcome p).waiters = b.waiters := by
  cases p with
  | waiter w => rfl
  | entry e =>
    by_cases ha : b.isArmed e = true
    · obtain ⟨x, hx, hxa⟩ := armed_of_isArmed ha
      rw [resolve, settle_complete hx hxa]
      exact waiters_unpark _ e
    · rw [resolve, settle_complete_of_not_armed (by simpa using ha)]

/-- One who is pending in a single place leaves it and gets an outcome. -/
private theorem Settles.of_single {outcome : Outcome Reply} (hp : b.holder? t id = some p)
    (hsingle : ∀ t' r, b.holder? t' r = some p → t' = t ∧ r = id)
    (ho : ∀ q, b'.outcomes q = b.outcomes q ++ if p = q then [outcome] else [])
    (hh : ∀ t' r, b'.holder? t' r = if t' = t ∧ r = id then none else b.holder? t' r)
    (hw : b.waiters ≤ b'.waiters) : Settles (fun q => if p = q then some outcome else none) b b' where
  outcomes q := by
    rw [ho]
    split <;> rfl
  holder? t' r q := by
    rw [hh]
    constructor
    · intro hq
      split at hq
      · cases hq
      · rename_i hne
        have hpq : p ≠ q := by
          rintro rfl
          exact hne (hsingle t' r hq)
        exact ⟨hq, if_neg hpq⟩
    · rintro ⟨hq, hn⟩
      split
      · rename_i he
        rw [he.1, he.2, hp] at hq
        cases hq
        rw [if_pos rfl] at hn
        cases hn
      · exact hq
  pending q hq := by
    by_cases he : p = q
    · exact ⟨t, id, he ▸ hp⟩
    · exact absurd (if_neg he) hq
  waiters := hw

/-- Whoever is taken out of its table gets an outcome. -/
theorem Clear.settles_take (h : b.Clear) (hp : b.holder? t id = some p) (outcome : Outcome Reply) :
    Settles (fun q => if p = q then some outcome else none) b ((b.take t id).2.resolve outcome p) := by
  have hopen : (b.take t id).2.isOpen p = true := by
    rw [isOpen_take]
    exact h.isOpen hp
  refine .of_single hp (fun t' r hr => h.apart t' r t id p hr hp) (fun q => ?_) (fun t' r => ?_) ?_
  · rw [outcomes_resolve, hopen]
    simp only [and_true]
    rfl
  · rw [holder?_resolve, holder?_take]
  · rw [waiters_resolve]
    exact Nat.le_refl _

private theorem Clear.coherent_take (h : b.Clear) (hp : b.holder? t id = some p) (outcome : Outcome Reply) :
    ((b.take t id).2.resolve outcome p).Coherent [] [] := by
  have ht := h.coherent.take t id
  rw [hp] at ht
  refine Coherent.resolve ?_ outcome
  rwa [List.append_nil]

/-- What a step of those that settle requests does. -/
def Settled (b b' : Switchboard) : Prop := ∃ hit, Settles hit b b' ∧ b'.Coherent [] []

private theorem Settled.clear (hs : Settled b b') (h : b.Clear) : b'.Clear := by
  obtain ⟨hit, hs, hc⟩ := hs
  exact h.of_settles hs hc

private theorem Settled.trans (hs : Settled b b') (hs' : Settled b' b'') : Settled b b'' := by
  obtain ⟨hit, hs, -⟩ := hs
  obtain ⟨hit', hs', hc⟩ := hs'
  exact ⟨_, hs.trans hs', hc⟩

theorem Clear.settled_refl (h : b.Clear) : Settled b b := ⟨_, .refl b, h.coherent⟩

/-- A pending request that is taken out of its table and resolved is settled, and nothing else is. -/
theorem Clear.settled_take (h : b.Clear) (hp : b.holder? t id = some p) (outcome : Outcome Reply) :
    Settled b ((b.take t id).2.resolve outcome p) :=
  ⟨_, h.settles_take hp outcome, h.coherent_take hp outcome⟩

private theorem Clear.settled_receive (h : b.Clear) (t : TableId) (reply : Reply) :
    Settled b (b.receive t reply).2 := by
  cases hp : b.holder? t reply.requestId with
  | none =>
    rw [receive_of_none hp]
    exact h.settled_refl
  | some p =>
    rw [receive_of_holder hp]
    exact h.settled_take hp _

/-- Frames settle the requests that their replies name, one after another. -/
theorem Clear.settled_receiveFrames (h : b.Clear) (t : TableId) (frames : List (List UInt8)) :
    Settled b (b.receiveFrames t frames) := by
  induction frames generalizing b with
  | nil => exact h.settled_refl
  | cons frame rest ih =>
    have hfirst : Settled b (b.receiveFrame t frame) := by
      unfold receiveFrame
      split
      · exact h.settled_receive t _
      · exact h.settled_refl
    exact hfirst.trans (ih (hfirst.clear h))

/-- The wait for a request that is still pending ends. -/
theorem Clear.settled_timeOut (h : b.Clear) {a : Awaited}
    (hp : b.holder? a.table a.requestId = some (.waiter a.waiter)) : Settled b (b.timeOut a) := by
  have htake := take_of_holder?_eq_some hp
  have ht : b.timeOut a = (b.take a.table a.requestId).2.resolve (.error (.timeout a.bound)) (.waiter a.waiter) := by
    rw [timeOut, htake]
    simp [resolve]
  rw [ht]
  exact h.settled_take hp _

theorem Clear.settled_newTable (h : b.Clear) : Settled b b.newTable.2 :=
  ⟨_, .of_eq rfl (table_newTable b) (Nat.le_refl _), h.coherent.newTable⟩

/-! ### The wheel -/

/-- A command that is due leaves its table and gets its outcome. -/
theorem settles_expire {popped : List EntryId} {e : EntryId} {x : Entry} (h : b.Coherent (e :: popped) [])
    (hx : b.entries[e]? = some x) (ha : x.armed = true) :
    Settles (fun q => if .entry e = q then some (.error (.timeout x.wait)) else none) b (b.settle (.expire e)) := by
  let b₁ := { b with entries := b.entries.set e x.disarmed }
  have hp : b.holder? x.table x.requestId = some (.entry e) := by simpa using h.inTable e x hx ha
  have hx₁ : b₁.entries[e]? = some x.disarmed := getElem?_set_disarmed hx
  have hw : b₁.withdraw e = (b₁.take x.table x.requestId).2 := by
    have hp₁ : b₁.take x.disarmed.table x.disarmed.requestId =
        (some (.entry e), (b₁.take x.disarmed.table x.disarmed.requestId).2) := Prod.ext hp rfl
    have halive : (b₁.table x.disarmed.table).alive = true := (h.sound.orderly _).alive
    rw [withdraw, hx₁]
    dsimp only
    rw [if_pos halive, hp₁]
    rfl
  have hs : b.settle (.expire e) =
      (b₁.take x.table x.requestId).2.deliver (.callback e (.error (.timeout x.wait))) := by
    rw [settle_expire hx ha, hw]
  -- a command knows its table and its identifier, so it is found nowhere else
  have hsingle : ∀ t r, b.holder? t r = some (.entry e) → t = x.table ∧ r = x.requestId := by
    intro t r hr
    obtain ⟨x', hx', rfl, rfl⟩ := h.sound.pending t r e hr
    cases hx.symm.trans hx'
    exact ⟨rfl, rfl⟩
  refine .of_single hp hsingle (fun q => ?_) (fun t r => ?_) ?_
  · rw [hs, outcomes_deliver]
    rfl
  · rw [hs]
    exact holder?_take b₁ _ _ t r
  · rw [hs]
    exact Nat.le_refl _

/-- Each command popped off the wheel is settled by its failure. -/
private theorem settled_expireAll (es : List EntryId) (h : b.Coherent es []) : Settled b (b.expireAll es).2 := by
  induction es generalizing b with
  | nil => exact ⟨_, .refl b, h⟩
  | cons e rest ih =>
    obtain ⟨hit', hs', hc⟩ := ih h.expire
    by_cases ha : b.isArmed e = true
    · obtain ⟨x, hx, hxa⟩ := armed_of_isArmed ha
      exact ⟨_, (settles_expire h hx hxa).trans hs', hc⟩
    · have hsame : b.settle (.expire e) = b := settle_expire_of_not_armed (by simpa using ha)
      rw [hsame] at hs'
      refine ⟨hit', ?_, hc⟩
      rw [expireAll, hsame]
      exact hs'

/-- Failing what is due settles those commands and nothing else. -/
theorem Clear.settled_expireDue (h : b.Clear) (second : Nat) : Settled b (b.expireDue second).2 := by
  obtain ⟨hit, hs, hc⟩ := settled_expireAll (b.wheel.due second) (h.coherent.later second)
  have hlater : Settles (fun _ => none) b { b with wheel := b.wheel.later second } :=
    .of_eq rfl (fun _ => rfl) (Nat.le_refl _)
  exact ⟨_, hlater.trans hs, hc⟩

/-! ### The end of a session -/

private theorem isOpen_drain (b : Switchboard) (t : TableId) (p : Pending) : (b.drain t).2.isOpen p = b.isOpen p := by
  cases p <;> rfl

private theorem holder?_resolveAll (outcome : Outcome Reply) (ps : List Pending) (b : Switchboard) (t : TableId)
    (id : Ident) : (ps.foldl (fun b p => b.resolve outcome p) b).holder? t id = b.holder? t id := by
  induction ps generalizing b with
  | nil => rfl
  | cons p rest ih => rw [List.foldl_cons, ih, holder?_resolve]

private theorem waiters_resolveAll (outcome : Outcome Reply) (ps : List Pending) (b : Switchboard) :
    (ps.foldl (fun b p => b.resolve outcome p) b).waiters = b.waiters := by
  induction ps generalizing b with
  | nil => rfl
  | cons p rest ih => rw [List.foldl_cons, ih, waiters_resolve]

/-- Resolving what was drained is heard once by each that was pending and by nobody else. -/
private theorem outcomes_resolveAll (outcome : Outcome Reply) {ps : List Pending} (hn : ps.Nodup)
    (ho : ∀ p ∈ ps, b.isOpen p = true) (q : Pending) :
    (ps.foldl (fun b p => b.resolve outcome p) b).outcomes q =
      b.outcomes q ++ (if q ∈ ps then some outcome else none).toList := by
  induction ps generalizing b with
  | nil => simp
  | cons p rest ih =>
    obtain ⟨hp, hn⟩ := List.nodup_cons.mp hn
    obtain ⟨hop, ho⟩ := List.forall_mem_cons.mp ho
    have hrest : ∀ p' ∈ rest, (b.resolve outcome p).isOpen p' = true := by
      intro p' hp'
      have hne : p' ≠ p := fun he => hp (he ▸ hp')
      rw [isOpen_resolve _ _ _ hne]
      exact ho p' hp'
    rw [List.foldl_cons, ih hn hrest, outcomes_resolve, hop]
    by_cases hq : q = p
    · subst hq
      simp [hp]
    · simp [hq, Ne.symm hq]

/-- Nobody is drained twice out of one table. -/
private theorem Clear.nodup_drain (h : b.Clear) (t : TableId) : (b.drain t).1.Nodup := by
  have hkeyed := (h.coherent.sound.orderly t).keyed
  refine List.Nodup.map_on ?_ (List.Nodup.of_map _ hkeyed)
  rintro ⟨r, p⟩ hr ⟨r', p'⟩ hr' he
  have hp : b.holder? t r = some p := (Assoc.get?_eq_some_iff hkeyed).mpr hr
  have hp' : b.holder? t r' = some p' := (Assoc.get?_eq_some_iff hkeyed).mpr hr'
  cases he
  rw [(h.apart t r t r' p hp hp').2]

/-- The end of a session gives everybody in its table the outcome, and nobody else anything. -/
theorem Clear.exists_settles_drainWith (h : b.Clear) (t : TableId) (outcome : Outcome Reply) :
    ∃ hit, Settles hit b (b.drainWith t outcome).2 ∧ ∀ p r, b.holder? t r = some p → hit p = some outcome := by
  have hmem : ∀ p, p ∈ (b.drain t).1 ↔ ∃ r, b.holder? t r = some p := fun p =>
    mem_drain_iff (h.coherent.sound.orderly t)
  have hopen : ∀ p ∈ (b.drain t).1, (b.drain t).2.isOpen p = true := by
    intro p hp
    obtain ⟨r, hr⟩ := (hmem p).mp hp
    rw [isOpen_drain]
    exact h.isOpen hr
  refine ⟨fun q => if q ∈ (b.drain t).1 then some outcome else none, ⟨?_, ?_, ?_, ?_⟩, ?_⟩
  · intro q
    exact outcomes_resolveAll outcome (h.nodup_drain t) hopen q
  · intro t' r q
    have hholder : (b.drainWith t outcome).2.holder? t' r = if t' = t then none else b.holder? t' r := by
      rw [← holder?_drain]
      exact holder?_resolveAll outcome (b.drain t).1 (b.drain t).2 t' r
    rw [hholder]
    by_cases ht : t' = t
    · subst ht
      rw [if_pos rfl]
      refine iff_of_false nofun ?_
      rintro ⟨hq, hn⟩
      rw [if_pos ((hmem q).mpr ⟨r, hq⟩)] at hn
      cases hn
    · rw [if_neg ht]
      refine (and_iff_left_of_imp fun hq => if_neg fun hm => ?_).symm
      obtain ⟨r', hr'⟩ := (hmem q).mp hm
      exact ht (h.apart t' r t r' q hq hr').1
  · intro q hq
    by_cases hm : q ∈ (b.drain t).1
    · obtain ⟨r, hr⟩ := (hmem q).mp hm
      exact ⟨t, r, hr⟩
    · exact absurd (if_neg hm) hq
  · exact Nat.le_of_eq (waiters_resolveAll outcome (b.drain t).1 (b.drain t).2).symm
  · intro p r hp
    exact if_pos ((hmem p).mpr ⟨r, hp⟩)

/-- Draining a table settles all that is pending there and nothing else. -/
theorem Clear.settled_drainWith (h : b.Clear) (t : TableId) (outcome : Outcome Reply) :
    Settled b (b.drainWith t outcome).2 := by
  obtain ⟨hit, hs, -⟩ := h.exists_settles_drainWith t outcome
  exact ⟨hit, hs, h.coherent.drainWith t outcome⟩

/-! ### Before and after -/

/-- Whoever has got its one outcome and is pending nowhere. -/
def Done (b : Switchboard) (p : Pending) : Prop := (∀ t id, b.holder? t id ≠ some p) ∧ ∃ o, b.outcomes p = [o]

/-- Who has heard of an outcome is not settled again and hears nothing more. -/
theorem Settles.outcomes_of_ne_nil (hs : Settles hit b b') (h : b.Clear) (hp : b.outcomes p ≠ []) :
    hit p = none ∧ b'.outcomes p = b.outcomes p := by
  have hnone : hit p = none := by
    refine Decidable.byContradiction fun hn => ?_
    obtain ⟨t, id, hheld⟩ := hs.pending p hn
    exact hp (h.waiting t id p hheld)
  refine ⟨hnone, ?_⟩
  rw [hs.outcomes, hnone, Option.toList_none, List.append_nil]

/-- Whoever is pending stays so or gets its one outcome. -/
theorem Settles.of_holder? (hs : Settles hit b b') (h : b.Clear) (hp : b.holder? t id = some p) :
    (hit p = none ∧ b'.holder? t id = some p) ∨ ∃ o, hit p = some o ∧ b'.outcomes p = [o] ∧ b'.Done p := by
  cases ho : hit p with
  | none => exact .inl ⟨rfl, (hs.holder? t id p).mpr ⟨hp, ho⟩⟩
  | some o =>
    have hone : b'.outcomes p = [o] := by
      rw [hs.outcomes, ho, h.waiting t id p hp]
      rfl
    refine .inr ⟨o, rfl, hone, fun t' id' hp' => ?_, o, hone⟩
    cases ho.symm.trans ((hs.holder? t' id' p).mp hp').2

/-- What is over stays over. -/
theorem Settles.done (hs : Settles hit b b') (h : b.Clear) (hd : b.Done p) : b'.Done p := by
  obtain ⟨hheld, o, ho⟩ := hd
  have hne : b.outcomes p ≠ [] := by simp [ho]
  have hsame := (hs.outcomes_of_ne_nil h hne).2
  exact ⟨fun t id hp => hheld t id ((hs.holder? t id p).mp hp).1, o, hsame.trans ho⟩

/-! ### New requests -/

/-- Whether somebody has a number already. -/
def Knows (b : Switchboard) : Pending → Prop
  | .waiter w => w < b.waiters
  | .entry e => e < b.entries.length

/-- A caller or command once known stays known. -/
theorem Knows.mono (h : b.Knows p) (hw : b.waiters ≤ b'.waiters) (he : b.entries.length ≤ b'.entries.length) :
    b'.Knows p := by
  cases p with
  | waiter w => exact Nat.lt_of_lt_of_le h hw
  | entry e => exact Nat.lt_of_lt_of_le h he

/-- Somebody new has come under an identifier, and nothing has changed for all others. -/
structure Adds (p : Pending) (id : Ident) (b b' : Switchboard) : Prop where
  clear : b'.Clear
  unknown : ¬ b.Knows p
  known : b'.Knows p
  waiters : b.waiters ≤ b'.waiters
  others : ∀ q, q ≠ p → b'.outcomes q = b.outcomes q ∧ ∀ t r, b'.holder? t r = some q ↔ b.holder? t r = some q
  under : ∀ t r, b'.holder? t r = some p → r = id

/-- Whoever has no number yet is pending nowhere and has got nothing. -/
theorem Clear.of_unknown (h : b.Clear) (hp : ¬ b.Knows p) : (∀ t r, b.holder? t r ≠ some p) ∧ b.outcomes p = [] := by
  cases p with
  | waiter w => exact ⟨fun t r hw => hp (h.numbered t r w hw), h.unheard w (Nat.le_of_not_lt hp)⟩
  | entry e =>
    have hnone : b.entries[e]? = none := List.getElem?_eq_none (Nat.le_of_not_lt hp)
    refine ⟨fun t r he => ?_, ?_⟩
    · obtain ⟨x, hx, -⟩ := h.coherent.sound.pending t r e he
      cases hnone.symm.trans hx
    · rw [outcomes_entry, h.coherent.unrun, hnone]
      nofun

/-- Whoever comes new to a clear switchboard is pending or has heard an outcome, and nobody else hears any. -/
private theorem Clear.adds (h : b.Clear) (hp : ¬ b.Knows p) (hp' : b'.Knows p) (hc : b'.Coherent [] [])
    (hw : b.waiters ≤ b'.waiters)
    (ho : ∀ q, q ≠ p → b'.outcomes q = b.outcomes q ∧ ∀ t r, b'.holder? t r = some q ↔ b.holder? t r = some q)
    (hs : ∀ t' r, b'.holder? t' r = some p → t' = t ∧ r = id ∧ b'.outcomes p = []) : Adds p id b b' := by
  refine ⟨⟨hc, ?_, ?_, ?_, ?_⟩, hp, hp', hw, ho, fun t' r hr => (hs t' r hr).2.1⟩
  · intro t₁ r₁ t₂ r₂ q h₁ h₂
    by_cases hq : q = p
    · subst hq
      obtain ⟨rfl, rfl, -⟩ := hs t₁ r₁ h₁
      obtain ⟨rfl, rfl, -⟩ := hs t₂ r₂ h₂
      exact ⟨rfl, rfl⟩
    · exact h.apart t₁ r₁ t₂ r₂ q (((ho q hq).2 t₁ r₁).mp h₁) (((ho q hq).2 t₂ r₂).mp h₂)
  · intro t' r q hr
    by_cases hq : q = p
    · subst hq
      exact (hs t' r hr).2.2
    · rw [(ho q hq).1]
      exact h.waiting t' r q (((ho q hq).2 t' r).mp hr)
  · intro t' r w hr
    by_cases hq : .waiter w = p
    · subst hq
      exact hp'
    · exact Nat.lt_of_lt_of_le (h.numbered t' r w (((ho _ hq).2 t' r).mp hr)) hw
  · intro w hw'
    have hq : .waiter w ≠ p := by
      rintro rfl
      exact absurd hp' (Nat.not_lt.mpr hw')
    rw [(ho _ hq).1]
    exact h.unheard w (Nat.le_trans hw hw')

/-- A table takes somebody under an identifier that is free. -/
private theorem Clear.adds_of_holder? (h : b.Clear) (hp : ¬ b.Knows p) (hp' : b'.Knows p) (hn : b.holder? t id = none)
    (hc : b'.Coherent [] []) (hw : b.waiters ≤ b'.waiters) (ho : ∀ q, b'.outcomes q = b.outcomes q)
    (hh : ∀ t' r, b'.holder? t' r = if t' = t ∧ r = id then some p else b.holder? t' r) : Adds p id b b' := by
  obtain ⟨hfree, hnew⟩ := h.of_unknown hp
  refine h.adds (t := t) hp hp' hc hw (fun q hq => ⟨ho q, fun t' r => ?_⟩) fun t' r hr => ?_
  · rw [hh]
    split
    · rename_i he
      rw [he.1, he.2, hn]
      exact iff_of_false (fun he => hq (Option.some.inj he).symm) nofun
    · exact Iff.rfl
  · rw [hh] at hr
    split at hr
    · rename_i he
      exact ⟨he.1, he.2, (ho p).trans hnew⟩
    · exact absurd hr (hfree t' r)

private theorem register_of_free (hc : (b.table t).closed = false) (hn : b.holder? t id = none) (p : Pending) :
    b.register t id p =
      (true, b.setTable t { b.table t with entries := Assoc.insert id p (b.table t).entries }) := by
  have hget : Assoc.get? id (b.table t).entries = none := hn
  simp [register, hc, hget]

/-- An open table takes an awaited request. -/
theorem Clear.adds_await (h : b.Clear) (ht : t < b.tables.length) (hc : (b.table t).closed = false)
    (hid : id ∉ b.requestIds) (hn : b.holder? t id = none) (bound : Span) :
    ∃ b', b.await t id bound = (.ok ⟨b.waiters, t, id, bound⟩, b') ∧ Adds (.waiter b.waiters) id b b' ∧
      b'.holder? t id = some (.waiter b.waiters) := by
  have ht' : t < b.newWaiter.2.tables.length := ht
  have hc' : (b.newWaiter.2.table t).closed = false := hc
  have hregister := register_of_free hc' hn (.waiter b.waiters)
  have hawait : b.await t id bound =
      (.ok ⟨b.waiters, t, id, bound⟩, (b.newWaiter.2.register t id (.waiter b.waiters)).2) := by
    rw [hregister, await]
    simp only [newWaiter] at hregister ⊢
    rw [hregister]
  have hcoherent := h.coherent.await ht hid bound
  rw [hawait] at hcoherent
  have hwaiters : (b.newWaiter.2.register t id (.waiter b.waiters)).2.waiters = b.waiters + 1 := by
    rw [hregister]
    rfl
  have hknown : (b.newWaiter.2.register t id (.waiter b.waiters)).2.Knows (.waiter b.waiters) := by
    rw [Knows, hwaiters]
    exact Nat.lt_succ_self _
  have hholder := holder?_register ht' hc' id (.waiter b.waiters)
  have hle : b.waiters ≤ (b.newWaiter.2.register t id (.waiter b.waiters)).2.waiters := hwaiters ▸ Nat.le_succ _
  refine ⟨_, hawait, h.adds_of_holder? (Nat.lt_irrefl _) hknown hn hcoherent hle (fun q => ?_) hholder, ?_⟩
  · rw [hregister]
    rfl
  · rw [hholder, if_pos ⟨rfl, rfl⟩]

/-- A closed table refuses it. -/
theorem Clear.await_of_closed (h : b.Clear) (hc : (b.table t).closed = true) (ht : t < b.tables.length)
    (hid : id ∉ b.requestIds) (bound : Span) :
    ∃ b', b.await t id bound = (.error .connectionClosed, b') ∧ Settled b b' := by
  have hc' : (b.newWaiter.2.table t).closed = true := hc
  have hawait : b.await t id bound = (.error .connectionClosed, b.newWaiter.2) := by
    have hregister := register_of_closed hc' id (.waiter b.waiters)
    rw [await]
    simp only [newWaiter] at hregister ⊢
    rw [hregister]
  have hcoherent := h.coherent.await ht hid bound
  rw [hawait] at hcoherent
  exact ⟨_, hawait, _, .of_eq rfl (fun _ => rfl) (Nat.le_succ _), hcoherent⟩

/-- An open table takes a callback command. -/
theorem Clear.adds_deferRegistered (h : b.Clear) (ht : t < b.tables.length) (hc : (b.table t).closed = false)
    (hid : id ∉ b.requestIds) (hn : b.holder? t id = none) (now : Nat) (wait : Span) :
    ∃ b', b.deferRegistered now id wait t = (b.entries.length, true, b') ∧
      Adds (.entry b.entries.length) id b b' ∧ b'.holder? t id = some (.entry b.entries.length) := by
  have ht' : t < (b.defer now id wait t).2.tables.length := ht
  have hc' : ((b.defer now id wait t).2.table t).closed = false := hc
  have hregister := register_of_free hc' hn (.entry b.entries.length)
  have hdefer := deferRegistered_of_open hc now id wait
  have hcoherent : Coherent (b.deferRegistered now id wait t).2.2 [] [] := h.coherent.deferRegistered ht hid
  rw [hdefer] at hcoherent
  have hknown : ((b.defer now id wait t).2.register t id (.entry b.entries.length)).2.Knows
      (.entry b.entries.length) := by
    simp [Knows]
  have hholder := holder?_register ht' hc' id (.entry b.entries.length)
  refine ⟨_, hdefer, h.adds_of_holder? (Nat.lt_irrefl _) hknown hn hcoherent ?_ (fun q => ?_) hholder, ?_⟩
  · rw [hregister]
    exact Nat.le_refl _
  · rw [hregister]
    rfl
  · rw [hholder, if_pos ⟨rfl, rfl⟩]

/-- A closed table refuses it, and its callback learns that the connection is closed. -/
theorem Clear.deferRegistered_of_closed (h : b.Clear) (ht : t < b.tables.length) (hc : (b.table t).closed = true)
    (hid : id ∉ b.requestIds) (now : Nat) (wait : Span) :
    ∃ b', b.deferRegistered now id wait t = (b.entries.length, false, b') ∧ Adds (.entry b.entries.length) id b b' ∧
      (∀ t r, b'.holder? t r ≠ some (.entry b.entries.length)) ∧
      b'.outcomes (.entry b.entries.length) = [.error .connectionClosed] := by
  let b₁ := (b.defer now id wait t).2
  have hc' : (b₁.table t).closed = true := hc
  have hdefer : b.deferRegistered now id wait t =
      (b.entries.length, false, b₁.resolve (.error .connectionClosed) (.entry b.entries.length)) := by
    have hregister := register_of_closed hc' id (.entry b.entries.length)
    rw [deferRegistered]
    simp only [defer, b₁] at hregister ⊢
    rw [hregister]
  have hcoherent : Coherent (b.deferRegistered now id wait t).2.2 [] [] := h.coherent.deferRegistered ht hid
  rw [hdefer] at hcoherent
  have hopen : b₁.isOpen (.entry b.entries.length) = true := by
    change b₁.isArmed b.entries.length = true
    simp [isArmed, b₁]
  have hunknown : ¬ b.Knows (.entry b.entries.length) := Nat.lt_irrefl _
  obtain ⟨hfree, hnew⟩ := h.of_unknown hunknown
  have houtcomes : ∀ q, (b₁.resolve (.error .connectionClosed) (.entry b.entries.length)).outcomes q =
      b.outcomes q ++ if .entry b.entries.length = q then [.error .connectionClosed] else [] := by
    intro q
    rw [outcomes_resolve, hopen]
    simp only [and_true]
    rfl
  have hholder : ∀ t r, (b₁.resolve (.error .connectionClosed) (.entry b.entries.length)).holder? t r =
      b.holder? t r := fun t r => holder?_resolve b₁ _ _ t r
  have hknown : (b₁.resolve (.error .connectionClosed) (.entry b.entries.length)).Knows (.entry b.entries.length) := by
    have hlength : b.entries.length < b₁.entries.length := by simp [b₁]
    exact Nat.lt_of_lt_of_le hlength (lasts_resolve b₁ _ _).length_entries
  have hadds : Adds (.entry b.entries.length) id b
      (b₁.resolve (.error .connectionClosed) (.entry b.entries.length)) := by
    refine h.adds (t := t) hunknown hknown hcoherent ?_ (fun q hq => ⟨?_, fun t r => ?_⟩) fun t r hr => ?_
    · rw [waiters_resolve]
      exact Nat.le_refl _
    · rw [houtcomes, if_neg (Ne.symm hq), List.append_nil]
    · rw [hholder]
    · rw [hholder] at hr
      exact absurd hr (hfree t r)
  refine ⟨_, hdefer, hadds, fun t r => ?_, ?_⟩
  · rw [hholder]
    exact hfree t r
  · rw [houtcomes, if_pos rfl, hnew]
    rfl

end LockService.Switchboard
