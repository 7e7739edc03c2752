import LockService.Proofs.OrderlyTables
import LockService.Proofs.Timeouts
import LockService.Pending.Traffic

/-!
# Commands that share an identifier

Two callback commands of one session may bear the same identifier. The table then knows only the later one, and so does
the wheel when both have the same deadline: the earlier command stands nowhere any more, and its callback never runs
(`Traffic.Displaces`). Any other loses at most its place in the table and is still failed by the wheel. So a run that
ends with the wheel turned past every deadline runs each callback once, except those that were displaced
(`Traffic.runs_once_unless_displaced`).
-/

namespace LockService

namespace Switchboard

variable {b b' b'' : Switchboard} {e : EntryId} {x : Entry} {t₀ : TableId} {lost : EntryId → Prop}

/-! ### No callback is run or parked -/

/-- Commands and wheel are as they were, no callback has run, and commands have at most left their tables. -/
structure Idles (b b' : Switchboard) : Prop where
  entries : b'.entries = b.entries
  wheel : b'.wheel = b.wheel
  runs : b'.runs = b.runs
  holders : ∀ t i e, b'.holder? t i = some (.entry e) → b.holder? t i = some (.entry e)

private theorem Idles.refl (b : Switchboard) : b.Idles b := ⟨rfl, rfl, rfl, fun _ _ _ h => h⟩

private theorem Idles.trans (h : b.Idles b') (h' : b'.Idles b'') : b.Idles b'' :=
  ⟨h'.entries.trans h.entries, h'.wheel.trans h.wheel, h'.runs.trans h.runs,
    fun t i e he => h.holders t i e (h'.holders t i e he)⟩

private theorem idles_take (b : Switchboard) (t : TableId) (id : Ident) : b.Idles (b.take t id).2 := by
  refine ⟨rfl, rfl, rfl, fun t' i e he => ?_⟩
  rw [holder?_take] at he
  split at he
  · cases he
  · exact he

private theorem idles_drain (b : Switchboard) (t : TableId) : b.Idles (b.drain t).2 := by
  refine ⟨rfl, rfl, rfl, fun t' i e he => ?_⟩
  rw [holder?_drain] at he
  split at he
  · cases he
  · exact he

private theorem idles_deliver (b : Switchboard) {d : Delivery} (hd : d.run? = none) : b.Idles (b.deliver d) :=
  ⟨rfl, rfl, by simp [runs_deliver, hd], fun _ _ _ h => h⟩

private theorem idles_abandon (b : Switchboard) (p : Pending) : b.Idles (b.abandon p) := by
  cases p with
  | waiter w => exact idles_deliver b rfl
  | entry e => exact .refl b

private theorem idles_newTable (b : Switchboard) : b.Idles b.newTable.2 :=
  ⟨rfl, rfl, rfl, fun t i e he => by rwa [holder?, table_newTable] at he⟩

private theorem runs_register (b : Switchboard) (t : TableId) (id : Ident) (p : Pending) :
    (b.register t id p).2.runs = b.runs := by
  simp only [register]
  split
  · rfl
  · split
    · exact runs_abandon _ _
    · rfl

private theorem idles_await {t : TableId} (ht : t < b.tables.length) (id : Ident) (bound : Span) :
    b.Idles (b.await t id bound).2 := by
  have hwaiter : b.Idles (b.newWaiter.2.register t id (.waiter b.waiters)).2 := by
    refine ⟨entries_register .., wheel_register .., runs_register .., fun t' i e he => ?_⟩
    by_cases hc : (b.table t).closed = true
    · rwa [register_of_closed (b := b.newWaiter.2) hc] at he
    · have hopen : (b.newWaiter.2.table t).closed = false := Bool.eq_false_iff.mpr hc
      rw [holder?_register (b := b.newWaiter.2) ht hopen] at he
      split at he
      · cases he
      · exact he
  simp only [await]
  simp only [newWaiter] at hwaiter ⊢
  split
  all_goals
    rename_i h
    rwa [h] at hwaiter

private theorem idles_timeOut (b : Switchboard) (a : Awaited) : b.Idles (b.timeOut a) := by
  have ht := idles_take b a.table a.requestId
  refine Idles.trans ?_ (idles_deliver _ rfl)
  split
  · rename_i h
    rw [h] at ht
    split
    · exact ht
    · exact ht.trans (idles_abandon _ _)
  · rename_i h
    rwa [h] at ht

/-! ### Where the commands stand -/

/-- All commands are of one table. An unfinished one stands on the wheel at its deadline and under its identifier,
unless it is lost: then it stands nowhere. No callback has run twice. -/
structure Accounts (t₀ : TableId) (lost : EntryId → Prop) (b : Switchboard) : Prop where
  punctual : b.Punctual
  orderly : b.IsOrderly
  parked : ∀ (e : EntryId) (x : Entry), b.entries[e]? = some x → x.armed = true →
    b.wheel.find? x.deadline x.requestId = some e ∨ lost e
  pending : ∀ t i e, b.holder? t i = some (.entry e) →
    t = t₀ ∧ ¬ lost e ∧ ∃ x : Entry, b.entries[e]? = some x ∧ x.requestId = i
  gone : ∀ e, lost e → b.isArmed e = true ∧ ∀ d i, b.wheel.find? d i ≠ some e
  once : (b.runs.map (·.1)).Nodup

private theorem accounts_empty (t₀ : TableId) : ({} : Switchboard).Accounts t₀ fun _ => False := by
  refine ⟨punctual_empty, fun t => sound_empty.orderly t, ?_, ?_, fun _ => False.elim, List.nodup_nil⟩
  · intro e x hx
    cases hx
  · intro t i e he
    cases he

private theorem Accounts.idle (h : b.Accounts t₀ lost) (hi : b.Idles b') (ho : b'.IsOrderly) : b'.Accounts t₀ lost where
  punctual := (Calm.of_eq hi.entries hi.wheel hi.runs).punctual h.punctual
  orderly := ho
  parked := by
    rw [hi.entries, hi.wheel]
    exact h.parked
  pending t i e he := by
    rw [hi.entries]
    exact h.pending t i e (hi.holders t i e he)
  gone := by
    simp only [isArmed, hi.entries, hi.wheel]
    exact h.gone
  once := hi.runs ▸ h.once

/-- A callback that has run is not in its slot. -/
private theorem Punctual.not_mem_runs (h : b.Punctual) (hx : b.entries[e]? = some x) (ha : x.armed = true) :
    e ∉ b.runs.map (·.1) := by
  intro hm
  obtain ⟨⟨e, outcome⟩, hrun, rfl⟩ := List.mem_map.mp hm
  obtain ⟨x', hx', ha'⟩ := (h.ran e).mp ⟨outcome, hrun⟩
  cases hx.symm.trans hx'
  rw [ha] at ha'
  cases ha'

/-- Commands whose callbacks are in their slots run them, each once. -/
private theorem Accounts.once_append (h : b.Accounts t₀ lost) {new : List (EntryId × Outcome Reply)}
    (hn : (new.map (·.1)).Nodup) (ha : ∀ e ∈ new.map (·.1), b.isArmed e = true) :
    ((b.runs ++ new).map (·.1)).Nodup := by
  rw [List.map_append, List.nodup_append]
  refine ⟨h.once, hn, ?_⟩
  rintro e he _ he' rfl
  obtain ⟨x, hx, hxa⟩ := armed_of_isArmed (ha e he')
  exact h.punctual.not_mem_runs hx hxa he

/-! ### A command is completed -/

/-- A command that is completed takes only its own place off the wheel: whoever else stood there would be lost. -/
private theorem Accounts.disarm (h : b.Accounts t₀ lost) (hl : ¬ lost e) (hx : b.entries[e]? = some x)
    (ha : x.armed = true) (he : b'.entries = b.entries.set e x.disarmed)
    (hw : b'.wheel = b.wheel.remove x.deadline x.requestId)
    {outcome : Outcome Reply} (hr : b'.runs = b.runs ++ [(e, outcome)])
    (hh : ∀ t i, b'.holder? t i = b.holder? t i) (ho : b'.IsOrderly) : b'.Accounts t₀ lost where
  punctual := h.punctual.remove hx he hw hr
  orderly := ho
  parked e' x' hx' ha' := by
    have hparked : b.wheel.find? x.deadline x.requestId = some e := (h.parked e x hx ha).resolve_right hl
    rw [he] at hx'
    obtain ⟨hne, hx'⟩ := getElem?_of_armed_set hx' ha'
    refine (h.parked e' x' hx' ha').imp_left fun hf => ?_
    rw [hw, Wheel.find?_remove h.punctual.tidy, if_neg, hf]
    rintro ⟨hd, hi⟩
    rw [hd, hi, hparked] at hf
    exact hne (Option.some.inj hf)
  pending t i e' hp := by
    rw [hh] at hp
    obtain ⟨rfl, hn, x', hx', hi⟩ := h.pending t i e' hp
    by_cases hee : e = e'
    · subst hee
      cases hx.symm.trans hx'
      exact ⟨rfl, hn, x.disarmed, by rw [he, List.getElem?_set_self (List.getElem?_eq_some_iff.mp hx).1], hi⟩
    · exact ⟨rfl, hn, x', by rw [he, List.getElem?_set_ne hee, hx'], hi⟩
  gone e' hlost := by
    obtain ⟨harmed, hnone⟩ := h.gone e' hlost
    have hne : e ≠ e' := fun hee => hl (hee ▸ hlost)
    refine ⟨by rwa [isArmed, he, List.getElem?_set_ne hne], fun d i hf => ?_⟩
    rw [hw, Wheel.find?_remove h.punctual.tidy] at hf
    split at hf
    · cases hf
    · exact hnone d i hf
  once := by
    rw [hr]
    refine h.once_append (List.nodup_singleton _) fun e' he' => ?_
    rw [List.mem_singleton.mp he', isArmed_eq hx, ha]

private theorem Accounts.resolve (h : b.Accounts t₀ lost) (outcome : Outcome Reply) {p : Pending}
    (hp : ∀ e, p = .entry e → ¬ lost e) : (b.resolve outcome p).Accounts t₀ lost := by
  have hholder := holder?_resolve b outcome p
  have horderly := h.orderly.resolve outcome p
  cases p with
  | waiter w => exact h.idle (idles_deliver b rfl) horderly
  | entry e =>
    by_cases ha : b.isArmed e = true
    · obtain ⟨x, hx, hxa⟩ := armed_of_isArmed ha
      have hx₁ : ({ b with entries := b.entries.set e x.disarmed } : Switchboard).entries[e]? = some x.disarmed :=
        List.getElem?_set_self (List.getElem?_eq_some_iff.mp hx).1
      rw [Switchboard.resolve, settle_complete hx hxa, unpark_eq hx₁] at hholder horderly ⊢
      exact h.disarm (hp e rfl) hx hxa rfl rfl (runs_deliver _ _) hholder horderly
    · rw [Switchboard.resolve, settle_complete_of_not_armed (by simpa using ha)]
      exact h

private theorem Accounts.receive (h : b.Accounts t₀ lost) (t : TableId) (reply : Reply) :
    (b.receive t reply).2.Accounts t₀ lost := by
  have ht := h.idle (idles_take b t reply.requestId) (h.orderly.take t reply.requestId)
  have hfst := fst_take b t reply.requestId
  unfold Switchboard.receive
  split
  · rename_i p b' heq
    rw [heq] at ht hfst
    refine ht.resolve _ fun e he => ?_
    exact (h.pending t reply.requestId e (by rw [← hfst, he])).2.1
  · rename_i b' heq
    rwa [heq] at ht

private theorem Accounts.drainWith (h : b.Accounts t₀ lost) (t : TableId) (outcome : Outcome Reply) :
    (b.drainWith t outcome).2.Accounts t₀ lost := by
  have all : ∀ (pending : List Pending), (∀ e, .entry e ∈ pending → ¬ lost e) → ∀ b : Switchboard,
      b.Accounts t₀ lost → (pending.foldl (fun b p => b.resolve outcome p) b).Accounts t₀ lost := by
    intro pending
    induction pending with
    | nil => exact fun _ _ h => h
    | cons p rest ih =>
      intro hp b h
      exact ih (fun e he => hp e (List.mem_cons_of_mem _ he)) _
        (h.resolve outcome fun e he => hp e (he ▸ List.mem_cons_self))
  refine all _ (fun e he => ?_) _ (h.idle (idles_drain b t) (orderly_drain h.orderly t))
  obtain ⟨i, hi⟩ := (mem_drain_iff (h.orderly t)).mp he
  exact (h.pending t i e hi).2.1

/-! ### What is due is failed -/

private theorem holder?_of_withdraw {t : TableId} {i : Ident} {p : Pending} (h : (b.withdraw e).holder? t i = some p) :
    b.holder? t i = some p := by
  unfold withdraw at h
  split at h
  · rename_i x _
    split at h
    · have htake : (b.take x.table x.requestId).2.holder? t i = some p := by
        split at h
        · rename_i q b' heq
          rw [heq]
          rwa [holder?, Switchboard.table, tables_abandon] at h
        · rename_i b' heq
          rwa [heq]
      rw [holder?_take] at htake
      split at htake
      · cases htake
      · exact htake
    · exact h
  · exact h

private theorem holder?_of_expireAll {t : TableId} {i : Ident} {p : Pending} (es : List EntryId) :
    ∀ {b : Switchboard}, (b.expireAll es).2.holder? t i = some p → b.holder? t i = some p := by
  induction es with
  | nil => exact fun h => h
  | cons e rest ih =>
    intro b h
    replace h : (b.settle (.expire e)).holder? t i = some p := ih h
    by_cases ha : b.isArmed e = true
    · obtain ⟨x, hx, hxa⟩ := armed_of_isArmed ha
      rw [settle_expire hx hxa] at h
      exact holder?_of_withdraw (b := { b with entries := b.entries.set e x.disarmed }) h
    · rwa [settle_expire_of_not_armed (by simpa using ha)] at h

private theorem map_fst_timeouts {es : List EntryId} (h : ∀ e ∈ es, b.isArmed e = true) :
    (b.timeouts es).map (·.1) = es := by
  induction es with
  | nil => rfl
  | cons e rest ih =>
    obtain ⟨x, hx, -⟩ := armed_of_isArmed (h e List.mem_cons_self)
    have hcons : b.timeouts (e :: rest) = (e, .error (.timeout x.wait)) :: b.timeouts rest := by simp [timeouts, hx]
    rw [hcons, List.map_cons, ih fun e he => h e (List.mem_cons_of_mem _ he)]

private theorem Accounts.expireDue (h : b.Accounts t₀ lost) (second : Nat) :
    (b.expireDue second).2.Accounts t₀ lost := by
  have hf := (h.punctual.fails_expireDue second).2
  have harmed : ∀ e ∈ b.wheel.due second, b.isArmed e = true := by
    intro e he
    obtain ⟨x, hx, ha, -⟩ := h.punctual.isArmed_of_mem_due he
    exact (isArmed_eq hx).trans ha
  refine ⟨h.punctual.expireDue second, h.orderly.expireDue second, fun e x hx ha => ?_, fun t i e hp => ?_,
    fun e hlost => ?_, ?_⟩
  · -- what is still unfinished was not due
    have hdue : e ∉ b.wheel.due second := by
      intro hdue
      rw [← isArmed_eq hx, hf.isArmed_of_mem hdue] at ha
      cases ha
    refine (h.parked e x ((hf.others e hdue).symm.trans hx) ha).imp_left fun hw => ?_
    rw [hf.wheel, Wheel.find?_later h.punctual.tidy, if_neg, hw]
    exact fun hle => hdue ((Wheel.mem_due_iff h.punctual.tidy).mpr ⟨_, _, hle, hw⟩)
  · have hp := holder?_of_expireAll (b := { b with wheel := b.wheel.later second }) _ hp
    obtain ⟨rfl, hn, x, hx, hi⟩ := h.pending t i e hp
    obtain ⟨x', hx', hd⟩ := (lasts_expireDue b second).kept e x hx
    exact ⟨rfl, hn, x', hx', (congrArg Entry.requestId hd :).trans hi⟩
  · obtain ⟨ha, hnone⟩ := h.gone e hlost
    have hdue : e ∉ b.wheel.due second := by
      intro hdue
      obtain ⟨d, i, -, hw⟩ := (Wheel.mem_due_iff h.punctual.tidy).mp hdue
      exact hnone d i hw
    refine ⟨by rwa [isArmed, hf.others e hdue], fun d i hw => ?_⟩
    rw [hf.wheel, Wheel.find?_later h.punctual.tidy] at hw
    split at hw
    · cases hw
    · exact hnone d i hw
  · have hfst : (({ b with wheel := b.wheel.later second } : Switchboard).timeouts (b.wheel.due second)).map (·.1) =
        b.wheel.due second := map_fst_timeouts harmed
    rw [hf.runs]
    refine h.once_append (hfst.symm ▸ h.punctual.nodup_due second) fun e he => harmed e ?_
    rwa [hfst] at he

/-! ### A command is posted -/

/-- A new command bears the identifier of an unfinished one and has its deadline. -/
def DisplacedBy (b : Switchboard) (now : Nat) (id : Ident) (wait : Span) (e : EntryId) : Prop :=
  ∃ x : Entry, b.entries[e]? = some x ∧ x.armed = true ∧ x.deadline = Wheel.deadline now wait ∧ x.requestId = id

private theorem Accounts.isArmed_of_lost (h : b.Accounts t₀ lost) {now : Nat} {id : Ident} {wait : Span}
    (hlost : lost e ∨ b.DisplacedBy now id wait e) : b.isArmed e = true := by
  rcases hlost with hlost | ⟨x, hx, ha, -⟩
  · exact (h.gone e hlost).1
  · exact (isArmed_eq hx).trans ha

private theorem ne_length_of_isArmed (h : b.isArmed e = true) : e ≠ b.entries.length := by
  obtain ⟨x, hx, -⟩ := armed_of_isArmed h
  exact Nat.ne_of_lt (List.getElem?_eq_some_iff.mp hx).1

/-- A new command is parked on the wheel and entered into the table, and takes the places of the one that it
displaces. -/
private theorem Accounts.park (h : b.Accounts t₀ lost) {now : Nat} {id : Ident} {wait : Span} {t : TableId}
    (he : b'.entries = (b.defer now id wait t).2.entries) (hw : b'.wheel = (b.defer now id wait t).2.wheel)
    (hr : b'.runs = b.runs) (ho : b'.IsOrderly)
    (hh : ∀ t' i e, b'.holder? t' i = some (.entry e) → e = b.entries.length ∧ t' = t₀ ∧ i = id ∨
      b.holder? t' i = some (.entry e) ∧ ¬ (t' = t₀ ∧ i = id)) :
    b'.Accounts t₀ fun e => lost e ∨ b.DisplacedBy now id wait e := by
  have hnew : b'.entries[b.entries.length]? = some ⟨id, Wheel.deadline now wait, wait, t, true⟩ := by
    rw [he, entries_defer]
    exact List.getElem?_concat_length
  have hold : ∀ {e : EntryId} {x : Entry}, b.entries[e]? = some x → b'.entries[e]? = some x := by
    intro e x hx
    rw [he, entries_defer, List.getElem?_append_left (List.getElem?_eq_some_iff.mp hx).1, hx]
  refine ⟨(Calm.of_eq he hw hr).punctual ((calm_defer b now id wait t).punctual h.punctual), ho, fun e x hx ha => ?_,
    fun t' i e hp => ?_, fun e hlost => ?_, hr ▸ h.once⟩
  · rw [hw, wheel_defer, Wheel.find?_insert h.punctual.tidy]
    rw [he] at hx
    rcases getElem?_defer hx with hx | ⟨rfl, rfl⟩
    · rcases h.parked e x hx ha with hf | hlost
      · split
        · rename_i hsame
          exact .inr (.inr ⟨x, hx, ha, hsame⟩)
        · exact .inl hf
      · exact .inr (.inl hlost)
    · exact .inl (if_pos ⟨rfl, rfl⟩)
  · rcases hh t' i e hp with ⟨rfl, rfl, rfl⟩ | ⟨hp, hne⟩
    · exact ⟨rfl, fun hlost => ne_length_of_isArmed (h.isArmed_of_lost hlost) rfl, _, hnew, rfl⟩
    · obtain ⟨rfl, hn, x, hx, hi⟩ := h.pending t' i e hp
      refine ⟨rfl, ?_, x, hold hx, hi⟩
      -- a command of this identifier is no longer in the table
      rintro (hlost | ⟨x', hx', -, -, hid⟩)
      · exact hn hlost
      · cases hx.symm.trans hx'
        exact hne ⟨rfl, hi.symm.trans hid⟩
  · have ha := h.isArmed_of_lost hlost
    obtain ⟨x, hx, hxa⟩ := armed_of_isArmed ha
    refine ⟨(isArmed_eq (hold hx)).trans hxa, fun d i hf => ?_⟩
    rw [hw, wheel_defer, Wheel.find?_insert h.punctual.tidy] at hf
    split at hf
    · exact ne_length_of_isArmed ha (Option.some.inj hf).symm
    · rename_i hne
      rcases hlost with hlost | ⟨x', hx', -, hd, hid⟩
      · exact (h.gone e hlost).2 d i hf
      · obtain ⟨x'', hx'', rfl, rfl, -⟩ := h.punctual.parked d i e hf
        cases hx'.symm.trans hx''
        exact hne ⟨hd, hid⟩

/-- A post loses the command that it displaces, and accounts for all others. -/
private theorem Accounts.deferRegistered (h : b.Accounts t₀ lost) (ht : t₀ < b.tables.length) (now : Nat) (id : Ident)
    (wait : Span) : (b.deferRegistered now id wait t₀).2.2.Accounts t₀ fun e =>
      lost e ∨ b.DisplacedBy now id wait e := by
  by_cases hc : (b.table t₀).closed = true
  · -- nothing is in a closed table, and it refuses the new command
    have hempty : ∀ i, b.holder? t₀ i = none := fun i => by rw [holder?, (h.orderly t₀).empty hc]; rfl
    have hdefer : (b.defer now id wait t₀).2.Accounts t₀ fun e => lost e ∨ b.DisplacedBy now id wait e := by
      refine h.park rfl rfl rfl h.orderly fun t' i e hp => .inr ⟨hp, ?_⟩
      rintro ⟨rfl, -⟩
      rw [show (b.defer now id wait t').2.holder? t' i = b.holder? t' i from rfl, hempty] at hp
      cases hp
    have hrefused : (b.deferRegistered now id wait t₀).2.2 =
        (b.defer now id wait t₀).2.resolve (.error .connectionClosed) (.entry b.entries.length) := by
      have hreg := register_of_closed (b := (b.defer now id wait t₀).2) hc id (.entry b.entries.length)
      simp only [Switchboard.deferRegistered]
      rw [show (b.defer now id wait t₀).1 = b.entries.length from rfl, hreg]
    rw [hrefused]
    refine hdefer.resolve _ fun e he hlost => ?_
    cases he
    exact ne_length_of_isArmed (h.isArmed_of_lost hlost) rfl
  · have hopen : (b.table t₀).closed = false := by simpa using hc
    rw [deferRegistered_of_open hopen]
    refine h.park (entries_register ..) (wheel_register ..) (runs_register ..)
      (IsOrderly.register (b := (b.defer now id wait t₀).2) h.orderly t₀ id _) fun t' i e hp => ?_
    rw [holder?_register (b := (b.defer now id wait t₀).2) ht hopen] at hp
    split at hp
    · rename_i hsame
      cases hp
      exact .inl ⟨rfl, hsame⟩
    · rename_i hne
      exact .inr ⟨hp, hne⟩

end Switchboard

namespace Traffic

open Switchboard

/-- A command whose callback has not run is displaced when another one with its identifier and deadline is posted. -/
def Displaces (p : Traffic) (e : EntryId) : Operation → Prop
  | .post now id wait t => t < p.board.tables.length ∧ p.board.outcomes (.entry e) = [] ∧
      ∃ x ∈ p.board.entries[e]?, x.deadline = Wheel.deadline now wait ∧ x.requestId = id
  | _ => False

instance (p : Traffic) (e : EntryId) : DecidablePred (p.Displaces e)
  | .post _ _ _ _ => inferInstanceAs (Decidable (_ ∧ _ ∧ _))
  | .openTable | .await _ _ _ | .receive _ _ | .timeOut _ | .expireDue _ | .teardown _ =>
    inferInstanceAs (Decidable False)

/-- At some point of a run a command is displaced. -/
def Displaced (p : Traffic) (ops : List Operation) (e : EntryId) : Prop :=
  ∃ before op after, ops = before ++ op :: after ∧ (p.run before).Displaces e op

private theorem displaced_nil (p : Traffic) (e : EntryId) : ¬ p.Displaced [] e := by
  rintro ⟨before, op, after, h, -⟩
  cases before <;> cases h

private theorem displaced_cons_iff (p : Traffic) (op : Operation) (ops : List Operation) (e : EntryId) :
    p.Displaced (op :: ops) e ↔ p.Displaces e op ∨ (p.step op).Displaced ops e := by
  constructor
  · rintro ⟨before, op', after, h, hd⟩
    cases before with
    | nil =>
      cases h
      exact .inl hd
    | cons first before =>
      obtain ⟨rfl, rfl⟩ := List.cons.inj h
      exact .inr ⟨before, op', after, rfl, hd⟩
  · rintro (hd | ⟨before, op', after, rfl, hd⟩)
    · exact ⟨[], op, ops, rfl, hd⟩
    · exact ⟨op :: before, op', after, rfl, hd⟩

instance decidableDisplaced : ∀ (p : Traffic) (ops : List Operation) (e : EntryId), Decidable (p.Displaced ops e)
  | p, [], e => .isFalse (displaced_nil p e)
  | p, op :: ops, e =>
    have := decidableDisplaced (p.step op) ops e
    decidable_of_iff _ (displaced_cons_iff p op ops e).symm

/-- The table for which a command is posted. -/
def Operation.postTable? : Operation → Option TableId
  | post _ _ _ t => some t
  | _ => none

/-- All commands are posted for one table. -/
def OnTable (t₀ : TableId) (ops : List Operation) : Prop := ∀ op ∈ ops, ∀ t ∈ op.postTable?, t = t₀

instance (t₀ : TableId) : DecidablePred (OnTable t₀) := fun ops =>
  inferInstanceAs (Decidable (∀ op ∈ ops, ∀ t ∈ op.postTable?, t = t₀))

variable {t₀ : TableId} {lost : EntryId → Prop} {p : Traffic}

private theorem displacedBy_iff (h : p.board.Punctual) (now : Nat) (id : Ident) (wait : Span) {t : TableId}
    (ht : t < p.board.tables.length) (e : EntryId) :
    p.board.DisplacedBy now id wait e ↔ p.Displaces e (.post now id wait t) := by
  constructor
  · rintro ⟨x, hx, ha, hsame⟩
    exact ⟨ht, (h.outcomes_eq_nil_iff hx).mpr ha, x, hx, hsame⟩
  · rintro ⟨-, ho, x, hx, hsame⟩
    exact ⟨x, hx, (h.outcomes_eq_nil_iff hx).mp ho, hsame⟩

/-- One operation loses what it displaces, and accounts for all other commands. -/
private theorem accounts_step (h : p.board.Accounts t₀ lost) {op : Operation} (hop : ∀ t ∈ op.postTable?, t = t₀) :
    (p.step op).board.Accounts t₀ fun e => lost e ∨ p.Displaces e op := by
  by_cases hpost : ∃ now id wait t, op = .post now id wait t ∧ t < p.board.tables.length
  · obtain ⟨now, id, wait, t, rfl, ht⟩ := hpost
    obtain rfl : t = t₀ := hop t rfl
    simp only [← displacedBy_iff h.punctual now id wait ht]
    rw [step, if_pos ht]
    exact h.deferRegistered ht now id wait
  · have hnone : ∀ e, ¬ p.Displaces e op := by
      intro e hd
      cases op with
      | post now id wait t => exact hpost ⟨now, id, wait, t, rfl, hd.1⟩
      | _ => exact hd
    simp only [hnone, or_false]
    cases op with
    | openTable => exact h.idle (idles_newTable _) h.orderly.newTable
    | post now id wait t =>
      rw [step, if_neg fun ht => hpost ⟨now, id, wait, t, rfl, ht⟩]
      exact h
    | await id bound t =>
      rw [step]
      split
      · rename_i ht
        have hawait := h.idle (idles_await ht id bound) (h.orderly.await t id bound)
        split
        all_goals
          rename_i heq
          rwa [heq] at hawait
      · exact h
    | receive t reply => exact h.receive t reply
    | timeOut n =>
      simp only [step]
      split
      · exact h.idle (idles_timeOut _ _) (h.orderly.timeOut _)
      · exact h
    | expireDue second => exact h.expireDue second
    | teardown t => exact h.drainWith t _

/-- A run loses what its operations displace, each at its turn, and accounts for all other commands. -/
private theorem accounts_run (h : p.board.Accounts t₀ lost) {ops : List Operation} (hops : OnTable t₀ ops) :
    (p.run ops).board.Accounts t₀ fun e => lost e ∨ p.Displaced ops e := by
  induction ops generalizing p lost with
  | nil =>
    simp only [displaced_nil, or_false]
    exact h
  | cons op ops ih =>
    have hrun := ih (accounts_step h (hops op List.mem_cons_self)) fun op' hm => hops op' (List.mem_cons_of_mem _ hm)
    simpa only [displaced_cons_iff, or_assoc, run_cons] using hrun

/-! ### The end of a run -/

private theorem length_outcomes_le_one (h : p.board.Accounts t₀ lost) (e : EntryId) :
    (p.board.outcomes (.entry e)).length ≤ 1 := by
  have hcount : (p.board.outcomes (.entry e)).length = (p.board.runs.map (·.1)).count e := by
    rw [outcomes_eq_runs, List.length_map, List.count_eq_countP, List.countP_map, List.countP_eq_length_filter]
    rfl
  rw [hcount]
  exact List.nodup_iff_count_le_one.mp h.once e

private theorem outcomes_eq_nil_of_lost (h : p.board.Accounts t₀ lost) {e : EntryId} (he : lost e) :
    p.board.outcomes (.entry e) = [] := by
  obtain ⟨x, hx, ha⟩ := armed_of_isArmed (h.gone e he).1
  exact (h.punctual.outcomes_eq_nil_iff hx).mpr ha

/-- The wheel finds every unfinished command that is not lost. -/
private theorem mem_runs_expireDue (h : p.board.Accounts t₀ lost) {e : EntryId} (he : ¬ lost e) {x : Entry}
    (hx : p.board.entries[e]? = some x) {last : Nat} (hd : x.deadline ≤ last) :
    ∃ outcome, (e, outcome) ∈ (p.step (.expireDue last)).board.runs := by
  have hfails := (h.punctual.fails_expireDue last).2
  refine ((h.expireDue last).punctual.ran e).mpr ?_
  by_cases hdue : e ∈ p.board.wheel.due last
  · have hfailed := hfails.failed e hdue
    rw [hx] at hfailed
    exact ⟨_, hfailed, rfl⟩
  · refine ⟨x, (hfails.others e hdue).trans hx, Bool.eq_false_iff.mpr fun ha => hdue ?_⟩
    exact (Wheel.mem_due_iff h.punctual.tidy).mpr ⟨_, _, hd, (h.parked e x hx ha).resolve_right he⟩

/-- Commands are posted for one table, under identifiers that may be the same, and answered, failed and awaited in any
order; then the wheel is turned past every deadline and the table is drained. The callback of a command has run exactly
once, unless another one with its identifier and deadline was posted while it was unfinished: then it has not run. -/
theorem runs_once_unless_displaced (t₀ : TableId) (ops : List Operation) (hops : OnTable t₀ ops) (last : Nat)
    (hlast : ∀ x ∈ (run {} ops).board.entries, x.deadline ≤ last) (e : EntryId)
    (he : e < (run {} ops).board.entries.length) :
    ((∃ outcome, (run {} (ops ++ [.expireDue last, .teardown t₀])).board.outcomes (.entry e) = [outcome]) ↔
      ¬ Displaced {} ops e) ∧
    ((run {} (ops ++ [.expireDue last, .teardown t₀])).board.outcomes (.entry e) = [] ↔ Displaced {} ops e) := by
  have hmid : (run {} ops).board.Accounts t₀ (Displaced {} ops) := by
    simpa only [false_or] using accounts_run (p := {}) (accounts_empty t₀) hops
  have hend : (run {} (ops ++ [.expireDue last, .teardown t₀])).board.Accounts t₀ (Displaced {} ops) := by
    rw [run_append]
    exact (hmid.expireDue last).drainWith t₀ _
  have hle := length_outcomes_le_one hend e
  have hlost : Displaced {} ops e → (run {} (ops ++ [.expireDue last, .teardown t₀])).board.outcomes (.entry e) = [] :=
    outcomes_eq_nil_of_lost hend
  have hran : ¬ Displaced {} ops e →
      (run {} (ops ++ [.expireDue last, .teardown t₀])).board.outcomes (.entry e) ≠ [] := by
    intro hn
    have hx := List.getElem?_eq_getElem he
    obtain ⟨outcome, hm⟩ := mem_runs_expireDue hmid hn hx (hlast _ (List.getElem_mem he))
    have ho : ∀ wait, (.error .connectionClosed : Outcome Reply) ≠ .error (.timeout wait) := by simp
    obtain ⟨new, hnew, -⟩ := (calm_drainWith ((run {} ops).step (.expireDue last)).board t₀ ho).runs
    refine List.ne_nil_of_mem (mem_outcomes_iff.mpr (?_ : (e, outcome) ∈ _))
    rw [run_append, run_cons, run_cons, run_nil]
    exact hnew ▸ List.mem_append_left _ hm
  refine ⟨⟨?_, fun hn => ?_⟩, fun hnil => not_not.mp fun hn => hran hn hnil, hlost⟩
  · rintro ⟨outcome, ho⟩ hd
    rw [hlost hd] at ho
    cases ho
  · exact List.length_eq_one_iff.mp (Nat.le_antisymm hle (List.length_pos_iff.mpr (hran hn)))

/-- Three commands under one identifier are posted within a second, the first of them with a longer wait. -/
def triplets : List Operation :=
  [.openTable, .post 0 (.ofHalves 1 0) (.ofSeconds 1) 0, .post 0 (.ofHalves 1 0) .zero 0,
    .post 0 (.ofHalves 1 0) .zero 0]

/-- The last one displaces the second. The first has only lost its place in the table. -/
theorem second_triplet_never_runs : OnTable 0 triplets ∧ (∀ x ∈ (run {} triplets).board.entries, x.deadline ≤ 2) ∧
    (∃ outcome, (run {} (triplets ++ [.expireDue 2, .teardown 0])).board.outcomes (.entry 0) = [outcome]) ∧
    (run {} (triplets ++ [.expireDue 2, .teardown 0])).board.outcomes (.entry 1) = [] ∧
    (∃ outcome, (run {} (triplets ++ [.expireDue 2, .teardown 0])).board.outcomes (.entry 2) = [outcome]) := by
  have hone : OnTable 0 triplets := by decide
  have hlast : ∀ x ∈ (run {} triplets).board.entries, x.deadline ≤ 2 := by decide
  have once := fun e he => runs_once_unless_displaced 0 triplets hone 2 hlast e he
  exact ⟨hone, hlast, (once 0 (by decide)).1.mpr (by decide), (once 1 (by decide)).2.mpr (by decide),
    (once 2 (by decide)).1.mpr (by decide)⟩

/-- Two commands that differ in nothing are posted within a second. -/
def twins : List Operation :=
  [.openTable, .post 0 (.ofHalves 1 0) .zero 0, .post 0 (.ofHalves 1 0) .zero 0]

/-- When the wheel has been turned past their deadline and their table has been drained, the first has not run. -/
theorem first_twin_never_runs : OnTable 0 twins ∧ (run {} twins).board.entries.map (·.deadline) = [1, 1] ∧
    (run {} (twins ++ [.expireDue 1, .teardown 0])).board.outcomes (.entry 0) = [] ∧
    ((run {} (twins ++ [.expireDue 1, .teardown 0])).board.outcomes (.entry 1)).length = 1 := by
  decide

end Traffic

end LockService
