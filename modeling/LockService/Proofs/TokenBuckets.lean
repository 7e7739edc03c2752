import LockService.Call.Interleaving
import LockService.Proofs.ExpireWords
import Mathlib.Data.List.Basic
import Mathlib.Data.List.Induction

/-!
# How many slots a bucket grants in a window

At most as many slots as the bucket has permits are held at a time. A first attempt that is granted in the window in
which it is made holds its slot to the end of that window, so that of these no more are granted in one window than there
are permits. An attempt that waits into a later window and is granted there keeps the short time it asked for; such
slots can lapse within the window and make room for more of their kind (`TokenBucket.Users.aligned_in_window_le`).
-/

namespace LockService

/-! ### The requests of a call -/

/-- Every request that a call may send is of some kind. -/
def Call.Sends {σ α : Type} (P : LockRequest → Prop) : Call σ α → Prop
  | .done _ => True
  | .look next => ∀ s, (next s).Sends P
  | .put _ next => next.Sends P
  | .draw next => ∀ id, (next id).Sends P
  | .send request next => P request ∧ ∀ outcome, (next outcome).Sends P

private theorem Call.Sends.advance {σ α : Type} {P : LockRequest → Prop} {call : Call σ α} (h : call.Sends P) (s : σ)
    (ids : IdSource) : ∀ {request resume s' ids'}, call.advance s ids = (.waiting request resume, s', ids') →
      P request ∧ ∀ outcome, (resume outcome).Sends P := by
  induction call generalizing s ids with
  | done value => exact nofun
  | look next ih => exact ih s (h s) s ids
  | put state next ih => exact ih h state ids
  | draw next ih => exact ih ids.upcoming (h ids.upcoming) s ids.advance
  | send request next =>
    intro request' resume s' ids' he
    cases he
    exact h

private theorem Call.Sends.bind {σ α β : Type} {P : LockRequest → Prop} {call : Call σ α} (h : call.Sends P)
    {next : α → Call σ β} (hnext : ∀ value, (next value).Sends P) : (call >>= next).Sends P := by
  show (Call.bind call next).Sends P
  induction call with
  | done value => exact hnext value
  | look _ ih => exact fun s => ih s (h s)
  | put _ _ ih => exact ih h
  | draw _ ih => exact fun id => ih id (h id)
  | send _ _ ih => exact ⟨h.1, fun outcome => ih outcome (h.2 outcome)⟩

namespace TokenBucket

variable {h : TokenBucket}

/-- A request for a slot beside as many others as there are permits for. -/
def AsksSlot (h : TokenBucket) (request : LockRequest) : Prop := request.count = h.permits - 1

private theorem sends_takeSlot (h : TokenBucket) (expire : TimeWord) :
    (h.takeSlot expire : Attempt Unit LockReply).outcome.Sends h.AsksSlot := by
  intro id id'
  exact ⟨rfl, fun _ => trivial⟩

private theorem sends_acquire (h : TokenBucket) (now : Nat) :
    (h.acquire now : Attempt Unit LockReply).outcome.Sends h.AsksSlot := by
  refine Call.Sends.bind (sends_takeSlot h (h.currentWindow now).expire) fun outcome => ?_
  cases outcome with
  | ok reply => trivial
  | error failure =>
    dsimp only
    split
    · exact sends_takeSlot h (periodExpire h.period)
    · trivial

/-- An acquire waits first for a slot that lasts to the end of the window. -/
theorem advance_acquire (h : TokenBucket) (now : Nat) (ids : IdSource) : ∃ request resume,
    (h.acquire now : Attempt Unit LockReply).outcome.advance () ids =
      (.waiting request resume, (), ids.advance.advance) ∧ request.expire = (h.currentWindow now).expire :=
  ⟨_, _, rfl, rfl⟩

namespace Users

variable {p p' : Users}

private theorem lt_windowEnd (h : TokenBucket) (now : Nat) : now < windowEnd h now :=
  Window.lt_boundaryAt (one_le_windowLength h.period) now

private theorem windowEnd_le (h : TokenBucket) (now : Nat) :
    windowEnd h now ≤ now + (h.currentWindow now).expire.holdMillis :=
  Nat.sub_le_iff_le_add'.mp
    (Window.measures_containing (one_le_windowLength h.period) (windowLength_le h.period) now).covers

/-! ### What everything that happens keeps -/

/-- What is known of an attempt that waits. -/
structure Fair (h : TokenBucket) (now : Nat) (a : Waiting) : Prop where
  asks : h.AsksSlot a.request
  resumes : ∀ outcome, (a.resume outcome).Sends h.AsksSlot
  past : a.asked ≤ now
  word : a.aligned = true → a.request.expire = (h.currentWindow a.asked).expire

/-- What is known of a slot. Counted from when it was asked for, the slot of a first attempt would last to the end of
the window of that time. -/
structure Sound (h : TokenBucket) (now : Nat) (slot : Slot) : Prop where
  order : slot.asked ≤ slot.granted
  past : slot.granted ≤ now
  word : slot.aligned = true → windowEnd h slot.asked + slot.granted ≤ slot.asked + slot.ends

/-- The slots that were granted before an instant and end at it or later. -/
def spanning (p : Users) (stop : Nat) : List Slot := p.slots.filter fun slot => slot.granted < stop && stop ≤ slot.ends

structure Kept (h : TokenBucket) (p : Users) : Prop where
  fair : ∀ a ∈ p.waiting, Fair h p.now a
  sound : ∀ slot ∈ p.slots, Sound h p.now slot
  spans : ∀ stop, (p.spanning stop).length ≤ (h.permits - 1).toNat + 1

private theorem kept_fresh (h : TokenBucket) (now : Nat) : Kept h { now } where
  fair _ ha := absurd ha List.not_mem_nil
  sound _ hslot := absurd hslot List.not_mem_nil
  spans _ := Nat.zero_le _

/-- A call that goes on changes nothing but what waits and what is over. -/
private theorem Kept.proceed (hp : Kept h p) {aligned : Bool} {call : Call Unit (Outcome LockReply)} {ids : IdSource}
    (hsends : call.Sends h.AsksSlot) (hword : aligned = true → ∀ request resume s' ids',
      call.advance () ids = (.waiting request resume, s', ids') → request.expire = (h.currentWindow p.now).expire) :
    Kept h (p.proceed aligned call ids) := by
  unfold Users.proceed
  cases hadvance : call.advance () ids with
  | mk stage rest =>
    obtain ⟨s', ids'⟩ := rest
    cases stage with
    | finished value => exact ⟨hp.fair, hp.sound, hp.spans⟩
    | waiting request resume =>
      refine ⟨?_, hp.sound, hp.spans⟩
      intro a ha
      rcases List.mem_append.mp ha with ha | ha
      · exact hp.fair a ha
      · obtain rfl := List.mem_singleton.mp ha
        obtain ⟨hasks, hresumes⟩ := hsends.advance () ids hadvance
        exact ⟨hasks, hresumes, Nat.le_refl _, fun haligned => hword haligned _ _ _ _ hadvance⟩

/-- Of the slots that are held when a further one is granted none ends before it is. -/
private theorem Kept.grant (hp : Kept h p) {n : Nat} {a : Waiting} (ha : p.waiting[n]? = some a)
    (hroom : p.HasRoom a.request) :
    Kept h { p with
      waiting := p.waiting.eraseIdx n
      slots := p.slots ++ [⟨a.aligned, a.asked, p.now, p.now + a.request.expire.holdMillis⟩] } := by
  have hfair := hp.fair a (List.mem_of_getElem? ha)
  refine ⟨fun b hb => hp.fair b (List.mem_of_mem_eraseIdx hb), ?_, ?_⟩
  · intro slot hslot
    rcases List.mem_append.mp hslot with hslot | hslot
    · exact hp.sound slot hslot
    · obtain rfl := List.mem_singleton.mp hslot
      refine ⟨hfair.past, Nat.le_refl _, fun haligned => ?_⟩
      have hend := windowEnd_le h a.asked
      rw [hfair.word haligned]
      dsimp only
      omega
  · intro stop
    have hbefore := hp.spans stop
    by_cases hnew : p.now < stop ∧ stop ≤ p.now + a.request.expire.holdMillis
    · have hheld : (p.spanning stop).length ≤ p.held.length := by
        unfold spanning held
        rw [← List.countP_eq_length_filter, ← List.countP_eq_length_filter]
        refine List.countP_mono_left fun slot _ hslot => ?_
        simp only [Bool.and_eq_true, decide_eq_true_eq] at hslot ⊢
        omega
      have hcount : p.held.length ≤ (h.permits - 1).toNat := hfair.asks ▸ hroom
      unfold spanning at hheld ⊢
      rw [List.filter_append, List.length_append]
      have hone := List.length_filter_le (fun slot : Slot => decide (slot.granted < stop) && decide (stop ≤ slot.ends))
        [⟨a.aligned, a.asked, p.now, p.now + a.request.expire.holdMillis⟩]
      rw [List.length_singleton] at hone
      omega
    · have hnone : [(⟨a.aligned, a.asked, p.now, p.now + a.request.expire.holdMillis⟩ : Slot)].filter
          (fun slot => decide (slot.granted < stop) && decide (stop ≤ slot.ends)) = [] := by
        refine List.filter_cons_of_neg ?_
        simpa only [Bool.and_eq_true, decide_eq_true_eq] using hnew
      unfold spanning at hbefore ⊢
      rw [List.filter_append, hnone, List.append_nil]
      exact hbefore

private theorem Kept.step (hp : Kept h p) (use : Use) : Kept h (p.step h use) := by
  cases use with
  | acquire ids =>
    refine hp.proceed (sends_acquire h p.now) fun _ request resume s' ids' hadvance => ?_
    obtain ⟨request', resume', hfirst, hexpire⟩ := advance_acquire h p.now ids
    rw [hfirst] at hadvance
    cases hadvance
    exact hexpire
  | tick =>
    refine ⟨fun a ha => ?_, fun slot hslot => ?_, hp.spans⟩
    · obtain ⟨hasks, hresumes, hpast, hword⟩ := hp.fair a ha
      exact ⟨hasks, hresumes, Nat.le_succ_of_le hpast, hword⟩
    · obtain ⟨horder, hpast, hword⟩ := hp.sound slot hslot
      exact ⟨horder, Nat.le_succ_of_le hpast, hword⟩
  | grant n =>
    cases ha : p.waiting[n]? with
    | none =>
      simp only [Users.step, ha]
      exact hp
    | some a =>
      simp only [Users.step, ha]
      split
      case isTrue hroom =>
        exact (hp.grant ha hroom).proceed ((hp.fair a (List.mem_of_getElem? ha)).resumes _) nofun
      case isFalse => exact hp
  | refuse n outcome =>
    cases ha : p.waiting[n]? with
    | none =>
      simp only [Users.step, ha]
      exact hp
    | some a =>
      simp only [Users.step, ha]
      split
      case isTrue => exact hp
      case isFalse =>
        have herased : Kept h { p with waiting := p.waiting.eraseIdx n } :=
          ⟨fun b hb => hp.fair b (List.mem_of_mem_eraseIdx hb), hp.sound, hp.spans⟩
        exact herased.proceed ((hp.fair a (List.mem_of_getElem? ha)).resumes _) nofun

private theorem kept_run (h : TokenBucket) (now : Nat) (uses : List Use) : Kept h (run h { now } uses) := by
  induction uses using List.reverseRecOn with
  | nil => exact kept_fresh h now
  | append_singleton uses use ih =>
    rw [run_concat]
    exact ih.step use

/-! ### What is granted in one window -/

/-- Of the first attempts granted in a window, those whose slots do not lapse in it hold them all at its end. -/
private theorem Kept.length_alignedIn_le (hp : Kept h p) (stop : Nat) :
    (p.alignedIn h stop).length ≤ (h.permits - 1).toNat + 1 +
      ((p.alignedIn h stop).filter fun slot => slot.ends < stop).length := by
  have hspans := hp.spans stop
  have hsplit := (p.alignedIn h stop).length_eq_length_filter_add fun slot => decide (slot.ends < stop)
  have hlasting : ((p.alignedIn h stop).filter fun slot => !decide (slot.ends < stop)).length ≤
      (p.spanning stop).length := by
    unfold alignedIn spanning
    rw [List.filter_filter, ← List.countP_eq_length_filter, ← List.countP_eq_length_filter]
    refine List.countP_mono_left fun slot _ hslot => ?_
    simp only [Bool.and_eq_true, Bool.not_eq_true', decide_eq_false_iff_not, decide_eq_true_eq] at hslot ⊢
    have hinside := lt_windowEnd h slot.granted
    omega
  omega

/-- A slot that a first attempt gets in a window and that lapses in it was asked for before the window began. -/
private theorem Kept.asked_before (hp : Kept h p) {stop : Nat} {slot : Slot} (hslot : slot ∈ p.alignedIn h stop)
    (hlapses : slot.ends < stop) : windowEnd h slot.asked < stop := by
  obtain ⟨hmem, hin⟩ := List.mem_filter.mp hslot
  obtain ⟨haligned, hstop⟩ := Bool.and_eq_true_iff.mp hin
  have hword := (hp.sound slot hmem).word haligned
  have horder := (hp.sound slot hmem).order
  omega

private theorem toNat_permits {db : Database} {key : LockKey} {permits : UInt16} {timeout : TimeWord} {period : Float}
    (hh : db.tokenBucket key permits timeout period = .ok h) : (h.permits - 1).toNat + 1 = max permits.toNat 1 := by
  unfold Database.tokenBucket at hh
  split at hh
  case isTrue =>
    cases hh
    exact toNat_atLeastOne_sub_one permits
  case isFalse => cases hh

/-- However many clients take tokens from a bucket, in one window no more first attempts are granted than the bucket has
permits, not counting slots that lapse in that window. All of those were asked for in an earlier window. So if every
first attempt granted in a window is made in it, there are no more than there are permits. -/
theorem aligned_in_window_le {db : Database} {key : LockKey} {permits : UInt16} {timeout : TimeWord} {period : Float}
    (hh : db.tokenBucket key permits timeout period = .ok h) (now : Nat) (uses : List Use) (stop : Nat) :
    ((run h { now } uses).alignedIn h stop).length ≤ max permits.toNat 1 +
      (((run h { now } uses).alignedIn h stop).filter fun slot => slot.ends < stop).length ∧
    (∀ slot ∈ (run h { now } uses).alignedIn h stop, slot.ends < stop → windowEnd h slot.asked < stop) ∧
    ((∀ slot ∈ (run h { now } uses).alignedIn h stop, windowEnd h slot.asked = stop) →
      ((run h { now } uses).alignedIn h stop).length ≤ max permits.toNat 1) := by
  have hkept := kept_run h now uses
  have hcap := hkept.length_alignedIn_le stop
  rw [toNat_permits hh] at hcap
  refine ⟨hcap, fun slot hslot => hkept.asked_before hslot, fun hasked => ?_⟩
  have hnone : ((run h { now } uses).alignedIn h stop).filter (fun slot => slot.ends < stop) = [] := by
    refine List.filter_eq_nil_iff.mpr fun slot hslot hlapses => ?_
    have hbefore := hkept.asked_before hslot (of_decide_eq_true hlapses)
    have hsame := hasked slot hslot
    omega
  rw [hnone, List.length_nil, Nat.add_zero] at hcap
  exact hcap

/-- A bucket with one permit for every ten milliseconds, whose attempts wait up to a second. -/
def trickle : TokenBucket :=
  { dbId := 0, key := LockKey.ofBytes [116], permits := 1, timeout := .seconds 1, period := 0.01 }

private theorem tokenBucket_trickle :
    Database.tokenBucket { id := 0 } (LockKey.ofBytes [116]) 1 (.seconds 1) 0.01 = .ok trickle := by
  have hperiod : ((0.01 : Float).isFinite && (0.01 : Float) > 0) = true := by decide +kernel
  exact if_pos hperiod

/-- Identifiers for the `n`-th client. -/
def clientIds (n : UInt32) : IdSource := .seeded (n * 100) fun _ => ⟨1700000000000, 9⟩

/-- Two clients ask early in a window, and one of them is granted. -/
def earlyComers : List Use := [.acquire (clientIds 0), .acquire (clientIds 1), .grant 1, .tick, .grant 0]

/-- The window has one permit, and the other client waits on. -/
theorem earlyComers_share_permit : (∀ slot ∈ (run trickle { now := 0 } earlyComers).alignedIn trickle 10,
      windowEnd trickle slot.asked = 10) ∧
    ((run trickle { now := 0 } earlyComers).alignedIn trickle 10).length ≤ 1 ∧
    (run trickle { now := 0 } earlyComers).waiting.length = 1 := by
  have hasked : ∀ slot ∈ (run trickle { now := 0 } earlyComers).alignedIn trickle 10,
      windowEnd trickle slot.asked = 10 := by decide +kernel
  have hcap := (aligned_in_window_le tokenBucket_trickle 0 earlyComers 10).2.2 hasked
  exact ⟨hasked, hcap, by decide +kernel⟩

/-- A token is taken in time; two more clients ask a millisecond before the window closes and wait. -/
def lateComers : List Use :=
  [.acquire (clientIds 0), .grant 0] ++ List.replicate 9 .tick ++
    [.acquire (clientIds 1), .acquire (clientIds 2), .tick, .grant 0, .tick, .grant 0]

/-- Both are granted in the next window, one after the other, although there is one permit. -/
theorem lateComers_exceed_permits :
    Database.tokenBucket { id := 0 } (LockKey.ofBytes [116]) 1 (.seconds 1) 0.01 = .ok trickle ∧
    (∀ before use, before ++ [use] <+: lateComers → (run trickle { now := 0 } before).IsPrompt use) ∧
    ((run trickle { now := 0 } lateComers).alignedIn trickle 20).length = 2 :=
  ⟨tokenBucket_trickle, forall_of_positions (by decide +kernel), by decide +kernel⟩

end Users

end TokenBucket

end LockService
