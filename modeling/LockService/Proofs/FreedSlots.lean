import LockService.Call.Standing
import LockService.Proofs.Semaphores
import LockService.Proofs.SharedSources
import Mathlib.Data.Seq.Basic

/-!
# Freeing all slots of a semaphore

A call that frees all slots sends a release, and after each success another one. Whatever sequence of answers its
requests get, it ends just if one of them is no success, and the first such answer decides what it returns: how many
successes came before if no slot is held any more, and the failure otherwise (`Semaphore.freeing_stops_when_refused`).
-/

namespace LockService

open Stream' (Seq)

private theorem take_take_of_le {α : Type} (sequence : Seq α) {m n : Nat} (hnm : n ≤ m) :
    (sequence.take m).take n = sequence.take n := by
  refine List.ext_getElem? fun i => ?_
  rw [List.getElem?_take, Stream'.Seq.getElem?_take, Stream'.Seq.getElem?_take]
  by_cases hin : i < n
  · rw [if_pos hin, if_pos hin, if_pos (Nat.lt_of_lt_of_le hin hnm)]
  · rw [if_neg hin, if_neg hin]

/-! ### The failure that no slot is held -/

private theorem LockFault.ofCode?_eq_unlocked_iff (code : UInt8) :
    ofCode? code = some unlocked ↔ code = ResultCode.unlocked := by
  constructor
  · intro h
    by_contra hother
    rw [ofCode?, if_neg hother] at h
    split_ifs at h <;> cases h
  · rintro rfl
    rfl

private theorem Failure.isUnlocked_ofReply_iff (reply : LockReply) :
    (ofReply reply).isUnlocked = true ↔ reply.result = ResultCode.unlocked := by
  rw [isUnlocked_iff, ← LockFault.ofCode?_eq_unlocked_iff, ofReply, lockFault?, Option.some.injEq]
  cases LockFault.ofCode? reply.result <;> simp

namespace Semaphore

variable {σ : Type} {h : Semaphore} {rounds freed : Nat} {s : σ} {ids : IdSource} {answer : Outcome Reply}
  {answers : List (Outcome Reply)}

/-- What a call that frees all slots returns when it has freed some and then gets an answer that is no success. -/
inductive Concludes (freed : Nat) : Outcome Reply → Outcome Nat → Prop
  /-- The service says that no slot is held. -/
  | noneHeld {reply : LockReply} (result : reply.result = ResultCode.unlocked) :
    Concludes freed (.ok (.lock reply)) (.ok freed)
  | refused {reply : LockReply} (notSuccess : reply.result ≠ ResultCode.success)
      (notUnlocked : reply.result ≠ ResultCode.unlocked) :
    Concludes freed (.ok (.lock reply)) (.error (.ofReply reply))
  /-- The answer is none to a lock request. -/
  | mistaken {reply : Reply} (notLock : ∀ lockReply, reply ≠ .lock lockReply) :
    Concludes freed (.ok reply) (.error (.unexpected (.notLock reply)))
  | foundUnheld {failure : Failure} (fault : failure.lockFault? = some .unlocked) :
    Concludes freed (.error failure) (.ok freed)
  | failed {failure : Failure} (fault : failure.lockFault? ≠ some .unlocked) :
    Concludes freed (.error failure) (.error failure)

/-- How a call that frees all slots goes on with the answer to a release, when it may send `rounds` more. -/
def goOn (h : Semaphore) (rounds freed : Nat) (answer : Outcome Reply) : Call σ (Option (Outcome Nat)) :=
  match answer >>= lockOutcome with
  | .ok _ => h.releaseAllFrom rounds (freed + 1)
  | .error failure => .done (some (if failure.isUnlocked then .ok freed else .error failure))

/-- After a success the next release is sent. -/
private theorem goOn_of_success (hanswer : answer.HasCode ResultCode.success) :
    (h.goOn rounds freed answer : Call σ _) = h.releaseAllFrom rounds (freed + 1) := by
  obtain ⟨reply, hreply⟩ := hanswer.lockOutcome_ok
  rw [goOn, hreply]

/-- Any other answer ends it: with the count if the semaphore was free, or with the failure. -/
private theorem goOn_of_error {failure : Failure} (hfailure : answer >>= lockOutcome = .error failure) :
    (h.goOn rounds freed answer : Call σ _) =
      .done (some (if failure.isUnlocked then .ok freed else .error failure)) := by
  rw [goOn, hfailure]

/-- An answer that is no success comes to a failure, and the call concludes with that. -/
private theorem concludes_of_not_success (hanswer : ¬ answer.HasCode ResultCode.success) (freed : Nat) :
    ∃ failure, answer >>= lockOutcome = .error failure ∧
      Concludes freed answer (if failure.isUnlocked then .ok freed else .error failure) := by
  cases answer with
  | error failure =>
    refine ⟨failure, rfl, ?_⟩
    split
    case isTrue hunlocked => exact .foundUnheld (failure.isUnlocked_iff.mp hunlocked)
    case isFalse hother => exact .failed (mt failure.isUnlocked_iff.mpr hother)
  | ok reply =>
    cases reply with
    | lock reply =>
      have hresult : reply.result ≠ ResultCode.success := fun hsuccess => hanswer ⟨reply, rfl, hsuccess⟩
      refine ⟨.ofReply reply, if_neg hresult, ?_⟩
      split
      case isTrue hunlocked => exact .noneHeld ((Failure.isUnlocked_ofReply_iff reply).mp hunlocked)
      case isFalse hother => exact .refused hresult (mt (Failure.isUnlocked_ofReply_iff reply).mpr hother)
    | init reply => exact ⟨_, rfl, .mistaken nofun⟩
    | ping reply => exact ⟨_, rfl, .mistaken nofun⟩

/-! ### The requests -/

/-- The `i`-th release of a call that frees all slots: each draws an identifier that it does not need, and then that of
its request. -/
def freeingRequest (h : Semaphore) (ids : IdSource) (i : Nat) : LockRequest where
  kind := .unlock
  requestId := (IdSource.advance^[2 * i + 1] ids).upcoming
  flag := UnlockFlag.oldestHolder
  dbId := h.dbId
  lockId := Ident.zero
  lockKey := h.key
  timeout := h.timeout
  expire := h.expire
  count := h.permits - 1
  reentry := 0

def freeingRequests (h : Semaphore) (ids : IdSource) (count : Nat) : List LockRequest :=
  (List.range count).map (h.freeingRequest ids)

private theorem freeingRequests_succ (h : Semaphore) (ids : IdSource) (count : Nat) :
    h.freeingRequests ids (count + 1) = h.requestOf ids .release :: h.freeingRequests ids.advance.advance count := by
  have hlater : ∀ i, h.freeingRequest ids (i + 1) = h.freeingRequest ids.advance.advance i := by
    intro i
    have hdraws : 2 * (i + 1) + 1 = (2 * i + 1) + 2 := by omega
    rw [freeingRequest, freeingRequest, hdraws, Function.iterate_add_apply]
    rfl
  rw [freeingRequests, List.range_succ_eq_map, List.map_cons, List.map_map]
  exact congrArg₂ List.cons rfl (List.map_congr_left fun i _ => hlater i)

/-! ### The rounds -/

private theorem heed_releaseAllFrom_nil (hrounds : 0 < rounds) : (h.releaseAllFrom rounds freed).heed s ids [] =
    ⟨.waiting (h.requestOf ids .release) (h.goOn (rounds - 1) freed), [h.requestOf ids .release]⟩ := by
  cases rounds with
  | zero => exact absurd hrounds (Nat.lt_irrefl 0)
  | succ rounds => rfl

/-- One answer is heard by one round. -/
private theorem heed_releaseAllFrom_cons (hrounds : 0 < rounds) (answer : Outcome Reply)
    (answers : List (Outcome Reply)) : (h.releaseAllFrom rounds freed).heed s ids (answer :: answers) =
      ((h.goOn (rounds - 1) freed answer).heed s ids.advance.advance answers).after (h.requestOf ids .release) := by
  cases rounds with
  | zero => exact absurd hrounds (Nat.lt_irrefl 0)
  | succ rounds => rfl

/-- More rounds than answers make no difference. -/
theorem alike_of_length_lt {rounds' : Nat} (hrounds : answers.length < rounds) (hrounds' : answers.length < rounds') :
    ((h.releaseAllFrom rounds freed).heed s ids answers).Alike
      ((h.releaseAllFrom rounds' freed).heed s ids answers) := by
  -- Each answer takes one round of both calls, and one that is no success ends both.
  induction answers generalizing rounds rounds' freed ids with
  | nil =>
    rw [heed_releaseAllFrom_nil hrounds, heed_releaseAllFrom_nil hrounds']
    exact ⟨rfl, fun value => ⟨nofun, nofun⟩⟩
  | cons answer answers ih =>
    rw [heed_releaseAllFrom_cons (Nat.zero_lt_of_lt hrounds), heed_releaseAllFrom_cons (Nat.zero_lt_of_lt hrounds')]
    refine Standing.Alike.after ?_ _
    by_cases hanswer : answer.HasCode ResultCode.success
    · rw [goOn_of_success hanswer, goOn_of_success hanswer]
      exact ih (Nat.lt_sub_of_add_lt hrounds) (Nat.lt_sub_of_add_lt hrounds')
    · obtain ⟨failure, hfailure, -⟩ := concludes_of_not_success hanswer freed
      rw [goOn_of_error hfailure, goOn_of_error hfailure]
      exact ⟨rfl, fun value => Iff.rfl⟩

/-- As long as it gets answers of success, a call that frees all slots sends one more release. -/
theorem heed_of_success (hanswers : ∀ answer ∈ answers, answer.HasCode ResultCode.success)
    (hrounds : answers.length < rounds) (freed : Nat) (ids : IdSource) :
    ¬ ((h.releaseAllFrom rounds freed).heed s ids answers).IsOver ∧
      ((h.releaseAllFrom rounds freed).heed s ids answers).sent = h.freeingRequests ids (answers.length + 1) := by
  induction answers generalizing rounds freed ids with
  | nil =>
    rw [heed_releaseAllFrom_nil hrounds]
    refine ⟨?_, rfl⟩
    rintro ⟨value, hvalue⟩
    cases hvalue
  | cons answer answers ih =>
    have hrest : ∀ other ∈ answers, other.HasCode ResultCode.success :=
      fun other hother => hanswers other (List.mem_cons_of_mem _ hother)
    obtain ⟨hwaits, hsent⟩ := ih hrest (Nat.lt_sub_of_add_lt hrounds) (freed + 1) ids.advance.advance
    rw [heed_releaseAllFrom_cons (Nat.zero_lt_of_lt hrounds), goOn_of_success (hanswers answer List.mem_cons_self),
      Standing.isOver_after, Standing.sent_after, hsent]
    exact ⟨hwaits, (h.freeingRequests_succ ids _).symm⟩

/-- With the first answer that is no success it is over, whatever comes after and however many rounds are left. -/
theorem heed_of_not_success (h : Semaphore) (s : σ) {before : List (Outcome Reply)}
    (hbefore : ∀ answer ∈ before, answer.HasCode ResultCode.success)
    (hanswer : ¬ answer.HasCode ResultCode.success) (freed : Nat) :
    ∃ told, Concludes (freed + before.length) answer told ∧ ∀ rounds later ids, before.length < rounds →
      (h.releaseAllFrom rounds freed).heed s ids (before ++ answer :: later) =
        ⟨.finished (some told), h.freeingRequests ids (before.length + 1)⟩ := by
  -- What is told hangs on the answer and on the successes before it only, and so it is found first.
  induction before generalizing freed with
  | nil =>
    obtain ⟨failure, hfailure, hconcludes⟩ := concludes_of_not_success hanswer freed
    refine ⟨_, hconcludes, fun rounds later ids hrounds => ?_⟩
    rw [List.nil_append, heed_releaseAllFrom_cons hrounds, goOn_of_error hfailure]
    rfl
  | cons first before ih =>
    have hrest : ∀ other ∈ before, other.HasCode ResultCode.success :=
      fun other hother => hbefore other (List.mem_cons_of_mem _ hother)
    obtain ⟨told, hconcludes, hends⟩ := ih hrest (freed + 1)
    have hfreed : freed + (first :: before).length = freed + 1 + before.length := by
      rw [List.length_cons]
      omega
    refine ⟨told, hfreed ▸ hconcludes, fun rounds later ids hrounds => ?_⟩
    have hlater := hends (rounds - 1) later ids.advance.advance (Nat.lt_sub_of_add_lt hrounds)
    rw [List.cons_append, heed_releaseAllFrom_cons (Nat.zero_lt_of_lt hrounds),
      goOn_of_success (hbefore first List.mem_cons_self), hlater]
    exact congrArg (Standing.mk _) (h.freeingRequests_succ ids _).symm

/-! ### Sequences of answers -/

/-- The answers of a sequence are successes up to the `n`-th, and that is none. -/
structure IsFirstRefusal (answers : Seq (Outcome Reply)) (n : Nat) (answer : Outcome Reply) : Prop where
  get : answers.get? n = some answer
  notSuccess : ¬ answer.HasCode ResultCode.success
  before : ∀ i < n, ∀ earlier, answers.get? i = some earlier → earlier.HasCode ResultCode.success

variable {sequence : Seq (Outcome Reply)}

/-- Where there is an answer other than success there is a first one. -/
private theorem exists_isFirstRefusal (hanswer : answer ∈ sequence) (hrefused : ¬ answer.HasCode ResultCode.success) :
    ∃ n first, IsFirstRefusal sequence n first := by
  classical
  have hsome : ∃ n first, sequence.get? n = some first ∧ ¬ first.HasCode ResultCode.success := by
    obtain ⟨n, hn⟩ := Stream'.Seq.mem_iff_exists_get?.mp hanswer
    exact ⟨n, answer, hn.symm, hrefused⟩
  obtain ⟨first, hget, hfirst⟩ := Nat.find_spec hsome
  refine ⟨Nat.find hsome, first, hget, hfirst, fun i hi earlier hearlier => ?_⟩
  by_contra hnot
  exact Nat.find_min hsome hi ⟨earlier, hearlier, hnot⟩

namespace IsFirstRefusal

variable {m n : Nat} (hfirst : IsFirstRefusal sequence n answer)

include hfirst

private theorem success_of_mem {earlier : Outcome Reply} (hearlier : earlier ∈ sequence.take n) :
    earlier.HasCode ResultCode.success := by
  obtain ⟨i, hi⟩ := List.mem_iff_getElem?.mp hearlier
  have hin : i < n := by
    by_contra hout
    rw [Stream'.Seq.getElem?_take, if_neg hout] at hi
    cases hi
  rw [Stream'.Seq.getElem?_take, if_pos hin] at hi
  exact hfirst.before i hin earlier hi

private theorem lt_length_take (hm : n < m) : n < (sequence.take m).length := by
  have hget : (sequence.take m)[n]? = some answer := by
    rw [Stream'.Seq.getElem?_take, if_pos hm, hfirst.get]
  exact (List.getElem?_eq_some_iff.mp hget).1

private theorem length_take : (sequence.take n).length = n := by
  rw [← take_take_of_le sequence (Nat.le_succ n)]
  exact List.length_take_of_le (Nat.le_of_lt (hfirst.lt_length_take (Nat.lt_succ_self n)))

private theorem exists_later (hm : n < m) : ∃ later, sequence.take m = sequence.take n ++ answer :: later := by
  have hlength := hfirst.lt_length_take hm
  have hanswer : (sequence.take m)[n] = answer := by
    apply Option.some.inj
    rw [← List.getElem?_eq_getElem, Stream'.Seq.getElem?_take, if_pos hm, hfirst.get]
  refine ⟨(sequence.take m).drop (n + 1), ?_⟩
  rw [← take_take_of_le sequence (Nat.le_of_lt hm), ← hanswer, ← List.drop_eq_getElem_cons hlength,
    List.take_append_drop]

end IsFirstRefusal

/-! ### The whole call -/

/-- Where a call that frees all slots stands when its requests have got some answers and no more. It may send one more
release than there are answers, which is as many as it comes to. -/
def freeing (h : Semaphore) (ids : IdSource) (answers : List (Outcome Reply)) : Standing Unit (Option (Outcome Nat)) :=
  (h.releaseAll (answers.length + 1)).heed () ids answers

/-- A call that frees all slots is over with the `n`-th answer of a sequence and has told something then. -/
structure EndsWith (h : Semaphore) (ids : IdSource) (answers : Seq (Outcome Reply)) (n : Nat) (told : Outcome Nat) :
    Prop where
  /-- Whatever answers come after. -/
  stands : ∀ m, n < m → h.freeing ids (answers.take m) = ⟨.finished (some told), h.freeingRequests ids (n + 1)⟩
  /-- And so it is in a run to its end against a script with these answers. -/
  runs : ∀ rounds script, n < rounds → (∀ i ≤ n, answers.get? i = some (script i)) →
    ∃ ids', (h.releaseAll rounds).run (scripted script) ⟨(), ids, []⟩ =
      (some told, ⟨(), ids', h.freeingRequests ids (n + 1)⟩)

section

variable {n : Nat} (h : Semaphore) (ids : IdSource) (hfirst : IsFirstRefusal sequence n answer)

include hfirst

/-- With rounds enough to reach the first refusal the course does not depend on how many there are. -/
private theorem heed_of_isFirstRefusal : ∃ told, Concludes n answer told ∧ ∀ rounds m, n < rounds → n < m →
    (h.releaseAll rounds).heed () ids (sequence.take m) =
      ⟨.finished (some told), h.freeingRequests ids (n + 1)⟩ := by
  obtain ⟨told, hconcludes, hends⟩ := h.heed_of_not_success () (fun _ => hfirst.success_of_mem) hfirst.notSuccess 0
  rw [hfirst.length_take, Nat.zero_add] at hconcludes
  refine ⟨told, hconcludes, fun rounds m hrounds hm => ?_⟩
  obtain ⟨later, htake⟩ := hfirst.exists_later hm
  have hover := hends rounds later ids (by rwa [hfirst.length_take])
  rwa [← htake, hfirst.length_take] at hover

private theorem exists_endsWith : ∃ told, Concludes n answer told ∧ h.EndsWith ids sequence n told := by
  obtain ⟨told, hconcludes, hover⟩ := heed_of_isFirstRefusal h ids hfirst
  refine ⟨told, hconcludes, fun m hm => ?_, fun rounds script hrounds hscript => ?_⟩
  · exact hover _ m (Nat.lt_succ_of_lt (hfirst.lt_length_take hm)) hm
  · have hgives : ∀ i given, (sequence.take (n + 1))[i]? = some given → script (0 + i) = given := by
      intro i given hi
      rw [Stream'.Seq.getElem?_take] at hi
      split_ifs at hi with hin
      rw [hscript i (Nat.le_of_lt_succ hin)] at hi
      rw [Nat.zero_add]
      exact Option.some.inj hi
    have hstands := hover rounds (n + 1) hrounds (Nat.lt_succ_self n)
    obtain ⟨⟨⟩, ids', hrun⟩ := Call.run_of_heed hstands [] hgives
    exact ⟨ids', hrun⟩

end

/-- How a call that frees all slots of a semaphore goes when the answers to its requests are those of a sequence. -/
structure StopsWhenRefused (h : Semaphore) (permits : UInt16) (ids : IdSource) (answers : Seq (Outcome Reply)) :
    Prop where
  /-- More rounds than answers make no difference. -/
  enough : ∀ n rounds, (answers.take n).length < rounds →
    ((h.releaseAll rounds).heed () ids (answers.take n)).Alike (h.freeing ids (answers.take n))
  /-- It ends if some answer is no success, and waits forever otherwise. -/
  ends_iff : (∃ n, (h.freeing ids (answers.take n)).IsOver) ↔
    ∃ answer ∈ answers, ¬ answer.HasCode ResultCode.success
  /-- As long as all answers are successes, it waits for the answer to one more release. -/
  waits : ∀ n, (∀ answer ∈ answers.take n, answer.HasCode ResultCode.success) →
    ¬ (h.freeing ids (answers.take n)).IsOver ∧
      (h.freeing ids (answers.take n)).sent = h.freeingRequests ids ((answers.take n).length + 1)
  /-- The first answer that is no success is the last one that it waits for, and decides what it tells. -/
  ends : ∀ n answer, IsFirstRefusal answers n answer →
    ∃ told, Concludes n answer told ∧ h.EndsWith ids answers n told
  /-- What each release allows beside itself is one less than the permits. -/
  count : ∀ i, (h.freeingRequest ids i).count.toNat = max permits.toNat 1 - 1
  /-- Releases have identifiers of their own. Only with 2³⁰ rounds between them, or a multiple of that, could two be the
  same, and then only if they were drawn at moments that look the same. -/
  ownIds : ∀ i j, i < j → (h.freeingRequest ids i).requestId = (h.freeingRequest ids j).requestId →
    1073741824 ∣ j - i ∧ (ids.moments (ids.drawn + (2 * i + 1))).Agree (ids.moments (ids.drawn + (2 * j + 1)))

/-- A call that frees all slots of a semaphore ends just if one of its requests is not answered with success. It has
sent one release more than it got successes then, and returns their number if no slot is held any more, and else the
failure. -/
theorem freeing_stops_when_refused (db : Database) (key : LockKey) (permits : UInt16) (timeout expire : TimeWord)
    (ids : IdSource) (answers : Seq (Outcome Reply)) :
    StopsWhenRefused (db.semaphore key permits timeout expire) permits ids answers := by
  have hpermits : (db.semaphore key permits timeout expire).permits = atLeastOne permits := rfl
  generalize db.semaphore key permits timeout expire = h at *
  have waits : ∀ n, (∀ answer ∈ answers.take n, answer.HasCode ResultCode.success) →
      ¬ (h.freeing ids (answers.take n)).IsOver ∧
        (h.freeing ids (answers.take n)).sent = h.freeingRequests ids ((answers.take n).length + 1) :=
    fun n hanswers => heed_of_success hanswers (Nat.lt_succ_self _) 0 ids
  refine ⟨fun n rounds hrounds => alike_of_length_lt hrounds (Nat.lt_succ_self _), ⟨?_, ?_⟩, waits,
    fun n answer => exists_endsWith h ids, fun i => ?_, fun i j hij hid => ?_⟩
  · rintro ⟨n, hover⟩
    by_contra hall
    push Not at hall
    exact (waits n fun answer hanswer => Stream'.Seq.take_all hall hanswer).1 hover
  · rintro ⟨answer, hanswer, hrefused⟩
    obtain ⟨n, first, hfirst⟩ := exists_isFirstRefusal hanswer hrefused
    obtain ⟨told, -, hends⟩ := exists_endsWith h ids hfirst
    exact ⟨n + 1, some told, by rw [hends.stands (n + 1) (Nat.lt_succ_self n)]⟩
  · have hcount := toNat_atLeastOne_sub_one permits
    show (h.permits - 1).toNat = _
    rw [hpermits]
    omega
  · obtain ⟨hcounter, hagree⟩ := IdSource.agree_of_upcoming_eq hid
    exact ⟨by omega, hagree⟩

def noneIsHeld : LockReply := { (default : LockReply) with result := ResultCode.unlocked }

/-- Two releases are answered with success, and then no slot is held any more. -/
def twoHeld : Seq (Outcome Reply) := Seq.ofList [.ok (.lock default), .ok (.lock default), .ok (.lock noneIsHeld)]

def garage : Semaphore := Database.semaphore { id := 0 } (LockKey.ofBytes [103]) 2 (.seconds 5) (.seconds 30)

/-- Two slots are freed with three requests. -/
theorem garage_frees_two (ids : IdSource) :
    garage.freeing ids (twoHeld.take 3) = ⟨.finished (some (.ok 2)), garage.freeingRequests ids 3⟩ := by
  have hfirst : IsFirstRefusal twoHeld 2 (.ok (.lock noneIsHeld)) := by
    refine ⟨rfl, by decide, fun i hi earlier hearlier => ?_⟩
    obtain rfl | rfl : i = 0 ∨ i = 1 := by omega
    · cases hearlier
      exact ⟨default, rfl, rfl⟩
    · cases hearlier
      exact ⟨default, rfl, rfl⟩
  have hstops := freeing_stops_when_refused { id := 0 } (LockKey.ofBytes [103]) 2 (.seconds 5) (.seconds 30) ids twoHeld
  obtain ⟨told, hconcludes, hends⟩ := hstops.ends 2 _ hfirst
  cases hconcludes with
  | noneHeld => exact hends.stands 3 (by decide)
  | refused _ notUnlocked => exact absurd rfl notUnlocked
  | mistaken notLock => exact absurd rfl (notLock _)

end Semaphore

end LockService
