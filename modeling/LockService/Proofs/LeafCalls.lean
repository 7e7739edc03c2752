import LockService.Primitive.TreeSteps
import LockService.Service.Basic
import Mathlib.Data.List.Perm.Basic

/-!
# A release undoes what an acquire has done

However its requests are answered, a call on a leaf takes its steps in turn, up to the first that does not go well, and
fails as that one does (`TreeStep.Taken`). A release that succeeds takes back the very locks that an acquire that
succeeds has taken (`TreeLeaf.calls_mirror`).
-/

namespace LockService

variable {σ : Type}

namespace TreeStep

variable {step : TreeStep} {steps : List TreeStep} {script : Nat → Outcome Reply} {ids : IdSource}
  {value told : Outcome LockReply} {sent : List LockRequest}

/-! ### Steps in turn -/

/-- What has been sent and told when steps were taken in turn, where `value` is told if all go well. -/
structure Taken (steps : List TreeStep) (script : Nat → Outcome Reply) (ids : IdSource) (value told : Outcome LockReply)
    (sent : List LockRequest) : Prop where
  /-- Requests are sent in the order of the steps. -/
  inOrder : sent <+: requests steps ids
  /-- A step is taken just if all steps before it went well. -/
  reached_iff : ∀ n, n < sent.length ↔ n < steps.length ∧ PassUpTo n steps script
  isOk_iff : told.isOk = true ↔ AllPass steps script
  succeeds : told.isOk = true → told = value
  /-- A failure is that of the last request sent. -/
  fails : ∀ failure, told = .error failure →
    ∃ last, sent.length = last + 1 ∧ script last >>= lockOutcome = .error failure

private theorem allPass_nil (script : Nat → Outcome Reply) : AllPass [] script := fun i _ hi => by
  rw [List.getElem?_nil] at hi
  cases hi

private theorem allPass_cons_iff :
    AllPass (step :: steps) script ↔ step.Passes (script 0) ∧ AllPass steps fun i => script (i + 1) := by
  constructor
  · exact fun h => ⟨h 0 step rfl, fun i => h (i + 1)⟩
  · rintro ⟨hfirst, hrest⟩ i step' hi
    cases i with
    | zero =>
      cases hi
      exact hfirst
    | succ i => exact hrest i step' hi

private theorem passUpTo_zero (steps : List TreeStep) (script : Nat → Outcome Reply) : PassUpTo 0 steps script :=
  fun _ hi => absurd hi (Nat.not_lt_zero _)

private theorem passUpTo_cons_iff {n : Nat} : PassUpTo (n + 1) (step :: steps) script ↔
    step.Passes (script 0) ∧ PassUpTo n steps fun i => script (i + 1) := by
  constructor
  · exact fun h => ⟨h 0 (Nat.succ_pos n) step rfl, fun i hi => h (i + 1) (Nat.succ_lt_succ hi)⟩
  · rintro ⟨hfirst, hrest⟩ i hi step' hs
    cases i with
    | zero =>
      cases hs
      exact hfirst
    | succ i => exact hrest i (Nat.lt_of_succ_lt_succ hi) step' hs

/-- Without steps the call is over. -/
private theorem taken_nil (script : Nat → Outcome Reply) (ids : IdSource) (reply : LockReply) :
    Taken [] script ids (.ok reply) (.ok reply) [] where
  inOrder := List.nil_prefix
  reached_iff n := by simp
  isOk_iff := ⟨fun _ => allPass_nil script, fun _ => rfl⟩
  succeeds _ := rfl
  fails _ h := by cases h

/-- A step that does not go well is the last one. -/
private theorem taken_of_not_passes {failure : Failure} (hfailure : script 0 >>= lockOutcome = .error failure)
    (hstep : ¬ step.Passes (script 0)) (steps : List TreeStep) (ids : IdSource) (value : Outcome LockReply) :
    Taken (step :: steps) script ids value (.error failure) [step.request ids.upcoming] where
  inOrder := List.prefix_append_right_inj [_] |>.mpr List.nil_prefix
  reached_iff n := by
    cases n with
    | zero => simp [passUpTo_zero]
    | succ n => simp [passUpTo_cons_iff, hstep]
  isOk_iff := ⟨fun h => (by cases h), fun h => absurd (allPass_cons_iff.mp h).1 hstep⟩
  succeeds h := by cases h
  fails _ h := by
    cases h
    exact ⟨0, rfl, hfailure⟩

/-- After a step that goes well the others are taken. -/
private theorem Taken.cons (h : Taken steps (fun i => script (i + 1)) ids.advance value told sent)
    (hstep : step.Passes (script 0)) :
    Taken (step :: steps) script ids value told (step.request ids.upcoming :: sent) where
  inOrder := List.cons_prefix_cons.mpr ⟨rfl, h.inOrder⟩
  reached_iff n := by
    cases n with
    | zero => simp [passUpTo_zero]
    | succ n =>
      rw [List.length_cons, List.length_cons, Nat.add_lt_add_iff_right, Nat.add_lt_add_iff_right, passUpTo_cons_iff,
        h.reached_iff]
      exact and_congr_right fun _ => (and_iff_right hstep).symm
  isOk_iff := h.isOk_iff.trans (allPass_cons_iff.trans (and_iff_right hstep)).symm
  succeeds := h.succeeds
  fails failure hf := by
    obtain ⟨last, hlength, hlast⟩ := h.fails failure hf
    exact ⟨last + 1, congrArg (· + 1) hlength, hlast⟩

/-! ### Calls that take steps -/

/-- A call takes steps in turn, whatever has been sent before and however its own requests are answered. -/
def AreTaken (steps : List TreeStep) (value : (Nat → Outcome Reply) → Outcome LockReply)
    (attempt : Attempt σ LockReply) : Prop :=
  ∀ script s ids earlier, ∃ told sent ids',
    attempt.outcome.run (scripted script) ⟨s, ids, earlier⟩ = (told, ⟨s, ids', earlier ++ sent⟩) ∧
      Taken steps (fun i => script (earlier.length + i)) ids (value fun i => script (earlier.length + i)) told sent

variable {kept : Nat} {rest : List TreeStep} {next : LockReply → Attempt σ LockReply}
  {value : (Nat → Outcome Reply) → Outcome LockReply}

private theorem areTaken_pure (reply : LockReply) :
    AreTaken [] (fun _ => .ok reply) (pure reply : Attempt σ LockReply) :=
  fun script s ids earlier => ⟨.ok reply, [], ids, by rw [List.append_nil]; rfl, taken_nil _ ids reply⟩

/-- The request of a step, sent by itself. -/
private theorem run_execute (step : TreeStep) (script : Nat → Outcome Reply) (s : σ) (ids : IdSource)
    (earlier : List LockRequest) :
    (Lock.execute (step.lock.request step.kind step.flag)).outcome.run (scripted script) ⟨s, ids, earlier⟩ =
      (script earlier.length >>= lockOutcome, ⟨s, ids.advance, earlier ++ [step.request ids.upcoming]⟩) := rfl

/-- The rest of a script, from the answer after the next one on. -/
theorem script_shift (script : Nat → Outcome Reply) (earlier : List LockRequest) (request : LockRequest) :
    (fun i => script ((earlier ++ [request]).length + i)) = fun i => script (earlier.length + (i + 1)) := by
  funext i
  rw [List.length_append, List.length_singleton, Nat.add_assoc, Nat.add_comm 1 i]

private theorem passes_of_ok {outcome : Outcome Reply} {reply : LockReply} (h : outcome >>= lockOutcome = .ok reply) :
    step.Passes outcome := by
  intro failure hf
  rw [h] at hf
  cases hf

/-- After a step that goes well a call takes the steps of the call that it goes on as. -/
theorem AreTaken.after {attempt next : Attempt σ LockReply} (hnext : AreTaken rest value next)
    {s : σ} {earlier : List LockRequest} (hstep : step.Passes (script earlier.length))
    (hrun : attempt.outcome.run (scripted script) ⟨s, ids, earlier⟩ =
      next.outcome.run (scripted script) ⟨s, ids.advance, earlier ++ [step.request ids.upcoming]⟩) :
    ∃ told sent ids', attempt.outcome.run (scripted script) ⟨s, ids, earlier⟩ = (told, ⟨s, ids', earlier ++ sent⟩) ∧
      Taken (step :: rest) (fun i => script (earlier.length + i)) ids
        (value fun i => script (earlier.length + (i + 1))) told sent := by
  obtain ⟨told, sent, ids', hrest, htaken⟩ := hnext script s ids.advance (earlier ++ [step.request ids.upcoming])
  refine ⟨told, step.request ids.upcoming :: sent, ids', ?_, ?_⟩
  · rw [hrun, hrest, List.append_assoc, List.singleton_append]
  · rw [script_shift] at htaken
    exact htaken.cons hstep

/-- A step of which no failure is spared, and what follows it; `next` goes on with its answer. -/
theorem areTaken_of_unspared (hspared : step.spared = none)
    (hnext : ∀ reply, AreTaken rest (fun _ => .ok reply) (next reply)) :
    AreTaken (step :: rest) (fun script => script 0 >>= lockOutcome)
      (Lock.execute (step.lock.request step.kind step.flag) >>= next) := by
  intro script s ids earlier
  have hrun := run_execute step script s ids earlier
  cases houtcome : script earlier.length >>= lockOutcome with
  | error failure =>
    rw [houtcome] at hrun
    refine ⟨.error failure, [step.request ids.upcoming], ids.advance, Attempt.run_bind_of_error hrun next, ?_⟩
    refine taken_of_not_passes houtcome (fun hpasses => ?_) ..
    obtain ⟨fault, hfault, -⟩ := hpasses failure houtcome
    rw [hspared] at hfault
    cases hfault
  | ok reply =>
    rw [houtcome] at hrun
    have hvalue : script (earlier.length + 0) >>= lockOutcome = .ok reply := houtcome
    dsimp only
    rw [hvalue]
    exact (hnext reply).after (passes_of_ok houtcome) (Attempt.run_bind_of_ok hrun next)

/-- A step of which one kind of failure is spared, and what follows it whatever the answer was. -/
private theorem areTaken_of_spared {fault : LockFault} {benign : Failure → Bool} (hspared : step.spared = some fault)
    (hbenign : ∀ failure, benign failure = true ↔ failure.lockFault? = some fault) {next : Attempt σ LockReply}
    (hnext : AreTaken rest value next) :
    AreTaken (step :: rest) (fun script => value fun i => script (i + 1))
      ((Lock.execute (step.lock.request step.kind step.flag)).tolerating benign >>= fun _ => next) := by
  intro script s ids earlier
  have hrun := run_execute step script s ids earlier
  by_cases hpasses : ∀ failure, script earlier.length >>= lockOutcome = .error failure → benign failure = true
  · obtain ⟨answer, hanswer⟩ := Attempt.run_tolerating hrun hpasses
    have hstep : step.Passes (script earlier.length) := fun failure hf =>
      ⟨fault, hspared, (hbenign failure).mp (hpasses failure hf)⟩
    exact hnext.after hstep (Attempt.run_bind_of_ok hanswer _)
  · push Not at hpasses
    obtain ⟨failure, houtcome, hfailure⟩ := hpasses
    rw [houtcome] at hrun
    have hends : ((Lock.execute (step.lock.request step.kind step.flag)).tolerating benign).outcome.run
        (scripted script) ⟨s, ids, earlier⟩ =
          (.error failure, ⟨s, ids.advance, earlier ++ [step.request ids.upcoming]⟩) :=
      Attempt.run_tolerating_of_error hrun hfailure
    refine ⟨.error failure, [step.request ids.upcoming], ids.advance, Attempt.run_bind_of_error hends _, ?_⟩
    refine taken_of_not_passes houtcome (fun hpasses => hfailure ?_) ..
    obtain ⟨fault', hfault', hkind⟩ := hpasses failure houtcome
    rw [hspared] at hfault'
    cases hfault'
    exact (hbenign failure).mpr hkind

/-- A call that succeeds has sent the requests of all its steps. -/
theorem Taken.sent_eq (h : Taken steps script ids (script kept >>= lockOutcome) told sent) (hok : told.isOk = true) :
    sent = requests steps ids := by
  have hpass := h.isOk_iff.mp hok
  refine h.inOrder.eq_of_length_le ?_
  have hall : ¬ sent.length < steps.length := fun hlt =>
    Nat.lt_irrefl _ ((h.reached_iff sent.length).mpr ⟨hlt, fun i _ => hpass i⟩)
  have hlength : (requests steps ids).length = steps.length := by
    rw [requests, List.length_zipWith, IdSource.length_take, Nat.min_self]
  omega

/-- A single step sends its request, and the answer to that is told. -/
private theorem Taken.of_single (h : Taken [step] script ids (script 0 >>= lockOutcome) told sent) :
    sent = [step.request ids.upcoming] ∧ told = script 0 >>= lockOutcome := by
  have hsome : 0 < sent.length := (h.reached_iff 0).mpr ⟨Nat.one_pos, passUpTo_zero _ _⟩
  have hsent : sent = [step.request ids.upcoming] := h.inOrder.eq_of_length_le hsome
  refine ⟨hsent, ?_⟩
  cases htold : told with
  | ok reply =>
    have hvalue := h.succeeds (by rw [htold]; rfl)
    rw [← hvalue, htold]
  | error failure =>
    obtain ⟨last, hlength, hlast⟩ := h.fails failure htold
    have hfirst : last = 0 := by
      rw [hsent, List.length_singleton] at hlength
      omega
    rw [← hlast, hfirst]

/-- What does not depend on the identifiers of requests is read off their steps. -/
theorem map_requests {α : Type} {f : LockRequest → α} {g : TreeStep → α} (hf : ∀ step id, f (step.request id) = g step)
    (steps : List TreeStep) (ids : IdSource) : (requests steps ids).map f = steps.map g := by
  induction steps generalizing ids with
  | nil => rfl
  | cons step steps ih => exact congrArg₂ List.cons (hf step ids.upcoming) (ih ids.advance)

end TreeStep

/-! ### The calls on a leaf -/

namespace TreeLeaf

open TreeStep

variable {leaf : TreeLeaf}

/-- A request's lock and flag. -/
def terms (r : LockRequest) : Lock × UInt8 := (r.subject, r.flag)

private theorem marks_of_root (h : leaf.node.parent = none) : leaf.marks = [] := by rw [marks, h]

private theorem marks_of_parent {parent : LockKey} (h : leaf.node.parent = some parent) :
    leaf.marks = [leaf.node.childMark parent, leaf.node.parentMark parent] := by rw [marks, h]

private theorem areTaken_acquire (leaf : TreeLeaf) :
    AreTaken leaf.acquireSteps (fun script => script leaf.marks.length >>= lockOutcome)
      (leaf.acquire : Attempt σ LockReply) := by
  have hown : AreTaken [⟨leaf.lock, .lock, 0, none⟩] (fun script => script 0 >>= lockOutcome)
      (leaf.lock.acquire : Attempt σ LockReply) := by
    rw [← bind_pure leaf.lock.acquire]
    exact areTaken_of_unspared rfl areTaken_pure
  unfold acquireSteps
  cases hparent : leaf.node.parent with
  | none =>
    rw [marks_of_root hparent, acquire_of_root hparent]
    exact hown
  | some parent =>
    rw [marks_of_parent hparent, acquire_of_parent hparent]
    exact areTaken_of_spared rfl Failure.isLocked_iff
      (areTaken_of_spared rfl Failure.isLocked_iff hown)

private theorem areTaken_release (leaf : TreeLeaf) :
    AreTaken leaf.releaseSteps (fun script => script 0 >>= lockOutcome) (leaf.release : Attempt σ LockReply) := by
  unfold releaseSteps
  cases hparent : leaf.node.parent with
  | none =>
    rw [marks_of_root hparent, release_of_root hparent]
    exact areTaken_of_unspared rfl areTaken_pure
  | some parent =>
    rw [marks_of_parent hparent, release_of_parent hparent]
    refine areTaken_of_unspared rfl fun reply => ?_
    exact areTaken_of_spared rfl Failure.isUnlocked_iff
      (areTaken_of_spared rfl Failure.isUnlocked_iff (areTaken_pure reply))

/-- How an acquire and a release of a leaf run against scripts. -/
structure Mirrored (leaf : TreeLeaf) (script script' : Nat → Outcome Reply) (ids ids' : IdSource)
    (acquired released : Outcome LockReply × Scene σ (List LockRequest)) : Prop where
  /-- The marks are on the keys of the parent and of the node, each under the other's key. -/
  links : ∀ parent, leaf.node.parent = some parent →
    leaf.marks.map (fun mark => (mark.key, mark.id)) =
      [(parent, leaf.node.key.asIdent), (leaf.node.key, parent.asIdent)]
  /-- An acquire takes its steps, and tells the answer for the node. -/
  acquires : Taken leaf.acquireSteps script ids (script leaf.marks.length >>= lockOutcome) acquired.1 acquired.2.peer
  /-- A release takes its steps, and tells the answer for the node. -/
  releases : Taken leaf.releaseSteps script' ids' (script' 0 >>= lockOutcome) released.1 released.2.peer
  /-- In a whole acquire the tree flag is on the marks only. -/
  taken : acquired.1.isOk = true →
    acquired.2.peer.map terms = leaf.marks.map (·, LockFlag.treeMark) ++ [(leaf.lock, 0)]
  givenBack : released.1.isOk = true →
    released.2.peer.map terms = (leaf.lock, 0) :: leaf.marks.map (·, UnlockFlag.treeMark)
  /-- A whole release is about the same locks, with the same flags, as a whole acquire. -/
  perm : acquired.1.isOk = true → released.1.isOk = true →
    (released.2.peer.map terms).Perm (acquired.2.peer.map terms)
  /-- For a root no marks are sent. -/
  root : leaf.node.parent = none →
    acquired.2.peer = [leaf.lock.requestWith .lock 0 ids.upcoming] ∧ acquired.1 = script 0 >>= lockOutcome ∧
      released.2.peer = [leaf.lock.requestWith .unlock 0 ids'.upcoming] ∧ released.1 = script' 0 >>= lockOutcome

/-- However their requests are answered, the calls on a leaf take their steps in turn up to the first that does not go
well, and a whole release takes back what a whole acquire has taken. -/
theorem calls_mirror (leaf : TreeLeaf) (script script' : Nat → Outcome Reply) (s s' : σ) (ids ids' : IdSource) :
    Mirrored leaf script script' ids ids' (leaf.acquire.outcome.run (scripted script) ⟨s, ids, []⟩)
      (leaf.release.outcome.run (scripted script') ⟨s', ids', []⟩) := by
  obtain ⟨told, sent, idsAfter, hacquire, hacquired⟩ := areTaken_acquire leaf script s ids []
  obtain ⟨told', sent', idsAfter', hrelease, hreleased⟩ := areTaken_release leaf script' s' ids' []
  simp only [List.length_nil, Nat.zero_add, List.nil_append] at hacquire hacquired hrelease hreleased
  rw [hacquire, hrelease]
  have hterms : ∀ (step : TreeStep) id, terms (step.request id) = (step.lock, step.flag) := fun _ _ => rfl
  have htaken : told.isOk = true → sent.map terms = leaf.marks.map (·, LockFlag.treeMark) ++ [(leaf.lock, 0)] := by
    intro hok
    rw [hacquired.sent_eq hok, map_requests hterms]
    simp [acquireSteps]
  have hgiven : told'.isOk = true → sent'.map terms = (leaf.lock, 0) :: leaf.marks.map (·, UnlockFlag.treeMark) := by
    intro hok
    rw [hreleased.sent_eq hok, map_requests hterms]
    simp [releaseSteps]
  refine ⟨fun parent hparent => ?_, hacquired, hreleased, htaken, hgiven, ?_, ?_⟩
  · rw [marks_of_parent hparent]
    rfl
  · intro hok hok'
    have hflags : UnlockFlag.treeMark = LockFlag.treeMark := rfl
    rw [htaken hok, hgiven hok', hflags]
    exact (List.perm_append_singleton ..).symm
  · intro hroot
    have hmarks := marks_of_root hroot
    simp only [acquireSteps, releaseSteps, hmarks, List.map_nil, List.nil_append, List.length_nil]
      at hacquired hreleased
    obtain ⟨hsent, htold⟩ := hacquired.of_single
    obtain ⟨hsent', htold'⟩ := hreleased.of_single
    exact ⟨hsent, htold, hsent', htold'⟩

/-- A leaf of a shelf in a hall. -/
def shelfLeaf : TreeLeaf :=
  let hall : TreeNode := Database.tree ⟨0, 5, 5⟩ (LockKey.ofBytes [104]) (.seconds 0) (.seconds 30)
  let shelf := hall.child (LockKey.ofBytes [115])
  ⟨shelf, shelf.lockAs (Ident.ofHalves 7 7)⟩

/-- Answers to an acquire of the shelf whose mark in the hall is there already. -/
def markedAlready : Nat → Outcome Reply
  | 0 => .ok (.lock { (default : LockReply) with result := ResultCode.locked })
  | _ => .ok (.lock default)

def shelfIds : IdSource := .seeded 0 fun _ => default

/-- The acquire goes on past the mark, and the release takes back the same locks. -/
theorem shelf_release_mirrors :
    let acquired := shelfLeaf.acquire.outcome.run (scripted markedAlready) (⟨(), shelfIds, []⟩ : Scene Unit _)
    let released := shelfLeaf.release.outcome.run (scripted fun _ => .ok (.lock default))
      (⟨(), shelfIds, []⟩ : Scene Unit _)
    acquired.1.isOk = true ∧ released.1.isOk = true ∧ acquired.2.peer.length = 3 ∧
      (released.2.peer.map terms).Perm (acquired.2.peer.map terms) := by
  have hmirrored := calls_mirror shelfLeaf markedAlready (fun _ => .ok (.lock default)) () () shelfIds shelfIds
  have hok : (shelfLeaf.acquire.outcome.run (scripted markedAlready)
      (⟨(), shelfIds, []⟩ : Scene Unit (List LockRequest))).1.isOk = true := rfl
  have hok' : (shelfLeaf.release.outcome.run (scripted fun _ => .ok (.lock default))
      (⟨(), shelfIds, []⟩ : Scene Unit (List LockRequest))).1.isOk = true := rfl
  refine ⟨hok, hok', ?_, hmirrored.perm hok hok'⟩
  have hlength := congrArg List.length (hmirrored.taken hok)
  rw [List.length_map] at hlength
  exact hlength

end TreeLeaf

end LockService
