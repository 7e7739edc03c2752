import LockService.Proofs.RequestIds
import Mathlib.Data.Set.Insert

/-!
# Identifiers in an ensemble

Making an object and calling its operations separates the identifiers of requests from those of locks. So in every
ensemble, however its calls are interleaved and answered, no two requests have the same identifier, and none has one
that was drawn for a lock (`Ensemble.requests_have_own_ids`).
-/

namespace LockService

open Call

variable {σ : Type} {held : σ → Set Ident} {known : Set Ident} {new : Option Ident}

/-! ### Objects that are made -/

/-- The object that was made, if any, has only identifiers that are known or were drawn last. -/
def Handle.IsMade (outcome : Outcome Handle) (known : Set Ident) (new : Option Ident) : Prop :=
  ∀ h ∈ outcome.toOption, h.lockIds ⊆ withAll known new.toList

private theorem Handle.IsMade.of_ok {h : Handle} (hh : h.lockIds ⊆ withAll known new.toList) :
    IsMade (.ok h) known new :=
  fun _ he => Option.some.inj he ▸ hh

private theorem Handle.IsMade.of_known {h : Handle} (hh : h.lockIds ⊆ known) : IsMade (.ok h) known new :=
  of_ok (hh.trans (subset_withAll _ _))

/-- A changed lock has the identifier that was given with the change, or that of the lock. -/
private theorem Lock.id_change_mem {lock : Lock} {change : LockChange} (hlock : lock.id ∈ known)
    (hgiven : ∀ id ∈ change.id, id ∈ known) : (lock.change change).id ∈ known := by
  rw [Lock.change]
  cases hid : change.id with
  | none => exact hlock
  | some id => exact hgiven id hid

private theorem TreeNode.lockIds_subset {node : TreeNode} (hkey : node.key.asIdent ∈ known)
    (hparent : ∀ key ∈ node.parent, key.asIdent ∈ known) : node.lockIds ⊆ known := by
  rintro _ (rfl | ⟨key, hk, rfl⟩)
  · exact hkey
  · exact hparent key hk

private theorem ReentrantLock.State.lockIds_new : ReentrantLock.State.lockIds {} ⊆ known := by
  rintro _ ⟨_, hnone, -⟩
  cases hnone

private theorem ReadWriteLock.State.lockIds_new : ReadWriteLock.State.lockIds {} ⊆ known := by
  rintro _ (⟨_, hnone, -⟩ | ⟨_, hnone, -⟩) <;> cases hnone

private theorem FlowLimit.lockIds_new : FlowLimit.lockIds none ⊆ known := by
  rintro _ ⟨_, hnone, -⟩
  cases hnone

namespace Recipe

variable {db : Database} {handle? : String → Option Handle} {build : Call σ (Outcome Handle)}

private theorem separates_build_derivedLock {source : String} {change : LockChange}
    (hbuild : (derivedLock source change).build? db handle? = some build) (hgiven : ∀ id ∈ change.id, id ∈ known)
    (hsources : ∀ source h, handle? source = some h → h.lockIds ⊆ known) :
    build.Separates held Handle.IsMade known new := by
  simp only [build?] at hbuild
  split at hbuild
  · rename_i h hsource
    cases hbuild
    have hlock : h.id ∈ known := hsources source _ hsource rfl
    exact Handle.IsMade.of_known (Set.singleton_subset_iff.mpr (Lock.id_change_mem hlock hgiven))
  · cases hbuild

private theorem separates_build_child {source : String} {key : LockKey}
    (hbuild : (child source key).build? db handle? = some build) (hgiven : key.asIdent ∈ known)
    (hsources : ∀ source h, handle? source = some h → h.lockIds ⊆ known) :
    build.Separates held Handle.IsMade known new := by
  simp only [build?] at hbuild
  split at hbuild
  · rename_i h hsource
    cases hbuild
    refine Handle.IsMade.of_known (TreeNode.lockIds_subset hgiven ?_)
    rintro _ ⟨⟩
    exact hsources source _ hsource (.inl rfl)
  · cases hbuild

private theorem separates_build_leaf {source : String} (hbuild : (leaf source).build? db handle? = some build)
    (hsources : ∀ source h, handle? source = some h → h.lockIds ⊆ known) :
    build.Separates held Handle.IsMade known new := by
  simp only [build?] at hbuild
  split at hbuild
  · rename_i h hsource
    cases hbuild
    intro id
    refine Handle.IsMade.of_ok (Set.insert_subset (.inr List.mem_cons_self) ?_)
    exact ((hsources source _ hsource).trans (subset_withAll _ _)).trans (subset_withAll _ _)
  · cases hbuild

/-- Making an object separates identifiers, and those of the object are known: they were drawn for it, given with the
recipe, or those of the object it was made from. -/
theorem separates_build? {recipe : Recipe} (hbuild : recipe.build? db handle? = some build)
    (hgiven : ∀ id, recipe.Gives id → id ∈ known)
    (hsources : ∀ source h, handle? source = some h → h.lockIds ⊆ known) :
    build.Separates held Handle.IsMade known new := by
  cases recipe with
  | lock | defaultLock | priority =>
    cases hbuild
    exact fun id => Handle.IsMade.of_ok (Set.singleton_subset_iff.mpr (.inr List.mem_cons_self))
  | rawLock key id timeout expire =>
    cases hbuild
    exact Handle.IsMade.of_known (Set.singleton_subset_iff.mpr (hgiven id rfl))
  | derivedLock source change => exact separates_build_derivedLock hbuild hgiven hsources
  | reentrant =>
    cases hbuild
    exact Handle.IsMade.of_known ReentrantLock.State.lockIds_new
  | readWrite =>
    cases hbuild
    exact Handle.IsMade.of_known ReadWriteLock.State.lockIds_new
  | flow =>
    cases hbuild
    exact Handle.IsMade.of_known FlowLimit.lockIds_new
  | semaphore =>
    cases hbuild
    exact Handle.IsMade.of_known (Set.empty_subset _)
  | bucket key permits timeout period =>
    cases hbuild
    unfold Database.tokenBucket
    split
    · exact Handle.IsMade.of_known (Set.empty_subset _)
    · nofun
  | tree key timeout expire =>
    cases hbuild
    exact Handle.IsMade.of_known (TreeNode.lockIds_subset (hgiven _ rfl) nofun)
  | child source key => exact separates_build_child hbuild (hgiven _ rfl) hsources
  | leaf source => exact separates_build_leaf hbuild hsources
  | event =>
    cases hbuild
    exact Handle.IsMade.of_known (Set.singleton_subset_iff.mpr (hgiven _ rfl))
  | group =>
    cases hbuild
    exact Handle.IsMade.of_known hgiven

end Recipe

namespace Ensemble

private theorem lockIds_subset_of_lookup {name : String} {objects : Objects} {h : Handle}
    (hlookup : objects.lookup name = some h) : h.lockIds ⊆ lockIds objects := by
  obtain ⟨_, _, rfl, -⟩ := List.lookup_eq_some_iff.mp hlookup
  exact fun id hid => ⟨(name, h), by simp, hid⟩

private theorem lockIds_keep_subset (name : String) (h : Handle) (objects : Objects) :
    lockIds (keep name h objects) ⊆ h.lockIds ∪ lockIds objects := by
  rintro id ⟨object, hobject, hid⟩
  rcases List.mem_cons.mp hobject with rfl | hobject
  · exact .inl hid
  · exact .inr ⟨object, List.mem_of_mem_filter hobject, hid⟩

private theorem sorts_make {db : Database} {recipe : Recipe} (hgiven : ∀ id, recipe.Gives id → id ∈ known)
    (name : String) : (make db name recipe).Sorts lockIds known new := by
  intro objects
  simp only [Call.bind]
  split
  · trivial
  split
  · trivial
  · rename_i build hbuild
    have hmade : build.Separates lockIds Handle.IsMade (known ∪ lockIds objects) new :=
      Recipe.separates_build? hbuild (fun id hid => .inl (hgiven id hid)) fun _ _ hsource =>
        (lockIds_subset_of_lookup hsource).trans Set.subset_union_right
    refine hmade.bind fun outcome k n _ hmade => ?_
    cases outcome with
    | error failure => trivial
    | ok h =>
      intro objects'
      refine ⟨(lockIds_keep_subset name h objects').trans (Set.union_subset ?_ ?_), trivial⟩
      · exact (hmade h rfl).trans (withAll_mono Set.subset_union_left _)
      · exact Set.subset_union_right.trans (subset_withAll _ _)

private theorem sorts_onObject {α : Type} {name : String} {h : Handle} {call : Call Handle α} (hh : h.lockIds ⊆ known)
    (hcall : call.Sorts Handle.lockIds known new) : (onObject name h call).Sorts lockIds known new := by
  refine hcall.within (fun objects => ?_) (fun h' objects => lockIds_keep_subset name h' objects) fun _ _ _ _ _ => id
  cases hlookup : objects.lookup name with
  | none => exact hh.trans Set.subset_union_left
  | some h' => exact (lockIds_subset_of_lookup hlookup).trans Set.subset_union_right

private theorem sorts_perform (hzero : Ident.zero ∈ known) (name : String) (op : Operation) (now fuel : Nat) :
    (perform name op now fuel).Sorts lockIds known new := by
  intro objects
  simp only [Call.bind]
  cases hlookup : objects.lookup name with
  | none => trivial
  | some h =>
    have hh : h.lockIds ⊆ known ∪ lockIds objects := (lockIds_subset_of_lookup hlookup).trans Set.subset_union_right
    dsimp only
    split
    · rename_i call _ hcall
      exact (sorts_onObject hh (Handle.sorts_call? hcall (.inl hzero) hh)).bind fun _ _ _ _ _ => trivial
    · rename_i call _ hcall
      refine (sorts_onObject hh (Posting.sorts_followed ?_)).bind fun _ _ _ _ _ => trivial
      exact Handle.separates_posting? hcall (.inl hzero) hh
    · trivial

/-- Whether the makers of the objects gave an identifier. The one that names no holder is there without them. -/
def IsGiven (events : List Event) (id : Ident) : Prop :=
  id = Ident.zero ∨ ∃ name recipe, .make name recipe ∈ events ∧ recipe.Gives id

private theorem IsGiven.append_right {events : List Event} {id : Ident} (more : List Event) :
    IsGiven events id → IsGiven (events ++ more) id :=
  Or.imp_right fun ⟨name, recipe, hmade, hid⟩ => ⟨name, recipe, List.mem_append_left _ hmade, hid⟩

variable {db : Database} {ids : IdSource} {events : List Event}

private theorem sorts_of_start {call : Call Objects (Option CallResult)}
    (hcall : .start call ∈ events.map (·.toInterleaving db)) : call.Sorts lockIds {id | IsGiven events id} none := by
  obtain ⟨event, hevent, heq⟩ := List.mem_map.mp hcall
  cases event with
  | make name recipe =>
    cases heq
    exact sorts_make (fun id hid => .inr ⟨name, recipe, hevent, hid⟩) name
  | call name op now fuel =>
    cases heq
    exact sorts_perform (.inl rfl) name op now fuel
  | answer n outcome => cases heq

private theorem accounts_run (db : Database) (ids : IdSource) (events : List Event) :
    ∃ named, (run db ids events).Accounts lockIds {id | IsGiven events id} ids named := by
  have hnone : lockIds [] ⊆ {id | IsGiven events id} := by
    rintro id ⟨_, ⟨⟩, -⟩
  exact Interleaving.accounts_run (Interleaving.accounts_fresh hnone ids) fun _ => sorts_of_start

/-- An identifier that a lock has at some time and that was not given before was drawn, and no request has it. -/
private theorem lockId_apart {before : List Event} (hbefore : before <+: events)
    (hdrawn : (run db ids events).ids.drawn - ids.drawn ≤ 2147483648) {id : Ident}
    (hid : id ∈ (run db ids before).lockIds lockIds) (hnot : ¬ IsGiven before id) :
    id ∈ ids.take ((run db ids events).ids.drawn - ids.drawn) ∧
      id ∉ (run db ids events).sent.map (·.requestId) := by
  obtain ⟨after, rfl⟩ := hbefore
  obtain ⟨named, hrun⟩ := accounts_run db ids before
  have hsplit : run db ids (before ++ after) = (run db ids before).run (after.map (·.toInterleaving db)) := by
    rw [run, List.map_append, Interleaving.run_append]
    rfl
  rw [hsplit] at hdrawn ⊢
  refine hrun.apart (fun id => IsGiven.append_right after) (fun call hcall => ?_) hdrawn hid hnot
  exact sorts_of_start (List.map_append ▸ List.mem_append_right _ hcall)

/-- Whatever objects are made in a database, whatever operations are called on them, awaited or with a callback, and
in whatever order and however their requests are answered: as long as at most 2³¹ identifiers are drawn, no two requests
have the same one. Every identifier that a lock has at any time was drawn too and is not that of a request, unless it
had been given before. -/
theorem requests_have_own_ids (db : Database) (ids : IdSource) (events : List Event)
    (hdrawn : (run db ids events).ids.drawn - ids.drawn ≤ 2147483648) :
    ((run db ids events).sent.map (·.requestId)).Nodup ∧
      ∀ before, before <+: events → ∀ id ∈ (run db ids before).lockIds lockIds, ¬ IsGiven before id →
        id ∈ ids.take ((run db ids events).ids.drawn - ids.drawn) ∧
          id ∉ (run db ids events).sent.map (·.requestId) := by
  obtain ⟨named, hrun⟩ := accounts_run db ids events
  exact ⟨(List.nodup_append'.mp (hrun.nodup hdrawn)).1,
    fun before hbefore id hid hnot => lockId_apart hbefore hdrawn hid hnot⟩

def workshopIds : IdSource := .seeded 20 fun _ => ⟨1700000000000, 8⟩

/-- A lock, a limit and a group event are made. The lock is taken, and before the answer comes, a slot of the limit is
asked for with a callback. Waking up the group event is tried twice. -/
def workshop : List Event :=
  [.make "door" (.lock (.ofBytes [100]) (.seconds 4) (.seconds 9)),
    .make "bench" (.flow (.ofBytes [98]) 2 (.seconds 4) (.seconds 9) none),
    .make "shift" (.group (.ofBytes [115]) 7 0 (.seconds 4) (.seconds 9)),
    .call "door" .acquire 0 0, .call "bench" (.postAcquire 0) 0 0, .call "shift" .wakeup 0 0,
    .answer 2 (.ok (.lock { (default : LockReply) with result := ResultCode.locked })),
    .answer 0 (.ok (.lock default)), .call "door" .release 0 0]

/-- The five requests have identifiers of their own. -/
theorem workshop_requests_have_own_ids :
    (run { id := 0 } workshopIds workshop).sent.map (·.requestId.stamp) = [21, 23, 24, 25, 26] ∧
      ((run { id := 0 } workshopIds workshop).sent.map (·.requestId)).Nodup ∧
      workshopIds.upcoming ∉ (run { id := 0 } workshopIds workshop).sent.map (·.requestId) := by
  have hdrawn : (run { id := 0 } workshopIds workshop).ids.drawn = 7 := by decide +kernel
  obtain ⟨hnodup, hlocks⟩ := requests_have_own_ids { id := 0 } workshopIds workshop (by rw [hdrawn]; decide)
  refine ⟨by decide +kernel, hnodup, ?_⟩
  have hdoor : workshopIds.upcoming ∈ (run { id := 0 } workshopIds (workshop.take 1)).lockIds lockIds :=
    .inl ⟨_, List.mem_cons_self, rfl⟩
  refine (hlocks _ (List.take_prefix 1 workshop) _ hdoor ?_).2
  rintro (hzero | ⟨name, recipe, hmade, hgives⟩)
  · revert hzero
    decide +kernel
  · cases List.mem_singleton.mp hmade
    exact hgives

end Ensemble

end LockService
