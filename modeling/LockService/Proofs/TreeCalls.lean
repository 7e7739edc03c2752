import LockService.Primitive.TreeUse
import Mathlib.Logic.Function.Basic

/-!
# Trees and the calls on their leaves

Keys of a tree lead to their parents, to one each and in no circle (`TreeNode.Grown.shape`). An acquire places two marks
for the link of its node and then takes the node or is refused (`TreeUse.acquire_cases`); a release gives the node back
and then takes two marks back (`TreeUse.release_cases`).
-/

namespace LockService

open Relation (TransGen ReflTransGen)

/-! ### Paths along marked elements -/

section Paths

variable {α : Type} {R : α → α → Prop} {A : α → Prop} {a b m : α}

/-- Where every element leads to one other at most and there is no circle, what comes after an element comes after
the element that it leads to. -/
private theorem eq_or_transGen_of_step (hunique : Relator.RightUnique R) (hab : R a b) (ham : TransGen R a m) :
    b = m ∨ TransGen R b m := by
  obtain ⟨c, hac, hcm⟩ := TransGen.head'_iff.mp ham
  obtain rfl := hunique hab hac
  exact (Relation.reflTransGen_iff_eq_or_transGen.mp hcm).imp Eq.symm id

/-- A path is marked throughout if its start and all elements between its ends are. -/
theorem transGen_marked_iff (hunique : Relator.RightUnique R) (hcircle : ∀ x, ¬ TransGen R x x) :
    TransGen (fun x y => R x y ∧ A x) a b ↔
      TransGen R a b ∧ A a ∧ ∀ m, TransGen R a m → TransGen R m b → A m := by
  constructor
  · intro h
    induction h using TransGen.head_induction_on with
    | single hab =>
      refine ⟨.single hab.1, hab.2, fun m ham hmb => ?_⟩
      rcases eq_or_transGen_of_step hunique hab.1 ham with rfl | hbm
      · exact absurd hmb (hcircle _)
      · exact absurd (hbm.trans hmb) (hcircle _)
    | head hac _ ih =>
      obtain ⟨hcb, hc, hbetween⟩ := ih
      refine ⟨.head hac.1 hcb, hac.2, fun m ham hmb => ?_⟩
      rcases eq_or_transGen_of_step hunique hac.1 ham with rfl | hcm
      · exact hc
      · exact hbetween m hcm hmb
  · rintro ⟨h, ha, hbetween⟩
    induction h using TransGen.head_induction_on with
    | single hab => exact .single ⟨hab, ha⟩
    | head hac hcb ih =>
      have hc := hbetween _ (.single hac) hcb
      exact .head ⟨hac, ha⟩ (ih hc fun m hcm hmb => hbetween m (.head hac hcm) hmb)

end Paths

/-! ### The shape of a tree -/

namespace TreeNode

variable {nodes : List TreeNode} {node : TreeNode} {a b c : LockKey}

/-- What the nodes of a tree have in common. -/
structure Shape (nodes : List TreeNode) : Prop where
  /-- Every node has a key of its own. -/
  distinct : ∀ n ∈ nodes, ∀ n' ∈ nodes, n.key = n'.key → n = n'
  /-- Parents are nodes of the tree. -/
  closed : ∀ n ∈ nodes, ∀ parent, n.parent = some parent → ∃ n' ∈ nodes, n'.key = parent
  /-- Nodes have a depth, which is less for parents. -/
  depth : ∃ depth : LockKey → Nat, ∀ a b, Under nodes a b → depth b < depth a

/-- Nodes grown from a root have their parents among them, under keys of their own. -/
theorem Grown.shape (h : Grown nodes) : Shape nodes := by
  induction h with
  | @root node top =>
    refine ⟨?_, ?_, fun _ => 0, ?_⟩
    · intro n hn n' hn' _
      rw [List.mem_singleton.mp hn, List.mem_singleton.mp hn']
    · intro n hn parent hparent
      rw [List.mem_singleton.mp hn, top] at hparent
      cases hparent
    · rintro a b ⟨n, hn, -, hparent⟩
      rw [List.mem_singleton.mp hn, top] at hparent
      cases hparent
  | @child nodes node key _ mem fresh ih =>
    obtain ⟨distinct, closed, depth, hdepth⟩ := ih
    refine ⟨?_, ?_, Function.update depth key (depth node.key + 1), ?_⟩
    · intro n hn n' hn' he
      rcases List.mem_append.mp hn with hn | hn <;> rcases List.mem_append.mp hn' with hn' | hn'
      · exact distinct n hn n' hn' he
      · rw [List.mem_singleton.mp hn'] at he
        exact absurd he (fresh n hn)
      · rw [List.mem_singleton.mp hn] at he
        exact absurd he.symm (fresh n' hn')
      · rw [List.mem_singleton.mp hn, List.mem_singleton.mp hn']
    · intro n hn parent hparent
      rcases List.mem_append.mp hn with hn | hn
      · obtain ⟨n', hn', he⟩ := closed n hn parent hparent
        exact ⟨n', List.mem_append_left _ hn', he⟩
      · rw [List.mem_singleton.mp hn] at hparent
        cases hparent
        exact ⟨node, List.mem_append_left _ mem, rfl⟩
    · rintro a b ⟨n, hn, rfl, hparent⟩
      rcases List.mem_append.mp hn with hn | hn
      · obtain ⟨n', hn', rfl⟩ := closed n hn b hparent
        rw [Function.update_of_ne (fresh n' hn'), Function.update_of_ne (fresh n hn)]
        exact hdepth _ _ ⟨n, hn, rfl, hparent⟩
      · obtain rfl := List.mem_singleton.mp hn
        cases hparent
        rw [Function.update_of_ne (fresh node mem)]
        show depth node.key < Function.update depth key (depth node.key + 1) key
        rw [Function.update_self]
        omega

namespace Shape

variable (h : Shape nodes)

include h

theorem rightUnique_under : Relator.RightUnique (Under nodes) := by
  intro a b c hab hac
  obtain ⟨n, hn, hkey, hb⟩ := hab
  obtain ⟨n', hn', hkey', hc⟩ := hac
  obtain rfl := h.distinct n hn n' hn' (hkey.trans hkey'.symm)
  exact Option.some.inj (hb.symm.trans hc)

theorem not_below_self (a : LockKey) : ¬ Below nodes a a := by
  obtain ⟨depth, hdepth⟩ := h.depth
  have hless : ∀ {x y}, Below nodes x y → depth y < depth x := by
    intro x y hxy
    induction hxy with
    | single hxy => exact hdepth _ _ hxy
    | tail _ hyz ih => exact Nat.lt_trans (hdepth _ _ hyz) ih
  exact fun ha => Nat.lt_irrefl _ (hless ha)

/-- Nothing is between a node and its parent. -/
theorem not_between (hab : Under nodes a b) (ham : Below nodes a c) : ¬ Below nodes c b := by
  intro hcb
  rcases eq_or_transGen_of_step h.rightUnique_under hab ham with rfl | hbc
  · exact h.not_below_self _ hcb
  · exact h.not_below_self _ (TransGen.trans hbc hcb)

end Shape

end TreeNode

/-! ### Runs of the calls on a leaf -/

namespace TreeService

variable {σ : Type} {scene : Scene σ TreeService} {s : TreeService} {node : TreeNode} {parent : LockKey}

/-- The service after a leaf of a node has placed its marks. -/
def announce (s : TreeService) (node : TreeNode) : TreeService :=
  match node.parent with
  | some parent => ((s.mark node.key parent).2.mark node.key parent).2
  | none => s

/-- The service after a leaf of a node has taken its marks back. -/
def retract (s : TreeService) (node : TreeNode) : TreeService :=
  match node.parent with
  | some _ => ((s.unmark node.key).2.unmark node.key).2
  | none => s

/-- The two locks that stand for the link of a node. -/
inductive IsMark : Lock → TreeNode → LockKey → Prop where
  | child (node : TreeNode) (parent : LockKey) : IsMark (node.childMark parent) node parent
  | parent (node : TreeNode) (parent : LockKey) : IsMark (node.parentMark parent) node parent

private theorem handle_mark {lock : Lock} (h : IsMark lock node parent) (id : Ident) :
    s.handle (lock.requestWith .lock LockFlag.treeMark id) = s.mark node.key parent ∧
      s.handle (lock.requestWith .unlock UnlockFlag.treeMark id) = s.unmark node.key := by
  have hlink : ∀ kind flag, (lock.requestWith kind flag id).markedLink = (node.key, parent) := by
    intro kind flag
    cases h <;> rfl
  have htree : LockFlag.treeMark &&& LockFlag.treeMark ≠ 0 := by decide
  constructor
  · refine (if_pos htree).trans ?_
    rw [hlink]
    rfl
  · refine (if_pos htree).trans ?_
    rw [hlink]
    rfl

/-- Placing a mark goes well, be it there or not. -/
private theorem run_place {lock : Lock} (h : IsMark lock node parent) (scene : Scene σ TreeService) :
    ∃ value ids, ((lock.acquireWith LockFlag.treeMark).tolerating Failure.isLocked).outcome.run respond scene =
      (.ok value, { scene with ids, peer := (scene.peer.mark node.key parent).2 }) := by
  have hcode := LockRequest.hasCode_answer (lock.requestWith .lock LockFlag.treeMark scene.ids.upcoming)
    (scene.peer.mark node.key parent).1
  have hrun := Lock.run_acquireWith respond lock LockFlag.treeMark scene
  simp only [respond, (handle_mark h _).1] at hrun
  obtain ⟨value, hvalue⟩ := Attempt.run_tolerating hrun (hcode.isLocked_of_error code_mark)
  exact ⟨value, _, hvalue⟩

/-- Taking a mark back goes well, be it there or not. -/
private theorem run_withdraw {lock : Lock} (h : IsMark lock node parent) (scene : Scene σ TreeService) :
    ∃ value ids, ((lock.releaseWith UnlockFlag.treeMark).tolerating Failure.isUnlocked).outcome.run respond scene =
      (.ok value, { scene with ids, peer := (scene.peer.unmark node.key).2 }) := by
  have hcode := LockRequest.hasCode_answer (lock.requestWith .unlock UnlockFlag.treeMark scene.ids.upcoming)
    (scene.peer.unmark node.key).1
  have hrun := Lock.run_releaseWith respond lock UnlockFlag.treeMark scene
  simp only [respond, (handle_mark h _).2] at hrun
  obtain ⟨value, hvalue⟩ := Attempt.run_tolerating hrun (hcode.isUnlocked_of_error code_unmark)
  exact ⟨value, _, hvalue⟩

private theorem giveBack_of_not_mem {r : LockRequest} (h : (r.lockKey, r.lockId) ∉ s.holders) :
    (s.giveBack r).1 ≠ ResultCode.success ∧ (s.giveBack r).2 = s := by
  unfold giveBack
  rw [if_neg h]
  split
  · exact ⟨show ResultCode.notOwner ≠ ResultCode.success by decide, rfl⟩
  · exact ⟨show ResultCode.unlocked ≠ ResultCode.success by decide, rfl⟩

/-- A request for a lock that is no mark asks for its key, or gives it back. -/
private theorem handle_plain (lock : Lock) (id : Ident) :
    s.handle (lock.requestWith .lock 0 id) = s.take (lock.requestWith .lock 0 id) ∧
      s.handle (lock.requestWith .unlock 0 id) = s.giveBack (lock.requestWith .unlock 0 id) := by
  have htree : ¬ (0 &&& LockFlag.treeMark ≠ 0) := by decide
  exact ⟨if_neg htree, if_neg htree⟩

end TreeService

namespace TreeUse

open TreeService

variable {u : TreeUse}

/-- An acquire announces its node and then asks for it. -/
theorem run_acquire (hu : u.call = .acquire) (s : TreeService) :
    ∃ id, u.run s =
      ((respond (s.announce u.leaf.node) (u.leaf.lock.requestWith .lock 0 id)).1 >>= lockOutcome,
        (respond (s.announce u.leaf.node) (u.leaf.lock.requestWith .lock 0 id)).2) := by
  obtain ⟨leaf, call, ids⟩ := u
  obtain rfl := hu
  cases hparent : leaf.node.parent with
  | none =>
    refine ⟨ids.upcoming, ?_⟩
    simp only [run, TreeLeaf.acquire_of_root hparent, announce, hparent]
    rfl
  | some parent =>
    obtain ⟨value, ids', hchild⟩ := run_place (IsMark.child leaf.node parent)
      (⟨(), ids, s⟩ : Scene Unit TreeService)
    obtain ⟨value', ids'', hparent'⟩ := run_place (IsMark.parent leaf.node parent)
      (⟨(), ids', (s.mark leaf.node.key parent).2⟩ : Scene Unit TreeService)
    refine ⟨ids''.upcoming, ?_⟩
    simp only [run, TreeLeaf.acquire_of_parent hparent, announce, hparent]
    rw [Attempt.run_bind_of_ok hchild, Attempt.run_bind_of_ok hparent']
    rfl

/-- A release gives the node back and, if that goes well, retracts it. -/
theorem run_release (hu : u.call = .release) (s : TreeService) :
    ∃ id, (u.run s).1 = (respond s (u.leaf.lock.requestWith .unlock 0 id)).1 >>= lockOutcome ∧
      (u.run s).2 =
        if (respond s (u.leaf.lock.requestWith .unlock 0 id)).1.isGrant then
          (respond s (u.leaf.lock.requestWith .unlock 0 id)).2.retract u.leaf.node
        else (respond s (u.leaf.lock.requestWith .unlock 0 id)).2 := by
  obtain ⟨leaf, call, ids⟩ := u
  obtain rfl := hu
  refine ⟨ids.upcoming, ?_⟩
  have hrun : leaf.lock.release.outcome.run respond (⟨(), ids, s⟩ : Scene Unit TreeService) = _ :=
    Lock.run_releaseWith respond leaf.lock 0 _
  generalize hanswer : respond s (leaf.lock.requestWith .unlock 0 ids.upcoming) = answer at hrun ⊢
  unfold Outcome.isGrant
  cases houtcome : answer.1 >>= lockOutcome with
  | error failure =>
    rw [houtcome] at hrun
    cases hparent : leaf.node.parent with
    | none =>
      simp only [run, TreeLeaf.release_of_root hparent]
      rw [Attempt.run_bind_of_error hrun]
      exact ⟨rfl, rfl⟩
    | some parent =>
      simp only [run, TreeLeaf.release_of_parent hparent]
      rw [Attempt.run_bind_of_error hrun]
      exact ⟨rfl, rfl⟩
  | ok reply =>
    rw [houtcome] at hrun
    cases hparent : leaf.node.parent with
    | none =>
      simp only [run, TreeLeaf.release_of_root hparent]
      rw [Attempt.run_bind_of_ok hrun]
      simp only [retract, hparent]
      exact ⟨rfl, rfl⟩
    | some parent =>
      obtain ⟨value, ids', hchild⟩ := run_withdraw (IsMark.child leaf.node parent)
        (⟨(), ids.advance, answer.2⟩ : Scene Unit TreeService)
      obtain ⟨value', ids'', hparent'⟩ := run_withdraw (IsMark.parent leaf.node parent)
        (⟨(), ids', (answer.2.unmark leaf.node.key).2⟩ : Scene Unit TreeService)
      simp only [run, TreeLeaf.release_of_parent hparent]
      rw [Attempt.run_bind_of_ok hrun, Attempt.run_bind_of_ok hchild, Attempt.run_bind_of_ok hparent']
      simp only [retract, hparent]
      exact ⟨rfl, rfl⟩

/-- What an acquire comes to. -/
theorem acquire_cases (hu : u.call = .acquire) (s : TreeService) :
    ((s.announce u.leaf.node).isTaken u.leaf.lock.key = true ∧ u.succeeds s = false ∧
      (u.run s).2 = s.announce u.leaf.node) ∨
    ((s.announce u.leaf.node).isTaken u.leaf.lock.key = false ∧ u.succeeds s = true ∧
      (u.run s).2 = { s.announce u.leaf.node with
        holders := (s.announce u.leaf.node).holders ++ [(u.leaf.lock.key, u.leaf.lock.id)] }) := by
  obtain ⟨id, hrun⟩ := run_acquire hu s
  have hcode := LockRequest.hasCode_answer (u.leaf.lock.requestWith .lock 0 id)
    ((s.announce u.leaf.node).take (u.leaf.lock.requestWith .lock 0 id)).1
  simp only [respond, (handle_plain u.leaf.lock id).1] at hrun
  cases htaken : (s.announce u.leaf.node).isTaken u.leaf.lock.key with
  | true =>
    have htake : (s.announce u.leaf.node).take (u.leaf.lock.requestWith .lock 0 id) =
        (if u.leaf.lock.timeout.waitSpan = Span.zero then ResultCode.locked else ResultCode.timeout,
          s.announce u.leaf.node) := if_pos htaken
    rw [htake] at hrun hcode
    refine .inl ⟨rfl, ?_, congrArg Prod.snd hrun⟩
    rw [succeeds, hrun, Bool.eq_false_iff]
    refine fun hok => absurd (hcode.isGrant_iff.mp hok) ?_
    dsimp only
    split <;> decide
  | false =>
    have htake : (s.announce u.leaf.node).take (u.leaf.lock.requestWith .lock 0 id) = (ResultCode.success, _) :=
      if_neg (by rw [Bool.not_eq_true]; exact htaken)
    rw [htake] at hrun hcode
    refine .inr ⟨rfl, ?_, congrArg Prod.snd hrun⟩
    rw [succeeds, hrun]
    exact hcode.isGrant_iff.mpr rfl

/-- What a release comes to. -/
theorem release_cases (hu : u.call = .release) (s : TreeService) :
    ((u.leaf.lock.key, u.leaf.lock.id) ∉ s.holders ∧ u.succeeds s = false ∧ (u.run s).2 = s) ∨
    ((u.leaf.lock.key, u.leaf.lock.id) ∈ s.holders ∧ u.succeeds s = true ∧
      (u.run s).2 = { s with holders := s.holders.filter (· ≠ (u.leaf.lock.key, u.leaf.lock.id)) }.retract
        u.leaf.node) := by
  obtain ⟨id, hrun, hafter⟩ := run_release hu s
  have hcode := LockRequest.hasCode_answer (u.leaf.lock.requestWith .unlock 0 id)
    (s.giveBack (u.leaf.lock.requestWith .unlock 0 id)).1
  simp only [respond, (handle_plain u.leaf.lock id).2] at hrun hafter
  by_cases hmem : (u.leaf.lock.key, u.leaf.lock.id) ∈ s.holders
  · have hback : s.giveBack (u.leaf.lock.requestWith .unlock 0 id) =
        (ResultCode.success, { s with holders := s.holders.filter (· ≠ (u.leaf.lock.key, u.leaf.lock.id)) }) :=
      if_pos hmem
    rw [hback] at hrun hafter hcode
    have hgrant := hcode.isGrant_iff.mpr rfl
    refine .inr ⟨hmem, ?_, ?_⟩
    · rw [succeeds, hrun]
      exact hgrant
    · rw [hafter, if_pos hgrant]
  · have hback := giveBack_of_not_mem (s := s) (r := u.leaf.lock.requestWith .unlock 0 id) hmem
    have hgrant := mt hcode.isGrant_iff.mp hback.1
    refine .inl ⟨hmem, ?_, ?_⟩
    · rw [succeeds, hrun, Bool.eq_false_iff]
      exact hgrant
    · rw [hafter, if_neg hgrant]
      exact hback.2

end TreeUse

end LockService
