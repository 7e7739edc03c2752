import LockService.Primitive.Lock

/-!
# Lock trees

A node of a lock tree is a key and the key of its parent. Holding a leaf of a node excludes every ancestor and
descendant. The server learns the links from two marks that a leaf of a non-root node places before it takes its own
lock and takes back after it has released it: the child's mark on the parent's key, under the child's key as
identifier, and the parent's mark on the child's key, under the parent's key.
-/

namespace LockService

structure TreeNode where
  dbId : UInt8
  key : LockKey
  parent : Option LockKey
  timeout : TimeWord
  expire : TimeWord

/-- A holder of a tree node, with a lock of its own. -/
structure TreeLeaf where
  node : TreeNode
  lock : Lock

namespace TreeNode

variable {σ : Type}

/-- Whether the node has no parent. -/
def isRoot (node : TreeNode) : Bool := node.parent.isNone

def child (node : TreeNode) (key : LockKey) : TreeNode := { node with key, parent := some node.key }

def lockAs (node : TreeNode) (id : Ident) : Lock :=
  { dbId := node.dbId, key := node.key, id, timeout := node.timeout, expire := node.expire }

def leaf (node : TreeNode) : Call σ TreeLeaf := return { node, lock := node.lockAs (← Call.fresh) }

/-- The mark on the parent's key that names this node as a child. -/
def childMark (node : TreeNode) (parent : LockKey) : Lock :=
  { dbId := node.dbId, key := parent, id := node.key.asIdent, timeout := TimeWord.pack 0 0, expire := node.expire,
    count := unboundedCount }

/-- The mark on this node's key that names its parent. -/
def parentMark (node : TreeNode) (parent : LockKey) : Lock :=
  { dbId := node.dbId, key := node.key, id := parent.asIdent, timeout := TimeWord.pack 0 0, expire := node.expire }

end TreeNode

namespace TreeLeaf

variable {σ : Type}

/-- Places both marks, then takes the node. A mark that is there already does not matter, and the marks stay when the
node is not taken. -/
def acquire (leaf : TreeLeaf) : Attempt σ LockReply := do
  if let some parent := leaf.node.parent then
    let _ ← ((leaf.node.childMark parent).acquireWith LockFlag.treeMark).tolerating Failure.isLocked
    let _ ← ((leaf.node.parentMark parent).acquireWith LockFlag.treeMark).tolerating Failure.isLocked
  leaf.lock.acquire

/-- Gives the node back, then takes back both marks. A mark that is gone already does not matter. -/
def release (leaf : TreeLeaf) : Attempt σ LockReply := do
  let reply ← leaf.lock.release
  if let some parent := leaf.node.parent then
    let _ ← ((leaf.node.childMark parent).releaseWith UnlockFlag.treeMark).tolerating Failure.isUnlocked
    let _ ← ((leaf.node.parentMark parent).releaseWith UnlockFlag.treeMark).tolerating Failure.isUnlocked
  return reply

section Equations

variable {leaf : TreeLeaf} {parent : LockKey}

theorem acquire_of_root (h : leaf.node.parent = none) : (leaf.acquire : Attempt σ LockReply) = leaf.lock.acquire := by
  unfold acquire
  rw [h]

theorem acquire_of_parent (h : leaf.node.parent = some parent) : (leaf.acquire : Attempt σ LockReply) =
    ((leaf.node.childMark parent).acquireWith LockFlag.treeMark).tolerating Failure.isLocked >>= fun _ =>
      ((leaf.node.parentMark parent).acquireWith LockFlag.treeMark).tolerating Failure.isLocked >>= fun _ =>
        leaf.lock.acquire := by
  unfold acquire
  rw [h]

theorem release_of_root (h : leaf.node.parent = none) : (leaf.release : Attempt σ LockReply) =
    leaf.lock.release >>= fun reply => pure reply := by
  unfold release
  rw [h]

theorem release_of_parent (h : leaf.node.parent = some parent) : (leaf.release : Attempt σ LockReply) =
    leaf.lock.release >>= fun reply =>
      ((leaf.node.childMark parent).releaseWith UnlockFlag.treeMark).tolerating Failure.isUnlocked >>= fun _ =>
        ((leaf.node.parentMark parent).releaseWith UnlockFlag.treeMark).tolerating Failure.isUnlocked >>= fun _ =>
          pure reply := by
  unfold release
  rw [h]

end Equations

end TreeLeaf

def Database.tree (db : Database) (key : LockKey) (timeout expire : TimeWord) : TreeNode :=
  { dbId := db.id, key, parent := none, timeout, expire }

end LockService
