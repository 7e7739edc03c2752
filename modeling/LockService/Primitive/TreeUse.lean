import LockService.Primitive.Tree
import LockService.Service.Tree

/-!
# Trees in use

The nodes of a tree come from one root by making children, and leaves of them are acquired and released one after the
other. The books beside the service record which leaves are held, and how often leaves of each node were asked for and
given back.
-/

namespace LockService

open Relation (TransGen)

namespace TreeNode

/-- The nodes of a tree: a root, and children of nodes made before, each with a key of its own. -/
inductive Grown : List TreeNode → Prop where
  | root {node : TreeNode} (top : node.parent = none) : Grown [node]
  | child {nodes : List TreeNode} {node : TreeNode} {key : LockKey} (grown : Grown nodes) (mem : node ∈ nodes)
    (fresh : ∀ n ∈ nodes, n.key ≠ key) : Grown (nodes ++ [node.child key])

/-- One key is the parent of another. -/
def Under (nodes : List TreeNode) (key parent : LockKey) : Prop :=
  ∃ node ∈ nodes, node.key = key ∧ node.parent = some parent

/-- One key is a descendant of another. -/
def Below (nodes : List TreeNode) : LockKey → LockKey → Prop := TransGen (Under nodes)

/-- Two keys are equal, or one is an ancestor of the other. -/
def Related (nodes : List TreeNode) (key key' : LockKey) : Prop :=
  key = key' ∨ Below nodes key key' ∨ Below nodes key' key

end TreeNode

inductive TreeCall where
  | acquire
  | release
deriving DecidableEq

/-- A call on a leaf, with the identifiers that its client draws next. -/
structure TreeUse where
  leaf : TreeLeaf
  call : TreeCall
  ids : IdSource

namespace TreeUse

/-- The leaf is one of a node of the tree. -/
def IsOn (nodes : List TreeNode) (u : TreeUse) : Prop :=
  u.leaf.node ∈ nodes ∧ ∃ id, u.leaf.lock = u.leaf.node.lockAs id

def run (u : TreeUse) (s : TreeService) : Outcome LockReply × TreeService :=
  let scene : Scene Unit TreeService := ⟨(), u.ids, s⟩
  let (outcome, scene) := match u.call with
    | .acquire => u.leaf.acquire.outcome.run TreeService.respond scene
    | .release => u.leaf.release.outcome.run TreeService.respond scene
  (outcome, scene.peer)

/-- Whether the call succeeds. -/
def succeeds (u : TreeUse) (s : TreeService) : Bool := (u.run s).1.isOk

end TreeUse

/-- The service with the books of those who use trees. -/
structure TreeUsers where
  service : TreeService := {}
  /-- The leaves that are held, in the order in which they were acquired. -/
  held : List TreeLeaf := []
  /-- The keys of the leaves that were asked for, in order. -/
  asked : List LockKey := []
  /-- The keys of the leaves that were given back, in order. -/
  returned : List LockKey := []

namespace TreeUsers

def step (p : TreeUsers) (u : TreeUse) : TreeUsers :=
  let service := (u.run p.service).2
  match u.call, u.succeeds p.service with
  | .acquire, true =>
    { p with service, held := p.held ++ [u.leaf], asked := p.asked ++ [u.leaf.node.key] }
  | .acquire, false => { p with service, asked := p.asked ++ [u.leaf.node.key] }
  | .release, true =>
    { p with service, held := p.held.filter (·.lock ≠ u.leaf.lock), returned := p.returned ++ [u.leaf.node.key] }
  | .release, false => { p with service }

/-- Lets calls happen one after the other. -/
def run (p : TreeUsers) (uses : List TreeUse) : TreeUsers := uses.foldl step p

@[simp] theorem run_nil (p : TreeUsers) : p.run [] = p := rfl

theorem run_concat (p : TreeUsers) (uses : List TreeUse) (u : TreeUse) :
    p.run (uses ++ [u]) = (p.run uses).step u := by
  simp only [run, List.foldl_append, List.foldl_cons, List.foldl_nil]

/-- Whether leaves of a node were asked for more often than given back. -/
def Announced (p : TreeUsers) (key : LockKey) : Prop := p.returned.count key < p.asked.count key

/-- No two leaves are held whose nodes are equal or one of which is above the other. -/
def Excludes (nodes : List TreeNode) (p : TreeUsers) : Prop :=
  p.held.Pairwise fun leaf leaf' => ¬ TreeNode.Related nodes leaf.node.key leaf'.node.key

/-- Strictly between two keys there is a node of which no leaf is announced. -/
def Apart (nodes : List TreeNode) (p : TreeUsers) (key key' : LockKey) : Prop :=
  ∃ middle, ¬ p.Announced middle ∧
    (TreeNode.Below nodes key middle ∧ TreeNode.Below nodes middle key' ∨
      TreeNode.Below nodes key' middle ∧ TreeNode.Below nodes middle key)

/-- A leaf of a node is asked for while leaves above or below it are held, all of them apart from it. -/
def ReachesAcross (nodes : List TreeNode) (p : TreeUsers) (u : TreeUse) : Prop :=
  u.call = .acquire ∧ (∃ leaf ∈ p.held, TreeNode.Related nodes leaf.node.key u.leaf.node.key) ∧
    ∀ leaf ∈ p.held, TreeNode.Related nodes leaf.node.key u.leaf.node.key →
      leaf.node.key ≠ u.leaf.node.key ∧ p.Apart nodes leaf.node.key u.leaf.node.key

end TreeUsers

end LockService
