import LockService.Proofs.TreeCalls
import Mathlib.Data.List.Induction
import Mathlib.Data.List.Perm.Basic

/-!
# What leaves of a tree exclude

A leaf that is asked for announces one link, the one from its own node to its parent. A leaf is granted unless its node
is held or a leaf above or below it is, with all nodes between the two announced. Leaves of a node and of its parent
exclude each other therefore, and leaves further apart do as long as none is asked for across a node that nobody has
announced (`TreeUsers.leaves_exclude_iff`).
-/

namespace LockService

open Relation (TransGen)

/-! ### What the service knows of a tree -/

namespace TreeNode

variable {nodes : List TreeNode} {node : TreeNode} {s : TreeService} {asked returned : List LockKey} {a b k : LockKey}

/-- The links known are those of the tree, each with two marks for every leaf that was asked for and not given back. -/
structure Knows (nodes : List TreeNode) (s : TreeService) (asked returned : List LockKey) : Prop where
  known : ∀ k parent, Under nodes k parent →
    Assoc.get? k s.links = TreeService.marked parent (2 * (asked.count k - returned.count k))
  unknown : ∀ k, (∀ parent, ¬ Under nodes k parent) → Assoc.get? k s.links = none

namespace Knows

/-- A link leads from a node to its parent as long as it has been asked for more often than given back. -/
private theorem leads_iff (h : Knows nodes s asked returned) :
    s.links.Leads a b ↔ Under nodes a b ∧ returned.count a < asked.count a := by
  unfold TreeLinks.Leads
  constructor
  · rintro ⟨marks, hmarks⟩
    by_cases hparent : ∃ parent, Under nodes a parent
    · obtain ⟨parent, hparent⟩ := hparent
      rw [h.known a parent hparent, TreeService.marked] at hmarks
      split at hmarks
      · cases hmarks
      · cases hmarks
        exact ⟨hparent, by omega⟩
    · rw [h.unknown a (not_exists.mp hparent)] at hmarks
      cases hmarks
  · rintro ⟨hab, hcount⟩
    have hmarks : 2 * (asked.count a - returned.count a) ≠ 0 := by omega
    exact ⟨_, (h.known a b hab).trans (if_neg hmarks)⟩

private theorem congr (h : Knows nodes s asked returned) {s' : TreeService} (hlinks : s'.links = s.links) :
    Knows nodes s' asked returned where
  known k parent hk := hlinks ▸ h.known k parent hk
  unknown k hk := hlinks ▸ h.unknown k hk

end Knows

section Marks

variable {parent : LockKey} {marks : Nat}

/-- An acquire marks the link from its node to the parent twice. -/
private theorem get?_announce (hparent : node.parent = some parent)
    (h : Assoc.get? node.key s.links = TreeService.marked parent marks) :
    Assoc.get? node.key (s.announce node).links = TreeService.marked parent (marks + 2) := by
  simp only [TreeService.announce, hparent]
  exact TreeService.get?_mark (TreeService.get?_mark h)

private theorem get?_announce_of_ne (h : k ≠ node.key) :
    Assoc.get? k (s.announce node).links = Assoc.get? k s.links := by
  unfold TreeService.announce
  split
  · rw [TreeService.get?_mark_of_ne h, TreeService.get?_mark_of_ne h]
  · rfl

/-- A release takes back both marks. -/
private theorem get?_retract (hparent : node.parent = some parent)
    (h : Assoc.get? node.key s.links = TreeService.marked parent (marks + 2)) :
    Assoc.get? node.key (s.retract node).links = TreeService.marked parent marks := by
  simp only [TreeService.retract, hparent]
  exact TreeService.get?_unmark (TreeService.get?_unmark h)

private theorem get?_retract_of_ne (h : k ≠ node.key) : Assoc.get? k (s.retract node).links = Assoc.get? k s.links := by
  unfold TreeService.retract
  split
  · rw [TreeService.get?_unmark_of_ne h, TreeService.get?_unmark_of_ne h]
  · rfl

private theorem announce_of_root (h : node.parent = none) : s.announce node = s := by
  simp only [TreeService.announce, h]

private theorem retract_of_root (h : node.parent = none) : s.retract node = s := by
  simp only [TreeService.retract, h]

private theorem holders_announce : (s.announce node).holders = s.holders := by
  unfold TreeService.announce
  split
  · rw [TreeService.holders_mark, TreeService.holders_mark]
  · rfl

private theorem holders_retract : (s.retract node).holders = s.holders := by
  unfold TreeService.retract
  split
  · rw [TreeService.holders_unmark, TreeService.holders_unmark]
  · rfl

end Marks

/-- A node has the parent that the tree gives its key. -/
theorem Shape.parent_eq (shape : Shape nodes) (hnode : node ∈ nodes) (h : Under nodes node.key a) :
    node.parent = some a := by
  obtain ⟨n, hn, hkey, hparent⟩ := h
  rw [← shape.distinct n hn node hnode hkey]
  exact hparent

private theorem parent_eq_none (hnode : node ∈ nodes) (h : ∀ parent, ¬ Under nodes node.key parent) :
    node.parent = none := by
  cases hparent : node.parent with
  | none => rfl
  | some parent => exact absurd ⟨node, hnode, rfl, hparent⟩ (h parent)

namespace Knows

/-- An acquire places two marks. -/
private theorem announce (h : Knows nodes s asked returned) (shape : Shape nodes) (hnode : node ∈ nodes)
    (hcount : returned.count node.key ≤ asked.count node.key) :
    Knows nodes (s.announce node) (asked ++ [node.key]) returned where
  known k parent hk := by
    have hbefore := h.known k parent hk
    by_cases he : k = node.key
    · subst he
      rw [get?_announce (shape.parent_eq hnode hk) hbefore, List.count_append, List.count_singleton_self]
      congr 1
      omega
    · have hother : [node.key].count k = 0 := List.count_eq_zero_of_not_mem (by simpa using he)
      rw [get?_announce_of_ne he, hbefore, List.count_append, hother, Nat.add_zero]
  unknown k hk := by
    by_cases he : k = node.key
    · subst he
      rw [announce_of_root (parent_eq_none hnode hk)]
      exact h.unknown _ hk
    · rw [get?_announce_of_ne he]
      exact h.unknown k hk

/-- A release takes two marks back. -/
private theorem retract (h : Knows nodes s asked returned) (shape : Shape nodes) (hnode : node ∈ nodes)
    (hcount : returned.count node.key < asked.count node.key) :
    Knows nodes (s.retract node) asked (returned ++ [node.key]) where
  known k parent hk := by
    have hbefore := h.known k parent hk
    by_cases he : k = node.key
    · subst he
      have hmarks : 2 * (asked.count node.key - returned.count node.key) =
          2 * (asked.count node.key - (returned.count node.key + 1)) + 2 := by omega
      rw [hmarks] at hbefore
      rw [get?_retract (shape.parent_eq hnode hk) hbefore, List.count_append, List.count_singleton_self]
    · have hother : [node.key].count k = 0 := List.count_eq_zero_of_not_mem (by simpa using he)
      rw [get?_retract_of_ne he, hbefore, List.count_append, hother, Nat.add_zero]
  unknown k hk := by
    by_cases he : k = node.key
    · subst he
      rw [retract_of_root (parent_eq_none hnode hk)]
      exact h.unknown _ hk
    · rw [get?_retract_of_ne he]
      exact h.unknown k hk

end Knows

end TreeNode

/-! ### What every call keeps -/

namespace TreeUsers

open TreeNode

variable {nodes : List TreeNode} {p : TreeUsers} {u : TreeUse}

/-- The books agree with the service. -/
structure Kept (nodes : List TreeNode) (p : TreeUsers) : Prop where
  holders : p.service.holders = p.held.map fun leaf => (leaf.lock.key, leaf.lock.id)
  leaves : ∀ leaf ∈ p.held, leaf.node ∈ nodes ∧ leaf.lock = leaf.node.lockAs leaf.lock.id
  knows : Knows nodes p.service p.asked p.returned
  balance : ∀ k, p.returned.count k + (p.held.map (·.node.key)).count k ≤ p.asked.count k

private theorem kept_fresh (nodes : List TreeNode) : Kept nodes {} where
  holders := rfl
  leaves _ hleaf := absurd hleaf List.not_mem_nil
  knows := ⟨fun _ _ _ => rfl, fun _ _ => rfl⟩
  balance _ := Nat.le_refl 0

/-- The link from a held leaf's node to the parent is known. -/
private theorem Kept.announced (h : Kept nodes p) {leaf : TreeLeaf} (hleaf : leaf ∈ p.held) :
    p.Announced leaf.node.key := by
  have hheld : 0 < (p.held.map (·.node.key)).count leaf.node.key :=
    List.count_pos_iff.mpr (List.mem_map.mpr ⟨leaf, hleaf, rfl⟩)
  have hbalance := h.balance leaf.node.key
  unfold Announced
  omega

/-- The service after a leaf has announced its node, and the links known then. -/
private theorem Kept.knows_announced (h : Kept nodes p) (shape : Shape nodes) {node : TreeNode} (hnode : node ∈ nodes) :
    Knows nodes (p.service.announce node) (p.asked ++ [node.key]) p.returned := by
  have hbalance := h.balance node.key
  exact h.knows.announce shape hnode (by omega)

/-- Once a node is announced, known links lead from it or to it wherever it is not apart. -/
private theorem Kept.climbs_iff (h : Kept nodes p) (shape : Shape nodes) {node : TreeNode} (hnode : node ∈ nodes)
    {a b : LockKey} (hends : a = node.key ∨ b = node.key ∧ p.Announced a) :
    TransGen (p.service.announce node).links.Leads a b ↔ Below nodes a b ∧ ¬ p.Apart nodes a b := by
  let known : LockKey → Prop := fun k => p.returned.count k < (p.asked ++ [node.key]).count k
  have hleads : (p.service.announce node).links.Leads = fun x y => Under nodes x y ∧ known x := by
    funext x y
    exact propext (h.knows_announced shape hnode).leads_iff
  have hknown : ∀ k, p.Announced k → known k := by
    intro k hk
    show p.returned.count k < (p.asked ++ [node.key]).count k
    rw [List.count_append]
    exact Nat.lt_of_lt_of_le hk (Nat.le_add_right _ _)
  have hannounced : ∀ k, k ≠ node.key → known k → p.Announced k := by
    intro k hne hk
    have hother : [node.key].count k = 0 := List.count_eq_zero_of_not_mem (by simpa using hne)
    have hcount : p.returned.count k < (p.asked ++ [node.key]).count k := hk
    rw [List.count_append, hother] at hcount
    exact hcount
  have hstart : known a := by
    rcases hends with rfl | ⟨-, ha⟩
    · have hbalance := h.balance node.key
      show p.returned.count node.key < (p.asked ++ [node.key]).count node.key
      rw [List.count_append, List.count_singleton_self]
      omega
    · exact hknown a ha
  have hinside : ∀ m, Below nodes a m → Below nodes m b → m ≠ node.key := by
    rintro m ham hmb rfl
    rcases hends with rfl | ⟨rfl, -⟩
    · exact shape.not_below_self _ ham
    · exact shape.not_below_self _ hmb
  rw [hleads, transGen_marked_iff shape.rightUnique_under shape.not_below_self]
  constructor
  · rintro ⟨hab, -, hbetween⟩
    refine ⟨hab, ?_⟩
    rintro ⟨m, hm, ⟨ham, hmb⟩ | ⟨hbm, hma⟩⟩
    · exact hm (hannounced m (hinside m ham hmb) (hbetween m ham hmb))
    · exact shape.not_below_self a (TransGen.trans hab (TransGen.trans hbm hma))
  · rintro ⟨hab, hapart⟩
    refine ⟨hab, hstart, fun m ham hmb => ?_⟩
    by_contra hm
    exact hapart ⟨m, fun hm' => hm (hknown m hm'), .inl ⟨ham, hmb⟩⟩

private theorem apart_comm {a b : LockKey} : p.Apart nodes a b ↔ p.Apart nodes b a := by
  unfold Apart
  simp only [or_comm]

/-- A leaf is refused for the sake of those related leaves that its node is not apart from. -/
private theorem Kept.isTaken_iff (h : Kept nodes p) (shape : Shape nodes) (hu : u.IsOn nodes) :
    (p.service.announce u.leaf.node).isTaken u.leaf.lock.key = true ↔
      ∃ leaf ∈ p.held, Related nodes leaf.node.key u.leaf.node.key ∧
        ¬ (leaf.node.key ≠ u.leaf.node.key ∧ p.Apart nodes leaf.node.key u.leaf.node.key) := by
  obtain ⟨hnode, id, hlock⟩ := hu
  have hkey : u.leaf.lock.key = u.leaf.node.key := by
    rw [hlock]
    rfl
  have hcircle : ∀ k, ¬ TransGen (p.service.announce u.leaf.node).links.Leads k k := fun k hk =>
    shape.not_below_self k
      (TransGen.mono (fun _ _ hl => ((h.knows_announced shape hnode).leads_iff.mp hl).1) _ _ hk)
  have hleaf : ∀ leaf ∈ p.held, (leaf.lock.key = u.leaf.node.key ∨
      TransGen (p.service.announce u.leaf.node).links.Leads u.leaf.node.key leaf.lock.key ∨
      TransGen (p.service.announce u.leaf.node).links.Leads leaf.lock.key u.leaf.node.key) ↔
        Related nodes leaf.node.key u.leaf.node.key ∧
          ¬ (leaf.node.key ≠ u.leaf.node.key ∧ p.Apart nodes leaf.node.key u.leaf.node.key) := by
    intro leaf hheld
    have hkey' : leaf.lock.key = leaf.node.key := by
      rw [(h.leaves leaf hheld).2]
      rfl
    rw [hkey', h.climbs_iff shape hnode (.inl rfl), h.climbs_iff shape hnode (.inr ⟨rfl, h.announced hheld⟩),
      apart_comm (a := u.leaf.node.key)]
    unfold Related
    tauto
  rw [TreeService.isTaken_iff hcircle, holders_announce, h.holders, hkey]
  constructor
  · rintro ⟨holder, hholder, hpath⟩
    obtain ⟨leaf, hheld, rfl⟩ := List.mem_map.mp hholder
    exact ⟨leaf, hheld, (hleaf leaf hheld).mp hpath⟩
  · rintro ⟨leaf, hheld, hrelated⟩
    exact ⟨_, List.mem_map.mpr ⟨leaf, hheld, rfl⟩, (hleaf leaf hheld).mpr hrelated⟩

/-! ### One call and many -/

/-- A leaf is granted if those held above or below its node are apart from it. -/
theorem Kept.acquires_iff (h : Kept nodes p) (shape : Shape nodes) (hu : u.IsOn nodes) (hcall : u.call = .acquire) :
    u.succeeds p.service = true ↔ ∀ leaf ∈ p.held, Related nodes leaf.node.key u.leaf.node.key →
      leaf.node.key ≠ u.leaf.node.key ∧ p.Apart nodes leaf.node.key u.leaf.node.key := by
  have htaken := h.isTaken_iff shape hu
  have hiff : u.succeeds p.service = true ↔ ¬ (p.service.announce u.leaf.node).isTaken u.leaf.lock.key = true := by
    rcases u.acquire_cases hcall p.service with ⟨htaken, hfails, -⟩ | ⟨hfree, hsucceeds, -⟩
    · simp [htaken, hfails]
    · simp [hfree, hsucceeds]
  rw [hiff, htaken]
  constructor
  · intro hnone leaf hheld hrelated
    by_contra hnear
    exact hnone ⟨leaf, hheld, hrelated, hnear⟩
  · rintro hapart ⟨leaf, hheld, hrelated, hnear⟩
    exact hnear (hapart leaf hheld hrelated)

/-- What a call makes of the service and the books. -/
inductive Stepped (p : TreeUsers) (u : TreeUse) : TreeUsers → Prop where
  | granted (call : u.call = .acquire) (succeeds : u.succeeds p.service = true) : Stepped p u
    { service := { p.service.announce u.leaf.node with
        holders := (p.service.announce u.leaf.node).holders ++ [(u.leaf.lock.key, u.leaf.lock.id)] }
      held := p.held ++ [u.leaf], asked := p.asked ++ [u.leaf.node.key], returned := p.returned }
  | refused (call : u.call = .acquire) (fails : u.succeeds p.service = false) : Stepped p u
    { p with service := p.service.announce u.leaf.node, asked := p.asked ++ [u.leaf.node.key] }
  | returned (call : u.call = .release) (mem : (u.leaf.lock.key, u.leaf.lock.id) ∈ p.service.holders) : Stepped p u
    { service := TreeService.retract { p.service with
        holders := p.service.holders.filter (· ≠ (u.leaf.lock.key, u.leaf.lock.id)) } u.leaf.node
      held := p.held.filter (·.lock ≠ u.leaf.lock), asked := p.asked, returned := p.returned ++ [u.leaf.node.key] }
  | kept (call : u.call = .release) : Stepped p u p

private theorem stepped (p : TreeUsers) (u : TreeUse) : Stepped p u (p.step u) := by
  unfold step
  cases hcall : u.call with
  | acquire =>
    rcases u.acquire_cases hcall p.service with ⟨-, hs, hafter⟩ | ⟨-, hs, hafter⟩
    · rw [hs, hafter]
      exact .refused hcall hs
    · rw [hs, hafter]
      exact .granted hcall hs
  | release =>
    rcases u.release_cases hcall p.service with ⟨-, hs, hafter⟩ | ⟨hmem, hs, hafter⟩
    · rw [hs, hafter]
      exact .kept hcall
    · rw [hs, hafter]
      exact .returned hcall hmem

/-- Giving a leaf back takes it off those that are held. -/
private theorem count_filter_lt {leaf : TreeLeaf} {held : List TreeLeaf} (hleaf : leaf ∈ held) {lock : Lock}
    (hlock : leaf.lock = lock) : ((held.filter (·.lock ≠ lock)).map (·.node.key)).count leaf.node.key <
      (held.map (·.node.key)).count leaf.node.key := by
  have hperm := (List.filter_append_perm (fun l : TreeLeaf => decide (l.lock ≠ lock)) held).map (·.node.key)
  have hmem : leaf.node.key ∈ (held.filter fun l => !decide (l.lock ≠ lock)).map (·.node.key) :=
    List.mem_map.mpr ⟨leaf, List.mem_filter.mpr ⟨hleaf, by simp [hlock]⟩, rfl⟩
  have hpos := List.count_pos_iff.mpr hmem
  have hcount := hperm.count_eq leaf.node.key
  rw [List.map_append, List.count_append] at hcount
  omega

private theorem lock_eq_of_isOn (hu : u.IsOn nodes) : u.leaf.lock = u.leaf.node.lockAs u.leaf.lock.id := by
  obtain ⟨-, id, hlock⟩ := hu
  rw [hlock]
  rfl

/-- The service tells the leaves that are held from one another. -/
private theorem Kept.eq_of_holder_eq (h : Kept nodes p) (shape : Shape nodes) (hu : u.IsOn nodes) {leaf : TreeLeaf}
    (hleaf : leaf ∈ p.held) (he : (leaf.lock.key, leaf.lock.id) = (u.leaf.lock.key, u.leaf.lock.id)) :
    leaf.lock = u.leaf.lock ∧ leaf.node = u.leaf.node := by
  obtain ⟨hkey, hid⟩ := Prod.mk.inj he
  obtain ⟨hnode, hown⟩ := h.leaves leaf hleaf
  have hnodes : leaf.node = u.leaf.node := by
    rw [hown, lock_eq_of_isOn hu] at hkey
    exact shape.distinct _ hnode _ hu.1 hkey
  exact ⟨by rw [hown, lock_eq_of_isOn hu, hid, hnodes], hnodes⟩

private theorem Kept.announces (h : Kept nodes p) (shape : Shape nodes) (hnode : u.leaf.node ∈ nodes) :
    Kept nodes { p with service := p.service.announce u.leaf.node, asked := p.asked ++ [u.leaf.node.key] } := by
  refine ⟨holders_announce.trans h.holders, h.leaves, h.knows_announced shape hnode, fun k => ?_⟩
  have hbalance := h.balance k
  simp only [List.count_append]
  omega

private theorem Kept.holds (h : Kept nodes p) (shape : Shape nodes) (hu : u.IsOn nodes) : Kept nodes
    { service := { p.service.announce u.leaf.node with
        holders := (p.service.announce u.leaf.node).holders ++ [(u.leaf.lock.key, u.leaf.lock.id)] }
      held := p.held ++ [u.leaf], asked := p.asked ++ [u.leaf.node.key], returned := p.returned } := by
  refine ⟨?_, fun leaf hleaf => ?_, (h.knows_announced shape hu.1).congr rfl, fun k => ?_⟩
  · rw [holders_announce, h.holders, List.map_append]
    rfl
  · rcases List.mem_append.mp hleaf with hleaf | hleaf
    · exact h.leaves leaf hleaf
    · obtain rfl := List.mem_singleton.mp hleaf
      exact ⟨hu.1, lock_eq_of_isOn hu⟩
  · have hbalance := h.balance k
    simp only [List.map_append, List.count_append, List.map_cons, List.map_nil]
    omega

private theorem Kept.givesBack (h : Kept nodes p) (shape : Shape nodes) (hu : u.IsOn nodes)
    (hmem : (u.leaf.lock.key, u.leaf.lock.id) ∈ p.service.holders) : Kept nodes
    { service := TreeService.retract { p.service with
        holders := p.service.holders.filter (· ≠ (u.leaf.lock.key, u.leaf.lock.id)) } u.leaf.node
      held := p.held.filter (·.lock ≠ u.leaf.lock), asked := p.asked
      returned := p.returned ++ [u.leaf.node.key] } := by
  rw [h.holders] at hmem
  obtain ⟨leaf, hleaf, he⟩ := List.mem_map.mp hmem
  obtain ⟨hlock, hnode⟩ := h.eq_of_holder_eq shape hu hleaf he
  have hless := count_filter_lt hleaf hlock
  rw [hnode] at hless
  have hbalance := h.balance u.leaf.node.key
  have hcount : p.returned.count u.leaf.node.key < p.asked.count u.leaf.node.key := by omega
  refine ⟨?_, fun leaf' hleaf' => h.leaves leaf' (List.mem_filter.mp hleaf').1,
    Knows.retract (h.knows.congr rfl) shape hu.1 hcount, fun k => ?_⟩
  · rw [holders_retract]
    show p.service.holders.filter _ = _
    rw [h.holders, List.filter_map]
    refine congrArg (List.map _) (List.filter_congr fun leaf' hleaf' => ?_)
    refine decide_eq_decide.mpr (not_congr ⟨fun he' => (h.eq_of_holder_eq shape hu hleaf' he').1, fun he' => ?_⟩)
    show (leaf'.lock.key, leaf'.lock.id) = _
    rw [he']
  · dsimp only
    rw [List.count_append]
    by_cases hk : k = u.leaf.node.key
    · subst hk
      rw [List.count_singleton_self]
      omega
    · have hother : [u.leaf.node.key].count k = 0 := List.count_eq_zero_of_not_mem (by simpa using hk)
      have hfewer := ((List.filter_sublist (p := fun l : TreeLeaf => decide (l.lock ≠ u.leaf.lock))
        (l := p.held)).map (·.node.key)).count_le k
      have hbalance' := h.balance k
      omega

/-- The service knows the links and the holders that the calls say, whatever the next call is. -/
private theorem Kept.step (h : Kept nodes p) (shape : Shape nodes) (hu : u.IsOn nodes) : Kept nodes (p.step u) := by
  have hs := stepped p u
  generalize p.step u = p' at hs ⊢
  cases hs with
  | granted => exact h.holds shape hu
  | refused => exact h.announces shape hu.1
  | returned _ hmem => exact h.givesBack shape hu hmem
  | kept => exact h

private theorem kept_run (shape : Shape nodes) {uses : List TreeUse} (huses : ∀ u ∈ uses, u.IsOn nodes) :
    Kept nodes (run {} uses) := by
  induction uses using List.reverseRecOn with
  | nil => exact kept_fresh nodes
  | append_singleton uses u ih =>
    rw [run_concat]
    exact (ih fun v hv => huses v (List.mem_append_left _ hv)).step shape
      (huses u (List.mem_append_right _ List.mem_cons_self))

/-- What holds of all pairs of leaves held goes on to hold if it does of the leaf granted. -/
private theorem pairwise_step {R : TreeLeaf → TreeLeaf → Prop} (h : p.held.Pairwise R)
    (hnew : u.call = .acquire → u.succeeds p.service = true → ∀ leaf ∈ p.held, R leaf u.leaf) :
    (p.step u).held.Pairwise R := by
  have hs := stepped p u
  generalize p.step u = p' at hs ⊢
  cases hs with
  | granted call succeeds =>
    refine List.pairwise_append.mpr ⟨h, List.pairwise_singleton _ _, ?_⟩
    intro leaf hleaf leaf' hleaf'
    rw [List.mem_singleton.mp hleaf']
    exact hnew call succeeds leaf hleaf
  | refused _ _ => exact h
  | returned _ _ => exact h.filter _
  | kept _ => exact h

/-- No node is between a node and its parent, so that their leaves are never apart. -/
private theorem not_under_of_apart (shape : Shape nodes) {a b : LockKey} (h : p.Apart nodes a b) :
    ¬ Under nodes a b ∧ ¬ Under nodes b a := by
  obtain ⟨m, -, ⟨ham, hmb⟩ | ⟨hbm, hma⟩⟩ := h
  · refine ⟨fun hab => shape.not_between hab ham hmb, fun hba => ?_⟩
    exact shape.not_below_self a (TransGen.trans ham (TransGen.tail hmb hba))
  · refine ⟨fun hab => ?_, fun hba => shape.not_between hba hbm hma⟩
    exact shape.not_below_self b (TransGen.trans hbm (TransGen.tail hma hab))

/-- Leaves of one node, or of a node and its parent, are never held together. -/
private theorem separate_run (shape : Shape nodes) {uses : List TreeUse} (huses : ∀ u ∈ uses, u.IsOn nodes) :
    (run {} uses).held.Pairwise fun leaf leaf' => leaf.node.key ≠ leaf'.node.key ∧
      ¬ Under nodes leaf.node.key leaf'.node.key ∧ ¬ Under nodes leaf'.node.key leaf.node.key := by
  induction uses using List.reverseRecOn with
  | nil => exact List.Pairwise.nil
  | append_singleton uses u ih =>
    have hbefore : ∀ v ∈ uses, v.IsOn nodes := fun v hv => huses v (List.mem_append_left _ hv)
    have hu : u.IsOn nodes := huses u (List.mem_append_right _ List.mem_cons_self)
    rw [run_concat]
    refine pairwise_step (ih hbefore) fun hcall hgranted leaf hleaf => ?_
    have hapart := ((kept_run shape hbefore).acquires_iff shape hu hcall).mp hgranted leaf hleaf
    refine ⟨fun he => (hapart (.inl he)).1 he, fun hunder => ?_, fun hunder => ?_⟩
    · exact (not_under_of_apart shape (hapart (.inr (.inl (.single hunder)))).2).1 hunder
    · exact (not_under_of_apart shape (hapart (.inr (.inr (.single hunder)))).2).2 hunder

/-- Leaves exclude one another as long as none is asked for across a node that nobody has announced. -/
private theorem excludes_run (shape : Shape nodes) {uses : List TreeUse} (huses : ∀ u ∈ uses, u.IsOn nodes)
    (hnear : ∀ before u, before ++ [u] <+: uses → ¬ (run {} before).ReachesAcross nodes u) :
    (run {} uses).Excludes nodes := by
  induction uses using List.reverseRecOn with
  | nil => exact List.Pairwise.nil
  | append_singleton uses u ih =>
    have hbefore : ∀ v ∈ uses, v.IsOn nodes := fun v hv => huses v (List.mem_append_left _ hv)
    have hu : u.IsOn nodes := huses u (List.mem_append_right _ List.mem_cons_self)
    rw [run_concat]
    have hexcludes := ih hbefore fun before v hv => hnear before v (hv.trans (List.prefix_append _ _))
    refine pairwise_step hexcludes fun hcall hgranted leaf hleaf hrelated => ?_
    have hapart := ((kept_run shape hbefore).acquires_iff shape hu hcall).mp hgranted
    exact hnear uses u (List.prefix_refl _) ⟨hcall, ⟨leaf, hleaf, hrelated⟩, hapart⟩

/-- A leaf that is asked for is granted if and only if all leaves held above or below its node are apart from it.
Leaves of one node, or of a node and its parent, are never held together therefore. Leaves of nodes above and below each
other are never held together if and only if none is ever asked for with all such leaves apart from it. -/
theorem leaves_exclude_iff (tree : Grown nodes) (uses : List TreeUse) (huses : ∀ u ∈ uses, u.IsOn nodes) :
    (∀ before u, before ++ [u] <+: uses → u.call = .acquire →
      (u.succeeds (run {} before).service = true ↔
        ∀ leaf ∈ (run {} before).held, Related nodes leaf.node.key u.leaf.node.key →
          leaf.node.key ≠ u.leaf.node.key ∧ (run {} before).Apart nodes leaf.node.key u.leaf.node.key)) ∧
    (∀ before, before <+: uses → (run {} before).held.Pairwise fun leaf leaf' => leaf.node.key ≠ leaf'.node.key ∧
      ¬ Under nodes leaf.node.key leaf'.node.key ∧ ¬ Under nodes leaf'.node.key leaf.node.key) ∧
    ((∀ before, before <+: uses → (run {} before).Excludes nodes) ↔
      ∀ before u, before ++ [u] <+: uses → ¬ (run {} before).ReachesAcross nodes u) := by
  have shape := tree.shape
  have hearlier : ∀ {before}, before <+: uses → ∀ u ∈ before, u.IsOn nodes :=
    fun hbefore u hu => huses u (hbefore.subset hu)
  have hmember : ∀ {before u}, before ++ [u] <+: uses → u.IsOn nodes :=
    fun hbefore => huses _ (hbefore.subset (List.mem_append_right _ List.mem_cons_self))
  have hgranted : ∀ before u, before ++ [u] <+: uses → u.call = .acquire →
      (u.succeeds (run {} before).service = true ↔
        ∀ leaf ∈ (run {} before).held, Related nodes leaf.node.key u.leaf.node.key →
          leaf.node.key ≠ u.leaf.node.key ∧ (run {} before).Apart nodes leaf.node.key u.leaf.node.key) := by
    intro before u hbefore hcall
    have hkept := kept_run shape (hearlier ((List.prefix_append _ _).trans hbefore))
    exact hkept.acquires_iff shape (hmember hbefore) hcall
  refine ⟨hgranted, fun before hbefore => separate_run shape (hearlier hbefore), ?_⟩
  constructor
  · rintro hexcludes before u hbefore ⟨hcall, ⟨leaf, hleaf, hrelated⟩, hapart⟩
    have hsucceeds := (hgranted before u hbefore hcall).mpr hapart
    have hafter := hexcludes _ hbefore
    have hheld : (run {} (before ++ [u])).held = (run {} before).held ++ [u.leaf] := by
      rw [run_concat, TreeUsers.step]
      simp only [hcall, hsucceeds]
    rw [Excludes, hheld] at hafter
    exact (List.pairwise_append.mp hafter).2.2 leaf hleaf u.leaf List.mem_cons_self hrelated
  · intro hnear before hbefore
    exact excludes_run shape (hearlier hbefore) fun earlier u hu => hnear earlier u (hu.trans hbefore)

/-! ### Three levels -/

def hall : TreeNode := Database.tree { id := 0 } (LockKey.ofBytes [1]) (.seconds 0) (.seconds 30)

def shelf : TreeNode := hall.child (LockKey.ofBytes [2])

def book : TreeNode := shelf.child (LockKey.ofBytes [3])

private theorem grown_library : Grown [hall, shelf, book] := by
  have hhall : Grown [hall] := .root rfl
  have hshelf : Grown [hall, shelf] := .child hhall List.mem_cons_self (by decide)
  exact .child hshelf (List.mem_cons_of_mem _ List.mem_cons_self) (by decide)

/-- A call on a leaf of a node, by a client whose identifiers start at a seed. -/
def visit (seed : UInt32) (node : TreeNode) (call : TreeCall) : TreeUse :=
  let ids := IdSource.seeded seed fun _ => ⟨1700000000000, 5⟩
  ⟨⟨node, node.lockAs ids.upcoming⟩, call, ids.advance⟩

/-- The book is taken, then the hall is asked for. -/
def bookThenHall : List TreeUse := [visit 10 book .acquire, visit 20 hall .acquire]

/-- The shelf between them being unannounced, the hall is granted while the book is held. -/
theorem bookThenHall_holds_both : Grown [hall, shelf, book] ∧ (∀ u ∈ bookThenHall, u.IsOn [hall, shelf, book]) ∧
    ¬ (run {} bookThenHall).Excludes [hall, shelf, book] := by
  refine ⟨grown_library, ?_, ?_⟩
  · intro u hu
    rcases List.mem_cons.mp hu with rfl | hu
    · exact ⟨by simp [visit], _, rfl⟩
    · obtain rfl := List.mem_singleton.mp hu
      exact ⟨by simp [visit], _, rfl⟩
  · have hheld : (run {} bookThenHall).held = [(visit 10 book .acquire).leaf, (visit 20 hall .acquire).leaf] := rfl
    have hbook : Below [hall, shelf, book] book.key hall.key :=
      .head ⟨book, by simp, rfl, rfl⟩ (.single ⟨shelf, by simp, rfl, rfl⟩)
    rw [Excludes, hheld]
    intro hexcludes
    exact (List.pairwise_cons.mp hexcludes).1 _ List.mem_cons_self (.inr (.inl hbook))

/-- The shelf is asked for in between, and refused. -/
def shelfInBetween : List TreeUse := [visit 10 book .acquire, visit 30 shelf .acquire, visit 20 hall .acquire]

/-- The shelf is refused, and since it has been announced the hall is refused, too. -/
theorem shelfInBetween_refuses_hall : Grown [hall, shelf, book] ∧
    (∀ u ∈ shelfInBetween, u.IsOn [hall, shelf, book]) ∧
    ¬ (run {} (shelfInBetween.take 2)).ReachesAcross [hall, shelf, book] (visit 20 hall .acquire) ∧
    (run {} shelfInBetween).held.map (·.lock.key) = [book.key] := by
  have huses : ∀ u ∈ shelfInBetween, u.IsOn [hall, shelf, book] := by
    intro u hu
    simp only [shelfInBetween, List.mem_cons, List.not_mem_nil, or_false] at hu
    rcases hu with rfl | rfl | rfl
    · exact ⟨by simp [visit], _, rfl⟩
    · exact ⟨by simp [visit], _, rfl⟩
    · exact ⟨by simp [visit], _, rfl⟩
  have hsingle : ∀ n ≤ 3, (run {} (shelfInBetween.take n)).held.length ≤ 1 := by decide
  have hexcludes : ∀ before, before <+: shelfInBetween → (run {} before).Excludes [hall, shelf, book] := by
    intro before hbefore
    have hlength := hsingle before.length hbefore.length_le
    rw [← List.prefix_iff_eq_take.mp hbefore] at hlength
    rw [Excludes]
    match (run {} before).held, hlength with
    | [], _ => exact .nil
    | [leaf], _ => exact List.pairwise_singleton _ _
  have hnear := (leaves_exclude_iff grown_library shelfInBetween huses).2.2.mp hexcludes
  exact ⟨grown_library, huses, hnear _ _ (List.prefix_refl shelfInBetween), by decide⟩

end TreeUsers

end LockService
