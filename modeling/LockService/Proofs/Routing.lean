import LockService.Client.LiveNotice
import LockService.Proofs.Interplay
import Mathlib.Data.List.Induction
import Mathlib.Data.List.Nodup
import Mathlib.Data.List.TakeWhile

/-!
# Routing to the first live replica

Whatever notices a replica set gets, and in whatever order, the live set lists the connections whose last notice says
that they went live, in the order of the configuration (`Client.mem_live_heedAll_iff`, `LiveSet.Ordered.heed`).
The connections are numbered as the well-formed hosts of the configuration, so that requests go to the earliest
well-formed host that is live (`Client.routes_to_earliest_live_host`), and `Interplay.run_eq_heedAll` says which notices
there are: one for every move on the live set.
-/

namespace LockService

/-! ### The last notice about a connection -/

namespace Notice

variable {notices : List Notice} {notice : Notice} {i : Nat} {initType : UInt8}

@[simp] theorem last?_nil (i : Nat) : last? [] i = none := rfl

private theorem last?_concat (notices : List Notice) (notice : Notice) (i : Nat) :
    last? (notices ++ [notice]) i = if notice.index = i then some notice else last? notices i := by
  unfold last?
  rw [List.filter_append]
  by_cases hi : notice.index = i <;> simp [hi]

private theorem index_of_last? (h : last? notices i = some notice) : notice.index = i ∧ notice ∈ notices := by
  have hm := List.mem_filter.mp (List.mem_of_getLast? h)
  exact ⟨of_decide_eq_true hm.2, hm.1⟩

private theorem lt_of_last? {bound : Nat} (hn : ∀ notice ∈ notices, notice.index < bound)
    (h : last? notices i = some notice) : i < bound := by
  obtain ⟨rfl, hm⟩ := index_of_last? h
  exact hn notice hm

private theorem isLive_iff : isLive notices i = true ↔ ∃ initType, last? notices i = some (live i initType) := by
  unfold isLive
  cases hl : last? notices i with
  | none => simp
  | some notice =>
    have hi := (index_of_last? hl).1
    cases notice with
    | live j initType =>
      have hi : j = i := hi
      simp [hi]
    | closed j => simp

end Notice

/-! ### The live set after notices -/

namespace LiveSet

variable {live : LiveSet} {i : Nat} {initType : UInt8}

/-- In the order of the configuration, and each connection at most once. -/
def Ordered (live : LiveSet) : Prop := live.Pairwise (·.1 < ·.1)

private theorem Ordered.leave (h : Ordered live) (i : Nat) : Ordered (live.leave i) := h.filter _

/-- What stays behind the place of a connection has a number that is not smaller. -/
private theorem Ordered.le_of_mem_dropWhile (h : Ordered live) {entry : Nat × UInt8}
    (hm : entry ∈ live.dropWhile (·.1 < i)) : i ≤ entry.1 := by
  induction live with
  | nil => cases hm
  | cons first live ih =>
    obtain ⟨hfirst, hrest⟩ := List.pairwise_cons.mp h
    by_cases hi : first.1 < i
    · rw [List.dropWhile_cons, if_pos (by simpa using hi)] at hm
      exact ih hrest hm
    · rw [List.dropWhile_cons, if_neg (by simpa using hi)] at hm
      rcases List.mem_cons.mp hm with rfl | hm
      · exact Nat.le_of_not_lt hi
      · exact Nat.le_trans (Nat.le_of_not_lt hi) (Nat.le_of_lt (hfirst entry hm))

private theorem Ordered.join (h : Ordered live) (i : Nat) (initType : UInt8) : Ordered (live.join i initType) := by
  have hothers := h.leave i
  have before : ∀ entry ∈ (live.leave i).takeWhile (·.1 < i), entry.1 < i := by
    intro entry hm
    simpa using List.mem_takeWhile_imp hm
  have behind : ∀ entry ∈ (live.leave i).dropWhile (·.1 < i), i < entry.1 := by
    intro entry hm
    have hne := (mem_leave_iff.mp ((List.dropWhile_sublist _).subset hm)).2
    exact Nat.lt_of_le_of_ne (hothers.le_of_mem_dropWhile hm) hne.symm
  refine List.pairwise_append.mpr ⟨hothers.sublist (List.takeWhile_sublist _), ?_, ?_⟩
  · exact List.pairwise_cons.mpr ⟨behind, hothers.sublist (List.dropWhile_sublist _)⟩
  · intro entry hm entry' hm'
    rcases List.mem_cons.mp hm' with rfl | hm'
    · exact before entry hm
    · exact Nat.lt_trans (before entry hm) (behind entry' hm')

/-- A notice keeps the live set in order, and no index is in it twice. -/
theorem Ordered.heed (h : Ordered live) (notice : Notice) : Ordered (live.heed notice) := by
  cases notice with
  | live i initType => exact h.join i initType
  | closed i => exact h.leave i

private theorem mem_heed_iff {notice : Notice} :
    (i, initType) ∈ live.heed notice ↔
      if notice.index = i then notice = .live i initType else (i, initType) ∈ live := by
  cases notice with
  | live j initType' =>
    rw [heed, mem_join_iff]
    by_cases hi : j = i
    · simp [Notice.index, hi, eq_comm]
    · simp [Notice.index, hi, Ne.symm hi]
  | closed j =>
    rw [heed, mem_leave_iff]
    by_cases hi : j = i
    · simp [Notice.index, hi]
    · simp [Notice.index, hi, Ne.symm hi]

private theorem Ordered.nodup (h : Ordered live) : (live.map (·.1)).Nodup :=
  List.pairwise_map.mpr (h.imp Nat.ne_of_lt)

/-- The first live replica is the live one with the smallest number. -/
theorem Ordered.first?_eq_some_iff (h : Ordered live) :
    live.first? = some i ↔ live.has i = true ∧ ∀ j < i, live.has j = false := by
  cases live with
  | nil => simp [first?, has]
  | cons first live =>
    have hfirst := (List.pairwise_cons.mp h).1
    have behind : ∀ j, LiveSet.has j live = true → first.1 < j := by
      intro j hj
      obtain ⟨initType, hm⟩ := has_eq_true_iff.mp hj
      exact hfirst _ hm
    have hcons : ∀ j, LiveSet.has j (first :: live) = (decide (first.1 = j) || LiveSet.has j live) := fun _ => rfl
    constructor
    · intro he
      cases he
      refine ⟨has_first rfl, fun j hj => ?_⟩
      rw [hcons, decide_eq_false (Nat.ne_of_gt hj), Bool.false_or]
      exact Bool.eq_false_iff.mpr fun hb => Nat.lt_asymm hj (behind j hb)
    · rintro ⟨hi, hless⟩
      refine congrArg some ?_
      rw [hcons, Bool.or_eq_true, decide_eq_true_eq] at hi
      rcases hi with hi | hi
      · exact hi
      · have := hless first.1 (behind i hi)
        rw [hcons, decide_eq_true rfl] at this
        cases this

private theorem first?_eq_none_iff : live.first? = none ↔ ∀ i, live.has i = false := by
  refine ⟨has_eq_false_of_first, fun h => ?_⟩
  cases live with
  | nil => rfl
  | cons first live =>
    have := h first.1
    rw [has_first rfl] at this
    cases this

/-- An ordered live set of connections below a bound has as many entries as connections that it holds. -/
theorem Ordered.length_eq (h : Ordered live) {bound : Nat} (hb : ∀ entry ∈ live, entry.1 < bound) :
    live.length = (List.range bound).countP fun i => live.has i := by
  have hperm : (live.map (·.1)).Perm ((List.range bound).filter fun i => live.has i) := by
    refine (List.perm_ext_iff_of_nodup h.nodup (List.nodup_range.filter _)).mpr fun i => ?_
    rw [List.mem_filter, List.mem_range, has_eq_true_iff]
    constructor
    · intro hi
      obtain ⟨⟨_, initType⟩, hm, rfl⟩ := List.mem_map.mp hi
      exact ⟨hb _ hm, initType, hm⟩
    · rintro ⟨-, initType, hm⟩
      exact List.mem_map.mpr ⟨_, hm, rfl⟩
  rw [List.countP_eq_length_filter, ← hperm.length_eq, List.length_map]

end LiveSet

namespace Client

variable {c : Client} {notices : List Notice} {i : Nat}

@[simp] theorem heedAll_nil (c : Client) : c.heedAll [] = c := rfl

private theorem heedAll_concat (c : Client) (notices : List Notice) (notice : Notice) :
    c.heedAll (notices ++ [notice]) = (c.heedAll notices).heed notice := by
  simp [heedAll]

@[simp] theorem heedAll_connections (c : Client) (notices : List Notice) :
    (c.heedAll notices).connections = c.connections := by
  induction notices using List.reverseRecOn with
  | nil => rfl
  | append_singleton notices notice ih =>
    rw [heedAll_concat, ← ih]
    rfl

@[simp] theorem heedAll_replicated (c : Client) (notices : List Notice) :
    (c.heedAll notices).replicated = c.replicated := by
  induction notices using List.reverseRecOn with
  | nil => rfl
  | append_singleton notices notice ih =>
    rw [heedAll_concat, ← ih]
    rfl

private theorem live_heedAll (c : Client) (notices : List Notice) :
    (c.heedAll notices).live = notices.foldl LiveSet.heed c.live := by
  induction notices using List.reverseRecOn with
  | nil => rfl
  | append_singleton notices notice ih =>
    rw [heedAll_concat, List.foldl_concat, ← ih]
    rfl

private theorem ordered_heedAll (h : c.live.Ordered) (notices : List Notice) : (c.heedAll notices).live.Ordered := by
  induction notices using List.reverseRecOn with
  | nil => exact h
  | append_singleton notices notice ih =>
    rw [heedAll_concat]
    exact ih.heed notice

/-- From an empty live set on, an index is listed with a type exactly when its last notice said that it is live with
it. -/
theorem mem_live_heedAll_iff (h : c.live = []) {initType : UInt8} :
    (i, initType) ∈ (c.heedAll notices).live ↔ Notice.last? notices i = some (.live i initType) := by
  induction notices using List.reverseRecOn with
  | nil => simp [h]
  | append_singleton notices notice ih =>
    rw [heedAll_concat, Notice.last?_concat]
    refine LiveSet.mem_heed_iff.trans ?_
    by_cases hi : notice.index = i
    · simp [hi]
    · simp [hi, ih]

private theorem has_live_heedAll (h : c.live = []) (notices : List Notice) (i : Nat) :
    (c.heedAll notices).live.has i = Notice.isLive notices i := by
  rw [Bool.eq_iff_iff, LiveSet.has_eq_true_iff, Notice.isLive_iff]
  exact exists_congr fun initType => mem_live_heedAll_iff h

/-! ### The numbers of the hosts -/

variable {hosts : List String} {position position' j : Nat}

/-- The host at a position has a connection exactly when it parses, and its index counts those before that do. -/
private theorem replicaAt?_eq_some_iff : replicaAt? hosts position = some i ↔
    (∃ address, hosts[position]?.bind Address.parse? = some address) ∧ replicasBefore hosts position = i := by
  unfold replicaAt?
  cases hosts[position]?.bind Address.parse? <;> simp

/-- A well-formed host takes a number. -/
private theorem replicasBefore_succ (hosts : List String) (position : Nat) : replicasBefore hosts (position + 1) =
    replicasBefore hosts position + (hosts[position]?.bind Address.parse?).toList.length := by
  unfold replicasBefore
  rw [List.take_add_one, List.filterMap_append, List.length_append]
  cases hosts[position]? with
  | none => rfl
  | some host =>
    rw [Option.bind_some]
    cases hp : Address.parse? host <;> simp [hp]

private theorem replicasBefore_le (hosts : List String) (h : position ≤ position') :
    replicasBefore hosts position ≤ replicasBefore hosts position' :=
  ((List.take_sublist_take_left h).filterMap _).length_le

/-- Well-formed hosts are numbered in the order of the list. -/
theorem replicaAt?_lt (h : replicaAt? hosts position = some i) (h' : replicaAt? hosts position' = some j)
    (hlt : position < position') : i < j := by
  obtain ⟨⟨address, hp⟩, rfl⟩ := replicaAt?_eq_some_iff.mp h
  obtain ⟨-, rfl⟩ := replicaAt?_eq_some_iff.mp h'
  have hsucc := replicasBefore_succ hosts position
  have hle : replicasBefore hosts (position + 1) ≤ _ := replicasBefore_le hosts hlt
  rw [hp, Option.toList_some, List.length_singleton] at hsucc
  omega

/-- The address of a well-formed host stands at its number among the addresses that are kept. -/
theorem getElem?_of_replicaAt? (h : replicaAt? hosts position = some i) :
    (hosts.filterMap Address.parse?)[i]? = hosts[position]?.bind Address.parse? := by
  obtain ⟨⟨address, hp⟩, rfl⟩ := replicaAt?_eq_some_iff.mp h
  obtain ⟨host, hhost, hparse⟩ := Option.bind_eq_some_iff.mp hp
  obtain ⟨hlt, rfl⟩ := List.getElem?_eq_some_iff.mp hhost
  have hkept : hosts.filterMap Address.parse? = (hosts.take position).filterMap Address.parse? ++
      address :: (hosts.drop (position + 1)).filterMap Address.parse? := by
    rw [← List.filterMap_cons_some hparse, List.getElem_cons_drop, ← List.filterMap_append,
      List.take_append_drop]
  rw [hp, hkept, replicasBefore, List.getElem?_append_right (Nat.le_refl _), Nat.sub_self]
  rfl

/-- Every index below the number of hosts that parse is the index of one of them. -/
private theorem exists_replicaAt?_of_lt (h : i < replicasBefore hosts position) :
    ∃ position', replicaAt? hosts position' = some i := by
  induction position with
  | zero => exact absurd h (Nat.not_lt_zero i)
  | succ position ih =>
    by_cases hlt : i < replicasBefore hosts position
    · exact ih hlt
    · rw [replicasBefore_succ] at h
      cases hp : hosts[position]?.bind Address.parse? with
      | none =>
        rw [hp] at h
        exact absurd h hlt
      | some address =>
        rw [hp, Option.toList_some, List.length_singleton] at h
        exact ⟨position, replicaAt?_eq_some_iff.mpr ⟨⟨address, hp⟩, by omega⟩⟩

/-- Every number is that of a well-formed host. -/
theorem exists_replicaAt? (h : i < (hosts.filterMap Address.parse?).length) :
    ∃ position, replicaAt? hosts position = some i := by
  have hall : i < replicasBefore hosts hosts.length := by rwa [replicasBefore, List.take_length]
  exact exists_replicaAt?_of_lt hall

/-! ### Routing -/

/-- A replica set has a connection for every well-formed host, and does not start without one. -/
private theorem start_eq_of_set {config : Config} {replicated : Bool} {ids : IdSource}
    (hset : replicated = true ∨ config.hosts.length ≠ 1) : start config replicated ids =
      match config.fault?, config.hosts.filterMap Address.parse? with
      | some fault, _ => .error (.config fault)
      | none, [] => .error (.config .noValidHosts)
      | none, addresses => .ok {
          config, replicated := true, clientId := ids.upcoming, ids := ids.advance
          connections := addresses.map fun address => { address } } := by
  unfold start
  cases config.fault? with
  | some fault => rfl
  | none =>
    dsimp only
    split
    · rename_i host hhosts
      rw [hhosts] at hset
      simp at hset
    · cases config.hosts.filterMap Address.parse? <;> rfl

/-- A set of replicas is refused for a fault of its configuration, or when no host parses. -/
private theorem start_error_iff {config : Config} {replicated : Bool} {ids : IdSource} {failure : Failure}
    (hset : replicated = true ∨ config.hosts.length ≠ 1) : start config replicated ids = .error failure ↔
      (∃ fault, config.fault? = some fault ∧ failure = .config fault) ∨
        (config.fault? = none ∧ (∀ host ∈ config.hosts, Address.parse? host = none) ∧
          failure = .config .noValidHosts) := by
  rw [start_eq_of_set hset, ← List.filterMap_eq_nil_iff]
  cases config.fault? with
  | some fault => simp [eq_comm]
  | none => cases config.hosts.filterMap Address.parse? <;> simp [eq_comm]

private theorem start_ok_of_set {config : Config} {replicated : Bool} {ids : IdSource}
    (hset : replicated = true ∨ config.hosts.length ≠ 1) (hc : start config replicated ids = .ok c) :
    c.replicated = true ∧ c.live = [] ∧
      c.connections.map (·.address) = config.hosts.filterMap Address.parse? := by
  rw [start_eq_of_set hset] at hc
  cases hf : config.fault? with
  | some fault => simp [hf] at hc
  | none =>
    cases hk : config.hosts.filterMap Address.parse? with
    | nil => simp [hf, hk] at hc
    | cons address addresses =>
      simp only [hf, hk] at hc
      cases hc
      refine ⟨rfl, rfl, ?_⟩
      rw [List.map_map]
      exact List.map_id _

/-- The primary is the first connection whose last notice said that it is live. -/
private theorem primary?_heedAll_eq_some_iff (hr : c.replicated = true) (hl : c.live = []) :
    (c.heedAll notices).primary? = some i ↔
      Notice.isLive notices i = true ∧ ∀ j < i, Notice.isLive notices j = false := by
  have hordered : (c.heedAll notices).live.Ordered := ordered_heedAll (by rw [hl]; exact .nil) notices
  rw [primary?, heedAll_replicated, if_pos hr, hordered.first?_eq_some_iff]
  simp only [has_live_heedAll hl]

private theorem primary?_heedAll_eq_none_iff (hr : c.replicated = true) (hl : c.live = []) :
    (c.heedAll notices).primary? = none ↔ ∀ i, Notice.isLive notices i = false := by
  rw [primary?, heedAll_replicated, if_pos hr, LiveSet.first?_eq_none_iff]
  simp only [has_live_heedAll hl]

/-- The live count is the number of connections whose last notice said that they are live. -/
private theorem liveCount_heedAll (hl : c.live = []) {bound : Nat} (hn : ∀ notice ∈ notices, notice.index < bound) :
    (c.heedAll notices).liveCount = (List.range bound).countP (Notice.isLive notices) := by
  have hordered : (c.heedAll notices).live.Ordered := ordered_heedAll (by rw [hl]; exact .nil) notices
  have hbound : ∀ entry ∈ (c.heedAll notices).live, entry.1 < bound := by
    rintro ⟨i, initType⟩ hm
    exact Notice.lt_of_last? hn ((mem_live_heedAll_iff hl).mp hm)
  rw [liveCount, hordered.length_eq hbound]
  exact congrArg (List.countP · _) (funext (has_live_heedAll hl notices))

/-- A replica set has a connection for every well-formed host, in the order of the list, and fails to start exactly if
there is none or the configuration is invalid. Whatever notices its connections have given, its live set lists in order
those whose last notice says that they went live, and requests go to the earliest well-formed host that is live. -/
theorem routes_to_earliest_live_host {config : Config} {replicated : Bool} {ids : IdSource}
    (hset : replicated = true ∨ config.hosts.length ≠ 1) :
    ((∃ failure, start config replicated ids = .error failure) ↔
      config.fault? ≠ none ∨ ∀ host ∈ config.hosts, Address.parse? host = none) ∧
    (∀ failure, start config replicated ids = .error failure → ∃ fault, failure = .config fault) ∧
    ∀ c, start config replicated ids = .ok c →
      c.connections.map (·.address) = config.hosts.filterMap Address.parse? ∧
      (∀ position i, replicaAt? config.hosts position = some i →
        c.connections[i]?.map (·.address) = config.hosts[position]?.bind Address.parse?) ∧
      ∀ notices, (∀ notice ∈ notices, notice.index < c.connections.length) →
        let d := c.heedAll notices
        d.live.Pairwise (·.1 < ·.1) ∧
        (∀ i initType, (i, initType) ∈ d.live ↔ Notice.last? notices i = some (.live i initType)) ∧
        d.liveCount = (List.range d.connections.length).countP (Notice.isLive notices) ∧
        (∀ i, d.primary? = some i ↔ Notice.isLive notices i = true ∧ ∀ j < i, Notice.isLive notices j = false) ∧
        (d.primary? = none ↔ ∀ i, Notice.isLive notices i = false) ∧
        ∀ i, d.primary? = some i → ∃ position, replicaAt? config.hosts position = some i ∧
          ∀ position' j, replicaAt? config.hosts position' = some j → Notice.isLive notices j = true →
            position ≤ position' := by
  refine ⟨⟨?_, fun h => ?_⟩, fun failure hfail => ?_, fun c hc => ?_⟩
  · rintro ⟨failure, hfail⟩
    rcases (start_error_iff hset).mp hfail with ⟨fault, hf, -⟩ | ⟨-, hnone, -⟩
    · exact .inl (by simp [hf])
    · exact .inr hnone
  · cases hf : config.fault? with
    | some fault => exact ⟨_, (start_error_iff hset).mpr (.inl ⟨fault, hf, rfl⟩)⟩
    | none =>
      have hnone := h.resolve_left (not_not_intro hf)
      exact ⟨_, (start_error_iff hset).mpr (.inr ⟨hf, hnone, rfl⟩)⟩
  · rcases (start_error_iff hset).mp hfail with ⟨fault, -, rfl⟩ | ⟨-, -, rfl⟩
    · exact ⟨fault, rfl⟩
    · exact ⟨_, rfl⟩
  · obtain ⟨hr, hl, hhosts⟩ := start_ok_of_set hset hc
    have hnumber : c.connections.length = (config.hosts.filterMap Address.parse?).length := by
      rw [← hhosts, List.length_map]
    refine ⟨hhosts, fun position i hp => ?_, fun notices hn => ⟨?_, fun _ _ => mem_live_heedAll_iff hl, ?_,
      fun _ => primary?_heedAll_eq_some_iff hr hl, primary?_heedAll_eq_none_iff hr hl, fun i hi => ?_⟩⟩
    · rw [← getElem?_of_replicaAt? hp, ← hhosts, List.getElem?_map]
    · exact ordered_heedAll (by rw [hl]; exact .nil) notices
    · rw [heedAll_connections]
      exact liveCount_heedAll hl hn
    · obtain ⟨hlive, hfirst⟩ := (primary?_heedAll_eq_some_iff hr hl).mp hi
      obtain ⟨initType, hlast⟩ := Notice.isLive_iff.mp hlive
      obtain ⟨position, hp⟩ := exists_replicaAt? (hnumber ▸ Notice.lt_of_last? hn hlast)
      refine ⟨position, hp, fun position' j hp' hj => Nat.le_of_not_lt fun hlt => ?_⟩
      rw [hfirst j (replicaAt?_lt hp' hp hlt)] at hj
      cases hj

def gapConfig : Config := Config.replicaSet 2 ["a", "b c", "d"]

def gapIds : IdSource := IdSource.seeded 3 fun _ => ⟨0, 0⟩

/-- A client of two replicas that has just started, with a malformed host between the two in its list. -/
def gapClient : Client where
  config := gapConfig
  clientId := gapIds.upcoming
  replicated := true
  connections := [{ address := ⟨['a'], defaultPort⟩ }, { address := ⟨['d'], defaultPort⟩ }]
  ids := gapIds.advance

/-- Both replicas go live, the second twice, and the first loses its session. -/
def gapNotices : List Notice := [.live 1 4, .live 0 1, .live 1 2, .closed 0]

/-- The connection behind the malformed host is listed under its own index and is the primary one. -/
theorem gap_routes_behind_malformed_host : gapConfig.hosts.length ≠ 1 ∧
    start gapConfig false gapIds = .ok gapClient ∧ replicaAt? gapConfig.hosts 2 = some 1 ∧
    (gapClient.heedAll gapNotices).primary? = some 1 ∧ (gapClient.heedAll gapNotices).liveCount = 1 ∧
    (1, 2) ∈ (gapClient.heedAll gapNotices).live := by
  have hkept : gapConfig.hosts.filterMap Address.parse? = [⟨['a'], defaultPort⟩, ⟨['d'], defaultPort⟩] := by
    decide +kernel
  have hset : gapConfig.hosts.length ≠ 1 := by decide
  have hstart : start gapConfig false gapIds = .ok gapClient := by
    rw [start_eq_of_set (.inr hset), hkept]
    rfl
  obtain ⟨-, -, hroutes⟩ := (routes_to_earliest_live_host (.inr hset)).2.2 gapClient hstart
  obtain ⟨-, hmem, hcount, hprimary, -⟩ := hroutes gapNotices (by decide)
  exact ⟨hset, hstart, by decide +kernel, (hprimary 1).mpr (by decide), hcount.trans (by decide),
    (hmem 1 2).mpr (by decide)⟩

end Client

/-! ### The notices of an interplay -/

namespace Move

variable {c : Client} {i : Nat}

/-- A move changes the live set as the notice that it gives. -/
private theorem live_make (hr : c.replicated = true) (m : Move) :
    (m.make c i).2.live = (m.notice? c i).toList.foldl LiveSet.heed c.live := by
  cases m with
  | joinLive s =>
    simp only [make, Client.joinLive, hr, notice?]
    cases c.connections[i]?.bind (·.sessions[s]?) <;> rfl
  | leaveLive =>
    simp only [make, Client.leaveLive, hr]
    rfl
  | _ => exact (frame_make c i _).2.2 (by simp) (by simp)

private theorem length_make (m : Move) : (m.make c i).2.connections.length = c.connections.length := by
  have change : ∀ f : Connection → Connection, (c.change i f).connections.length = c.connections.length :=
    fun f => List.length_modify ..
  cases m with
  | joinLive s =>
    simp only [make, Client.joinLive]
    split <;> rfl
  | leaveLive =>
    simp only [make, Client.leaveLive]
    split <;> rfl
  | takeStored =>
    simp only [make, Client.takeStored]
    cases c.connections[i]?.bind (·.stored) <;> exact change _
  | markTornDown s =>
    simp only [make, Client.markTornDown]
    cases c.connections[i]? with
    | none => rfl
    | some k =>
      cases hk : k.isTornDown s with
      | true => simp [hk]
      | false =>
        simp only [hk]
        exact change _
  | drain s =>
    simp only [make, Client.drain]
    split <;> rfl
  | _ => exact change _

private theorem lt_of_notice? {m : Move} (hi : i < c.connections.length) {notice : Notice}
    (h : m.notice? c i = some notice) : notice.index < c.connections.length := by
  cases m with
  | joinLive s =>
    obtain ⟨session, -, rfl⟩ := Option.map_eq_some_iff.mp h
    exact hi
  | leaveLive =>
    cases h
    exact hi
  | _ => cases h

end Move

namespace Interplay

variable {p p' p'' : Interplay} {given given' : List Notice}

/-- Every operation under way is one on a connection of the client. -/
def Placed (p : Interplay) : Prop := ∀ op ∈ p.underway, op.1 < p.client.connections.length

/-- An interplay of a replica set that has become another, while its connections gave notices. -/
structure Gives (p p' : Interplay) (given : List Notice) : Prop where
  replicated : p'.client.replicated = true
  length : p'.client.connections.length = p.client.connections.length
  placed : p'.Placed
  live : p'.client.live = given.foldl LiveSet.heed p.client.live
  bound : ∀ notice ∈ given, notice.index < p.client.connections.length

private theorem Gives.refl (hr : p.client.replicated = true) (hp : p.Placed) : p.Gives p [] where
  replicated := hr
  length := rfl
  placed := hp
  live := rfl
  bound := by simp

private theorem Gives.trans (h : p.Gives p' given) (h' : p'.Gives p'' given') : p.Gives p'' (given ++ given') where
  replicated := h'.replicated
  length := h'.length.trans h.length
  placed := h'.placed
  live := by rw [List.foldl_append, ← h.live, h'.live]
  bound notice hn := by
    rcases List.mem_append.mp hn with hn | hn
    · exact h.bound notice hn
    · exact h.length ▸ h'.bound notice hn

/-- An event that changes a single connection and leaves the live set alone. -/
theorem Placed.gives (hp : p.Placed) (hr : p.client.replicated = true) {c : Client} {j : Nat} {k : Connection}
    (hb : p.client.Becomes c j k) {underway : List (Nat × List Move)}
    (hu : ∀ op ∈ underway, op ∈ p.underway ∨ op.1 = j) (hj : j < p.client.connections.length) :
    p.Gives ⟨c, underway⟩ [] where
  replicated := hb.replicated.trans hr
  length := hb.length
  placed op hop := by
    show op.1 < c.connections.length
    rw [hb.length]
    rcases hu op hop with hop | rfl
    · exact hp op hop
    · exact hj
  live := hb.live
  bound := by simp

private theorem Placed.turn (hp : p.Placed) (hr : p.client.replicated = true) {j : Nat} {t : Client.Turn}
    (hs : p.step (.turn j t) = some p') : p.Gives p' [] := by
  cases hk : p.client.connections[j]? with
  | none => simp [Interplay.step, hk] at hs
  | some k =>
    have hj := (List.getElem?_eq_some_iff.mp hk).1
    have begins : ∀ moves, p.Gives ({ p with client := p.client.assign j .busy }.begin j moves) [] := by
      intro moves
      refine hp.gives hr (Client.becomes_change hk fun k => { k with supervisor := .busy }) (fun op hop => ?_) hj
      exact (List.mem_append.mp hop).imp_right fun hop => congrArg Prod.fst (List.mem_singleton.mp hop)
    simp only [Interplay.step, hk, Option.bind_eq_bind, Option.bind_some] at hs
    split at hs
    case h_4 hgo hlast hleave =>
      obtain ⟨c, ht, rfl⟩ := Option.map_eq_some_iff.mp hs
      obtain ⟨k', hb, -⟩ := Client.becomes_turn hk ht (fun he s hv => hgo s he hv) fun he s last hv => by
        cases last with
        | false => exact hlast s he hv
        | true => exact hleave s he hv
      exact hp.gives hr hb (fun _ => .inl) hj
    all_goals
      cases hs
      exact begins _

private theorem Placed.move (hp : p.Placed) (hr : p.client.replicated = true) {n : Nat}
    (hs : p.step (.move n) = some p') : p.Gives p' (p.notice? (.move n)).toList := by
  simp only [Interplay.step] at hs
  split at hs
  case h_2 => cases hs
  case h_1 i m rest hn =>
    cases hs
    have hi : i < p.client.connections.length := hp _ (List.mem_of_getElem? hn)
    have hlength : (m.make p.client i).2.connections.length = p.client.connections.length := Move.length_make m
    have hnotice : p.notice? (.move n) = m.notice? p.client i := by simp only [notice?, hn]
    rw [hnotice]
    refine ⟨(Move.frame_make _ i m).1.trans hr, hlength, fun op hop => ?_, Move.live_make hr m, fun notice hm => ?_⟩
    · rw [hlength]
      rcases List.mem_or_eq_of_mem_set hop with hop | rfl
      · exact hp op hop
      · exact hi
    · exact Move.lt_of_notice? hi (Option.mem_toList.mp hm)

/-- An event that cannot happen gives no notice. -/
theorem notice?_eq_none {e : Event} (hs : p.step e = none) : p.notice? e = none := by
  cases e with
  | move n =>
    unfold notice?
    dsimp only
    split
    · rename_i i m rest hn
      simp [Interplay.step, hn] at hs
    · rfl
  | _ => rfl

/-- One step gives the notices that its move says, and moves no connection to another place. -/
private theorem Placed.step (hp : p.Placed) (hr : p.client.replicated = true) {e : Event} (hs : p.step e = some p') :
    p.Gives p' (p.notice? e).toList := by
  cases e with
  | turn j t => exact hp.turn hr hs
  | close j =>
    simp only [Interplay.step] at hs
    split at hs
    · rename_i hj
      cases hs
      refine hp.gives hr (Client.becomes_refl (List.getElem?_eq_getElem hj)) (fun op hop => ?_) hj
      exact (List.mem_append.mp hop).imp_right fun hop => congrArg Prod.fst (List.mem_singleton.mp hop)
    · cases hs
  | disconnect j =>
    cases hs
    cases hk : p.client.connections[j]? with
    | none =>
      have hsame : p.client.disconnect j = p.client := by simp [Client.disconnect, hk]
      rw [hsame]
      exact .refl hr hp
    | some k =>
      obtain ⟨k', hb, -⟩ := Client.becomes_disconnect hk
      exact hp.gives hr hb (fun _ => .inl) (List.getElem?_eq_some_iff.mp hk).1
  | move n => exact hp.move hr hs

/-- A run gives the notices of its steps, in their order. -/
private theorem Placed.run (hp : p.Placed) (hr : p.client.replicated = true) (events : List Event) :
    p.Gives (p.run events) (p.notices events) := by
  induction events generalizing p with
  | nil => exact .refl hr hp
  | cons e events ih =>
    have hstep : p.Gives ((p.step e).getD p) (p.notice? e).toList := by
      cases hs : p.step e with
      | some p' => exact hp.step hr hs
      | none =>
        rw [notice?_eq_none hs]
        exact .refl hr hp
    exact hstep.trans (ih hstep.placed hstep.replicated)

/-- However supervisors and owners interleave, the live set of a replica set is what the notices of its connections
have made of it, so that requests go where the notices say. -/
theorem run_eq_heedAll {c : Client} (hr : c.replicated = true) (events : List Event) :
    (∀ notice ∈ notices ⟨c, []⟩ events, notice.index < c.connections.length) ∧
      (run ⟨c, []⟩ events).client.live = (c.heedAll (notices ⟨c, []⟩ events)).live ∧
      (run ⟨c, []⟩ events).client.primary? = (c.heedAll (notices ⟨c, []⟩ events)).primary? := by
  have placed : ({ client := c } : Interplay).Placed := by
    intro op hop
    cases hop
  have h := placed.run hr events
  have hlive : (run ⟨c, []⟩ events).client.live = (c.heedAll (notices ⟨c, []⟩ events)).live := by
    rw [Client.live_heedAll, h.live]
  refine ⟨h.bound, hlive, ?_⟩
  rw [Client.primary?, Client.primary?, h.replicated, Client.heedAll_replicated, hr, hlive]

end Interplay

end LockService
