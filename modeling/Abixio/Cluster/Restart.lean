import Abixio.Lib.Act
import Abixio.Cluster.Manager

/-!
# A node over its restarts

The life of one clustered node (`src/cluster/mod.rs:157-205`, `382-411`, `577-650`): it starts with
`ClusterManager::new`, runs refresh rounds, persists its state, and ends at any point, also in the
middle of a write. What is left are the files on its disks, from which the next start loads the
service state.

* `Running.quorumSeen` is not in the code. It says that a refresh round of this run has counted a
  quorum.
* A start that fails, because a file is torn or because the state cannot be written, leaves no process.

`blocked_iff_starts_fenced`: the node blocks its data plane until it has seen a quorum, in every run,
exactly if no start finds its own `ready` on the disk. `restart_serves_without_quorum` is a run in
which one does.
-/

namespace Abixio

open ClusterManager (clusterEnabled new summary)

/-- A process of the node. -/
structure Running where
  manager : ClusterManager
  quorumSeen : Bool

/-- A node: its files, and its process if there is one. -/
structure ClusterNode where
  files : ClusterFiles
  up : Option Running

/-- How far a `persist_state` call gets. -/
structure Persisting where
  done : Nat
  torn : Bool

/-- What happens to a node. -/
inductive ClusterEvent where
  | start (config : ClusterConfig) (now : Nat) (persisting : Persisting)
  | refresh (probe : String → Option ClusterSummary) (now : Nat) (persisting : Persisting)
  | forceFence (reason : String) (persisting : Persisting)
  | persist (persisting : Persisting)
  | crash

namespace ClusterNode

/-- The node with a running process after a call that ends with `persist_state`. -/
def persisted (persisting : Persisting) (r : Running) (node : ClusterNode) : ClusterNode where
  files := r.manager.persistState persisting.done persisting.torn node.files
  up := some r

/-- A call of the running process. -/
def call (persisting : Persisting) (f : Running → Running) (node : ClusterNode) : ClusterNode :=
  match node.up with
  | some r => node.persisted persisting (f r)
  | none => node

/-- One refresh round. -/
def Running.refresh (probe : String → Option ClusterSummary) (now : Nat) (r : Running) : Running where
  manager := r.manager.refreshFromNodes probe now
  quorumSeen := r.quorumSeen || decide (r.manager.quorum ≤ r.manager.reachableVoters probe)

/-- One event. `ClusterManager::new` of a clustered node fails when its state cannot be written. -/
def step (env : Env) (node : ClusterNode) : ClusterEvent → ClusterNode
  | .start config now persisting =>
    match new env config node.files now with
    | .error _ => { node with up := none }
    | .ok m =>
      if m.clusterEnabled && decide (persisting.done < m.config.diskPaths.length) then
        { node.persisted persisting ⟨m, false⟩ with up := none }
      else node.persisted persisting ⟨m, false⟩
  | .refresh probe now persisting => node.call persisting (Running.refresh probe now)
  | .forceFence reason persisting =>
    node.call persisting fun r => { r with manager := r.manager.forceFence reason }
  | .persist persisting => node.call persisting id
  | .crash => { node with up := none }

/-- The process, if any, has seen a quorum or blocks its data plane. -/
def Blocked (node : ClusterNode) : Prop :=
  ∀ r, node.up = some r → r.quorumSeen = false → r.manager.blocksDataPlane = true

/-- `Blocked` in every state of a run. -/
def BlockedThroughout (env : Env) : ClusterNode → List ClusterEvent → Prop
  | node, [] => node.Blocked
  | node, e :: events => node.Blocked ∧ BlockedThroughout env (node.step env e) events

/-- The state that a start loads is not its own and ready. -/
def LoadsFenced (env : Env) (config : ClusterConfig) (files : ClusterFiles) : Prop :=
  ∀ state, loadPersistedState files config.normalized.diskPaths = .ok (some state) →
    state.summary.clusterId = clusterIdFor env config.normalized.nodeId config.normalized.nodes →
      state.summary.state ≠ .ready

/-- Every start of a run that succeeds loads no ready state of its own. -/
def StartsFenced (env : Env) : ClusterNode → List ClusterEvent → Prop
  | _, [] => True
  | node, e :: events =>
    (∀ config now persisting, e = .start config now persisting →
      (node.step env e).up.isSome → LoadsFenced env config node.files) ∧
    StartsFenced env (node.step env e) events

/-- The configurations of a run have a node list. -/
def Clustered (events : List ClusterEvent) : Prop :=
  ∀ e ∈ events, ∀ config now persisting, e = .start config now persisting → config.nodes ≠ []

end ClusterNode

/-! ## One start -/

theorem normalizeNodes_ne_nil {nodes : List String} (h : nodes ≠ []) : normalizeNodes nodes ≠ [] := by
  have hgrow : ∀ (nodes acc : List String), acc ≠ [] → nodes.foldl (fun normalized node =>
      if normalizeEndpoint node ∈ normalized then normalized
      else normalized ++ [normalizeEndpoint node]) acc ≠ [] := by
    intro nodes
    induction nodes with
    | nil => exact fun acc hacc => hacc
    | cons node nodes ih =>
      intro acc hacc
      rw [List.foldl_cons]
      refine ih _ ?_
      split
      · exact hacc
      · simp
  obtain ⟨node, rest, rfl⟩ := List.exists_cons_of_ne_nil h
  unfold normalizeNodes
  exact hgrow rest _ (by simp)

variable {env : Env} {config : ClusterConfig} {files : ClusterFiles} {now : Nat} {m : ClusterManager}

/-- **A clustered manager starts with the state it loads**, or syncing if that is not its own. -/
theorem ClusterManager.new_clustered (hnodes : config.nodes ≠ [])
    (h : new env config files now = .ok m) :
    m.clusterEnabled = true ∧ m.config = config.normalized ∧
      ∃ loaded, loadPersistedState files config.normalized.diskPaths = .ok loaded ∧
        m.summary.state = ((loaded.filter fun state => state.summary.clusterId =
          clusterIdFor env config.normalized.nodeId config.normalized.nodes).map
            fun state => state.summary.state).getD .syncingEpoch := by
  have hne : config.normalized.nodes.isEmpty = false := by
    rw [List.isEmpty_eq_false_iff]
    exact normalizeNodes_ne_nil hnodes
  unfold new at h
  obtain ⟨loaded, hload, h⟩ := Lib.except_bind_eq_ok.mp h
  simp only [clusterEnabled,
    ClusterManager.refreshLocalIdentity, hne, Bool.not_false, if_true, Except.ok.injEq] at h
  subst h
  refine ⟨by simp [clusterEnabled, hne], rfl, loaded, hload, ?_⟩
  unfold summary
  cases loaded.filter fun state => state.summary.clusterId =
      clusterIdFor env config.normalized.nodeId config.normalized.nodes with
  | none => simp [initialState, hne]
  | some state => rfl

/-- **A start is fenced exactly if it loads no ready state of its own.** -/
theorem ClusterManager.new_blocks_iff (hnodes : config.nodes ≠ [])
    (h : new env config files now = .ok m) :
    m.blocksDataPlane = true ↔ ClusterNode.LoadsFenced env config files := by
  obtain ⟨-, -, loaded, hload, hstate⟩ := ClusterManager.new_clustered hnodes h
  unfold ClusterManager.blocksDataPlane ClusterNode.LoadsFenced
  rw [decide_eq_true_eq, hstate, hload]
  cases loaded with
  | none => simp
  | some state =>
    by_cases hid : state.summary.clusterId =
        clusterIdFor env config.normalized.nodeId config.normalized.nodes
    · simp [Option.filter_some, hid]
    · simp [Option.filter_some, hid]

namespace ClusterNode

variable {node : ClusterNode}

/-! ## Every event -/

theorem Running.refresh_blocks (probe : String → Option ClusterSummary) (now : Nat) (r : Running)
    (h : (Running.refresh probe now r).quorumSeen = false) :
    (Running.refresh probe now r).manager.blocksDataPlane = true := by
  have hlt : r.manager.reachableVoters probe < r.manager.quorum := by
    unfold Running.refresh at h
    simp only [Bool.or_eq_false_iff, decide_eq_false_iff_not] at h
    omega
  unfold Running.refresh ClusterManager.refreshFromNodes
  simp only [if_pos hlt]
  rfl

/-- A start leaves no process or the new one. -/
theorem start_cases {config : ClusterConfig} (hnodes : config.nodes ≠ []) (now : Nat)
    (persisting : Persisting) : (node.step env (.start config now persisting)).up = none ∨
      ∃ m, new env config node.files now = .ok m ∧
        (node.step env (.start config now persisting)).up = some ⟨m, false⟩ := by
  unfold step
  cases hnew : new env config node.files now with
  | error e =>
    left
    simp only [hnew]
  | ok m =>
    simp only [hnew, (ClusterManager.new_clustered hnodes hnew).1, Bool.true_and]
    by_cases hdone : persisting.done < m.config.diskPaths.length
    · left
      rw [if_pos (decide_eq_true hdone)]
    · right
      rw [if_neg (by simpa using hdone)]
      exact ⟨m, rfl, rfl⟩

/-- **Every event but a start keeps the node blocked**, and a start does so exactly if it loads no
ready state of its own. -/
theorem step_blocked_iff {e : ClusterEvent} (hblocked : node.Blocked)
    (hclustered : ∀ config now persisting, e = .start config now persisting → config.nodes ≠ []) :
    (node.step env e).Blocked ↔ ∀ config now persisting, e = .start config now persisting →
      (node.step env e).up.isSome → LoadsFenced env config node.files := by
  have hcall : ∀ persisting f, (∀ r, (r.quorumSeen = false → r.manager.blocksDataPlane = true) →
      (f r).quorumSeen = false → (f r).manager.blocksDataPlane = true) →
      (node.call persisting f).Blocked := by
    intro persisting f hf r hr hseen
    unfold call at hr
    cases hup : node.up with
    | none =>
      rw [hup] at hr
      exact hblocked r hr hseen
    | some r₀ =>
      rw [hup] at hr
      obtain rfl : f r₀ = r := Option.some.inj hr
      exact hf r₀ (hblocked r₀ hup) hseen
  cases e with
  | start config now persisting =>
    have hnodes := hclustered config now persisting rfl
    have hone : ((node.step env (.start config now persisting)).up.isSome →
        LoadsFenced env config node.files) ↔ ∀ config' now' persisting',
        ClusterEvent.start config now persisting = .start config' now' persisting' →
        (node.step env (.start config now persisting)).up.isSome →
          LoadsFenced env config' node.files := by
      constructor
      · rintro h config' now' persisting' ⟨⟩
        exact h
      · exact fun h => h config now persisting rfl
    rw [← hone]
    rcases @start_cases env node config hnodes now persisting with hdown | ⟨m, hnew, hup⟩
    · refine iff_of_true (fun r hr => ?_) fun hsome => ?_
      · simp [hdown] at hr
      · simp [hdown] at hsome
    · have hiff := ClusterManager.new_blocks_iff hnodes hnew
      unfold Blocked
      rw [hup]
      constructor
      · exact fun h _ => hiff.mp (h ⟨m, false⟩ rfl rfl)
      · rintro h r ⟨⟩ _
        exact hiff.mpr (h rfl)
  | refresh probe now persisting =>
    refine iff_of_true (hcall _ _ fun r _ => Running.refresh_blocks probe now r) ?_
    rintro config now' persisting' ⟨⟩
  | forceFence reason persisting =>
    refine iff_of_true (hcall _ _ fun r _ _ => rfl) ?_
    rintro config now' persisting' ⟨⟩
  | persist persisting =>
    refine iff_of_true (hcall _ _ fun r hr => hr) ?_
    rintro config now' persisting' ⟨⟩
  | crash =>
    refine iff_of_true (fun r hr => by cases hr) ?_
    rintro config now' persisting' ⟨⟩

/-- **A clustered node starts fenced exactly if it does not find itself ready.** In every run of a
node with a node list, with any probes, clocks, crashes and torn writes: the data plane is blocked
from each start until a refresh round of that run has counted a quorum, if and only if no start that
succeeds loads a `ready` state with its own cluster id. -/
theorem blocked_iff_starts_fenced (events : List ClusterEvent) (hclustered : Clustered events)
    (files : ClusterFiles) :
    BlockedThroughout env ⟨files, none⟩ events ↔ StartsFenced env ⟨files, none⟩ events := by
  have hrun : ∀ (events : List ClusterEvent) (node : ClusterNode), Clustered events → node.Blocked →
      (BlockedThroughout env node events ↔ StartsFenced env node events) := by
    intro events
    induction events with
    | nil => exact fun node _ hblocked => iff_of_true hblocked trivial
    | cons e events ih =>
      intro node hclustered hblocked
      have hstep : (node.step env e).Blocked ↔ _ :=
        step_blocked_iff hblocked (hclustered e List.mem_cons_self)
      have hrest : Clustered events := fun e' he' => hclustered e' (List.mem_cons_of_mem e he')
      constructor
      · rintro ⟨-, hthrough⟩
        have hnext : (node.step env e).Blocked := by
          cases events with
          | nil => exact hthrough
          | cons e' events => exact hthrough.1
        exact ⟨hstep.mp hnext, (ih _ hrest hnext).mp hthrough⟩
      · rintro ⟨hclean, hstarts⟩
        exact ⟨hblocked, (ih _ hrest (hstep.mpr hclean)).mpr hstarts⟩
  exact hrun events ⟨files, none⟩ hclustered fun r hr => by cases hr

/-! ### A restart -/

/-- A node of a cluster of two. -/
def pairConfig : ClusterConfig where
  nodeId := "node-a"
  advertiseS3 := "http://127.0.0.1:10000"
  advertiseCluster := "http://127.0.0.1:10000"
  nodes := ["http://127.0.0.1:10000", "http://node-b:10000"]
  diskPaths := ["/d1"]

/-- SHA-256 on what this node hashes. -/
def pairEnv : Env := .ofSha256 fun data =>
  if data = utf8 "node-ahttp://127.0.0.1:10000http://node-b:10000" then
    "c524d7a9ef4895f663f8394781525becd38058a9b0248dbc2d4b93c5124dee68"
  else if data = utf8 "node-a/d1" then
    "375e040b27d2bb38fa2844f2eefc926a76f01b061087881d28983dbdb86efbd5"
  else ""

/-- The node answers its own status request, and the other one does not answer. -/
def pairProbe (url : String) : Option ClusterSummary :=
  if url = "http://127.0.0.1:10000/_admin/cluster/status" then
    some {
      enabled := true
      clusterId := "abixio-c524d7a9ef4895f6"
      nodeId := "node-a"
      topologyHash := none
      state := .syncingEpoch
      epochId := 1
      leaderId := "node-a"
      nodeCount := 2
      voterCount := 2
      reachableVoters := 1
      quorum := 2
      fencedReason := none }
  else none

/-- A start on an empty disk, a refresh round and a crash. -/
def pairEvents : List ClusterEvent :=
  [.start pairConfig 1 ⟨1, false⟩, .refresh pairProbe 2 ⟨1, false⟩, .crash]

theorem blocked_iff_starts_fenced_pair :
    BlockedThroughout pairEnv ⟨fun _ => none, none⟩ pairEvents := by
  refine (blocked_iff_starts_fenced pairEvents ?_ _).mpr ⟨?_, ?_, ?_, trivial⟩
  · rintro e he config now persisting rfl
    simp only [pairEvents, List.mem_cons, ClusterEvent.start.injEq, reduceCtorEq, List.not_mem_nil,
      or_false] at he
    rw [he.1]
    decide
  · rintro config now persisting ⟨⟩ - state hload
    cases hload
  · rintro config now persisting ⟨⟩
  · rintro config now persisting ⟨⟩

/-- **A restart that serves at once.** After the first run was ready and crashed, the second one does
not block its data plane although it has probed nobody. -/
theorem restart_serves_without_quorum :
    ((pairEvents ++ [ClusterEvent.start pairConfig 3 ⟨1, false⟩]).foldl (step pairEnv)
      ⟨fun _ => none, none⟩).up.map (fun r => (r.quorumSeen, r.manager.blocksDataPlane)) =
        some (false, false) := by
  decide +kernel

end ClusterNode

end Abixio
