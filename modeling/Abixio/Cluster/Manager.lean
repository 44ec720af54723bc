import Abixio.Storage.Pathing
import Mathlib.Data.List.DropRight

/-!
# The cluster manager

Model of `src/cluster/mod.rs`: the service state of one node, the probes of its peers and the file
`cluster.json` that it keeps on its disks.

* A probe is a function from the url of a status request to the summary in the answer, `none` when
  the request fails or the answer is no summary. The authorisation headers, which only decide whether
  a peer answers, are left out, and with them the credentials in `ClusterConfig`.
* Files are per disk. A file has a state in it or is torn; serde reads back what it wrote, and a
  torn file, like one that cannot be read, is an error.
* `now` is the clock of the call.
* The locks are never poisoned: no code panics while it holds one.
-/

namespace Abixio

/-! ## Texts -/

/-- `str::trim`. -/
def trimText (s : String) : String := String.ofList (trim s.toList)

/-- `str::trim_end_matches('/')`. -/
def trimSlashes (s : String) : String := String.ofList (s.toList.rdropWhile (· = '/'))

/-- `str::starts_with`. -/
def startsWithText (s start : String) : Bool := start.toList.isPrefixOf s.toList

/-- `normalize_endpoint`. -/
def normalizeEndpoint (endpoint : String) : String :=
  let trimmed := trimSlashes (trimText endpoint)
  if startsWithText trimmed "http://" || startsWithText trimmed "https://" then trimmed
  else if trimmed.isEmpty then trimmed
  else "http://" ++ trimmed

/-- `normalize_nodes`: each endpoint once, where it first stands. -/
def normalizeNodes (nodes : List String) : List String :=
  nodes.foldl (fun normalized node =>
    if normalizeEndpoint node ∈ normalized then normalized
    else normalized ++ [normalizeEndpoint node]) []

/-- `normalize_id`. -/
def normalizeId (value : String) : String :=
  if (trimText value).isEmpty then "local" else trimText value

/-- The first eight bytes of a SHA-256 digest, in hex. -/
def shortDigest (env : Env) (data : Bytes) : String :=
  String.ofList ((env.sha256Hex data).toList.take 16)

theorem utf8_inj {s t : String} (h : utf8 s = utf8 t) : s = t := by
  rw [← String.toByteArray_inj]
  exact ByteArray.ext (Array.toList_inj.mp h)

/-- What `cluster_id_for` hashes. -/
def clusterText (nodeId : String) (nodes : List String) : Bytes := utf8 nodeId ++ nodes.flatMap utf8

/-- `cluster_id_for`. -/
def clusterIdFor (env : Env) (nodeId : String) (nodes : List String) : String :=
  "abixio-" ++ shortDigest env (clusterText nodeId nodes)

/-- `volume_id_for`. -/
def volumeIdFor (env : Env) (nodeId path : String) : String :=
  "vol-" ++ shortDigest env (utf8 nodeId ++ utf8 path)

/-! ## Records -/

/-- `ClusterConfig`. -/
structure ClusterConfig where
  nodeId : String
  advertiseS3 : String
  advertiseCluster : String
  nodes : List String
  diskPaths : List String
  deriving DecidableEq

/-- `ServiceState`. -/
inductive ServiceState where
  | joining
  | syncingEpoch
  | fenced
  | ready
  deriving DecidableEq, Repr

/-- `ClusterSummary`. -/
structure ClusterSummary where
  enabled : Bool
  clusterId : String
  nodeId : String
  topologyHash : Option String
  state : ServiceState
  epochId : Nat
  leaderId : String
  nodeCount : Nat
  voterCount : Nat
  reachableVoters : Nat
  quorum : Nat
  fencedReason : Option String
  deriving DecidableEq

/-- `ClusterNodeStatus`. -/
structure ClusterNodeStatus where
  nodeId : String
  advertiseS3 : String
  advertiseCluster : String
  state : ServiceState
  voter : Bool
  reachable : Bool
  totalDisks : Nat
  lastHeartbeatUnixSecs : Nat
  deriving DecidableEq

/-- `ClusterVolumeStatus`. -/
structure ClusterVolumeStatus where
  volumeId : String
  nodeId : String
  path : String
  deriving DecidableEq

/-- `ClusterEpoch`. -/
structure ClusterEpoch where
  epochId : Nat
  leaderId : String
  committedAtUnixSecs : Nat
  voterCount : Nat
  reachableVoters : Nat
  deriving DecidableEq

/-- `ClusterTopology`. -/
structure ClusterTopology where
  clusterId : String
  epoch : ClusterEpoch
  nodes : List ClusterNodeStatus
  volumes : List ClusterVolumeStatus
  deriving DecidableEq

/-- `PersistedClusterState`. -/
structure PersistedClusterState where
  summary : ClusterSummary
  topology : ClusterTopology
  epochs : List ClusterEpoch
  deriving DecidableEq

/-- The content of a `cluster.json`. -/
inductive ClusterFile where
  | complete (state : PersistedClusterState)
  | torn
  deriving DecidableEq

/-- The `cluster.json` of each disk path, if it exists. -/
abbrev ClusterFiles := String → Option ClusterFile

/-- `load_persisted_state`: the file of the first disk that has one. -/
def loadPersistedState (files : ClusterFiles) :
    List String → Except String (Option PersistedClusterState)
  | [] => .ok none
  | path :: rest =>
    match files path with
    | none => loadPersistedState files rest
    | some (.complete state) => .ok (some state)
    | some .torn => .error ("parse persisted cluster state " ++ path ++ "/.abixio.sys/cluster.json")

/-! ## The manager -/

/-- `ClusterManager`. -/
structure ClusterManager where
  config : ClusterConfig
  state : PersistedClusterState
  deriving DecidableEq

/-- The configuration as `ClusterManager::new` takes it. -/
def ClusterConfig.normalized (config : ClusterConfig) : ClusterConfig where
  nodeId := normalizeId config.nodeId
  advertiseS3 := normalizeEndpoint config.advertiseS3
  advertiseCluster := normalizeEndpoint config.advertiseCluster
  nodes := normalizeNodes config.nodes
  diskPaths := config.diskPaths

theorem ClusterConfig.normalized_nodeId (config : ClusterConfig) :
    config.normalized.nodeId = normalizeId config.nodeId := by
  rw [ClusterConfig.normalized]

theorem ClusterConfig.normalized_nodes (config : ClusterConfig) :
    config.normalized.nodes = normalizeNodes config.nodes := by
  rw [ClusterConfig.normalized]

/-- `current_epoch_id`. -/
def currentEpochId : Nat := 1

/-- The volumes of this node. -/
def localVolumes (env : Env) (config : ClusterConfig) : List ClusterVolumeStatus :=
  config.diskPaths.map fun path => ⟨volumeIdFor env config.nodeId path, config.nodeId, path⟩

/-- `initial_state`. -/
def initialState (env : Env) (config : ClusterConfig) (clusterId : String) (now : Nat) :
    PersistedClusterState :=
  let state := if config.nodes.isEmpty then ServiceState.ready else .syncingEpoch
  let epoch : ClusterEpoch := ⟨1, config.nodeId, now, config.nodes.length, 1⟩
  { summary := {
      enabled := !config.nodes.isEmpty
      clusterId := clusterId
      nodeId := config.nodeId
      topologyHash := none
      state := state
      epochId := 1
      leaderId := config.nodeId
      nodeCount := config.nodes.length
      voterCount := config.nodes.length
      reachableVoters := 1
      quorum := config.nodes.length / 2 + 1
      fencedReason := none }
    topology := {
      clusterId := clusterId
      epoch := epoch
      nodes := [⟨config.nodeId, config.advertiseS3, config.advertiseCluster, state, true, true,
        config.diskPaths.length, now⟩]
      volumes := localVolumes env config }
    epochs := [epoch] }

/-- `elect_leader`: the least id. -/
def electLeader (localNodeId : String) (peers : List (String × ClusterSummary)) : String :=
  peers.foldl (fun least peer => if peer.2.nodeId < least then peer.2.nodeId else least) localNodeId

/-- `iter_mut().find(p)` with an update of what it finds. -/
def updateFirst {α : Type} (p : α → Bool) (f : α → α) : List α → List α
  | [] => []
  | a :: l => if p a then f a :: l else a :: updateFirst p f l

namespace ClusterManager

/-- `summary`. -/
def summary (m : ClusterManager) : ClusterSummary := m.state.summary

/-- `cluster_enabled`. -/
def clusterEnabled (m : ClusterManager) : Bool := !m.config.nodes.isEmpty

/-- `blocks_data_plane`. -/
def blocksDataPlane (m : ClusterManager) : Bool := m.summary.state ≠ .ready

/-- `build_nodes`. -/
def buildNodes (localState : ServiceState) (peers : Option (List (String × ClusterSummary)))
    (now : Nat) (m : ClusterManager) : List ClusterNodeStatus :=
  let own : ClusterNodeStatus := ⟨m.config.nodeId, m.config.advertiseS3, m.config.advertiseCluster,
    localState, true, true, m.config.diskPaths.length, now⟩
  let probed := peers.getD []
  let remotes := m.config.nodes.filter fun remote =>
    !(trimSlashes remote = trimSlashes m.config.advertiseS3 ||
      trimSlashes remote = trimSlashes m.config.advertiseCluster)
  own :: remotes.map fun remote =>
    let status := (probed.find? fun peer => peer.1 = remote).map Prod.snd
    { nodeId := (status.map ClusterSummary.nodeId).getD remote
      advertiseS3 := (status.map ClusterSummary.nodeId).getD ""
      advertiseCluster := remote
      state := (status.map ClusterSummary.state).getD .joining
      voter := true
      reachable := status.isSome
      totalDisks := 0
      lastHeartbeatUnixSecs := now }

/-- The update of this node's entry in the node view. -/
def setLocal (state : ServiceState) (now : Nat) (m : ClusterManager)
    (nodes : List ClusterNodeStatus) : List ClusterNodeStatus :=
  updateFirst (fun node => node.nodeId = m.config.nodeId)
    (fun node => { node with state := state, reachable := true, lastHeartbeatUnixSecs := now }) nodes

/-- The epoch replaces the first one. -/
def setEpoch (epoch : ClusterEpoch) : List ClusterEpoch → List ClusterEpoch
  | [] => [epoch]
  | _ :: rest => epoch :: rest

/-- `mark_ready`, before it is persisted. -/
def markReady (epochId : Nat) (leaderId : String) (reachableVoters : Nat)
    (peers : Option (List (String × ClusterSummary))) (now : Nat) (m : ClusterManager) :
    ClusterManager :=
  let voterCount := m.config.nodes.length
  let epoch : ClusterEpoch := ⟨epochId, leaderId, now, voterCount, reachableVoters⟩
  { m with state := {
      summary := { m.state.summary with
        state := .ready
        epochId := epochId
        leaderId := leaderId
        voterCount := voterCount
        reachableVoters := reachableVoters
        quorum := voterCount / 2 + 1
        fencedReason := none }
      topology := { m.state.topology with
        epoch := epoch
        nodes := m.setLocal .ready now (m.buildNodes .ready peers now) }
      epochs := setEpoch epoch m.state.epochs } }

/-- `mark_fenced`, before it is persisted. -/
def markFenced (epochId : Nat) (leaderId : String) (reachableVoters : Nat) (reason : Option String)
    (now : Nat) (m : ClusterManager) : ClusterManager :=
  let voterCount := m.config.nodes.length
  { m with state := { m.state with
      summary := { m.state.summary with
        state := .fenced
        epochId := epochId
        leaderId := leaderId
        voterCount := voterCount
        reachableVoters := reachableVoters
        quorum := voterCount / 2 + 1
        fencedReason := reason }
      topology := { m.state.topology with
        nodes := m.setLocal .fenced now (m.buildNodes .fenced none now) } } }

/-- `force_fence`, before it is persisted. -/
def forceFence (reason : String) (m : ClusterManager) : ClusterManager :=
  { m with state := { m.state with
      summary := { m.state.summary with state := .fenced, fencedReason := some reason }
      topology := { m.state.topology with
        nodes := updateFirst (fun node => node.nodeId = m.config.nodeId)
          (fun node => { node with state := .fenced }) m.state.topology.nodes } } }

/-- `refresh_local_identity`. -/
def refreshLocalIdentity (env : Env) (m : ClusterManager) : ClusterManager :=
  let clusterId := clusterIdFor env m.config.nodeId m.config.nodes
  { m with state := { m.state with
      summary := { m.state.summary with
        nodeId := m.config.nodeId
        clusterId := clusterId
        nodeCount := m.config.nodes.length
        topologyHash := none }
      topology := { m.state.topology with
        clusterId := clusterId
        volumes := localVolumes env m.config } } }

/-- `ClusterManager::new`, before it is persisted. -/
def new (env : Env) (config : ClusterConfig) (files : ClusterFiles) (now : Nat) :
    Except String ClusterManager := do
  let config := config.normalized
  let clusterId := clusterIdFor env config.nodeId config.nodes
  let loaded ← loadPersistedState files config.diskPaths
  let persisted := (loaded.filter fun state => state.summary.clusterId = clusterId).getD
    (initialState env config clusterId now)
  let m := refreshLocalIdentity env ⟨config, persisted⟩
  if m.clusterEnabled then .ok m
  else .ok (m.markReady currentEpochId m.config.nodeId 1 none now)

/-- The url of a status request. -/
def statusUrl (peer : String) : String := trimSlashes peer ++ "/_admin/cluster/status"

/-- `fetch_peer_summaries`. -/
def fetchPeerSummaries (probe : String → Option ClusterSummary) (m : ClusterManager) :
    List (String × ClusterSummary) :=
  m.config.nodes.filterMap fun peer =>
    (probe (statusUrl peer)).bind fun summary =>
      if summary.clusterId = m.summary.clusterId then some (peer, summary) else none

/-- The voters a refresh round counts. -/
def reachableVoters (probe : String → Option ClusterSummary) (m : ClusterManager) : Nat :=
  1 + (m.fetchPeerSummaries probe).length

/-- The quorum of a refresh round. -/
def quorum (m : ClusterManager) : Nat := m.config.nodes.length / 2 + 1

/-- `refresh_from_nodes`, before it is persisted. -/
def refreshFromNodes (probe : String → Option ClusterSummary) (now : Nat) (m : ClusterManager) :
    ClusterManager :=
  let peers := m.fetchPeerSummaries probe
  let reachable := m.reachableVoters probe
  let leaderId := electLeader m.config.nodeId peers
  if reachable < m.quorum then
    m.markFenced currentEpochId leaderId reachable
      (some ("cluster quorum lost: reachable_voters=" ++ toString reachable ++ " quorum=" ++
        toString m.quorum)) now
  else m.markReady currentEpochId leaderId reachable (some peers) now

/-- What `persist_state` writes if it gets through `done` disks; `torn` is that the file after them
is left incomplete. A failed write and the end of the process both stop it. -/
def persistState (done : Nat) (torn : Bool) (m : ClusterManager) (files : ClusterFiles) :
    ClusterFiles :=
  let written := (m.config.diskPaths.take done).foldl
    (fun files path => Function.update files path (some (.complete m.state))) files
  match m.config.diskPaths[done]? with
  | some path => if torn then Function.update written path (some .torn) else written
  | none => written

end ClusterManager

end Abixio
