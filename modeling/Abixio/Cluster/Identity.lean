import Abixio.Lib.Act
import Abixio.Cluster.Manager

/-!
# The identity of a node

Model of `src/cluster/identity.rs` and of the part of `src/storage/volume.rs` that it uses: the file
`volume.json` of each disk, the exchange of identities at the first boot, and what later boots rebuild
from the persisted member list.

* The file of a disk has a format in it or cannot be read. Writing one succeeds; a boot that cannot
  write its files ends with that error.
* `fresh` gives the ids that `Uuid::new_v4` makes, and `host` is what `hostname::get` returns.
* `/_admin/cluster/join` is asked in rounds. `rounds` has the answers of each round by url, and a boot
  that runs out of them is still waiting (`none`).
* `iter` is the order in which a `HashMap` gives its keys.
-/

namespace Abixio

open List

/-! ## `volume.json` -/

/-- `SetMember`. -/
structure SetMember where
  volumeId : String
  nodeId : String
  index : Nat
  deriving DecidableEq

/-- `VolumeFormat`. -/
structure VolumeFormat where
  version : Nat
  clusterId : Option String
  nodeId : String
  volumeId : String
  volumeIndex : Nat
  createdAt : Nat
  cluster : Option (List SetMember)
  deriving DecidableEq

/-- The content of a `volume.json`. -/
inductive VolumeFile where
  | format (fmt : VolumeFormat)
  | unreadable (error : String)
  deriving DecidableEq

/-- The `volume.json` of each disk path, if it exists. -/
abbrev VolumeFiles := String → Option VolumeFile

/-- `CURRENT_VOLUME_FORMAT_VERSION`, which is also the least one supported. -/
def currentVolumeFormatVersion : Nat := 1

/-- `check_format_version`. -/
def checkFormatVersion (version : Nat) : Except String Unit :=
  if currentVolumeFormatVersion < version then
    .error ("volume.json format version " ++ toString version ++
      " is newer than this binary supports (" ++ toString currentVolumeFormatVersion ++
      "). Upgrade the binary.")
  else if version < currentVolumeFormatVersion then
    .error ("volume.json format version " ++ toString version ++
      " is older than the minimum supported (" ++ toString currentVolumeFormatVersion ++
      "). No migration available in this build.")
  else .ok ()

/-- `read_volume_format`. -/
def readVolumeFormat (files : VolumeFiles) (path : String) : Except String (Option VolumeFormat) :=
  match files path with
  | none => .ok none
  | some (.unreadable error) => .error error
  | some (.format fmt) =>
    match checkFormatVersion fmt.version with
    | .error e => .error (path ++ "/.abixio.sys/volume.json: " ++ e)
    | .ok () => .ok (some fmt)

/-- `load_volumes`. -/
def loadVolumes (files : VolumeFiles) (paths : List String) :
    Except String (Option (List VolumeFormat)) := do
  let formats ← paths.mapM (readVolumeFormat files)
  match formats.filterMap id with
  | [] => .ok none
  | first :: rest =>
    let present := first :: rest
    if present.length ≠ paths.length then
      .error ("mixed state: " ++ toString present.length ++ " of " ++ toString paths.length ++
        " volumes have volume.json")
    else
      match present.find? fun fmt =>
          fmt.nodeId ≠ first.nodeId || fmt.clusterId ≠ first.clusterId with
      | some fmt =>
        if fmt.nodeId ≠ first.nodeId then
          .error ("node_id mismatch across volumes: " ++ first.nodeId ++ " vs " ++ fmt.nodeId)
        else .error "cluster_id mismatch across volumes"
      | none =>
        match (range present.length).find? fun i =>
            ((present.take i).map VolumeFormat.volumeId).contains
              ((present.map VolumeFormat.volumeId).getD i "") with
        | some i => .error ("duplicate volume_id: " ++ (present.map VolumeFormat.volumeId).getD i "")
        | none => .ok (some present)

/-- `generate_volume_format`. -/
def generateVolumeFormat (nodeId volumeId : String) (volumeIndex now : Nat) : VolumeFormat :=
  ⟨currentVolumeFormatVersion, none, nodeId, volumeId, volumeIndex, now, none⟩

/-- `format_volumes`: what it writes. -/
def formatVolumes (freshNode : String) (freshVolume : Nat → String) (now : Nat)
    (paths : List String) : List VolumeFormat :=
  paths.mapIdx fun i _ => generateVolumeFormat freshNode (freshVolume i) i now

/-- `write_volume_format` on every disk. -/
def writeVolumes (paths : List String) (formats : List VolumeFormat) (files : VolumeFiles) :
    VolumeFiles :=
  (paths.zip formats).foldl (fun files w => Function.update files w.1 (some (.format w.2))) files

/-- `finalize_volumes`: what it writes. -/
def finalizeVolumes (clusterId : String) (members : List SetMember) (formats : List VolumeFormat) :
    List VolumeFormat :=
  formats.map fun fmt => { fmt with clusterId := some clusterId, cluster := some members }

/-! ## Identities -/

/-- `VolumeEntry`. -/
structure VolumeEntry where
  volumeId : String
  index : Nat
  path : String
  deriving DecidableEq

/-- `NodeIdentity`. -/
structure NodeIdentity where
  nodeId : String
  advertise : String
  volumes : List VolumeEntry
  deriving DecidableEq

/-- `NodeVolumes`. -/
structure NodeVolumes where
  nodeId : String
  endpoint : String
  volumePaths : List String
  deriving DecidableEq

/-- `ResolvedIdentity`. -/
structure ResolvedIdentity where
  nodeId : String
  clusterId : String
  advertise : String
  nodes : List String
  diskPaths : List String
  allMembers : List SetMember
  nodeVolumes : List NodeVolumes
  deriving DecidableEq

/-- `derive_advertise`. -/
def deriveAdvertise (host listen : String) : String :=
  let addr := if startsWithText listen ":" then "0.0.0.0" ++ listen else listen
  "http://" ++ host ++ ":" ++ String.ofList (addr.toList.rtakeWhile (· ≠ ':'))

/-- The identity a node offers to its peers. -/
def localIdentity (formats : List VolumeFormat) (paths : List String) (nodeId advertise : String) :
    NodeIdentity where
  nodeId := nodeId
  advertise := advertise
  volumes := (formats.zip paths).map fun v => ⟨v.1.volumeId, v.1.volumeIndex, v.2⟩

/-- `build_members`: the volumes of all nodes in the order of the node ids. -/
def buildMembers (identities : List NodeIdentity) : List SetMember :=
  let sorted := identities.insertionSort fun a b => a.nodeId ≤ b.nodeId
  (sorted.flatMap fun identity => identity.volumes.map fun v => (v.volumeId, identity.nodeId)).mapIdx
    fun i v => ⟨v.1, v.2, i⟩

/-- `cluster_id_for`. -/
def deploymentIdFor (env : Env) (sortedNodeIds : List String) : String :=
  "abixio-" ++ shortDigest env
    (utf8 "deployment:" ++ sortedNodeIds.flatMap fun id => utf8 id ++ utf8 ":")

/-- `build_node_volumes_from_members`. -/
def buildNodeVolumesFromMembers (iter : List String → List String)
    (localNodeId localAdvertise : String) (localDiskPaths : List String) (members : List SetMember)
    (nodes : List String) : List NodeVolumes :=
  let byNode := (members.map SetMember.nodeId).dedup
  let endpoint := (nodes.find? fun node => trimSlashes node ≠ trimSlashes localAdvertise).getD ""
  (if localNodeId ∈ byNode then [⟨localNodeId, localAdvertise, localDiskPaths⟩] else []) ++
    ((iter byNode).filter fun nodeId => nodeId ≠ localNodeId).map fun nodeId =>
      ⟨nodeId, endpoint, (members.filter fun m => m.nodeId = nodeId).map SetMember.volumeId⟩

/-! ## The exchange -/

/-- The url of a join request. -/
def joinUrl (node : String) : String := trimSlashes node ++ "/_admin/cluster/join"

/-- One join request of a round. -/
def joinNode (answer : String → Option NodeIdentity) (identities : List NodeIdentity)
    (node : String) : List NodeIdentity :=
  if identities.any fun id => trimSlashes id.advertise = trimSlashes node then identities
  else
    match answer (joinUrl node) with
    | some peer =>
      if identities.any fun id => id.nodeId = peer.nodeId then identities else identities ++ [peer]
    | none => identities

/-- The loop of the exchange. -/
def exchange (remoteNodes : List String) (expected : Nat) :
    List (String → Option NodeIdentity) → List NodeIdentity → Option (List NodeIdentity)
  | [], _ => none
  | answer :: rounds, identities =>
    let next := remoteNodes.foldl (joinNode answer) identities
    if expected ≤ next.length then some next else exchange remoteNodes expected rounds next

/-! ## The boot -/

/-- What a boot reads besides its files and its peers. -/
structure BootInput where
  paths : List String
  host : String
  listen : String
  nodes : List String
  freshNode : String
  freshVolume : Nat → String
  now : Nat

/-- The formats a boot starts from, and the files once they are written. -/
def bootFormats (input : BootInput) (files : VolumeFiles) :
    Except String (List VolumeFormat × VolumeFiles) :=
  match loadVolumes files input.paths with
  | .error e => .error e
  | .ok (some formats) => .ok (formats, files)
  | .ok none =>
    let formats := formatVolumes input.freshNode input.freshVolume input.now input.paths
    .ok (formats, writeVolumes input.paths formats files)

/-- `resolve_identity`, with the files it leaves. -/
def resolveIdentity (env : Env) (iter : List String → List String) (input : BootInput)
    (rounds : List (String → Option NodeIdentity)) (files : VolumeFiles) :
    Except String (Option (ResolvedIdentity × VolumeFiles)) := do
  let (formats, files) ← bootFormats input files
  match formats with
  | [] => .error "no volumes specified" -- refused when the options are read
  | first :: _ =>
    let nodeId := first.nodeId
    let advertise := deriveAdvertise input.host input.listen
    let own := localIdentity formats input.paths nodeId advertise
    let remoteNodes := input.nodes.filter fun node => trimSlashes node ≠ trimSlashes advertise
    if input.nodes.isEmpty then
      let clusterId := deploymentIdFor env [nodeId]
      let members := buildMembers [own]
      .ok (some (
        { nodeId := nodeId
          clusterId := clusterId
          advertise := advertise
          nodes := []
          diskPaths := input.paths
          allMembers := members
          nodeVolumes := [⟨nodeId, advertise, input.paths⟩] },
        writeVolumes input.paths (finalizeVolumes clusterId members formats) files))
    else
      match first.clusterId, first.cluster with
      | some clusterId, some members =>
        .ok (some (
          { nodeId := nodeId
            clusterId := clusterId
            advertise := advertise
            nodes := input.nodes
            diskPaths := input.paths
            allMembers := members
            nodeVolumes := buildNodeVolumesFromMembers iter nodeId advertise input.paths members
              input.nodes },
          files))
      | _, _ =>
        match exchange remoteNodes input.nodes.length rounds [own] with
        | none => .ok none
        | some identities =>
          let clusterId := deploymentIdFor env
            ((identities.map NodeIdentity.nodeId).insertionSort (· ≤ ·))
          let members := buildMembers identities
          .ok (some (
            { nodeId := nodeId
              clusterId := clusterId
              advertise := advertise
              nodes := (identities.filter fun id => id.nodeId ≠ nodeId).map NodeIdentity.advertise
              diskPaths := input.paths
              allMembers := members
              nodeVolumes := identities.map fun id =>
                ⟨id.nodeId, id.advertise, id.volumes.map VolumeEntry.path⟩ },
            writeVolumes input.paths (finalizeVolumes clusterId members formats) files))

/-- The configuration `main` gives the cluster manager. -/
def ResolvedIdentity.clusterConfig (identity : ResolvedIdentity) : ClusterConfig where
  nodeId := identity.nodeId
  advertiseS3 := identity.advertise
  advertiseCluster := identity.advertise
  nodes := identity.nodes
  diskPaths := identity.diskPaths

theorem ResolvedIdentity.clusterConfig_nodeId (identity : ResolvedIdentity) :
    identity.clusterConfig.nodeId = identity.nodeId := rfl

theorem ResolvedIdentity.clusterConfig_nodes (identity : ResolvedIdentity) :
    identity.clusterConfig.nodes = identity.nodes := rfl

/-! ## What a boot resolves -/

variable {answer : String → Option NodeIdentity}

section Resolved

variable {env : Env} {iter : List String → List String} {input : BootInput}
  {rounds : List (String → Option NodeIdentity)} {files files' : VolumeFiles}
  {identity : ResolvedIdentity}

/-- A boot on finalized volumes. -/
structure ResolvedLater (iter : List String → List String) (input : BootInput)
    (first : VolumeFormat) (files files' : VolumeFiles) (identity : ResolvedIdentity) : Prop where
  members : first.clusterId = some identity.clusterId ∧ first.cluster = some identity.allMembers
  nodes : identity.nodes = input.nodes
  nodeVolumes : identity.nodeVolumes = buildNodeVolumesFromMembers iter first.nodeId
    (deriveAdvertise input.host input.listen) input.paths identity.allMembers input.nodes
  files_eq : files' = files

/-- A boot that exchanged identities. -/
structure ResolvedFirst (env : Env) (input : BootInput)
    (rounds : List (String → Option NodeIdentity)) (first : VolumeFormat) (rest : List VolumeFormat)
    (files files' : VolumeFiles) (identity : ResolvedIdentity) : Prop where
  unfinished : first.clusterId = none ∨ first.cluster = none
  exchanged : ∃ identities, exchange (input.nodes.filter fun node =>
        trimSlashes node ≠ trimSlashes (deriveAdvertise input.host input.listen))
      input.nodes.length rounds [localIdentity (first :: rest) input.paths first.nodeId
        (deriveAdvertise input.host input.listen)] = some identities ∧
    identity.clusterId = deploymentIdFor env
      ((identities.map NodeIdentity.nodeId).insertionSort (· ≤ ·)) ∧
    identity.allMembers = buildMembers identities ∧
    identity.nodes =
      (identities.filter fun id => id.nodeId ≠ first.nodeId).map NodeIdentity.advertise ∧
    identity.nodeVolumes = identities.map fun id =>
      ⟨id.nodeId, id.advertise, id.volumes.map VolumeEntry.path⟩
  files_eq : files' = writeVolumes input.paths
    (finalizeVolumes identity.clusterId identity.allMembers (first :: rest)) files

/-- **What a clustered boot resolves**: the persisted members, or those of the exchange. -/
theorem resolveIdentity_ok (hnodes : input.nodes ≠ [])
    (h : resolveIdentity env iter input rounds files = .ok (some (identity, files'))) :
    ∃ first rest files₀, bootFormats input files = .ok (first :: rest, files₀) ∧
      identity.nodeId = first.nodeId ∧
      identity.advertise = deriveAdvertise input.host input.listen ∧
      identity.diskPaths = input.paths ∧ (ResolvedLater iter input first files₀ files' identity ∨
        ResolvedFirst env input rounds first rest files₀ files' identity) := by
  obtain ⟨⟨formats, files₀⟩, hboot, h⟩ := Lib.except_bind_eq_ok.mp h
  cases formats with
  | nil => cases h
  | cons first rest =>
    have hne : input.nodes.isEmpty = false := isEmpty_eq_false_iff.mpr hnodes
    simp only [hne, Bool.false_eq_true, if_false] at h
    refine ⟨first, rest, files₀, hboot, ?_⟩
    split at h
    · rename_i clusterId members hid hmembers
      cases h
      exact ⟨rfl, rfl, rfl, Or.inl ⟨⟨hid, hmembers⟩, rfl, rfl, rfl⟩⟩
    · rename_i hunfinished
      split at h
      · cases h
      · rename_i identities hexchange
        cases h
        refine ⟨rfl, rfl, rfl, Or.inr ⟨?_, ⟨identities, hexchange, rfl, rfl, rfl, rfl⟩, rfl⟩⟩
        cases hid : first.clusterId with
        | none => exact Or.inl rfl
        | some clusterId =>
          cases hmembers : first.cluster with
          | none => exact Or.inr rfl
          | some members => exact absurd hmembers (hunfinished clusterId members hid)

/-! ### The exchange among honest nodes -/

variable {n : Nat} {known : Fin n → NodeIdentity} {remoteNodes : List String} {expected : Nat}

variable (hids : Function.Injective fun i => (known i).nodeId)
  (hanswer : ∀ url id, answer url = some id → ∃ j, id = known j)

include hids hanswer in
/-- A join request adds a node that is not known yet, or nothing. -/
theorem joinNode_known {js : List (Fin n)} (hnd : js.Nodup) (node : String) :
    ∃ js' : List (Fin n), js'.Nodup ∧ js ⊆ js' ∧ joinNode answer (js.map known) node = js'.map known := by
  unfold joinNode
  split_ifs with hadvertised
  · exact ⟨js, hnd, List.Subset.refl js, rfl⟩
  · cases hasked : answer (joinUrl node) with
    | none => exact ⟨js, hnd, List.Subset.refl js, rfl⟩
    | some peer =>
      obtain ⟨j, rfl⟩ := hanswer _ _ hasked
      by_cases hj : j ∈ js
      · have hany : ((js.map known).any fun id => id.nodeId = (known j).nodeId) = true :=
          any_eq_true.mpr ⟨known j, mem_map_of_mem hj, decide_eq_true rfl⟩
        exact ⟨js, hnd, List.Subset.refl js, by simp only [hany, if_true]⟩
      · have hany : ((js.map known).any fun id => id.nodeId = (known j).nodeId) = false := by
          rw [any_eq_false]
          intro id hid
          obtain ⟨i, hi, rfl⟩ := mem_map.mp hid
          rw [decide_eq_true_eq]
          intro he
          exact hj (hids he ▸ hi)
        refine ⟨js ++ [j], ?_, subset_append_left js [j], ?_⟩
        · rw [nodup_append]
          refine ⟨hnd, nodup_singleton j, fun a ha b hb => ?_⟩
          rw [mem_singleton] at hb
          rintro rfl
          exact hj (hb ▸ ha)
        · simp [hany]

include hids hanswer in
theorem joinNodes_known (nodes : List String) :
    ∀ {js : List (Fin n)}, js.Nodup → ∃ js' : List (Fin n), js'.Nodup ∧ js ⊆ js' ∧
        nodes.foldl (joinNode answer) (js.map known) = js'.map known := by
  induction nodes with
  | nil => exact fun hnd => ⟨_, hnd, List.Subset.refl _, rfl⟩
  | cons node nodes ih =>
    intro js hnd
    obtain ⟨js₁, hnd₁, hsub₁, hone⟩ := joinNode_known hids hanswer hnd node
    obtain ⟨js₂, hnd₂, hsub₂, hrest⟩ := ih hnd₁
    refine ⟨js₂, hnd₂, List.Subset.trans hsub₁ hsub₂, ?_⟩
    rw [foldl_cons, hone, hrest]

/-- **An exchange among honest nodes ends with distinct nodes**, and with as many as it waits for. -/
theorem exchange_known (hids : Function.Injective fun i => (known i).nodeId) :
    ∀ {rounds : List (String → Option NodeIdentity)},
      (∀ answer ∈ rounds, ∀ url id, answer url = some id → ∃ j, id = known j) →
      ∀ {js : List (Fin n)} {identities : List NodeIdentity}, js.Nodup →
        exchange remoteNodes expected rounds (js.map known) = some identities →
        ∃ js' : List (Fin n), js'.Nodup ∧ js ⊆ js' ∧ identities = js'.map known ∧
          expected ≤ js'.length
  | [], _, _, _, _, h => by cases h
  | answer :: rounds, hanswers, js, identities, hnd, h => by
    obtain ⟨js₁, hnd₁, hsub₁, hround⟩ :=
      joinNodes_known hids (hanswers answer mem_cons_self) remoteNodes hnd
    unfold exchange at h
    simp only [hround, length_map] at h
    split_ifs at h with hdone
    · cases h
      exact ⟨js₁, hnd₁, hsub₁, rfl, hdone⟩
    · obtain ⟨js₂, hnd₂, hsub₂, hids₂, hlen⟩ := exchange_known hids
        (fun a ha => hanswers a (mem_cons_of_mem answer ha)) hnd₁ h
      exact ⟨js₂, hnd₂, List.Subset.trans hsub₁ hsub₂, hids₂, hlen⟩

/-- When it waits for all nodes it ends with all of them. -/
theorem exchange_all (hids : Function.Injective fun i => (known i).nodeId)
    (hanswers : ∀ answer ∈ rounds, ∀ url id, answer url = some id → ∃ j, id = known j) {i : Fin n}
    {identities : List NodeIdentity}
    (h : exchange remoteNodes n rounds [known i] = some identities) :
    ∃ js : List (Fin n), js.Perm (finRange n) ∧ identities = js.map known := by
  obtain ⟨js, hnd, -, hall, hlen⟩ :=
    exchange_known hids hanswers (nodup_singleton i) (h : exchange remoteNodes n rounds
      ([i].map known) = some identities)
  refine ⟨js, ?_, hall⟩
  have hsub : js.Subperm (finRange n) := hnd.subperm fun j _ => mem_finRange j
  exact hsub.perm_of_length_le (by rw [length_finRange]; exact hlen)

end Resolved

end Abixio
