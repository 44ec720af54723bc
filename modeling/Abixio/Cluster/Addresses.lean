import Abixio.Cluster.Identity

/-!
# Where a node finds the volumes of the others

The backends that `main` (`src/main.rs:66-110`) builds from a resolved identity, before and after a
restart of every node of a cluster.

* At the first boot a remote volume has the endpoint and the path that its node stated in the exchange.
* Later the member list is all there is. It has no endpoints and no paths, so
  `build_node_volumes_from_members` (`src/cluster/identity.rs:238-290`) takes for every other node the
  first entry of `--nodes` that is not its own, and the volume ids in place of the paths.
* The server finds a volume by its path (`StorageServer::resolve_volume`).
* A read asks every backend and takes each shard by the index in its own metadata, so what counts is
  which volumes the backends reach, not their order.

`same_disks_iff`: every node still reaches the same volumes exactly if there are two nodes and all paths
happen to be volume ids.
-/

namespace Abixio

open List

/-- Where a backend of a pool is. -/
inductive BackendAddress where
  | localPath (path : String)
  | remotePath (endpoint path : String)
  deriving DecidableEq

/-- The backends that `main` builds. -/
def ResolvedIdentity.backends (identity : ResolvedIdentity) : List BackendAddress :=
  identity.nodeVolumes.flatMap fun nv => nv.volumePaths.map fun path =>
    if nv.nodeId = identity.nodeId then .localPath path else .remotePath nv.endpoint path

/-- The nodes of a cluster, with the node list they are started with: their endpoints, up to trailing
slashes. -/
structure Deployment (n : Nat) where
  identity : Fin n → NodeIdentity
  nodes : List String
  ids : Function.Injective fun i => (identity i).nodeId
  endpoints : Function.Injective fun i => trimSlashes (identity i).advertise
  listed : (nodes.map trimSlashes).Perm (ofFn fun i => trimSlashes (identity i).advertise)

namespace Deployment

variable {n : Nat} (dep : Deployment n)

/-- The paths of a node's volumes. -/
def paths (c : Fin n) : List String := (dep.identity c).volumes.map VolumeEntry.path

/-- The ids of a node's volumes. -/
def volumeIds (c : Fin n) : List String := (dep.identity c).volumes.map VolumeEntry.volumeId

/-- The volume that answers node `a` at an address, as a node and a path. -/
def volumeAt (a : Fin n) : BackendAddress → Option (Fin n × String)
  | .localPath path => some (a, path)
  | .remotePath endpoint path => (finRange n).findSome? fun c =>
    if trimSlashes (dep.identity c).advertise = trimSlashes endpoint ∧ path ∈ dep.paths c then
      some (c, path)
    else none

/-- Node `a` reaches a volume through one of its backends. -/
def Reaches (a : Fin n) (backends : List BackendAddress) (vol : Fin n × String) : Prop :=
  ∃ b ∈ backends, dep.volumeAt a b = some vol

/-- **Node `a` finished its first boot and was restarted** on the files it left, with the same
options. -/
structure Restarted (env : Env) (a : Fin n) (before after : ResolvedIdentity) : Prop where
  boots : ∃ iter iter' input input' rounds rounds' files files₁ files₂,
    resolveIdentity env iter input rounds files = .ok (some (before, files₁)) ∧
    input.nodes = dep.nodes ∧ input.paths.Nodup ∧
    (∀ answer ∈ rounds, ∀ url id, answer url = some id → ∃ j, id = dep.identity j) ∧
    (∀ first rest files₀, bootFormats input files = .ok (first :: rest, files₀) →
      localIdentity (first :: rest) input.paths first.nodeId
        (deriveAdvertise input.host input.listen) = dep.identity a ∧
      (first.clusterId = none ∨ first.cluster = none)) ∧
    input'.paths = input.paths ∧ input'.host = input.host ∧ input'.listen = input.listen ∧
    input'.nodes = input.nodes ∧ (∀ l, (iter' l).Perm l) ∧
    resolveIdentity env iter' input' rounds' files₁ = .ok (some (after, files₂))

/-- **The restart changed no address**: every other node has the endpoint it advertised, and every
volume that could be reached still can. -/
structure SameDisks (before after : Fin n → ResolvedIdentity) : Prop where
  endpoint : ∀ a c, c ≠ a → ((after a).nodeVolumes.find? fun nv =>
      nv.nodeId = (dep.identity c).nodeId).map (fun nv => trimSlashes nv.endpoint) =
    some (trimSlashes (dep.identity c).advertise)
  volume : ∀ a vol, dep.Reaches a (before a).backends vol → dep.Reaches a (after a).backends vol

variable {dep} {env : Env} {a c : Fin n} {before after : ResolvedIdentity}

variable {paths : List String} {formats : List VolumeFormat} {files files' : VolumeFiles}
  {input : BootInput} {path volumeId nodeId : String} {js : List (Fin n)}

/-! ## The files between the boots -/

theorem writeVolumes_other (h : path ∉ paths) :
    ∀ files : VolumeFiles, writeVolumes paths formats files path = files path := by
  unfold writeVolumes
  induction paths generalizing formats with
  | nil => exact fun files => rfl
  | cons p paths ih =>
    intro files
    cases formats with
    | nil => rfl
    | cons f formats =>
      rw [mem_cons, not_or] at h
      rw [zip_cons_cons, foldl_cons, ih h.2, Function.update_of_ne h.1]

theorem readVolumeFormat_format {fmt : VolumeFormat}
    {read : Option VolumeFormat} (hfile : files path = some (.format fmt))
    (h : readVolumeFormat files path = .ok read) : read = some fmt := by
  unfold readVolumeFormat at h
  rw [hfile] at h
  simp only at h
  split at h
  · cases h
  · cases h
    rfl

/-- What was written is read back. -/
theorem map_readVolumeFormat (hnd : paths.Nodup) :
    ∀ {formats : List VolumeFormat} {files : VolumeFiles} {read : List (Option VolumeFormat)},
      formats.length = paths.length →
      paths.map (readVolumeFormat (writeVolumes paths formats files)) = read.map .ok →
      read = formats.map some := by
  induction paths with
  | nil =>
    intro formats files read hlen h
    rw [length_eq_zero_iff.mp hlen]
    rw [map_nil, eq_comm, map_eq_nil_iff] at h
    exact h
  | cons path paths ih =>
    intro formats files read hlen h
    rw [nodup_cons] at hnd
    obtain ⟨f, formats, rfl⟩ := exists_cons_of_length_eq_add_one hlen
    have hwrites : writeVolumes (path :: paths) (f :: formats) files =
        writeVolumes paths formats (Function.update files path (some (.format f))) := rfl
    have hfile : writeVolumes paths formats (Function.update files path (some (.format f))) path =
        some (.format f) := by
      rw [writeVolumes_other hnd.1, Function.update_self]
    cases read with
    | nil => cases h
    | cons r read =>
      rw [hwrites, map_cons, map_cons, cons.injEq] at h
      rw [readVolumeFormat_format hfile h.1, ih hnd.2 (Nat.succ.inj hlen) h.2, map_cons]

/-- What loading gives is what the files hold, one format for each disk. -/
theorem loadVolumes_ok {loaded : Option (List VolumeFormat)} (h : loadVolumes files paths = .ok loaded) :
    ∃ read : List (Option VolumeFormat), paths.map (readVolumeFormat files) = read.map .ok ∧
      (loaded = none ∧ read.filterMap id = [] ∨
        loaded = some (read.filterMap id) ∧ (read.filterMap id).length = paths.length) := by
  obtain ⟨read, hread, h⟩ := Lib.except_bind_eq_ok.mp h
  refine ⟨read, Lib.Act.mapM_eq_ok hread, ?_⟩
  cases hpresent : read.filterMap id with
  | nil =>
    simp only [hpresent] at h
    cases h
    exact Or.inl ⟨rfl, rfl⟩
  | cons first rest =>
    simp only [hpresent] at h
    refine Or.inr ?_
    split_ifs at h with hlen
    · split at h
      · split_ifs at h
      · split at h
        · cases h
        · cases h
          exact ⟨rfl, not_not.mp hlen⟩

theorem bootFormats_length (h : bootFormats input files = .ok (formats, files')) :
    formats.length = input.paths.length := by
  unfold bootFormats at h
  split at h
  · cases h
  · rename_i loaded hload
    cases h
    obtain ⟨read, -, ⟨h, -⟩ | ⟨h, hlen⟩⟩ := loadVolumes_ok hload
    · cases h
    · cases h
      exact hlen
  · cases h
    exact length_mapIdx

/-- A boot on files that were written starts from them. -/
theorem bootFormats_written {formats' : List VolumeFormat} (hnd : input.paths.Nodup)
    (hlen : formats.length = input.paths.length) (hne : formats ≠ [])
    (h : bootFormats input (writeVolumes input.paths formats files) = .ok (formats', files')) :
    formats' = formats := by
  unfold bootFormats at h
  split at h
  · cases h
  all_goals
    rename_i hload
    obtain ⟨read, hread, hloaded⟩ := loadVolumes_ok hload
    have hall : read.filterMap id = formats := by
      rw [map_readVolumeFormat hnd hlen hread, filterMap_map]
      exact filterMap_some
    rw [hall] at hloaded
    obtain ⟨hnone, hnil⟩ | ⟨hsome, -⟩ := hloaded
  · cases hnone
  · cases hsome
    cases h
    rfl
  · exact absurd hnil hne
  · cases hsome

/-! ## What the two boots resolve -/

/-- The node volumes of both boots in terms of the nodes. -/
structure Resolved (dep : Deployment n) (a : Fin n) (before after : ResolvedIdentity)
    (js : List (Fin n)) (iter : List String → List String) : Prop where
  nodeIds : before.nodeId = (dep.identity a).nodeId ∧ after.nodeId = (dep.identity a).nodeId
  perm : js.Perm (finRange n)
  iterates : ∀ l, (iter l).Perm l
  volumes : (dep.identity a).volumes ≠ []
  before_eq : before.nodeVolumes = js.map fun j =>
    ⟨(dep.identity j).nodeId, (dep.identity j).advertise, dep.paths j⟩
  after_eq : after.nodeVolumes = buildNodeVolumesFromMembers iter (dep.identity a).nodeId
    (dep.identity a).advertise (dep.paths a) (buildMembers (js.map dep.identity)) dep.nodes

theorem length_nodes (dep : Deployment n) : dep.nodes.length = n := by
  have h := dep.listed.length_eq
  rwa [length_map, length_ofFn] at h

theorem Restarted.resolved (h : dep.Restarted env a before after) :
    ∃ js iter, Resolved dep a before after js iter := by
  obtain ⟨iter, iter', input, input', rounds, rounds', files, files₁, files₂, hbefore, hnodes, hnd,
    hhonest, hown, hpaths, hhost, hlisten, hnodes', hiter, hafter⟩ := h.boots
  have hne : input.nodes ≠ [] := by
    rw [hnodes, ← length_pos_iff, length_nodes]
    exact a.pos
  obtain ⟨first, rest, files₀, hboot, hid, -, -, hlater | hfirst⟩ := resolveIdentity_ok hne hbefore
  · obtain ⟨-, hnone | hnone⟩ := hown first rest files₀ hboot
    · simp [hlater.members.1] at hnone
    · simp [hlater.members.2] at hnone
  have hlen := bootFormats_length hboot
  obtain ⟨hown, -⟩ := hown first rest files₀ hboot
  obtain ⟨identities, hexchange, -, hmembers, -, hvolumes⟩ := hfirst.exchanged
  rw [hown, hnodes, length_nodes] at hexchange
  obtain ⟨js, hperm, rfl⟩ := exchange_all dep.ids hhonest hexchange
  have hnodeId : first.nodeId = (dep.identity a).nodeId := congrArg NodeIdentity.nodeId hown
  have hadvertise : deriveAdvertise input.host input.listen = (dep.identity a).advertise :=
    congrArg NodeIdentity.advertise hown
  have hpath : dep.paths a = input.paths := by
    unfold paths
    rw [← hown, localIdentity, map_map]
    exact map_snd_zip (Nat.le_of_eq hlen.symm)
  -- the second boot starts from the formats that the first one finalized
  rw [hfirst.files_eq, ← hpaths] at hafter
  obtain ⟨first', rest', files₀', hboot', hid', -, -, hlater | hfirst'⟩ :=
    resolveIdentity_ok (by rw [hnodes']; exact hne) hafter
  all_goals
    have hstart : first' :: rest' =
        finalizeVolumes before.clusterId before.allMembers (first :: rest) := by
      refine bootFormats_written ?_ ?_ (cons_ne_nil _ _) hboot'
      · rw [hpaths]
        exact hnd
      · rw [hpaths, finalizeVolumes, length_map]
        exact hlen
    rw [finalizeVolumes, map_cons, cons.injEq] at hstart
  · refine ⟨js, iter', ⟨by rw [hid, hnodeId], by rw [hid', hstart.1, ← hnodeId]⟩, hperm, hiter, ?_, ?_, ?_⟩
    · rw [← hown, localIdentity]
      simp only [ne_eq, map_eq_nil_iff, zip_eq_nil_iff, reduceCtorEq, false_or]
      rw [← length_eq_zero_iff, ← hlen]
      exact Nat.succ_ne_zero _
    · rw [hvolumes, map_map]
      rfl
    · have hpersisted : after.allMembers = before.allMembers := by
        have hcluster := hlater.members.2
        rw [hstart.1] at hcluster
        exact (Option.some.inj hcluster).symm
      rw [hlater.nodeVolumes, hpersisted, hmembers, hstart.1, hhost, hlisten, hadvertise, hpaths,
        hpath, hnodes', hnodes, ← hnodeId]
  · have hunfinished := hfirst'.unfinished
    rw [hstart.1] at hunfinished
    obtain hnone | hnone := hunfinished
    · cases hnone
    · cases hnone

/-! ## Members -/

/-- The member list has the volumes of the nodes and nothing else. -/
theorem exists_mem_buildMembers {identities : List NodeIdentity} :
    (∃ m ∈ buildMembers identities, m.nodeId = nodeId ∧ m.volumeId = volumeId) ↔
      ∃ id ∈ identities, id.nodeId = nodeId ∧ volumeId ∈ id.volumes.map VolumeEntry.volumeId := by
  constructor
  · rintro ⟨m, hm, hnode, hvolume⟩
    obtain ⟨i, hi, rfl⟩ := mem_mapIdx.mp hm
    obtain ⟨id, hid, hv⟩ := mem_flatMap.mp (getElem_mem hi)
    obtain ⟨v, hv, heq⟩ := mem_map.mp hv
    refine ⟨id, (mem_insertionSort _).mp hid, ?_, mem_map.mpr ⟨v, hv, ?_⟩⟩
    · rw [← hnode, ← heq]
    · rw [← hvolume, ← heq]
  · rintro ⟨id, hid, hnode, hvolume⟩
    obtain ⟨v, hv, rfl⟩ := mem_map.mp hvolume
    have hpair : (v.volumeId, id.nodeId) ∈ (identities.insertionSort fun a b =>
        a.nodeId ≤ b.nodeId).flatMap fun identity =>
          identity.volumes.map fun v => (v.volumeId, identity.nodeId) :=
      mem_flatMap.mpr ⟨id, (mem_insertionSort _).mpr hid, mem_map.mpr ⟨v, hv, rfl⟩⟩
    obtain ⟨i, hi, hget⟩ := mem_iff_getElem.mp hpair
    refine ⟨_, mem_mapIdx.mpr ⟨i, hi, rfl⟩, ?_, ?_⟩
    · rw [hget]
      exact hnode
    · rw [hget]

/-- The volumes the member list has for node `c`. -/
theorem mem_membersOf (hjs : js.Perm (finRange n)) :
    volumeId ∈ ((buildMembers (js.map dep.identity)).filter fun m =>
        m.nodeId = (dep.identity c).nodeId).map SetMember.volumeId ↔
      volumeId ∈ dep.volumeIds c := by
  have hmem := @exists_mem_buildMembers volumeId (dep.identity c).nodeId (js.map dep.identity)
  rw [mem_map]
  constructor
  · rintro ⟨m, hm, rfl⟩
    obtain ⟨hm, hnode⟩ := mem_filter.mp hm
    obtain ⟨id, hid, hnode, hvolume⟩ := hmem.mp ⟨m, hm, of_decide_eq_true hnode, rfl⟩
    obtain ⟨j, -, rfl⟩ := mem_map.mp hid
    rw [dep.ids hnode] at hvolume
    exact hvolume
  · intro hvolume
    obtain ⟨m, hm, hnode, rfl⟩ := hmem.mpr ⟨dep.identity c,
      mem_map_of_mem (hjs.mem_iff.mpr (mem_finRange c)), rfl, hvolume⟩
    exact ⟨m, mem_filter.mpr ⟨hm, decide_eq_true hnode⟩, rfl⟩

/-- The nodes of the member list. -/
theorem mem_byNode (hjs : js.Perm (finRange n)) (hvolumes : ∀ c, (dep.identity c).volumes ≠ []) :
    nodeId ∈ ((buildMembers (js.map dep.identity)).map SetMember.nodeId).dedup ↔
      ∃ c, (dep.identity c).nodeId = nodeId := by
  rw [mem_dedup, mem_map]
  constructor
  · rintro ⟨m, hm, rfl⟩
    obtain ⟨id, hid, hnode, -⟩ := exists_mem_buildMembers.mp ⟨m, hm, rfl, rfl⟩
    obtain ⟨j, -, rfl⟩ := mem_map.mp hid
    exact ⟨j, hnode⟩
  · rintro ⟨c, rfl⟩
    obtain ⟨v, hv⟩ := exists_mem_of_ne_nil _ (hvolumes c)
    obtain ⟨m, hm, hnode, -⟩ := exists_mem_buildMembers.mpr ⟨dep.identity c,
      mem_map_of_mem (hjs.mem_iff.mpr (mem_finRange c)), rfl, mem_map_of_mem hv⟩
    exact ⟨m, hm, hnode⟩

/-! ## Addresses -/

/-- A remote address reaches the node with that endpoint, on a path it has. -/
theorem volumeAt_remotePath {endpoint : String} {vol : Fin n × String} :
    dep.volumeAt a (.remotePath endpoint path) = some vol ↔
      trimSlashes (dep.identity vol.1).advertise = trimSlashes endpoint ∧ path ∈ dep.paths vol.1 ∧
        vol.2 = path := by
  constructor
  · intro h
    obtain ⟨c, -, hc⟩ := exists_of_findSome?_eq_some h
    split_ifs at hc with hreach
    cases hc
    exact ⟨hreach.1, hreach.2, rfl⟩
  · rintro ⟨hend, hpath, heq⟩
    obtain ⟨c, p⟩ := vol
    cases heq
    cases hfind : (finRange n).findSome? fun c =>
        if trimSlashes (dep.identity c).advertise = trimSlashes endpoint ∧ p ∈ dep.paths c then
          some (c, p)
        else none with
    | none =>
      have hc := findSome?_eq_none_iff.mp hfind c (mem_finRange c)
      rw [if_pos ⟨hend, hpath⟩] at hc
      cases hc
    | some found =>
      obtain ⟨d, -, hd⟩ := exists_of_findSome?_eq_some hfind
      split_ifs at hd with hreach
      cases hd
      have hdc : d = c := dep.endpoints (hreach.1.trans hend.symm)
      exact hdc ▸ hfind

namespace Resolved

variable {iter : List String → List String}

/-- **Before the restart every volume is reached.** -/
theorem reaches_before (h : Resolved dep a before after js iter) (vol : Fin n × String) :
    dep.Reaches a before.backends vol ↔ vol.2 ∈ dep.paths vol.1 := by
  unfold Reaches ResolvedIdentity.backends
  rw [h.before_eq, h.nodeIds.1]
  constructor
  · rintro ⟨b, hb, hvol⟩
    obtain ⟨nv, hnv, hb⟩ := mem_flatMap.mp hb
    obtain ⟨j, -, rfl⟩ := mem_map.mp hnv
    obtain ⟨path, hpath, rfl⟩ := mem_map.mp hb
    split_ifs at hvol with hown
    · cases hvol
      exact dep.ids hown ▸ hpath
    · obtain ⟨-, hpath, heq⟩ := volumeAt_remotePath.mp hvol
      exact heq ▸ hpath
  · intro hpath
    obtain ⟨c, path⟩ := vol
    have hc : c ∈ js := h.perm.mem_iff.mpr (mem_finRange c)
    refine ⟨_, mem_flatMap.mpr ⟨_, mem_map_of_mem hc, mem_map_of_mem hpath⟩, ?_⟩
    by_cases hca : c = a
    · rw [if_pos (by rw [hca]), hca]
      rfl
    · rw [if_neg fun hid => hca (dep.ids hid)]
      exact volumeAt_remotePath.mpr ⟨rfl, hpath, rfl⟩

/-- The entry of `--nodes` that node `a` takes for every other node. -/
def otherNode (dep : Deployment n) (a : Fin n) : String :=
  (dep.nodes.find? fun node =>
    trimSlashes node ≠ trimSlashes (dep.identity a).advertise).getD ""

section

variable (h : Resolved dep a before after js iter)
include h

variable (hvolumes : ∀ c, (dep.identity c).volumes ≠ [])

include hvolumes in
/-- The other nodes are all found in the member list. -/
theorem mem_others (hca : c ≠ a) :
    (dep.identity c).nodeId ∈ (iter ((buildMembers (js.map dep.identity)).map
      SetMember.nodeId).dedup).filter fun nodeId => nodeId ≠ (dep.identity a).nodeId := by
  refine mem_filter.mpr ⟨(h.iterates _).mem_iff.mpr ?_, decide_eq_true fun he => hca (dep.ids he)⟩
  exact (mem_byNode h.perm hvolumes).mpr ⟨c, rfl⟩

include hvolumes in
/-- **After the restart only what has an id for a path, on the node of that entry.** -/
theorem reaches_after (vol : Fin n × String) : dep.Reaches a after.backends vol ↔
      (vol.1 = a ∨ (trimSlashes (dep.identity vol.1).advertise = trimSlashes (otherNode dep a) ∧
        ∃ c, c ≠ a ∧ vol.2 ∈ dep.volumeIds c)) ∧ vol.2 ∈ dep.paths vol.1 := by
  have hown : (dep.identity a).nodeId ∈
      ((buildMembers (js.map dep.identity)).map SetMember.nodeId).dedup :=
    (mem_byNode h.perm hvolumes).mpr ⟨a, rfl⟩
  unfold Reaches ResolvedIdentity.backends
  rw [h.after_eq, h.nodeIds.2, buildNodeVolumesFromMembers]
  rw [if_pos hown]
  constructor
  · rintro ⟨b, hb, hvol⟩
    obtain ⟨nv, hnv, hb⟩ := mem_flatMap.mp hb
    rcases mem_append.mp hnv with hnv | hnv
    · rw [mem_singleton] at hnv
      subst hnv
      obtain ⟨path, hpath, rfl⟩ := mem_map.mp hb
      rw [if_pos rfl] at hvol
      cases hvol
      exact ⟨Or.inl rfl, hpath⟩
    · obtain ⟨nodeId, hnode, rfl⟩ := mem_map.mp hnv
      obtain ⟨hmem, hne⟩ := mem_filter.mp hnode
      obtain ⟨c, rfl⟩ := (mem_byNode h.perm hvolumes).mp ((h.iterates _).mem_iff.mp hmem)
      obtain ⟨path, hpath, rfl⟩ := mem_map.mp hb
      have hne := of_decide_eq_true hne
      rw [if_neg hne] at hvol
      obtain ⟨hend, hat, heq⟩ := volumeAt_remotePath.mp hvol
      rw [← heq] at hat hpath
      exact ⟨Or.inr ⟨hend, c, fun hca => hne (by rw [hca]), (mem_membersOf h.perm).mp hpath⟩, hat⟩
  · rintro ⟨hreach, hpath⟩
    obtain ⟨d, path⟩ := vol
    rcases hreach with rfl | ⟨hend, c, hca, hid⟩
    · refine ⟨.localPath path, mem_flatMap.mpr ⟨_, mem_append_left _
        (mem_singleton_self _), mem_map.mpr ⟨path, hpath, if_pos rfl⟩⟩, rfl⟩
    · have hne : (dep.identity c).nodeId ≠ (dep.identity a).nodeId := fun he => hca (dep.ids he)
      refine ⟨.remotePath (otherNode dep a) path, mem_flatMap.mpr ⟨_, mem_append_right _
        (mem_map_of_mem (h.mem_others hvolumes hca)), mem_map.mpr ⟨path, (mem_membersOf h.perm).mpr hid,
          if_neg hne⟩⟩, ?_⟩
      exact volumeAt_remotePath.mpr ⟨hend, hpath, rfl⟩

include hvolumes in
/-- **Every other node gets one and the same endpoint.** -/
theorem endpoint_after (hca : c ≠ a) :
    (after.nodeVolumes.find? fun nv => nv.nodeId = (dep.identity c).nodeId).map
      (fun nv => trimSlashes nv.endpoint) = some (trimSlashes (otherNode dep a)) := by
  have hne : (dep.identity a).nodeId ≠ (dep.identity c).nodeId := fun he => hca (dep.ids he).symm
  have hown : (dep.identity a).nodeId ∈
      ((buildMembers (js.map dep.identity)).map SetMember.nodeId).dedup :=
    (mem_byNode h.perm hvolumes).mpr ⟨a, rfl⟩
  rw [h.after_eq, buildNodeVolumesFromMembers]
  rw [if_pos hown, find?_append, find?_singleton, if_neg (by simpa using hne),
    Option.none_or, find?_map]
  cases hfind : find? (_ ∘ _) _ with
  | none =>
    have hnot := find?_eq_none.mp hfind _ (h.mem_others hvolumes hca)
    exact absurd (decide_eq_true rfl) hnot
  | some nodeId => rfl

end

end Resolved

/-! ## When a restart keeps the addresses -/

/-- The entry a node takes is the endpoint of some other node. -/
theorem otherNode_advertised (hn : 2 ≤ n) (a : Fin n) :
    ∃ c, c ≠ a ∧ trimSlashes (Resolved.otherNode dep a) = trimSlashes (dep.identity c).advertise := by
  have : Nontrivial (Fin n) := Fin.nontrivial_iff_two_le.mpr hn
  obtain ⟨c, hca⟩ := exists_ne a
  have hlisted : ∀ e, e ∈ dep.nodes.map trimSlashes ↔ ∃ d, trimSlashes (dep.identity d).advertise = e := by
    intro e
    rw [dep.listed.mem_iff, mem_ofFn]
  obtain ⟨node, hnode, hend⟩ := mem_map.mp ((hlisted _).mpr ⟨c, rfl⟩)
  unfold Resolved.otherNode
  cases hfind : dep.nodes.find? fun node =>
      trimSlashes node ≠ trimSlashes (dep.identity a).advertise with
  | none =>
    have hown := find?_eq_none.mp hfind node hnode
    rw [decide_eq_true_eq, not_not, hend] at hown
    exact absurd (dep.endpoints hown) hca
  | some found =>
    obtain ⟨d, hd⟩ := (hlisted _).mp (mem_map_of_mem (mem_of_find?_eq_some hfind))
    refine ⟨d, ?_, hd.symm⟩
    rintro rfl
    have hne := find?_some hfind
    rw [decide_eq_true_eq] at hne
    exact hne hd.symm

/-- **A restart keeps all addresses exactly in a cluster of two nodes whose paths are volume ids**: with
a third node two of them share an endpoint, and a remote path that is not an id is never asked for. -/
theorem same_disks_iff (hn : 2 ≤ n) {before after : Fin n → ResolvedIdentity}
    (h : ∀ a, dep.Restarted env a (before a) (after a)) :
    dep.SameDisks before after ↔ n = 2 ∧ ∀ c, dep.paths c ⊆ dep.volumeIds c := by
  choose js iter hresolved using fun a => (h a).resolved
  have hvolumes : ∀ c, (dep.identity c).volumes ≠ [] := fun c => (hresolved c).volumes
  constructor
  · intro hsame
    -- all others share the endpoint of one node
    have honly : ∀ a c d : Fin n, c ≠ a → d ≠ a → c = d := by
      intro a c d hca hda
      have hc := hsame.endpoint a c hca
      have hd := hsame.endpoint a d hda
      rw [(hresolved a).endpoint_after hvolumes hca] at hc
      rw [(hresolved a).endpoint_after hvolumes hda] at hd
      exact dep.endpoints ((Option.some.inj hc).symm.trans (Option.some.inj hd))
    refine ⟨?_, ?_⟩
    · by_contra hne
      have h01 := honly ⟨2, by omega⟩ ⟨0, by omega⟩ ⟨1, by omega⟩ (by simp) (by simp)
      simp at h01
    · intro c path hpath
      have : Nontrivial (Fin n) := Fin.nontrivial_iff_two_le.mpr hn
      obtain ⟨a, hac⟩ := exists_ne c
      have hreach := hsame.volume a (c, path) (((hresolved a).reaches_before (c, path)).mpr hpath)
      obtain ⟨hca | ⟨-, d, hda, hid⟩, -⟩ := ((hresolved a).reaches_after hvolumes (c, path)).mp hreach
      · exact absurd hca hac.symm
      · rw [honly a c d hac.symm hda]
        exact hid
  · rintro ⟨rfl, hids⟩
    have honly : ∀ a c d : Fin 2, c ≠ a → d ≠ a → c = d := by decide
    have hother : ∀ a c, c ≠ a →
        trimSlashes (Resolved.otherNode dep a) = trimSlashes (dep.identity c).advertise := by
      intro a c hca
      obtain ⟨d, hda, hd⟩ := otherNode_advertised (Nat.le_refl 2) a
      rw [hd, honly a d c hda hca]
    refine ⟨fun a c hca => ?_, fun a vol hvol => ?_⟩
    · rw [(hresolved a).endpoint_after hvolumes hca, hother a c hca]
    · have hpath := ((hresolved a).reaches_before vol).mp hvol
      refine ((hresolved a).reaches_after hvolumes vol).mpr ⟨?_, hpath⟩
      by_cases hca : vol.1 = a
      · exact Or.inl hca
      · exact Or.inr ⟨(hother a vol.1 hca).symm, vol.1, hca, hids vol.1 hpath⟩

/-! ### Three nodes -/

/-- Three nodes with one volume each. -/
def trio : Deployment 3 where
  identity i :=
    match i with
    | 0 => ⟨"11111111-1111-4111-8111-111111111111", "http://node1:10000",
        [⟨"a1111111-1111-4111-8111-111111111111", 0, "/d1"⟩]⟩
    | 1 => ⟨"22222222-2222-4222-8222-222222222222", "http://node2:10000",
        [⟨"a2222222-2222-4222-8222-222222222222", 0, "/d1"⟩]⟩
    | 2 => ⟨"33333333-3333-4333-8333-333333333333", "http://node3:10000",
        [⟨"a3333333-3333-4333-8333-333333333333", 0, "/d1"⟩]⟩
  nodes := ["http://node1:10000", "http://node2:10000", "http://node3:10000"]
  ids := by decide +kernel
  endpoints := by decide +kernel
  listed := by decide +kernel

/-- SHA-256 on what they hash. -/
def trioEnv : Env := .ofSha256 fun data =>
  if data = utf8 ("deployment:11111111-1111-4111-8111-111111111111:" ++
      "22222222-2222-4222-8222-222222222222:33333333-3333-4333-8333-333333333333:") then
    "f461a6755296d3a5256f4de5a535f008af07beca39ebde6fa596b8634255a9dd"
  else ""

/-- The options of a node and the ids it makes. -/
def trioInput (i : Fin 3) : BootInput where
  paths := ["/d1"]
  host := match i with
    | 0 => "node1"
    | 1 => "node2"
    | 2 => "node3"
  listen := ":10000"
  nodes := trio.nodes
  freshNode := (trio.identity i).nodeId
  freshVolume _ := (trio.volumeIds i).headD ""
  now := 0

/-- Every node answers with its identity. -/
def trioAnswer (url : String) : Option NodeIdentity :=
  if url = "http://node1:10000/_admin/cluster/join" then some (trio.identity 0)
  else if url = "http://node2:10000/_admin/cluster/join" then some (trio.identity 1)
  else if url = "http://node3:10000/_admin/cluster/join" then some (trio.identity 2)
  else none

/-- The first boot of a node on empty disks, and a second one on the files it left. -/
def trioBoots (i : Fin 3) : Option (ResolvedIdentity × ResolvedIdentity) :=
  match resolveIdentity trioEnv id (trioInput i) [trioAnswer] (fun _ => none) with
  | .ok (some (before, files)) =>
    match resolveIdentity trioEnv id (trioInput i) [] files with
    | .ok (some (after, _)) => some (before, after)
    | _ => none
  | _ => none

theorem trio_restarted {i : Fin 3} (h : trioBoots i = some (before, after)) :
    trio.Restarted trioEnv i before after := by
  unfold trioBoots at h
  split at h
  · rename_i first files hfirst
    split at h
    · rename_i second files' hsecond
      cases h
      refine ⟨id, id, trioInput i, trioInput i, [trioAnswer], [], fun _ => none, files, files', hfirst,
        rfl, nodup_singleton _, ?_, ?_, rfl, rfl, rfl, rfl, fun l => List.Perm.refl l, hsecond⟩
      · intro answer hanswer url id hid
        rw [mem_singleton] at hanswer
        subst hanswer
        unfold trioAnswer at hid
        split_ifs at hid
        · exact ⟨0, (Option.some.inj hid).symm⟩
        · exact ⟨1, (Option.some.inj hid).symm⟩
        · exact ⟨2, (Option.some.inj hid).symm⟩
      · have hboot : ∀ i, (bootFormats (trioInput i) (fun _ => none)).map Prod.fst =
            .ok [generateVolumeFormat (trio.identity i).nodeId ((trio.volumeIds i).headD "") 0 0] ∧
            localIdentity [generateVolumeFormat (trio.identity i).nodeId
              ((trio.volumeIds i).headD "") 0 0] ["/d1"] (trio.identity i).nodeId
              (deriveAdvertise (trioInput i).host (trioInput i).listen) = trio.identity i := by
          decide +kernel
        intro first rest files₀ hstart
        obtain ⟨hformats, hown⟩ := hboot i
        rw [hstart, Except.map, Except.ok.injEq] at hformats
        obtain ⟨rfl, rfl⟩ := cons.inj hformats
        exact ⟨hown, Or.inl rfl⟩
    · cases h
  · cases h

theorem trio_boots (i : Fin 3) : ∃ before after, trioBoots i = some (before, after) := by
  have hsome : ∀ i, (trioBoots i).isSome := by decide +kernel
  obtain ⟨⟨before, after⟩, hr⟩ := Option.isSome_iff_exists.mp (hsome i)
  exact ⟨before, after, hr⟩

theorem same_disks_iff_trio : ∃ before after : Fin 3 → ResolvedIdentity,
    (∀ a, trio.Restarted trioEnv a (before a) (after a)) ∧
      (trio.SameDisks before after ↔ 3 = 2 ∧ ∀ c, trio.paths c ⊆ trio.volumeIds c) := by
  choose before after hboots using trio_boots
  refine ⟨before, after, fun a => trio_restarted (hboots a), ?_⟩
  exact same_disks_iff (by decide) fun a => trio_restarted (hboots a)

/-- **Restarted, the first of three nodes takes the third for the second**, and asks it for a path it
does not have. -/
theorem restart_mixes_endpoints : ∃ before after : Fin 3 → ResolvedIdentity,
    (∀ a, trio.Restarted trioEnv a (before a) (after a)) ∧
      trio.Reaches 0 (before 0).backends (1, "/d1") ∧ ¬ trio.Reaches 0 (after 0).backends (1, "/d1") ∧
      ((after 0).nodeVolumes.map fun nv => nv.endpoint) =
        ["http://node1:10000", "http://node2:10000", "http://node2:10000"] ∧
      ¬ trio.SameDisks before after := by
  obtain ⟨hendpoints, hfirst, hsecond⟩ :
      (trioBoots 0).map (fun r => r.2.nodeVolumes.map fun nv => nv.endpoint) =
        some ["http://node1:10000", "http://node2:10000", "http://node2:10000"] ∧
      (trioBoots 0).map (fun r => r.1.backends.any fun b => trio.volumeAt 0 b = some (1, "/d1")) =
        some true ∧
      (trioBoots 0).map (fun r => r.2.backends.any fun b => trio.volumeAt 0 b = some (1, "/d1")) =
        some false := by
    decide +kernel
  choose before after hboots using trio_boots
  rw [hboots 0, Option.map_some, Option.some.injEq] at hendpoints hfirst hsecond
  have hreached : trio.Reaches 0 (before 0).backends (1, "/d1") := by
    obtain ⟨b, hb, hat⟩ := any_eq_true.mp hfirst
    exact ⟨b, hb, of_decide_eq_true hat⟩
  have hlost : ¬ trio.Reaches 0 (after 0).backends (1, "/d1") := by
    rintro ⟨b, hb, hat⟩
    exact any_eq_false.mp hsecond b hb (decide_eq_true hat)
  exact ⟨before, after, fun a => trio_restarted (hboots a), hreached, hlost, hendpoints,
    fun hsame => hlost (hsame.volume 0 (1, "/d1") hreached)⟩

end Deployment

end Abixio
