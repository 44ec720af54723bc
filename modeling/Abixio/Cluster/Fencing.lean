import Abixio.Cluster.Identity

/-!
# Which nodes of a cluster become ready

What `refresh_from_nodes` (`src/cluster/mod.rs:382-436`) makes of a partition, for nodes that were
booted by `resolve_identity` (`src/cluster/identity.rs:106-206`) with the same node list.

* The cluster id that the probes compare is a digest of the node's own id, so a node only ever counts
  itself (`reachableVoters_eq`).
* At the first boot the node list of the manager is the list of the others, and at a later boot it is
  the whole `--nodes` list, in which the node probes itself a second time.
* So whether a node becomes ready depends on `n` and on the boot alone (`ready_iff`), and
  `fences_iff` says for which reachability relations that is what fencing asks for.
-/

namespace Abixio

open List
open ClusterManager (markFenced markReady new quorum refreshFromNodes statusUrl summary)

/-- The text of a `Uuid`: 36 bytes, none of them white space. -/
structure IsUuid (s : String) : Prop where
  length : (utf8 s).length = 36
  noSpace : ∀ c ∈ s.toList, isWhitespace c = false

theorem isUuid_of_all {s : String} (hlength : (utf8 s).length = 36)
    (h : (s.toList.all fun c => !isWhitespace c) = true) : IsUuid s :=
  ⟨hlength, fun c hc => (Bool.not_eq_true' _).mp (all_eq_true.mp h c hc)⟩

/-- The nodes of a cluster and the node list they are started with. -/
structure ClusterSpec (n : Nat) where
  identity : Fin n → NodeIdentity
  nodes : List String
  uuid : ∀ i, IsUuid (identity i).nodeId
  ids : Function.Injective fun i => (identity i).nodeId
  endpoints : Function.Injective fun i => normalizeEndpoint (identity i).advertise
  listed : (nodes.map normalizeEndpoint).Perm
    (ofFn fun i => normalizeEndpoint (identity i).advertise)

namespace ClusterSpec

variable {n : Nat} (spec : ClusterSpec n)

/-- The endpoint of a node. -/
def endpoint (i : Fin n) : String := normalizeEndpoint (spec.identity i).advertise

/-- **Node `i` is booted**: `resolve_identity` returned, and whoever answered its join requests
answered with its own identity. `later` is that the volumes were finalized by an earlier boot. -/
structure Booted (env : Env) (i : Fin n) (later : Bool) (identity : ResolvedIdentity) : Prop where
  resolved : ∃ iter input rounds files files',
    resolveIdentity env iter input rounds files = .ok (some (identity, files')) ∧
    input.nodes = spec.nodes ∧
    (∀ answer ∈ rounds, ∀ url id, answer url = some id → ∃ j, id = spec.identity j) ∧
    ∀ first rest files₀, bootFormats input files = .ok (first :: rest, files₀) →
      localIdentity (first :: rest) input.paths first.nodeId
        (deriveAdvertise input.host input.listen) = spec.identity i ∧
      later = (first.clusterId.isSome && first.cluster.isSome)

/-- **A refresh round of every node** under a reachability relation, after any earlier ones. A node
that is reached answers with a summary that has its cluster id. -/
structure Refreshed (env : Env) (later : Fin n → Bool) (reach : Fin n → Fin n → Bool)
    (after : Fin n → ClusterManager) : Prop where
  round : ∀ i, ∃ identity files now m earlier probe now', spec.Booted env i (later i) identity ∧
    new env identity.clusterConfig files now = .ok m ∧
    after i = ((earlier : List ((String → Option ClusterSummary) × Nat)).foldl
      (fun m r => m.refreshFromNodes r.1 r.2) m).refreshFromNodes probe now' ∧
    ∀ j, if reach i j then
        ∃ s, probe (statusUrl (spec.endpoint j)) = some s ∧
          s.clusterId = (after j).summary.clusterId
      else probe (statusUrl (spec.endpoint j)) = none

/-- The nodes that a node reaches. -/
def reached (reach : Fin n → Fin n → Bool) (i : Fin n) : Finset (Fin n) :=
  Finset.univ.filter fun j => reach i j = true

/-- **Fencing.** -/
structure Fences (reach : Fin n → Fin n → Bool) (after : Fin n → ClusterManager) : Prop where
  /-- A node that reaches no majority is not ready. -/
  minority : ∀ i, (reached reach i).card < n / 2 + 1 → (after i).summary.state ≠ .ready
  /-- Two nodes that reach no common node are not both ready. -/
  apart : ∀ i j, Disjoint (reached reach i) (reached reach j) →
    ¬ ((after i).summary.state = .ready ∧ (after j).summary.state = .ready)
  /-- A node that reaches all nodes is ready. -/
  full : ∀ i, (∀ j, reach i j = true) → (after i).summary.state = .ready

/-- The boots after which a node is ready whomever it reaches. -/
def Eager (n : Nat) (later : Bool) : Prop := if later then n ≤ 3 else n = 2

instance (n : Nat) (later : Bool) : Decidable (Eager n later) :=
  inferInstanceAs (Decidable (if later then n ≤ 3 else n = 2))

variable {spec} {env : Env} {i : Fin n} {later : Fin n → Bool} {reach : Fin n → Fin n → Bool}
  {after : Fin n → ClusterManager} {m : ClusterManager}

/-! ## The node list of a manager -/

theorem normalizeNodes_eq {nodes : List String} (h : (nodes.map normalizeEndpoint).Nodup) :
    normalizeNodes nodes = nodes.map normalizeEndpoint := by
  have hfold : ∀ (nodes acc : List String), (acc ++ nodes.map normalizeEndpoint).Nodup →
      nodes.foldl (fun normalized node =>
        if normalizeEndpoint node ∈ normalized then normalized
        else normalized ++ [normalizeEndpoint node]) acc = acc ++ nodes.map normalizeEndpoint := by
    intro nodes
    induction nodes with
    | nil => simp
    | cons node nodes ih =>
      intro acc hnd
      have hnew : normalizeEndpoint node ∉ acc := by
        intro hmem
        exact (nodup_append.mp hnd).2.2 _ hmem _ mem_cons_self rfl
      rw [foldl_cons, if_neg hnew, ih _ (by simpa using hnd)]
      simp
  exact hfold nodes [] (by simpa using h)

theorem nodes_nodup (spec : ClusterSpec n) : (spec.nodes.map normalizeEndpoint).Nodup := by
  rw [spec.listed.nodup_iff, nodup_ofFn]
  exact spec.endpoints

theorem length_nodes (spec : ClusterSpec n) : spec.nodes.length = n := by
  have hlen := spec.listed.length_eq
  rwa [length_map, length_ofFn] at hlen

/-- Leaving out a node by its id leaves out that node. -/
theorem others_advertise (spec : ClusterSpec n) (i : Fin n) (js : List (Fin n)) :
    ((js.map spec.identity).filter fun id => id.nodeId ≠ (spec.identity i).nodeId).map
        NodeIdentity.advertise =
      (js.filter fun j => decide (j ≠ i)).map fun j => (spec.identity j).advertise := by
  induction js with
  | nil => rfl
  | cons j js ih =>
    rw [map_cons]
    by_cases hj : j = i
    · rw [filter_cons_of_neg (by simp [hj]), filter_cons_of_neg (by simp [hj]), ih]
    · have hid : (spec.identity j).nodeId ≠ (spec.identity i).nodeId := fun h => hj (spec.ids h)
      rw [filter_cons_of_pos (by simpa using hid), filter_cons_of_pos (by simpa using hj),
        map_cons, map_cons, ih]

/-- **The node list of a booted node**: the others at the first boot, and all nodes later. -/
theorem Booted.nodes (hn : 0 < n) {lateri : Bool} {identity : ResolvedIdentity}
    (h : spec.Booted env i lateri identity) : identity.nodeId = (spec.identity i).nodeId ∧
      (normalizeNodes identity.nodes).Perm (((finRange n).filter fun j =>
        lateri || decide (j ≠ i)).map spec.endpoint) := by
  obtain ⟨iter, input, rounds, files, files', hrun, hnodes, hanswers, hown⟩ := h.resolved
  have hne : input.nodes ≠ [] := by
    rw [hnodes]
    refine ne_nil_of_length_pos ?_
    rw [spec.length_nodes]
    exact hn
  obtain ⟨first, rest, files₀, hboot, hid, -, -, hcase⟩ := resolveIdentity_ok hne hrun
  obtain ⟨hlocal, hlater⟩ := hown first rest files₀ hboot
  have hfirst : first.nodeId = (spec.identity i).nodeId := congrArg NodeIdentity.nodeId hlocal
  refine ⟨hid.trans hfirst, ?_⟩
  rcases hcase with hl | hf
  · -- the whole list
    have htrue : lateri = true := by
      rw [hlater, hl.members.1, hl.members.2]
      rfl
    rw [hl.nodes, hnodes, normalizeNodes_eq spec.nodes_nodup, htrue]
    simp only [Bool.true_or, filter_true]
    refine spec.listed.trans ?_
    rw [ofFn_eq_map]
    exact List.Perm.refl _
  · -- the others, in the order in which they were found
    have hfalse : lateri = false := by
      rw [hlater]
      rcases hf.unfinished with hnone | hnone
      · rw [hnone]
        rfl
      · rw [hnone]
        simp
    obtain ⟨identities, hexchange, -, -, hpeers, -⟩ := hf.exchanged
    rw [hlocal, hnodes, spec.length_nodes] at hexchange
    obtain ⟨js, hperm, rfl⟩ := exchange_all spec.ids hanswers hexchange
    have hmap : (((js.filter fun j => decide (j ≠ i)).map fun j =>
        (spec.identity j).advertise).map normalizeEndpoint) =
        (js.filter fun j => decide (j ≠ i)).map spec.endpoint := by
      rw [map_map]
      exact map_congr_left fun j _ => by rw [Function.comp_apply, endpoint]
    have hnd : ((js.filter fun j => decide (j ≠ i)).map spec.endpoint).Nodup :=
      ((hperm.nodup_iff.mpr (nodup_finRange n)).filter _).map spec.endpoints
    rw [hpeers, hfirst, others_advertise, normalizeNodes_eq (by rw [hmap]; exact hnd), hmap, hfalse]
    exact (hperm.filter _).map _

/-! ## What a manager keeps -/

theorem refreshFromNodes_config (probe : String → Option ClusterSummary) (now : Nat)
    (m : ClusterManager) : (m.refreshFromNodes probe now).config = m.config ∧
      (m.refreshFromNodes probe now).summary.clusterId = m.summary.clusterId := by
  unfold refreshFromNodes
  simp only
  split_ifs
  · exact ⟨rfl, rfl⟩
  · exact ⟨rfl, rfl⟩

theorem refreshes_config (earlier : List ((String → Option ClusterSummary) × Nat)) :
    ∀ m : ClusterManager,
      (earlier.foldl (fun m r => m.refreshFromNodes r.1 r.2) m).config = m.config ∧
      (earlier.foldl (fun m r => m.refreshFromNodes r.1 r.2) m).summary.clusterId =
        m.summary.clusterId := by
  induction earlier with
  | nil => exact fun m => ⟨rfl, rfl⟩
  | cons r earlier ih =>
    intro m
    obtain ⟨hconfig, hid⟩ := refreshFromNodes_config r.1 r.2 m
    obtain ⟨hconfig', hid'⟩ := ih (m.refreshFromNodes r.1 r.2)
    exact ⟨hconfig'.trans hconfig, hid'.trans hid⟩

theorem new_config {config : ClusterConfig} {files : ClusterFiles} {now : Nat}
    (h : new env config files now = .ok m) : m.config = config.normalized ∧ m.summary.clusterId =
        clusterIdFor env config.normalized.nodeId config.normalized.nodes := by
  obtain ⟨loaded, -, h⟩ := Lib.except_bind_eq_ok.mp h
  dsimp only at h
  split_ifs at h
  · rw [← Except.ok.inj h]
    exact ⟨rfl, rfl⟩
  · rw [← Except.ok.inj h]
    exact ⟨rfl, rfl⟩

theorem normalizeId_uuid {s : String} (h : IsUuid s) : normalizeId s = s := by
  have htrim : trimText s = s := by
    unfold trimText
    have hdrop : s.toList.dropWhile isWhitespace = s.toList := by
      cases hl : s.toList with
      | nil => rfl
      | cons c l =>
        rw [dropWhile_cons_of_neg]
        rw [h.noSpace c (by rw [hl]; exact mem_cons_self)]
        simp
    have hrdrop : s.toList.rdropWhile isWhitespace = s.toList := by
      rw [rdropWhile_eq_self_iff]
      intro hne
      rw [h.noSpace _ (getLast_mem hne)]
      simp
    rw [trim, hdrop, show (s.toList.reverse.dropWhile isWhitespace).reverse = s.toList from hrdrop,
      String.ofList_toList]
  have hne : s.isEmpty = false := by
    rw [← Bool.not_eq_true, String.isEmpty_iff]
    rintro rfl
    exact absurd h.length (by decide)
  unfold normalizeId
  rw [htrim, hne]
  rfl

/-! ## What a round counts -/

/-- The first eight bytes of SHA-256 have no collision on the cluster texts of the nodes. -/
def DigestsDiffer (env : Env) (after : Fin n → ClusterManager) : Prop :=
  ∀ i j, shortDigest env (clusterText (after i).config.nodeId (after i).config.nodes) =
      shortDigest env (clusterText (after j).config.nodeId (after j).config.nodes) →
    clusterText (after i).config.nodeId (after i).config.nodes =
      clusterText (after j).config.nodeId (after j).config.nodes

section

variable (h : spec.Refreshed env later reach after)
include h

theorem Refreshed.config (hn : 0 < n) (i : Fin n) :
    (after i).config.nodeId = (spec.identity i).nodeId ∧
      (after i).config.nodes.Perm (((finRange n).filter fun j =>
        later i || decide (j ≠ i)).map spec.endpoint) ∧ (after i).summary.clusterId =
        clusterIdFor env (after i).config.nodeId (after i).config.nodes := by
  obtain ⟨identity, files, now, m, earlier, probe, now', hboot, hnew, hafter, -⟩ := h.round i
  obtain ⟨hid, hperm⟩ := hboot.nodes hn
  obtain ⟨hconfig, hcid⟩ := new_config hnew
  obtain ⟨hconfig₁, hcid₁⟩ := refreshes_config earlier m
  obtain ⟨hconfig₂, hcid₂⟩ := refreshFromNodes_config probe now'
    (earlier.foldl (fun m r => m.refreshFromNodes r.1 r.2) m)
  have hall : (after i).config = identity.clusterConfig.normalized := by
    rw [hafter, hconfig₂, hconfig₁, hconfig]
  rw [hall, ClusterConfig.normalized_nodeId, ClusterConfig.normalized_nodes,
    ResolvedIdentity.clusterConfig_nodeId, ResolvedIdentity.clusterConfig_nodes]
  refine ⟨?_, hperm, ?_⟩
  · rw [hid, normalizeId_uuid (spec.uuid i)]
  · rw [hafter, hcid₂, hcid₁, hcid, ClusterConfig.normalized_nodeId,
      ClusterConfig.normalized_nodes, ResolvedIdentity.clusterConfig_nodeId,
      ResolvedIdentity.clusterConfig_nodes]

/-- **No two nodes have the same cluster id.** -/
theorem Refreshed.clusterId_inj (hn : 0 < n) (hdiff : DigestsDiffer env after) {i j : Fin n}
    (hij : (after i).summary.clusterId = (after j).summary.clusterId) : i = j := by
  obtain ⟨hidi, -, hci⟩ := h.config hn i
  obtain ⟨hidj, -, hcj⟩ := h.config hn j
  rw [hci, hcj] at hij
  unfold clusterIdFor at hij
  have hdigest : shortDigest env (clusterText (after i).config.nodeId (after i).config.nodes) =
      shortDigest env (clusterText (after j).config.nodeId (after j).config.nodes) := by
    have htail := congrArg String.toList hij
    simp only [String.toList_append] at htail
    exact String.toList_inj.mp (append_cancel_left htail)
  have htext := hdiff i j hdigest
  rw [hidi, hidj] at htext
  have hprefix := append_inj_left htext
    ((spec.uuid i).length.trans (spec.uuid j).length.symm)
  exact spec.ids (utf8_inj hprefix)

/-- **A node counts itself, and at a later boot it counts itself twice.** -/
theorem Refreshed.ready_iff_quorum (hn : 0 < n) (hdiff : DigestsDiffer env after)
    (hself : ∀ i, reach i i = true) (i : Fin n) : (after i).summary.state = .ready ↔
      (after i).config.nodes.length / 2 + 1 ≤ if later i then 2 else 1 := by
  obtain ⟨-, hperm, -⟩ := h.config hn i
  obtain ⟨identity, files, now, m, earlier, probe, now', -, -, hafter, hprobe⟩ := h.round i
  set m' := earlier.foldl (fun m r => m.refreshFromNodes r.1 r.2) m with hm'
  obtain ⟨hconfig, hcid⟩ := refreshFromNodes_config probe now' m'
  rw [← hafter] at hconfig hcid
  -- a peer counts if it is the node itself
  have hcounts : ∀ j, ((probe (statusUrl (spec.endpoint j))).bind fun s =>
      if s.clusterId = m'.summary.clusterId then some (spec.endpoint j, s) else none).isSome =
        decide (j = i) := by
    intro j
    have hj := hprobe j
    by_cases hreach : reach i j = true
    · rw [if_pos hreach] at hj
      obtain ⟨s, hs, hsid⟩ := hj
      rw [hs, Option.bind_some, hsid, ← hcid]
      by_cases hji : j = i
      · rw [hji, if_pos rfl]
        simp
      · rw [if_neg fun hid => hji (h.clusterId_inj hn hdiff hid)]
        simp [hji]
    · rw [if_neg hreach] at hj
      have hji : j ≠ i := by
        rintro rfl
        exact hreach (hself j)
      rw [hj]
      simp [hji]
  have hlen : (m'.fetchPeerSummaries probe).length = if later i then 1 else 0 := by
    unfold ClusterManager.fetchPeerSummaries
    rw [length_filterMap_eq_countP, ← hconfig, hperm.countP_eq, countP_map]
    have hcongr : (((finRange n).filter fun j => later i || decide (j ≠ i)).countP
        ((fun peer => ((probe (statusUrl peer)).bind fun s =>
          if s.clusterId = m'.summary.clusterId then some (peer, s) else none).isSome) ∘
            spec.endpoint)) =
        ((finRange n).filter fun j => later i || decide (j ≠ i)).count i := by
      refine countP_congr fun j _ => ?_
      rw [Function.comp_apply, hcounts j]
      simp
    rw [hcongr]
    cases later i with
    | true =>
      rw [count_filter (by simp)]
      exact count_eq_one_of_mem (nodup_finRange n) (mem_finRange i)
    | false =>
      refine count_eq_zero_of_not_mem fun hmem => ?_
      have := (mem_filter.mp hmem).2
      simp at this
  have hreachable : m'.reachableVoters probe = if later i then 2 else 1 := by
    unfold ClusterManager.reachableVoters
    rw [hlen]
    cases later i <;> rfl
  have hquorum : m'.quorum = (after i).config.nodes.length / 2 + 1 := by
    unfold quorum
    rw [hconfig]
  rw [← hreachable, ← hquorum, hafter]
  unfold refreshFromNodes
  by_cases hlt : m'.reachableVoters probe < m'.quorum
  · rw [if_pos hlt]
    simp only [markFenced, summary, reduceCtorEq, false_iff]
    omega
  · rw [if_neg hlt]
    simp only [markReady, summary, true_iff]
    omega

/-- **Whether a node becomes ready** depends on the number of nodes and on its boot alone. -/
theorem Refreshed.ready_iff (hn : 2 ≤ n) (hdiff : DigestsDiffer env after) (hself : ∀ i, reach i i = true)
    (i : Fin n) : (after i).summary.state = .ready ↔ Eager n (later i) := by
  obtain ⟨-, hperm, -⟩ := h.config (by omega) i
  rw [h.ready_iff_quorum (by omega) hdiff hself i, hperm.length_eq, length_map]
  unfold Eager
  cases later i with
  | true =>
    simp only [Bool.true_or, filter_true, length_finRange, if_true]
    omega
  | false =>
    have hlen : ((finRange n).filter fun j => false || decide (j ≠ i)).length = n - 1 := by
      have hsplit := length_eq_length_filter_add (fun j => decide (j = i))
        (l := finRange n)
      have hone : ((finRange n).filter fun j => decide (j = i)).length = 1 := by
        rw [← countP_eq_length_filter]
        exact count_eq_one_of_mem (nodup_finRange n) (mem_finRange i)
      have hneg : ((finRange n).filter fun j => !decide (j = i)) =
          (finRange n).filter fun j => false || decide (j ≠ i) := by
        refine filter_congr fun j _ => ?_
        simp
      rw [length_finRange, hone, hneg] at hsplit
      omega
    simp only [Bool.false_eq_true, if_false]
    omega

end

/-- **When fencing works.** For any number of nodes that were started with the same node list, each
at its first boot or a later one, and any reachability in which every node reaches itself: after a
refresh round of every node, nodes without a majority are fenced and nodes that reach all are ready,
if and only if every node that becomes ready on its own (at the first boot of two nodes, or a later
boot of two or three) reaches a majority, and every other node misses some node. -/
theorem fences_iff (hn : 2 ≤ n) (h : spec.Refreshed env later reach after)
    (hdiff : DigestsDiffer env after) (hself : ∀ i, reach i i = true) :
    Fences reach after ↔ ∀ i, (Eager n (later i) → n / 2 + 1 ≤ (reached reach i).card) ∧
      (¬ Eager n (later i) → ∃ j, reach i j = false) := by
  have hready := h.ready_iff hn hdiff hself
  constructor
  · intro hf i
    refine ⟨fun heager => ?_, fun hlazy => ?_⟩
    · by_contra hlt
      exact hf.minority i (by omega) ((hready i).mpr heager)
    · by_contra hall
      refine hlazy ((hready i).mp (hf.full i fun j => ?_))
      by_contra hj
      exact hall ⟨j, by simpa using hj⟩
  · intro hcond
    have hminority : ∀ i, (reached reach i).card < n / 2 + 1 → (after i).summary.state ≠ .ready := by
      intro i hlt hi
      have := (hcond i).1 ((hready i).mp hi)
      omega
    refine ⟨hminority, ?_, fun i hall => ?_⟩
    · rintro i j hdisjoint ⟨hi, hj⟩
      -- two majorities have a common node
      have hcard : (reached reach i).card + (reached reach j).card ≤ n := by
        rw [← Finset.card_union_of_disjoint hdisjoint]
        exact (Finset.card_le_univ _).trans_eq (Fintype.card_fin n)
      have hmi := (hcond i).1 ((hready i).mp hi)
      have hmj := (hcond j).1 ((hready j).mp hj)
      omega
    · by_contra hi
      obtain ⟨j, hj⟩ := (hcond i).2 fun heager => hi ((hready i).mpr heager)
      rw [hall j] at hj
      cases hj

/-! ### Two nodes that do not reach each other -/

/-- Two nodes with a disk each. -/
def pairSpec : ClusterSpec 2 where
  identity i :=
    if i = 0 then ⟨"11111111-1111-4111-8111-111111111111", "http://node1:10000", [⟨"vol-1", 0, "/d1"⟩]⟩
    else ⟨"22222222-2222-4222-8222-222222222222", "http://node2:10000", [⟨"vol-2", 0, "/d1"⟩]⟩
  nodes := ["http://node1:10000", "http://node2:10000"]
  uuid i := by
    match i with
    | 0 => exact isUuid_of_all (by decide +kernel) (by decide +kernel)
    | 1 => exact isUuid_of_all (by decide +kernel) (by decide +kernel)
  ids := by decide +kernel
  endpoints := by decide +kernel
  listed := by decide +kernel

/-- SHA-256 on what they hash. -/
def pairEnv : Env := .ofSha256 fun data =>
  if data = utf8 "11111111-1111-4111-8111-111111111111http://node1:10000http://node2:10000" then
    "22e5caef54ef417efd5023aac65cfc17fdb8b95a736703c82a1c2832561f3614"
  else if data = utf8 "11111111-1111-4111-8111-111111111111/d1" then
    "05929f4dabfe9cbbeb609663d0052100082aea2f895b4f646e3145d50980e4ef"
  else if data = utf8 "22222222-2222-4222-8222-222222222222http://node1:10000http://node2:10000" then
    "50dd8306ea11f31246a73a2d3334f071112164d4a25f450e73d0bc39a92284b7"
  else if data = utf8 "22222222-2222-4222-8222-222222222222/d1" then
    "635fdab6c21e4ccdbac0a7a854e1d78c0a441776e25f8f652729f097bbb5051c"
  else ""

/-- The volumes as the first boot left them. -/
def pairFormat (i : Fin 2) : VolumeFormat where
  version := 1
  clusterId := some "abixio-pair"
  nodeId := (pairSpec.identity i).nodeId
  volumeId := if i = 0 then "vol-1" else "vol-2"
  volumeIndex := 0
  createdAt := 0
  cluster := some (buildMembers [pairSpec.identity 0, pairSpec.identity 1])

def pairFiles (i : Fin 2) : VolumeFiles := fun path =>
  if path = "/d1" then some (.format (pairFormat i)) else none

def pairInput (i : Fin 2) : BootInput where
  paths := ["/d1"]
  host := if i = 0 then "node1" else "node2"
  listen := ":10000"
  nodes := pairSpec.nodes
  freshNode := ""
  freshVolume _ := ""
  now := 0

/-- Every node reaches itself only. -/
def pairReach (i j : Fin 2) : Bool := decide (i = j)

/-- A later boot of both nodes and a refresh round of each. -/
theorem pair_refreshed : ∃ after : Fin 2 → ClusterManager,
    pairSpec.Refreshed pairEnv (fun _ => true) pairReach after ∧ DigestsDiffer pairEnv after := by
  have hboot : ∀ i, (bootFormats (pairInput i) (pairFiles i)).map Prod.fst = .ok [pairFormat i] := by
    decide +kernel
  have hlocal : ∀ i, localIdentity [pairFormat i] ["/d1"] (pairFormat i).nodeId
      (deriveAdvertise (pairInput i).host (pairInput i).listen) = pairSpec.identity i := by
    decide +kernel
  -- both boots, run
  have hstarted : ∀ i, ((resolveIdentity pairEnv id (pairInput i) [] (pairFiles i)).toOption.join.bind
      fun r => (new pairEnv r.1.clusterConfig (fun _ => none) 0).toOption.map fun m =>
        (m.config.nodeId, m.config.nodes)) = some ((pairSpec.identity i).nodeId, pairSpec.nodes) := by
    decide +kernel
  simp only [Option.bind_eq_some_iff, Option.join_eq_some_iff, Option.map_eq_some_iff,
    Lib.except_toOption_eq_some, Prod.mk.injEq] at hstarted
  choose r hrun m hm hid hnodes using hstarted
  -- a node answers its own status request
  have hurls : ∀ i j, statusUrl (pairSpec.endpoint j) =
      statusUrl (pairSpec.endpoint i) ↔ i = j := by
    decide +kernel
  refine ⟨fun i => (m i).refreshFromNodes (fun url =>
      if url = statusUrl (pairSpec.endpoint i) then some (m i).summary else none) 1,
    ⟨fun i => ⟨(r i).1, fun _ => none, 0, m i, [], _, 1, ⟨?_⟩, hm i, rfl, fun j => ?_⟩⟩,
    fun i j => ?_⟩
  · refine ⟨id, pairInput i, [], pairFiles i, (r i).2, hrun i, rfl, fun answer h => ?_, ?_⟩
    · cases h
    · intro first rest files₀ hfirst
      have hformats := hboot i
      rw [hfirst, Except.map, Except.ok.injEq] at hformats
      obtain ⟨rfl, rfl⟩ := cons.inj hformats
      exact ⟨hlocal i, rfl⟩
  · unfold pairReach
    by_cases hij : i = j
    · rw [if_pos (decide_eq_true hij), if_pos ((hurls i j).mpr hij)]
      refine ⟨_, rfl, ?_⟩
      rw [(refreshFromNodes_config _ _ _).2, hij]
    · rw [if_neg (by simpa using hij), if_neg fun h => hij ((hurls i j).mp h)]
  · simp only [(refreshFromNodes_config _ _ _).1, hid, hnodes]
    revert i j
    decide +kernel

/-- Fencing fails for them. -/
theorem fences_iff_pair : ∃ after : Fin 2 → ClusterManager,
    pairSpec.Refreshed pairEnv (fun _ => true) pairReach after ∧ ¬ Fences pairReach after := by
  obtain ⟨after, hafter, hdiff⟩ := pair_refreshed
  refine ⟨after, hafter, fun hf => ?_⟩
  have hcond := (fences_iff (Nat.le_refl 2) hafter hdiff (by decide)).mp hf
  exact absurd ((hcond 0).1 (by decide)) (by decide)

/-- **Split brain.** Two nodes at a later boot that reach only themselves are both ready. -/
theorem isolated_pair_ready : ∃ after : Fin 2 → ClusterManager,
    pairSpec.Refreshed pairEnv (fun _ => true) pairReach after ∧
      Disjoint (reached pairReach 0) (reached pairReach 1) ∧
      (after 0).summary.state = .ready ∧ (after 1).summary.state = .ready := by
  obtain ⟨after, hafter, hdiff⟩ := pair_refreshed
  have hready := hafter.ready_iff (Nat.le_refl 2) hdiff (by decide)
  exact ⟨after, hafter, by decide, (hready 0).mpr (by decide), (hready 1).mpr (by decide)⟩

end ClusterSpec

end Abixio
