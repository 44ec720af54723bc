import Abixio.Cluster.Placement

/-!
# What a placement guarantees

The properties of `PlacementPlanner::plan` (`src/cluster/placement.rs:50-140`) that its tests sample,
for every list of disks with distinct volume ids.

* `diskOrder` is the order in which the rounds take the disks of a planner. A plan takes the first
  `data + parity` of them (`chosen_eq_take`), so plans for fewer shards are prefixes of plans for
  more.
* The nodes are sorted before they are ordered by digest, and the disks of a node have distinct
  salts. So if no two salts have the same digest (`DigestsDiffer`), the order is the same for every
  order of the disk list (`groups_of_perm`).
* The rounds are fair to the nodes (`Lib.interleave_take_fair`).
-/

namespace Abixio

open List

variable {data parity : Nat}

namespace PlacementPlanner

variable {n : Nat}

/-- The order in which the rounds take the disks. -/
def diskOrder (env : Env) (planner : PlacementPlanner n) (bucket key : String) :
    List (PlacementVolume n) :=
  Lib.interleave (planner.groups env bucket key) planner.disks.length

/-- The strings that `plan` hashes. -/
def salts (planner : PlacementPlanner n) (bucket key : String) : List String :=
  planner.nodes.map (fun nodeId => "node:" ++ planner.keyMaterial bucket key ++ ":" ++ nodeId) ++
    planner.disks.map fun disk =>
      "disk:" ++ planner.keyMaterial bucket key ++ ":" ++ disk.volumeId

/-- SHA-256 has no collision on the salts of a plan. -/
def DigestsDiffer (env : Env) (planner : PlacementPlanner n) (bucket key : String) : Prop :=
  ∀ a ∈ planner.salts bucket key, ∀ b ∈ planner.salts bucket key,
    hashHex env a = hashHex env b → a = b

/-- The number of shards on a node. -/
def shardsOn (nodeId : String) (shards : List (PlacementShard n)) : Nat :=
  shards.countP fun s => s.nodeId = nodeId

variable {env : Env} {planner : PlacementPlanner n} {bucket key : String}

/-! ## The order of the disks -/

theorem mem_orderedDisks {nodeId : String} {d : PlacementVolume n} :
    d ∈ planner.orderedDisks env bucket key nodeId ↔ d ∈ planner.disks ∧ d.nodeId = nodeId := by
  unfold orderedDisks stableOrder Lib.classOf
  rw [mem_insertionSort, mem_filter, decide_eq_true_eq]

/-- No node has more disks than there are. -/
theorem length_le_of_mem_groups {g : List (PlacementVolume n)}
    (hg : g ∈ planner.groups env bucket key) : g.length ≤ planner.disks.length := by
  obtain ⟨nodeId, -, rfl⟩ := mem_map.mp hg
  unfold orderedDisks stableOrder Lib.classOf
  rw [length_insertionSort]
  exact length_filter_le _ _

theorem diskOrder_perm (env : Env) (planner : PlacementPlanner n) (bucket key : String) :
    (planner.diskOrder env bucket key).Perm planner.disks :=
  (Lib.interleave_perm fun _ hg => length_le_of_mem_groups hg).trans
    (groups_perm env planner bucket key)

/-- **A plan takes the first disks of the order.** -/
theorem chosen_eq_take {total : Nat} (h : total ≤ planner.disks.length) :
    planner.chosen env bucket key total = (planner.diskOrder env bucket key).take total := by
  obtain ⟨R, hR, -⟩ := chosen_eq env planner bucket key total
  have hlen : (planner.chosen env bucket key total).length = total := chosen_length h
  have hN : (planner.diskOrder env bucket key).length = planner.disks.length :=
    (diskOrder_perm env planner bucket key).length_eq
  have hle : total ≤ (Lib.interleave (planner.groups env bucket key) R).length := by
    rw [hR, length_take] at hlen
    omega
  rw [hR]
  unfold diskOrder at hN ⊢
  rcases Nat.le_total R planner.disks.length with hRN | hRN
  · obtain ⟨rest, hrest⟩ := Lib.interleave_prefix (planner.groups env bucket key) hRN
    rw [← hrest, take_append_of_le_length hle]
  · obtain ⟨rest, hrest⟩ := Lib.interleave_prefix (planner.groups env bucket key) hRN
    rw [← hrest, take_append_of_le_length (by omega)]

variable {record : PlacementRecord n} {planner' : PlacementPlanner n}

variable (h : planner.plan env bucket key data parity = .ok record)

include h in
/-- The shards of a plan are the first disks of the order, numbered. -/
theorem plan_shards : data + parity ≤ planner.disks.length ∧
      record.shards = ((planner.diskOrder env bucket key).take (data + parity)).mapIdx
        fun index disk => ⟨index, disk.backendIndex, disk.nodeId, disk.volumeId⟩ := by
  have hle := (plan_isOk_iff.mp ⟨record, h⟩).2
  refine ⟨hle, ?_⟩
  rw [← chosen_eq_take hle]
  unfold plan at h
  simp only at h
  split_ifs at h
  cases h
  rfl

include h in
/-- What the shards say of their disks. -/
theorem plan_map {γ : Type} {g : PlacementShard n → γ} {k : PlacementVolume n → γ}
    (hg : ∀ index disk, g ⟨index, disk.backendIndex, disk.nodeId, disk.volumeId⟩ = k disk) :
    record.shards.map g = ((planner.diskOrder env bucket key).take (data + parity)).map k := by
  rw [(plan_shards h).2]
  refine ext_getElem (by simp) fun i h1 h2 => ?_
  simp [hg]

/-! ## Permuted disk lists -/

theorem nodes_of_perm (hperm : planner'.disks.Perm planner.disks) :
    planner'.nodes = planner.nodes := by
  exact Lib.insertionSort_of_perm (hperm.map PlacementVolume.nodeId).dedup
    fun a _ b _ hab hba => String.le_antisymm hab hba

variable (hvol : (planner.disks.map PlacementVolume.volumeId).Nodup)
  (hdiff : planner.DigestsDiffer env bucket key)

include hvol hdiff in
/-- Two disks of a planner with the same digest are the same. -/
theorem eq_of_digest {a b : PlacementVolume n} (ha : a ∈ planner.disks) (hb : b ∈ planner.disks)
    (h : hashHex env ("disk:" ++ planner.keyMaterial bucket key ++ ":" ++ a.volumeId) =
      hashHex env ("disk:" ++ planner.keyMaterial bucket key ++ ":" ++ b.volumeId)) :
    a = b := by
  have hsalt := hdiff _ (mem_append_right _ (mem_map_of_mem ha)) _
    (mem_append_right _ (mem_map_of_mem hb)) h
  have hid : a.volumeId = b.volumeId := by
    have htail := congrArg String.toList hsalt
    simp only [String.toList_append] at htail
    exact String.toList_inj.mp (append_cancel_left htail)
  exact inj_on_of_nodup_map hvol ha hb hid

include hvol hdiff in
/-- **The order does not depend on the order of the disk list.** -/
theorem groups_of_perm (hepoch : planner'.epochId = planner.epochId)
    (hcluster : planner'.clusterId = planner.clusterId) (hperm : planner'.disks.Perm planner.disks) :
    planner'.groups env bucket key = planner.groups env bucket key := by
  have hmaterial : planner'.keyMaterial bucket key = planner.keyMaterial bucket key := by
    unfold keyMaterial
    rw [hepoch, hcluster]
  have hnodes : planner'.orderedNodes env bucket key = planner.orderedNodes env bucket key := by
    unfold orderedNodes
    rw [nodes_of_perm hperm, hmaterial]
  have hdisks : planner'.orderedDisks env bucket key = planner.orderedDisks env bucket key := by
    funext nodeId
    unfold orderedDisks
    rw [hmaterial]
    refine Lib.insertionSort_of_perm (hperm.filter _) fun a ha b hb hab hba => ?_
    exact eq_of_digest hvol hdiff (mem_filter.mp ha).1 (mem_filter.mp hb).1
      (String.le_antisymm hab hba)
  unfold groups
  rw [hnodes, hdisks]

/-! ## Plans -/

/-- **What a planner guarantees** for the placements of a key. -/
structure PlansWell (env : Env) (planner : PlacementPlanner n) (bucket key : String) : Prop where
  /-- There is a plan exactly for a data shard and no more shards than disks. -/
  isOk : ∀ data parity, (∃ record, planner.plan env bucket key data parity = .ok record) ↔
    1 ≤ data ∧ data + parity ≤ planner.disks.length
  /-- No two shards are on one disk. -/
  distinct : ∀ data parity record, planner.plan env bucket key data parity = .ok record →
    (record.shards.map PlacementShard.volumeId).Nodup
  /-- Every shard is on a disk of the list. -/
  listed : ∀ data parity record, planner.plan env bucket key data parity = .ok record →
    ∀ s ∈ record.shards, ⟨s.backendIndex, s.nodeId, s.volumeId⟩ ∈ planner.disks
  /-- A node gets two shards more than another one only if the other one has no disk left. -/
  fair : ∀ data parity record, planner.plan env bucket key data parity = .ok record → ∀ a b,
    shardsOn b record.shards + 2 ≤ shardsOn a record.shards →
      ∀ d ∈ planner.disks, d.nodeId = b → d.volumeId ∈ record.shards.map PlacementShard.volumeId
  /-- How the shards split into data and parity makes no difference. -/
  bySum : ∀ data parity record data' parity' record',
    planner.plan env bucket key data parity = .ok record →
    planner.plan env bucket key data' parity' = .ok record' →
      data + parity = data' + parity' → record.shards = record'.shards
  /-- A plan for fewer shards is the start of a plan for more. -/
  grows : ∀ data parity record data' parity' record',
    planner.plan env bucket key data parity = .ok record →
    planner.plan env bucket key data' parity' = .ok record' →
      data + parity ≤ data' + parity' → record.shards <+: record'.shards
  /-- The order of the disk list makes no difference. -/
  anyOrder : ∀ planner' : PlacementPlanner n, planner'.epochId = planner.epochId →
    planner'.clusterId = planner.clusterId → planner'.disks.Perm planner.disks → ∀ data parity,
        planner'.plan env bucket key data parity = planner.plan env bucket key data parity

theorem shards_start {data parity data' parity' : Nat} {record' : PlacementRecord n}
    (h : planner.plan env bucket key data parity = .ok record)
    (h' : planner.plan env bucket key data' parity' = .ok record')
    (hle : data + parity ≤ data' + parity') : record.shards <+: record'.shards := by
  rw [(plan_shards h).2, (plan_shards h').2, prefix_iff_eq_take]
  refine ext_getElem ?_ fun i h1 h2 => ?_
  · simp only [length_mapIdx, length_take]
    omega
  · simp only [getElem_take, getElem_mapIdx]

include h in
/-- The shards on a node are the disks of that node among those taken. -/
theorem shardsOn_eq (nodeId : String) : shardsOn nodeId record.shards =
      ((planner.diskOrder env bucket key).take (data + parity)).countP
        fun d => d.nodeId = nodeId := by
  have hmap := plan_map h (g := PlacementShard.nodeId) (k := PlacementVolume.nodeId) fun _ _ => rfl
  have hcount := congrArg (List.countP fun node : String => node = nodeId) hmap
  rw [countP_map, countP_map] at hcount
  exact hcount

include h in
theorem fair_of_plan {a b : String} (hmore : shardsOn b record.shards + 2 ≤ shardsOn a record.shards)
    {d : PlacementVolume n} (hd : d ∈ planner.disks) (hb : d.nodeId = b) :
    d ∈ (planner.diskOrder env bucket key).take (data + parity) := by
  have hle := (plan_shards h).1
  have hlen : (planner.diskOrder env bucket key).length = planner.disks.length :=
    (diskOrder_perm env planner bucket key).length_eq
  rw [shardsOn_eq h, shardsOn_eq h] at hmore
  -- a node with two shards has disks
  have ha : a ∈ planner.orderedNodes env bucket key := by
    obtain ⟨d', hd', hnode⟩ := countP_pos_iff.mp (Nat.lt_of_lt_of_le (by omega) hmore)
    exact mem_orderedNodes.mpr ⟨d', (diskOrder_perm env planner bucket key).mem_iff.mp
      (mem_of_mem_take hd'), of_decide_eq_true hnode⟩
  have hb' : b ∈ planner.orderedNodes env bucket key := mem_orderedNodes.mpr ⟨d, hd, hb⟩
  refine Lib.interleave_take_fair (f := planner.orderedDisks env bucket key)
    (fun k _ x hx => (mem_orderedDisks.mp hx).2)
    (orderedNodes_nodup env planner bucket key) ha hb' (hle.trans hlen.ge) hmore d ?_
  exact mem_orderedDisks.mpr ⟨hd, hb⟩

/-- **Placement is correct** for every list of disks with distinct volume ids. -/
theorem plans_well (hvol : (planner.disks.map PlacementVolume.volumeId).Nodup)
    (hdiff : planner.DigestsDiffer env bucket key) : planner.PlansWell env bucket key := by
  have hperm := diskOrder_perm env planner bucket key
  refine ⟨fun data parity => plan_isOk_iff, fun data parity record h => ?_,
    fun data parity record h s hs => ?_, fun data parity record h a b hmore d hd hb => ?_,
    fun data parity record data' parity' record' h h' hsum => ?_,
    fun data parity record data' parity' record' h h' hle => shards_start h h' hle,
    fun planner' hepoch hcluster hdisks data parity => ?_⟩
  · rw [plan_map h fun _ _ => rfl]
    refine List.Nodup.sublist ((take_sublist _ _).map _) ?_
    exact (hperm.map PlacementVolume.volumeId).nodup_iff.mpr hvol
  · rw [(plan_shards h).2] at hs
    obtain ⟨i, hi, rfl⟩ := mem_iff_getElem.mp hs
    rw [getElem_mapIdx]
    exact hperm.mem_iff.mp (mem_of_mem_take (getElem_mem _))
  · rw [plan_map h fun _ _ => rfl]
    exact mem_map_of_mem (fair_of_plan h hmore hd hb)
  · refine List.IsPrefix.eq_of_length (shards_start h h' hsum.le) ?_
    rw [(plan_shards h).2, (plan_shards h').2, hsum]
  · have hgroups := groups_of_perm hvol hdiff hepoch hcluster hdisks
    unfold plan chosen
    rw [hgroups, hdisks.length_eq, hepoch, hcluster]

/-! ### Two nodes of different size -/

/-- One node with three disks and one with a single disk. -/
def unevenPlanner : PlacementPlanner 4 where
  epochId := 7
  clusterId := "set-a"
  disks := [⟨0, "n1", "d1"⟩, ⟨1, "n1", "d2"⟩, ⟨2, "n1", "d3"⟩, ⟨3, "n2", "d4"⟩]

/-- SHA-256 on the salts of `bucket/alpha`. -/
def unevenEnv : Env := .ofSha256 fun data =>
  if data = utf8 "node:7:set-a:bucket/alpha:n1" then
    "889ce5ec43b798c039096aaa9dd5961752b1f6b3e8174f86af19f00db2c7e656"
  else if data = utf8 "node:7:set-a:bucket/alpha:n2" then
    "aa2f197200c95cd22cee6e4b41c1e005fdfa6f8c19fb10fe9dfc63e7f4722f1d"
  else if data = utf8 "disk:7:set-a:bucket/alpha:d1" then
    "7e2c536ca302beb5f91324f40bba83a906d9bccfd3da3561ec49fe4972065175"
  else if data = utf8 "disk:7:set-a:bucket/alpha:d2" then
    "41ee46313175b1a595af15c2f26a6478fb48da43e38e5241144310619805e580"
  else if data = utf8 "disk:7:set-a:bucket/alpha:d3" then
    "d05a77b85d976b16cde122c8243ed3a504858c999a51daacf36c60c293c3f3f0"
  else if data = utf8 "disk:7:set-a:bucket/alpha:d4" then
    "035419d54be5a7c260f05cdfce7308468f8ef91ccf0e677367a7ccbc28a34fb1"
  else ""

/-- The plan of four shards takes `d2`, then the only disk of the other node, then the rest. -/
theorem plans_well_uneven : unevenPlanner.PlansWell unevenEnv "bucket" "alpha" ∧
      (unevenPlanner.plan unevenEnv "bucket" "alpha" 3 1).map (fun record =>
        record.shards.map PlacementShard.volumeId) = .ok ["d2", "d4", "d1", "d3"] := by
  have hdiff : unevenPlanner.DigestsDiffer unevenEnv "bucket" "alpha" := by
    unfold DigestsDiffer
    decide +kernel
  exact ⟨plans_well (by decide) hdiff, by decide +kernel⟩

end PlacementPlanner

end Abixio
