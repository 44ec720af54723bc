import Abixio.Lib.RoundRobin
import Abixio.Storage.Metadata

/-!
# Shard placement

Model of `src/cluster/placement.rs`. A planner holds the disks of a pool of `n` backends; `plan`
picks `data + parity` of them for a key, taking one disk per node and round.

* `backend_index` is a `Fin n`: the pool indexes its backends with it. No two disks of a pool's
  planner share one, which `VolumePool::new` guarantees by numbering its backends, and which is the
  field `nodup` of `PoolPlanner`.
* `per_node` is a `BTreeMap`, so `nodes` lists the node ids sorted and once each, and a node's
  disks stay in the planner's order.
* `stable_order` sorts by the hex SHA-256 of a salt, stably. Nothing about the digest is used.
* The `while` loop runs at most `total` rounds that place something, which is its fuel.

Results: `chosen_eq` (the loop takes the first `total` disks of the round-robin order) and
`plan_ok` (a plan has `total` shards, on distinct disks of the planner).
-/

namespace Abixio

open Lib List

variable {n : Nat}

/-- `PlacementVolume`. -/
structure PlacementVolume (n : Nat) where
  backendIndex : Fin n
  nodeId : String
  volumeId : String
  deriving DecidableEq

/-- `PlacementShard`. -/
structure PlacementShard (n : Nat) where
  index : Nat
  backendIndex : Fin n
  nodeId : String
  volumeId : String
  deriving DecidableEq

/-- `PlacementRecord`. -/
structure PlacementRecord (n : Nat) where
  epochId : Nat
  clusterId : String
  data : Nat
  parity : Nat
  shards : List (PlacementShard n)
  deriving DecidableEq

/-- The disks of the shards, in the order of the shards. -/
abbrev PlacementRecord.distribution {n : Nat} (record : PlacementRecord n) : List (Fin n) :=
  record.shards.map PlacementShard.backendIndex

/-- `PlacementPlanner`. -/
structure PlacementPlanner (n : Nat) where
  epochId : Nat
  clusterId : String
  disks : List (PlacementVolume n)

/-- The planner of a pool. -/
structure PoolPlanner (n : Nat) extends PlacementPlanner n where
  nodup : (disks.map PlacementVolume.backendIndex).Nodup

/-- `hash_hex`. -/
def hashHex (env : Env) (input : String) : String := env.sha256Hex (utf8 input)

/-- `stable_order`: a stable sort by the digest of each item's salt. -/
def stableOrder {α : Type} (env : Env) (saltFor : α → String) (items : List α) : List α :=
  items.insertionSort fun a b => hashHex env (saltFor a) ≤ hashHex env (saltFor b)

namespace PlacementPlanner

variable (env : Env) (planner : PlacementPlanner n) (bucket key : String)

/-- The string every salt of a plan contains. -/
def keyMaterial : String :=
  toString planner.epochId ++ ":" ++ planner.clusterId ++ ":" ++ bucket ++ "/" ++ key

/-- The keys of `per_node`. -/
def nodes : List String :=
  (planner.disks.map PlacementVolume.nodeId).dedup.insertionSort (· ≤ ·)

/-- `ordered_nodes`. -/
def orderedNodes : List String :=
  stableOrder env (fun nodeId => "node:" ++ planner.keyMaterial bucket key ++ ":" ++ nodeId)
    planner.nodes

/-- The entry of `ordered_disks` for one node. -/
def orderedDisks (nodeId : String) : List (PlacementVolume n) :=
  stableOrder env
    (fun disk => "disk:" ++ planner.keyMaterial bucket key ++ ":" ++ disk.volumeId)
    (Lib.classOf PlacementVolume.nodeId planner.disks nodeId)

end PlacementPlanner

/-- One pass of the `for node_id in &ordered_nodes` loop: the disks chosen so far, and whether
this round placed any. -/
def placeRound {α : Type} (total round : Nat) :
    List (List α) → List α → Bool → List α × Bool
  | [], chosen, placed => (chosen, placed)
  | disks :: rest, chosen, placed =>
    match disks[round]? with
    | none => placeRound total round rest chosen placed
    | some d =>
      if (chosen ++ [d]).length = total then (chosen ++ [d], true)
      else placeRound total round rest (chosen ++ [d]) true

/-- The `while chosen.len() < total` loop. -/
def placeLoop {α : Type} (total : Nat) (groups : List (List α)) : Nat → Nat → List α → List α
  | 0, _, chosen => chosen
  | fuel + 1, round, chosen =>
    if chosen.length < total then
      let r := placeRound total round groups chosen false
      if r.2 then placeLoop total groups fuel (round + 1) r.1 else r.1
    else chosen

namespace PlacementPlanner

variable (env : Env) (planner : PlacementPlanner n) (bucket key : String)

/-- The disks of each node in the order the rounds take them. -/
def groups : List (List (PlacementVolume n)) :=
  (planner.orderedNodes env bucket key).map (planner.orderedDisks env bucket key)

/-- The disks chosen for a key. -/
def chosen (total : Nat) : List (PlacementVolume n) :=
  placeLoop total (planner.groups env bucket key) total 0 []

/-- `PlacementPlanner::plan`. The counts are `usize`s with `data + parity < 2^64`. -/
def plan (data parity : Nat) : Except String (PlacementRecord n) :=
  if data = 0 then .error "data shards must be >= 1"
  else if data + parity = 0 then .error "at least one shard is required"
  else if planner.disks.length < data + parity then
    .error ("need " ++ toString (data + parity) ++ " disks for placement, only " ++
      toString planner.disks.length ++ " available")
  else
    let chosen := planner.chosen env bucket key (data + parity)
    if chosen.length ≠ data + parity then
      .error ("unable to place " ++ toString (data + parity) ++ " shards across " ++
        toString planner.disks.length ++ " disks")
    else .ok {
      epochId := planner.epochId
      clusterId := planner.clusterId
      data := data
      parity := parity
      shards := chosen.mapIdx fun index disk =>
        ⟨index, disk.backendIndex, disk.nodeId, disk.volumeId⟩ }

end PlacementPlanner

/-! ## The loop takes the round-robin order -/

section Loop

variable {α : Type}

/-- A round appends what it takes from its layer, up to the total. -/
theorem placeRound_eq {total round : Nat} :
    ∀ (groups : List (List α)) (chosen : List α) (placed : Bool), chosen.length < total →
      placeRound total round groups chosen placed =
        (chosen ++ (layer groups round).take (total - chosen.length),
          placed || !(layer groups round).isEmpty)
  | [], chosen, placed, _ => by simp [placeRound, layer]
  | disks :: rest, chosen, placed, h => by
    unfold placeRound
    rw [layer_cons]
    cases hd : disks[round]? with
    | none => simpa using placeRound_eq rest chosen placed h
    | some d =>
      have hlen : (chosen ++ [d]).length = chosen.length + 1 := by simp
      simp only [Option.toList_some, cons_append, nil_append]
      obtain ⟨t, ht⟩ : ∃ t, total - chosen.length = t + 1 := ⟨total - chosen.length - 1, by omega⟩
      rw [ht, take_succ_cons]
      by_cases he : (chosen ++ [d]).length = total
      · have : t = 0 := by omega
        rw [if_pos he, this]
        simp
      · rw [if_neg he, placeRound_eq rest (chosen ++ [d]) true (by omega),
          show total - (chosen ++ [d]).length = t by omega]
        simp

/-- The loop with enough fuel, started after the first `round` rounds. It stops with the total, or when
every group is used up. -/
theorem placeLoop_eq {total : Nat} {groups : List (List α)} :
    ∀ (fuel round : Nat) (chosen : List α), total - chosen.length ≤ fuel →
      chosen = (interleave groups round).take total →
      ∃ R, placeLoop total groups fuel round chosen = (interleave groups R).take total ∧
        (total ≤ (interleave groups R).length ∨ ∀ g ∈ groups, g.length ≤ R)
  | 0, round, chosen, hfuel, hc => by
    refine ⟨round, hc, Or.inl ?_⟩
    have hlen := congrArg length hc
    rw [length_take] at hlen
    omega
  | fuel + 1, round, chosen, hfuel, hc => by
    unfold placeLoop
    by_cases hlt : chosen.length < total
    · rw [if_pos hlt, placeRound_eq groups chosen false hlt]
      have hfull : chosen = interleave groups round := by
        rw [hc, length_take] at hlt
        rw [hc, take_of_length_le (by omega)]
      have hnext : chosen ++ (layer groups round).take (total - chosen.length) =
          (Lib.interleave groups (round + 1)).take total := by
        rw [interleave_succ, take_append, ← hfull, take_of_length_le (Nat.le_of_lt hlt)]
      simp only [Bool.false_or]
      split
      · rename_i hp
        refine placeLoop_eq fuel (round + 1) _ ?_ hnext
        have hpos : 0 < (layer groups round).length := by
          cases hl : layer groups round with
          | nil => simp [hl] at hp
          | cons => simp
        rw [length_append, length_take]
        omega
      · rename_i hp
        refine ⟨round + 1, hnext, Or.inr fun g hg => ?_⟩
        have hempty : layer groups round = [] := by simpa using hp
        have hnone := filterMap_eq_nil_iff.mp hempty g hg
        exact Nat.le_succ_of_le (getElem?_eq_none_iff.mp hnone)
    · rw [if_neg hlt]
      refine ⟨round, hc, Or.inl ?_⟩
      have hlen := congrArg length hc
      rw [length_take] at hlen
      omega

end Loop

variable {data parity : Nat}

namespace PlacementPlanner

variable {env : Env} {planner : PlacementPlanner n} {bucket key : String}

theorem chosen_eq (env : Env) (planner : PlacementPlanner n) (bucket key : String) (total : Nat) :
    ∃ R, planner.chosen env bucket key total =
        (interleave (planner.groups env bucket key) R).take total ∧
      (total ≤ (interleave (planner.groups env bucket key) R).length ∨
        ∀ g ∈ planner.groups env bucket key, g.length ≤ R) :=
  placeLoop_eq total 0 [] (by simp) (by simp [Lib.interleave])

theorem orderedNodes_nodup (env : Env) (planner : PlacementPlanner n) (bucket key : String) :
    (planner.orderedNodes env bucket key).Nodup := by
  have hperm : (planner.orderedNodes env bucket key).Perm
      (planner.disks.map PlacementVolume.nodeId).dedup :=
    (perm_insertionSort _ _).trans (perm_insertionSort _ _)
  exact hperm.nodup_iff.mpr (nodup_dedup _)

theorem mem_orderedNodes {nodeId : String} : nodeId ∈ planner.orderedNodes env bucket key ↔
    ∃ d ∈ planner.disks, d.nodeId = nodeId := by
  unfold orderedNodes stableOrder nodes
  rw [mem_insertionSort, mem_insertionSort, mem_dedup, mem_map]

/-- The groups split the planner's disks. -/
theorem groups_perm (env : Env) (planner : PlacementPlanner n) (bucket key : String) :
    (planner.groups env bucket key).flatten.Perm planner.disks := by
  unfold groups
  have hsort : ((planner.orderedNodes env bucket key).flatMap
      (planner.orderedDisks env bucket key)).Perm
      ((planner.orderedNodes env bucket key).flatMap
        (classOf PlacementVolume.nodeId planner.disks)) :=
    List.Perm.flatMap_left _ fun _ _ => perm_insertionSort _ _
  refine hsort.trans (classes_perm _ (orderedNodes_nodup env planner bucket key) ?_)
  intro d hd
  exact mem_orderedNodes.mpr ⟨d, hd, rfl⟩

theorem chosen_subperm (env : Env) (planner : PlacementPlanner n) (bucket key : String)
    (total : Nat) : (planner.chosen env bucket key total).Subperm planner.disks := by
  obtain ⟨R, hR, -⟩ := chosen_eq env planner bucket key total
  rw [hR]
  exact (take_sublist _ _).subperm.trans
    ((interleave_subperm _ R).trans (groups_perm env planner bucket key).subperm)

/-- All shards find a disk when there are enough disks. -/
theorem chosen_length {total : Nat} (h : total ≤ planner.disks.length) :
    (planner.chosen env bucket key total).length = total := by
  obtain ⟨R, hR, hstop⟩ := chosen_eq env planner bucket key total
  have hlen : total ≤ (interleave (planner.groups env bucket key) R).length := by
    rcases hstop with hstop | hstop
    · exact hstop
    · rwa [(interleave_perm hstop).length_eq, (groups_perm env planner bucket key).length_eq]
  rw [hR, length_take]
  omega

/-- The disks of a plan over `total` shards, in the order of the shards. It does not depend on how
the shards split into data and parity. -/
def distribution (env : Env) (planner : PlacementPlanner n) (bucket key : String) (total : Nat) :
    List (Fin n) :=
  (planner.chosen env bucket key total).map PlacementVolume.backendIndex

variable {record : PlacementRecord n} (h : planner.plan env bucket key data parity = .ok record)

include h in
theorem plan_distribution : record.shards.map PlacementShard.backendIndex =
      planner.distribution env bucket key (data + parity) := by
  unfold plan at h
  simp only at h
  split_ifs at h
  cases h
  refine ext_getElem (by simp [distribution]) fun i h1 h2 => ?_
  simp [distribution]

/-- **There is a plan exactly for a data shard and no more shards than disks.** -/
theorem plan_isOk_iff : (∃ record, planner.plan env bucket key data parity = .ok record) ↔
      0 < data ∧ data + parity ≤ planner.disks.length := by
  unfold plan
  constructor
  · rintro ⟨record, h⟩
    split_ifs at h
    omega
  · rintro ⟨hd, hle⟩
    rw [if_neg (by omega), if_neg (by omega), if_neg (by omega),
      if_neg (not_not.mpr (chosen_length hle))]
    exact ⟨_, rfl⟩

include h in
/-- The same disks hold any other layout of as many shards. -/
theorem plan_layout {data' parity' : Nat} (hd : 0 < data')
    (htotal : data' + parity' = data + parity) : planner.plan env bucket key data' parity' =
      .ok { record with data := data', parity := parity' } := by
  unfold plan at h ⊢
  simp only [htotal] at h ⊢
  rw [if_neg (show ¬ data' = 0 by omega)]
  split_ifs at h ⊢
  cases h
  rfl

include h in
theorem plan_data_pos : 0 < data := by
  unfold plan at h
  split at h
  · cases h
  · omega

end PlacementPlanner

namespace PoolPlanner

open PlacementPlanner

variable {env : Env} {planner : PoolPlanner n} {bucket key : String}

/-- What a successful plan guarantees. -/
structure PlanSound (planner : PoolPlanner n) (total : Nat) (record : PlacementRecord n) :
    Prop where
  length : record.shards.length = total
  nodup : (record.shards.map PlacementShard.backendIndex).Nodup
  mem : ∀ s ∈ record.shards, ∃ d ∈ planner.disks,
    d.backendIndex = s.backendIndex ∧ d.nodeId = s.nodeId ∧ d.volumeId = s.volumeId

theorem PlanSound.length_disks {total : Nat} {record : PlacementRecord n} (h : PlanSound planner total record) :
    (record.shards.map PlacementShard.backendIndex).length = total := by
  rw [length_map, h.length]

/-- **A plan uses `data + parity` distinct disks of the planner.** -/
theorem plan_ok {record : PlacementRecord n}
    (h : planner.plan env bucket key data parity = .ok record) :
    PlanSound planner (data + parity) record := by
  have hdist := plan_distribution h
  unfold plan at h
  split at h
  · cases h
  split at h
  · cases h
  split at h
  · cases h
  simp only at h
  split at h
  · cases h
  rename_i hlen
  have hsub := chosen_subperm env planner.toPlacementPlanner bucket key (data + parity)
  cases h
  refine ⟨by simpa using hlen, ?_, ?_⟩
  · obtain ⟨l, hperm, hsublist⟩ := hsub
    rw [hdist]
    unfold distribution
    rw [← (hperm.map PlacementVolume.backendIndex).nodup_iff]
    exact planner.nodup.sublist (hsublist.map _)
  · intro s hs
    obtain ⟨i, hi, rfl⟩ := mem_iff_getElem.mp hs
    rw [length_mapIdx] at hi
    refine ⟨(planner.chosen env bucket key (data + parity))[i], hsub.subset (getElem_mem hi), ?_⟩
    simp

end PoolPlanner

end Abixio
