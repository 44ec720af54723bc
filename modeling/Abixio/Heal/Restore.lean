import Abixio.Heal.Plan
import Abixio.Storage.Generations

/-!
# Heal restores an object

`heal_object` (`src/heal/worker.rs:38-147`) on an object of one PUT of which some disks lost their
shard. The damage is a set of planned disks that return nothing, or their own metadata with a shard
that fails its checksum (`ShardsLost`).

* The metadata of all shards agree, so they are one group of the vote (`ObjectReads.healsTo`).
* The shards of a body are those of its blocks, end to end. Encoding works column by column, so they
  are an encoding as a whole (`encodes_encodeObject`), and rebuilding them at once is right.
* The ids in the metadata are those of the planned disks, so that a repair finds its way back
  (`repairTarget_planned`).

`healObject_restores`: with at most `parity_n` disks damaged, a heal repairs exactly those, all reads
are what they were before the damage, and a second heal finds nothing to do.
-/

namespace Abixio

open List
open PlacementShard (backendIndex volumeId)
open Backend (readShard volumeId writeShard)

variable {V W : Type} [Backend V W] {n : Nat} {env : Env} {planner : PoolPlanner n} {bucket key : String}
  {dataN parityN : Nat} {record : PlacementRecord n} {distribution : List (Fin n)} {lost : Finset (Fin n)}
  {req : PutRequest} {body : Bytes}

/-! ## The shards of a body -/

/-- The shards of a body are an encoding. -/
theorem encodes_encodeObject (env : Env) (dataN parityN : Nat) (body : Bytes) :
    Encodes env dataN parityN (shardLength dataN body) (encodeObject env dataN parityN body) := by
  obtain ⟨data, hlen, -, henc⟩ := encodeObject_encoding env dataN parityN body
  refine ⟨encodeObject_length _, fun r hr => length_of_mem_encodeObject hr, ?_⟩
  have htake : (encodeObject env dataN parityN body).take dataN = data := by
    rw [henc]
    unfold Lib.encodeRows
    rw [← hlen, take_left]
  rw [htake, henc]

/-! ## The disks of the repairs -/

variable {consensus : ObjectMeta}

section Targets

variable {disks : Disks V n}

/-- The planner knows the disks by the ids they report, and no two disks report the same id. -/
structure PlannerIds (planner : PoolPlanner n) (disks : Disks V n) : Prop where
  known : ∀ v ∈ planner.disks, volumeId (disks v.backendIndex) = v.volumeId
  distinct : Function.Injective fun d => volumeId (disks d)

theorem volIndex_eq (hinj : Function.Injective fun d => volumeId (disks d)) (d : Fin n) :
    volIndex disks (volumeId (disks d)) = some d := by
  unfold volIndex
  cases hfind : (finRange n).reverse.find? fun d' =>
      decide (volumeId (disks d') = volumeId (disks d)) with
  | none =>
    have hnone := find?_eq_none.mp hfind d (by simp)
    simp at hnone
  | some d' =>
    have hsome := find?_some hfind
    rw [decide_eq_true_eq] at hsome
    rw [hinj hsome]

/-- **A repair goes to the disk its shard was planned for.** -/
theorem repairTarget_planned (hids : PlannerIds planner disks)
    (hplan : planner.plan env bucket key dataN parityN = .ok record)
    (hvols : consensus.erasure.volumeIds = record.shards.map volumeId) {i : Nat}
    {d : Fin n} (hd : record.distribution[i]? = some d) :
    repairTarget disks consensus i = some d := by
  rw [getElem?_map, Option.map_eq_some_iff] at hd
  obtain ⟨shard, hshard, rfl⟩ := hd
  obtain ⟨v, hv, hindex, -, hvid⟩ :=
    (PoolPlanner.plan_ok hplan).mem shard (mem_of_getElem? hshard)
  have hid : volumeId (disks shard.backendIndex) = shard.volumeId := by
    rw [← hindex, hids.known v hv, hvid]
  unfold repairTarget
  rw [hvols, getElem?_map, hshard, Option.map_some, Option.bind_some, ← hid,
    volIndex_eq hids.distinct]

/-- No repair of a shard that belongs to a disk is skipped. -/
theorem repairTarget_isSome (disks : Disks V n) (consensus : ObjectMeta) {index : Nat}
    (h : index < n) : ∃ d, repairTarget disks consensus index = some d := by
  unfold repairTarget
  cases (consensus.erasure.volumeIds[index]?).bind (volIndex disks) with
  | some d => exact ⟨d, rfl⟩
  | none => exact ⟨⟨index, h⟩, dif_pos h⟩

/-- The writes for the missing shards, disk by disk. -/
theorem repairWrites_missing
    {keep : Nat → Bool} {rows : List Bytes} (hlen : rows.length = distribution.length)
    (htarget : ∀ i d, distribution[i]? = some d → repairTarget disks consensus i = some d) :
    repairWrites disks consensus (missingRepairs env consensus keep rows) =
      ((range rows.length).filter fun i => !keep i).filterMap fun i =>
        distribution[i]?.map fun d =>
          (d, ⟨i, rows.getD i [], repairMeta env consensus i (rows.getD i [])⟩) := by
  unfold repairWrites missingRepairs
  rw [filterMap_map]
  refine filterMap_congr fun i hi => ?_
  have hlt : i < distribution.length := by
    rw [← hlen]
    exact mem_range.mp (mem_filter.mp hi).1
  simp only [Function.comp]
  rw [getElem?_eq_getElem hlt, htarget i _ (getElem?_eq_getElem hlt)]

variable {missing : List Nat} {repair : Nat → Repair}

/-- No two of them go to one disk. -/
theorem missingWrites_nodup (hnd : distribution.Nodup) (hmissing : missing.Nodup) :
    ((missing.filterMap fun i => distribution[i]?.map fun d => (d, repair i)).map
      Prod.fst).Nodup := by
  rw [map_filterMap]
  refine hmissing.filterMap fun i j d hi hj => ?_
  simp only [Option.mem_def, Option.map_map, Option.map_eq_some_iff, Function.comp] at hi hj
  obtain ⟨a, ha, rfl⟩ := hi
  obtain ⟨b, hb, rfl⟩ := hj
  obtain ⟨hi, ha⟩ := List.getElem?_eq_some_iff.mp ha
  obtain ⟨hj, hb⟩ := List.getElem?_eq_some_iff.mp hb
  exact (hnd.getElem_inj_iff).mp (ha.trans hb.symm)

theorem mem_missingWrites {w : Fin n × Repair} :
    w ∈ (missing.filterMap fun i => distribution[i]?.map fun d => (d, repair i)) ↔
      ∃ i ∈ missing, distribution[i]? = some w.1 ∧ w.2 = repair i := by
  obtain ⟨d, r⟩ := w
  simp only [mem_filterMap, Option.map_eq_some_iff, Prod.mk.injEq]
  constructor
  · rintro ⟨i, hi, d', hd, rfl, rfl⟩
    exact ⟨i, hi, hd, rfl⟩
  · rintro ⟨i, hi, hd, rfl⟩
    exact ⟨i, hi, d, hd, rfl, rfl⟩

theorem missingWrites_length (hlt : ∀ i ∈ missing, i < distribution.length) :
    (missing.filterMap fun i => distribution[i]?.map fun d => (d, repair i)).length =
      missing.length := by
  induction missing with
  | nil => rfl
  | cons i missing ih =>
    have hi := hlt i mem_cons_self
    rw [filterMap_cons, getElem?_eq_getElem hi]
    simp only [Option.map_some, length_cons]
    rw [ih fun j hj => hlt j (mem_cons_of_mem _ hj)]

/-- Writing any shard of the key on this disk succeeds. -/
def Writable (bucket key : String) (v : V) : Prop :=
  ∀ data o, (writeShard bucket key data o v).1 = .ok ()

section

variable {s : Disks V n} {keep : Nat → Bool} {rows : List Bytes} (hb : ValidBucket bucket) (hk : ValidKey key)
  (hplan : healPlan env (healReads bucket key s) =
    .ok (.repair consensus (missingRepairs env consensus keep rows)))
  (hnd : distribution.Nodup) (hlen : rows.length = distribution.length)
  (htarget : ∀ i d, distribution[i]? = some d → repairTarget s consensus i = some d)
include hb hk hplan hnd hlen htarget

/-- **A heal that repairs the positions that are not kept** writes each of them to its disk, once, and
leaves the other disks alone. -/
theorem healObject_missing_disks : ∃ (fixed : List Bool) (u : Disks V n),
    healObject env bucket key s = (.ok (.repaired (fixed.filter id).length), u) ∧
      fixed.length = ((range rows.length).filter fun i => !keep i).length ∧
      (∀ ok ∈ fixed, ∃ i d, distribution[i]? = some d ∧ keep i = false ∧ ok = (writeShard bucket key
        (rows.getD i []) (repairMeta env consensus i (rows.getD i [])) (s d)).1.isOk) ∧
      (∀ i d, distribution[i]? = some d → keep i = false → u d = (writeShard bucket key (rows.getD i [])
        (repairMeta env consensus i (rows.getD i [])) (s d)).2) ∧
      ∀ d, (∀ i, distribution[i]? = some d → keep i = true) → u d = s d := by
  set missing := (range rows.length).filter fun i => !keep i with hmissing
  have hmem : ∀ i, i ∈ missing ↔ i < distribution.length ∧ keep i = false := by
    intro i
    rw [hmissing, mem_filter, mem_range, hlen]
    simp
  obtain ⟨fixed, u, hrun⟩ := writeRepairs_total bucket key
    (repairWrites s consensus (missingRepairs env consensus keep rows)) s
  rw [healObject_eq hb hk s, hplan]
  simp only
  rw [Lib.Act.bind_ok hrun]
  rw [repairWrites_missing hlen htarget, ← hmissing] at hrun
  obtain ⟨hfixed, hwritten, hframe⟩ :=
    writeRepairs_spec (missingWrites_nodup hnd (nodup_range.filter _)) hrun
  refine ⟨fixed, u, rfl, ?_, fun ok hok => ?_, fun i d hd hkeep => ?_, fun d hd => hframe d fun hin => ?_⟩
  · rw [hfixed, length_map, missingWrites_length fun i hi => ((hmem i).mp hi).1]
  · rw [hfixed] at hok
    obtain ⟨w, hw, rfl⟩ := mem_map.mp hok
    obtain ⟨i, hi, hd, hrepair⟩ := mem_missingWrites.mp hw
    exact ⟨i, w.1, hd, ((hmem i).mp hi).2, by rw [hrepair]⟩
  · have hi : i ∈ missing := (hmem i).mpr ⟨(List.getElem?_eq_some_iff.mp hd).1, hkeep⟩
    exact hwritten (d, ⟨i, rows.getD i [], repairMeta env consensus i (rows.getD i [])⟩)
      (mem_missingWrites.mpr ⟨i, hi, hd, rfl⟩)
  · obtain ⟨w, hw, rfl⟩ := mem_map.mp hin
    obtain ⟨i, hi, hdi, -⟩ := mem_missingWrites.mp hw
    have hkeep := hd i hdi
    rw [((hmem i).mp hi).2] at hkeep
    cases hkeep

/-- When the writes succeed they are all counted. -/
theorem healObject_missing
    (hwrite : ∀ i d, distribution[i]? = some d → keep i = false →
      (writeShard bucket key (rows.getD i []) (repairMeta env consensus i (rows.getD i []))
        (s d)).1 = .ok ()) : ∃ u, healObject env bucket key s =
        (.ok (.repaired ((range rows.length).filter fun i => !keep i).length), u) ∧
      (∀ i d, distribution[i]? = some d → keep i = false → writeShard bucket key (rows.getD i [])
          (repairMeta env consensus i (rows.getD i [])) (s d) = (.ok (), u d)) ∧
      ∀ d, (∀ i, distribution[i]? = some d → keep i = true) → u d = s d := by
  obtain ⟨fixed, u, hheal, hcount, hfixed, hwritten, hframe⟩ :=
    healObject_missing_disks hb hk hplan hnd hlen htarget
  have htrue : fixed.filter id = fixed := by
    rw [filter_eq_self]
    intro ok hok
    obtain ⟨i, d, hd, hkeep, rfl⟩ := hfixed ok hok
    rw [hwrite i d hd hkeep]
    rfl
  rw [htrue, hcount] at hheal
  exact ⟨u, hheal, fun i d hd hkeep => Prod.ext (hwrite i d hd hkeep) (hwritten i d hd hkeep).symm, hframe⟩

end

end Targets

/-! ## One object on the disks -/

section Object

variable {reads : Fin n → ShardRead} {rows : List Bytes} {metas : Nat → ObjectMeta} {k m : Nat}

/-- What the healer sees of what the disks return. -/
def healReadsOf (reads : Fin n → ShardRead) : List HealRead :=
  (finRange n).map fun d => (reads d).toOption

theorem mem_healReadsOf {data : Bytes} {o : ObjectMeta} :
    some (data, o) ∈ healReadsOf reads ↔ ∃ d, reads d = .ok (data, o) := by
  unfold healReadsOf
  simp only [mem_map, mem_finRange, true_and]
  refine exists_congr fun d => ?_
  cases reads d with
  | error e => simp [Except.toOption]
  | ok p => simp [Except.toOption]

theorem mem_readMetas {reads : List HealRead} {o : ObjectMeta} :
    o ∈ readMetas reads ↔ ∃ data, some (data, o) ∈ reads := by
  unfold readMetas
  simp [mem_filterMap]

/-- The first answer is a metadata that was read. -/
theorem first_mem {reads : List HealRead} {data : Bytes} {fst : ObjectMeta}
    (h : reads.findSome? id = some (data, fst)) : fst ∈ readMetas reads := by
  obtain ⟨x, hx, hid⟩ := exists_of_findSome?_eq_some h
  subst hid
  exact mem_readMetas.mpr ⟨data, hx⟩

/-- As many metadata are read as disks return a valid shard, or more. -/
theorem valid_count_le (env : Env) (reads : Fin n → ShardRead) :
    (Finset.univ.filter fun d => (reads d).valid env = true).card ≤
      (readMetas (healReadsOf reads)).length := by
  have hlen : (readMetas (healReadsOf reads)).length =
      ((finRange n).filter fun d => (reads d).toOption.isSome).length := by
    unfold readMetas healReadsOf
    induction finRange n with
    | nil => rfl
    | cons d ds ih =>
      cases hd : (reads d).toOption with
      | none => simpa [hd] using ih
      | some p => simpa [hd] using ih
  rw [hlen, ← toFinset_card_of_nodup ((nodup_finRange n).filter _)]
  refine Finset.card_le_card fun d hd => ?_
  rw [mem_toFinset, mem_filter]
  refine ⟨mem_finRange d, ?_⟩
  have hvalid := (Finset.mem_filter.mp hd).2
  cases hread : reads d with
  | error e =>
    rw [hread] at hvalid
    cases hvalid
  | ok p => rfl

variable (hmeta : ∀ d data o, reads d = .ok (data, o) → ∃ i, o = metas i)
  (hsame : ∀ i j, (metas i).quorumEq (metas j) = true)
  (hlayout : ∀ i, (metas i).erasure.data = k ∧ (metas i).erasure.parity = m) (hlen : rows.length = k + m)
  (hk : 0 < k)

/-- The survivors of an object that lost some of its own disks. -/
theorem survives_count_eq (hnd : distribution.Nodup) (hlost : ∀ d ∈ lost, d ∈ distribution) :
    ((range distribution.length).filter (survives distribution lost)).length + lost.card =
      distribution.length := by
  have hadd := survives_count_add hnd lost
  rwa [Finset.filter_true_of_mem hlost] at hadd

include hmeta hsame hlayout hlen hk in
/-- **One object wins the vote**, and its shards are those that survived. -/
theorem ObjectReads.healsTo (h : ObjectReads env reads distribution rows metas lost)
    (hcount : k ≤ ((range rows.length).filter (survives distribution lost)).length) :
    ∃ j, HealsTo env (healReadsOf reads) (metas j) k m rows ∧ ∀ i < rows.length,
        present env (metas j) (healReadsOf reads) i = survives distribution lost i := by
  have hmetas : ∀ o ∈ readMetas (healReadsOf reads), ∃ i, o = metas i := by
    intro o ho
    obtain ⟨data, hdata⟩ := mem_readMetas.mp ho
    obtain ⟨d, hd⟩ := mem_healReadsOf.mp hdata
    exact hmeta d data o hd
  -- every metadata is in one group
  have hall : ∀ i, (readMetas (healReadsOf reads)).countP (metas i).quorumEq =
      (readMetas (healReadsOf reads)).length := by
    intro i
    rw [countP_eq_length]
    intro o ho
    obtain ⟨j, rfl⟩ := hmetas o ho
    exact hsame i j
  have hvotes : k ≤ (readMetas (healReadsOf reads)).length :=
    hcount.trans ((survives_count_le h).trans (valid_count_le env reads))
  obtain ⟨o, ho⟩ := exists_mem_of_length_pos (Nat.lt_of_lt_of_le hk hvotes)
  obtain ⟨i, rfl⟩ := hmetas o ho
  have hgroup : k ≤ (readMetas (healReadsOf reads)).countP (metas i).quorumEq := by
    rw [hall]
    exact hvotes
  obtain ⟨c, hc⟩ := findConsensusMeta_isOk ho hgroup
  obtain ⟨j, rfl⟩ := hmetas c (findConsensusMeta_ok hc).1.mem
  refine ⟨j, ⟨?_, hc, hlen, ?_⟩, ?_⟩
  · cases hfirst : (healReadsOf reads).findSome? id with
    | none =>
      obtain ⟨data, hdata⟩ := mem_readMetas.mp ho
      have hnone := findSome?_eq_none_iff.mp hfirst _ hdata
      cases hnone
    | some p =>
      obtain ⟨data, fst⟩ := p
      obtain ⟨i', rfl⟩ := hmetas fst (first_mem hfirst)
      exact ⟨data, _, rfl, (hlayout i').1, (hlayout i').2⟩
  · intro data o hmem _ hv
    obtain ⟨d, hd⟩ := mem_healReadsOf.mp hmem
    obtain ⟨i', hi', -, -, rfl, rfl⟩ := h.valid_read hd hv
    rw [h.index i' hi']
  · intro i' hi'
    rw [Bool.eq_iff_iff]
    unfold present
    rw [any_eq_true]
    constructor
    · rintro ⟨read, hmem, hgood⟩
      cases read with
      | none => cases hgood
      | some p =>
        obtain ⟨data, o⟩ := p
        simp only [HealRead.good, Bool.and_eq_true, beq_iff_eq] at hgood
        obtain ⟨d, hd⟩ := mem_healReadsOf.mp hmem
        obtain ⟨l, hl, hdist, hlost, -, rfl⟩ := h.valid_read hd hgood.2
        rw [h.index l hl] at hgood
        obtain rfl := hgood.1.1
        unfold survives
        rw [hdist]
        simpa using hlost
    · intro hsurv
      unfold survives at hsurv
      cases hdist : distribution[i']? with
      | none => simp [hdist] at hsurv
      | some d =>
        rw [hdist] at hsurv
        have hread := h.kept i' d hdist (by simpa using hsurv)
        refine ⟨some (rows.getD i' [], metas i'), mem_healReadsOf.mpr ⟨d, hread⟩, ?_⟩
        simp only [HealRead.good, h.index i' hi', hsame i' j, beq_self_eq_true, Bool.true_and]
        exact h.checksum i' hi'

include hmeta hsame hlayout hlen hk in
/-- **An object that lost nothing is healthy.** -/
theorem ObjectReads.healthy (h : ObjectReads env reads distribution rows metas ∅) :
    healPlan env (healReadsOf reads) = .ok .healthy := by
  have hsurv : ∀ i < rows.length, survives distribution ∅ i = true := by
    intro i hi
    unfold survives
    rw [getElem?_eq_getElem (by rwa [h.length] at hi)]
    simp
  obtain ⟨j, hheals, hpresent⟩ := h.healsTo hmeta hsame hlayout hlen hk (by
    rw [filter_eq_self.mpr fun i hi => hsurv i (mem_range.mp hi), length_range, hlen]
    omega)
  exact hheals.plan_healthy fun i hi => (hpresent i hi).trans (hsurv i hi)

include hmeta hsame hlayout hlen hk in
/-- **What a heal decides for one object** whose shards are not empty: the lost shards are repaired. -/
theorem ObjectReads.healPlan {len : Nat} (h : ObjectReads env reads distribution rows metas lost)
    (hmem : ∀ d ∈ lost, d ∈ distribution) (hcard : lost.card ≤ m) (henc : Encodes env k m len rows)
    (hpos : 0 < len) (hmds : 0 < m → (env.code k m).Mds k m) (hrs : 0 < m → RsAccepts k m) :
    ∃ j, Abixio.healPlan env (healReadsOf reads) =
      if lost = ∅ then .ok .healthy
      else .ok (.repair (metas j) (missingRepairs env (metas j) (survives distribution lost) rows)) := by
  have hcount := survives_count_eq h.nodup hmem
  rw [← h.length] at hcount
  obtain ⟨j, hheals, hpresent⟩ := h.healsTo hmeta hsame hlayout hlen hk (by omega)
  have hfilter : (range rows.length).filter (present env (metas j) (healReadsOf reads)) =
      (range rows.length).filter (survives distribution lost) :=
    filter_congr fun i hi => hpresent i (mem_range.mp hi)
  have hmissing : missingRepairs env (metas j) (present env (metas j) (healReadsOf reads)) rows =
      missingRepairs env (metas j) (survives distribution lost) rows := by
    refine congrArg _ (filter_congr fun i hi => ?_)
    rw [hpresent i (mem_range.mp hi)]
  have hplan := hheals.plan_eq henc hmds hrs hk hpos
  rw [hfilter, hmissing] at hplan
  refine ⟨j, hplan.trans ?_⟩
  by_cases hempty : lost = ∅
  · have hzero : lost.card = 0 := Finset.card_eq_zero.mpr hempty
    rw [if_pos hempty, if_pos (by omega)]
  · have hcardpos := Finset.card_pos.mpr (Finset.nonempty_iff_ne_empty.mpr hempty)
    rw [if_neg hempty, if_neg (by omega), if_neg (by omega)]

end Object

/-! ## Healing one object -/

section Restore

variable {s t : Disks V n}

/-- **Damage that a heal can see**: a damaged disk returns nothing, or its own metadata with a shard
that fails its checksum. -/
structure ShardsLost (env : Env) (before after : Fin n → ShardRead) (lost : Finset (Fin n)) :
    Prop where
  intact : ∀ d, d ∉ lost → after d = before d
  gone : ∀ d ∈ lost, (∃ e, after d = .error e) ∨ ∃ data data' o, before d = .ok (data, o) ∧
    after d = .ok (data', o) ∧ verifyShardChecksum env data' o.checksum = false

/-- **The disks hold one PUT**: every planned disk returns its shard, the others nothing. -/
structure ObjectStored (env : Env) (planner : PoolPlanner n) (bucket key : String)
    (dataN parityN : Nat) (req : PutRequest) (record : PlacementRecord n) (body : Bytes)
    (disks : Disks V n) : Prop where
  plan : planner.plan env bucket key dataN parityN = .ok record
  layout : parityN = 0 ∨ RsAccepts dataN parityN
  shard : ∀ i d, (record.shards.map backendIndex)[i]? = some d →
    readShard bucket key (disks d) = .ok ((encodeObject env dataN parityN body).getD i [],
      putMetas env req record dataN parityN body i)
  other : ∀ d, d ∉ record.shards.map backendIndex →
    ∃ e, readShard bucket key (disks d) = .error e

/-- The repaired metadata are those of the PUT. -/
theorem repairMeta_putMetas (env : Env) (req : PutRequest) (record : PlacementRecord n)
    (dataN parityN : Nat) (body : Bytes) (j i : Nat) :
    repairMeta env (putMetas env req record dataN parityN body j) i
      ((encodeObject env dataN parityN body).getD i []) =
        putMetas env req record dataN parityN body i := rfl

variable (h : ObjectStored env planner bucket key dataN parityN req record body t)
  (hlost : ShardsLost env (fun d => readShard bucket key (t d))
    (fun d => readShard bucket key (s d)) lost)
include h hlost

/-- Damaged disks as the healer reads them. -/
theorem ObjectStored.objectReads : ObjectReads env (fun d => readShard bucket key (s d))
      record.distribution (encodeObject env dataN parityN body)
      (putMetas env req record dataN parityN body) lost := by
  have hsound := PoolPlanner.plan_ok h.plan
  refine ⟨hsound.nodup, by simp [hsound.length], fun i _ => rfl,
    fun i _ => verifyShardChecksum_blake3 env _, fun i d hd hnot => ?_, fun d hd => ?_⟩
  · rw [hlost.intact d hnot]
    exact h.shard i d hd
  · by_cases hmem : d ∈ lost
    · rcases hlost.gone d hmem with ⟨e, he⟩ | ⟨data, data', o, -, ho, hv⟩
      · rw [he]
        rfl
      · rw [ho]
        exact hv
    · obtain ⟨e, he⟩ := h.other d (hd.resolve_left hmem)
      rw [hlost.intact d hmem, he]
      rfl

/-- The metadata the healer reads are those of the PUT. -/
theorem ObjectStored.metas_read (d : Fin n) (data : Bytes) (o : ObjectMeta)
    (hread : readShard bucket key (s d) = .ok (data, o)) :
    ∃ i, o = putMetas env req record dataN parityN body i := by
  have hbefore : ∃ data', readShard bucket key (t d) = .ok (data', o) := by
    by_cases hmem : d ∈ lost
    · rcases hlost.gone d hmem with ⟨e, he⟩ | ⟨data₁, data₂, o', ht, hs, -⟩
      · simp [hread] at he
      · rw [hread, Except.ok.injEq, Prod.mk.injEq] at hs
        exact ⟨data₁, hs.2 ▸ ht⟩
    · exact ⟨data, (hlost.intact d hmem) ▸ hread⟩
  obtain ⟨data', hdata'⟩ := hbefore
  by_cases hplanned : d ∈ record.distribution
  · obtain ⟨i, hi⟩ := mem_iff_getElem?.mp hplanned
    have hshard := h.shard i d hi
    rw [hdata', Except.ok.injEq, Prod.mk.injEq] at hshard
    exact ⟨i, hshard.2⟩
  · obtain ⟨e, he⟩ := h.other d hplanned
    rw [hdata'] at he
    cases he

variable (hmds : 0 < parityN → (env.code dataN parityN).Mds dataN parityN) (hne : body ≠ [])
  (hmem : ∀ d ∈ lost, d ∈ record.shards.map backendIndex) (hcard : lost.card ≤ parityN)
include hmds hne hmem hcard

/-- What the heal of one damaged object decides. -/
theorem ObjectStored.healPlan : ∃ j, Abixio.healPlan env (healReads bucket key s) =
      if lost = ∅ then .ok .healthy
      else .ok (.repair (putMetas env req record dataN parityN body j)
        (missingRepairs env (putMetas env req record dataN parityN body j)
          (survives record.distribution lost)
          (encodeObject env dataN parityN body))) := by
  have hsound := PoolPlanner.plan_ok h.plan
  have hlayout : ∀ i, (putMetas env req record dataN parityN body i).erasure.data = dataN ∧
      (putMetas env req record dataN parityN body i).erasure.parity = parityN := by
    intro i
    unfold ErasureMeta.data ErasureMeta.parity putMetas shardMeta
    simp only [length_map, hsound.length, Nat.add_sub_cancel, and_self]
  exact (h.objectReads hlost).healPlan (h.metas_read hlost)
    (fun i j => quorumEq_reindex (putMetas env req record dataN parityN body 0) i j _ _) hlayout
    (encodeObject_length _) (PlacementPlanner.plan_data_pos h.plan) hmem hcard
    (encodes_encodeObject env dataN parityN body) (shardLength_pos hne) hmds
    (fun hp => h.layout.resolve_left (by omega))

/-- **The heal of one damaged object** repairs the damaged disks, and then all disks return what they
did before the damage. -/
theorem ObjectStored.heal [LawfulBackend V] (hb : ValidBucket bucket)
    (hk : ValidKey key) (hvid : req.versionId = none) (hids : PlannerIds planner s)
    (hwrite : ∀ d ∈ lost, Writable bucket key (s d)) : ∃ u, healObject env bucket key s =
        (.ok (if lost = ∅ then .healthy else .repaired lost.card), u) ∧
      ∀ d, readShard bucket key (u d) = readShard bucket key (t d) := by
  obtain ⟨j, hplan⟩ := h.healPlan hlost hmds hne hmem hcard
  by_cases hempty : lost = ∅
  · rw [healObject_eq hb hk s, hplan, if_pos hempty, if_pos hempty]
    exact ⟨s, rfl, fun d => hlost.intact d (by rw [hempty]; exact Finset.notMem_empty d)⟩
  rw [if_neg hempty]
  have hreads := h.objectReads hlost
  obtain ⟨u, hrun, hwritten, hkept⟩ := healObject_missing hb hk
    (hplan.trans (if_neg hempty)) hreads.nodup hreads.length
    (fun i d hd => repairTarget_planned hids h.plan rfl hd)
    (fun i d hd hsurv => hwrite d (by simpa [survives, hd] using hsurv) _ _)
  refine ⟨u, hrun.trans ?_, fun d => ?_⟩
  · -- the missing positions are those of the damaged disks
    have hcount := survives_count_eq hreads.nodup hmem
    rw [← hreads.length] at hcount
    have hsplit := length_eq_length_filter_add
      (l := range (encodeObject env dataN parityN body).length)
      (survives record.distribution lost)
    rw [length_range] at hsplit
    rw [show ((range (encodeObject env dataN parityN body).length).filter fun i =>
      !survives record.distribution lost i).length = lost.card by omega]
  · by_cases hd : d ∈ lost
    · obtain ⟨i, hi⟩ := mem_iff_getElem?.mp (hmem d hd)
      have hw := hwritten i d hi (by simp [survives, hi, hd])
      rw [h.shard i d hi]
      exact (LawfulBackend.read_written (putMetas_plain i)
        (by simp [putMetas, shardMeta, hvid]) hw).1
    · rw [hkept d fun i hi => by simp [survives, hi, hd]]
      exact hlost.intact d hd

end Restore

/-! ## After a PUT -/

section Put

variable {cfg : PoolConfig n} {s t s' : Disks V n}

/-- **A PUT that stored all its shards**: through the streaming encoder, or as a small object with
`write_shard`. -/
inductive PutStored (env : Env) (cfg : PoolConfig n) (dataN parityN : Nat) (req : PutRequest)
    (body : Bytes) (s t : Disks V n) : Prop
  | streamed {chunks : List Bytes} {info : ObjectInfo} (hbody : chunks.flatten = body)
      (h : encodeAndWrite env cfg.planner dataN parityN req (chunks.map .ok) s =
        (.ok (info, []), t))
  | small {record : PlacementRecord n} {shards : List Bytes}
      {results : List (Except StorageError Unit)} (hlen : body.length ≤ logThreshold)
      (hshards : smallShards env dataN parityN body = .ok shards)
      (hplan : cfg.planner.plan env req.bucket req.key dataN parityN = .ok record)
      (h : writeShards req.bucket req.key (smallEntry env cfg req record parityN body shards) s =
        (.ok results, t)) (hall : ∀ r ∈ results, r = .ok ())

/-- **After such a PUT the disks hold it**, if they held nothing before. -/
theorem PutStored.objectStored [LawfulBackend V] (h : PutStored env cfg dataN parityN req body s t)
    (hvid : req.versionId = none) (hne : body ≠ [])
    (hfresh : ∀ d, ∃ e, readShard req.bucket req.key (s d) = .error e) :
    ∃ req' record, req'.versionId = none ∧
      ObjectStored env cfg.planner req.bucket req.key dataN parityN req' record body t := by
  cases h with
  | streamed hbody h =>
    obtain ⟨record, results, hw⟩ := putWritten_chunks h
    rw [hbody] at hw
    refine ⟨req, record, hvid, hw.plan, hw.layout, fun i d hd => ?_, fun d hd => ?_⟩
    · rw [getElem?_map, Option.map_eq_some_iff] at hd
      obtain ⟨shard, hshard, rfl⟩ := hd
      exact (readShard_of_put hw hshard).1
    · rw [hw.frame d hd]
      exact hfresh d
  | @small record shards results hlen hshards hplan h hall =>
    have hsound := PoolPlanner.plan_ok hplan
    have hd := PlacementPlanner.plan_data_pos hplan
    have hrows := smallShards_of_ne hd hne hlen hshards
    have hlength : shards.length = record.shards.length := by
      rw [hrows, encodeObject_length, hsound.length]
    obtain ⟨hcount, hwritten, hframe⟩ := writeShards_spec hsound.nodup
      (by simpa [smallEntry] using hlength) (by simpa [smallEntry, smallMetas] using hlength) h
    refine ⟨smallRequest req, record, rfl, hplan, smallShards_layout hshards, fun i d hd => ?_,
      fun d hd => ?_⟩
    · have hi : i < shards.length := by
        rw [hlength]
        simpa using (List.getElem?_eq_some_iff.mp hd).1
      obtain ⟨r, hr, hw⟩ := hwritten i d shards[i]
        (shardMeta env (smallRequest req) record parityN i body shards[i]) hd
        (getElem?_eq_getElem hi)
        (by simp [smallEntry, smallMetas, getElem?_mapIdx, getElem?_eq_getElem hi])
      rw [hall r (mem_of_getElem? hr)] at hw
      have hrow : (encodeObject env dataN parityN body).getD i [] = shards[i] := by
        rw [← hrows, getD_eq_getElem _ _ hi]
      unfold putMetas
      rw [hrow]
      exact (LawfulBackend.read_written ⟨rfl, rfl, rfl, rfl⟩ rfl hw).1
    · rw [hframe d hd]
      exact hfresh d

/-- **Heal restores an object exactly.** After a PUT that stored all its shards, let at most `parity_n`
of its disks lose their shard. A heal then answers `Healthy` if none did, and otherwise repairs
exactly those; every disk returns what it did before the damage; and a second heal answers `Healthy`
and changes nothing. -/
theorem healObject_restores [LawfulBackend V] (hb : validateBucketName req.bucket = .ok ())
    (hk : validateObjectKey req.key = .ok ()) (hvid : req.versionId = none) (hne : body ≠ [])
    (hmds : 0 < parityN → (env.code dataN parityN).Mds dataN parityN)
    (hfresh : ∀ d, ∃ e, readShard req.bucket req.key (s d) = .error e)
    (hput : PutStored env cfg dataN parityN req body s t)
    (hlost : ShardsLost env (fun d => readShard req.bucket req.key (t d))
      (fun d => readShard req.bucket req.key (s' d)) lost)
    (hmem : ∀ d ∈ lost, ∃ p, readShard req.bucket req.key (t d) = .ok p)
    (hcard : lost.card ≤ parityN) (hids : PlannerIds cfg.planner s')
    (hwrite : ∀ d ∈ lost, Writable req.bucket req.key (s' d)) :
    ∃ u, healObject env req.bucket req.key s' =
        (.ok (if lost = ∅ then .healthy else .repaired lost.card), u) ∧
      (∀ d, readShard req.bucket req.key (u d) =
        readShard req.bucket req.key (t d)) ∧
      healObject env req.bucket req.key u = (.ok .healthy, u) := by
  obtain ⟨req', record, hvid', hstored⟩ := hput.objectStored hvid hne hfresh
  have hplanned : ∀ d ∈ lost, d ∈ record.distribution := by
    intro d hd
    by_contra hout
    obtain ⟨e, he⟩ := hstored.other d hout
    obtain ⟨p, hp⟩ := hmem d hd
    rw [he] at hp
    cases hp
  obtain ⟨u, hheal, hread⟩ := hstored.heal hlost hmds hne hplanned hcard hb hk hvid' hids hwrite
  refine ⟨u, hheal, hread, ?_⟩
  -- the second heal sees the object as it was before the damage
  have hnone : ShardsLost env (fun d => readShard req.bucket req.key (t d))
      (fun d => readShard req.bucket req.key (u d)) ∅ :=
    ⟨fun d _ => hread d, fun d hd => absurd hd (Finset.notMem_empty d)⟩
  obtain ⟨j, hplan⟩ := hstored.healPlan hnone hmds hne
    (fun d hd => absurd hd (Finset.notMem_empty d)) (Nat.zero_le _)
  rw [healObject_eq hb hk u, hplan, if_pos rfl]

end Put

/-- Two disks with the body `hi`, of which disk 0 was replaced by an empty one. -/
def replacedDisks : Disks LocalVolume 2 :=
  Function.update (samplePut [[104], [105]]) 0 ⟨Lib.FileTree.empty, "v0", []⟩

/-- The replaced disk gets its shard back. -/
theorem healObject_restores_hi :
    ∃ u, healObject sampleEnv "bkt" "k" replacedDisks = (.ok (.repaired 1), u) ∧
      (∀ d, readShard "bkt" "k" (u d) =
        readShard "bkt" "k" (samplePut [[104], [105]] d)) ∧
      healObject sampleEnv "bkt" "k" u = (.ok .healthy, u) := by
  have hb : validateBucketName sampleRequest.bucket = .ok () := by decide
  have hk : validateObjectKey sampleRequest.key = .ok () := by decide
  have hstored : PutStored sampleEnv ⟨samplePlanner, ""⟩ 1 1 sampleRequest [104, 105] sampleDisks
      (samplePut [[104], [105]]) := .streamed rfl encodeAndWrite_hi
  have hfresh : ∀ d, ∃ e, readShard "bkt" "k" (sampleDisks d) = .error e := by
    refine fun d => ⟨.objectNotFound, ?_⟩
    revert d
    decide +kernel
  have hlost : ShardsLost sampleEnv
      (fun d => readShard "bkt" "k" (samplePut [[104], [105]] d))
      (fun d => readShard "bkt" "k" (replacedDisks d)) {0} := by
    refine ⟨fun d hd => ?_, fun d hd => Or.inl ⟨.objectNotFound, ?_⟩⟩
    · unfold replacedDisks
      rw [Function.update_of_ne (by simpa using hd)]
    · rw [Finset.mem_singleton] at hd
      subst hd
      decide +kernel
  have hread : ∀ d ∈ ({0} : Finset (Fin 2)),
      ∃ p, readShard "bkt" "k" (samplePut [[104], [105]] d) = .ok p := by
    have hok : ∀ d, (readShard "bkt" "k" (samplePut [[104], [105]] d)).toOption.isSome := by
      decide +kernel
    intro d _
    obtain ⟨p, hp⟩ := Option.isSome_iff_exists.mp (hok d)
    exact ⟨p, Lib.except_toOption_eq_some.mp hp⟩
  have hids : PlannerIds samplePlanner replacedDisks :=
    ⟨by decide +kernel, by decide +kernel⟩
  have hwrite : ∀ d ∈ ({0} : Finset (Fin 2)), Writable "bkt" "k" (replacedDisks d) := by
    intro d hd data o
    rw [Finset.mem_singleton] at hd
    subst hd
    obtain ⟨v, hv, -⟩ := LocalVolume.writeShard_empty hb hk "v0" data o
    exact congrArg Prod.fst hv
  obtain ⟨u, hheal, hsame, hagain⟩ := healObject_restores hb hk rfl (by decide)
    (fun _ => Lib.replication_mds 1) hfresh hstored hlost hread (by decide) hids hwrite
  rw [if_neg (by decide), Finset.card_singleton] at hheal
  exact ⟨u, hheal, hsame, hagain⟩

end Abixio
