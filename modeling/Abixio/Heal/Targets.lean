import Abixio.Heal.Layouts
import Abixio.Storage.RemoteVolume

/-!
# Where repaired shards go

`heal_object` finds the disk of a repaired shard by the volume id that the object's metadata has for its
index (`src/heal/worker.rs:65-70, 126-131`). The ids are those the disks reported when the pool was
built. A remote volume reports none, so all remote volumes share the empty id, and the last of
them is the target of every repair for any of them.

`repairs_home_iff` says what follows for a pool with a given set of remote volumes.
-/

namespace Abixio

open List
open Backend (readShard volumeId)

variable {n : Nat} {env : Env} {bucket key : String}

/-! ## The ids of a pool -/

section Ids

variable {disks s : Disks AnyVolume n}

/-- The remote volumes of a pool. -/
def remotes (disks : Disks AnyVolume n) : Finset (Fin n) :=
  Finset.univ.filter fun d => (disks d).localId = none

/-- The disks are the same volumes in both states. -/
def SameVolumes (s t : Disks AnyVolume n) : Prop := ∀ d, (s d).localId = (t d).localId

/-- The id a volume reports. -/
theorem volumeId_eq (v : AnyVolume) : volumeId v = v.localId.getD "" := by
  cases v with
  | localVolume v => rfl
  | remoteVolume r => rfl

theorem SameVolumes.volumeId (h : SameVolumes s disks) (d : Fin n) :
    volumeId (s d) = volumeId (disks d) := by
  rw [volumeId_eq, volumeId_eq, h d]

/-- A remote volume keeps the empty id. -/
theorem assignVolumeIds_remote {d : Fin n} (h : d ∈ remotes disks) :
    (assignVolumeIds disks d).localId = none := by
  have hnone : (disks d).localId = none := by simpa [remotes] using h
  unfold assignVolumeIds
  cases hd : disks d with
  | localVolume v =>
    rw [hd] at hnone
    cases hnone
  | remoteVolume r => exact rfl

/-- A local volume has an id. -/
theorem assignVolumeIds_local {d : Fin n} (h : d ∉ remotes disks) :
    volumeId (assignVolumeIds disks d) ≠ "" := by
  have hsome : (disks d).localId ≠ none := by simpa [remotes] using h
  unfold assignVolumeIds
  cases hd : disks d with
  | localVolume v =>
    rw [show volumeId (AnyVolume.localVolume v) = v.volumeId from rfl]
    by_cases hempty : v.volumeId.isEmpty = true
    · rw [if_pos hempty]
      show "vol-" ++ toString d.val ≠ ""
      intro heq
      have hlen := congrArg String.length heq
      rw [String.length_append] at hlen
      exact absurd hlen (Nat.ne_of_gt (Nat.lt_of_lt_of_le (by decide) (Nat.le_add_right 4 _)))
    · rw [if_neg hempty]
      show v.volumeId ≠ ""
      rintro heq
      rw [heq] at hempty
      exact hempty rfl
  | remoteVolume r =>
    rw [hd] at hsome
    exact absurd rfl hsome

/-- The planner knows the disks by the ids they report. -/
theorem mem_plannerOf {v : PlacementVolume n} (hv : v ∈ (plannerOf disks).disks) :
    v.volumeId = volumeId (disks v.backendIndex) := by
  obtain ⟨d, -, rfl⟩ := mem_map.mp hv
  rfl

/-- **At most one remote volume: the ids are distinct.** The ids of the local volumes are, so two disks
with one id would both be remote. -/
theorem assignVolumeIds_injective_iff (hlocal : ∀ d d', d ∉ remotes disks → d' ∉ remotes disks →
      volumeId (assignVolumeIds disks d) = volumeId (assignVolumeIds disks d') → d = d') :
    (Function.Injective fun d => volumeId (assignVolumeIds disks d)) ↔
      (remotes disks).card ≤ 1 := by
  have hempty : ∀ d ∈ remotes disks, volumeId (assignVolumeIds disks d) = "" := by
    intro d hd
    rw [volumeId_eq, assignVolumeIds_remote hd]
    rfl
  constructor
  · intro hinj
    refine Finset.card_le_one.mpr fun d hd d' hd' => hinj ?_
    simp only [hempty d hd, hempty d' hd']
  · intro hone d d' heq
    simp only at heq
    by_cases hd : d ∈ remotes disks <;> by_cases hd' : d' ∈ remotes disks
    · exact Finset.card_le_one.mp hone d hd d' hd'
    · rw [hempty d hd] at heq
      exact absurd heq.symm (assignVolumeIds_local hd')
    · rw [hempty d' hd'] at heq
      exact absurd heq (assignVolumeIds_local hd)
    · exact hlocal d d' hd hd' heq

end Ids

/-! ## Repairs of one object -/

section Home

variable {V W : Type} [Backend V W] {planner : PoolPlanner n} {g : Generation n} {s : Disks V n}

/-- **Repairs go home**: each goes to the disk its shard was planned for, and that disk has no good
shard. -/
structure RepairsHome (env : Env) (planner : PoolPlanner n) (bucket key : String)
    (disks : Disks V n) : Prop where
  home : ∀ w ∈ healWrites env bucket key disks,
    (planner.distribution env bucket key n)[w.2.index]? = some w.1
  spared : ∀ w ∈ healWrites env bucket key disks, ∀ data m,
    readShard bucket key (disks w.1) = .ok (data, m) →
      verifyShardChecksum env data m.checksum = false

/-- What is written is a missing shard of the object, to the target of its index. -/
theorem Assigned.mem_healWrites_one (h : Assigned env planner bucket key {g} s)
    {w : Fin n × Repair} (hw : w ∈ healWrites env bucket key s) :
    ∃ j, w.2.index < n ∧ present env (g.metaOf env j) (healReads bucket key s) w.2.index = false ∧
      repairTarget s (g.metaOf env j) w.2.index = some w.1 := by
  obtain ⟨c, repairs, hplan, hr, htarget⟩ := mem_healWrites hw
  obtain ⟨data, fst, c₀, hfirst, hc⟩ := healPlan_ok hplan
  obtain ⟨g', hg', ⟨j, rfl⟩, hheals⟩ := h.healsTo hfirst hc
  obtain rfl : g' = g := hg'
  obtain ⟨rfl, hmissing⟩ := hheals.of_plan hplan
  obtain ⟨hlt, hnot⟩ := hmissing w.2 hr
  rw [(h.stored g' rfl).rows_length] at hlt
  exact ⟨j, hlt, hnot, htarget⟩

/-- **With distinct ids repairs go home.** -/
theorem Assigned.repairsHome (h : Assigned env planner bucket key {g} s)
    (hids : PlannerIds planner s) : RepairsHome env planner bucket key s := by
  have hs := h.stored g rfl
  have hlen := hs.distribution_length
  have hhome : ∀ w ∈ healWrites env bucket key s,
      (planner.distribution env bucket key n)[w.2.index]? = some w.1 := by
    intro w hw
    obtain ⟨j, hlt, -, htarget⟩ := h.mem_healWrites_one hw
    obtain ⟨d, hd⟩ : ∃ d, (planner.distribution env bucket key n)[w.2.index]? = some d :=
      ⟨_, getElem?_eq_getElem (by omega)⟩
    rw [← hs.distribution] at hd
    rw [repairTarget_planned hids hs.plan rfl hd, Option.some.injEq] at htarget
    rw [← hs.distribution, hd, htarget]
  refine ⟨hhome, fun w hw data m hread => ?_⟩
  by_contra hvalid
  rw [Bool.not_eq_false] at hvalid
  obtain ⟨j, -, hnot, -⟩ := h.mem_healWrites_one hw
  obtain ⟨g', hg', i, hi, rfl, -⟩ := h.read w.1 data m hread
  obtain rfl : g' = g := hg'
  -- the disk's own index is the one that was repaired
  have hindex : i = w.2.index := hs.index_unique hi (hhome w hw)
  have hpresent : present env (g'.metaOf env j) (healReads bucket key s) w.2.index = true := by
    refine any_eq_true.mpr ⟨some (data, g'.metaOf env i), mem_healReadsOf.mpr ⟨w.1, hread⟩, ?_⟩
    simp only [HealRead.good, Bool.and_eq_true, beq_iff_eq]
    exact ⟨⟨hindex, g'.agrees_self env⟩, hvalid⟩
  rw [hpresent] at hnot
  cases hnot

/-- **A lost shard is rebuilt and written**, wherever its target is. -/
theorem ObjectReads.exists_healWrites {lost : Finset (Fin n)}
    (h : ObjectReads env (fun d => readShard bucket key (s d))
      (planner.distribution env bucket key n) g.rows (g.metaOf env) lost)
    (hstored : g.Stored env planner bucket key)
    (hmeta : ∀ d data m, readShard bucket key (s d) = .ok (data, m) → ∃ i, m = g.metaOf env i)
    (hrow : ∀ r ∈ g.rows, r.length = 1) (hacc : RsAccepts g.dataN g.parityN)
    (hcard : lost.card ≤ g.parityN) {i : Nat} {d target : Fin n} (hd : d ∈ lost)
    (hi : (planner.distribution env bucket key n)[i]? = some d)
    (htarget : ∀ j, repairTarget s (g.metaOf env j) i = some target) :
    ∃ w ∈ healWrites env bucket key s, w.1 = target ∧ w.2.index = i := by
  have htotal := hstored.total
  have hlen := hstored.rows_length
  have hall : ∀ d ∈ lost, d ∈ planner.distribution env bucket key n := fun d _ =>
    mem_iff_getElem?.mpr (hstored.exists_index d)
  have hsurvive := survives_count_eq hstored.distribution_nodup hall
  rw [← h.length] at hsurvive
  have hpos : 0 < lost.card := Finset.card_pos.mpr ⟨d, hd⟩
  obtain ⟨j, hheals, hpresent⟩ : ∃ j,
      HealsTo env (healReads bucket key s) (g.metaOf env j) g.dataN g.parityN g.rows ∧
        ∀ i < g.rows.length, present env (g.metaOf env j) (healReads bucket key s) i =
          survives (planner.distribution env bucket key n) lost i :=
    h.healsTo hmeta (fun i j => g.agrees_self env)
      (fun i => ⟨hstored.data_metaOf i, hstored.parity_metaOf i⟩) (hlen.trans htotal.symm)
      hstored.data_pos (by omega)
  have hsame : (range g.rows.length).filter
      (present env (g.metaOf env j) (healReads bucket key s)) =
        (range g.rows.length).filter (survives (planner.distribution env bucket key n) lost) :=
    filter_congr fun i hi => hpresent i (mem_range.mp hi)
  have hplan := hheals.plan_missing hrow Nat.one_pos hacc (by rw [hsame]; omega)
    (by rw [hsame]; omega)
  have hilt : i < g.rows.length := by
    rw [h.length]
    exact (List.getElem?_eq_some_iff.mp hi).1
  have hslot : (keepRows (present env (g.metaOf env j) (healReads bucket key s)) g.rows)[i]?.join =
      none := by
    have hnot : present env (g.metaOf env j) (healReads bucket key s) i = false := by
      rw [hpresent i hilt]
      unfold survives
      rw [hi]
      simpa using hd
    rw [keepRows_getElem?, getElem?_eq_getElem hilt]
    simp [hnot]
  set slots := keepRows (present env (g.metaOf env j) (healReads bucket key s)) g.rows with hslots
  set rebuilt := Lib.reconstructRows (env.code g.dataN g.parityN) g.dataN g.parityN 1 slots
    with hrebuilt
  have hlt : i < rebuilt.length := by
    rw [hrebuilt, Lib.reconstructRows_length, htotal, ← hlen]
    exact hilt
  refine ⟨(target, ⟨i, rebuilt[i], repairMeta env (g.metaOf env j) i rebuilt[i]⟩), ?_, rfl, rfl⟩
  unfold healWrites
  rw [hplan]
  refine mem_filterMap.mpr ⟨_, mem_repairsOf (by rw [keepRows_length]; exact hilt) hslot ?_,
    by rw [htarget j]; rfl⟩
  rw [getElem?_map, getElem?_eq_getElem hlt]
  rfl

end Home

/-! ## Two remote volumes -/

section Two

/-- A volume like `t` can hold any shard whose metadata fits a header. -/
theorem exists_volume (hb : ValidBucket bucket)
    (hk : ValidKey key) (t : AnyVolume) {g : Generation n} {i : Nat}
    (hvid : g.req.versionId = none) (hsafe : (g.metaOf env i).texts.all headerText = true) :
    ∃ v : AnyVolume, v.localId = t.localId ∧
      readShard bucket key v = .ok (g.rows.getD i [], g.metaOf env i) := by
  obtain ⟨v, hwrite, -⟩ := LocalVolume.writeShard_empty hb hk "" (g.rows.getD i [])
    (g.metaOf env i)
  have hread : readShard bucket key v = .ok (g.rows.getD i [], g.metaOf env i) :=
    (DiskHolds.of_writeShard hvid hwrite).read
  cases t with
  | localVolume t => exact ⟨.localVolume { v with volumeId := t.volumeId }, rfl, hread⟩
  | remoteVolume r =>
    refine ⟨.remoteVolume { r with served := some v }, rfl, ?_⟩
    have hget : RemoteVolume.get (validateBucketKey bucket key) (LocalVolume.readShard bucket key)
        { r with served := some v } = .ok (g.rows.getD i [], g.metaOf env i) :=
      RemoteVolume.get_ok rfl (validateBucketKey_ok hb hk) hread
    show RemoteVolume.readShard bucket key { r with served := some v } = _
    unfold RemoteVolume.readShard
    rw [hget]
    exact if_pos hsafe

/-- The disk of an id depends on the ids only. -/
theorem SameVolumes.volIndex {t s : Disks AnyVolume n} (h : SameVolumes s t) (vid : String) :
    Abixio.volIndex s vid = Abixio.volIndex t vid := by
  unfold Abixio.volIndex
  have hids : (fun d => decide (Backend.volumeId (s d) = vid)) =
      fun d => decide (Backend.volumeId (t d) = vid) := by
    funext d
    rw [h.volumeId d]
  rw [hids]

/-- **Of two remote volumes one is not the target of its own repairs.** -/
theorem exists_misplaced {t : Disks AnyVolume n} {d d' : Fin n} (hne : d ≠ d')
    (hd : (t d).localId = none) (hd' : (t d').localId = none) :
    ∃ lost target, (t lost).localId = none ∧ lost ≠ target ∧ volIndex t "" = some target := by
  have hid : volumeId (t d) = "" := by
    rw [volumeId_eq, hd]
    rfl
  cases htarget : volIndex t "" with
  | none =>
    have hnot := find?_eq_none.mp htarget d (by simp)
    simp [hid] at hnot
  | some target =>
    by_cases heq : d = target
    · exact ⟨d', target, hd', fun h => hne (heq.trans h.symm), rfl⟩
    · exact ⟨d, target, hd, heq, rfl⟩

end Two

section Pool

variable {t : Disks AnyVolume (n + 1)}

section

variable (hdigest : ∀ data, headerText (env.md5Hex data) = true ∧ headerText (env.blake3Hex data) = true)
include hdigest

/-- The texts of a PUT's metadata are digests and volume ids. -/
theorem plainGeneration_texts (hids : ∀ d, headerText (volumeId (t d)) = true)
    {dataN parityN : Nat} {record : PlacementRecord (n + 1)}
    (hplan : (plannerOf t).plan env bucket key dataN parityN = .ok record) (body : Bytes) (i : Nat) :
    ((plainGeneration env bucket key record dataN parityN 0 body).metaOf env i).texts.all
      headerText = true := by
  have hvols : ∀ id ∈ record.shards.map PlacementShard.volumeId, headerText id = true := by
    intro id hid
    obtain ⟨shard, hshard, rfl⟩ := mem_map.mp hid
    obtain ⟨v, hv, -, -, hvid⟩ := (PoolPlanner.plan_ok hplan).mem shard hshard
    rw [← hvid, mem_plannerOf hv]
    exact hids _
  set g := plainGeneration env bucket key record dataN parityN 0 body with hg
  have htexts : (g.metaOf env i).texts =
      [env.md5Hex body, "application/octet-stream", env.blake3Hex (g.rows.getD i []), ""] ++
        record.shards.map PlacementShard.volumeId := by
    show _ ++ [] ++ [] ++ [] = _
    rw [append_nil, append_nil, append_nil]
    rfl
  rw [htexts, all_append, Bool.and_eq_true]
  refine ⟨?_, all_eq_true.mpr hvols⟩
  simp only [all_cons, all_nil, (hdigest _).1, (hdigest _).2, Bool.true_and, Bool.and_true]
  decide

/-- **Two remote volumes: a repair can go astray.** A one-byte object with one data shard, of which one
remote volume lost its copy. -/
theorem exists_astray (hids : ∀ d, headerText (volumeId (t d)) = true)
    (hb : ValidBucket bucket) (hk : ValidKey key)
    {lost target : Fin (n + 1)} (hlost : (t lost).localId = none) (hne : lost ≠ target)
    (htarget : volIndex t "" = some target) (hacc : n + 1 ≤ 256) :
    ∃ (g : Generation (n + 1)) (s : Disks AnyVolume (n + 1)), SameVolumes s t ∧
      Assigned env (plannerOf t) bucket key {g} s ∧
        ¬ RepairsHome env (plannerOf t) bucket key s := by
  have hpos : 0 < n := by
    by_contra h0
    exact hne (Fin.ext (by omega))
  obtain ⟨record, hplan⟩ := PlacementPlanner.plan_isOk_iff.mpr
    (show 0 < 1 ∧ 1 + n ≤ (plannerOf t).disks.length by simp [plannerOf]; omega)
  set g := plainGeneration env bucket key record 1 n 0 [0] with hg
  have hstored : g.Stored env (plannerOf t) bucket key := ⟨hplan, Nat.add_comm 1 n, Or.inl rfl⟩
  choose index hindex using hstored.exists_index
  -- every disk but the lost one holds its shard
  have hvolume : ∀ d, ∃ v : AnyVolume, v.localId = (t d).localId ∧ readShard bucket key v =
      .ok (g.rows.getD (index d) [], g.metaOf env (index d)) := fun d =>
    exists_volume hb hk (t d) rfl (plainGeneration_texts hdigest hids hplan [0] (index d))
  choose volume hkind hread using hvolume
  set s : Disks AnyVolume (n + 1) := Function.update volume lost (.remoteVolume ⟨"", "", none⟩)
    with hs
  have hsLost : ∃ e, readShard bucket key (s lost) = .error e := by
    rw [hs, Function.update_self]
    exact ⟨_, rfl⟩
  have hsKept : ∀ d, d ≠ lost → readShard bucket key (s d) =
      .ok (g.rows.getD (index d) [], g.metaOf env (index d)) := by
    intro d hd
    rw [hs, Function.update_of_ne hd]
    exact hread d
  have hsame : SameVolumes s t := by
    intro d
    by_cases hd : d = lost
    · rw [hd, hs, Function.update_self, hlost]
      rfl
    · rw [hs, Function.update_of_ne hd]
      exact hkind d
  have hassigned : Assigned env (plannerOf t) bucket key {g} s := by
    refine ⟨?_, ?_, fun d data m hd => ?_⟩
    · rintro _ rfl
      exact hstored
    · rintro _ rfl _ rfl -
      rfl
    · by_cases hdl : d = lost
      · obtain ⟨e, he⟩ := hsLost
        rw [hdl, he] at hd
        cases hd
      · rw [hsKept d hdl, Except.ok.injEq, Prod.mk.injEq] at hd
        exact ⟨g, rfl, index d, hindex d, hd.2.symm, fun _ => hd.1.symm⟩
  refine ⟨g, s, hsame, hassigned, fun hhome => ?_⟩
  have hreads : ObjectReads env (fun d => readShard bucket key (s d))
      ((plannerOf t).distribution env bucket key (n + 1)) g.rows (g.metaOf env) {lost} := by
    refine ⟨hstored.distribution_nodup, ?_, fun i _ => rfl,
      fun i _ => verifyShardChecksum_blake3 env _, fun i d hd hnot => ?_, fun d hd => ?_⟩
    · rw [hstored.rows_length, hstored.distribution_length]
    · rw [hstored.index_unique hd (hindex d)]
      exact hsKept d (by simpa using hnot)
    · rcases hd with hd | hd
      · obtain ⟨e, he⟩ := hsLost
        rw [Finset.mem_singleton] at hd
        rw [hd, he]
        rfl
      · exact absurd (mem_of_getElem? (hindex d)) hd
  have hvol : ∀ j, repairTarget s (g.metaOf env j) (index lost) = some target := by
    intro j
    have hshard := hindex lost
    rw [← hstored.distribution, getElem?_map, Option.map_eq_some_iff] at hshard
    obtain ⟨shard, hshard, hback⟩ := hshard
    obtain ⟨v, hv, hvd, -, hvid⟩ :=
      (PoolPlanner.plan_ok hplan).mem shard (mem_of_getElem? hshard)
    have hempty : shard.volumeId = "" := by
      rw [← hvid, mem_plannerOf hv, hvd, hback, volumeId_eq, hlost]
      rfl
    unfold repairTarget
    rw [show (g.metaOf env j).erasure.volumeIds = record.shards.map PlacementShard.volumeId from rfl,
      getElem?_map, show record.shards[index lost]? = some shard from hshard, Option.map_some,
      Option.bind_some, hempty, hsame.volIndex, htarget]
  obtain ⟨w, hw, rfl, hwi⟩ := hreads.exists_healWrites hstored
    (fun d data m hd => by
      obtain ⟨g', rfl, i, -, hm, -⟩ := hassigned.read d data m hd
      exact ⟨i, hm⟩)
    (fun r hr => length_of_mem_encodeObject_bytes Nat.one_pos (by decide) rfl hr)
    (rsAccepts_iff.mpr ⟨Nat.one_pos, hpos, (Nat.le_of_eq hstored.total).trans hacc⟩)
    (show ({lost} : Finset (Fin (n + 1))).card ≤ n by rw [Finset.card_singleton]; exact hpos)
    (Finset.mem_singleton_self lost) (hindex lost) hvol
  have hw1 := hhome.home w hw
  rw [hwi, hindex lost, Option.some.injEq] at hw1
  exact hne hw1

end

end Pool

/-! ## When repairs go home -/

/-- **Which pools identify their disks.** Take a pool as `VolumePool::new` builds it, whose local volumes
have distinct ids. No disk has the empty id if and only if no disk is remote. The ids are distinct if and
only if at most one disk is remote. And the repairs of every object of the pool go home, whatever shards
are lost, if and only if at most one disk is remote; or there are more than 256 disks, for which the code
refuses every layout with parity. -/
theorem repairs_home_iff {n : Nat} {env : Env} {disks : Disks AnyVolume (n + 1)}
    {cfg : PoolConfig (n + 1)} {p : Pool AnyVolume (n + 1)}
    (hnew : volumePoolNew disks = .ok (cfg, p))
    (hlocal : ∀ d d', d ∉ remotes disks → d' ∉ remotes disks →
      Backend.volumeId (p.disks d) = Backend.volumeId (p.disks d') → d = d')
    (hids : ∀ d, headerText (Backend.volumeId (p.disks d)) = true)
    (hdigest : ∀ data, headerText (env.md5Hex data) = true ∧
      headerText (env.blake3Hex data) = true) :
    ((∀ v ∈ cfg.planner.disks, v.volumeId ≠ "") ↔ remotes disks = ∅) ∧
      ((Function.Injective fun d => Backend.volumeId (p.disks d)) ↔ (remotes disks).card ≤ 1) ∧
      ((∀ (bucket key : String) (g : Generation (n + 1)) (s : Disks AnyVolume (n + 1)),
        validateBucketName bucket = .ok () → validateObjectKey key = .ok () →
        SameVolumes s p.disks → Assigned env cfg.planner bucket key {g} s →
          RepairsHome env cfg.planner bucket key s) ↔ (remotes disks).card ≤ 1 ∨ 256 < n + 1) := by
  unfold volumePoolNew at hnew
  rw [if_neg (Nat.succ_ne_zero n)] at hnew
  cases hnew
  have hinj := assignVolumeIds_injective_iff hlocal
  refine ⟨⟨fun hall => ?_, fun hnone v hv => ?_⟩, hinj, fun hhome => ?_, ?_⟩
  · refine Finset.eq_empty_of_forall_notMem fun d hd => ?_
    refine hall ⟨d, "local", _⟩ (mem_map.mpr ⟨d, mem_finRange d, rfl⟩) ?_
    rw [volumeId_eq, assignVolumeIds_remote hd]
    rfl
  · rw [mem_plannerOf hv]
    refine assignVolumeIds_local ?_
    rw [hnone]
    exact Finset.notMem_empty _
  · by_contra hcond
    push Not at hcond
    obtain ⟨hmany, hacc⟩ := hcond
    obtain ⟨d, hd, d', hd', hne⟩ := Finset.one_lt_card.mp hmany
    obtain ⟨lost, target, hlost, hmiss, htarget⟩ :=
      exists_misplaced hne (assignVolumeIds_remote hd) (assignVolumeIds_remote hd')
    obtain ⟨g, s, hsame, hassigned, hastray⟩ := exists_astray hdigest hids
      (show validateBucketName "bkt" = .ok () by decide)
      (show validateObjectKey "k" = .ok () by decide) hlost hmiss htarget hacc
    exact hastray (hhome "bkt" "k" g s (by decide) (by decide) hsame hassigned)
  · rintro (hone | hmany) bucket key g s - - hsame hassigned
    · refine hassigned.repairsHome ⟨fun v hv => ?_, fun d d' heq => hinj.mpr hone ?_⟩
      · rw [mem_plannerOf hv, hsame.volumeId]
      · simp only [hsame.volumeId] at heq
        exact heq
    · have hempty := hassigned.healWrites_of_many hmany
      exact ⟨fun w hw => absurd hw (by simp [hempty]), fun w hw => absurd hw (by simp [hempty])⟩

/-- Digests of a table fit a header if the table does. -/
theorem headerText_digestOf {table : List (String × String)}
    (h : table.all (fun e => headerText e.2) = true) (data : Bytes) :
    headerText (digestOf table data) = true := by
  unfold digestOf
  cases hfind : table.find? fun e => utf8 e.1 = data with
  | none => rfl
  | some e => exact all_eq_true.mp h e (mem_of_find?_eq_some hfind)

/-- A local disk and two disks of a peer, all empty. -/
def mixedDisks : Disks AnyVolume 3 := fun d =>
  if d = 0 then .localVolume (sampleVolume "v0")
  else if d = 1 then .remoteVolume ⟨"http://peer:10000", "/d1", some (sampleVolume "v1")⟩
  else .remoteVolume ⟨"http://peer:10000", "/d2", some (sampleVolume "v2")⟩

/-- The configuration of their pool. -/
def mixedConfig : PoolConfig 3 := ⟨plannerOf (assignVolumeIds mixedDisks), ""⟩

/-- The pool. -/
def mixedPool : Pool AnyVolume 3 := ⟨assignVolumeIds mixedDisks, none, none⟩

/-- Two remote disks: they have the empty id, both have the same, and repairs can go astray. -/
theorem repairs_home_iff_mixed :
    volumePoolNew mixedDisks = .ok (mixedConfig, mixedPool) ∧ remotes mixedDisks = {1, 2} ∧
    (¬ ∀ v ∈ mixedConfig.planner.disks, v.volumeId ≠ "") ∧
    (¬ Function.Injective fun d => Backend.volumeId (mixedPool.disks d)) ∧
    ¬ ∀ (bucket key : String) (g : Generation 3) (s : Disks AnyVolume 3),
      validateBucketName bucket = .ok () → validateObjectKey key = .ok () →
      SameVolumes s mixedPool.disks → Assigned lineEnv mixedConfig.planner bucket key {g} s →
        RepairsHome lineEnv mixedConfig.planner bucket key s := by
  have hremotes : remotes mixedDisks = {1, 2} := by decide +kernel
  have hlocal : ∀ d d', d ∉ remotes mixedDisks → d' ∉ remotes mixedDisks →
      volumeId (mixedPool.disks d) = volumeId (mixedPool.disks d') → d = d' := by
    rw [hremotes]
    decide +kernel
  have hdigest : ∀ data, headerText (lineEnv.md5Hex data) = true ∧
      headerText (lineEnv.blake3Hex data) = true := fun data =>
    ⟨headerText_digestOf (by decide +kernel) data, headerText_digestOf (by decide +kernel) data⟩
  obtain ⟨hempty, hinj, hhome⟩ := repairs_home_iff
    (show volumePoolNew mixedDisks = .ok (mixedConfig, mixedPool) from rfl) hlocal (by decide +kernel)
    hdigest
  rw [hremotes] at hempty hinj hhome
  refine ⟨rfl, hremotes, fun h => ?_, fun h => ?_, fun h => ?_⟩
  · exact absurd (hempty.mp h) (by decide)
  · exact absurd (hinj.mp h) (by decide)
  · exact absurd (hhome.mp h) (by decide)

/-- A PUT of two bytes with two data shards and one parity shard. -/
def mixedRequest : PutRequest :=
  { sampleRequest with
    opts := { sampleRequest.opts with ecFtt := some 1 }
    contentLength := some 2 }

/-- The disks after the PUT, with the first disk of the peer replaced by an empty one. -/
def mixedDamaged : Disks AnyVolume 3 :=
  Function.update
    (putObjectStream lineEnv mixedConfig mixedRequest true [.ok (utf8 "hi")] mixedPool).2.disks 1
    (mixedDisks 1)

/-- **A repair that goes astray.** Shards 0 and 1 are on the two disks of the peer. Shard 0 is lost; the
heal writes it over shard 1, reports a repair, and its own disk stays empty. -/
theorem heal_overwrites_good_shard : volumePoolNew mixedDisks = .ok (mixedConfig, mixedPool) ∧
      (putObjectStream lineEnv mixedConfig mixedRequest true [.ok (utf8 "hi")] mixedPool).1 =
        .ok (putInfo lineEnv mixedRequest (utf8 "hi"), []) ∧
      mixedConfig.planner.distribution lineEnv "bkt" "k" 3 = [1, 2, 0] ∧
      (readShard "bkt" "k" (mixedDamaged 2)).toOption.map
        (fun p => (p.1, p.2.erasure.index)) = some (utf8 "i", 1) ∧
      (healObject lineEnv "bkt" "k" mixedDamaged).1 = .ok (.repaired 1) ∧
      (readShard "bkt" "k" ((healObject lineEnv "bkt" "k" mixedDamaged).2 2)).toOption.map
        (fun p => (p.1, p.2.erasure.index)) = some (utf8 "h", 0) ∧
      readShard "bkt" "k" ((healObject lineEnv "bkt" "k" mixedDamaged).2 1) =
        .error .objectNotFound := by
  refine ⟨rfl, ?_⟩
  decide +kernel

end Abixio
