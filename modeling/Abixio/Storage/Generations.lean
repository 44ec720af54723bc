import Abixio.Storage.RoundTrip
import Abixio.Storage.VolumePool

/-!
# Reads over disks that hold different PUTs of a key

A PUT is acknowledged with a write quorum, so a disk can be left with the shard of an earlier PUT of
the key. `Generation` is one stored PUT, `PoolHolds` a pool whose disks, and possibly caches, each
hold one generation. All PUTs of a pool spread a key over all disks in the same order, so what a
read slots together is one shard per disk, whatever PUT it is from (`mixedRows`).

The decoders take the layout and the size from the first disk, and the bytes from the disks of the
data shards (`getObject_mixed`, `getObjectStream_mixed`). So reads return the last PUT exactly when
those disks hold it and no cache holds an earlier one.
-/

namespace Abixio

open Lib List LocalVolume Option
open PoolPlanner (plan_ok)

variable {n : Nat} {env : Env} {dataN parityN : Nat} {bucket key : String} {V W : Type} [Backend V W]
  {cfg : PoolConfig (n + 1)}

/-! ## Stored PUTs -/

/-- One PUT of a key as it was stored. -/
structure Generation (n : Nat) where
  req : PutRequest
  body : Bytes
  dataN : Nat
  parityN : Nat
  record : PlacementRecord n
  rows : List Bytes

namespace Generation

/-- The metadata of shard `i`. -/
def metaOf (env : Env) (g : Generation n) (i : Nat) : ObjectMeta :=
  shardMeta env g.req g.record g.parityN i g.body (g.rows.getD i [])

/-- What a read of this PUT reports. -/
def info (env : Env) (bucket key : String) (g : Generation n) : ObjectInfo :=
  (g.metaOf env 0).toInfo bucket key

theorem toInfo_metaOf (env : Env) (bucket key : String) (g : Generation n) (i : Nat) :
    (g.metaOf env i).toInfo bucket key = g.info env bucket key := rfl

/-- A PUT through the pool: it is planned over all disks, and its shards are those of the streaming
path or of the small-object path. -/
structure Stored (env : Env) (planner : PoolPlanner n) (bucket key : String)
    (g : Generation n) : Prop where
  plan : planner.plan env bucket key g.dataN g.parityN = .ok g.record
  total : g.dataN + g.parityN = n
  rows_eq : g.rows = encodeObject env g.dataN g.parityN g.body ∨
    (g.body.length ≤ logThreshold ∧ smallShards env g.dataN g.parityN g.body = .ok g.rows)

end Generation

/-- A PUT through the streaming path. -/
def streamedGeneration {n : Nat} (env : Env) (req : PutRequest) (dataN parityN : Nat)
    (record : PlacementRecord n) (body : Bytes) : Generation n :=
  ⟨req, body, dataN, parityN, record, encodeObject env dataN parityN body⟩

/-- A PUT through the small-object path. -/
def smallGeneration {n : Nat} (req : PutRequest) (dataN parityN : Nat) (record : PlacementRecord n)
    (body : Bytes) (rows : List Bytes) : Generation n :=
  ⟨smallRequest req, body, dataN, parityN, record, rows⟩

section Small

variable {data : Bytes} {rows : List Bytes}

theorem collectBody_chunks : ∀ chunks : List Bytes, collectBody (chunks.map .ok) = .ok chunks.flatten
  | [] => rfl
  | chunk :: chunks => by
    rw [map_cons, collectBody, collectBody_chunks chunks]
    rfl

/-- The small-object path encodes only with a layout that the code accepts. -/
theorem smallShards_layout (h : smallShards env dataN parityN data = .ok rows) :
    parityN = 0 ∨ RsAccepts dataN parityN := by
  by_cases hp : parityN = 0
  · exact Or.inl hp
  right
  unfold smallShards at h
  rw [if_neg fun hone => hp hone.2] at h
  simp only [if_pos (Nat.pos_of_ne_zero hp)] at h
  obtain ⟨⟨⟩, hnew, -⟩ := except_bind_eq_ok.mp h
  exact Act.mapError_eq_ok.mp hnew

/-- **The shards of a small object** are those of one block, except that a single shard without
parity is not padded. -/
theorem smallShards_eq (hd : 0 < dataN) (hlayout : parityN = 0 ∨ RsAccepts dataN parityN) :
    smallShards env dataN parityN data =
      .ok (if dataN = 1 ∧ parityN = 0 then [data] else encodeBlock env dataN parityN data) := by
  unfold smallShards
  by_cases hone : dataN = 1 ∧ parityN = 0
  · rw [if_pos hone, if_pos hone]
  rw [if_neg hone, if_neg hone, splitData_eq]
  set size := shardSize data.length dataN with hsize
  by_cases hp : 0 < parityN
  · simp only [if_pos hp]
    obtain ⟨k, rfl⟩ : ∃ k, dataN = k + 1 := ⟨dataN - 1, by omega⟩
    have hhead : ((pieces (k + 1) size data).headD []).length = size := by
      rw [pieces_succ]
      simpa using padRight_length (by simp)
    have hrow : ∀ r ∈ pieces (k + 1) size data ++
        replicate parityN (replicate size 0), r.length = size := by
      intro r hr
      rcases mem_append.mp hr with hr | hr
      · exact length_of_mem_pieces hr
      · rw [(mem_replicate.mp hr).2, length_replicate]
    have henc : rsEncode env (k + 1) parityN (pieces (k + 1) size data ++
        replicate parityN (replicate size 0)) = .ok (encodeRows
          (env.code (k + 1) parityN) parityN size (pieces (k + 1) size data)) := by
      rw [rsEncode_ok (shardSize_pos data.length (k + 1)) hd (by simp) hrow,
        take_left' (pieces_length _ _ _)]
    have hnew : rsNew (k + 1) parityN = .ok () := hlayout.resolve_left (by omega)
    rw [hhead, henc, hnew]
    rfl
  · simp only [if_neg hp]
    obtain rfl : parityN = 0 := by omega
    simp [encodeBlock, encodeRows, parityRows, hsize]

theorem smallShards_ok (hd : 0 < dataN) (h : smallShards env dataN parityN data = .ok rows) :
    rows = if dataN = 1 ∧ parityN = 0 then [data] else encodeBlock env dataN parityN data := by
  rw [smallShards_eq hd (smallShards_layout h), Except.ok.injEq] at h
  exact h.symm

/-- Without parity and with one data shard, the shard is the body. -/
theorem encodeObject_single (env : Env) (body : Bytes) : encodeObject env 1 0 body = [body] := by
  have hone : (encodeObject env 1 0 body).getD 0 [] = body := encodeObject_one_data body
  refine ext_getElem (by simp) fun i h1 h2 => ?_
  obtain rfl : i = 0 := by simpa using h2
  rw [← getD_eq_getElem _ [] h1, hone]
  rfl

/-- A small object that is not empty has the shards of the streaming path. -/
theorem smallShards_of_ne (hd : 0 < dataN) (hne : data ≠ []) (hlen : data.length ≤ logThreshold)
    (h : smallShards env dataN parityN data = .ok rows) :
    rows = encodeObject env dataN parityN data := by
  rw [smallShards_ok hd h]
  split
  · rename_i hone
    rw [hone.1, hone.2, encodeObject_single]
  · rw [encodeObject_one_block env _ _ hne (hlen.trans (by decide))]

/-- A run of `encode_and_write` from `s` to `t` gave every disk of the entry its shard and its metadata,
and touched no other disk. -/
structure WritesEntry (req : PutRequest) (entry : WriteCacheEntry n) (s t : Disks V n) : Prop where
  lengths : entry.shards.length = entry.distribution.length ∧
    entry.metas.length = entry.distribution.length
  disks : ∀ (i : Nat) d shard m, entry.distribution[i]? = some d → entry.shards[i]? = some shard →
    entry.metas[i]? = some m → ∃ chunks w v r, chunks.flatten = shard ∧
      Writing req.bucket req.key none (s d) chunks w v ∧ Backend.finalize w m v = (r, t d)
  others : ∀ d, d ∉ entry.distribution → t d = s d

/-- **The small-object path and the streaming encoder agree.** -/
theorem small_agrees_streaming (cfg : PoolConfig n) {req : PutRequest} {chunks : List Bytes}
    {s t : Disks V n} {info : ObjectInfo} {owed : List MrfEntry} (hne : chunks.flatten ≠ [])
    (hlen : chunks.flatten.length ≤ logThreshold) (hetag : req.opts.precomputedEtag = none)
    (hvid : req.versionId = none)
    (h : encodeAndWrite env cfg.planner dataN parityN req (chunks.map .ok) s = (.ok (info, owed), t)) :
    ∃ entry : WriteCacheEntry n, WritesEntry req entry s t ∧
      (info.size, info.etag, info.contentType, info.userMetadata, info.tags) = (entry.originalSize,
        entry.etag, entry.contentType, entry.userMetadata, entry.tags) ∧
      ∀ peerOk (pieces : List Bytes) (p : Pool V n), pieces.flatten = chunks.flatten →
        resolveEc req.bucket req.opts p = .ok (dataN, parityN) →
        putSmall env cfg req peerOk (pieces.map .ok) p =
          (do
            if ← cacheSmall req peerOk entry then pure info
            else writeSmall env req dataN parityN chunks.flatten entry)
            (onReadCache (fun c => c.put req.bucket req.key ⟨chunks.flatten, info⟩) p) := by
  obtain ⟨record, body, results, hw⟩ := encodeAndWrite_ok h
  obtain ⟨chunks', hstream, hbody⟩ := hw.stream_ok
  obtain rfl := map_ok_inj hstream
  subst hbody
  have hsmall : smallRequest req = req := by
    obtain ⟨_, _, _, opts, _, _⟩ := req
    obtain ⟨_, _, _, _, _, _⟩ := opts
    cases hvid
    cases hetag
    rfl
  have hd := PlacementPlanner.plan_data_pos hw.plan
  obtain ⟨rows, hshards⟩ : ∃ rows, smallShards env dataN parityN chunks.flatten = .ok rows :=
    ⟨_, smallShards_eq hd hw.layout⟩
  have hrows := smallShards_of_ne hd hne hlen hshards
  have hplanned := (plan_ok hw.plan).length
  refine ⟨smallEntry env cfg req record parityN chunks.flatten rows, ⟨?_, ?_, hw.frame⟩, ?_, ?_⟩
  · simp [smallEntry, smallMetas, hrows, hplanned]
  · intro i d shard m hdisk hshard hm
    obtain ⟨placed, hplaced, rfl⟩ := Option.map_eq_some_iff.mp (getElem?_map.symm.trans hdisk)
    have hi : i < results.length := by
      rw [hw.results_length, ← hplanned]
      exact (List.getElem?_eq_some_iff.mp hplaced).1
    obtain ⟨fed, w, v, hfed, hwriting, hfin⟩ :=
      hw.written i placed _ hplaced (getElem?_eq_getElem hi)
    have hm' : rows[i]?.map (shardMeta env (smallRequest req) record parityN i chunks.flatten) = some m :=
      getElem?_mapIdx.symm.trans hm
    rw [show rows[i]? = some shard from hshard, Option.map_some, Option.some.injEq, hsmall] at hm'
    rw [← hrows, getD_eq_getElem?_getD, show rows[i]? = some shard from hshard, Option.getD_some] at hfed hfin
    rw [hm'] at hfin
    exact ⟨fed, w, v, _, hfed, hvid ▸ hwriting, hfin⟩
  · rw [hw.info_eq, ← hsmall]
    rfl
  · intro peerOk pieces p hpieces hec
    have hbody := collectBody_chunks pieces
    rw [hpieces] at hbody
    unfold putSmall
    rw [hbody, Act.ok_bind, Act.query_bind_ok hec, hw.info_eq]
    dsimp only
    rw [hshards, Act.ok_bind, hw.plan, hsmall]
    rfl

/-- The body `hi` of `encodeAndWrite_hi`. -/
theorem small_agrees_streaming_hi : ∃ entry : WriteCacheEntry 2, entry.originalSize = 2 ∧
    WritesEntry sampleRequest entry sampleDisks (samplePut [[104], [105]]) := by
  obtain ⟨entry, hwrites, hinfo, -⟩ :=
    small_agrees_streaming ⟨samplePlanner, ""⟩ (by decide) (by decide) rfl rfl encodeAndWrite_hi
  exact ⟨entry, (congrArg Prod.fst hinfo).symm, hwrites⟩

end Small

namespace Generation

variable {planner : PoolPlanner n} {g : Generation n}

section

variable (h : g.Stored env planner bucket key)
include h

theorem Stored.data_pos : 0 < g.dataN :=
  PlacementPlanner.plan_data_pos h.plan

theorem Stored.distribution : g.record.distribution = planner.distribution env bucket key n :=
  (PlacementPlanner.plan_distribution h.plan).trans (congrArg _ h.total)

theorem Stored.distribution_nodup : (planner.distribution env bucket key n).Nodup := by
  rw [← h.distribution]
  exact (plan_ok h.plan).nodup

theorem Stored.distribution_length : (planner.distribution env bucket key n).length = n := by
  rw [← h.distribution, length_map, (plan_ok h.plan).length, h.total]

/-- Every disk has a shard, -/
theorem Stored.exists_index (d : Fin n) :
    ∃ i : Nat, (planner.distribution env bucket key n)[i]? = some d := by
  rw [← h.distribution]
  exact mem_iff_getElem?.mp (mem_distribution h.plan h.total d)

/-- and only one. -/
theorem Stored.index_unique {i j : Nat} {d : Fin n}
    (hi : (planner.distribution env bucket key n)[i]? = some d)
    (hj : (planner.distribution env bucket key n)[j]? = some d) : i = j := by
  obtain ⟨_, hi'⟩ := List.getElem?_eq_some_iff.mp hi
  obtain ⟨_, hj'⟩ := List.getElem?_eq_some_iff.mp hj
  exact (List.Nodup.getElem_inj_iff h.distribution_nodup).mp (hi'.trans hj'.symm)

theorem Stored.rows_length : g.rows.length = n := by
  refine Eq.trans ?_ h.total
  rcases h.rows_eq with hr | ⟨-, hr⟩
  · rw [hr, encodeObject_length]
  · rw [smallShards_ok h.data_pos hr]
    split
    · rename_i hone
      rw [hone.1, hone.2]
      rfl
    · rw [encodeBlock_length]

/-- Without parity and with one data shard, the shard is the body. -/
theorem Stored.rows_single (hd : g.dataN = 1) (hp : g.parityN = 0) : g.rows = [g.body] := by
  rcases h.rows_eq with hr | ⟨-, hr⟩
  · rw [hr, hd, hp, encodeObject_single]
  · rw [smallShards_ok h.data_pos hr, if_pos ⟨hd, hp⟩]

/-- A body that is not empty has the shards of the streaming path on either path. -/
theorem Stored.rows_of_ne (hne : g.body ≠ []) : g.rows = encodeObject env g.dataN g.parityN g.body := by
  rcases h.rows_eq with hr | ⟨hlen, hr⟩
  · exact hr
  · exact smallShards_of_ne h.data_pos hne hlen hr

/-- The data shards end to end start with the body. -/
theorem Stored.join (hlen : g.body.length ≤ streamBlockSize ∨ g.dataN = 1) :
    ((g.rows.take g.dataN).flatten).take g.body.length = g.body := by
  by_cases hne : g.body = []
  · rw [hne]
    rfl
  · rw [h.rows_of_ne hne]
    exact joinedBody_eq h.data_pos hlen

/-- The layout that the metadata of a shard states. -/
theorem Stored.layout (i : Nat) :
    ((g.metaOf env i).erasure.data, (g.metaOf env i).erasure.parity) = (g.dataN, g.parityN) := by
  have hlen := (plan_ok h.plan).length
  unfold ErasureMeta.data ErasureMeta.parity metaOf shardMeta
  simp only [length_map, hlen, Nat.add_sub_cancel]

end

end Generation

/-! ## Disks and caches that each hold a PUT -/

section Pool

/-- The disk returns shard `i` of a PUT. -/
structure DiskHolds (env : Env) (bucket key : String) (g : Generation n) (i : Nat) (v : V) :
    Prop where
  read : Backend.readShard bucket key v = .ok (g.rows.getD i [], g.metaOf env i)
  stat : Backend.statObject bucket key v = .ok (g.metaOf env i)
  mmap : ∃ m, Backend.mmapShard bucket key v = .ok (g.rows.getD i [], m) ∧
    { m with inlineData := none } = g.metaOf env i

/-- Every disk holds its shard of the PUT `gen` names for it, and the caches hold an entry of the
PUTs `wc` and `rc`, if any. -/
structure PoolHolds (env : Env) (cfg : PoolConfig n) (bucket key : String)
    (gen : Fin n → Generation n) (wc rc : Option (Generation n)) (p : Pool V n) : Prop where
  check : checkKey bucket key none p = .ok ()
  stored : ∀ d, (gen d).Stored env cfg.planner bucket key
  disk : ∀ i d, (cfg.planner.distribution env bucket key n)[i]? = some d →
    DiskHolds env bucket key (gen d) i (p.disks d)
  write : cachedWrite bucket key p =
    wc.map fun g => smallEntry env cfg g.req g.record g.parityN g.body g.rows
  read : cachedRead bucket key p = rc.map fun g => ⟨g.body, g.info env bucket key⟩

/-- A disk holds what was written to it with `write_shard`. -/
theorem DiskHolds.of_writeShard [LawfulBackend V]
    {g : Generation n} {i : Nat} {v v' : V} (hvid : g.req.versionId = none)
    (h : Backend.writeShard bucket key (g.rows.getD i []) (g.metaOf env i) v = (.ok (), v')) :
    DiskHolds env bucket key g i v' := by
  obtain ⟨hread, hstat, hmmap⟩ := LawfulBackend.read_written ⟨rfl, rfl, rfl, rfl⟩
    (by simp [Generation.metaOf, shardMeta, hvid]) h
  exact ⟨hread, hstat, hmmap⟩

end Pool

/-! ## What is read -/

section Mixed

variable {gen : Fin (n + 1) → Generation (n + 1)} {p : Pool V (n + 1)}

/-- Shard `i` of the PUT that the disk of shard `i` holds. -/
def mixedRows (env : Env) (cfg : PoolConfig (n + 1)) (bucket key : String)
    (gen : Fin (n + 1) → Generation (n + 1)) : List Bytes :=
  (cfg.planner.distribution env bucket key (n + 1)).mapIdx fun i d => (gen d).rows.getD i []

/-- Whatever PUTs the disks hold, to a decoder their shards look like one object. -/
theorem mixed_objectReads {metas : Nat → ObjectMeta} {read : V → ShardRead}
    (hs : ∀ d, (gen d).Stored env cfg.planner bucket key)
    (hread : ∀ i d, (cfg.planner.distribution env bucket key (n + 1))[i]? = some d →
      read (p.disks d) = .ok ((gen d).rows.getD i [], metas i) ∧
        { metas i with inlineData := none } = (gen d).metaOf env i) :
    ObjectReads env (fun d => read (p.disks d)) (cfg.planner.distribution env bucket key (n + 1))
      (mixedRows env cfg bucket key gen) metas ∅ := by
  have hlen := (hs 0).distribution_length
  have hrows : (mixedRows env cfg bucket key gen).length = n + 1 := by
    simpa [mixedRows] using hlen
  have hrow : ∀ i d, (cfg.planner.distribution env bucket key (n + 1))[i]? = some d →
      (mixedRows env cfg bucket key gen).getD i [] = (gen d).rows.getD i [] := by
    intro i d hd
    rw [getD_eq_getElem?_getD]
    simp only [mixedRows, getElem?_mapIdx, hd, map_some, getD_some]
  have hget : ∀ i < (mixedRows env cfg bucket key gen).length,
      ∃ d, (cfg.planner.distribution env bucket key (n + 1))[i]? = some d := by
    intro i hi
    exact ⟨_, getElem?_eq_getElem (by omega)⟩
  refine ⟨?_, hrows.trans hlen.symm, ?_, ?_, ?_, ?_⟩
  · rw [← (hs 0).distribution]
    exact (plan_ok (hs 0).plan).nodup
  · intro i hi
    obtain ⟨d, hd⟩ := hget i hi
    exact congrArg (fun m => m.erasure.index) (hread i d hd).2
  · intro i hi
    obtain ⟨d, hd⟩ := hget i hi
    have hm : (metas i).checksum = env.blake3Hex ((gen d).rows.getD i []) :=
      congrArg (fun m => m.checksum) (hread i d hd).2
    rw [hrow i d hd, hm]
    exact verifyShardChecksum_blake3 env _
  · intro i d hd _
    rw [hrow i d hd]
    exact (hread i d hd).1
  · rintro d (hd | hd)
    · exact absurd hd (Finset.notMem_empty d)
    · rw [← (hs 0).distribution] at hd
      exact absurd (mem_distribution (hs 0).plan (hs 0).total d) hd

theorem mixedRows_length (hs : ∀ d, (gen d).Stored env cfg.planner bucket key) :
    (mixedRows env cfg bucket key gen).length = (gen 0).dataN + (gen 0).parityN := by
  rw [(hs 0).total, ← (hs 0).distribution_length]
  simp [mixedRows]

/-- The metadata on the first disk. -/
theorem firstStat_mixed {wc rc : Option (Generation (n + 1))}
    (h : PoolHolds env cfg bucket key gen wc rc p) :
    ∃ i, firstStat bucket key p = some ((gen 0).metaOf env i) := by
  obtain ⟨i, hi⟩ := (h.stored 0).exists_index 0
  refine ⟨i, ?_⟩
  unfold firstStat
  rw [finRange_succ, findSome?_cons, (h.disk i 0 hi).stat]
  rfl

theorem objectEc_mixed {rc : Option (Generation (n + 1))}
    (h : PoolHolds env cfg bucket key gen none rc p) :
    objectEc bucket key p = ((gen 0).dataN, (gen 0).parityN) := by
  obtain ⟨i, hstat⟩ := firstStat_mixed h
  unfold objectEc readEcFromMeta
  rw [h.write, hstat]
  exact (h.stored 0).layout i

/-- **`get_object` joins the data shards of all disks** by the layout of the first one. -/
theorem getObject_mixed (h : PoolHolds env cfg bucket key gen none none p) :
    (getObject env bucket key p).1 =
      .ok (((mixedRows env cfg bucket key gen).take (gen 0).dataN).flatten.take
        (gen 0).body.length, (gen 0).info env bucket key) := by
  obtain ⟨j, hstat⟩ := firstStat_mixed h
  obtain ⟨i, hi⟩ := (h.stored 0).exists_index 0
  have hreads : ObjectReads env (fun d => Backend.readShard bucket key (p.disks d))
      (cfg.planner.distribution env bucket key (n + 1)) (mixedRows env cfg bucket key gen)
      (fun i => (gen ((cfg.planner.distribution env bucket key (n + 1)).getD i 0)).metaOf env i)
      ∅ := by
    refine mixed_objectReads h.stored fun j d hd => ?_
    have hgd : (cfg.planner.distribution env bucket key (n + 1)).getD j 0 = d := by
      rw [getD_eq_getElem?_getD, hd, getD_some]
    rw [hgd]
    exact ⟨(h.disk j d hd).read, rfl⟩
  have hgather := gatherShards_first hreads (mixedRows_length h.stored) hi
  rw [getD_eq_getElem?_getD, hi, getD_some] at hgather
  have hdecode : readAndDecode env p.disks (gen 0).dataN (gen 0).parityN bucket key =
      .ok (((mixedRows env cfg bucket key gen).take (gen 0).dataN).flatten.take
        (gen 0).body.length, (gen 0).metaOf env i) := by
    unfold readAndDecode decodeReads
    rw [hgather]
    simp only [bind, Except.bind, repairSlots_full (mixedRows_length h.stored), joinShards_map_some]
    rfl
  rw [(getObject_of_disks env h.check h.write h.read).1]
  have hplain := getStored_of_plain env (p := onReadCache (fun c => c.touch bucket key) p) hstat rfl
  have hec := (objectEc_onReadCache bucket key (fun c => c.touch bucket key) p).trans (objectEc_mixed h)
  rw [hplain.1, ← Generation.toInfo_metaOf env bucket key (gen 0) i]
  exact getDecoded_ok env hec hdecode

/-- **`get_object_stream` needs only the data shards** of the first disk's PUT. -/
theorem getObjectStream_mixed (h : PoolHolds env cfg bucket key gen none none p)
    (hdata : (mixedRows env cfg bucket key gen).take (gen 0).dataN =
      (gen 0).rows.take (gen 0).dataN) :
    ∃ pieces : List Bytes, (getObjectStream env bucket key p).1 =
        .ok ((gen 0).info env bucket key, pieces.map .ok) ∧ pieces.flatten = (gen 0).body := by
  obtain ⟨j, hstat⟩ := firstStat_mixed h
  obtain ⟨i, hi⟩ := (h.stored 0).exists_index 0
  have hs := h.stored 0
  have hec := (objectEc_onReadCache bucket key (fun c => c.touch bucket key) p).trans (objectEc_mixed h)
  rw [(getObject_of_disks env h.check h.write h.read).2]
  have hplain := getStored_of_plain env (p := onReadCache (fun c => c.touch bucket key) p) hstat rfl
  rw [hplain.2]
  by_cases hone : (gen 0).dataN = 1 ∧ (gen 0).parityN = 0
  · -- one disk, whose shard is the body
    obtain ⟨m, hmmap, hm⟩ := (h.disk i 0 hi).mmap
    have hi0 : i = 0 := by
      have hlt := (List.getElem?_eq_some_iff.mp hi).1
      have hlen := hs.distribution_length
      have htotal := hs.total
      omega
    rw [hone.1, hone.2] at hec
    rw [hs.rows_single hone.1 hone.2, hi0, getD_cons_zero] at hmmap
    have hfirst : ((finRange (n + 1)).findSome? fun d =>
        (Backend.mmapShard bucket key (p.disks d)).toOption) = some ((gen 0).body, m) := by
      rw [finRange_succ, findSome?_cons, hmmap]
      rfl
    have hinfo : m.toInfo bucket key = (gen 0).info env bucket key :=
      congrArg (fun m => m.toInfo bucket key) hm
    refine ⟨blocks mmapChunkSize (gen 0).body, ?_, blocks_flatten (by decide) _⟩
    rw [← hinfo]
    exact streamDecoded_mapped env hec hfirst
  · -- a decoder that sees one object
    have hmetas : ∀ i, ∃ m : ObjectMeta, ∀ d,
        (cfg.planner.distribution env bucket key (n + 1))[i]? = some d →
        Backend.mmapShard bucket key (p.disks d) = .ok ((gen d).rows.getD i [], m) ∧
          { m with inlineData := none } = (gen d).metaOf env i := by
      intro i
      cases hd : (cfg.planner.distribution env bucket key (n + 1))[i]? with
      | none => exact ⟨(gen 0).metaOf env i, fun d h => by cases h⟩
      | some d =>
        obtain ⟨m, hmmap, hm⟩ := (h.disk i d hd).mmap
        refine ⟨m, fun d' hd' => ?_⟩
        cases hd'
        exact ⟨hmmap, hm⟩
    choose metas hmetas using hmetas
    have hgather := gatherShards_first (mixed_objectReads h.stored hmetas)
      (mixedRows_length h.stored) hi
    have hinfo : (metas i).toInfo bucket key = (gen 0).info env bucket key :=
      congrArg (fun m => m.toInfo bucket key) (hmetas i 0 hi).2
    have hsize : (metas i).size = (gen 0).body.length :=
      congrArg ObjectMeta.size (hmetas i 0 hi).2
    obtain ⟨pieces, hrun, hflat⟩ : ∃ pieces : List Bytes,
        streamBlocks env (gen 0).dataN (gen 0).parityN
          ((mixedRows env cfg bucket key gen).map some) (gen 0).body.length
          (gen 0).body.length 0 = pieces.map .ok ∧ pieces.flatten = (gen 0).body := by
      by_cases hne : (gen 0).body = []
      · rw [hne]
        exact ⟨[], rfl, rfl⟩
      refine streamBlocks_data hs.data_pos _ ?_
      rw [keepRows_all _ fun _ _ => rfl, ← map_take, ← map_take, hdata,
        hs.rows_of_ne hne]
    refine ⟨pieces, ?_, hflat⟩
    rw [← hinfo]
    refine streamDecoded_ok env hec hone ?_
    unfold readAndDecodeStream streamReads
    dsimp only [onReadCache]
    rw [hgather]
    simp only [bind, Except.bind, hsize, hrun]

end Mixed

/-! ## When reads return the last PUT -/

section Last

variable {record : PlacementRecord (n + 1)} {fresh : Finset (Fin (n + 1))} {last : Generation (n + 1)}

/-- **A key that was overwritten.** The last PUT has the given layout and is on the disks in
`fresh`; every other disk holds some PUT of the key. The write cache holds another PUT if `stale`.
The read cache holds the last PUT if `hot = some true` and another one if `hot = some false`. -/
structure Overwritten {V W : Type} [Backend V W] (env : Env) (cfg : PoolConfig (n + 1))
    (bucket key : String) (dataN parityN : Nat) (fresh : Finset (Fin (n + 1))) (stale : Bool)
    (hot : Option Bool) (last : Generation (n + 1)) (p : Pool V (n + 1)) : Prop where
  layout : last.dataN = dataN ∧ last.parityN = parityN
  lastStored : last.Stored env cfg.planner bucket key
  holds : ∃ (gen : Fin (n + 1) → Generation (n + 1)) (wc rc : Option (Generation (n + 1))),
    PoolHolds env cfg bucket key gen wc rc p ∧ (∀ d ∈ fresh, gen d = last) ∧
      wc.isSome = stale ∧ rc.isSome = hot.isSome ∧ (hot = some true → rc = some last)

/-- Reads return the last PUT or an error. `get_object` is asked only for bodies that it can join:
those of one block, or with one data shard. -/
structure ReadsOnly {V W : Type} [Backend V W] (env : Env) (bucket key : String)
    (last : Generation (n + 1)) (p : Pool V (n + 1)) : Prop where
  get : last.body.length ≤ streamBlockSize ∨ last.dataN = 1 → ∀ data info,
    (getObject env bucket key p).1 = .ok (data, info) →
      data = last.body ∧ info = last.info env bucket key
  stream : ∀ (info : ObjectInfo) (pieces : List Bytes),
    (getObjectStream env bucket key p).1 = .ok (info, pieces.map .ok) →
      pieces.flatten = last.body ∧ info = last.info env bucket key

/-- Reads return the last PUT. -/
structure Serves {V W : Type} [Backend V W] (env : Env) (bucket key : String)
    (last : Generation (n + 1)) (p : Pool V (n + 1)) : Prop where
  get : last.body.length ≤ streamBlockSize ∨ last.dataN = 1 →
    (getObject env bucket key p).1 = .ok (last.body, last.info env bucket key)
  stream : ∃ pieces : List Bytes, (getObjectStream env bucket key p).1 =
    .ok (last.info env bucket key, pieces.map .ok) ∧ pieces.flatten = last.body

/-- No cache holds another PUT, and unless the read cache has the last one, the first disk and the
disks of its data shards do. -/
def ReadsFresh (env : Env) (cfg : PoolConfig (n + 1)) (bucket key : String) (dataN : Nat)
    (fresh : Finset (Fin (n + 1))) (stale : Bool) (hot : Option Bool) : Prop :=
  stale = false ∧ (hot = some true ∨ hot = none ∧ 0 ∈ fresh ∧
    ∀ i < dataN, ∀ d, (cfg.planner.distribution env bucket key (n + 1))[i]? = some d → d ∈ fresh)

theorem Serves.readsOnly
    {p : Pool V (n + 1)} (h : Serves env bucket key last p) : ReadsOnly env bucket key last p := by
  refine ⟨fun hlen data info hget => ?_, fun info pieces hstream => ?_⟩
  · rw [h.get hlen, Except.ok.injEq, Prod.mk.injEq] at hget
    exact ⟨hget.1.symm, hget.2.symm⟩
  · obtain ⟨pieces', hserve, hflat⟩ := h.stream
    rw [hserve, Except.ok.injEq, Prod.mk.injEq] at hstream
    have hpieces : pieces' = pieces :=
      map_injective_iff.mpr (fun _ _ he => Except.ok.inj he) hstream.2
    exact ⟨hpieces ▸ hflat, hstream.1.symm⟩

/-- **Fresh data shards are enough.** -/
theorem ReadsFresh.serves {stale : Bool} {hot : Option Bool} {p : Pool V (n + 1)}
    (hfresh : ReadsFresh env cfg bucket key dataN fresh stale hot)
    (h : Overwritten env cfg bucket key dataN parityN fresh stale hot last p) :
    Serves env bucket key last p := by
  obtain ⟨hstale, hcase⟩ := hfresh
  obtain ⟨gen, wc, rc, hp, hgen, hwc, hrc, hlast⟩ := h.holds
  obtain rfl : wc = none := by
    rw [hstale] at hwc
    exact isNone_iff_eq_none.mp (by simpa using hwc)
  rcases hcase with hhot | ⟨hhot, h0, hdata⟩
  · -- the read cache has the last PUT
    obtain rfl := hlast hhot
    obtain ⟨hget, hstream⟩ := getObject_of_read env hp.check hp.write hp.read
    exact ⟨fun _ => hget, [last.body], hstream, by simp⟩
  · -- the disks have it
    obtain rfl : rc = none := by
      rw [hhot] at hrc
      exact isNone_iff_eq_none.mp (by simpa using hrc)
    have hgen0 : gen 0 = last := hgen 0 h0
    have hrows : (mixedRows env cfg bucket key gen).take last.dataN =
        last.rows.take last.dataN := by
      refine ext_getElem ?_ fun i h1 h2 => ?_
      · rw [length_take, length_take, mixedRows_length hp.stored, hgen0,
          h.lastStored.total, h.lastStored.rows_length]
      · rw [length_take] at h1 h2
        have hi : i < (cfg.planner.distribution env bucket key (n + 1)).length := by
          rw [h.lastStored.distribution_length]
          have := h.lastStored.rows_length
          omega
        have hd := hdata i (by rw [← h.layout.1]; omega) _ (getElem?_eq_getElem hi)
        rw [getElem_take, getElem_take]
        simp only [mixedRows, getElem_mapIdx, hgen _ hd]
        exact getD_eq_getElem _ _ (by omega)
    constructor
    · intro hlen
      rw [getObject_mixed hp, hgen0, hrows, h.lastStored.join hlen]
    · obtain ⟨pieces, hrun, hflat⟩ := getObjectStream_mixed hp (by rw [hgen0, hrows])
      rw [hgen0] at hrun hflat
      exact ⟨pieces, hrun, hflat⟩

/-! ### Overwrites that show -/

/-- A PUT through the streaming path, told apart by its time and its body. -/
def plainGeneration (env : Env) (bucket key : String) (record : PlacementRecord (n + 1))
    (dataN parityN createdAt : Nat) (body : Bytes) : Generation (n + 1) where
  req := ⟨bucket, key, none, ⟨"", [], [], none, none, false⟩, createdAt, none⟩
  body := body
  dataN := dataN
  parityN := parityN
  record := record
  rows := encodeObject env dataN parityN body

variable (hplan : cfg.planner.plan env bucket key dataN parityN = .ok record) (hn : dataN + parityN = n + 1)

include hplan hn in
theorem plainGeneration_stored (createdAt : Nat) (body : Bytes) :
    (plainGeneration env bucket key record dataN parityN createdAt body).Stored env cfg.planner
      bucket key :=
  ⟨hplan, hn, Or.inl rfl⟩

/-- Local volumes can hold any such PUTs, one per disk. -/
theorem exists_pool (hb : ValidBucket bucket)
    (hk : ValidKey key) {gen : Fin (n + 1) → Generation (n + 1)}
    (hs : ∀ d, (gen d).Stored env cfg.planner bucket key)
    (hvid : ∀ d, (gen d).req.versionId = none) (wc rc : Option (Generation (n + 1))) :
    ∃ p : Pool LocalVolume (n + 1), PoolHolds env cfg bucket key gen wc rc p := by
  have hdisk : ∀ d, ∃ v : LocalVolume, Backend.bucketExists bucket v = true ∧
      ∀ i, (cfg.planner.distribution env bucket key (n + 1))[i]? = some d →
        DiskHolds env bucket key (gen d) i v := by
    intro d
    obtain ⟨i, hi⟩ := (hs 0).exists_index d
    obtain ⟨v, hwrite, hexists⟩ := writeShard_empty hb hk ""
      ((gen d).rows.getD i []) ((gen d).metaOf env i)
    refine ⟨v, hexists, fun j hj => ?_⟩
    obtain rfl : i = j := (hs 0).index_unique hi hj
    exact DiskHolds.of_writeShard (hvid d) hwrite
  choose disks hexists hholds using hdisk
  refine ⟨{ disks := disks
            writeCache := wc.map fun g =>
              ⟨(∅ : AList _).insert (bucket, key)
                (smallEntry env cfg g.req g.record g.parityN g.body g.rows), 0, 0⟩
            readCache := rc.map fun g =>
              ⟨(∅ : AList _).insert (bucket, key) ⟨g.body, g.info env bucket key⟩, 0, 0, 0⟩ },
    ?_, hs, fun i d hi => hholds d i hi, ?_, ?_⟩
  · have hcount : 1 ≤ ((finRange (n + 1)).filter fun d =>
        Backend.bucketExists bucket (disks d)).length := by
      refine length_pos_of_mem (a := 0) (mem_filter.mpr ⟨mem_finRange 0, ?_⟩)
      exact hexists 0
    unfold checkKey headBucket
    simp only [hb, hk, bind, Except.bind, decide_eq_true hcount]
    rfl
  · cases wc with
    | none => rfl
    | some g => exact AList.lookup_insert _
  · cases rc with
    | none => rfl
    | some g => exact AList.lookup_insert _

variable (hd : 0 < dataN) (hle : dataN ≤ streamBlockSize)

include hd hle in
/-- The shards of a body with one byte for each data shard are the symbols of its code word. -/
theorem encodeObject_bytes (env : Env) (parityN : Nat) {body : Bytes}
    (hbody : body.length = dataN) {i : Nat} (hi : i < dataN + parityN) :
    (encodeObject env dataN parityN body).getD i [] =
      [((env.code dataN parityN).word body).getD i default] := by
  have hne : body ≠ [] := by
    rintro rfl
    rw [length_nil] at hbody
    omega
  have hsize : shardSize dataN dataN = 1 := by
    unfold shardSize divCeil
    rw [show dataN + dataN - 1 = dataN - 1 + dataN by omega, Nat.add_div_right _ hd,
      Nat.div_eq_of_lt (by omega)]
    rfl
  have hcolumn : column (pieces dataN 1 body) 0 = body := by
    refine ext_getElem (by simp [hbody]) fun j h1 h2 => ?_
    simp [column, pieces, getD_eq_getElem?_getD, h2, padRight]
  have hblock : encodeObject env dataN parityN body =
      encodeRows (env.code dataN parityN) parityN 1 (pieces dataN 1 body) := by
    rw [encodeObject_one_block env dataN parityN hne (by rw [hbody]; exact hle)]
    unfold encodeBlock
    rw [hbody, hsize]
  have hlen : i < (encodeObject env dataN parityN body).length := by
    rw [encodeObject_length]
    exact hi
  have hrow : ((encodeObject env dataN parityN body).getD i []).length = 1 := by
    rw [getD_eq_getElem _ _ hlen]
    refine encodeRows_row_length (fun r hr => length_of_mem_pieces hr)
      (show (encodeObject env dataN parityN body)[i] ∈ encodeRows (env.code dataN parityN)
        parityN 1 (pieces dataN 1 body) from ?_)
    rw [← hblock]
    exact getElem_mem hlen
  obtain ⟨b, hb⟩ := length_eq_one_iff.mp hrow
  have hsymbol : ((encodeRows (env.code dataN parityN) parityN 1
      (pieces dataN 1 body)).getD i []).getD 0 default =
        ((env.code dataN parityN).word (column (pieces dataN 1 body) 0)).getD i default :=
    encodeRows_symbol _ _ (by simpa using hi) (by omega)
  rw [← hblock, hb, hcolumn] at hsymbol
  rw [hb, ← hsymbol]
  rfl

include hd hle in
/-- So each has one byte. -/
theorem length_of_mem_encodeObject_bytes {body r : Bytes} (hbody : body.length = dataN)
    (hr : r ∈ encodeObject env dataN parityN body) : r.length = 1 := by
  obtain ⟨i, hi, rfl⟩ := mem_iff_getElem.mp hr
  rw [← getD_eq_getElem _ [] hi, encodeObject_bytes hd hle env parityN hbody (by
    rwa [encodeObject_length] at hi)]
  rfl

include hd hle in
/-- The data shards of a body of equal bytes, one for each. -/
theorem encodeObject_unit (env : Env) (parityN : Nat) (x : UInt8) {i : Nat} (hi : i < dataN) :
    (encodeObject env dataN parityN (replicate dataN x)).getD i [] = [x] := by
  rw [encodeObject_bytes hd hle env parityN length_replicate (by omega)]
  unfold Lib.ErasureCode.word
  rw [getD_append _ _ _ _ (by simpa using hi), getD_replicate _ hi]

/-- A pool of local volumes in which two PUTs are spread as asked for. -/
theorem exists_overwritten (hb : ValidBucket bucket) (hk : ValidKey key) {last other : Generation (n + 1)}
    (hlast : last.Stored env cfg.planner bucket key) (hother : other.Stored env cfg.planner bucket key)
    (hvid : last.req.versionId = none ∧ other.req.versionId = none)
    (hlayout : last.dataN = dataN ∧ last.parityN = parityN)
    (fresh : Finset (Fin (n + 1))) (stale : Bool) (hot : Option Bool) : ∃ p : Pool LocalVolume (n + 1),
      Overwritten env cfg bucket key dataN parityN fresh stale hot last p ∧
      PoolHolds env cfg bucket key (fun d => if d ∈ fresh then last else other)
        (if stale then some other else none) (hot.map fun isLast => if isLast then last else other) p := by
  have hgen : ∀ d, (if d ∈ fresh then last else other).Stored env cfg.planner bucket key ∧
      (if d ∈ fresh then last else other).req.versionId = none := by
    intro d
    by_cases hd : d ∈ fresh
    · rw [if_pos hd]
      exact ⟨hlast, hvid.1⟩
    · rw [if_neg hd]
      exact ⟨hother, hvid.2⟩
  obtain ⟨p, hp⟩ := exists_pool hb hk (fun d => (hgen d).1) (fun d => (hgen d).2)
    (if stale then some other else none) (hot.map fun isLast => if isLast then last else other)
  refine ⟨p, ⟨hlayout, hlast, _, _, _, hp, ?_, ?_, ?_, ?_⟩, hp⟩
  · intro d hd
    exact if_pos hd
  · cases stale <;> rfl
  · cases hot <;> rfl
  · rintro rfl
    rfl

include hd hle hplan hn in
/-- What `get_object` makes of two PUTs with one byte per data shard: a byte from each disk. -/
theorem mixedRows_unit {last other : Generation (n + 1)} {x y : UInt8}
    (hx : last.rows = encodeObject env dataN parityN (replicate dataN x))
    (hy : other.rows = encodeObject env dataN parityN (replicate dataN y)) :
    ((mixedRows env cfg bucket key fun d => if d ∈ fresh then last else other).take
        dataN).flatten.take dataN = (range dataN).map fun j =>
        if (cfg.planner.distribution env bucket key (n + 1)).getD j 0 ∈ fresh then x else y := by
  have hlen := (plainGeneration_stored hplan hn 0 []).distribution_length
  have hrows : (mixedRows env cfg bucket key fun d => if d ∈ fresh then last else other).take dataN =
      (range dataN).map fun j =>
        [if (cfg.planner.distribution env bucket key (n + 1)).getD j 0 ∈ fresh then x else y] := by
    refine ext_getElem ?_ fun j h1 h2 => ?_
    · simp only [mixedRows, length_take, length_mapIdx, hlen, length_map, length_range]
      omega
    · have hj : j < dataN := by simpa using h2
      have hjlen : j < (cfg.planner.distribution env bucket key (n + 1)).length := by omega
      have hdisk : (cfg.planner.distribution env bucket key (n + 1)).getD j 0 =
          (cfg.planner.distribution env bucket key (n + 1))[j] := getD_eq_getElem _ _ _
      simp only [mixedRows, getElem_take, getElem_mapIdx, getElem_map, getElem_range]
      rw [hdisk]
      split
      · rw [hx]
        exact encodeObject_unit hd hle env parityN x hj
      · rw [hy]
        exact encodeObject_unit hd hle env parityN y hj
  rw [hrows, ← flatMap_def, ← map_eq_flatMap, take_of_length_le (by simp)]

/-- **When reads never mix PUTs.** Take a layout over all disks, a set of disks that hold the last
PUT of a key, and what the caches hold. Reads return the last PUT or an error, for all bodies and
all earlier PUTs on the other disks, if and only if no cache holds an earlier PUT and, unless the
read cache holds the last one, the first disk and the disks of its data shards do; and then reads do
return it. A layout with more data shards than a block has bytes is left out: its last shards never
hold a byte. -/
theorem reads_last_iff (hb : validateBucketName bucket = .ok ())
    (hk : validateObjectKey key = .ok ())
    (hplan : cfg.planner.plan env bucket key dataN parityN = .ok record)
    (hn : dataN + parityN = n + 1) (hle : dataN ≤ streamBlockSize)
    (fresh : Finset (Fin (n + 1))) (stale : Bool) (hot : Option Bool) :
    ((∀ (V W : Type) [Backend V W] (last : Generation (n + 1)) (p : Pool V (n + 1)),
        Overwritten env cfg bucket key dataN parityN fresh stale hot last p →
          ReadsOnly env bucket key last p) ↔ ReadsFresh env cfg bucket key dataN fresh stale hot) ∧
    (ReadsFresh env cfg bucket key dataN fresh stale hot →
      ∀ (V W : Type) [Backend V W] (last : Generation (n + 1)) (p : Pool V (n + 1)),
        Overwritten env cfg bucket key dataN parityN fresh stale hot last p →
          Serves env bucket key last p) := by
  have hserves : ReadsFresh env cfg bucket key dataN fresh stale hot →
      ∀ (V W : Type) [Backend V W] (last : Generation (n + 1)) (p : Pool V (n + 1)),
        Overwritten env cfg bucket key dataN parityN fresh stale hot last p →
          Serves env bucket key last p := fun hfresh V W _ last p h => hfresh.serves h
  refine ⟨⟨fun hall => ?_, fun hfresh V W _ last p h => (hserves hfresh V W last p h).readsOnly⟩,
    hserves⟩
  have hd := PlacementPlanner.plan_data_pos hplan
  have hstored := plainGeneration_stored hplan hn
  -- two empty bodies that differ in their time
  obtain ⟨p, hover, hp⟩ := exists_overwritten hb hk (hstored 0 []) (hstored 1 []) ⟨rfl, rfl⟩ ⟨rfl, rfl⟩
    fresh stale hot
  have hget := (hall LocalVolume LocalShardWriter _ p hover).get (Or.inl (Nat.zero_le _))
  have htime : ∀ data info, (getObject env bucket key p).1 = .ok (data, info) →
      info.createdAt = 0 := fun data info h => by rw [(hget data info h).2]; rfl
  have hstale : stale = false := by
    by_contra hne
    rw [Bool.not_eq_false] at hne
    subst hne
    exact absurd (htime _ _ (getObject_of_write env hp.check hp.write)) Nat.one_ne_zero
  subst hstale
  refine ⟨rfl, ?_⟩
  rcases hot with _ | isLast
  swap
  · refine Or.inl (congrArg some ?_)
    by_contra hne
    rw [Bool.not_eq_true] at hne
    subst hne
    exact absurd (htime _ _ (getObject_of_read env hp.check hp.write hp.read).1) Nat.one_ne_zero
  refine Or.inr ⟨rfl, ?_, ?_⟩
  · by_contra h0
    have hmixed := getObject_mixed hp
    simp only [if_neg h0] at hmixed
    exact absurd (htime _ _ hmixed) Nat.one_ne_zero
  · intro i hi d hdist
    by_contra hdf
    -- one byte per data shard: ones in the last PUT, zeros in the other
    obtain ⟨p', hover', hp'⟩ := exists_overwritten hb hk (hstored 0 (replicate dataN 1))
      (hstored 0 (replicate dataN 0)) ⟨rfl, rfl⟩ ⟨rfl, rfl⟩ fresh false none
    set ones := plainGeneration env bucket key record dataN parityN 0 (replicate dataN 1)
    set zeros := plainGeneration env bucket key record dataN parityN 0 (replicate dataN 0)
    have hones : ones.body = replicate dataN 1 := rfl
    have hdata : ∀ d, (if d ∈ fresh then ones else zeros).dataN = dataN := fun d => by split <;> rfl
    have hbody : ∀ d, (if d ∈ fresh then ones else zeros).body.length = dataN := fun d => by
      split <;> exact length_replicate
    have hget' := (hall LocalVolume LocalShardWriter _ p' hover').get (Or.inl (by simpa [hones] using hle))
    have hmixed := getObject_mixed hp'
    rw [hdata, hbody, mixedRows_unit hplan hn hd hle rfl rfl] at hmixed
    have heq := congrArg (fun l : Bytes => l[i]?) (hget' _ _ hmixed).1
    simp only [hones, getElem?_map, getElem?_range hi, map_some, getElem?_replicate, if_pos hi,
      getD_eq_getElem?_getD, hdist, getD_some, if_neg hdf] at heq
    exact absurd heq (by decide)

end Last

/-! ### Three disks -/

/-- The configuration `VolumePool::new` builds for three disks. -/
def threeConfig : PoolConfig 3 where
  planner := {
    epochId := 1
    clusterId := "local-set"
    disks := [⟨0, "local", "v0"⟩, ⟨1, "local", "v1"⟩, ⟨2, "local", "v2"⟩]
    nodup := by decide }
  localNodeId := ""

/-- Empty disks without caches. The fourth file system call on each disk of `bad` fails. -/
def faultyPool (n : Nat) (bad : List Nat) : Pool LocalVolume n where
  disks d := { sampleVolume (["v0", "v1", "v2", "v3"].getD d "") with
    faults := if d.val ∈ bad then [none, none, none, some "disk error"] else [] }
  writeCache := none
  readCache := none

/-- Three disks, one faulty. -/
def threePool : Pool LocalVolume 3 := faultyPool 3 [1]

/-- A PUT of one byte with one data and two parity shards. -/
def threeRequest (createdAt : Nat) : PutRequest :=
  { sampleRequest with
    opts := { sampleRequest.opts with ecFtt := some 2 }
    createdAt := createdAt
    contentLength := some 1 }

/-- The pool after a PUT of `x` that every disk stores. -/
def threeFirst : Pool LocalVolume 3 :=
  (putObjectStream sampleEnv threeConfig (threeRequest 1) true [.ok (utf8 "x")] threePool).2

/-- The pool after a PUT of `y` that fails on disk 1. -/
def threeSecond : Pool LocalVolume 3 :=
  (putObjectStream sampleEnv threeConfig (threeRequest 2) true [.ok (utf8 "y")] threeFirst).2

/-- Three disks, of which disk 1 has the data shard: reads are safe when disks 0 and 1 hold the last
PUT, and not when disks 0 and 2 do, although that is a write quorum. -/
theorem reads_last_iff_three : (∀ (V W : Type) [Backend V W] (last : Generation 3) (p : Pool V 3),
      Overwritten sampleEnv threeConfig "bkt" "k" 1 2 {0, 1} false none last p →
        Serves sampleEnv "bkt" "k" last p) ∧
    ¬ ∀ (V W : Type) [Backend V W] (last : Generation 3) (p : Pool V 3),
      Overwritten sampleEnv threeConfig "bkt" "k" 1 2 {0, 2} false none last p →
        ReadsOnly sampleEnv "bkt" "k" last p := by
  obtain ⟨record, hplan⟩ : ∃ record,
      threeConfig.planner.plan sampleEnv "bkt" "k" 1 2 = .ok record := ⟨_, rfl⟩
  have hiff := reads_last_iff (show validateBucketName "bkt" = .ok () by decide)
    (show validateObjectKey "k" = .ok () by decide) hplan rfl (by decide)
  have hdist : threeConfig.planner.distribution sampleEnv "bkt" "k" 3 = [1, 2, 0] := by
    decide +kernel
  refine ⟨(hiff {0, 1} false none).2 ⟨rfl, Or.inr ⟨rfl, by decide, ?_⟩⟩, fun hall => ?_⟩
  · intro i hi d hd
    rw [hdist, Nat.lt_one_iff.mp hi] at hd
    cases hd
    decide
  · obtain ⟨-, hcase⟩ := (hiff {0, 2} false none).1.mp hall
    rcases hcase with hhot | ⟨-, -, hdata⟩
    · cases hhot
    · have hmem := hdata 0 Nat.one_pos 1 (by rw [hdist]; rfl)
      revert hmem
      decide

/-- **A read that mixes two PUTs.** Both PUTs are acknowledged, the second one with its shards on
disks 0 and 2. Reads then return the body of the first with the metadata of the second. -/
theorem reads_mix_two_puts :
    (putObjectStream sampleEnv threeConfig (threeRequest 1) true [.ok (utf8 "x")] threePool).1 =
        .ok (putInfo sampleEnv (threeRequest 1) (utf8 "x"), []) ∧
      (putObjectStream sampleEnv threeConfig (threeRequest 2) true [.ok (utf8 "y")] threeFirst).1 =
        .ok (putInfo sampleEnv (threeRequest 2) (utf8 "y"), []) ∧
      (getObject sampleEnv "bkt" "k" threeSecond).1 =
        .ok (utf8 "x", putInfo sampleEnv (threeRequest 2) (utf8 "y")) ∧
      (getObjectStream sampleEnv "bkt" "k" threeSecond).1 =
        .ok (putInfo sampleEnv (threeRequest 2) (utf8 "y"), [.ok (utf8 "x")]) := by
  refine ⟨?_, ?_, ?_, ?_⟩
  all_goals decide +kernel

end Abixio
