import Abixio.Storage.WriterMoves
import Abixio.Storage.HealthyPut

/-!
# PUTs while disks fail

`put_object_stream` (`src/storage/volume_pool.rs:388-646`) when some disks stop working during the
PUT, and a GET while they still do not work.

* `Failing V` is a disk of any kind whose calls fail from some point on. The others are disks on
  which the calls of the PUT succeed (`PutReady`).
* A PUT needs `data_n + 1` shards. `finalize` and `write_shard` failures are counted against that
  (`src/storage/erasure_encode.rs:464-487`, `src/storage/volume_pool.rs:595-608`), but the first
  failure to open a writer or to write a chunk ends the PUT
  (`src/storage/erasure_encode.rs:353-356`, `534-565`).
* What the remaining disks hold is enough for a streaming GET (`getObjectStream_survivors`).

`put_tolerates_iff`: with fewer than `parity_n` failing disks, the PUT is acknowledged and read back
exactly if it takes the small-object path, or every failing disk still takes all its chunks.
-/

namespace Abixio

open Lib List
open PlacementShard (backendIndex)
open Backend (bucketExists finalize mmapShard statObject writeShard)

variable {V W : Type} [Backend V W] {req : PutRequest} {chunks : List Bytes} {n : Nat} {env : Env}
  {bucket key : String} {record : PlacementRecord n}

/-! ## Disks that fail -/

section Failing

variable {α : Type}

/-- A disk on which every call fails once `calls` more calls were made; `none` is a disk that does
not fail. -/
structure Failing (V : Type) where
  volume : V
  calls : Option Nat

/-- The error of a failed disk. -/
def diskFailed : StorageError := .io "disk failed"

/-- A call that can change the disk. -/
def Failing.call (x : VolAct V α) : VolAct (Failing V) α := fun f =>
  match f.calls with
  | some 0 => (.error diskFailed, f)
  | some (k + 1) => ((x f.volume).1, ⟨(x f.volume).2, some k⟩)
  | none => ((x f.volume).1, ⟨(x f.volume).2, none⟩)

/-- A call that reads. -/
def Failing.ask (read : V → Except StorageError α) (f : Failing V) : Except StorageError α :=
  if f.calls = some 0 then .error diskFailed else read f.volume

instance : Backend (Failing V) W where
  volumeId f := Backend.volumeId f.volume
  openShardWriter bucket key vid := Failing.call (Backend.openShardWriter bucket key vid)
  writeChunk w data := Failing.call (Backend.writeChunk w data)
  finalize w m := Failing.call (finalize w m)
  writeShard bucket key data m := Failing.call (writeShard bucket key data m)
  readShard bucket key := Failing.ask (Backend.readShard bucket key)
  mmapShard bucket key := Failing.ask (mmapShard bucket key)
  deleteObject bucket key := Failing.call (Backend.deleteObject bucket key)
  statObject bucket key := Failing.ask (statObject bucket key)
  readMetaVersions bucket key := Failing.ask (Backend.readMetaVersions bucket key)
  writeMetaVersions bucket key versions :=
    Failing.call (Backend.writeMetaVersions bucket key versions)
  readVersionedShard bucket key vid := Failing.ask (Backend.readVersionedShard bucket key vid)
  deleteVersionData bucket key vid := Failing.call (Backend.deleteVersionData bucket key vid)
  listObjects bucket keyPrefix := Failing.ask (Backend.listObjects bucket keyPrefix)
  bucketExists bucket f := f.calls ≠ some 0 && bucketExists bucket f.volume
  readBucketSettings bucket f :=
    if f.calls = some 0 then .empty else Backend.readBucketSettings bucket f.volume
  readPart bucket key number f :=
    if f.calls = some 0 then none else Backend.readPart bucket key number f.volume

/-- A disk on which the calls of a PUT succeed, whatever is written. -/
structure PutReady (req : PutRequest) (v : V) : Prop where
  stream : ∀ chunks, ∃ w v₁, Writing req.bucket req.key req.versionId v chunks w v₁ ∧
    ∀ m, ∃ v₂, finalize w m v₁ = (.ok (), v₂) ∧ bucketExists req.bucket v₂ = true
  small : ∀ data m, ∃ v₁, writeShard req.bucket req.key data m v = (.ok (), v₁) ∧
    bucketExists req.bucket v₁ = true

variable {v v' : V} {w : W}

/-- A disk that does not fail works as the disk it is. -/
theorem writing_none (h : Writing req.bucket req.key req.versionId v chunks w v') :
    Writing req.bucket req.key req.versionId (⟨v, none⟩ : Failing V) chunks w ⟨v', none⟩ := by
  induction h with
  | opened h =>
    refine Writing.opened ?_
    change Failing.call _ _ = _
    simp only [Failing.call, h]
  | chunk hw h ih =>
    refine ih.chunk ?_
    change Failing.call _ _ = _
    simp only [Failing.call, h]

/-- Every successful call is one of the calls that are left. -/
theorem calls_of_writing {f f' : Failing V} {b : Nat} (hb : f.calls = some b)
    (h : Writing req.bucket req.key req.versionId f chunks w f') :
    ∃ rest, f'.calls = some rest ∧ b = rest + (1 + chunks.length) := by
  have hcall : ∀ {α : Type} {x : VolAct V α} {f f' : Failing V} {a : α} {b : Nat},
      f.calls = some b → Failing.call x f = (.ok a, f') →
        ∃ rest, f'.calls = some rest ∧ b = rest + 1 := by
    intro α x f f' a b hb hx
    unfold Failing.call at hx
    rw [hb] at hx
    cases b with
    | zero => cases hx
    | succ k =>
      simp only [Prod.mk.injEq] at hx
      exact ⟨k, by rw [← hx.2], rfl⟩
  induction h with
  | opened h => exact hcall hb h
  | chunk hw h ih =>
    obtain ⟨rest, hrest, hsum⟩ := ih
    obtain ⟨rest', hrest', hsum'⟩ := hcall hrest h
    refine ⟨rest', hrest', ?_⟩
    rw [length_append, length_singleton]
    omega

/-- **A failing disk takes as many chunks as it has calls left**, after the call that opens the
writer. -/
theorem takes_failing_iff {b : Nat} (h : Writing req.bucket req.key req.versionId v chunks w v') :
    Takes req (⟨v, some b⟩ : Failing V) chunks ↔ 1 + chunks.length ≤ b := by
  constructor
  · rintro ⟨w', f', hw⟩
    obtain ⟨rest, -, hsum⟩ := calls_of_writing rfl hw
    omega
  · intro hle
    obtain ⟨rest, rfl⟩ := Nat.exists_eq_add_of_le' hle
    suffices hrun : Writing req.bucket req.key req.versionId
        (⟨v, some (rest + (1 + chunks.length))⟩ : Failing V) chunks w ⟨v', some rest⟩ from
      ⟨_, _, hrun⟩
    clear hle
    induction h generalizing rest with
    | opened h =>
      refine Writing.opened ?_
      change Failing.call _ _ = _
      simp only [Failing.call, h]
      rfl
    | @chunk chunks w₁ w₂ v₁ v₂ data hw h ih =>
      have hbefore := ih (rest + 1)
      have hcalls : rest + 1 + (1 + chunks.length) = rest + (1 + (chunks ++ [data]).length) := by
        rw [length_append, length_singleton]
        omega
      rw [hcalls] at hbefore
      refine hbefore.chunk ?_
      change Failing.call _ _ = _
      simp only [Failing.call, h]

end Failing

/-! ## A GET without some of the disks -/

section Survivors

variable {planner : PoolPlanner n} {g : Generation n} {lost : Finset (Fin n)} {p : Pool V n}

/-- **The disks outside `lost` hold their shard of a PUT**, and the others return nothing. -/
structure Survivors (env : Env) (planner : PoolPlanner n) (bucket key : String)
    (g : Generation n) (lost : Finset (Fin n)) (disks : Disks V n) : Prop where
  stored : g.Stored env planner bucket key
  layout : g.parityN = 0 ∨ RsAccepts g.dataN g.parityN
  disk : ∀ (i : Nat) d, (planner.distribution env bucket key n)[i]? = some d → d ∉ lost →
    DiskHolds env bucket key g i (disks d)
  noStat : ∀ d ∈ lost, ∃ e, statObject bucket key (disks d) = .error e
  noShard : ∀ d ∈ lost, ∃ e, mmapShard bucket key (disks d) = .error e

section

variable (h : Survivors env planner bucket key g lost p.disks)
include h

theorem Survivors.exists_disk (hcard : lost.card ≤ g.parityN) :
    ∃ (i : Nat) (d : Fin n), (planner.distribution env bucket key n)[i]? = some d ∧ d ∉ lost := by
  have hlt : lost.card < Fintype.card (Fin n) := by
    rw [Fintype.card_fin]
    have htotal := h.stored.total
    have hpos := h.stored.data_pos
    omega
  obtain ⟨d, hd⟩ := Finset.exists_mem_notMem_of_card_lt_card
    (show lost.card < (Finset.univ : Finset (Fin n)).card by simpa using hlt)
  obtain ⟨i, hi⟩ := h.stored.exists_index d
  exact ⟨i, d, hi, hd.2⟩

/-- The first metadata found is that of the PUT. -/
theorem Survivors.firstStat (hcard : lost.card ≤ g.parityN) :
    ∃ i, firstStat bucket key p = some (g.metaOf env i) := by
  unfold Abixio.firstStat
  obtain ⟨i, d, hi, hd⟩ := h.exists_disk hcard
  cases hfind : (finRange n).findSome? fun d =>
      (statObject bucket key (p.disks d)).toOption with
  | none =>
    have hnone := findSome?_eq_none_iff.mp hfind d (mem_finRange d)
    rw [(h.disk i d hi hd).stat] at hnone
    cases hnone
  | some m =>
    obtain ⟨d', -, hd'⟩ := exists_of_findSome?_eq_some hfind
    by_cases hlost : d' ∈ lost
    · obtain ⟨e, he⟩ := h.noStat d' hlost
      rw [he] at hd'
      cases hd'
    · obtain ⟨i', hi'⟩ := h.stored.exists_index d'
      rw [(h.disk i' d' hi' hlost).stat] at hd'
      cases hd'
      exact ⟨i', rfl⟩

/-- The shards that are left, as the streaming decoder sees them. -/
theorem Survivors.objectReads :
    ∃ metas : Nat → ObjectMeta, (∀ i, { metas i with inlineData := none } = g.metaOf env i) ∧
      ObjectReads env (fun d => mmapShard bucket key (p.disks d))
        (planner.distribution env bucket key n) g.rows metas lost := by
  have hmetas : ∀ i, ∃ m : ObjectMeta, { m with inlineData := none } = g.metaOf env i ∧
      ∀ d, (planner.distribution env bucket key n)[i]? = some d → d ∉ lost →
        mmapShard bucket key (p.disks d) = .ok (g.rows.getD i [], m) := by
    intro i
    cases hd : (planner.distribution env bucket key n)[i]? with
    | none => exact ⟨g.metaOf env i, rfl, fun d h => by cases h⟩
    | some d =>
      by_cases hlost : d ∈ lost
      · refine ⟨g.metaOf env i, rfl, fun d' hd' hnot => ?_⟩
        cases hd'
        exact absurd hlost hnot
      · obtain ⟨m, hmmap, hm⟩ := (h.disk i d hd hlost).mmap
        refine ⟨m, hm, fun d' hd' _ => ?_⟩
        cases hd'
        exact hmmap
  choose metas hm hread using hmetas
  refine ⟨metas, hm, h.stored.distribution_nodup, ?_, fun i _ => ?_, fun i _ => ?_, hread,
    fun d hd => ?_⟩
  · exact h.stored.rows_length.trans h.stored.distribution_length.symm
  · exact congrArg (fun m => m.erasure.index) (hm i)
  · have hsum : (metas i).checksum = env.blake3Hex (g.rows.getD i []) :=
      congrArg (fun m => m.checksum) (hm i)
    rw [hsum]
    exact verifyShardChecksum_blake3 env _
  · rcases hd with hd | hd
    · obtain ⟨e, he⟩ := h.noShard d hd
      rw [he]
      rfl
    · rw [← h.stored.distribution] at hd
      exact absurd (mem_distribution h.stored.plan h.stored.total d) hd

/-- **A streaming GET needs only `data_n` of the disks.** -/
theorem getObjectStream_survivors (hmds : (env.code g.dataN g.parityN).Mds g.dataN g.parityN)
    (hparity : 0 < g.parityN) (hcard : lost.card ≤ g.parityN) (hcheck : checkKey bucket key none p = .ok ())
    (hwrite : cachedWrite bucket key p = none) (hread : cachedRead bucket key p = none) :
    ∃ pieces : List Bytes, (getObjectStream env bucket key p).1 =
        .ok (g.info env bucket key, pieces.map .ok) ∧ pieces.flatten = g.body := by
  have hs := h.stored
  obtain ⟨i, hstat⟩ := h.firstStat hcard
  obtain ⟨metas, hm, hreads⟩ := h.objectReads
  have hlen : g.rows.length = g.dataN + g.parityN := hs.rows_length.trans hs.total.symm
  have hdist : (planner.distribution env bucket key n).length = g.dataN + g.parityN :=
    hs.distribution_length.trans hs.total.symm
  have hcount := le_survives_count hs.distribution_nodup hdist hcard
  have hcount' : g.dataN ≤ ((range (g.dataN + g.parityN)).filter
      (survives (planner.distribution env bucket key n) lost)).length := by
    rw [← hdist]
    exact hcount
  obtain ⟨j, hgather⟩ := gatherShards_object hreads hlen hs.data_pos
    (by rw [hreads.length]; exact hcount)
  have hinfo : (metas j).toInfo bucket key = g.info env bucket key :=
    congrArg (fun m => m.toInfo bucket key) (hm j)
  have hsize : (metas j).size = g.body.length := congrArg ObjectMeta.size (hm j)
  obtain ⟨pieces, hrun, hflat⟩ : ∃ pieces : List Bytes, streamBlocks env g.dataN g.parityN
      (keepRows (survives (planner.distribution env bucket key n) lost) g.rows) g.body.length
        g.body.length 0 = pieces.map .ok ∧ pieces.flatten = g.body := by
    by_cases hne : g.body = []
    · rw [hne]
      exact ⟨[], rfl, rfl⟩
    rw [hs.rows_of_ne hne]
    exact streamBlocks_object (fun _ => hmds) h.layout hs.data_pos hcount' g.body
  refine ⟨pieces, ?_, hflat⟩
  rw [(getObject_of_disks env hcheck hwrite hread).2]
  have hplain := getStored_of_plain env (p := onReadCache (fun c => c.touch bucket key) p) hstat rfl
  have hec : objectEc bucket key (onReadCache (fun c => c.touch bucket key) p) =
      (g.dataN, g.parityN) := by
    rw [objectEc_onReadCache]
    unfold objectEc readEcFromMeta
    rw [hwrite, hstat]
    exact hs.layout i
  rw [hplain.2, ← hinfo]
  refine streamDecoded_ok env hec (by omega) ?_
  unfold readAndDecodeStream streamReads
  dsimp only [onReadCache]
  rw [hgather]
  simp only [bind, Except.bind, hsize, hrun]

end

end Survivors

/-! ## A PUT while disks fail -/

variable {results : List (Except StorageError Unit)}

section Put

/-- **The disks in `failing` fail during a PUT**: disk `d` after `after d` calls. The others work. -/
structure FailsDuring (req : PutRequest) (failing : Finset (Fin n)) (after : Fin n → Nat)
    (disks : Disks (Failing V) n) : Prop where
  calls : ∀ d, (disks d).calls = if d ∈ failing then some (after d) else none
  ready : ∀ d, PutReady req (disks d).volume

/-- The disks in `failing` do not work any more. -/
def failNow (failing : Finset (Fin n)) (p : Pool (Failing V) n) : Pool (Failing V) n :=
  { p with disks := fun d =>
      if d ∈ failing then { p.disks d with calls := some 0 } else p.disks d }

/-- **The PUT is acknowledged, and a GET returns the body** while the disks still fail. -/
structure StoredDespite (env : Env) (cfg : PoolConfig n) (req : PutRequest) (peerOk : Bool)
    (chunks : List Bytes) (failing : Finset (Fin n)) (p : Pool (Failing V) n) : Prop where
  acked : ∃ r, (putObjectStream env cfg req peerOk (chunks.map .ok) p).1 = .ok r
  readBack : ∃ (info : ObjectInfo) (pieces : List Bytes),
    (getObjectStream env req.bucket req.key (failNow failing
      (putObjectStream env cfg req peerOk (chunks.map .ok) p).2)).1 = .ok (info, pieces.map .ok) ∧
    pieces.flatten = chunks.flatten

variable {cfg : PoolConfig n} {dataN parityN : Nat} {failing : Finset (Fin n)} {after : Fin n → Nat}

theorem checkKey_of_bucket {vid : Option String} {p p' : Pool V n}
    (h : checkKey bucket key vid p = .ok ()) {d : Fin n}
    (hd : bucketExists bucket (p'.disks d) = true) : checkKey bucket key none p' = .ok () := by
  obtain ⟨ha, -⟩ := accepted_of_check h
  have hpos : 1 ≤ ((finRange n).filter fun d =>
      bucketExists bucket (p'.disks d)).length :=
    length_pos_of_mem (mem_filter.mpr ⟨mem_finRange d, hd⟩)
  unfold checkKey headBucket
  rw [ha.bucket_ok, ha.key_ok]
  simp only [bind, Except.bind, hpos, decide_true, if_true]

/-- When only the disks in `failing` fail, no more answers than disks in `failing` are missing. -/
theorem acks_of_working {distribution : List (Fin n)}
    (hnd : distribution.Nodup) (hlen : results.length = distribution.length)
    (hok : ∀ (i : Nat) d r, distribution[i]? = some d → d ∉ failing → results[i]? = some r →
      r = .ok ()) : results.length ≤ (results.filter Except.isOk).length + failing.card := by
  have hsplit := length_eq_length_filter_add (l := results) Except.isOk
  set failed := (distribution.zip results).filter fun e => !e.2.isOk with hfailed
  have hcount : (results.filter fun r => !r.isOk).length = failed.length := by
    have hsnd : (distribution.zip results).map Prod.snd = results := map_snd_zip hlen.le
    conv_lhs => rw [← hsnd, filter_map, length_map]
    rfl
  have hsub : (failed.map Prod.fst).Nodup := by
    refine List.Nodup.sublist (List.Sublist.map _ filter_sublist) ?_
    rw [map_fst_zip hlen.ge]
    exact hnd
  have hmem : ∀ d ∈ failed.map Prod.fst, d ∈ failing := by
    intro d hd
    obtain ⟨⟨d', r⟩, he, rfl⟩ := mem_map.mp hd
    obtain ⟨hzip, hbad⟩ := mem_filter.mp he
    obtain ⟨i, hi⟩ := mem_iff_getElem?.mp hzip
    obtain ⟨hdist, hres⟩ := getElem?_zip_eq_some.mp hi
    by_contra hnot
    rw [hok i d' r hdist hnot hres] at hbad
    cases hbad
  have hle : failed.length ≤ failing.card := by
    rw [← length_map (f := Prod.fst), ← toFinset_card_of_nodup hsub]
    exact Finset.card_le_card fun d hd => hmem d (mem_toFinset.mp hd)
  omega

/-- What a working disk holds it still holds, and a failed one returns nothing. -/
theorem Survivors.failNow {g : Generation n} {p : Pool (Failing V) n}
    (hs : g.Stored env cfg.planner bucket key)
    (hlayout : g.parityN = 0 ∨ RsAccepts g.dataN g.parityN)
    (hdisk : ∀ (i : Nat) d, (cfg.planner.distribution env bucket key n)[i]? = some d →
      d ∉ failing → DiskHolds env bucket key g i (p.disks d)) :
    Survivors env cfg.planner bucket key g failing (Abixio.failNow failing p).disks := by
  refine ⟨hs, hlayout, fun i d hi hd => ?_, fun d hd => ⟨diskFailed, ?_⟩, fun d hd => ⟨diskFailed, ?_⟩⟩
  · simp only [Abixio.failNow, if_neg hd]
    exact hdisk i d hi hd
  · simp only [Abixio.failNow, if_pos hd]
    rfl
  · simp only [Abixio.failNow, if_pos hd]
    rfl

/-! ### The streaming path -/

section Streamed

variable {s : Disks (Failing V) n} (hf : FailsDuring req failing after s)
  (hplan : cfg.planner.plan env req.bucket req.key dataN parityN = .ok record) (hn : dataN + parityN = n)

include hf in
/-- A disk that works takes every chunk, and is left as the disk it is. -/
theorem FailsDuring.working {d : Fin n} (hd : d ∉ failing) (chunks : List Bytes) :
    ∃ w v, Writing req.bucket req.key req.versionId (s d).volume chunks w v ∧
      Writing req.bucket req.key req.versionId (s d) chunks w ⟨v, none⟩ ∧
      ∀ m, ∃ v', finalize w m v = (.ok (), v') ∧ bucketExists req.bucket v' = true := by
  obtain ⟨w, v, hw, hfin⟩ := (hf.ready d).stream chunks
  have hcalls := hf.calls d
  rw [if_neg hd] at hcalls
  refine ⟨w, v, hw, ?_, hfin⟩
  have hdisk : s d = ⟨(s d).volume, none⟩ := by rw [← hcalls]
  rw [hdisk]
  exact writing_none hw

include hf hplan hn in
/-- **The body gets through exactly if every failing disk still takes its chunks.** -/
theorem encodeBody_failing_iff :
    (∃ st t, encodeBody env dataN parityN req record.distribution
      (chunks.map .ok) s = (.ok st, t)) ↔
    ∀ d ∈ failing, 1 + (Lib.blocks streamBlockSize chunks.flatten).length ≤ after d := by
  have hsound := PoolPlanner.plan_ok hplan
  have hlen (i) : (shardChunks env dataN parityN (Lib.blocks streamBlockSize chunks.flatten) i).length =
      (Lib.blocks streamBlockSize chunks.flatten).length := length_map _
  have hfailing : ∀ d ∈ failing, ∀ chunks : List Bytes,
      Takes req (s d) chunks ↔ 1 + chunks.length ≤ after d := by
    intro d hd chunks
    have hcalls := hf.calls d
    rw [if_pos hd] at hcalls
    have hdisk : s d = ⟨(s d).volume, some (after d)⟩ := by rw [← hcalls]
    obtain ⟨w, v, hw, -⟩ := (hf.ready d).stream chunks
    rw [hdisk]
    exact takes_failing_iff hw
  rw [encodeBody_total (PlacementPlanner.plan_data_pos hplan) hsound.nodup
    (by rw [length_map, hsound.length])]
  constructor
  · intro htakes d hd
    obtain ⟨i, hi⟩ := mem_iff_getElem?.mp (mem_distribution hplan hn d)
    rw [← hlen i]
    exact (hfailing d hd _).mp (htakes i d hi)
  · intro hcalls i d _
    by_cases hd : d ∈ failing
    · rw [hfailing d hd, hlen i]
      exact hcalls d hd
    · obtain ⟨w, v, -, hw, -⟩ := hf.working hd (shardChunks env dataN parityN
        (Lib.blocks streamBlockSize chunks.flatten) i)
      exact ⟨w, _, hw⟩

omit [Backend V W] in
theorem encodeAndWrite_striped {V W : Type} [Backend V W] {s : Disks V n} {body : Body}
    (hplan : cfg.planner.plan env req.bucket req.key dataN parityN = .ok record)
    (hparity : 0 < parityN) (hrs : RsAccepts dataN parityN) :
    encodeAndWrite env cfg.planner dataN parityN req body s =
      (encodeBody env dataN parityN req record.distribution body >>=
        commitShards env dataN parityN req record) s := by
  unfold encodeAndWrite encodeStriped rsFor
  rw [hplan, if_pos hparity, show rsNew dataN parityN = .ok () from hrs]
  simp only [Except.mapError, Act.ok_bind]
  rw [if_neg (show ¬ (dataN = 1 ∧ parityN = 0) by omega)]

include hf hplan in
/-- Once the body got through, the PUT is acknowledged, and the working disks hold it. -/
theorem encodeAndWrite_failing [LawfulBackend V] (hrs : RsAccepts dataN parityN)
    (hparity : 0 < parityN) (hcard : failing.card < parityN) {st : EncodeState W n}
    {s₁ : Disks (Failing V) n} (henc : encodeBody env dataN parityN req
      record.distribution (chunks.map .ok) s = (.ok st, s₁)) :
    ∃ r t, encodeAndWrite env cfg.planner dataN parityN req (chunks.map .ok) s = (.ok r, t) ∧
      ∀ (i : Nat) d, record.distribution[i]? = some d → d ∉ failing →
        DiskHolds env req.bucket req.key
          (streamedGeneration env req dataN parityN record chunks.flatten) i (t d) ∧
        bucketExists req.bucket (t d) = true := by
  have hsound := PoolPlanner.plan_ok hplan
  have hd := PlacementPlanner.plan_data_pos hplan
  have hlen := hsound.length_disks
  obtain ⟨chunks', hstream, hrec, hfeed⟩ := encodeBody_feeding hd hsound.nodup hlen henc
  obtain rfl := map_ok_inj hstream
  obtain ⟨results, t, hresults⟩ := finalizeWriters_total env req record parityN st s₁
  obtain ⟨hrlen, hfinal, -⟩ := finalizeWriters_ok (hfeed.encoding hsound.nodup hlen) hresults
  have hwlen : st.writers.length = dataN + parityN := by
    rw [← hlen, ← hfeed.disks, length_map]
  -- what happened on a working disk
  have hwork : ∀ (i : Nat) d r, record.distribution[i]? = some d →
      d ∉ failing → results[i]? = some r → r = .ok () ∧ DiskHolds env req.bucket req.key
        (streamedGeneration env req dataN parityN record chunks.flatten) i (t d) ∧
        bucketExists req.bucket (t d) = true := by
    intro i d r hi hnot hr
    have hlt : i < dataN + parityN := by
      rw [← hlen]
      exact (List.getElem?_eq_some_iff.mp hi).1
    obtain ⟨w₁, hp⟩ := hfeed.writer hi
    have hfed : st.fed[i]? = some ((encodeObject env dataN parityN chunks.flatten).getD i []) := by
      rw [hfeed.fed]
      rw [getD_eq_getElem _ _ (by simpa using hlt)]
      exact getElem?_eq_getElem _
    have hfin := hfinal i _ _ r hp hfed hr
    obtain ⟨w, v, hin, hout, hready⟩ := hf.working hnot _
    obtain ⟨hw, hv⟩ := hout.unique (hfeed.wrote i _ hp)
    rw [← hw, ← hv, hrec] at hfin
    obtain ⟨v', hv', hbucket⟩ := hready (shardMeta env req record parityN i chunks.flatten
      ((encodeObject env dataN parityN chunks.flatten).getD i []))
    have hcall : finalize w (shardMeta env req record parityN i chunks.flatten
        ((encodeObject env dataN parityN chunks.flatten).getD i [])) (⟨v, none⟩ : Failing V) =
        (.ok (), ⟨v', none⟩) := by
      change Failing.call _ _ = _
      simp only [Failing.call, hv']
    rw [hcall, Prod.mk.injEq] at hfin
    obtain ⟨hread, hmmap, hstat⟩ := LawfulBackend.read_finalized hin ⟨rfl, rfl, rfl, rfl⟩ rfl hv'
    rw [shardChunks_flatten hlt] at hread hmmap
    refine ⟨hfin.1.symm, ?_, ?_⟩
    · rw [← hfin.2]
      exact ⟨hread, hstat, _, hmmap, rfl⟩
    · rw [← hfin.2]
      exact hbucket
  have hacks := acks_of_working hsound.nodup
    (hrlen.trans (hwlen.trans hlen.symm)) fun i d r hi hnot hr => (hwork i d r hi hnot hr).1
  have hquorum : ¬ (results.filter Except.isOk).length < writeQuorum dataN parityN := by
    unfold writeQuorum
    rw [if_neg (Nat.pos_iff_ne_zero.mp hparity)]
    omega
  refine ⟨(putInfo env req st.received,
    if (results.filter Except.isOk).length < dataN + parityN then [⟨req.bucket, req.key⟩] else []),
    t, ?_, fun i d hi hnot => ?_⟩
  · rw [encodeAndWrite_striped hplan hparity hrs, Act.bind_ok henc]
    unfold commitShards
    rw [Act.bind_ok hresults, if_neg hquorum]
    rfl
  · have hi' : i < results.length := by
      rw [hrlen, hwlen, ← hlen]
      exact (List.getElem?_eq_some_iff.mp hi).1
    exact (hwork i d _ hi hnot (getElem?_eq_getElem hi')).2

end Streamed

/-! ### The small-object path -/

/-- The shards of a small object on disks of which some fail: the working ones hold them. -/
theorem writeShards_failing [LawfulBackend V] {body : Bytes}
    {rows : List Bytes} {s t : Disks (Failing V) n} (hf : FailsDuring req failing after s)
    (hplan : cfg.planner.plan env req.bucket req.key dataN parityN = .ok record)
    (hrows : rows.length = dataN + parityN)
    (h : writeShards req.bucket req.key (smallEntry env cfg req record parityN body rows) s =
      (.ok results, t)) : results.length ≤ (results.filter Except.isOk).length + failing.card ∧
      results.length = dataN + parityN ∧
      ∀ (i : Nat) d, record.distribution[i]? = some d → d ∉ failing →
        DiskHolds env req.bucket req.key (smallGeneration req dataN parityN record body rows) i
          (t d) ∧ bucketExists req.bucket (t d) = true := by
  have hsound := PoolPlanner.plan_ok hplan
  have hlen : rows.length = record.shards.length := by rw [hrows, hsound.length]
  obtain ⟨hrlen, hwritten, -⟩ := writeShards_spec hsound.nodup
    (by simpa [smallEntry] using hlen) (by simpa [smallEntry, smallMetas] using hlen) h
  have hdist : (smallEntry env cfg req record parityN body rows).distribution =
      record.distribution := rfl
  rw [hdist] at hrlen hwritten
  have hwork : ∀ (i : Nat) d, record.distribution[i]? = some d →
      d ∉ failing → results[i]? = some (.ok ()) ∧ DiskHolds env req.bucket req.key
        (smallGeneration req dataN parityN record body rows) i (t d) ∧
        bucketExists req.bucket (t d) = true := by
    intro i d hi hnot
    have hlt : i < rows.length := by
      rw [hlen]
      simpa using (List.getElem?_eq_some_iff.mp hi).1
    have hrow : rows[i]? = some (rows.getD i []) := by
      rw [getD_eq_getElem _ _ hlt]
      exact getElem?_eq_getElem hlt
    have hmeta : (smallEntry env cfg req record parityN body rows).metas[i]? =
        some ((smallGeneration req dataN parityN record body rows).metaOf env i) := by
      simp only [smallEntry, smallMetas, getElem?_mapIdx, hrow, Option.map_some]
      rfl
    obtain ⟨r, hr, hrun⟩ := hwritten i d _ _ hi hrow hmeta
    obtain ⟨v, hv, hbucket⟩ := (hf.ready d).small (rows.getD i [])
      ((smallGeneration req dataN parityN record body rows).metaOf env i)
    have hcalls := hf.calls d
    rw [if_neg hnot] at hcalls
    have hcall : writeShard req.bucket req.key (rows.getD i [])
        ((smallGeneration req dataN parityN record body rows).metaOf env i) (s d) =
        (.ok (), ⟨v, none⟩) := by
      change Failing.call _ _ = _
      simp only [Failing.call, hcalls, hv]
    rw [hcall, Prod.mk.injEq] at hrun
    have hholds : DiskHolds env req.bucket req.key
        (smallGeneration req dataN parityN record body rows) i v :=
      DiskHolds.of_writeShard rfl hv
    refine ⟨by rw [hr, hrun.1], ?_, ?_⟩
    · rw [← hrun.2]
      exact ⟨hholds.read, hholds.stat, hholds.mmap⟩
    · rw [← hrun.2]
      exact hbucket
  refine ⟨acks_of_working hsound.nodup hrlen fun i d r hi hnot hr => ?_, ?_,
    fun i d hi hnot => (hwork i d hi hnot).2⟩
  · rw [(hwork i d hi hnot).1, Option.some.injEq] at hr
    exact hr.symm
  · rw [hrlen, length_map, hsound.length]

/-! ### Both -/

section Both

variable {p : Pool (Failing V) n}

/-- A GET from the working disks, or from the read cache if that holds the body. -/
theorem get_despite {g : Generation n} {p' : Pool (Failing V) n}
    (hs : g.Stored env cfg.planner req.bucket req.key) (hparity : 0 < g.parityN)
    (hrs : RsAccepts g.dataN g.parityN) (hmds : (env.code g.dataN g.parityN).Mds g.dataN g.parityN)
    (hcard : failing.card < g.parityN)
    (hcheck : checkKey req.bucket req.key req.versionId p = .ok ())
    (hdisk : ∀ (i : Nat) d, g.record.distribution[i]? = some d →
      d ∉ failing → DiskHolds env req.bucket req.key g i (p'.disks d) ∧
        bucketExists req.bucket (p'.disks d) = true) (hwrite : p'.writeCache = none)
    (hread : cachedRead req.bucket req.key p' = none ∨
      ∃ info, cachedRead req.bucket req.key p' = some ⟨g.body, info⟩) :
    ∃ (info : ObjectInfo) (pieces : List Bytes),
      (getObjectStream env req.bucket req.key (failNow failing p')).1 =
        .ok (info, pieces.map .ok) ∧ pieces.flatten = g.body := by
  rw [hs.distribution] at hdisk
  have hsurv := Survivors.failNow hs (Or.inr hrs) fun i d hi hnot => (hdisk i d hi hnot).1
  obtain ⟨i, d, hi, hnot⟩ := hsurv.exists_disk hcard.le
  have hbucket : bucketExists req.bucket ((failNow failing p').disks d) = true := by
    simp only [failNow, if_neg hnot]
    exact (hdisk i d hi hnot).2
  have hcheck' := checkKey_of_bucket hcheck hbucket
  have hnowrite : cachedWrite req.bucket req.key (failNow failing p') = none := by
    unfold cachedWrite
    rw [show (failNow failing p').writeCache = none from hwrite]
    rfl
  rcases hread with hnone | ⟨info, hsome⟩
  · obtain ⟨pieces, hget, hflat⟩ :=
      getObjectStream_survivors hsurv hmds hparity hcard.le hcheck' hnowrite hnone
    exact ⟨_, pieces, hget, hflat⟩
  · refine ⟨info, [g.body], (getObject_of_read env hcheck' hnowrite hsome).2, by simp⟩

end Both

end Put

/-! ## Three disks -/

/-- The calls of an unversioned PUT succeed on a volume with nothing in the way. -/
theorem LocalVolume.Ready.putReady {v : LocalVolume} (ha : Accepted req.bucket req.key none)
    (hvid : req.versionId = none) (hv : v.Ready req.bucket req.key) : PutReady req v := by
  have hbucket : ∀ {v₁ : LocalVolume}, v₁.fs.isDir [req.bucket] = true →
      bucketExists req.bucket v₁ = true := bucketExists_of_isDir ha.bucket_ok
  refine ⟨fun chunks => ?_, fun data m => ?_⟩
  · obtain ⟨w, v₁, hw, hready⟩ := hv.writing ha chunks
    rw [hvid]
    refine ⟨w, v₁, hw, fun m => ?_⟩
    obtain ⟨v₂, hrun, -, hdir⟩ := hready.finalize ha m
    exact ⟨v₂, hrun, hbucket hdir⟩
  · obtain ⟨v₁, hrun, -, hdir⟩ := hv.writeShard ha.bucket_ok ha.key_ok data m
    exact ⟨v₁, hrun, hbucket hdir⟩

/-- Three empty disks without caches. Disk 2 fails after `after` calls. -/
def failingPool (after : Nat) : Pool (Failing LocalVolume) 3 where
  disks d :=
    if d = 0 then ⟨sampleVolume "v0", none⟩
    else if d = 1 then ⟨sampleVolume "v1", none⟩
    else ⟨sampleVolume "v2", some after⟩
  writeCache := none
  readCache := none

/-- A PUT of `x` with one data and two parity shards, and no content length. -/
def streamedRequest : PutRequest := { threeRequest 1 with contentLength := none }

theorem failingPool_failsDuring (after : Nat) :
    FailsDuring streamedRequest {2} (fun _ => after) (failingPool after).disks := by
  have hready : ∀ id, PutReady streamedRequest (sampleVolume id) := fun id =>
    (sampleVolume_ready id).putReady accepted_sample rfl
  refine ⟨fun d => ?_, fun d => ?_⟩
  · match d with
    | 0 => rfl
    | 1 => rfl
    | 2 => rfl
  · match d with
    | 0 => exact hready _
    | 1 => exact hready _
    | 2 => exact hready _

end Abixio
