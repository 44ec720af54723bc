import Abixio.Storage.FailingDisks
import Abixio.Storage.WalHealth

/-!
# The body of a GET response

What `get_object` sends (`src/s3_service.rs:491-515`) with the body stream of `get_object_stream`
(`src/storage/volume_pool.rs:761-885`). The response announces `info.size` bytes. An object of at most
64 MiB is collected into `ChunkedBytes`, a larger one is wrapped in a `SizedStream`; both count down the
bytes that are left (`src/s3_service.rs:24-89`).

* The counter is a `usize`, from which the length of every chunk is subtracted without a check. Release
  builds wrap. `CountsDown` says that this never happens and that the counter ends at zero.
* The write cache yields its data shards as they are, with the padding of `split_data`; the read cache and
  the files yield the body.
* So does a log that has the object pending, if the object has no version id. `mmap_shard`
  (`src/storage/local_volume.rs`) asks the log for the empty version id only, so a pending version is not
  found.

`body_exact_iff`: the chunks are the body and the counter goes from the announced length to zero, in
every tier, except for an object in the write cache whose shards are padded (`cached_body_padded`) and a
pending version (`logged_version_missing`).
-/

namespace Abixio

open List

/-! ## Streams that count their bytes -/

/-- `a -= b` on a `usize`. -/
def usizeSub (a b : Nat) : Nat := if b ≤ a then a - b else a + 2 ^ 64 - b

/-- A stream of items and the number of bytes that it has left. -/
structure CountedStream (α : Type) where
  queue : List α
  remaining : Nat
  deriving DecidableEq

namespace CountedStream

variable {α : Type} (len : α → Nat)

/-- `poll_next` of a stream whose items are ready. -/
def pollNext (c : CountedStream α) : Option α × CountedStream α :=
  match c.queue with
  | [] => (none, c)
  | a :: queue => (some a, ⟨queue, usizeSub c.remaining (len a)⟩)

/-- The stream after `k` polls. -/
def polled : Nat → CountedStream α → CountedStream α
  | 0, c => c
  | k + 1, c => polled k (c.pollNext len).2

/-- **The counter is exact**: it starts at `total`, never goes below zero, and is zero at the end. -/
structure CountsDown (total : Nat) (c : CountedStream α) : Prop where
  starts : c.remaining = total
  covered : ∀ k a, ((c.polled len k).pollNext len).1 = some a → len a ≤ (c.polled len k).remaining
  ends : ∀ k, ((c.polled len k).pollNext len).1 = none → (c.polled len k).remaining = 0

variable {len} {total : Nat}

/-- One poll: the next item is covered, and the rest counts down from what is left. -/
theorem countsDown_cons {a : α} {queue : List α} : CountsDown len total ⟨a :: queue, total⟩ ↔
      len a ≤ total ∧ CountsDown len (total - len a) ⟨queue, total - len a⟩ := by
  have hstep : len a ≤ total → (pollNext len ⟨a :: queue, total⟩).2 = ⟨queue, total - len a⟩ := by
    intro h
    simp only [pollNext, usizeSub, if_pos h]
  constructor
  · intro h
    have hle : len a ≤ total := h.covered 0 a rfl
    refine ⟨hle, rfl, fun k b hb => ?_, fun k hk => ?_⟩
    · have hcovered := h.covered (k + 1) b
      rw [polled, hstep hle] at hcovered
      exact hcovered hb
    · have hends := h.ends (k + 1)
      rw [polled, hstep hle] at hends
      exact hends hk
  · rintro ⟨hle, h⟩
    refine ⟨rfl, fun k b hb => ?_, fun k hk => ?_⟩
    · cases k with
      | zero =>
        cases hb
        exact hle
      | succ k =>
        rw [polled, hstep hle] at hb ⊢
        exact h.covered k b hb
    · cases k with
      | zero => cases hk
      | succ k =>
        rw [polled, hstep hle] at hk ⊢
        exact h.ends k hk

/-- **A counter is exact when the items have the announced length.** -/
theorem countsDown_iff (queue : List α) (total : Nat) :
    CountsDown len total ⟨queue, total⟩ ↔ (queue.map len).sum = total := by
  induction queue generalizing total with
  | nil =>
    have hpolled : ∀ k, polled len k (⟨[], total⟩ : CountedStream α) = ⟨[], total⟩ := by
      intro k
      induction k with
      | zero => rfl
      | succ k ih => exact ih
    constructor
    · intro h
      exact (h.ends 0 rfl).symm
    · intro h
      refine ⟨rfl, fun k a ha => ?_, fun k _ => ?_⟩
      · rw [hpolled] at ha
        cases ha
      · rw [hpolled]
        exact h.symm
  | cons a queue ih =>
    rw [countsDown_cons, ih, map_cons, sum_cons]
    omega

end CountedStream

/-- `ChunkedBytes`: chunks that were collected. -/
abbrev ChunkedBytes := CountedStream Bytes

/-- `ChunkedBytes::new`. -/
def ChunkedBytes.new (chunks : List Bytes) (total : Nat) : ChunkedBytes := ⟨chunks, total⟩

/-- `ChunkedBytes::poll_next`. -/
def ChunkedBytes.pollNext : ChunkedBytes → Option Bytes × ChunkedBytes :=
  CountedStream.pollNext length

/-- `SizedStream`: a body stream that is passed on. -/
abbrev SizedStream := CountedStream (Except StorageError Bytes)

/-- The bytes of an item. An error has none. -/
def itemLength (item : Except StorageError Bytes) : Nat := (item.toOption.map length).getD 0

/-- `SizedStream::poll_next`. -/
def SizedStream.pollNext : SizedStream → Option (Except StorageError Bytes) × SizedStream :=
  CountedStream.pollNext itemLength

/-! ## The response -/

/-- The body of a response. -/
inductive StreamingBlob where
  | chunked (c : ChunkedBytes)
  | sized (s : SizedStream)
  deriving DecidableEq

/-- Objects up to this size are collected before the response starts. -/
def collectLimit : Nat := 64 * 1024 * 1024

/-- The body that `get_object` answers with. -/
def responseBlob (info : ObjectInfo) (stream : DecodeStream) : Except StorageError StreamingBlob :=
  if info.size ≤ collectLimit then do
    let chunks ← stream.mapM id
    pure (.chunked (.new chunks info.size))
  else .ok (.sized ⟨stream, info.size⟩)

/-- The counter of the body is exact. -/
def StreamingBlob.CountsDown (total : Nat) : StreamingBlob → Prop
  | .chunked c => CountedStream.CountsDown length total c
  | .sized s => CountedStream.CountsDown itemLength total s

theorem collect_chunks (pieces : List Bytes) :
    (pieces.map (Except.ok : Bytes → Except StorageError Bytes)).mapM id = .ok pieces := by
  induction pieces with
  | nil => rfl
  | cons piece pieces ih =>
    rw [map_cons, mapM_cons, ih]
    rfl

/-- **The counter of a response is exact when the chunks have the announced length.** -/
theorem responseBlob_countsDown (info : ObjectInfo) (pieces : List Bytes) :
    (∃ blob, responseBlob info (pieces.map .ok) = .ok blob ∧ blob.CountsDown info.size) ↔
      pieces.flatten.length = info.size := by
  have hsum : ((pieces.map (Except.ok : Bytes → Except StorageError Bytes)).map itemLength).sum =
      pieces.flatten.length := by
    rw [map_map, length_flatten]
    rfl
  unfold responseBlob
  by_cases hsize : info.size ≤ collectLimit
  · rw [if_pos hsize, collect_chunks]
    constructor
    · rintro ⟨blob, hblob, hcount⟩
      obtain rfl := Except.ok.inj hblob
      rw [length_flatten]
      exact (CountedStream.countsDown_iff pieces info.size).mp hcount
    · intro h
      rw [length_flatten] at h
      exact ⟨_, rfl, (CountedStream.countsDown_iff pieces info.size).mpr h⟩
  · rw [if_neg hsize]
    constructor
    · rintro ⟨blob, hblob, hcount⟩
      obtain rfl := Except.ok.inj hblob
      rw [← hsum]
      exact (CountedStream.countsDown_iff _ info.size).mp hcount
    · intro h
      rw [← hsum] at h
      exact ⟨_, rfl, (CountedStream.countsDown_iff _ info.size).mpr h⟩

/-! ## The tiers -/

section Tiers

variable {log : NeedleEnv} {n : Nat}

/-- Where the latest PUT of a key is. -/
inductive Tier (n : Nat) where
  | writeCache
  | readCache
  | log (lost : Finset (Fin n))
  | disks (lost : Finset (Fin n))
  deriving DecidableEq

/-- The object waits in the log. -/
def Tier.isLog : Tier n → Bool
  | .log _ => true
  | _ => false

/-- Neither the files of a key nor an entry of it without a version id has this version. -/
structure Unseen (bucket key versionId : String) (v : WalVolume log) : Prop where
  files : ∀ m, LocalVolume.currentVersion bucket key v.files = .ok m → m.versionId ≠ versionId
  log : ∀ t ∈ v.tier, ∀ e, t.wal.getVersioned bucket key "" = some e →
    ∀ m, t.wal.readMeta log e = .ok m → m.versionId ≠ versionId

/-- **The disks outside `lost` have their shard of a PUT in the log**, under its version id, and the
others return nothing. A version is not in the files before a worker writes it. -/
structure Pending (env : Env) (planner : PoolPlanner n) (bucket key : String) (g : Generation n)
    (lost : Finset (Fin n)) (disks : Disks (WalVolume log) n) : Prop where
  stored : g.Stored env planner bucket key
  layout : g.parityN = 0 ∨ RsAccepts g.dataN g.parityN
  entry : ∀ (i : Nat) d, (planner.distribution env bucket key n)[i]? = some d → d ∉ lost →
    (disks d).readShardFromWal bucket key (g.info env bucket key).versionId =
      some (g.rows.getD i [], g.metaOf env i)
  unseen : (g.info env bucket key).versionId ≠ "" →
    ∀ d ∉ lost, Unseen bucket key (g.info env bucket key).versionId (disks d)
  noStat : ∀ d ∈ lost, ∃ e, Backend.statObject bucket key (disks d) = .error e
  noShard : ∀ d ∈ lost, ∃ e, Backend.mmapShard bucket key (disks d) = .error e

/-- **A PUT is in a tier.** Behind the write cache and the read cache the disks can be in any
state; of the disks at most `parity_n` return nothing. -/
def InTier (env : Env) (cfg : PoolConfig n) (bucket key : String) (g : Generation n)
    (p : Pool (WalVolume log) n) : Tier n → Prop
  | .writeCache => g.Stored env cfg.planner bucket key ∧ smallRequest g.req = g.req ∧
      g.body.length ≤ logThreshold ∧ smallShards env g.dataN g.parityN g.body = .ok g.rows ∧
      cachedWrite bucket key p = some (g.entry env cfg)
  | .readCache => cachedWrite bucket key p = none ∧
      cachedRead bucket key p = some ⟨g.body, g.info env bucket key⟩
  | .log lost => cachedWrite bucket key p = none ∧ cachedRead bucket key p = none ∧
      Pending env cfg.planner bucket key g lost p.disks ∧ lost.card ≤ g.parityN
  | .disks lost => cachedWrite bucket key p = none ∧ cachedRead bucket key p = none ∧
      Survivors env cfg.planner bucket key g lost p.disks ∧ lost.card ≤ g.parityN

/-- **The body of a GET is exact**: it answers with the object that was stored, whose length is the
announced one. Its chunks are the body, and the counter of the response goes from there to zero. -/
def BodyExact (env : Env) (bucket key : String) (g : Generation n) (p : Pool (WalVolume log) n) : Prop :=
  ∃ pieces : List Bytes,
    (getObjectStream env bucket key p).1 = .ok (g.info env bucket key, pieces.map .ok) ∧
      pieces.flatten = g.body ∧ (g.info env bucket key).size = g.body.length ∧
      ∃ blob, responseBlob (g.info env bucket key) (pieces.map .ok) = .ok blob ∧
        blob.CountsDown (g.info env bucket key).size

/-- The data shards of the small-object path have no padding. -/
def Generation.Unpadded (g : Generation n) : Prop :=
  (g.dataN = 1 ∧ g.parityN = 0) ∨ g.dataN * shardSize g.body.length g.dataN = g.body.length

variable {env : Env} {cfg : PoolConfig n} {bucket key : String} {g : Generation n}
  {p : Pool (WalVolume log) n}

/-- Chunks that are the body are enough. -/
theorem BodyExact.of_stream {pieces : List Bytes}
    (hrun : (getObjectStream env bucket key p).1 = .ok (g.info env bucket key, pieces.map .ok))
    (hflat : pieces.flatten = g.body) : BodyExact env bucket key g p := by
  have hsize : (g.info env bucket key).size = g.body.length := rfl
  refine ⟨pieces, hrun, hflat, hsize, (responseBlob_countsDown _ pieces).mpr ?_⟩
  rw [hflat, hsize]

/-- How long the data shards of a small object are. -/
theorem smallShards_data_length {dataN parityN : Nat} {body : Bytes} {rows : List Bytes}
    (hd : 0 < dataN) (h : smallShards env dataN parityN body = .ok rows) :
    ((rows.take dataN).flatten).length =
      if dataN = 1 ∧ parityN = 0 then body.length else dataN * shardSize body.length dataN := by
  rw [smallShards_ok hd h]
  by_cases hone : dataN = 1 ∧ parityN = 0
  · rw [if_pos hone, if_pos hone, hone.1]
    simp
  · rw [if_neg hone, if_neg hone]
    have hrows : ((encodeBlock env dataN parityN body).take dataN).map length =
        replicate dataN (shardSize body.length dataN) := by
      refine eq_replicate_iff.mpr ⟨by simp, fun len hlen => ?_⟩
      obtain ⟨row, hrow, rfl⟩ := mem_map.mp hlen
      exact length_of_mem_encodeBlock (mem_of_mem_take hrow)
    rw [length_flatten, hrows, sum_replicate_nat]

/-- **The data shards are the body exactly if they have no padding.** -/
theorem unpadded_iff (hg : g.Stored env cfg.planner bucket key)
    (hlog : g.body.length ≤ logThreshold)
    (hsmall : smallShards env g.dataN g.parityN g.body = .ok g.rows) :
    (g.rows.take g.dataN).flatten = g.body ↔ g.Unpadded := by
  have hlen := smallShards_data_length hg.data_pos hsmall
  have hjoin := hg.join (Or.inl (hlog.trans (by decide)))
  by_cases hone : g.dataN = 1 ∧ g.parityN = 0
  · rw [if_pos hone] at hlen
    rw [← hlen, take_length] at hjoin
    exact iff_of_true hjoin (Or.inl hone)
  · rw [if_neg hone] at hlen
    constructor
    · intro h
      rw [h] at hlen
      exact Or.inr hlen.symm
    · intro h
      rw [h.resolve_left hone] at hlen
      rw [← hlen, take_length] at hjoin
      exact hjoin

/-- What a GET from the write cache yields. -/
theorem getObjectStream_cached (hcheck : checkKey bucket key none p = .ok ())
    (hg : g.Stored env cfg.planner bucket key) (hn : 0 < n) (hreq : smallRequest g.req = g.req)
    (hw : cachedWrite bucket key p = some (g.entry env cfg)) :
    (getObjectStream env bucket key p).1 =
      .ok (g.info env bucket key, (g.rows.take g.dataN).map .ok) := by
  unfold getObjectStream
  simp only [Lib.Act.bind_apply, Lib.Act.query_apply, Lib.Act.read_apply, hcheck, hw]
  rw [hg.entry_dataShards hn hreq, Generation.entry_info hreq]
  rfl

/-- A disk with a pending entry without a version id returns it. -/
theorem diskHolds_of_entry {i : Nat} {v : WalVolume log}
    (h : v.readShardFromWal bucket key "" = some (g.rows.getD i [], g.metaOf env i)) :
    DiskHolds env bucket key g i v := by
  obtain ⟨t, ht, e, he, -, hm⟩ := WalVolume.readShardFromWal_eq_some.mp h
  refine ⟨?_, ?_, g.metaOf env i, ?_, rfl⟩
  · change WalVolume.readShard bucket key v = _
    rw [WalVolume.readShard, h]
    rfl
  · change WalVolume.statObject bucket key v = _
    rw [WalVolume.statObject, WalVolume.statFromWal_eq_some.mpr ⟨t, ht, e, he, hm⟩]
    rfl
  · change WalVolume.mmapShard bucket key v = _
    rw [WalVolume.mmapShard, h]
    rfl

/-- What a disk returns of a key is not a version it has only in its log. -/
theorem Unseen.reads {vid : String} {v : WalVolume log} (h : Unseen bucket key vid v) :
    (∀ m, Backend.statObject bucket key v = .ok m → m.versionId ≠ vid) ∧
      ∀ r, Backend.mmapShard bucket key v = .ok r → r.2.versionId ≠ vid := by
  refine ⟨fun m hm => ?_, fun r hr => ?_⟩
  · change WalVolume.statObject bucket key v = _ at hm
    unfold WalVolume.statObject at hm
    cases hlog : v.statFromWal bucket key with
    | some m' =>
      rw [hlog] at hm
      cases hm
      obtain ⟨t, ht, e, he, hread⟩ := WalVolume.statFromWal_eq_some.mp hlog
      exact h.log t ht e he _ hread
    | none =>
      rw [hlog] at hm
      obtain ⟨m', hm', hrest⟩ := Lib.except_bind_eq_ok.mp
        (show LocalVolume.statObject bucket key v.files = .ok m from hm)
      cases hrest
      exact h.files m' hm'
  · change WalVolume.mmapShard bucket key v = _ at hr
    unfold WalVolume.mmapShard at hr
    cases hlog : v.readShardFromWal bucket key "" with
    | some r' =>
      rw [hlog] at hr
      cases hr
      obtain ⟨t, ht, e, he, -, hm⟩ := WalVolume.readShardFromWal_eq_some.mp hlog
      exact h.log t ht e he _ hm
    | none =>
      rw [hlog] at hr
      obtain ⟨m, hm, hrest⟩ := Lib.except_bind_eq_ok.mp
        (show LocalVolume.mmapShard bucket key v.files = .ok r from hr)
      have hmeta : r.2 = m := by
        split at hrest
        · cases hrest
          rfl
        · obtain ⟨path, -, hrest⟩ := Lib.except_bind_eq_ok.mp hrest
          obtain ⟨data, -, hrest⟩ := Lib.except_bind_eq_ok.mp hrest
          cases hrest
          rfl
      rw [hmeta]
      exact h.files m hm

/-- The body is exact when enough disks return their shard. -/
theorem bodyExact_of_survivors {n : Nat} {cfg : PoolConfig (n + 1)} {g : Generation (n + 1)}
    {p : Pool (WalVolume log) (n + 1)} {lost : Finset (Fin (n + 1))}
    (hmds : 0 < g.parityN → (env.code g.dataN g.parityN).Mds g.dataN g.parityN)
    (hcheck : checkKey bucket key none p = .ok ()) (hw : cachedWrite bucket key p = none)
    (hr : cachedRead bucket key p = none) (hdisks : Survivors env cfg.planner bucket key g lost p.disks)
    (hcard : lost.card ≤ g.parityN) : BodyExact env bucket key g p := by
  by_cases hparity : 0 < g.parityN
  · obtain ⟨pieces, hrun, hflat⟩ :=
      getObjectStream_survivors hdisks (hmds hparity) hparity hcard hcheck hw hr
    exact BodyExact.of_stream hrun hflat
  · -- nothing may be lost without parity
    obtain rfl : lost = ∅ := Finset.card_eq_zero.mp (by omega)
    have hall : AllHold env cfg bucket key g p.disks :=
      ⟨hdisks.stored, fun i d hi => hdisks.disk i d hi (Finset.notMem_empty d)⟩
    obtain ⟨pieces, hrun, hflat⟩ := (hall.serves hcheck hw (Or.inl hr)).1.stream
    exact BodyExact.of_stream hrun hflat

end Tiers

/-! ## Whose metadata a GET answers with -/

section Versions

variable {V W : Type} [Backend V W] {n : Nat} {env : Env} {bucket key vid : String} {p : Pool V n}

theorem gatherShards_meta {dataN parityN : Nat} {reads : List ShardRead} {slots : List (Option Bytes)}
    {m : ObjectMeta} (h : gatherShards env dataN parityN reads = .ok (slots, m)) :
    ∃ data, Except.ok (data, m) ∈ reads := by
  unfold gatherShards at h
  split_ifs at h with hany
  · dsimp only at h
    split at h
    · cases h
    · rename_i m' hm'
      split_ifs at h
      obtain ⟨-, rfl⟩ := Prod.mk.inj (Except.ok.inj h)
      obtain ⟨data, hmem, -⟩ := slotShards_meta hm'
      exact ⟨data, hmem⟩

/-- **A GET from the disks answers with a version that a disk returns.** -/
theorem streamStored_version (hstat : ∀ d m, Backend.statObject bucket key (p.disks d) = .ok m →
      m.versionId ≠ vid)
    (hmmap : ∀ d r, Backend.mmapShard bucket key (p.disks d) = .ok r → r.2.versionId ≠ vid)
    {info : ObjectInfo} {items : DecodeStream}
    (h : (streamStored env bucket key p).1 = .ok (info, items)) : info.versionId ≠ vid := by
  have hdecoded : (streamDecoded env bucket key p).1 = .ok (info, items) → info.versionId ≠ vid := by
    intro h
    rw [streamDecoded_fst] at h
    split_ifs at h
    · rw [streamMapped_fst] at h
      split at h
      · cases h
      · rename_i r hr
        cases h
        obtain ⟨d, -, hd⟩ := exists_of_findSome?_eq_some hr
        exact hmmap d r (Lib.except_toOption_eq_some.mp hd)
    · cases hrun : readAndDecodeStream env p.disks (objectEc bucket key p).1 (objectEc bucket key p).2 bucket
          key with
      | error e =>
        rw [hrun] at h
        cases h
      | ok r =>
        rw [hrun] at h
        cases h
        obtain ⟨⟨slots, m⟩, hgather, hrest⟩ := Lib.except_bind_eq_ok.mp
          (show streamReads env _ _ _ = .ok r from hrun)
        cases hrest
        obtain ⟨data, hmem⟩ := gatherShards_meta hgather
        obtain ⟨d, -, hd⟩ := mem_map.mp hmem
        exact hmmap d _ hd
  rw [streamStored_fst] at h
  split at h
  · rename_i m hfirst
    split_ifs at h
    · rw [getMultipart_fst] at h
      cases hrun : readAndDecodeMultipart env p.disks bucket key m with
      | error e =>
        rw [hrun] at h
        cases h
      | ok data =>
        rw [hrun] at h
        cases h
        obtain ⟨d, -, hd⟩ := exists_of_findSome?_eq_some hfirst
        exact hstat d m (Lib.except_toOption_eq_some.mp hd)
    · exact hdecoded h
  · exact hdecoded h

end Versions

/-- **The body of a GET is exact in every tier**, except for padded shards in the write cache and
versions that wait in a log. -/
theorem body_exact_iff {log : NeedleEnv} {n : Nat} {env : Env} {cfg : PoolConfig (n + 1)}
    {bucket key : String} {g : Generation (n + 1)} {p : Pool (WalVolume log) (n + 1)} {tier : Tier (n + 1)}
    (hmds : 0 < g.parityN → (env.code g.dataN g.parityN).Mds g.dataN g.parityN)
    (hcheck : checkKey bucket key none p = .ok ()) (hin : InTier env cfg bucket key g p tier) :
    BodyExact env bucket key g p ↔ (tier = .writeCache → g.Unpadded) ∧
      (tier.isLog = true → (g.info env bucket key).versionId = "") := by
  cases tier with
  | writeCache =>
    obtain ⟨hg, hreq, hlog, hshards, hw⟩ := hin
    have hrun := getObjectStream_cached hcheck hg (Nat.succ_pos n) hreq hw
    have hnot : (Tier.writeCache : Tier (n + 1)).isLog = true → (g.info env bucket key).versionId = "" :=
      nofun
    rw [imp_iff_right rfl, and_iff_left hnot, ← unpadded_iff hg hlog hshards]
    constructor
    · rintro ⟨pieces, hrun', hflat, -⟩
      rw [hrun, Except.ok.injEq, Prod.mk.injEq] at hrun'
      rw [Lib.map_ok_inj hrun'.2]
      exact hflat
    · intro hflat
      exact BodyExact.of_stream hrun hflat
  | readCache =>
    refine iff_of_true ?_ ⟨nofun, nofun⟩
    have hrun : (getObjectStream env bucket key p).1 =
        .ok (g.info env bucket key, [g.body].map .ok) := (getObject_of_read env hcheck hin.1 hin.2).2
    exact BodyExact.of_stream hrun (by simp)
  | log lost =>
    obtain ⟨hw, hr, hdisks, hcard⟩ := hin
    rw [and_iff_right nofun, imp_iff_right (show (Tier.log lost).isLog = true from rfl)]
    constructor
    · -- no disk returns the version
      rintro ⟨pieces, hrun, -⟩
      by_contra hid
      rw [(getObject_of_disks env hcheck hw hr).2] at hrun
      have hreads : ∀ d, (∀ m, Backend.statObject bucket key (p.disks d) = .ok m →
          m.versionId ≠ (g.info env bucket key).versionId) ∧
          ∀ r, Backend.mmapShard bucket key (p.disks d) = .ok r →
            r.2.versionId ≠ (g.info env bucket key).versionId := by
        intro d
        by_cases hlost : d ∈ lost
        · obtain ⟨e, he⟩ := hdisks.noStat d hlost
          obtain ⟨e', he'⟩ := hdisks.noShard d hlost
          rw [he, he']
          exact ⟨nofun, nofun⟩
        · exact (hdisks.unseen hid d hlost).reads
      exact streamStored_version (p := onReadCache (fun c => c.touch bucket key) p)
        (fun d => (hreads d).1) (fun d => (hreads d).2) hrun rfl
    · intro hid
      have hentry := hdisks.entry
      rw [hid] at hentry
      exact bodyExact_of_survivors hmds hcheck hw hr
        ⟨hdisks.stored, hdisks.layout, fun i d hi hd => diskHolds_of_entry (hentry i d hi hd),
          hdisks.noStat, hdisks.noShard⟩ hcard
  | disks lost =>
    obtain ⟨hw, hr, hdisks, hcard⟩ := hin
    exact iff_of_true (bodyExact_of_survivors hmds hcheck hw hr hdisks hcard)
      ⟨nofun, nofun⟩

/-! ## Two disks without parity -/

/-- Digests of one-byte shards. -/
def pairEnv : Env :=
  { sampleEnv with
    blake3Hex := digestOf [
      ("\x00", "2d3adedff11b61f14c886e35afa036736dcd87a74d27b5c1510225d0f592e213"),
      ("h", "c3af7b114121534b19203c45ca316c944a90c067bba3dcf1e5625d1273030874"),
      ("i", "e9c0ba08015769a0c4354594b96ce0dfbf27c9eb534a2f8378508985f732ff6d"),
      ("x", "3ae7d805f6789a6402acb70ad4096a85a56bf6804eaf25c0493ac697548d30b5")] }

/-- A PUT of `body` with two data shards and no parity. -/
def pairRequest (body : Bytes) : PutRequest :=
  { sampleRequest with
    opts := { sampleRequest.opts with ecFtt := some 0 }
    contentLength := some body.length }

/-- Two volumes without a log. -/
def pairDisks : Disks (WalVolume plainNeedleEnv) 2 := fun d => ⟨sampleDisks d, none⟩

/-- The pool after that PUT, which the write cache takes. -/
def pairPut (body : Bytes) : Pool (WalVolume plainNeedleEnv) 2 :=
  (putObjectStream pairEnv ⟨samplePlanner, ""⟩ (pairRequest body) true [.ok body]
    ⟨pairDisks, some (.new (256 * 1024 * 1024)), none⟩).2

/-- The PUT of `hi`. -/
def pairGeneration : Generation 2 :=
  smallGeneration (pairRequest (utf8 "hi")) 2 0
    ⟨1, "local-set", 2, 0, [⟨0, 1, "local", "v1"⟩, ⟨1, 0, "local", "v0"⟩]⟩ (utf8 "hi")
    [utf8 "h", utf8 "i"]

/-- Two bytes fill two shards. -/
theorem body_exact_iff_pair : BodyExact pairEnv "bkt" "k" pairGeneration (pairPut (utf8 "hi")) := by
  obtain ⟨hcheck, hplan, hshards, hw⟩ :
      checkKey "bkt" "k" none (pairPut (utf8 "hi")) = .ok () ∧
        samplePlanner.plan pairEnv "bkt" "k" 2 0 = .ok pairGeneration.record ∧
        smallShards pairEnv 2 0 (utf8 "hi") = .ok pairGeneration.rows ∧
        cachedWrite "bkt" "k" (pairPut (utf8 "hi")) =
          some (pairGeneration.entry pairEnv ⟨samplePlanner, ""⟩) := by
    decide +kernel
  have hlog : (utf8 "hi").length ≤ logThreshold := by decide
  have hin : InTier pairEnv ⟨samplePlanner, ""⟩ "bkt" "k" pairGeneration (pairPut (utf8 "hi"))
      .writeCache :=
    ⟨⟨hplan, rfl, Or.inr ⟨hlog, hshards⟩⟩, rfl, hlog, hshards, hw⟩
  have hiff := body_exact_iff (fun h => absurd h (by decide)) hcheck hin
  exact hiff.mpr ⟨fun _ => Or.inr (by decide), nofun⟩

/-- **A cached object is sent with its padding.** The body `x` fills one of two shards. The response
announces one byte and has two, and its counter wraps. -/
theorem cached_body_padded : (getObjectStream pairEnv "bkt" "k" (pairPut (utf8 "x"))).1 =
        .ok (putInfo pairEnv (pairRequest (utf8 "x")) (utf8 "x"), [.ok (utf8 "x"), .ok [0]]) ∧
      (putInfo pairEnv (pairRequest (utf8 "x")) (utf8 "x")).size = 1 ∧
      responseBlob (putInfo pairEnv (pairRequest (utf8 "x")) (utf8 "x"))
        [.ok (utf8 "x"), .ok [0]] = .ok (.chunked (.new [utf8 "x", [0]] 1)) ∧
      (ChunkedBytes.pollNext (ChunkedBytes.pollNext (.new [utf8 "x", [0]] 1)).2).2.remaining =
        2 ^ 64 - 1 := by
  decide +kernel

/-- **A pending version is not found.** A versioned PUT of `hi` is acknowledged and waits in the logs. -/
theorem logged_version_missing :
    let put := putObjectStream pairEnv ⟨samplePlanner, ""⟩
      { pairRequest (utf8 "hi") with versionId := some "00000000-0000-4000-8000-000000000001" } true
      [.ok (utf8 "hi")] (⟨fun d => { pairDisks d with tier := some emptyLog }, none, none⟩ :
        Pool (WalVolume plainNeedleEnv) 2)
    put.1.isOk = true ∧
      (getObjectStream pairEnv "bkt" "k" put.2).1 = .error .objectNotFound := by
  decide +kernel

end Abixio
