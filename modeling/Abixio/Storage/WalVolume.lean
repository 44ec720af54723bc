import Abixio.Storage.LocalVolume
import Abixio.Storage.Wal

/-!
# A local volume with its write-ahead log

Model of `LocalVolume` and `WalShardWriter` (`src/storage/local_volume.rs`) as a volume runs by default,
and of the worker behind the log (`src/storage/wal.rs:434-549`). `LocalVolume` is the file tier; here it is
joined by the log, if that is enabled.

* A shard of at most `wal_threshold` bytes is appended to the log, and a request to write its files is sent
  to a worker. The send fails when the channel is full (`full`); the entry is then pending until a restart.
* A writer keeps its chunks in memory up to 1 MiB. A longer shard goes to its file as it comes in, and one
  between the two bounds is written when the writer is finalized.
* Reads ask for the pending entry first. Without a version id that is the entry of the unversioned object,
  so a pending version is found by its id and in the list of versions only. A delete of a pending object
  drops the entry and looks at no file.
* A worker takes a request from its channel, writes the files and drops the entry of the key, whatever put
  it there. `work` is one request from start to end. Any request in the channels can be the next.
-/

namespace Abixio

open Lib List Act

/-- `MaterializeRequest`. -/
structure MaterializeRequest where
  bucket : String
  key : String
  versionId : String
  entry : WalEntry
  deriving DecidableEq

/-- What `enable_wal` adds to a volume. -/
structure WalTier where
  wal : Wal
  /-- The requests in the channels of the workers. -/
  waiting : List MaterializeRequest
  /-- Which of the next `try_send`s find their channel full. -/
  full : List Bool
  threshold : Nat

/-- `LocalVolume`, with the log if it is enabled. -/
structure WalVolume (env : NeedleEnv) where
  files : LocalVolume
  tier : Option WalTier

/-- `WalMode`. -/
inductive WalMode where
  | buffering (buf : Bytes)
  | streaming (file : LocalShardWriter)
  deriving DecidableEq

/-- `WalShardWriter`. -/
structure WalShardWriter where
  bucket : String
  key : String
  versionId : String
  threshold : Nat
  mode : WalMode
  deriving DecidableEq

/-- `Box<dyn ShardWriter>` of a local volume. -/
inductive VolumeWriter where
  | file (w : LocalShardWriter)
  | wal (w : WalShardWriter)
  deriving DecidableEq

/-- `WAL_STREAMING_PROMOTE_BYTES`. -/
def walStreamingPromoteBytes : Nat := 1024 * 1024

/-- A version id as the log has it: empty if there is none. -/
def versionOption (versionId : String) : Option String :=
  if versionId.isEmpty then none else some versionId

theorem versionOption_empty : versionOption "" = none := rfl

/-! ## The files of an object -/

namespace LocalVolume

/-- `meta.json` without the version that is about to be written. -/
def withoutVersion (versionId : String) (mf : ObjectMetaFile) : ObjectMetaFile :=
  { mf with versions := mf.versions.filter fun v => v.versionId ≠ versionId }

/-- The files of an object in one go: `process_materialize`, and `finalize` of a buffered shard that is
too long for the log. -/
def storeFiles (bucket key versionId : String) (data : Bytes) (m : ObjectMeta) :
    VolAct LocalVolume Unit :=
  match versionOption versionId with
  | none => do
    let dir ← ofExcept (objectDir bucket key)
    createDirAll dir
    writeBoth (writeWhole (dir ++ ["shard.dat"]) (.bytes data))
      (writeMetaFile (dir ++ ["meta.json"]) ⟨bucket, key, [{ m with isLatest := true }]⟩)
  | some vid => do
    let dir ← ofExcept (versionDir bucket key vid)
    createDirAll dir
    let path ← ofExcept (versionShardPath bucket key vid)
    writeWhole path (.bytes data)
    let metaPath ← ofExcept (objectMetaPath bucket key)
    let mf ← Act.read fun v => readMetaFile v.fs metaPath
    writeMetaFile metaPath (pushVersion bucket key (mf.map (withoutVersion vid))
      { m with isLatest := true, versionId := vid })

/-- `WalShardWriter::finalize` of a shard that is in its file. It drops an older entry of its version id,
which `LocalShardWriter::finalize` does not. -/
def finalizeStreamed (w : LocalShardWriter) (m : ObjectMeta) : VolAct LocalVolume Unit :=
  match w.versionId with
  | none => finalize w m
  | some vid => do
    fsCall some
    let metaPath ← ofExcept (objectMetaPath w.bucket w.key)
    let mf ← Act.read fun v => readMetaFile v.fs metaPath
    writeMetaFile metaPath (pushVersion w.bucket w.key (mf.map (withoutVersion vid))
      { m with isLatest := true, versionId := vid })

end LocalVolume

namespace WalVolume

variable {env : NeedleEnv}

/-- An action on the files. -/
def onFiles {α : Type} (x : VolAct LocalVolume α) : VolAct (WalVolume env) α := fun v =>
  ((x v.files).1, { v with files := (x v.files).2 })

/-- An append to the log and the request to a worker. -/
def logShard (env : NeedleEnv) (bucket key versionId : String) (data : Bytes) (m : ObjectMeta) (t : WalTier) :
    Except StorageError Unit × WalTier :=
  match t.wal.append env (Needle.new env bucket key (versionOption versionId) m data) with
  | (.error e, wal) => (.error e, { t with wal := wal })
  | (.ok entry, wal) =>
    (.ok (), { t with
      wal := wal
      waiting := if t.full.head? = some true then t.waiting
        else t.waiting ++ [⟨bucket, key, versionId, entry⟩]
      full := t.full.tail })

/-! ## Writing -/

/-- `open_shard_writer`. -/
def openShardWriter (bucket key : String) (versionId : Option String) :
    VolAct (WalVolume env) VolumeWriter := fun v =>
  match v.tier with
  | some t => (.ok (.wal ⟨bucket, key, versionId.getD "", t.threshold, .buffering []⟩), v)
  | none => (do
    let w ← onFiles (LocalVolume.openShardWriter bucket key versionId)
    pure (.file w) : VolAct (WalVolume env) VolumeWriter) v

/-- `WalShardWriter::write_chunk`. -/
def writeWalChunk (w : WalShardWriter) (data : Bytes) : VolAct (WalVolume env) WalMode :=
  match w.mode with
  | .buffering buf =>
    if walStreamingPromoteBytes < buf.length + data.length then do
      let file ← onFiles (LocalVolume.openShardWriter w.bucket w.key (versionOption w.versionId))
      let file ← if buf.isEmpty then pure file else onFiles (LocalVolume.writeChunk file buf)
      let file ← onFiles (LocalVolume.writeChunk file data)
      pure (.streaming file)
    else pure (.buffering (buf ++ data))
  | .streaming file => do
    let file ← onFiles (LocalVolume.writeChunk file data)
    pure (.streaming file)

/-- `write_chunk`. -/
def writeChunk : VolumeWriter → Bytes → VolAct (WalVolume env) VolumeWriter
  | .file w, data => do
    let w ← onFiles (LocalVolume.writeChunk w data)
    pure (.file w)
  | .wal w, data => do
    let mode ← writeWalChunk w data
    pure (.wal { w with mode := mode })

/-- `finalize`. -/
def finalize : VolumeWriter → ObjectMeta → VolAct (WalVolume env) Unit
  | .file w, m => onFiles (LocalVolume.finalize w m)
  | .wal w, m => fun v =>
    match w.mode with
    | .streaming file => onFiles (LocalVolume.finalizeStreamed file m) v
    | .buffering buf =>
      if buf.length ≤ w.threshold then
        match v.tier with
        | some t =>
          let r := logShard env w.bucket w.key w.versionId buf m t
          (r.1, { v with tier := some r.2 })
        -- a writer of this kind is opened with the log on, and the log stays on
        | none => (.error (.internal "wal lock"), v)
      else onFiles (LocalVolume.storeFiles w.bucket w.key w.versionId buf m) v

/-- `write_shard` behind its checks. -/
def writeChecked (bucket key : String) (data : Bytes) (m : ObjectMeta) : VolAct (WalVolume env) Unit :=
  fun v =>
    match v.tier with
    | some t =>
      if data.length ≤ t.threshold then
        let r := logShard env bucket key m.versionId data m t
        (r.1, { v with tier := some r.2 })
      else onFiles (LocalVolume.writeShard bucket key data m) v
    | none => onFiles (LocalVolume.writeShard bucket key data m) v

/-- `write_shard`. -/
def writeShard (bucket key : String) (data : Bytes) (m : ObjectMeta) : VolAct (WalVolume env) Unit := do
  ofExcept (validateBucketName bucket)
  ofExcept (validateObjectKey key)
  writeChecked bucket key data m

section

variable {bucket key : String} (hb : ValidBucket bucket) (hk : ValidKey key) {data : Bytes} {m : ObjectMeta}
  {t : WalTier} {v : WalVolume env}
include hb hk

/-- A short shard goes to the log, -/
theorem writeShard_logged (ht : v.tier = some t) (hsmall : data.length ≤ t.threshold) :
    writeShard bucket key data m v = ((logShard env bucket key m.versionId data m t).1,
      { v with tier := some (logShard env bucket key m.versionId data m t).2 }) := by
  unfold writeShard
  rw [hb, hk, Act.ok_bind, Act.ok_bind]
  simp only [writeChecked, ht, if_pos hsmall]

/-- and any other to its files. -/
theorem writeShard_filed (h : ∀ t ∈ v.tier, t.threshold < data.length) :
    writeShard bucket key data m v = onFiles (LocalVolume.writeShard bucket key data m) v := by
  unfold writeShard
  rw [hb, hk, Act.ok_bind, Act.ok_bind]
  unfold writeChecked
  cases ht : v.tier with
  | none => rfl
  | some t => exact if_neg (Nat.not_le.mpr (h t ht))

end

/-- `delete_object`. -/
def deleteObject (bucket key : String) : VolAct (WalVolume env) Unit := fun v =>
  match v.tier.filter fun t => (t.wal.getVersioned bucket key "").isSome with
  | some t =>
    (.ok (), { v with tier := some { t with wal := t.wal.markMaterializedVersioned bucket key "" } })
  | none => onFiles (LocalVolume.deleteObject bucket key) v

/-! ## Reading -/

/-- `read_shard_from_wal_versioned`. The callers take an error for nothing. -/
def readShardFromWal (bucket key versionId : String) (v : WalVolume env) :
    Option (Bytes × ObjectMeta) := do
  let t ← v.tier
  let e ← t.wal.getVersioned bucket key versionId
  let data ← t.wal.readData e
  let m ← (t.wal.readMeta env e).toOption
  some (data, m)

/-- `read_shard`. -/
def readShard (bucket key : String) (v : WalVolume env) : Except StorageError (Bytes × ObjectMeta) :=
  (v.readShardFromWal bucket key "").elim (LocalVolume.readShard bucket key v.files) .ok

/-- `mmap_shard`. -/
def mmapShard (bucket key : String) (v : WalVolume env) : Except StorageError (Bytes × ObjectMeta) :=
  (v.readShardFromWal bucket key "").elim (LocalVolume.mmapShard bucket key v.files) .ok

/-- The metadata of a pending entry. -/
def statFromWal (bucket key : String) (v : WalVolume env) : Option ObjectMeta := do
  let t ← v.tier
  let e ← t.wal.getVersioned bucket key ""
  (t.wal.readMeta env e).toOption

/-- `stat_object`: it does not read the data of an entry. -/
def statObject (bucket key : String) (v : WalVolume env) : Except StorageError ObjectMeta :=
  (v.statFromWal bucket key).elim (LocalVolume.statObject bucket key v.files) .ok

/-- The version id of an entry, which its metadata may not have. -/
def withVersionId (versionId : String) (m : ObjectMeta) : ObjectMeta :=
  if m.versionId.isEmpty then { m with versionId := versionId } else m

/-- `read_versioned_shard`. -/
def readVersionedShard (bucket key versionId : String) (v : WalVolume env) :
    Except StorageError (Bytes × ObjectMeta) :=
  (v.readShardFromWal bucket key versionId).elim
    (LocalVolume.readVersionedShard bucket key versionId v.files)
    fun r => .ok (r.1, withVersionId versionId r.2)

/-- A pending version in front of the others. -/
def mergeVersion (env : NeedleEnv) (bucket key : String) (wal : Wal) (versions : List ObjectMeta) (versionId : String) :
    List ObjectMeta :=
  if versionId.isEmpty then versions
  else
    match (wal.getVersioned bucket key versionId).bind fun e => (wal.readMeta env e).toOption with
    | some m => { withVersionId versionId m with isLatest := false } ::
        versions.filter fun v => v.versionId ≠ versionId
    | none => versions

/-- `read_meta_versions`. -/
def readMetaVersions (bucket key : String) (v : WalVolume env) :
    Except StorageError (List ObjectMeta) := do
  let metaPath ← objectMetaPath bucket key
  let versions := ((readMetaFile v.files.fs metaPath).map (·.versions)).getD []
  let merged := match v.tier with
    | some t => (t.wal.versionsFor bucket key).foldl (mergeVersion env bucket key t.wal) versions
    | none => versions
  .ok (LocalVolume.markLatest false merged)

/-- `list_objects`. -/
def listObjects (bucket keyPrefix : String) (v : WalVolume env) : Except StorageError (List String) := do
  let keys ← LocalVolume.listObjects bucket keyPrefix v.files
  match v.tier with
  | some t => .ok (((t.wal.listKeys bucket keyPrefix).foldl
      (fun keys k => if k ∈ keys then keys else keys ++ [k]) keys).insertionSort (· ≤ ·))
  | none => .ok keys

/-! ## The worker -/

/-- `process_materialize`. -/
def processMaterialize (r : MaterializeRequest) : VolAct (WalVolume env) Unit := fun v =>
  match v.tier with
  | none => (.error (.internal "wal lock in worker"), v)
  | some t =>
    match t.wal.readData r.entry, t.wal.readMeta env r.entry with
    | none, _ => (.error (.internal "WAL segment data missing"), v)
    | some _, .error e => (.error e, v)
    | some data, .ok m => onFiles (LocalVolume.storeFiles r.bucket r.key r.versionId data m) v

/-- **A worker handles request `i`** of those that wait (`run_materialize_worker`). A request that fails
leaves its entry pending. -/
def work (i : Nat) (v : WalVolume env) : WalVolume env :=
  match v.tier with
  | none => v
  | some t =>
    match t.waiting[i]? with
    | none => v
    | some r =>
      let t := { t with waiting := t.waiting.eraseIdx i }
      match processMaterialize r { v with tier := some t } with
      | (.ok (), v) => { v with tier := some { t with
          wal := t.wal.markMaterializedVersioned r.bucket r.key r.versionId } }
      | (.error _, v) => v

end WalVolume

instance {env : NeedleEnv} : Backend (WalVolume env) VolumeWriter where
  volumeId v := v.files.volumeId
  openShardWriter := WalVolume.openShardWriter
  writeChunk := WalVolume.writeChunk
  finalize := WalVolume.finalize
  writeShard := WalVolume.writeShard
  readShard := WalVolume.readShard
  mmapShard := WalVolume.mmapShard
  deleteObject := WalVolume.deleteObject
  statObject := WalVolume.statObject
  readMetaVersions := WalVolume.readMetaVersions
  writeMetaVersions bucket key versions :=
    WalVolume.onFiles (LocalVolume.writeMetaVersions bucket key versions)
  readVersionedShard := WalVolume.readVersionedShard
  deleteVersionData bucket key versionId :=
    WalVolume.onFiles (LocalVolume.deleteVersionData bucket key versionId)
  listObjects := WalVolume.listObjects
  bucketExists bucket v := LocalVolume.bucketExists bucket v.files
  readBucketSettings bucket v := LocalVolume.readBucketSettings bucket v.files
  readPart bucket key number v := LocalVolume.readPart bucket key number v.files

/-- A log with nothing in it, and one short segment. -/
def emptyLog : WalTier where
  wal := ⟨Wal.newSegment 0 1024 (by decide), [], ∅, ∅, 1, 1024, by decide,
    (ActiveSegment.filled_create plainNeedleEnv (Wal.newSegment_eq (by decide))).2⟩
  waiting := []
  full := []
  threshold := 65536

end Abixio
