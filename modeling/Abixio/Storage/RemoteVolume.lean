import Abixio.Storage.LocalVolume
import Abixio.Storage.VolumePool

/-!
# Remote volumes and the disks of a pool

Model of `RemoteVolume` (`src/storage/remote_volume.rs`) with the storage server that answers it
(`src/storage/storage_server.rs:120-423`), of the trait object `Box<dyn Backend>`, and of
`VolumePool::new` with `assign_volume_ids` (`src/storage/volume_pool.rs:29-103`).

* A remote volume is the local volume behind its path at its endpoint. `served` is `none` when no such
  volume answers: the endpoint is not reached, the token is refused or the path is unknown. Every call
  is then an `Io` error, or the default of a call that has no error.
* What the client sends arrives, and JSON gives back what was put in. The metadata of `read_shard` travels in a
  header, which takes only visible ASCII: with other characters the answer has no such header
  (`build_response`), and the client fails to read the metadata from `{}`.
* An error is a status and a text, and the client makes an error of them (`parseError`).
* `info().volume_id` is empty and `set_volume_id` is the trait's default, which does nothing
  (`src/storage/remote_volume.rs:411-421`, `src/storage/mod.rs:177-178`).
-/

namespace Abixio

open Lib

/-! ## Errors over the wire -/

/-- The texts of `StorageError`. -/
def StorageError.text : StorageError → String
  | .bucketNotFound => "bucket not found"
  | .objectNotFound => "object not found"
  | .bucketExists => "bucket already exists"
  | .bucketNotEmpty => "bucket not empty"
  | .writeQuorum => "write quorum not met"
  | .readQuorum => "read quorum not met"
  | .bitrot => "bitrot detected"
  | .invalidConfig msg => "invalid config: " ++ msg
  | .io msg => "io error: " ++ msg
  | .invalidBucketName name => "invalid bucket name: " ++ name
  | .invalidObjectKey key => "invalid object key or prefix: " ++ key
  | .invalidVersionId id => "invalid version id: " ++ id
  | .invalidUploadId id => "invalid upload id: " ++ id
  | .internal msg => "internal error: " ++ msg

/-- The status of `storage_error_response`. -/
def StorageError.status : StorageError → Nat
  | .bucketNotFound => 404
  | .objectNotFound => 404
  | .bucketExists => 409
  | .bucketNotEmpty => 409
  | .invalidConfig _ => 400
  | .invalidBucketName _ => 400
  | .invalidObjectKey _ => 400
  | .invalidVersionId _ => 400
  | .invalidUploadId _ => 400
  | _ => 500

/-- `msg.contains(sub)`. -/
def containsText (msg sub : String) : Bool :=
  msg.toList.tails.any fun rest => sub.toList.isPrefixOf rest

/-- `RemoteVolume::parse_error`. -/
def parseError (status : Nat) (msg : String) : StorageError :=
  if status = 404 then
    if containsText msg "bucket" then .bucketNotFound else .objectNotFound
  else if status = 400 ∧ containsText msg "invalid bucket name" then .invalidBucketName msg
  else if status = 400 ∧ containsText msg "invalid object key" then .invalidObjectKey msg
  else if status = 400 ∧ containsText msg "invalid version id" then .invalidVersionId msg
  else if status = 400 ∧ containsText msg "invalid upload id" then .invalidUploadId msg
  else if status = 409 then
    if containsText msg "not empty" then .bucketNotEmpty else .bucketExists
  else .io msg

/-- What the client makes of the server's error. -/
def StorageError.wired (e : StorageError) : StorageError := parseError e.status e.text

/-! ## Metadata in a header -/

/-- JSON text that a header takes: control characters are escaped, the others must be visible
ASCII. -/
def headerText (s : String) : Bool := s.toList.all fun c => c.toNat < 127

/-- The texts in an `ErasureMeta`. -/
def ErasureMeta.texts (e : ErasureMeta) : List String := e.volumeIds

/-- The texts in the JSON of an `ObjectMeta`. -/
def ObjectMeta.texts (m : ObjectMeta) : List String :=
  [m.etag, m.contentType, m.checksum, m.versionId] ++ m.erasure.texts ++
    m.userMetadata.flatMap (fun p => [p.1, p.2]) ++ m.tags.flatMap (fun p => [p.1, p.2]) ++
    m.parts.flatMap fun part => [part.etag, part.checksum] ++ part.erasure.texts

/-- The metadata of a read, if its header could be built. -/
def ObjectMeta.overHeader (p : Bytes × ObjectMeta) : Except StorageError (Bytes × ObjectMeta) :=
  if p.2.texts.all headerText then .ok p else .error (.io "missing field")

/-! ## Remote volumes -/

/-- `RemoteVolume`, with the volume that answers its calls. -/
structure RemoteVolume where
  endpoint : String
  volumePath : String
  served : Option LocalVolume

/-- `RemoteShardWriter`. -/
structure RemoteShardWriter where
  buf : Bytes
  bucket : String
  key : String
  versionId : Option String

/-- `StorageServer::validate_bucket_key`. -/
def validateBucketKey (bucket key : String) : Except StorageError Unit := do
  validateBucketName bucket
  validateObjectKey key

/-- `StorageServer::validate_bucket_key_version`. -/
def validateBucketKeyVersion (bucket key versionId : String) : Except StorageError Unit := do
  validateBucketName bucket
  validateObjectKey key
  validateVersionId versionId

theorem validateBucketKey_ok {bucket key : String} (hb : ValidBucket bucket)
    (hk : ValidKey key) : validateBucketKey bucket key = .ok () := by
  unfold validateBucketKey
  rw [hb, hk]
  rfl

namespace RemoteVolume

/-- A call that no volume answers. -/
def unreachable : StorageError := .io "error sending request"

/-- A call that changes the volume: the server checks the names, and runs it. -/
def post {α : Type} (checked : Except StorageError Unit) (act : VolAct LocalVolume α) :
    VolAct RemoteVolume α := fun r =>
  match r.served with
  | none => (.error unreachable, r)
  | some v =>
    let out := (Act.ofExcept checked >>= fun _ => act : VolAct LocalVolume α) v
    (out.1.mapError StorageError.wired, { r with served := some out.2 })

/-- A call that reads the volume. -/
def get {α : Type} (checked : Except StorageError Unit) (query : LocalVolume → Except StorageError α)
    (r : RemoteVolume) : Except StorageError α :=
  match r.served with
  | none => .error unreachable
  | some v => (checked >>= fun _ => query v).mapError StorageError.wired

theorem get_ok {α : Type} {checked : Except StorageError Unit}
    {query : LocalVolume → Except StorageError α} {r : RemoteVolume} {v : LocalVolume} {a : α}
    (hserved : r.served = some v) (hchecked : checked = .ok ()) (hquery : query v = .ok a) :
    get checked query r = .ok a := by
  unfold get
  rw [hserved, hchecked]
  show (query v).mapError _ = _
  rw [hquery]
  rfl

/-- `open_shard_writer`: nothing is sent. -/
def openShardWriter (bucket key : String) (versionId : Option String) :
    VolAct RemoteVolume RemoteShardWriter :=
  pure ⟨[], bucket, key, versionId⟩

/-- `RemoteShardWriter::write_chunk`. -/
def writeChunk (w : RemoteShardWriter) (data : Bytes) : VolAct RemoteVolume RemoteShardWriter :=
  pure { w with buf := w.buf ++ data }

/-- What the writer makes of the server's error: the status and the JSON text. -/
def writerError (e : StorageError) : StorageError :=
  .io ("remote write-shard " ++ toString e.status ++ ": \x7b\"error\":\"" ++ e.text ++ "\"\x7d")

/-- `RemoteShardWriter::finalize`: the whole shard in one call. -/
def finalize (w : RemoteShardWriter) (m : ObjectMeta) : VolAct RemoteVolume Unit := fun r =>
  match r.served with
  | none => (.error unreachable, r)
  | some v =>
    let act : VolAct LocalVolume Unit := match w.versionId with
      | some vid => Act.ofExcept (validateBucketKeyVersion w.bucket w.key vid) >>= fun _ =>
          LocalVolume.writeVersionedShard w.bucket w.key vid w.buf m
      | none => Act.ofExcept (validateBucketKey w.bucket w.key) >>= fun _ =>
          LocalVolume.writeShard w.bucket w.key w.buf m
    ((act v).1.mapError writerError, { r with served := some (act v).2 })

/-- `write_shard`. -/
def writeShard (bucket key : String) (data : Bytes) (m : ObjectMeta) : VolAct RemoteVolume Unit :=
  post (validateBucketKey bucket key) (LocalVolume.writeShard bucket key data m)

/-- `read_shard`. -/
def readShard (bucket key : String) (r : RemoteVolume) : Except StorageError (Bytes × ObjectMeta) :=
  get (validateBucketKey bucket key) (LocalVolume.readShard bucket key) r >>= ObjectMeta.overHeader

/-- `delete_object`. -/
def deleteObject (bucket key : String) : VolAct RemoteVolume Unit :=
  post (validateBucketKey bucket key) (LocalVolume.deleteObject bucket key)

/-- `stat_object`. -/
def statObject (bucket key : String) : RemoteVolume → Except StorageError ObjectMeta :=
  get (validateBucketKey bucket key) (LocalVolume.statObject bucket key)

/-- `read_meta_versions`. -/
def readMetaVersions (bucket key : String) : RemoteVolume → Except StorageError (List ObjectMeta) :=
  get (validateBucketKey bucket key) (LocalVolume.readMetaVersions bucket key)

/-- `write_meta_versions`. -/
def writeMetaVersions (bucket key : String) (versions : List ObjectMeta) :
    VolAct RemoteVolume Unit :=
  post (validateBucketKey bucket key) (LocalVolume.writeMetaVersions bucket key versions)

/-- `read_versioned_shard`. -/
def readVersionedShard (bucket key versionId : String) (r : RemoteVolume) :
    Except StorageError (Bytes × ObjectMeta) :=
  get (validateBucketKeyVersion bucket key versionId)
    (LocalVolume.readVersionedShard bucket key versionId) r >>= ObjectMeta.overHeader

/-- `delete_version_data`. -/
def deleteVersionData (bucket key versionId : String) : VolAct RemoteVolume Unit :=
  post (validateBucketKeyVersion bucket key versionId)
    (LocalVolume.deleteVersionData bucket key versionId)

/-- `list_objects`. -/
def listObjects (bucket keyPrefix : String) : RemoteVolume → Except StorageError (List String) :=
  get (validateBucketName bucket >>= fun _ => validateObjectPrefix keyPrefix)
    (LocalVolume.listObjects bucket keyPrefix)

/-- `bucket_exists`: an error counts as no. -/
def bucketExists (bucket : String) (r : RemoteVolume) : Bool :=
  match get (validateBucketName bucket) (fun v => .ok (LocalVolume.bucketExists bucket v)) r with
  | .ok found => found
  | .error _ => false

/-- `read_bucket_settings`: an error counts as the default. -/
def readBucketSettings (bucket : String) (r : RemoteVolume) : BucketSettings :=
  match get (validateBucketName bucket)
    (fun v => .ok (LocalVolume.readBucketSettings bucket v)) r with
  | .ok settings => settings
  | .error _ => .empty

end RemoteVolume

instance : Backend RemoteVolume RemoteShardWriter where
  volumeId _ := ""
  openShardWriter := RemoteVolume.openShardWriter
  writeChunk := RemoteVolume.writeChunk
  finalize := RemoteVolume.finalize
  writeShard := RemoteVolume.writeShard
  readShard := RemoteVolume.readShard
  -- the default of `mmap_shard`
  mmapShard := RemoteVolume.readShard
  deleteObject := RemoteVolume.deleteObject
  statObject := RemoteVolume.statObject
  readMetaVersions := RemoteVolume.readMetaVersions
  writeMetaVersions := RemoteVolume.writeMetaVersions
  readVersionedShard := RemoteVolume.readVersionedShard
  deleteVersionData := RemoteVolume.deleteVersionData
  listObjects := RemoteVolume.listObjects
  bucketExists := RemoteVolume.bucketExists
  readBucketSettings := RemoteVolume.readBucketSettings
  -- its label does not start with `local:`
  readPart _ _ _ _ := none

/-! ## Any volume -/

/-- `Box<dyn Backend>`. -/
inductive AnyVolume where
  | localVolume (v : LocalVolume)
  | remoteVolume (r : RemoteVolume)

/-- `Box<dyn ShardWriter>`. -/
inductive AnyWriter where
  | localWriter (w : LocalShardWriter)
  | remoteWriter (w : RemoteShardWriter)

namespace AnyVolume

/-- A call on whichever volume it is. -/
def call {α : Type} (onLocal : VolAct LocalVolume α) (onRemote : VolAct RemoteVolume α) :
    VolAct AnyVolume α
  | .localVolume v => ((onLocal v).1, .localVolume (onLocal v).2)
  | .remoteVolume r => ((onRemote r).1, .remoteVolume (onRemote r).2)

/-- A read of whichever volume it is. -/
def query {α : Type} (onLocal : LocalVolume → α) (onRemote : RemoteVolume → α) : AnyVolume → α
  | .localVolume v => onLocal v
  | .remoteVolume r => onRemote r

/-- A writer only meets the volume that opened it. -/
def foreign {α : Type} {V : Type} : VolAct V α := Act.fail (.internal "writer")

/-- A call of a writer. -/
def onWriter {α : Type} (onLocal : LocalShardWriter → VolAct LocalVolume α)
    (onRemote : RemoteShardWriter → VolAct RemoteVolume α) : AnyWriter → VolAct AnyVolume α
  | .localWriter w => call (onLocal w) foreign
  | .remoteWriter w => call foreign (onRemote w)

/-- `set_volume_id`: only a local volume keeps the id. -/
def setVolumeId (id : String) : AnyVolume → AnyVolume
  | .localVolume v => .localVolume { v with volumeId := id }
  | .remoteVolume r => .remoteVolume r

/-- The id in `volume.json` of a local volume. -/
def localId : AnyVolume → Option String
  | .localVolume v => some v.volumeId
  | .remoteVolume _ => none

end AnyVolume

instance : Backend AnyVolume AnyWriter where
  volumeId := AnyVolume.query Backend.volumeId Backend.volumeId
  openShardWriter bucket key vid := AnyVolume.call
    (AnyWriter.localWriter <$> Backend.openShardWriter bucket key vid)
    (AnyWriter.remoteWriter <$> Backend.openShardWriter bucket key vid)
  writeChunk w data := AnyVolume.onWriter (fun w => AnyWriter.localWriter <$> Backend.writeChunk w data)
    (fun w => AnyWriter.remoteWriter <$> Backend.writeChunk w data) w
  finalize w m := AnyVolume.onWriter (Backend.finalize · m) (Backend.finalize · m) w
  writeShard bucket key data m := AnyVolume.call (Backend.writeShard bucket key data m)
    (Backend.writeShard bucket key data m)
  readShard bucket key := AnyVolume.query (Backend.readShard bucket key) (Backend.readShard bucket key)
  mmapShard bucket key := AnyVolume.query (Backend.mmapShard bucket key) (Backend.mmapShard bucket key)
  deleteObject bucket key := AnyVolume.call (Backend.deleteObject bucket key)
    (Backend.deleteObject bucket key)
  statObject bucket key := AnyVolume.query (Backend.statObject bucket key)
    (Backend.statObject bucket key)
  readMetaVersions bucket key := AnyVolume.query (Backend.readMetaVersions bucket key)
    (Backend.readMetaVersions bucket key)
  writeMetaVersions bucket key versions := AnyVolume.call
    (Backend.writeMetaVersions bucket key versions) (Backend.writeMetaVersions bucket key versions)
  readVersionedShard bucket key vid := AnyVolume.query (Backend.readVersionedShard bucket key vid)
    (Backend.readVersionedShard bucket key vid)
  deleteVersionData bucket key vid := AnyVolume.call (Backend.deleteVersionData bucket key vid)
    (Backend.deleteVersionData bucket key vid)
  listObjects bucket keyPrefix := AnyVolume.query (Backend.listObjects bucket keyPrefix)
    (Backend.listObjects bucket keyPrefix)
  bucketExists bucket := AnyVolume.query (Backend.bucketExists bucket) (Backend.bucketExists bucket)
  readBucketSettings bucket := AnyVolume.query (Backend.readBucketSettings bucket)
    (Backend.readBucketSettings bucket)
  readPart bucket key number := AnyVolume.query (Backend.readPart bucket key number)
    (Backend.readPart bucket key number)

/-! ## A new pool -/

section New

variable {n : Nat}

/-- `assign_volume_ids`. -/
def assignVolumeIds (disks : Disks AnyVolume n) : Disks AnyVolume n := fun d =>
  if (Backend.volumeId (disks d)).isEmpty then
    (disks d).setVolumeId ("vol-" ++ toString d.val)
  else disks d

/-- The planner over the disks of a pool, as they report themselves. -/
def plannerOf (disks : Disks AnyVolume n) : PoolPlanner n where
  epochId := 1
  clusterId := "local-set"
  disks := (List.finRange n).map fun d => ⟨d, "local", Backend.volumeId (disks d)⟩
  nodup := by
    rw [List.map_map]
    exact (List.nodup_finRange n).map fun _ _ h => h

/-- `VolumePool::new`. -/
def volumePoolNew (disks : Disks AnyVolume n) :
    Except StorageError (PoolConfig n × Pool AnyVolume n) :=
  if n = 0 then .error (.invalidConfig "at least 1 disk is required")
  else .ok (⟨plannerOf (assignVolumeIds disks), ""⟩, ⟨assignVolumeIds disks, none, none⟩)

end New

end Abixio
