import Abixio.Storage.Caches
import Abixio.Storage.ErasureDecode
import Abixio.Storage.Pathing

/-!
# The pool of disks

Model of `VolumePool` (`src/storage/volume_pool.rs`): the requests the S3 layer makes, over `n`
disks, the RAM write cache and the read cache.

* A request is an action on `Pool`. It leaves a state when it fails, too.
* The clock and the UUIDs a request draws are arguments.
* `peerOk` is the outcome of `peer.replicate`, and `true` when no peer is configured.
* The entries handed to the MRF queue are part of a PUT's result.
* `encode_and_write_bytes` is `encode_and_write` on a stream of one chunk.
-/

namespace Abixio

open Lib
open Act (attempt bind_apply each fail ofExcept query query_apply read_apply)

variable {V W : Type} [Backend V W]

/-- `ftt_to_ec`. -/
def fttToEc (ftt numDisks : Nat) : Except StorageError (Nat × Nat) :=
  if numDisks = 0 ∨ numDisks ≤ ftt then
    .error (.invalidConfig ("ftt " ++ toString ftt ++ " requires at least " ++
      toString (ftt + 1) ++ " disks, have " ++ toString numDisks))
  else .ok (numDisks - ftt, ftt)

/-- `default_ftt`. -/
def defaultFtt (numDisks : Nat) : Nat := min 1 (numDisks - 1)

/-- `LOG_THRESHOLD`. -/
def logThreshold : Nat := 64 * 1024

/-- The parts of `VolumePool` that requests do not change. -/
structure PoolConfig (n : Nat) where
  planner : PoolPlanner n
  localNodeId : String

/-- The parts of `VolumePool` that requests change. -/
structure Pool (V : Type) (n : Nat) where
  disks : Disks V n
  writeCache : Option (WriteCache n)
  readCache : Option ReadCache

/-- A request. -/
abbrev PoolOp (V : Type) (n : Nat) (α : Type) := Act StorageError (Pool V n) α

section Pool

variable {n : Nat} (env : Env) (cfg : PoolConfig n)

/-- Run an action on the disks. -/
def onDisks {α : Type} (x : PoolAct V n α) : PoolOp V n α := fun p =>
  ((x p.disks).1, { p with disks := (x p.disks).2 })

/-! ## Lookups -/

/-- `head_bucket`. -/
def headBucket (bucket : String) (p : Pool V n) : Except StorageError Bool := do
  validateBucketName bucket
  .ok (1 ≤ ((List.finRange n).filter fun d => Backend.bucketExists bucket (p.disks d)).length)

/-- The checks every request on a key starts with. -/
def checkKey (bucket key : String) (versionId : Option String) (p : Pool V n) :
    Except StorageError Unit := do
  validateBucketName bucket
  validateObjectKey key
  match versionId with
  | some vid => validateVersionId vid
  | none => .ok ()
  if ← headBucket bucket p then .ok () else .error .bucketNotFound

/-- `bucket_ec`. -/
def bucketEc (bucket : String) (p : Pool V n) : Nat × Nat :=
  let stored := (List.finRange n).findSome? fun d =>
    (Backend.readBucketSettings bucket (p.disks d)).ftt.bind fun ftt => (fttToEc ftt n).toOption
  stored.getD ((fttToEc (defaultFtt n) n).toOption.getD (1, 0))

/-- `resolve_ec`. -/
def resolveEc (bucket : String) (opts : PutOptions) (p : Pool V n) :
    Except StorageError (Nat × Nat) :=
  match opts.ecFtt with
  | some ftt => fttToEc ftt n
  | none => .ok (bucketEc bucket p)

/-- The first disk's metadata that `stat_object` returns. -/
def firstStat (bucket key : String) (p : Pool V n) : Option ObjectMeta :=
  (List.finRange n).findSome? fun d => (Backend.statObject bucket key (p.disks d)).toOption

/-- The write cache's entry for a key. -/
def cachedWrite (bucket key : String) (p : Pool V n) : Option (WriteCacheEntry n) :=
  p.writeCache.bind fun c => c.lookup bucket key

/-- The read cache's entry for a key. -/
def cachedRead (bucket key : String) (p : Pool V n) : Option ReadCacheEntry :=
  p.readCache.bind fun c => c.lookup bucket key

/-- `read_ec_from_meta`. -/
def readEcFromMeta (bucket key : String) (p : Pool V n) : Option (Nat × Nat) :=
  let cached := (cachedWrite bucket key p).bind fun e => e.metas.head?
  (cached.or (firstStat bucket key p)).map fun m => (m.erasure.data, m.erasure.parity)

/-- The layout a read decodes with. -/
def objectEc (bucket key : String) (p : Pool V n) : Nat × Nat :=
  (readEcFromMeta bucket key p).getD (bucketEc bucket p)

/-- Change the read cache, if there is one. -/
def onReadCache (f : ReadCache → ReadCache) (p : Pool V n) : Pool V n :=
  { p with readCache := p.readCache.map f }

/-- Drop a key from the read cache. -/
abbrev forgetRead (bucket key : String) : Pool V n → Pool V n :=
  onReadCache fun c => c.invalidate bucket key

/-! ## PUT -/

/-- The body of a stream, or its error. -/
def collectBody : Body → Except StorageError Bytes
  | [] => .ok []
  | .error e :: _ => .error (.io e)
  | .ok chunk :: rest => do
    let data ← collectBody rest
    .ok (chunk ++ data)

/-- The shards of a small object. -/
def smallShards (dataN parityN : Nat) (data : Bytes) : Except StorageError (List Bytes) :=
  if dataN = 1 ∧ parityN = 0 then .ok [data]
  else
    let shards := splitData data dataN
    if 0 < parityN then do
      let size := (shards.headD []).length
      (rsNew dataN parityN).mapError fun e => .invalidConfig ("rs: " ++ env.rsErrorText e)
      (rsEncode env dataN parityN (shards ++ List.replicate parityN (List.replicate size 0))).mapError
        fun e => .invalidConfig ("rs encode: " ++ env.rsErrorText e)
    else .ok shards

/-- The request as the small-object path stores it: it has no version id, and a precomputed ETag is
not looked at. -/
def smallRequest (req : PutRequest) : PutRequest :=
  { req with versionId := none, opts := { req.opts with precomputedEtag := none } }

/-- The metadata of the shards of a small object. -/
def smallMetas (req : PutRequest) (record : PlacementRecord n) (parityN : Nat) (data : Bytes)
    (shards : List Bytes) : List ObjectMeta :=
  shards.mapIdx fun i shard => shardMeta env (smallRequest req) record parityN i data shard

/-- The write cache entry of a small object. -/
def smallEntry (req : PutRequest) (record : PlacementRecord n) (parityN : Nat) (data : Bytes)
    (shards : List Bytes) : WriteCacheEntry n where
  shards := shards
  metas := smallMetas env req record parityN data shards
  distribution := record.shards.map PlacementShard.backendIndex
  originalSize := data.length
  contentType := req.opts.contentTypeOrDefault
  etag := etagOf env (smallRequest req).opts data
  createdAt := req.createdAt
  userMetadata := req.opts.userMetadata
  tags := req.opts.tags
  cachedAt := req.createdAt
  primaryNodeId := cfg.localNodeId

/-- Write the shards of a small object with `write_shard`, one disk after another. -/
def writeShards (bucket key : String) (entry : WriteCacheEntry n) :
    PoolAct V n (List (Except StorageError Unit)) :=
  each
    (fun s : (Fin n × Bytes) × ObjectMeta =>
      Act.at s.1.1 (attempt (Backend.writeShard bucket key s.1.2 s.2)))
    ((entry.distribution.zip entry.shards).zip entry.metas)

/-- The disk write of a small object, which is acknowledged with a write quorum. Nothing is undone
when the quorum is missed. -/
def writeSmall (req : PutRequest) (dataN parityN : Nat) (data : Bytes) (entry : WriteCacheEntry n) :
    PoolOp V n ObjectInfo := do
  let results ← onDisks (writeShards req.bucket req.key entry)
  if (results.filter Except.isOk).length < writeQuorum dataN parityN then
    fail .writeQuorum
  else pure (putInfo env (smallRequest req) data)

/-- Offer a small object to the write cache. -/
def cacheSmall (req : PutRequest) (peerOk : Bool) (entry : WriteCacheEntry n) :
    PoolOp V n Bool := fun p =>
  match p.writeCache.bind fun c => if peerOk then c.inserted req.bucket req.key entry else none with
  | some c => (.ok true, { p with writeCache := some c })
  | none => (.ok false, p)

/-- The small-object path of `put_object_stream`. The read cache is warmed before anything is
stored. -/
def putSmall (req : PutRequest) (peerOk : Bool) (body : Body) : PoolOp V n ObjectInfo := do
  let data ← ofExcept (collectBody body)
  let (dataN, parityN) ← query (resolveEc req.bucket req.opts)
  let shards ← ofExcept (smallShards env dataN parityN data)
  let record ← ofExcept
    ((cfg.planner.plan env req.bucket req.key dataN parityN).mapError StorageError.invalidConfig)
  let entry := smallEntry env cfg req record parityN data shards
  let info := putInfo env (smallRequest req) data
  Act.modify (onReadCache fun c => c.put req.bucket req.key ⟨data, info⟩)
  if ← cacheSmall req peerOk entry then pure info
  else writeSmall env req dataN parityN data entry

/-- The streaming path of `put_object_stream`. -/
def putLarge (req : PutRequest) (body : Body) : PoolOp V n (ObjectInfo × List MrfEntry) := do
  let (dataN, parityN) ← query (resolveEc req.bucket req.opts)
  onDisks (encodeAndWrite env cfg.planner dataN parityN req body)

/-- Whether `put_object_stream` takes the small-object path. -/
def isSmall (req : PutRequest) : Bool :=
  req.versionId.isNone && req.contentLength.any fun len => len ≤ logThreshold

/-- `put_object_stream`. -/
def putObjectStream (req : PutRequest) (peerOk : Bool) (body : Body) :
    PoolOp V n (ObjectInfo × List MrfEntry) := do
  query (checkKey req.bucket req.key req.versionId)
  Act.modify (onReadCache fun c => c.invalidate req.bucket req.key)
  if isSmall req then do
    let info ← putSmall env cfg req peerOk body
    pure (info, [])
  else putLarge env cfg req body

/-- `put_object`, and `put_object_versioned` when the request has a version id: the whole body is
at hand, and the read cache is invalidated after the write, whatever its outcome. -/
def putObject (req : PutRequest) (data : Bytes) : PoolOp V n (ObjectInfo × List MrfEntry) := do
  query (checkKey req.bucket req.key req.versionId)
  let (dataN, parityN) ← query (resolveEc req.bucket req.opts)
  let result ← attempt (onDisks (encodeAndWrite env cfg.planner dataN parityN
    { req with contentLength := some data.length } [.ok data]))
  Act.modify (onReadCache fun c => c.invalidate req.bucket req.key)
  ofExcept result

/-! ## GET and HEAD -/

/-- `ReadCache::get`. -/
def getCachedRead (bucket key : String) : PoolOp V n (Option ReadCacheEntry) := fun p =>
  (.ok (cachedRead bucket key p), onReadCache (fun c => c.touch bucket key) p)

/-- Fill the read cache with what a GET decoded, if it is not a version. -/
def populate (bucket key : String) (data : Bytes) (m : ObjectMeta) : PoolOp V n Unit :=
  Act.modify fun p =>
    if m.versionId.isEmpty ∧ m.isDeleteMarker = false then
      onReadCache (fun c => c.put bucket key ⟨data, m.toInfo bucket key⟩) p
    else p

/-- `get_object` after both caches missed and the object is not multipart. -/
def getDecoded (bucket key : String) : PoolOp V n (Bytes × ObjectInfo) := do
  let (dataN, parityN) ← Act.read (objectEc bucket key)
  let (data, m) ← query fun p => readAndDecode env p.disks dataN parityN bucket key
  populate bucket key data m
  pure (data, m.toInfo bucket key)

/-- A multipart object. -/
def getMultipart (bucket key : String) (m : ObjectMeta) : PoolOp V n (Bytes × ObjectInfo) := do
  let data ← query fun p => readAndDecodeMultipart env p.disks bucket key m
  pure (data, m.toInfo bucket key)

/-- `get_object` after both caches missed. -/
def getStored (bucket key : String) : PoolOp V n (Bytes × ObjectInfo) := do
  match ← Act.read (firstStat bucket key) with
  | some m => if m.isMultipart then getMultipart env bucket key m else getDecoded env bucket key
  | none => getDecoded env bucket key

/-- `get_object`. -/
def getObject (bucket key : String) : PoolOp V n (Bytes × ObjectInfo) := do
  query (checkKey bucket key none)
  match ← Act.read (cachedWrite bucket key) with
  | some e => pure (e.dataShards.flatten.take e.originalSize, e.info bucket key)
  | none =>
    match ← getCachedRead bucket key with
    | some e => pure (e.data, e.info)
    | none => getStored env bucket key

/-- The size of the slices a mapped shard is sent in. -/
def mmapChunkSize : Nat := 4 * 1024 * 1024

/-- The `1+0` fast path of `get_object_stream`: the first disk that has the shard, which is not
checked against its checksum. -/
def streamMapped (bucket key : String) : PoolOp V n (ObjectInfo × DecodeStream) := do
  let found ← Act.read fun p => (List.finRange n).findSome? fun d =>
    (Backend.mmapShard bucket key (p.disks d)).toOption
  match found with
  | none => fail .objectNotFound
  | some (data, m) => do
    populate bucket key data m
    pure (m.toInfo bucket key, (Lib.blocks mmapChunkSize data).map .ok)

/-- `get_object_stream` after both caches missed and the object is not multipart. -/
def streamDecoded (bucket key : String) : PoolOp V n (ObjectInfo × DecodeStream) := do
  let (dataN, parityN) ← Act.read (objectEc bucket key)
  if dataN = 1 ∧ parityN = 0 then streamMapped bucket key
  else do
    let (m, items) ← query fun p =>
      readAndDecodeStream env p.disks dataN parityN bucket key
    pure (m.toInfo bucket key, items)

/-- `get_object_stream` after both caches missed. -/
def streamStored (bucket key : String) : PoolOp V n (ObjectInfo × DecodeStream) := do
  match ← Act.read (firstStat bucket key) with
  | some m =>
    if m.isMultipart then do
      let (data, info) ← getMultipart env bucket key m
      pure (info, [.ok data])
    else streamDecoded env bucket key
  | none => streamDecoded env bucket key

/-- `get_object_stream`. The shards of a write cache entry are sent untrimmed. -/
def getObjectStream (bucket key : String) : PoolOp V n (ObjectInfo × DecodeStream) := do
  query (checkKey bucket key none)
  match ← Act.read (cachedWrite bucket key) with
  | some e => pure (e.info bucket key, e.dataShards.map .ok)
  | none =>
    match ← getCachedRead bucket key with
    | some e => pure (e.info, [.ok e.data])
    | none => streamStored env bucket key

/-- `head_object`. -/
def headObject (bucket key : String) (p : Pool V n) : Except StorageError ObjectInfo := do
  checkKey bucket key none p
  match cachedWrite bucket key p with
  | some e => .ok (e.info bucket key)
  | none =>
    match firstStat bucket key p with
    | some m => .ok (m.toInfo bucket key)
    | none => .error .objectNotFound

/-! ## Versions -/

/-- `get_object_version`. The layout is that of the current version. -/
def getObjectVersion (bucket key versionId : String) (p : Pool V n) :
    Except StorageError (Bytes × ObjectInfo) := do
  checkKey bucket key (some versionId) p
  let (dataN, parityN) := objectEc bucket key p
  let (data, m) ← readAndDecodeVersioned env p.disks dataN parityN bucket key versionId
  .ok (data, m.toInfo bucket key)

/-- The keys the first disk that lists the bucket has. -/
def firstKeys (bucket keyPrefix : String) (p : Pool V n) : List String :=
  ((List.finRange n).findSome? fun d =>
    (Backend.listObjects bucket keyPrefix (p.disks d)).toOption).getD []

/-- The versions of a key that the first disk with any has. -/
def firstVersions (bucket key : String) (p : Pool V n) : Option (List ObjectMeta) :=
  (List.finRange n).findSome? fun d =>
    match (Backend.readMetaVersions bucket key (p.disks d)).toOption.getD [] with
    | [] => none
    | versions => some versions

/-- `list_object_versions`. -/
def listObjectVersions (bucket keyPrefix : String) (p : Pool V n) :
    Except StorageError (List (String × List ObjectMeta)) := do
  validateBucketName bucket
  validateObjectPrefix keyPrefix
  if ← headBucket bucket p then
    .ok ((firstKeys bucket keyPrefix p).filterMap fun key =>
      (firstVersions bucket key p).map fun versions => (key, versions))
  else .error .bucketNotFound

/-- `get_versioning_config`, by its status. -/
def getVersioningConfig (bucket : String) (p : Pool V n) :
    Except StorageError (Option String) := do
  validateBucketName bucket
  if ← headBucket bucket p then
    .ok ((List.finRange n).findSome? fun d =>
      (Backend.readBucketSettings bucket (p.disks d)).versioning)
  else .error .bucketNotFound

/-- The metadata of a delete marker. -/
def deleteMarker (versionId : String) (now : Nat) : ObjectMeta where
  size := 0
  etag := ""
  contentType := ""
  createdAt := now
  erasure := ⟨0, 0, 0, []⟩
  checksum := ""
  userMetadata := []
  tags := []
  versionId := versionId
  isLatest := true
  isDeleteMarker := true
  parts := []
  inlineData := none

/-- Put a delete marker in front of a disk's versions. -/
def pushMarker (bucket key : String) (marker : ObjectMeta) : VolAct V Unit := do
  let versions ← Act.read fun v =>
    (Backend.readMetaVersions bucket key v).toOption.getD []
  let cleared := versions.map fun v => { v with isLatest := false }
  Backend.writeMetaVersions bucket key (marker :: cleared)

/-- `add_delete_marker`. What the disks answer is ignored. -/
def addDeleteMarker (bucket key versionId : String) (now : Nat) : PoolOp V n ObjectInfo := do
  query (checkKey bucket key none)
  let marker := deleteMarker versionId now
  let _ ← onDisks (each
    (fun d => Act.at d (attempt (pushMarker bucket key marker))) (List.finRange n))
  Act.modify (onReadCache fun c => c.invalidate bucket key)
  pure (marker.toInfo bucket key)

/-- `delete_object_version`. What the disks answer is ignored. -/
def deleteObjectVersion (bucket key versionId : String) : PoolOp V n Unit := do
  query (checkKey bucket key (some versionId))
  let _ ← onDisks (each
    (fun d => Act.at d (attempt (Backend.deleteVersionData bucket key versionId)))
    (List.finRange n))
  Act.modify (onReadCache fun c => c.invalidate bucket key)

/-! ## DELETE -/

/-- The answer of `delete_object`, from those of the disks. -/
def deleteOutcome (wasCached : Bool) (quorum : Nat) (results : List (Except StorageError Unit)) :
    Except StorageError Unit :=
  let found := results.any Except.isOk
  let gone := results.filter fun r => r = .ok () ∨ r = .error .objectNotFound
  if found = false ∧ wasCached = false then .error .objectNotFound
  else if wasCached ∧ found = false then .ok ()
  else if gone.length < quorum then .error .writeQuorum
  else .ok ()

/-- `delete_object`. -/
def deleteObject (bucket key : String) : PoolOp V n Unit := do
  ofExcept (validateBucketName bucket)
  ofExcept (validateObjectKey key)
  let wasCached ← Act.read fun p => (cachedWrite bucket key p).isSome
  Act.modify fun p => onReadCache (fun c => c.invalidate bucket key)
    { p with writeCache := p.writeCache.map fun c => c.remove bucket key }
  let (dataN, parityN) ← Act.read (objectEc bucket key)
  let results ← onDisks (each
    (fun d => Act.at d (attempt (Backend.deleteObject bucket key)))
    (List.finRange n))
  ofExcept (deleteOutcome wasCached (writeQuorum dataN parityN) results)

end Pool

/-! ## The paths of a PUT -/

section Paths

variable {n dataN parityN : Nat} {env : Env} {cfg : PoolConfig n} {req : PutRequest} {body : Body}
  {p : Pool V n}

theorem onDisks_eq {α : Type} {x : PoolAct V n α} {r : Except StorageError α} {t : Disks V n}
    (h : x p.disks = (r, t)) : onDisks x p = (r, { p with disks := t }) := by
  unfold onDisks
  rw [h]

theorem putObjectStream_unchecked (peerOk : Bool) {e : StorageError}
    (h : checkKey req.bucket req.key req.versionId p = .error e) :
    putObjectStream env cfg req peerOk body p = (.error e, p) :=
  Act.bind_error (Prod.ext h rfl)

/-- `put_object_stream` after its checks. -/
theorem putObjectStream_checked (peerOk : Bool)
    (h : checkKey req.bucket req.key req.versionId p = .ok ()) :
    putObjectStream env cfg req peerOk body p = (if isSmall req then do
        let info ← putSmall env cfg req peerOk body
        pure (info, [])
      else putLarge env cfg req body : PoolOp V n _)
        (forgetRead req.bucket req.key p) :=
  Act.query_bind_ok h

theorem putLarge_resolved (h : resolveEc req.bucket req.opts p = .ok (dataN, parityN)) :
    putLarge env cfg req body p =
      onDisks (encodeAndWrite env cfg.planner dataN parityN req body) p :=
  Act.query_bind_ok h

/-- The small-object path once its shards are computed: the write cache takes them, or they are
stored. -/
theorem putSmall_prepared (peerOk : Bool) {data : Bytes} {shards : List Bytes} {record : PlacementRecord n}
    (hdata : collectBody body = .ok data) (hec : resolveEc req.bucket req.opts p = .ok (dataN, parityN))
    (hshards : smallShards env dataN parityN data = .ok shards)
    (hplan : cfg.planner.plan env req.bucket req.key dataN parityN = .ok record) :
    putSmall env cfg req peerOk body p =
      let entry := smallEntry env cfg req record parityN data shards
      let p₁ := onReadCache (fun c => c.put req.bucket req.key ⟨data, putInfo env (smallRequest req) data⟩) p
      match p.writeCache.bind fun c => if peerOk then c.inserted req.bucket req.key entry else none with
      | some c => (.ok (putInfo env (smallRequest req) data), { p₁ with writeCache := some c })
      | none => writeSmall env req dataN parityN data entry p₁ := by
  extract_lets entry p₁
  have hcache : cacheSmall req peerOk entry p₁ = match p.writeCache.bind fun c =>
      if peerOk then c.inserted req.bucket req.key entry else none with
    | some c => (.ok true, { p₁ with writeCache := some c })
    | none => (.ok false, p₁) := rfl
  unfold putSmall
  rw [hdata, Act.ok_bind, Act.query_bind_ok hec]
  dsimp only
  rw [hshards, Act.ok_bind, hplan]
  cases h : p.writeCache.bind fun c => if peerOk then c.inserted req.bucket req.key entry else none with
  | none =>
    rw [h] at hcache
    exact Act.bind_ok hcache
  | some c =>
    rw [h] at hcache
    exact Act.bind_ok hcache

end Paths

/-! ## Layouts -/

section Layouts

variable {n ftt dataN parityN : Nat} {bucket : String} {p : Pool V n}

theorem fttToEc_ok (h : fttToEc ftt n = .ok (dataN, parityN)) :
    0 < n ∧ parityN < n ∧ dataN + parityN = n := by
  unfold fttToEc at h
  split_ifs at h with hbad
  rw [Except.ok.injEq, Prod.mk.injEq] at h
  omega

/-- The layout of a bucket spreads an object over all disks. -/
theorem bucketEc_total (hn : 0 < n) (h : bucketEc bucket p = (dataN, parityN)) :
    dataN + parityN = n := by
  have hdefault : fttToEc (defaultFtt n) n = .ok (n - defaultFtt n, defaultFtt n) := by
    unfold fttToEc defaultFtt
    rw [if_neg (by omega)]
  unfold bucketEc at h
  cases hstored : (List.finRange n).findSome? fun d =>
      (Backend.readBucketSettings bucket (p.disks d)).ftt.bind fun ftt => (fttToEc ftt n).toOption with
  | none =>
    rw [hstored, hdefault] at h
    exact (fttToEc_ok (hdefault.trans (congrArg Except.ok h))).2.2
  | some ec =>
    rw [hstored] at h
    obtain ⟨d, -, hd⟩ := List.exists_of_findSome?_eq_some hstored
    obtain ⟨ftt, -, hec⟩ := Option.bind_eq_some_iff.mp hd
    have hftt := Lib.except_toOption_eq_some.mp hec
    exact (fttToEc_ok (hftt.trans (congrArg Except.ok h))).2.2

theorem resolveEc_total {opts : PutOptions} (hn : 0 < n)
    (h : resolveEc bucket opts p = .ok (dataN, parityN)) : dataN + parityN = n := by
  unfold resolveEc at h
  split at h
  · exact (fttToEc_ok h).2.2
  · exact bucketEc_total hn (Except.ok.inj h)

end Layouts

/-! ## How a small object is written -/

section Writes

variable {n : Nat} {bucket key : String} {entry : WriteCacheEntry n} {s t : Disks V n}
  {results : List (Except StorageError Unit)}

theorem writeShards_total (bucket key : String) (entry : WriteCacheEntry n) (s : Disks V n) :
    ∃ results t, writeShards bucket key entry s = (.ok results, t) :=
  Act.each_total (fun _ _ => ⟨_, _, rfl⟩) _ s

/-- **Each shard of a small object is written to its own disk**, whatever the other disks answer. -/
theorem writeShards_spec (hnd : entry.distribution.Nodup)
    (hshards : entry.shards.length = entry.distribution.length)
    (hmetas : entry.metas.length = entry.distribution.length)
    (h : writeShards bucket key entry s = (.ok results, t)) :
    results.length = entry.distribution.length ∧
      (∀ (i : Nat) d shard m, entry.distribution[i]? = some d → entry.shards[i]? = some shard →
        entry.metas[i]? = some m →
        ∃ r, results[i]? = some r ∧ Backend.writeShard bucket key shard m (s d) = (r, t d)) ∧
      ∀ d, d ∉ entry.distribution → t d = s d := by
  have hidx : ((entry.distribution.zip entry.shards).zip entry.metas).map (fun w => w.1.1) =
      entry.distribution := by
    rw [show (fun w : (Fin n × Bytes) × ObjectMeta => w.1.1) = Prod.fst ∘ Prod.fst from rfl,
      ← List.map_map, List.map_fst_zip (by simp [hshards, hmetas]),
      List.map_fst_zip (by simp [hshards])]
  obtain ⟨hall, hframe⟩ := Act.each_at_ok (by rw [hidx]; exact hnd) h
  rw [hidx] at hframe
  have hlen := hall.length_eq
  have hlen' : results.length = entry.distribution.length := by
    rw [← hlen]
    simp [hshards, hmetas]
  refine ⟨hlen', fun i d shard m hd hshard hm => ?_, hframe⟩
  have hi : i < results.length := by
    rw [hlen']
    exact (List.getElem?_eq_some_iff.mp hd).1
  refine ⟨results[i], List.getElem?_eq_getElem hi, ?_⟩
  have hzip : ((entry.distribution.zip entry.shards).zip entry.metas)[i]? =
      some ((d, shard), m) := by
    rw [List.getElem?_zip_eq_some, List.getElem?_zip_eq_some]
    exact ⟨⟨hd, hshard⟩, hm⟩
  have hrun := Act.forall₂_getElem? hall hzip (List.getElem?_eq_getElem hi)
  have hpair : ((.ok (Backend.writeShard bucket key shard m (s d)).1,
      (Backend.writeShard bucket key shard m (s d)).2) :
        Except StorageError (Except StorageError Unit) × V) = (.ok results[i], t d) := hrun
  rw [Prod.mk.injEq, Except.ok.injEq] at hpair
  exact Prod.ext hpair.1 hpair.2

end Writes

/-! ## How a read goes -/

variable {m : ObjectMeta}

section Reads

variable {n : Nat} (env : Env) {bucket key : String} {p : Pool V n}

/-- The layout of an object does not depend on the read cache. -/
theorem objectEc_onReadCache (bucket key : String) (f : ReadCache → ReadCache) (p : Pool V n) :
    objectEc bucket key (onReadCache f p) = objectEc bucket key p := rfl

section

variable (hcheck : checkKey bucket key none p = .ok ())
include hcheck

/-- The write cache answers first. -/
theorem getObject_of_write {e : WriteCacheEntry n} (hw : cachedWrite bucket key p = some e) :
    (getObject env bucket key p).1 =
      .ok (e.dataShards.flatten.take e.originalSize, e.info bucket key) := by
  unfold getObject
  simp only [bind_apply, query_apply, hcheck, read_apply, hw]
  rfl

/-- Then the read cache. -/
theorem getObject_of_read {e : ReadCacheEntry} (hw : cachedWrite bucket key p = none)
    (hr : cachedRead bucket key p = some e) :
    (getObject env bucket key p).1 = .ok (e.data, e.info) ∧
      (getObjectStream env bucket key p).1 = .ok (e.info, [.ok e.data]) := by
  unfold getObject getObjectStream
  simp only [bind_apply, query_apply, hcheck, read_apply, hw, getCachedRead, hr]
  exact ⟨rfl, rfl⟩

/-- Then the disks; the read cache is left as the lookup leaves it. -/
theorem getObject_of_disks (hw : cachedWrite bucket key p = none) (hr : cachedRead bucket key p = none) :
    getObject env bucket key p =
        getStored env bucket key (onReadCache (fun c => c.touch bucket key) p) ∧
      getObjectStream env bucket key p =
        streamStored env bucket key (onReadCache (fun c => c.touch bucket key) p) := by
  constructor
  · unfold getObject
    simp only [bind_apply, query_apply, hcheck, read_apply, hw, getCachedRead, hr]
  · unfold getObjectStream
    simp only [bind_apply, query_apply, hcheck, read_apply, hw, getCachedRead, hr]

end

/-- An object that is not multipart is decoded from its shards. -/
theorem getStored_of_plain (hstat : firstStat bucket key p = some m) (hm : m.isMultipart = false) :
    getStored env bucket key p = getDecoded env bucket key p ∧
      streamStored env bucket key p = streamDecoded env bucket key p := by
  unfold getStored streamStored
  simp only [bind_apply, read_apply, hstat, hm]
  exact ⟨rfl, rfl⟩

theorem getDecoded_ok {dataN parityN : Nat} {data : Bytes}
    (hec : objectEc bucket key p = (dataN, parityN))
    (h : readAndDecode env p.disks dataN parityN bucket key = .ok (data, m)) :
    (getDecoded env bucket key p).1 = .ok (data, m.toInfo bucket key) := by
  unfold getDecoded populate
  simp only [bind_apply, read_apply, hec, query_apply, h]
  rfl

theorem streamDecoded_ok {dataN parityN : Nat} {items : DecodeStream}
    (hec : objectEc bucket key p = (dataN, parityN)) (hne : ¬ (dataN = 1 ∧ parityN = 0))
    (h : readAndDecodeStream env p.disks dataN parityN bucket key = .ok (m, items)) :
    (streamDecoded env bucket key p).1 = .ok (m.toInfo bucket key, items) := by
  unfold streamDecoded
  simp only [bind_apply, read_apply, hec, if_neg hne, query_apply, h]
  rfl

/-- The fast path sends the mapped shard of the first disk that has one. -/
theorem streamDecoded_mapped {data : Bytes} (hec : objectEc bucket key p = (1, 0))
    (h : ((List.finRange n).findSome? fun d =>
      (Backend.mmapShard bucket key (p.disks d)).toOption) = some (data, m)) :
    (streamDecoded env bucket key p).1 =
      .ok (m.toInfo bucket key, (Lib.blocks mmapChunkSize data).map .ok) := by
  unfold streamDecoded streamMapped populate
  simp only [bind_apply, read_apply, hec, and_self, if_true, h]
  rfl

end Reads

/-! ## How a delete goes -/

section Deletes

variable {n : Nat} {bucket key : String}

/-- One attempt on every disk. -/
theorem onDisks_each_attempt {α : Type} (x : Fin n → VolAct V α) (p : Pool V n) :
    onDisks (each (fun d => Act.at d (attempt (x d))) (List.finRange n)) p =
      (.ok ((List.finRange n).map fun d => (x d (p.disks d)).1),
        { p with disks := fun d => (x d (p.disks d)).2 }) := by
  unfold onDisks
  rw [Act.each_attempt]

/-- The pool after a delete. -/
def afterDelete (bucket key : String) (p : Pool V n) : Pool V n where
  disks d := (Backend.deleteObject bucket key (p.disks d)).2
  writeCache := p.writeCache.map fun c => c.remove bucket key
  readCache := p.readCache.map fun c => c.invalidate bucket key

theorem cachedRead_invalidated (bucket key : String) (p : Pool V n) :
    cachedRead bucket key (forgetRead bucket key p) = none := by
  unfold cachedRead forgetRead onReadCache
  cases p.readCache with
  | none => rfl
  | some c => exact ReadCache.lookup_invalidate

theorem afterDelete_caches (bucket key : String) (p : Pool V n) :
    cachedWrite bucket key (afterDelete bucket key p) = none ∧
      cachedRead bucket key (afterDelete bucket key p) = none := by
  constructor
  · unfold cachedWrite afterDelete
    cases p.writeCache with
    | none => rfl
    | some c => exact WriteCache.lookup_remove
  · exact cachedRead_invalidated bucket key p

/-- The delete calls go to every disk, and the layout for the quorum is read before them. -/
theorem deleteObject_eq (hb : ValidBucket bucket)
    (hk : ValidKey key) (p : Pool V n) : ∃ ec, ec = objectEc bucket key { p with
        writeCache := p.writeCache.map (fun c => c.remove bucket key) } ∧
      deleteObject bucket key p =
        (deleteOutcome (cachedWrite bucket key p).isSome (writeQuorum ec.1 ec.2)
          ((List.finRange n).map fun d => (Backend.deleteObject bucket key (p.disks d)).1),
        afterDelete bucket key p) := by
  refine ⟨_, rfl, ?_⟩
  unfold deleteObject onDisks
  rw [hb, hk]
  simp only [bind_apply, Act.ofExcept_apply, read_apply, Act.modify_apply, Act.each_attempt]
  rfl

end Deletes

end Abixio
