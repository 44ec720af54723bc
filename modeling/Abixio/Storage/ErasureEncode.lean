import Abixio.Cluster.Placement
import Abixio.Lib.Blocks
import Abixio.Storage.Backend
import Abixio.Storage.ReedSolomon

/-!
# The encode path

Model of `src/storage/erasure_encode.rs`: `encode_and_write` takes a body as a stream of chunks,
cuts it into blocks of 1 MiB, splits and encodes each block on its own, and feeds shard `i` of every
block to the writer of the `i`-th planned disk.

* A body is the list of items its stream yields. An item is a chunk or the text of an I/O error.
* The hashers are modelled by the bytes they were fed: `received` for the MD5, the `xxh64` and
  `total_size`, `fed` for the BLAKE3 hasher of each shard.
* `join_all` over the disks is `Act.each` over `attempt`: every call is made, whatever the others
  return. The disks of a plan are distinct, so the order of the calls is immaterial.
* In the pipelined `1+0` path the writer task keeps pace with the stream: each chunk is written
  before the next is received. A failed write is then noticed when the next chunk is sent, or
  overtaken by an error of the body stream itself.
* The entry handed to the MRF queue is part of the result; a caller without a queue drops it.

`encodeObject` is the layout the loop produces, in closed form. `encodeAndWrite_ok` says that a
successful call fed every planned writer its shard of `encodeObject` and finalized it with the
shard's own metadata, apart from shards that are then owed to the MRF queue.
-/

namespace Abixio

open Lib
open Act (attempt each fail ofExcept)

/-- `STREAM_BLOCK_SIZE`. -/
def streamBlockSize : Nat := 1024 * 1024

/-- `PIPELINE_MIN_BYTES`. -/
def pipelineMinBytes : Nat := 1024 * 1024

/-- `usize::div_ceil`. -/
def divCeil (a b : Nat) : Nat := (a + b - 1) / b

/-- `Vec::resize`. -/
def resize (size : Nat) (v : Bytes) : Bytes := v.take size ++ List.replicate (size - v.length) 0

/-- `data.len().div_ceil(count).max(1)`. -/
def shardSize (len count : Nat) : Nat := max (divCeil len count) 1

/-- The `i`-th shard of `split_data`: a slice padded with zeros, or only zeros. -/
def splitPiece (data : Bytes) (size i : Nat) : Bytes :=
  let start := i * size
  if data.length ≤ start then List.replicate size 0
  else
    let stop := min (start + size) data.length
    resize size ((data.drop start).take (stop - start))

/-- `split_data`. -/
def splitData (data : Bytes) (count : Nat) : List Bytes :=
  (List.range count).map (splitPiece data (shardSize data.length count))

/-- `split_data_into`: the first `count` buffers are overwritten. -/
def splitDataInto (data : Bytes) (count : Nat) (buffers : List Bytes) : List Bytes :=
  buffers.mapIdx fun i buf =>
    if i < count then splitPiece data (shardSize data.length count) i else buf

/-- The items of a body stream. -/
abbrev Body := List (Except String Bytes)

/-- What a PUT is asked to store, apart from its bytes; `createdAt` is the clock at its start. -/
structure PutRequest where
  bucket : String
  key : String
  versionId : Option String
  opts : PutOptions
  createdAt : Nat
  contentLength : Option Nat
  deriving DecidableEq

/-- `MrfEntry`. -/
structure MrfEntry where
  bucket : String
  key : String
  deriving DecidableEq, Repr

section Encode

variable {V W : Type} [Backend V W] {n : Nat} (env : Env)

/-- The metadata stored with one shard. -/
def shardMeta (req : PutRequest) (record : PlacementRecord n) (parityN index : Nat)
    (received shard : Bytes) : ObjectMeta where
  size := received.length
  etag := etagOf env req.opts received
  contentType := req.opts.contentTypeOrDefault
  createdAt := req.createdAt
  erasure := {
    ftt := parityN
    index := index
    epochId := record.epochId
    volumeIds := record.shards.map PlacementShard.volumeId }
  checksum := env.blake3Hex shard
  userMetadata := req.opts.userMetadata
  tags := req.opts.tags
  versionId := req.versionId.getD ""
  isLatest := true
  isDeleteMarker := false
  parts := []
  inlineData := none

/-- The `ObjectInfo` a PUT returns. -/
def putInfo (req : PutRequest) (received : Bytes) : ObjectInfo where
  bucket := req.bucket
  key := req.key
  size := received.length
  etag := etagOf env req.opts received
  contentType := req.opts.contentTypeOrDefault
  createdAt := req.createdAt
  userMetadata := req.opts.userMetadata
  tags := req.opts.tags
  versionId := req.versionId.getD ""
  isDeleteMarker := false

/-! ## One disk, no parity -/

/-- The chunk loop of `encode_and_write_1plus0_serial`. -/
def writeBodySerial : Body → W → Bytes → VolAct V (W × Bytes)
  | [], w, received => pure (w, received)
  | .error e :: _, _, _ => fail (.io e)
  | .ok chunk :: rest, w, received => do
    let w ← Backend.writeChunk w chunk
    writeBodySerial rest w (received ++ chunk)

/-- The chunk loop of the pipelined `1+0` path. -/
def writeBodyPipelined : Body → W → Bytes → VolAct V (W × Bytes)
  | [], w, received => pure (w, received)
  | .error e :: _, _, _ => fail (.io e)
  | .ok chunk :: rest, w, received => do
    match ← attempt (Backend.writeChunk w chunk) with
    | .ok w => writeBodyPipelined rest w (received ++ chunk)
    | .error e =>
      match rest with
      | .error e' :: _ => fail (.io e')
      | _ => fail e

/-- `content_length.map_or(true, |n| n >= pipeline_threshold)`. -/
def usePipeline (contentLength : Option Nat) : Bool :=
  match contentLength with
  | none => true
  | some len => pipelineMinBytes ≤ len

/-- The chunk loop of the `1+0` path. -/
def writeBody (contentLength : Option Nat) (body : Body) (w : W) : VolAct V (W × Bytes) :=
  if usePipeline contentLength then writeBodyPipelined body w [] else writeBodySerial body w []

/-- The `1+0` path up to the end of the body. -/
def streamOnePlusZero (req : PutRequest) (body : Body) : VolAct V (W × Bytes) := do
  let w ← Backend.openShardWriter req.bucket req.key req.versionId
  writeBody req.contentLength body w

/-- The `1+0` path of `encode_and_write` on its one disk. -/
def encodeOnePlusZero (req : PutRequest) (record : PlacementRecord n) (body : Body) :
    VolAct V ObjectInfo := do
  let (w, received) ← streamOnePlusZero req body
  Backend.finalize w (shardMeta env req record 0 0 received received)
  pure (putInfo env req received)

/-! ## Several shards -/

/-- What the encode loop carries: the open writers with their disks, what each shard's hasher was
fed, the shard buffers, and the body received so far. -/
structure EncodeState (W : Type) (n : Nat) where
  writers : List (Fin n × W)
  fed : List Bytes
  bufs : List Bytes
  received : Bytes

/-- Split and encode one block into the shard buffers. -/
def fillShards (dataN parityN : Nat) (bufs : List Bytes) (block : Bytes) :
    Except StorageError (List Bytes) :=
  let split := splitDataInto block dataN bufs
  if 0 < parityN then
    let size := (split.headD []).length
    let zeroed := split.mapIdx fun i buf =>
      if dataN ≤ i ∧ i < dataN + parityN then List.replicate size 0 else buf
    match rsEncode env dataN parityN zeroed with
    | .ok shards => .ok shards
    | .error e => .error (.invalidConfig ("reed-solomon encode: " ++ env.rsErrorText e))
  else .ok split

/-- `write_block`. -/
def writeBlock (dataN parityN : Nat) (block : Bytes) (st : EncodeState W n) :
    PoolAct V n (EncodeState W n) := do
  let bufs ← ofExcept (fillShards env dataN parityN st.bufs block)
  let writers ← each
    (fun p : (Fin n × W) × Bytes =>
      Act.at p.1.1 (do let w ← Backend.writeChunk p.1.2 p.2; pure (p.1.1, w)))
    (st.writers.zip bufs)
  pure { st with writers := writers, fed := List.zipWith (· ++ ·) st.fed bufs, bufs := bufs }

/-- `write_block` on each of several blocks. -/
def writeBlocks (dataN parityN : Nat) :
    List Bytes → EncodeState W n → PoolAct V n (EncodeState W n)
  | [], st => pure st
  | block :: rest, st => do
    let st ← writeBlock env dataN parityN block st
    writeBlocks dataN parityN rest st

/-- The loop over the body's chunks; `blockBuf` is the part of a block seen so far. -/
def encodeChunks (dataN parityN : Nat) :
    Body → Bytes → EncodeState W n → PoolAct V n (Bytes × EncodeState W n)
  | [], blockBuf, st => pure (blockBuf, st)
  | .error e :: _, _, _ => fail (.io e)
  | .ok chunk :: rest, blockBuf, st => do
    let cut := Lib.cut streamBlockSize (blockBuf ++ chunk)
    let st ← writeBlocks env dataN parityN cut.1 { st with received := st.received ++ chunk }
    encodeChunks dataN parityN rest cut.2 st

/-- Open a writer on every planned disk. All are opened before the first failure is returned. -/
def openWriters (req : PutRequest) (distribution : List (Fin n)) :
    PoolAct V n (List (Fin n × W)) := do
  let opened ← each
    (fun d => Act.at d
      (attempt (Backend.openShardWriter req.bucket req.key req.versionId)))
    distribution
  let writers ← ofExcept (opened.mapM id)
  pure (distribution.zip writers)

/-- Finalize every writer with the metadata of its shard. -/
def finalizeWriters (req : PutRequest) (record : PlacementRecord n) (parityN : Nat)
    (st : EncodeState W n) : PoolAct V n (List (Except StorageError Unit)) :=
  each
    (fun p : ((Fin n × W) × Bytes) × Nat =>
      Act.at p.1.1.1 (attempt (Backend.finalize p.1.1.2
        (shardMeta env req record parityN p.2 st.received p.1.2))))
    (st.writers.zip st.fed).zipIdx

/-- The write quorum of a layout. -/
def writeQuorum (dataN parityN : Nat) : Nat := if parityN = 0 then dataN else dataN + 1

theorem writeQuorum_le {dataN parityN : Nat} : writeQuorum dataN parityN ≤ dataN + parityN := by
  unfold writeQuorum
  split_ifs
  · omega
  · omega

/-- Delete the object from the disks whose shard was finalized, ignoring failures. -/
def rollbackShards (req : PutRequest) (results : List (Fin n × Except StorageError Unit)) :
    PoolAct V n Unit := do
  let _ ← each
    (fun d => Act.at d (attempt (Backend.deleteObject req.bucket req.key)))
    ((results.filter fun r => r.2.isOk).map Prod.fst)
  pure ()

/-- `ReedSolomon::new`, called only when there is parity. -/
def rsFor (dataN parityN : Nat) : Except StorageError Unit :=
  if 0 < parityN then
    (rsNew dataN parityN).mapError fun e =>
      .invalidConfig ("reed-solomon: " ++ env.rsErrorText e)
  else .ok ()

/-- The last, shorter block. -/
def flushBlock (dataN parityN : Nat) (blockBuf : Bytes) (st : EncodeState W n) :
    PoolAct V n (EncodeState W n) :=
  if blockBuf.isEmpty then pure st else writeBlock env dataN parityN blockBuf st

/-- The erasure-coded path up to the end of the body: open the writers and feed them. -/
def encodeBody (dataN parityN : Nat) (req : PutRequest) (distribution : List (Fin n))
    (body : Body) : PoolAct V n (EncodeState W n) := do
  let writers ← openWriters req distribution
  let empty := List.replicate (dataN + parityN) ([] : Bytes)
  let (blockBuf, st) ← encodeChunks env dataN parityN body [] ⟨writers, empty, empty, []⟩
  flushBlock env dataN parityN blockBuf st

/-- The rest of the erasure-coded path: finalize, and undo what was finalized if the write quorum is
missed. -/
def commitShards (dataN parityN : Nat) (req : PutRequest) (record : PlacementRecord n)
    (st : EncodeState W n) : PoolAct V n (ObjectInfo × List MrfEntry) := do
  let results ← finalizeWriters env req record parityN st
  let successes := (results.filter Except.isOk).length
  if successes < writeQuorum dataN parityN then
    rollbackShards req ((record.shards.map PlacementShard.backendIndex).zip results)
    fail .writeQuorum
  else
    pure (putInfo env req st.received,
      if successes < dataN + parityN then [⟨req.bucket, req.key⟩] else [])

/-- The erasure-coded path of `encode_and_write`. -/
def encodeStriped (dataN parityN : Nat) (req : PutRequest) (record : PlacementRecord n)
    (body : Body) : PoolAct V n (ObjectInfo × List MrfEntry) := do
  ofExcept (rsFor env dataN parityN)
  let st ← encodeBody env dataN parityN req (record.shards.map PlacementShard.backendIndex) body
  commitShards env dataN parityN req record st

/-- `encode_and_write`. -/
def encodeAndWrite (planner : PoolPlanner n) (dataN parityN : Nat) (req : PutRequest)
    (body : Body) : PoolAct V n (ObjectInfo × List MrfEntry) := do
  let record ← ofExcept
    ((planner.plan env req.bucket req.key dataN parityN).mapError StorageError.invalidConfig)
  if dataN = 1 ∧ parityN = 0 then
    match record.shards with
    | shard :: _ => do
      let info ← Act.at shard.backendIndex (encodeOnePlusZero env req record body)
      pure (info, [])
    -- a plan is never empty
    | [] => fail (.internal "index out of bounds")
  else encodeStriped env dataN parityN req record body

end Encode

end Abixio
