import Abixio.Storage.EncodeRun

/-!
# The decode paths

Model of `src/storage/erasure_decode.rs`. Every decoder asks all disks, drops the shards that fail
their own checksum, and slots the others by the shard index in their metadata (`slotShards`); the
first metadata slotted gives the object's size. The buffered decoders (`readAndDecode`,
`readAndDecodeVersioned`) then reconstruct and join whole shards. The streaming decoder
(`readAndDecodeStream`) walks the shards block by block.

* The stream a GET consumes is the list of items its channel delivers, read to the end.
* The `while remaining > 0` loop takes at least one byte per turn, so `remaining` is fuel for it.
-/

namespace Abixio

section Decode

variable (env : Env)

/-- The outcome of reading one disk. -/
abbrev ShardRead := Except StorageError (Bytes × ObjectMeta)

/-- One turn of the slotting loop: a valid shard goes to the slot of its own index, and the first
one slotted provides the metadata. -/
def slotShard (total : Nat) (acc : List (Option Bytes) × Option ObjectMeta) (read : ShardRead) :
    List (Option Bytes) × Option ObjectMeta :=
  match read with
  | .error _ => acc
  | .ok (data, m) =>
    if verifyShardChecksum env data m.checksum then
      if m.erasure.index < total then
        (acc.1.set m.erasure.index (some data), if acc.2.isNone then some m else acc.2)
      else acc
    else acc

/-- The slotting loop. -/
def slotShards (total : Nat) (reads : List ShardRead) :
    List (Option Bytes) × Option ObjectMeta :=
  reads.foldl (slotShard env total) (List.replicate total none, none)

/-- The slots and the metadata, once some disk answered and enough shards are valid. -/
def gatherShards (dataN parityN : Nat) (reads : List ShardRead) :
    Except StorageError (List (Option Bytes) × ObjectMeta) :=
  if reads.any Except.isOk then
    let r := slotShards env (dataN + parityN) reads
    match r.2 with
    | none => .error .readQuorum
    | some m =>
      if (r.1.filter Option.isSome).length < dataN then .error .readQuorum else .ok (r.1, m)
  else .error .objectNotFound

/-- `shard_slots.iter().take(data_n).flatten()`, concatenated. -/
def joinShards (dataN : Nat) (slots : List (Option Bytes)) : Bytes :=
  ((slots.take dataN).filterMap id).flatten

/-- Rebuild the missing shards, when there is parity and something is missing. -/
def repairSlots (dataN parityN : Nat) (slots : List (Option Bytes)) :
    Except StorageError (List (Option Bytes)) :=
  if 0 < parityN ∧ (slots.filter Option.isSome).length < dataN + parityN then do
    rsFor env dataN parityN
    (rsReconstruct env dataN parityN slots).mapError fun _ => .readQuorum
  else .ok slots

/-- The body of the two buffered decoders. -/
def decodeReads (dataN parityN : Nat) (reads : List ShardRead) :
    Except StorageError (Bytes × ObjectMeta) := do
  let (slots, m) ← gatherShards env dataN parityN reads
  let slots ← repairSlots env dataN parityN slots
  .ok ((joinShards dataN slots).take m.size, m)

variable {V W : Type} [Backend V W] {n : Nat}

/-- `read_and_decode`. -/
def readAndDecode (disks : Disks V n) (dataN parityN : Nat) (bucket key : String) :
    Except StorageError (Bytes × ObjectMeta) :=
  decodeReads env dataN parityN
    ((List.finRange n).map fun d => Backend.readShard bucket key (disks d))

/-- `read_and_decode_versioned`. -/
def readAndDecodeVersioned (disks : Disks V n) (dataN parityN : Nat)
    (bucket key versionId : String) : Except StorageError (Bytes × ObjectMeta) :=
  decodeReads env dataN parityN
    ((List.finRange n).map fun d => Backend.readVersionedShard bucket key versionId (disks d))

/-! ## Multipart objects -/

/-- The shards of one part, slotted by the index in the part's own metadata. There is no checksum
test here. -/
def slotParts (total : Nat) (reads : List (Option (Nat × Bytes))) : List (Option Bytes) :=
  reads.foldl
    (fun slots read =>
      match read with
      | some (index, data) => slots.set index (some data)
      | none => slots)
    (List.replicate total none)

/-- One part. -/
def decodePart (disks : Disks V n) (bucket key : String) (part : PartEntry) :
    Except StorageError Bytes := do
  let dataN := part.erasure.data
  let parityN := part.erasure.parity
  let slots := slotParts (dataN + parityN)
    ((List.finRange n).map fun d => Backend.readPart bucket key part.number (disks d))
  if (slots.filter Option.isSome).length < dataN then .error .readQuorum
  else do
    let slots ← repairSlots env dataN parityN slots
    .ok ((joinShards dataN slots).take part.size)

/-- `read_and_decode_multipart`: the parts one after another. -/
def readAndDecodeMultipart (disks : Disks V n) (bucket key : String) (m : ObjectMeta) :
    Except StorageError Bytes := do
  let parts ← m.parts.mapM (decodePart env disks bucket key)
  .ok parts.flatten

/-! ## Streaming -/

/-- The items a decode stream delivers. -/
abbrev DecodeStream := List (Except StorageError Bytes)

/-- The fast path: slices of the data shards, up to the size of the block. -/
def fastChunks (offset chunkSize blockSize : Nat) : List Bytes → Nat → List Bytes
  | [], _ => []
  | bytes :: rest, sent =>
    let stop := min (offset + chunkSize) bytes.length
    let sliceLen := stop - offset
    let needed := blockSize - sent
    let take := min sliceLen needed
    if take = 0 then []
    else (bytes.drop offset).take take :: fastChunks offset chunkSize blockSize rest (sent + take)

/-- The slice of one shard the slow path reads. -/
def slotChunk (offset chunkSize : Nat) (slot : Option Bytes) : Option Bytes :=
  slot.bind fun bytes =>
    let stop := min (offset + chunkSize) bytes.length
    if offset < bytes.length ∧ offset < stop then some ((bytes.drop offset).take (stop - offset))
    else none

/-- The slow path: reconstruct one block from slices of the shards. -/
def slowBlock (dataN parityN offset chunkSize blockSize : Nat) (slots : List (Option Bytes)) :
    Except StorageError Bytes :=
  let chunks := slots.map (slotChunk offset chunkSize)
  if (chunks.filter Option.isSome).length < dataN then .error .readQuorum
  else if 0 < parityN ∧ RsAccepts dataN parityN then
    match rsReconstruct env dataN parityN chunks with
    | .ok chunks => .ok ((joinShards dataN chunks).take blockSize)
    | .error _ => .error .readQuorum
  else .ok ((joinShards dataN chunks).take blockSize)

/-- `data_shards_ok`: every data shard is there and not used up. -/
def dataShardsOk (dataN offset : Nat) (slots : List (Option Bytes)) : Bool :=
  (slots.take dataN).all fun slot =>
    match slot with
    | some bytes => offset < bytes.length
    | none => false

/-- The decode task of `read_and_decode_stream`. -/
def streamBlocks (dataN parityN : Nat) (slots : List (Option Bytes)) :
    Nat → Nat → Nat → DecodeStream
  | 0, _, _ => []
  | fuel + 1, remaining, offset =>
    if remaining = 0 then []
    else
      let blockSize := min remaining streamBlockSize
      let chunkSize := shardSize blockSize dataN
      let rest := streamBlocks dataN parityN slots fuel (remaining - blockSize) (offset + chunkSize)
      if dataShardsOk dataN offset slots then
        (fastChunks offset chunkSize blockSize ((slots.take dataN).filterMap id) 0).map .ok ++ rest
      else
        match slowBlock env dataN parityN offset chunkSize blockSize slots with
        | .error e => [.error e]
        | .ok block => .ok block :: rest

/-- The streaming decoder on the shards read. -/
def streamReads (dataN parityN : Nat) (reads : List ShardRead) :
    Except StorageError (ObjectMeta × DecodeStream) := do
  let (slots, m) ← gatherShards env dataN parityN reads
  .ok (m, streamBlocks env dataN parityN slots m.size m.size 0)

/-- `read_and_decode_stream`. -/
def readAndDecodeStream (disks : Disks V n) (dataN parityN : Nat) (bucket key : String) :
    Except StorageError (ObjectMeta × DecodeStream) :=
  streamReads env dataN parityN
    ((List.finRange n).map fun d => Backend.mmapShard bucket key (disks d))

end Decode

end Abixio
