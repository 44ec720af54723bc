import Abixio.Lib.Buffer
import Abixio.Storage.Metadata

/-!
# Needles

Model of `src/storage/needle.rs`: the record of one shard in a segment of the write-ahead log. A needle
is a header of 24 bytes and a payload, the bucket, key, version id, metadata and data without separators.
The header has their lengths and the xxh64 of the payload.

* `RawHeader` is `repr(C, packed)`; its fields are little-endian, as on the machines the project is built
  for. A length that does not fit its field is cut off (`as u8`, `as u16`, `as u32`), while
  `serialized_size` counts all of it.
* `deserialize` and `read_header` each make the checks and go through the fields on their own. Every slice
  they take is a checked read.
* `NeedleEnv` collects the functions of other crates: xxh64, MessagePack and the texts of their errors.

Results:
* `readHeader_serialize`: a needle whose lengths fit is read back where it was written, whatever follows it.
* `readHeader_total`: what was cut off is missing. The needle read back has the length of the header.
* `readHeader_proper`: no bytes make the checks read outside the buffer.
* `readers_agree`: `read_header` accepts what `deserialize` accepts and says where its fields are.
-/

namespace Abixio

open Lib List
open Lib.Read (bind_eq_ok ok_bind)

/-- Functions of other crates. -/
structure NeedleEnv where
  /-- `xxh64(data, 0)`. -/
  xxh64 : Bytes → UInt64
  /-- `rmp_serde::to_vec`. -/
  toVec : ObjectMeta → Bytes
  /-- `rmp_serde::from_slice`, or the `Display` text of its error. -/
  fromSlice : Bytes → Except String ObjectMeta
  /-- The `Display` text of a `Utf8Error`. -/
  utf8Error : Bytes → String

/-- `NEEDLE_MAGIC`. -/
def needleMagic : UInt32 := 0xAB1C4E00

/-- `HEADER_SIZE`. -/
def headerSize : Nat := 24

/-- `FLAG_NORMAL`. -/
def flagNormal : UInt8 := 0

/-- `FLAG_DELETE`. -/
def flagDelete : UInt8 := 1

/-- `RawHeader`. -/
structure RawHeader where
  magic : UInt32
  flags : UInt8
  bucketLen : UInt8
  keyLen : UInt16
  metaLen : UInt16
  dataLen : UInt32
  checksum : UInt64
  versionIdLen : UInt8
  deriving DecidableEq

namespace RawHeader

/-- The bytes of the packed struct. -/
def toBytes (h : RawHeader) : Bytes :=
  Lib.leBytes 4 h.magic.toNat ++ (Lib.leBytes 1 h.flags.toNat ++ (Lib.leBytes 1 h.bucketLen.toNat ++
    (Lib.leBytes 2 h.keyLen.toNat ++ (Lib.leBytes 2 h.metaLen.toNat ++ (Lib.leBytes 4 h.dataLen.toNat ++
    (Lib.leBytes 8 h.checksum.toNat ++ (Lib.leBytes 1 h.versionIdLen.toNat ++ Lib.leBytes 1 0)))))))

/-- `read_unaligned`. -/
def ofBytes (b : Bytes) : RawHeader where
  magic := UInt32.ofNat (Lib.leField b 0 4)
  flags := UInt8.ofNat (Lib.leField b 4 1)
  bucketLen := UInt8.ofNat (Lib.leField b 5 1)
  keyLen := UInt16.ofNat (Lib.leField b 6 2)
  metaLen := UInt16.ofNat (Lib.leField b 8 2)
  dataLen := UInt32.ofNat (Lib.leField b 10 4)
  checksum := UInt64.ofNat (Lib.leField b 14 8)
  versionIdLen := UInt8.ofNat (Lib.leField b 22 1)

/-- The size of the needle, as its readers compute it. -/
def total (h : RawHeader) : Nat :=
  headerSize + h.bucketLen.toNat + h.keyLen.toNat + h.versionIdLen.toNat + h.metaLen.toNat +
    h.dataLen.toNat

theorem length_toBytes (h : RawHeader) : h.toBytes.length = headerSize := by
  simp only [toBytes, length_append, length_leBytes, headerSize]

theorem headerSize_le_total (h : RawHeader) : headerSize ≤ h.total := by
  unfold total
  omega

theorem ofBytes_toBytes (h : RawHeader) : ofBytes h.toBytes = h := by
  unfold ofBytes toBytes
  simp (disch := decide) only [leField_leBytes_skip, Nat.reduceSub, leField_head]
  simp

end RawHeader

/-- `Needle`. -/
structure Needle where
  flags : UInt8
  bucket : String
  key : String
  versionId : String
  metaBytes : Bytes
  data : Bytes
  deriving DecidableEq

/-- `NeedleLocation`. -/
structure NeedleLocation where
  segmentId : UInt32
  offset : UInt32
  metaOffset : UInt32
  metaLen : UInt16
  dataOffset : UInt32
  dataLen : UInt32
  createdAt : UInt32
  deriving DecidableEq

/-- What `Needle::read_header` returns: the needle's identity, and where its fields are. -/
structure NeedleView where
  flags : UInt8
  bucket : String
  key : String
  versionId : String
  metaOffset : Nat
  metaLen : Nat
  dataOffset : Nat
  dataLen : Nat
  total : Nat
  deriving DecidableEq

/-- `str::from_utf8`. -/
def fromUtf8 (bytes : Bytes) : Option String := String.fromUTF8? ⟨bytes.toArray⟩

theorem fromUtf8_utf8 (s : String) : fromUtf8 (utf8 s) = some s := by
  unfold fromUtf8 utf8
  exact dif_pos s.isValidUTF8

/-- `{:#x}`. -/
def hexText (n : Nat) : String := "0x" ++ String.ofList (Nat.toDigits 16 n)

variable {buf : Bytes}

namespace Needle

variable (env : NeedleEnv)

/-- `Needle::new`. -/
def new (bucket key : String) (versionId : Option String) (m : ObjectMeta) (shardData : Bytes) :
    Needle where
  flags := flagNormal
  bucket := bucket
  key := key
  versionId := versionId.getD ""
  metaBytes := env.toVec m
  data := shardData

/-- `Needle::decode_meta`. -/
def decodeMeta (metaBytes : Bytes) : Except StorageError ObjectMeta :=
  (env.fromSlice metaBytes).mapError fun e => .internal ("msgpack deserialize: " ++ e)

/-- `Needle::serialized_size`. -/
def serializedSize (nd : Needle) : Nat :=
  headerSize + (utf8 nd.bucket).length + (utf8 nd.key).length + (utf8 nd.versionId).length +
    nd.metaBytes.length + nd.data.length

/-- The bytes after the header. -/
def payload (nd : Needle) : Bytes :=
  utf8 nd.bucket ++ (utf8 nd.key ++ (utf8 nd.versionId ++ (nd.metaBytes ++ nd.data)))

/-- The header `serialize_into` writes. -/
def rawHeader (nd : Needle) : RawHeader where
  magic := needleMagic
  flags := nd.flags
  bucketLen := UInt8.ofNat (utf8 nd.bucket).length
  keyLen := UInt16.ofNat (utf8 nd.key).length
  metaLen := UInt16.ofNat nd.metaBytes.length
  dataLen := UInt32.ofNat nd.data.length
  checksum := env.xxh64 nd.payload
  versionIdLen := UInt8.ofNat (utf8 nd.versionId).length

/-- `Needle::serialize`, and what `serialize_into` writes. -/
def serialize (nd : Needle) : Bytes := (nd.rawHeader env).toBytes ++ nd.payload

/-- A name in the payload. -/
def readName (what : String) (buf : Bytes) (off len : Nat) : Lib.Read StorageError String := do
  let bytes ← Lib.slice buf off len
  match fromUtf8 bytes with
  | some s => .ok s
  | none => .error (.failed (.internal ("bad " ++ what ++ " utf8: " ++ env.utf8Error bytes)))

/-- The end of `Needle::read_header`: the names, and where the rest is. -/
def readFields (header : RawHeader) (buf : Bytes) : Lib.Read StorageError NeedleView := do
  let bucketOffset := headerSize
  let bucket ← readName env "bucket" buf bucketOffset header.bucketLen.toNat
  let keyOffset := bucketOffset + header.bucketLen.toNat
  let key ← readName env "key" buf keyOffset header.keyLen.toNat
  let versionIdOffset := keyOffset + header.keyLen.toNat
  let versionId ← readName env "version_id" buf versionIdOffset header.versionIdLen.toNat
  let metaOffset := versionIdOffset + header.versionIdLen.toNat
  let dataOffset := metaOffset + header.metaLen.toNat
  .ok {
    flags := header.flags
    bucket := bucket
    key := key
    versionId := versionId
    metaOffset := metaOffset
    metaLen := header.metaLen.toNat
    dataOffset := dataOffset
    dataLen := header.dataLen.toNat
    total := header.total }

/-- `Needle::read_header`. -/
def readHeader (buf : Bytes) : Lib.Read StorageError NeedleView :=
  if buf.length < headerSize then .error (.failed (.internal "needle too short for header"))
  else do
    let header := RawHeader.ofBytes (← Lib.slice buf 0 headerSize)
    if header.magic ≠ needleMagic then
      .error (.failed (.internal ("bad needle magic: " ++ hexText header.magic.toNat)))
    else if buf.length < header.total then .error (.failed (.internal "needle truncated"))
    else do
      let computed := env.xxh64 (← Lib.slice buf headerSize (header.total - headerSize))
      if computed ≠ header.checksum then .error (.failed (.internal "needle checksum mismatch"))
      else readFields env header buf

/-- The end of `Needle::deserialize`: all fields, at an offset that runs along. -/
def takeFields (header : RawHeader) (buf : Bytes) : Lib.Read StorageError (Needle × Nat) := do
  let offset := headerSize
  let bucket ← readName env "bucket" buf offset header.bucketLen.toNat
  let offset := offset + header.bucketLen.toNat
  let key ← readName env "key" buf offset header.keyLen.toNat
  let offset := offset + header.keyLen.toNat
  let versionId ← readName env "version_id" buf offset header.versionIdLen.toNat
  let offset := offset + header.versionIdLen.toNat
  let metaBytes ← Lib.slice buf offset header.metaLen.toNat
  let offset := offset + header.metaLen.toNat
  let data ← Lib.slice buf offset header.dataLen.toNat
  .ok (⟨header.flags, bucket, key, versionId, metaBytes, data⟩, header.total)

/-- `Needle::deserialize`: the needle and its size. -/
def deserialize (buf : Bytes) : Lib.Read StorageError (Needle × Nat) :=
  if buf.length < headerSize then .error (.failed (.internal "needle too short for header"))
  else do
    let header := RawHeader.ofBytes (← Lib.slice buf 0 headerSize)
    if header.magic ≠ needleMagic then
      .error (.failed (.internal ("bad needle magic: " ++ hexText header.magic.toNat)))
    else if buf.length < header.total then .error (.failed (.internal "needle truncated"))
    else do
      let computed := env.xxh64 (← Lib.slice buf headerSize (header.total - headerSize))
      if computed ≠ header.checksum then
        .error (.failed (.internal ("needle checksum mismatch: expected " ++
          hexText header.checksum.toNat ++ ", got " ++ hexText computed.toNat)))
      else takeFields env header buf

/-! ## Reading back -/

/-- The lengths fit their header fields. -/
structure Fits (nd : Needle) : Prop where
  bucket : (utf8 nd.bucket).length ≤ 255
  key : (utf8 nd.key).length ≤ 65535
  versionId : (utf8 nd.versionId).length ≤ 255
  metaBytes : nd.metaBytes.length ≤ 65535
  data : nd.data.length < 2 ^ 32

instance (nd : Needle) : Decidable nd.Fits :=
  decidable_of_iff ((utf8 nd.bucket).length ≤ 255 ∧ (utf8 nd.key).length ≤ 65535 ∧
      (utf8 nd.versionId).length ≤ 255 ∧ nd.metaBytes.length ≤ 65535 ∧ nd.data.length < 2 ^ 32)
    ⟨fun h => ⟨h.1, h.2.1, h.2.2.1, h.2.2.2.1, h.2.2.2.2⟩,
      fun h => ⟨h.bucket, h.key, h.versionId, h.metaBytes, h.data⟩⟩

/-- Where the metadata starts in a needle. -/
def metaStart (nd : Needle) : Nat :=
  headerSize + (utf8 nd.bucket).length + (utf8 nd.key).length + (utf8 nd.versionId).length

/-- Where the data starts in a needle. -/
def dataStart (nd : Needle) : Nat := nd.metaStart + nd.metaBytes.length

/-- What `read_header` says of a needle. -/
def view (nd : Needle) : NeedleView where
  flags := nd.flags
  bucket := nd.bucket
  key := nd.key
  versionId := nd.versionId
  metaOffset := nd.metaStart
  metaLen := nd.metaBytes.length
  dataOffset := nd.dataStart
  dataLen := nd.data.length
  total := nd.serializedSize

/-- The checks a reader makes before it looks at the names: magic, length and checksum. -/
def FailsChecks (buf : Bytes) : Prop :=
  buf.length < headerSize ∨ (RawHeader.ofBytes (buf.take headerSize)).magic ≠ needleMagic ∨
    buf.length < (RawHeader.ofBytes (buf.take headerSize)).total ∨
    env.xxh64 ((buf.drop headerSize).take ((RawHeader.ofBytes (buf.take headerSize)).total - headerSize)) ≠
      (RawHeader.ofBytes (buf.take headerSize)).checksum

instance (buf : Bytes) : Decidable (FailsChecks env buf) :=
  inferInstanceAs (Decidable (_ ∨ _ ∨ _ ∨ _))

variable {env} {nd : Needle}

theorem length_payload (nd : Needle) : nd.payload.length + headerSize = nd.serializedSize := by
  unfold payload serializedSize
  simp only [length_append]
  omega

theorem length_serialize (nd : Needle) : (nd.serialize env).length = nd.serializedSize := by
  unfold serialize
  rw [length_append, RawHeader.length_toBytes, ← length_payload, Nat.add_comm]

theorem headerSize_le_serializedSize (nd : Needle) : headerSize ≤ nd.serializedSize := by
  unfold serializedSize
  omega

section Checks

variable {α : Type} {mismatch : UInt64 → UInt64 → String} {fields : RawHeader → Lib.Read StorageError α}

/-- The checks in front of a reader's fields. -/
def checked (env : NeedleEnv) (mismatch : UInt64 → UInt64 → String)
    (fields : RawHeader → Lib.Read StorageError α) (buf : Bytes) : Lib.Read StorageError α :=
  if buf.length < headerSize then .error (.failed (.internal "needle too short for header"))
  else do
    let header := RawHeader.ofBytes (← Lib.slice buf 0 headerSize)
    if header.magic ≠ needleMagic then
      .error (.failed (.internal ("bad needle magic: " ++ hexText header.magic.toNat)))
    else if buf.length < header.total then .error (.failed (.internal "needle truncated"))
    else do
      let computed := env.xxh64 (← Lib.slice buf headerSize (header.total - headerSize))
      if computed ≠ header.checksum then .error (.failed (.internal (mismatch header.checksum computed)))
      else fields header

theorem readHeader_eq : readHeader env buf = checked env (fun _ _ => "needle checksum mismatch")
    (fun header => readFields env header buf) buf := rfl

/-- `deserialize` makes the same checks, with one other message. -/
theorem deserialize_eq : deserialize env buf = checked env (fun expected computed =>
    "needle checksum mismatch: expected " ++ hexText expected.toNat ++ ", got " ++ hexText computed.toNat)
    (fun header => takeFields env header buf) buf := rfl

/-- **A needle that fails a check is an error**, -/
theorem checked_failed (h : FailsChecks env buf) : ∃ e, checked env mismatch fields buf = .error (.failed e) := by
  unfold checked
  by_cases hshort : buf.length < headerSize
  · exact ⟨_, if_pos hshort⟩
  rw [if_neg hshort, slice_eq (by omega), ok_bind, drop_zero]
  by_cases hmagic : (RawHeader.ofBytes (buf.take headerSize)).magic ≠ needleMagic
  · exact ⟨_, if_pos hmagic⟩
  rw [if_neg hmagic]
  by_cases htotal : buf.length < (RawHeader.ofBytes (buf.take headerSize)).total
  · exact ⟨_, if_pos htotal⟩
  have hsize := (RawHeader.ofBytes (buf.take headerSize)).headerSize_le_total
  rw [if_neg htotal, slice_eq (by omega)]
  have hsum := ((h.resolve_left hshort).resolve_left hmagic).resolve_left htotal
  exact ⟨_, if_pos hsum⟩

/-- and one that passes them has its fields read. -/
theorem checked_passed (h : ¬ FailsChecks env buf) :
    checked env mismatch fields buf = fields (RawHeader.ofBytes (buf.take headerSize)) := by
  simp only [FailsChecks, not_or] at h
  obtain ⟨hshort, hmagic, htotal, hsum⟩ := h
  have hsize := (RawHeader.ofBytes (buf.take headerSize)).headerSize_le_total
  unfold checked
  rw [if_neg hshort, slice_eq (by omega), ok_bind, drop_zero, if_neg hmagic, if_neg htotal, slice_eq (by omega)]
  exact if_neg hsum

theorem readHeader_failed (h : FailsChecks env buf) : ∃ e, readHeader env buf = .error (.failed e) := by
  rw [readHeader_eq]
  exact checked_failed h

theorem readHeader_passed (h : ¬ FailsChecks env buf) :
    readHeader env buf = readFields env (RawHeader.ofBytes (buf.take headerSize)) buf := by
  rw [readHeader_eq, checked_passed h]

end Checks

/-- **The running offset comes to the offsets of the view.** -/
theorem takeFields_eq (header : RawHeader) : takeFields env header buf =
    (readFields env header buf >>= fun view => Lib.slice buf view.metaOffset view.metaLen >>= fun metaBytes =>
      Lib.slice buf view.dataOffset view.dataLen >>= fun data =>
        .ok (⟨view.flags, view.bucket, view.key, view.versionId, metaBytes, data⟩, view.total)) := by
  unfold takeFields readFields
  simp only [bind_assoc]
  rfl

theorem readName_utf8 {what s : String} {front rest : Bytes} {off len : Nat} (hoff : front.length = off)
    (hlen : (utf8 s).length = len) :
    readName env what (front ++ (utf8 s ++ rest)) off len = .ok s := by
  unfold readName
  rw [slice_piece hoff hlen]
  show (match fromUtf8 (utf8 s) with
    | some s => Except.ok s
    | none => Except.error (Lib.Fault.failed _)) = Except.ok s
  rw [fromUtf8_utf8]

theorem readName_proper {what : String} {off len : Nat} (h : off + len ≤ buf.length) :
    Lib.Proper (readName env what buf off len) := by
  unfold readName
  rw [slice_eq h]
  show Lib.Proper (match fromUtf8 _ with
    | some s => Except.ok s
    | none => Except.error (Lib.Fault.failed _))
  split
  · exact proper_ok _
  · exact proper_failed _

/-- **The readers stay in the buffer.** -/
theorem readHeader_proper (buf : Bytes) : Lib.Proper (readHeader env buf) := by
  by_cases h : FailsChecks env buf
  · obtain ⟨e, he⟩ := readHeader_failed h
    rw [he]
    exact proper_failed e
  rw [readHeader_passed h]
  have htotal : (RawHeader.ofBytes (buf.take headerSize)).total ≤ buf.length := by
    simp only [FailsChecks, not_or, Nat.not_lt] at h
    exact h.2.2.1
  revert htotal
  generalize RawHeader.ofBytes (buf.take headerSize) = header
  intro htotal
  unfold RawHeader.total at htotal
  refine (readName_proper (by omega)).bind fun bucket _ => ?_
  refine (readName_proper (by omega)).bind fun key _ => ?_
  refine (readName_proper (by omega)).bind fun versionId _ => ?_
  exact proper_ok _

variable {view : NeedleView}

/-- A needle that was accepted passed the checks, and its fields follow each other. -/
theorem readHeader_ok (h : readHeader env buf = .ok view) :
    ¬ FailsChecks env buf ∧ view.total = (RawHeader.ofBytes (buf.take headerSize)).total ∧
      view.dataOffset = view.metaOffset + view.metaLen ∧ view.total = view.dataOffset + view.dataLen := by
  by_cases hfails : FailsChecks env buf
  · obtain ⟨e, he⟩ := readHeader_failed hfails
    rw [he] at h
    cases h
  rw [readHeader_passed hfails] at h
  obtain ⟨bucket, -, h⟩ := bind_eq_ok h
  obtain ⟨key, -, h⟩ := bind_eq_ok h
  obtain ⟨versionId, -, h⟩ := bind_eq_ok h
  cases h
  exact ⟨hfails, rfl, rfl, rfl⟩

/-- It has a header, and lies in the buffer. -/
theorem readHeader_total (h : readHeader env buf = .ok view) :
    headerSize ≤ view.total ∧ view.total ≤ buf.length := by
  obtain ⟨hchecks, htotal, -⟩ := readHeader_ok h
  simp only [FailsChecks, not_or, Nat.not_lt] at hchecks
  rw [htotal]
  exact ⟨RawHeader.headerSize_le_total _, hchecks.2.2.1⟩

/-- **What is read depends on the bytes of the needle.** -/
theorem readHeader_congr {buf' : Bytes} (h : readHeader env buf = .ok view)
    (hfront : buf'.take view.total = buf.take view.total) : readHeader env buf' = .ok view := by
  obtain ⟨hsize, hlen⟩ := readHeader_total h
  obtain ⟨hchecks, htotal, -⟩ := readHeader_ok h
  have hlen' := congrArg length hfront
  rw [length_take, length_take, Nat.min_eq_left hlen] at hlen'
  rw [← h]
  simp only [FailsChecks, not_or] at hchecks
  obtain ⟨hshort, hmagic, hcut, -⟩ := hchecks
  unfold readHeader
  rw [if_neg (by omega), if_neg hshort, slice_congr hfront (by omega), slice_eq (by omega), drop_zero,
    ok_bind, ok_bind, if_neg hmagic, if_neg hmagic, if_neg (by omega), if_neg hcut,
    slice_congr hfront (by omega)]
  unfold RawHeader.total at htotal
  unfold readFields readName
  dsimp only
  rw [slice_congr hfront (by omega), slice_congr hfront (by omega), slice_congr hfront (by omega)]

/-- The lengths in a header, where they fit. -/
structure HeaderLengths (header : RawHeader) (nd : Needle) : Prop where
  bucket : header.bucketLen.toNat = (utf8 nd.bucket).length
  key : header.keyLen.toNat = (utf8 nd.key).length
  versionId : header.versionIdLen.toNat = (utf8 nd.versionId).length
  metaBytes : header.metaLen.toNat = nd.metaBytes.length
  data : header.dataLen.toNat = nd.data.length

theorem Fits.headerLengths (hfits : nd.Fits) : HeaderLengths (nd.rawHeader env) nd where
  bucket := UInt8.toNat_ofNat_of_lt' (Nat.lt_succ_of_le hfits.bucket)
  key := UInt16.toNat_ofNat_of_lt' (Nat.lt_succ_of_le hfits.key)
  versionId := UInt8.toNat_ofNat_of_lt' (Nat.lt_succ_of_le hfits.versionId)
  metaBytes := UInt16.toNat_ofNat_of_lt' (Nat.lt_succ_of_le hfits.metaBytes)
  data := UInt32.toNat_ofNat_of_lt' hfits.data

theorem HeaderLengths.total {header : RawHeader} (h : HeaderLengths header nd) :
    header.total = nd.serializedSize := by
  unfold RawHeader.total serializedSize
  rw [h.bucket, h.key, h.versionId, h.metaBytes, h.data]

/-- The header of a needle at the front of a buffer. -/
theorem ofBytes_serialize (env : NeedleEnv) (nd : Needle) (rest : Bytes) :
    RawHeader.ofBytes ((nd.serialize env ++ rest).take headerSize) = nd.rawHeader env := by
  rw [serialize, append_assoc, take_left' (RawHeader.length_toBytes _), RawHeader.ofBytes_toBytes]

/-- **A needle that fits passes the checks**, whatever follows it. -/
theorem not_failsChecks (hfits : nd.Fits) (rest : Bytes) :
    ¬ FailsChecks env (nd.serialize env ++ rest) := by
  have htotal : (nd.rawHeader env).total = nd.serializedSize := hfits.headerLengths.total
  have hlen : (nd.serialize env ++ rest).length = nd.serializedSize + rest.length := by
    rw [length_append, length_serialize]
  have hsize := headerSize_le_serializedSize nd
  have hpayload : nd.payload.length = nd.serializedSize - headerSize := by
    have := length_payload nd
    omega
  unfold FailsChecks
  rw [ofBytes_serialize, htotal, hlen]
  rintro (hshort | hmagic | hshort | hsum)
  · omega
  · exact hmagic rfl
  · omega
  · apply hsum
    rw [serialize, append_assoc, drop_left' (RawHeader.length_toBytes _), take_left' hpayload]
    rfl

/-- The pieces of a needle in a buffer, each with what stands in front of it. -/
theorem serialize_append (env : NeedleEnv) (nd : Needle) (rest : Bytes) :
    nd.serialize env ++ rest = (nd.rawHeader env).toBytes ++ (utf8 nd.bucket ++ (utf8 nd.key ++
      (utf8 nd.versionId ++ (nd.metaBytes ++ (nd.data ++ rest))))) := by
  simp only [serialize, payload, append_assoc]

/-- The metadata and the data are the end of a needle. -/
theorem serialize_split (env : NeedleEnv) (nd : Needle) : ∃ front : Bytes,
    front.length = nd.metaStart ∧ nd.serialize env = front ++ (nd.metaBytes ++ nd.data) := by
  refine ⟨(nd.rawHeader env).toBytes ++ (utf8 nd.bucket ++ (utf8 nd.key ++ utf8 nd.versionId)), ?_, ?_⟩
  · simp only [length_append, RawHeader.length_toBytes, metaStart, Nat.add_assoc]
  · simp only [serialize, payload, append_assoc]

/-- **A needle is read back where it was written.** -/
theorem readHeader_serialize (hfits : nd.Fits) (rest : Bytes) :
    readHeader env (nd.serialize env ++ rest) = .ok nd.view := by
  have hlens : HeaderLengths (nd.rawHeader env) nd := hfits.headerLengths
  rw [readHeader_passed (not_failsChecks hfits rest), ofBytes_serialize]
  unfold readFields
  dsimp only
  rw [hlens.bucket, hlens.key, hlens.versionId, hlens.metaBytes, hlens.data, hlens.total,
    serialize_append]
  have hheader := (nd.rawHeader env).length_toBytes
  rw [readName_utf8 hheader rfl, ok_bind]
  -- the front grows by the name that was just read
  rw [← append_assoc, readName_utf8 (by rw [length_append, hheader]) rfl, ok_bind]
  rw [← append_assoc, readName_utf8 (by rw [length_append, length_append, hheader]) rfl,
    ok_bind]
  rfl

/-- `deserialize` is `read_header` and the bytes at its offsets. -/
theorem deserialize_ok_iff {r : Needle × Nat} : deserialize env buf = .ok r ↔
    ∃ view metaBytes data, readHeader env buf = .ok view ∧
      slice buf view.metaOffset view.metaLen = (.ok metaBytes : Lib.Read StorageError Bytes) ∧
      slice buf view.dataOffset view.dataLen = (.ok data : Lib.Read StorageError Bytes) ∧
      r = (⟨view.flags, view.bucket, view.key, view.versionId, metaBytes, data⟩, view.total) := by
  by_cases hfails : FailsChecks env buf
  · obtain ⟨e, he⟩ := readHeader_failed hfails
    obtain ⟨e', he'⟩ := checked_failed hfails
    rw [deserialize_eq, he']
    refine iff_of_false nofun ?_
    rintro ⟨view, -, -, hview, -⟩
    cases he.symm.trans hview
  rw [deserialize_eq, checked_passed hfails, readHeader_passed hfails, takeFields_eq]
  constructor
  · intro h
    obtain ⟨view, hview, h⟩ := bind_eq_ok h
    obtain ⟨metaBytes, hmeta, h⟩ := bind_eq_ok h
    obtain ⟨data, hdata, h⟩ := bind_eq_ok h
    cases h
    exact ⟨view, metaBytes, data, hview, hmeta, hdata, rfl⟩
  · rintro ⟨view, metaBytes, data, hview, hmeta, hdata, rfl⟩
    rw [hview, ok_bind, hmeta, ok_bind, hdata]
    rfl

/-- **`deserialize` returns the needle.** -/
theorem deserialize_serialize (hfits : nd.Fits) (rest : Bytes) :
    deserialize env (nd.serialize env ++ rest) = .ok (nd, nd.serializedSize) := by
  have hheader := (nd.rawHeader env).length_toBytes
  have hfront : ((nd.rawHeader env).toBytes ++ (utf8 nd.bucket ++ (utf8 nd.key ++ utf8 nd.versionId))).length =
      nd.metaStart := by
    simp only [length_append, hheader, metaStart]
    omega
  have hmeta : nd.serialize env ++ rest = ((nd.rawHeader env).toBytes ++ (utf8 nd.bucket ++ (utf8 nd.key ++
      utf8 nd.versionId))) ++ (nd.metaBytes ++ (nd.data ++ rest)) := by
    simp only [serialize, payload, append_assoc]
  refine deserialize_ok_iff.mpr ⟨nd.view, nd.metaBytes, nd.data, readHeader_serialize hfits _, ?_, ?_, rfl⟩
  · rw [hmeta]
    exact slice_piece hfront rfl
  · rw [hmeta, ← append_assoc]
    exact slice_piece (by rw [length_append, hfront]; rfl) rfl

/-- One byte of metadata and one of data, with a byte behind them. -/
theorem deserialize_serialize_small : ∃ env, deserialize env (serialize env ⟨flagNormal, "b", "k", "", [1], [2]⟩ ++
    [3]) = .ok (⟨flagNormal, "b", "k", "", [1], [2]⟩, 28) :=
  ⟨⟨fun _ => 7, fun _ => [], fun _ => .error "", fun _ => ""⟩, deserialize_serialize (by decide) [3]⟩

/-- What the two readers of a needle have in common. -/
structure ReadersAgree (env : NeedleEnv) (buf : Bytes) (view : NeedleView) (nd : Needle) (total : Nat) :
    Prop where
  flags : nd.flags = view.flags
  bucket : nd.bucket = view.bucket
  key : nd.key = view.key
  versionId : nd.versionId = view.versionId
  size : total = view.total
  header : headerSize ≤ total
  inside : total ≤ buf.length
  metaBytes : slice buf view.metaOffset view.metaLen = (.ok nd.metaBytes : Lib.Read StorageError Bytes)
  data : slice buf view.dataOffset view.dataLen = (.ok nd.data : Lib.Read StorageError Bytes)
  /-- Both depend on the first `total` bytes only. -/
  front : ∀ buf' : Bytes, buf'.take total = buf.take total →
    readHeader env buf' = .ok view ∧ deserialize env buf' = .ok (nd, total)

/-- **The two parsers agree on all bytes.** -/
theorem readers_agree (env : NeedleEnv) (buf : Bytes) :
    ((∃ view, readHeader env buf = .ok view) ↔ ∃ r, deserialize env buf = .ok r) ∧
      ∀ view nd total, readHeader env buf = .ok view → deserialize env buf = .ok (nd, total) →
        ReadersAgree env buf view nd total := by
  refine ⟨⟨?_, ?_⟩, ?_⟩
  · rintro ⟨view, hview⟩
    obtain ⟨-, hlen⟩ := readHeader_total hview
    obtain ⟨-, -, hoff, htotal⟩ := readHeader_ok hview
    exact ⟨_, deserialize_ok_iff.mpr ⟨view, _, _, hview, slice_eq (by omega), slice_eq (by omega), rfl⟩⟩
  · rintro ⟨r, hr⟩
    obtain ⟨view, -, -, hview, -⟩ := deserialize_ok_iff.mp hr
    exact ⟨view, hview⟩
  · intro view nd total hview hnd
    obtain ⟨view', metaBytes, data, hview', hmeta, hdata, hr⟩ := deserialize_ok_iff.mp hnd
    cases hview.symm.trans hview'
    cases hr
    obtain ⟨hsize, hlen⟩ := readHeader_total hview
    obtain ⟨-, -, hoff, htotal⟩ := readHeader_ok hview
    refine ⟨rfl, rfl, rfl, rfl, rfl, hsize, hlen, hmeta, hdata, fun buf' hfront => ?_⟩
    have hread : readHeader env buf' = .ok view := readHeader_congr hview hfront
    refine ⟨hread, deserialize_ok_iff.mpr ⟨view, metaBytes, data, hread, ?_, ?_, rfl⟩⟩
    · rw [slice_congr hfront (by omega), hmeta]
    · rw [slice_congr hfront (by omega), hdata]

/-- Zeroed space is not a needle. -/
theorem failsChecks_zeros (env : NeedleEnv) (n : Nat) : FailsChecks env (List.replicate n 0) := by
  by_cases hshort : n < headerSize
  · left
    rwa [length_replicate]
  · right
    left
    rw [take_replicate, Nat.min_eq_left (by omega)]
    decide

end Needle

end Abixio
