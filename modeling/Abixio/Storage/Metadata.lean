import Abixio.Lib.ErasureCode
import Mathlib.Algebra.GroupWithZero.Nat

/-!
# Object metadata, errors and the crates the storage layer calls

Model of `src/storage/metadata.rs`, of `StorageError` (`src/storage/mod.rs:326-369`) and of
`src/storage/bitrot.rs`.

* Byte strings are lists of bytes. `usize`, `u32` and `u64` counters are natural numbers here; the
  WAL modules, where a width matters, reduce them explicitly.
* A `HashMap<String, String>` is the association list of its entries in one canonical order, so
  equality of lists is equality of maps.
* `inline_data` is base64 text in the Rust struct. The model keeps the bytes it stands for.
* `Env` collects the functions of other crates: the digests and the Reed–Solomon code. Nothing is
  assumed about them here. A streaming hasher is the digest of everything it was fed.
-/

namespace Abixio

/-- `Vec<u8>`, `Bytes`, `&[u8]`. -/
abbrev Bytes := List UInt8

/-- `HashMap<String, String>`. -/
abbrev StringMap := List (String × String)

/-- Disk numbers are numerals of `Fin`. -/
instance (priority := 1100) neZeroDisks (n : Nat) : NeZero (n + 1) := ⟨n.succ_ne_zero⟩

instance (priority := 1200) neZeroOne : NeZero 1 := ⟨by decide⟩

instance (priority := 1200) neZeroTwo : NeZero 2 := ⟨by decide⟩

instance (priority := 1200) neZeroThree : NeZero 3 := ⟨by decide⟩

instance (priority := 1200) neZeroFour : NeZero 4 := ⟨by decide⟩

/-- `StorageError`. -/
inductive StorageError where
  | bucketNotFound
  | objectNotFound
  | bucketExists
  | bucketNotEmpty
  | writeQuorum
  | readQuorum
  | bitrot
  | invalidConfig (msg : String)
  | io (msg : String)
  | invalidBucketName (name : String)
  | invalidObjectKey (key : String)
  | invalidVersionId (id : String)
  | invalidUploadId (id : String)
  | internal (msg : String)
  deriving DecidableEq, Repr

/-- The errors of the `reed-solomon-erasure` crate that the storage code can meet. -/
inductive RsError where
  | tooFewShards
  | tooManyShards
  | tooFewDataShards
  | tooFewParityShards
  | incorrectShardSize
  | tooFewShardsPresent
  | emptyShard
  deriving DecidableEq, Repr

/-- Functions of other crates. -/
structure Env where
  /-- `blake3::hash(data).to_hex()`. -/
  blake3Hex : Bytes → String
  /-- `hex::encode(Sha256::digest(data))`. -/
  sha256Hex : Bytes → String
  /-- `hex::encode(Md5::digest(data))`. -/
  md5Hex : Bytes → String
  /-- `xxh64(data, 0)`. -/
  xxh64 : Bytes → Nat
  /-- The code `ReedSolomon::new(data, parity)` builds. -/
  code : Nat → Nat → Lib.ErasureCode UInt8
  /-- The crate's `Display` text of an error. -/
  rsErrorText : RsError → String

/-- SHA-256 as given, and nothing of the other functions. -/
def Env.ofSha256 (sha256Hex : Bytes → String) : Env where
  blake3Hex _ := ""
  sha256Hex := sha256Hex
  md5Hex _ := ""
  xxh64 _ := 0
  code _ parity := Lib.replication UInt8 parity
  rsErrorText _ := ""

/-- The UTF-8 bytes of a string. -/
def utf8 (s : String) : Bytes := s.toUTF8.data.toList

/-! ## Metadata records -/

/-- `ErasureMeta`. -/
structure ErasureMeta where
  ftt : Nat
  index : Nat
  epochId : Nat
  volumeIds : List String
  deriving DecidableEq, Repr

/-- `ErasureMeta::data`. -/
def ErasureMeta.data (e : ErasureMeta) : Nat := e.volumeIds.length - e.ftt

/-- `ErasureMeta::parity`. -/
def ErasureMeta.parity (e : ErasureMeta) : Nat := e.ftt

/-- `PartEntry`. -/
structure PartEntry where
  number : Int
  size : Nat
  etag : String
  erasure : ErasureMeta
  checksum : String
  deriving DecidableEq, Repr

/-- `multipart::PartFileMeta`: the contents of `part.N.meta`. -/
structure PartFileMeta where
  partNumber : Int
  size : Nat
  etag : String
  erasure : ErasureMeta
  checksum : String
  deriving DecidableEq, Repr

/-- `multipart::UploadMeta`: the contents of `upload.json`. -/
structure UploadMeta where
  uploadId : String
  bucket : String
  key : String
  contentType : String
  userMetadata : StringMap
  createdAt : Nat
  dataDir : String
  deriving DecidableEq, Repr

/-- `ObjectMeta`: one version of an object. -/
structure ObjectMeta where
  size : Nat
  etag : String
  contentType : String
  createdAt : Nat
  erasure : ErasureMeta
  checksum : String
  userMetadata : StringMap
  tags : StringMap
  versionId : String
  isLatest : Bool
  isDeleteMarker : Bool
  parts : List PartEntry
  inlineData : Option Bytes
  deriving DecidableEq, Repr

/-- `ObjectMetaFile`: the contents of `meta.json`. -/
structure ObjectMetaFile where
  bucket : String
  key : String
  versions : List ObjectMeta
  deriving DecidableEq, Repr

/-- `ObjectInfo`. -/
structure ObjectInfo where
  bucket : String
  key : String
  size : Nat
  etag : String
  contentType : String
  createdAt : Nat
  userMetadata : StringMap
  tags : StringMap
  versionId : String
  isDeleteMarker : Bool
  deriving DecidableEq, Repr

/-- `PutOptions`. -/
structure PutOptions where
  contentType : String
  userMetadata : StringMap
  tags : StringMap
  ecFtt : Option Nat
  precomputedEtag : Option String
  skipMd5 : Bool
  deriving DecidableEq, Repr

/-- The bits of a finite `f64`. -/
abbrev FiniteBits := {bits : UInt64 // bits >>> 52 &&& 0x7ff ≠ 0x7ff}

/-- `serde_json::Number`. `negInt n` is the number `-1 - n`. -/
inductive JsonNumber where
  | posInt (n : UInt64)
  | negInt (n : Fin (2 ^ 63))
  | float (bits : FiniteBits)
  deriving DecidableEq, Repr

/-- `serde_json::Value`. The entries of an object are in the order of their keys. -/
inductive Json where
  | null
  | bool (b : Bool)
  | number (n : JsonNumber)
  | string (s : String)
  | array (items : List Json)
  | object (entries : List (String × Json))
  deriving Repr

mutual

/-- Equality of values is decidable, -/
def Json.decEq : (a b : Json) → Decidable (a = b)
  | .null, .null => .isTrue rfl
  | .bool a, .bool b => decidable_of_iff (a = b) ⟨congrArg _, Json.bool.inj⟩
  | .number a, .number b => decidable_of_iff (a = b) ⟨congrArg _, Json.number.inj⟩
  | .string a, .string b => decidable_of_iff (a = b) ⟨congrArg _, Json.string.inj⟩
  | .array a, .array b =>
    have := Json.decEqItems a b
    decidable_of_iff (a = b) ⟨congrArg _, Json.array.inj⟩
  | .object a, .object b =>
    have := Json.decEqEntries a b
    decidable_of_iff (a = b) ⟨congrArg _, Json.object.inj⟩
  | .null, .bool _ | .null, .number _ | .null, .string _ | .null, .array _ | .null, .object _
  | .bool _, .null | .bool _, .number _ | .bool _, .string _ | .bool _, .array _ | .bool _, .object _
  | .number _, .null | .number _, .bool _ | .number _, .string _ | .number _, .array _
  | .number _, .object _
  | .string _, .null | .string _, .bool _ | .string _, .number _ | .string _, .array _
  | .string _, .object _
  | .array _, .null | .array _, .bool _ | .array _, .number _ | .array _, .string _
  | .array _, .object _
  | .object _, .null | .object _, .bool _ | .object _, .number _ | .object _, .string _
  | .object _, .array _ => .isFalse nofun

/-- of their items, -/
def Json.decEqItems : (a b : List Json) → Decidable (a = b)
  | [], [] => .isTrue rfl
  | [], _ :: _ | _ :: _, [] => .isFalse nofun
  | a :: as, b :: bs =>
    have := Json.decEq a b
    have := Json.decEqItems as bs
    decidable_of_iff (a = b ∧ as = bs) List.cons_eq_cons.symm

/-- and of their entries. -/
def Json.decEqEntries : (a b : List (String × Json)) → Decidable (a = b)
  | [], [] => .isTrue rfl
  | [], _ :: _ | _ :: _, [] => .isFalse nofun
  | (k, a) :: as, (l, b) :: bs =>
    have := Json.decEq a b
    have := Json.decEqEntries as bs
    decidable_of_iff ((k = l ∧ a = b) ∧ as = bs)
      ⟨fun h => by rw [h.1.1, h.1.2, h.2], fun h => by cases h; exact ⟨⟨rfl, rfl⟩, rfl⟩⟩

end

instance : DecidableEq Json := Json.decEq

/-- `BucketSettings`. -/
structure BucketSettings where
  versioning : Option String
  ftt : Option Nat
  tags : Option StringMap
  policy : Option Json
  lifecycle : Option String
  deriving DecidableEq, Repr

/-- `BucketSettings::default`. -/
def BucketSettings.empty : BucketSettings := ⟨none, none, none, none, none⟩

/-- What `serde_json` reads of settings that it wrote: a policy `null` is an absent one. -/
def BucketSettings.parsed (s : BucketSettings) : BucketSettings :=
  if s.policy = some .null then { s with policy := none } else s

theorem BucketSettings.parsed_of_policy {s : BucketSettings} (h : s.policy ≠ some .null) : s.parsed = s :=
  if_neg h

theorem BucketSettings.parsed_policy (s : BucketSettings) : s.parsed.policy ≠ some .null := by
  unfold BucketSettings.parsed
  split
  · exact nofun
  · assumption

/-- `ObjectMeta::is_multipart`. -/
def ObjectMeta.isMultipart (m : ObjectMeta) : Bool := !m.parts.isEmpty

/-- `ObjectMeta::quorum_eq`: every field except the per-shard index and checksum, and except the
version fields. -/
def ObjectMeta.quorumEq (a b : ObjectMeta) : Bool :=
  a.size == b.size && a.etag == b.etag && a.contentType == b.contentType &&
    a.createdAt == b.createdAt && a.erasure.ftt == b.erasure.ftt &&
    a.erasure.epochId == b.erasure.epochId && a.erasure.volumeIds == b.erasure.volumeIds &&
    a.userMetadata == b.userMetadata && a.tags == b.tags

/-- `VolumePool::meta_to_info`. -/
def ObjectMeta.toInfo (bucket key : String) (m : ObjectMeta) : ObjectInfo where
  bucket := bucket
  key := key
  size := m.size
  etag := m.etag
  contentType := m.contentType
  createdAt := m.createdAt
  userMetadata := m.userMetadata
  tags := m.tags
  versionId := m.versionId
  isDeleteMarker := m.isDeleteMarker

/-- `verify_shard_checksum`: the current digest first, then the legacy one. -/
def verifyShardChecksum (env : Env) (data : Bytes) (storedChecksum : String) : Bool :=
  env.blake3Hex data == storedChecksum || env.sha256Hex data == storedChecksum

theorem verifyShardChecksum_blake3 (env : Env) (data : Bytes) :
    verifyShardChecksum env data (env.blake3Hex data) = true := by
  simp [verifyShardChecksum]

/-- `quorum_eq` ignores the shard index and checksum. -/
theorem quorumEq_reindex (m : ObjectMeta) (i j : Nat) (c d : String) :
    ObjectMeta.quorumEq { m with erasure := { m.erasure with index := i }, checksum := c }
      { m with erasure := { m.erasure with index := j }, checksum := d } = true := by
  simp [ObjectMeta.quorumEq]

/-- `format!("{:016x}", n)`. -/
def hex16 (n : Nat) : String :=
  let digits := Nat.toDigits 16 n
  String.ofList (List.replicate (16 - digits.length) '0' ++ digits)

/-- The ETag of a body: the caller's own, the MD5, or `xxh64` and the length when MD5 is
skipped. -/
def etagOf (env : Env) (opts : PutOptions) (body : Bytes) : String :=
  opts.precomputedEtag.getD
    (if opts.skipMd5 then hex16 (env.xxh64 body) ++ hex16 body.length else env.md5Hex body)

/-- The content type recorded for a body: empty means `application/octet-stream`. -/
def PutOptions.contentTypeOrDefault (opts : PutOptions) : String :=
  if opts.contentType.isEmpty then "application/octet-stream" else opts.contentType

end Abixio
