import Abixio.Storage.VolumePool

/-!
# The S3 request handlers

Model of the handlers `put_object` and `delete_object` of `src/s3_service.rs`. The state is the pool and
the versioning cache, which `cached_versioning_config` fills, and only the handlers of the versioning
configuration (`get_bucket_versioning`, `put_bucket_versioning`) clear.

* Handlers return the storage error that `map_err` turns into the S3 error.
* The UUID and the clock a request draws are arguments, and so is the outcome of replicating to the
  peer.
* The versioning status is text: `"Enabled"`, `"Suspended"`, or nothing.
-/

namespace Abixio

open Lib Act

/-- `AbixioS3`. -/
structure S3State (V : Type) (n : Nat) where
  pool : Pool V n
  versioningCache : AList fun _ : String => Option String

/-- A handler. -/
abbrev S3Op (V : Type) (n : Nat) (α : Type) := Act StorageError (S3State V n) α

/-- What a request draws from its surroundings: a fresh UUID and the time. -/
structure Draw where
  uuid : String
  now : Nat
  deriving DecidableEq

/-- `PutObjectInput`. -/
structure PutObjectInput where
  bucket : String
  key : String
  contentType : Option String
  metadata : Option StringMap
  contentMd5 : Option String
  contentLength : Option Nat
  body : Option Body

/-- `PutObjectOutput`. -/
structure PutObjectOutput where
  eTag : String
  versionId : Option String
  deriving DecidableEq

/-- `DeleteObjectInput`. -/
structure DeleteObjectInput where
  bucket : String
  key : String
  versionId : Option String
  deriving DecidableEq

/-- `DeleteObjectOutput`. -/
structure DeleteObjectOutput where
  deleteMarker : Bool
  versionId : Option String
  deriving DecidableEq

/-- `str::parse::<usize>().ok()`. -/
def parseUsize (s : String) : Option Nat :=
  let digits : List Char := match s.toList with
    | '+' :: rest => rest
    | cs => cs
  let value : Nat := digits.foldl (fun n c => 10 * n + (c.toNat - 48)) 0
  if digits ≠ [] ∧ digits.all isAsciiDigit ∧ value < 2 ^ 64 then some value else none

section Handlers

variable {V W : Type} [Backend V W] {n : Nat} (env : Env) (cfg : PoolConfig n)

/-- Run a request on the pool. -/
def onPool {α : Type} (x : PoolOp V n α) : S3Op V n α := fun s =>
  ((x s.pool).1, { s with pool := (x s.pool).2 })

/-- `cached_versioning_config`. -/
def cachedVersioningConfig (bucket : String) : S3Op V n (Option String) := fun s =>
  match s.versioningCache.lookup bucket with
  | some config => (.ok config, s)
  | none =>
    match getVersioningConfig bucket s.pool with
    | .ok config => (.ok config, { s with versioningCache := s.versioningCache.insert bucket config })
    | .error e => (.error e, s)

/-- The status a handler acts on: an error counts as no status. -/
def versioningStatus (bucket : String) : S3Op V n (Option String) := do
  match ← Act.attempt (cachedVersioningConfig bucket) with
  | .ok config => pure config
  | .error _ => pure none

/-- The storage request of `put_object`. -/
def putRequest (input : PutObjectInput) (draw : Draw) (versioned : Bool) : PutRequest :=
  let metadata := input.metadata.getD []
  let contentType := input.contentType.getD ""
  { bucket := input.bucket
    key := input.key
    versionId := if versioned then some draw.uuid else none
    opts := {
      contentType := if contentType.isEmpty then "application/octet-stream" else contentType
      userMetadata := metadata
      tags := []
      ecFtt := (metadata.lookup "ec-ftt").bind parseUsize
      precomputedEtag := none
      skipMd5 := input.contentMd5.isNone }
    createdAt := draw.now
    contentLength := input.contentLength }

/-- `put_object`. -/
def s3PutObject (input : PutObjectInput) (draw : Draw) (peerOk : Bool) :
    S3Op V n PutObjectOutput := do
  let status ← versioningStatus input.bucket
  let versioned := status = some "Enabled"
  let (info, _) ← onPool (putObjectStream env cfg (putRequest input draw versioned) peerOk
    (input.body.getD [.ok []]))
  pure {
    eTag := info.etag
    versionId := if info.versionId ≠ "" then some info.versionId
      else if status = some "Suspended" then some "null" else none }

/-- `delete_object`. -/
def s3DeleteObject (input : DeleteObjectInput) (draw : Draw) : S3Op V n DeleteObjectOutput := do
  match input.versionId with
  | some vid =>
    onPool (deleteObjectVersion input.bucket input.key vid)
    pure ⟨false, some vid⟩
  | none =>
    let status ← versioningStatus input.bucket
    if status = some "Enabled" ∨ status = some "Suspended" then do
      let info ← onPool (addDeleteMarker input.bucket input.key draw.uuid draw.now)
      pure ⟨true, some info.versionId⟩
    else do
      onPool (deleteObject input.bucket input.key)
      pure ⟨false, none⟩

end Handlers

/-! ## The versioning status -/

section Status

variable {V W : Type} [Backend V W] {n : Nat} {s : S3State V n} {bucket : String}

/-- The status the handlers see. -/
def seenStatus (bucket : String) (s : S3State V n) : Option String :=
  ((cachedVersioningConfig bucket s).1.toOption).join

/-- Looking at the status fills the cache and does nothing else. -/
theorem versioningStatus_eq (bucket : String) (s : S3State V n) :
    ∃ cache, versioningStatus bucket s =
        (.ok (seenStatus bucket s), { s with versioningCache := cache }) ∧
      (seenStatus bucket s ≠ none → cache.lookup bucket = some (seenStatus bucket s)) := by
  unfold versioningStatus seenStatus
  rw [bind_apply, attempt_apply]
  unfold cachedVersioningConfig
  cases hc : s.versioningCache.lookup bucket with
  | some config => exact ⟨s.versioningCache, rfl, fun _ => hc⟩
  | none =>
    cases hg : getVersioningConfig bucket s.pool with
    | ok config =>
      exact ⟨s.versioningCache.insert bucket config, rfl, fun _ => AList.lookup_insert _⟩
    | error e => exact ⟨s.versioningCache, rfl, fun h => absurd rfl h⟩

/-- What the cache has is what the handlers see. -/
theorem seenStatus_of_cache {config : Option String}
    (h : s.versioningCache.lookup bucket = some config) : seenStatus bucket s = config := by
  unfold seenStatus cachedVersioningConfig
  rw [h]
  rfl

/-- What `put_object` leaves: the pool after the storage request, and a cache with the status. -/
theorem s3PutObject_snd (env : Env) (cfg : PoolConfig n) (input : PutObjectInput) (draw : Draw)
    (peerOk : Bool) (s : S3State V n) : ∃ cache, (s3PutObject env cfg input draw peerOk s).2 =
        ⟨(putObjectStream env cfg
          (putRequest input draw (decide (seenStatus input.bucket s = some "Enabled"))) peerOk
          (input.body.getD [.ok []]) s.pool).2, cache⟩ ∧ (seenStatus input.bucket s ≠ none →
        cache.lookup input.bucket = some (seenStatus input.bucket s)) := by
  obtain ⟨cache, hseen, hfill⟩ := versioningStatus_eq input.bucket s
  refine ⟨cache, ?_, hfill⟩
  unfold s3PutObject
  rw [bind_ok hseen]
  exact bind_snd (fun _ _ => rfl) _ _

/-- The pool after `delete_object`: that of the storage request it makes. -/
theorem s3DeleteObject_pool (input : DeleteObjectInput) (draw : Draw) (s : S3State V n) :
    (s3DeleteObject input draw s).2.pool = match input.versionId with
      | some vid => (deleteObjectVersion input.bucket input.key vid s.pool).2
      | none =>
        if seenStatus input.bucket s = some "Enabled" ∨ seenStatus input.bucket s = some "Suspended" then
          (addDeleteMarker input.bucket input.key draw.uuid draw.now s.pool).2
        else (deleteObject input.bucket input.key s.pool).2 := by
  obtain ⟨bucket, key, versionId⟩ := input
  unfold s3DeleteObject
  cases versionId with
  | some vid => exact congrArg S3State.pool (bind_snd (fun _ _ => rfl) _ _)
  | none =>
    obtain ⟨cache, hseen, -⟩ := versioningStatus_eq bucket s
    dsimp only
    rw [bind_ok hseen]
    split_ifs
    · exact congrArg S3State.pool (bind_snd (fun _ _ => rfl) _ _)
    · exact congrArg S3State.pool (bind_snd (fun _ _ => rfl) _ _)

end Status

end Abixio
