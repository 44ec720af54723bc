import Abixio.Storage.LocalVolume

/-!
# Completing a multipart upload

Model of `complete_upload` and of what it reads (`src/multipart/mod.rs`). The module works on the
files below the roots of local disks, past the `Backend` interface: an upload's parts are staged
below `.abixio.sys/multipart`, and completing it moves them into the object's directory and replaces
`meta.json`.

* The clock is an argument.
* `read_dir` yields the entries in the order of the tree.
* A failed `rename` falls back to a copy; what the copy returns is ignored.
-/

namespace Abixio

open Lib
open Act (attempt each fail ofExcept)

/-- `multipart::PartMeta`. -/
structure PartMeta where
  partNumber : Int
  size : Nat
  etag : String
  deriving DecidableEq, Repr

section Upload

variable {n : Nat} (bucket key uploadId : String)

/-- `read_upload`: the first disk with a readable `upload.json`. -/
def readUpload (disks : Disks LocalVolume n) : Except StorageError UploadMeta := do
  let dir ← multipartUploadDir bucket key uploadId
  let found := (List.finRange n).findSome? fun d =>
    match (disks d).fs.read (dir ++ ["upload.json"]) with
    | some (.uploadJson upload) => some upload
    | _ => none
  match found with
  | some upload => .ok upload
  | none => .error .objectNotFound

/-- `name.starts_with("part.") && name.ends_with(".meta")`. -/
def isPartMetaName (name : String) : Bool :=
  "part.".toList.isPrefixOf name.toList && ".meta".toList.isSuffixOf name.toList

/-- The parts whose metadata is in a staging directory; a part number counts once. -/
def stagedParts (fs : FileTree FileData) (dir : Path) : List PartMeta :=
  (fs.children dir).foldl
    (fun parts child =>
      match child with
      | (name, .file (.partJson pm)) =>
        if isPartMetaName name ∧ ¬ parts.any fun p => p.partNumber = pm.partNumber then
          parts ++ [⟨pm.partNumber, pm.size, pm.etag⟩]
        else parts
      | _ => parts)
    []

/-- `list_parts`: from the first disk that has the staging directory. -/
def listParts (disks : Disks LocalVolume n) :
    Except StorageError (UploadMeta × List PartMeta) := do
  let upload ← readUpload bucket key uploadId disks
  let dir ← multipartUploadDir bucket key uploadId
  let staging := dir ++ [upload.dataDir]
  let parts := match (List.finRange n).find? fun d => (disks d).fs.isDir staging with
    | some d => stagedParts (disks d).fs staging
    | none => []
  .ok (upload, parts.insertionSort fun a b => a.partNumber ≤ b.partNumber)

/-- Move a staged file into the object's directory, if it is there. -/
def moveStaged (src dst : Path) : VolAct LocalVolume Unit := do
  if ← Act.read fun v => (v.fs.lookup src).isSome then
    match ← attempt (fsCall fun fs => fs.renameFile src dst) with
    | .ok _ => pure ()
    | .error _ =>
      match ← Act.read fun v => v.fs.read src with
      | some data =>
        let _ ← attempt (writeWhole dst data)
        let _ ← attempt (fsCall fun fs => fs.removeFile src)
        pure ()
      | none => pure ()
  else pure ()

/-- The shard and the metadata of one part, on one disk. -/
def movePart (staging obj : Path) (number : Int) : VolAct LocalVolume Unit := do
  let _ ← attempt (createDirAll obj)
  moveStaged (staging ++ [LocalVolume.partFile number]) (obj ++ [LocalVolume.partFile number])
  moveStaged (staging ++ [LocalVolume.partMetaFile number])
    (obj ++ [LocalVolume.partMetaFile number])

/-- One part on all disks, with the entry it gets in the object's metadata. -/
def completePart (staging obj : Path) (number : Int) : PoolAct LocalVolume n PartEntry := do
  let found ← Act.read fun disks : Disks LocalVolume n => (List.finRange n).findSome? fun d =>
    match (disks d).fs.read (staging ++ [LocalVolume.partMetaFile number]) with
    | some (.partJson pm) => some pm
    | _ => none
  match found with
  | none => fail .objectNotFound
  | some pm => do
    let _ ← each (fun d => Act.at d (movePart staging obj number)) (List.finRange n)
    pure ⟨number, pm.size, pm.etag, pm.erasure, pm.checksum⟩

/-- `trim_matches('"')`. -/
def trimQuotes (s : String) : List Char :=
  ((s.toList.dropWhile fun c => c.toNat = 34).reverse.dropWhile fun c => c.toNat = 34).reverse

/-- The ETag of a completed upload. -/
def multipartEtag (env : Env) (requested : List (Int × String)) : String :=
  env.md5Hex (utf8 (String.ofList (requested.flatMap fun r => trimQuotes r.2))) ++ "-" ++
    toString requested.length

/-- The metadata of a completed upload, before the shard index of a disk is filled in. -/
def multipartMeta (env : Env) (upload : UploadMeta) (requested : List (Int × String))
    (parts : List PartEntry) (now : Nat) : ObjectMeta where
  size := (parts.map PartEntry.size).sum
  etag := multipartEtag env requested
  contentType := upload.contentType
  createdAt := now
  erasure := (parts.head?.map PartEntry.erasure).getD ⟨0, 0, 0, []⟩
  checksum := ""
  userMetadata := upload.userMetadata
  tags := []
  versionId := ""
  isLatest := true
  isDeleteMarker := false
  parts := parts
  inlineData := none

/-- Replace `meta.json` on one disk by the completed upload. -/
def writeCompleted (obj : Path) (m : ObjectMeta) (d : Fin n) : VolAct LocalVolume Unit := do
  let _ ← attempt (createDirAll obj)
  writeMetaFile (obj ++ ["meta.json"])
    ⟨bucket, key, [{ m with erasure := { m.erasure with index := d } }]⟩

/-- `complete_upload`. The requested ETags are not compared with those of the parts. -/
def completeUpload (env : Env) (requested : List (Int × String)) (now : Nat) :
    PoolAct LocalVolume n ObjectInfo := do
  ofExcept (validateBucketName bucket)
  ofExcept (validateObjectKey key)
  ofExcept (validateUploadId uploadId)
  let (upload, available) ← Act.query (listParts bucket key uploadId)
  if requested.all fun r => available.any fun p => p.partNumber = r.1 then
    let dir ← ofExcept (multipartUploadDir bucket key uploadId)
    let obj ← ofExcept (objectDir bucket key)
    let parts ← each (fun r => completePart (dir ++ [upload.dataDir]) obj r.1) requested
    let m := multipartMeta env upload requested parts now
    let results ← each
      (fun d => Act.at d (attempt (writeCompleted bucket key obj m d))) (List.finRange n)
    if (results.filter Except.isOk).length = 0 then fail .writeQuorum
    else do
      let _ ← each
        (fun d => Act.at d (attempt (fsCall fun fs => fs.removeDirAll dir)))
        (List.finRange n)
      pure (m.toInfo bucket key)
  else fail .objectNotFound

end Upload

end Abixio
