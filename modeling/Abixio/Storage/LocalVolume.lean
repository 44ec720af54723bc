import Abixio.Storage.Backend
import Abixio.Storage.Pathing

/-!
# The file tier of a local volume

Model of `LocalVolume` and `LocalShardWriter` (`src/storage/local_volume.rs`) without a write-ahead
log: a volume as `LocalVolume::new` returns it, and as it runs with `--write-tier=file`.

* A volume is the tree of files below its root. JSON files are kept as the value they encode; a file
  that was created and not yet written is empty, so it does not parse.
* `faults` says which of the next file system calls fail, and with which text; when it is used up,
  calls fail only if the tree does not allow them. A failing call changes nothing, but an operation
  that makes several calls stops half-way: `fs::write` is a create, which truncates, and then a
  write.
* A shard writer's open file is its path; a chunk written after the file was unlinked is lost.

`LocalVolume` is a `Backend`, and a lawful one (`instLawfulBackend`): whatever faults come up, once
`finalize` or `write_shard` returned `Ok` the reads give back what was stored.
-/

namespace Abixio

open Lib List Act FileTree

/-- What a file of a volume holds. -/
inductive FileData where
  | bytes (data : Bytes)
  | metaJson (mf : ObjectMetaFile)
  | settingsJson (settings : BucketSettings)
  | partJson (pm : PartFileMeta)
  | uploadJson (upload : UploadMeta)
  deriving DecidableEq

/-- `LocalVolume`. -/
structure LocalVolume where
  fs : FileTree FileData
  volumeId : String
  faults : List (Option String)

/-- `LocalShardWriter`. -/
structure LocalShardWriter where
  bucket : String
  key : String
  versionId : Option String
  path : Path
  deriving DecidableEq

/-- `DEFAULT_WAL_THRESHOLD`: objects up to this size are stored inline. -/
def defaultWalThreshold : Nat := 64 * 1024

/-! ## File system calls -/

/-- One file system call: it fails if the next fault says so or the tree does not allow it. -/
def fsCall (op : FileTree FileData → Option (FileTree FileData)) :
    VolAct LocalVolume Unit := fun v =>
  match v.faults with
  | some msg :: rest => (.error (.io msg), { v with faults := rest })
  | faults =>
    match op v.fs with
    | some fs => (.ok (), { v with fs := fs, faults := faults.tail })
    | none => (.error (.io "file system"), { v with faults := faults.tail })

/-- `fs::create_dir_all`. -/
def createDirAll (p : Path) : VolAct LocalVolume Unit := fsCall fun fs => fs.createDirAll p

/-- `File::create`: an existing file is truncated. -/
def createFile (p : Path) : VolAct LocalVolume Unit :=
  fsCall fun fs => fs.writeFile p (.bytes [])

/-- Append to a file. -/
def FileData.append (data : Bytes) : FileData → FileData
  | .bytes old => .bytes (old ++ data)
  | other => other

/-- `file.write_all`. -/
def writeAll (p : Path) (data : Bytes) : VolAct LocalVolume Unit :=
  fsCall fun fs => some (fs.modifyFile p (FileData.append data))

/-- `fs::write`. -/
def writeWhole (p : Path) (content : FileData) : VolAct LocalVolume Unit := do
  createFile p
  fsCall fun fs => some (fs.modifyFile p fun _ => content)

/-- `read_meta_file`. -/
def readMetaFile (fs : FileTree FileData) (p : Path) : Option ObjectMetaFile :=
  match fs.read p with
  | some (.metaJson mf) => some mf
  | _ => none

/-- `write_meta_file`. -/
def writeMetaFile (p : Path) (mf : ObjectMetaFile) : VolAct LocalVolume Unit :=
  writeWhole p (.metaJson mf)

/-- `fs::read` of a shard file. -/
def readBytes (fs : FileTree FileData) (p : Path) : Option Bytes :=
  match fs.read p with
  | some (.bytes data) => some data
  | _ => none

/-! ## Writing -/

namespace LocalVolume

/-- `open_shard_writer`, file tier. -/
def openShardWriter (bucket key : String) (versionId : Option String) :
    VolAct LocalVolume LocalShardWriter := do
  match versionId with
  | some vid =>
    let dir ← Act.ofExcept (versionDir bucket key vid)
    createDirAll dir
    let path ← Act.ofExcept (versionShardPath bucket key vid)
    createFile path
    pure ⟨bucket, key, versionId, path⟩
  | none =>
    let dir ← Act.ofExcept (objectDir bucket key)
    createDirAll dir
    let path ← Act.ofExcept (objectShardPath bucket key)
    createFile path
    pure ⟨bucket, key, versionId, path⟩

/-- `LocalShardWriter::write_chunk`. -/
def writeChunk (w : LocalShardWriter) (data : Bytes) : VolAct LocalVolume LocalShardWriter := do
  writeAll w.path data
  pure w

/-- `meta.json` with a new version in front. -/
def pushVersion (bucket key : String) (mf : Option ObjectMetaFile) (m : ObjectMeta) :
    ObjectMetaFile :=
  let mf := mf.getD ⟨bucket, key, []⟩
  { bucket := if mf.bucket.isEmpty then bucket else mf.bucket
    key := if mf.key.isEmpty then key else mf.key
    versions := m :: mf.versions.map fun v => { v with isLatest := false } }

/-- `LocalShardWriter::finalize`. -/
def finalize (w : LocalShardWriter) (m : ObjectMeta) : VolAct LocalVolume Unit := do
  -- `flush`
  fsCall some
  let metaPath ← Act.ofExcept (objectMetaPath w.bucket w.key)
  match w.versionId with
  | some vid =>
    let mf ← Act.read fun v => readMetaFile v.fs metaPath
    writeMetaFile metaPath
      (pushVersion w.bucket w.key mf { m with isLatest := true, versionId := vid })
  | none => writeMetaFile metaPath ⟨w.bucket, w.key, [{ m with isLatest := true }]⟩

/-- The two writes of `try_join!`: both are made, and the first failure is returned. -/
def writeBoth (a b : VolAct LocalVolume Unit) : VolAct LocalVolume Unit := do
  let ra ← Act.attempt a
  let rb ← Act.attempt b
  Act.ofExcept ra
  Act.ofExcept rb

/-- `write_shard`, file tier. -/
def writeShard (bucket key : String) (data : Bytes) (m : ObjectMeta) :
    VolAct LocalVolume Unit := do
  Act.ofExcept (validateBucketName bucket)
  Act.ofExcept (validateObjectKey key)
  let dir ← Act.ofExcept (objectDir bucket key)
  createDirAll dir
  let version := { m with isLatest := true }
  if m.versionId.isEmpty ∧ m.size ≤ defaultWalThreshold then
    writeMetaFile (dir ++ ["meta.json"])
      ⟨bucket, key, [{ version with inlineData := some data }]⟩
  else
    writeBoth (writeWhole (dir ++ ["shard.dat"]) (.bytes data))
      (writeMetaFile (dir ++ ["meta.json"]) ⟨bucket, key, [version]⟩)

/-- `write_versioned_shard`. -/
def writeVersionedShard (bucket key versionId : String) (data : Bytes) (m : ObjectMeta) :
    VolAct LocalVolume Unit := do
  let dir ← Act.ofExcept (versionDir bucket key versionId)
  createDirAll dir
  let path ← Act.ofExcept (versionShardPath bucket key versionId)
  writeWhole path (.bytes data)
  let metaPath ← Act.ofExcept (objectMetaPath bucket key)
  let mf ← Act.read fun v => readMetaFile v.fs metaPath
  writeMetaFile metaPath
    (pushVersion bucket key mf { m with isLatest := true, versionId := versionId })

/-- `write_meta_versions`. -/
def writeMetaVersions (bucket key : String) (versions : List ObjectMeta) :
    VolAct LocalVolume Unit := do
  let dir ← Act.ofExcept (objectDir bucket key)
  createDirAll dir
  writeMetaFile (dir ++ ["meta.json"]) ⟨bucket, key, versions⟩

/-- `delete_object`, file tier. -/
def deleteObject (bucket key : String) : VolAct LocalVolume Unit := do
  let dir ← Act.ofExcept (objectDir bucket key)
  let isDir ← Act.read fun v => v.fs.isDir dir
  if isDir then fsCall fun fs => fs.removeDirAll dir
  else Act.fail .objectNotFound

/-- `meta.json` without one version; the first entry left is the latest. -/
def dropVersion (versionId : String) (mf : ObjectMetaFile) : ObjectMetaFile :=
  { mf with versions :=
      match mf.versions.filter fun v => v.versionId ≠ versionId with
      | [] => []
      | v :: rest => { v with isLatest := true } :: rest }

/-- `delete_version_data`. -/
def deleteVersionData (bucket key versionId : String) : VolAct LocalVolume Unit := do
  let dir ← Act.ofExcept (versionDir bucket key versionId)
  let isDir ← Act.read fun v => v.fs.isDir dir
  if isDir then fsCall fun fs => fs.removeDirAll dir else pure ()
  let metaPath ← Act.ofExcept (objectMetaPath bucket key)
  match ← Act.read fun v => readMetaFile v.fs metaPath with
  | some mf =>
    let _ ← Act.attempt (writeMetaFile metaPath (dropVersion versionId mf))
    pure ()
  | none => pure ()

/-! ## Reading -/

/-- The version a read without a version id finds: the first that is not a delete marker. -/
def currentVersion (bucket key : String) (v : LocalVolume) : Except StorageError ObjectMeta := do
  let dir ← objectDir bucket key
  if v.fs.isDir dir then
    match readMetaFile v.fs (dir ++ ["meta.json"]) with
    | none => .error .objectNotFound
    | some mf =>
      match mf.versions.find? fun m => !m.isDeleteMarker with
      | none => .error .objectNotFound
      | some m => .ok m
  else .error .objectNotFound

/-- Where the shard of a version is. -/
def shardPathOf (bucket key : String) (m : ObjectMeta) : Except StorageError Path :=
  if m.versionId.isEmpty then objectShardPath bucket key
  else versionShardPath bucket key m.versionId

/-- A shard file, or `ObjectNotFound`. -/
def readShardFile (p : Path) (v : LocalVolume) : Except StorageError Bytes :=
  match readBytes v.fs p with
  | some data => .ok data
  | none => .error .objectNotFound

/-- `read_shard`, file tier. -/
def readShard (bucket key : String) (v : LocalVolume) :
    Except StorageError (Bytes × ObjectMeta) := do
  let m ← currentVersion bucket key v
  match m.inlineData with
  | some data => .ok (data, { m with inlineData := none })
  | none => do
    let data ← readShardFile (← shardPathOf bucket key m) v
    .ok (data, m)

/-- `mmap_shard`, file tier: it leaves the inline data in the metadata. -/
def mmapShard (bucket key : String) (v : LocalVolume) :
    Except StorageError (Bytes × ObjectMeta) := do
  let m ← currentVersion bucket key v
  match m.inlineData with
  | some data => .ok (data, m)
  | none => do
    let data ← readShardFile (← shardPathOf bucket key m) v
    .ok (data, m)

/-- `stat_object`, file tier. -/
def statObject (bucket key : String) (v : LocalVolume) : Except StorageError ObjectMeta := do
  let m ← currentVersion bucket key v
  .ok { m with inlineData := none }

/-- `read_versioned_shard`, file tier. -/
def readVersionedShard (bucket key versionId : String) (v : LocalVolume) :
    Except StorageError (Bytes × ObjectMeta) := do
  let metaPath ← objectMetaPath bucket key
  match readMetaFile v.fs metaPath with
  | none => .error .objectNotFound
  | some mf =>
    match mf.versions.find? fun m => m.versionId = versionId with
    | none => .error .objectNotFound
    | some m => do
      let data ← readShardFile (← versionShardPath bucket key versionId) v
      .ok (data, m)

/-- Only the first version that is not a delete marker is the latest. -/
def markLatest : Bool → List ObjectMeta → List ObjectMeta
  | _, [] => []
  | true, m :: rest => { m with isLatest := false } :: markLatest true rest
  | false, m :: rest =>
    if m.isDeleteMarker then m :: markLatest false rest
    else { m with isLatest := true } :: markLatest true rest

/-- `read_meta_versions`, file tier. -/
def readMetaVersions (bucket key : String) (v : LocalVolume) :
    Except StorageError (List ObjectMeta) := do
  let metaPath ← objectMetaPath bucket key
  match readMetaFile v.fs metaPath with
  | some mf => .ok (markLatest false mf.versions)
  | none => .ok []

/-- `walk_keys`: directories with a `meta.json` are objects, the others are searched. -/
def walkKeys (fs : FileTree FileData) (keyPrefix : String) :
    Nat → Path → List String → List String
  | 0, _, _ => []
  | fuel + 1, dir, rel =>
    (fs.children dir).flatMap fun child =>
      match child with
      | (_, .file _) => []
      | (name, .dir) =>
        if name.toList.head? = some '.' then []
        else if (fs.lookup (dir ++ [name] ++ ["meta.json"])).isSome then
          let key := "/".intercalate (rel ++ [name])
          if keyPrefix.toList.isPrefixOf key.toList then [key] else []
        else walkKeys fs keyPrefix fuel (dir ++ [name]) (rel ++ [name])

/-- `list_objects`, file tier. -/
def listObjects (bucket keyPrefix : String) (v : LocalVolume) :
    Except StorageError (List String) := do
  let dir ← bucketDir bucket
  if v.fs.isDir dir then do
    validateObjectPrefix keyPrefix
    -- no directory is nested deeper than there are entries
    .ok ((walkKeys v.fs keyPrefix v.fs.entries.length dir []).insertionSort (· ≤ ·))
  else .ok []

/-- `bucket_exists`. -/
def bucketExists (bucket : String) (v : LocalVolume) : Bool :=
  match bucketDir bucket with
  | .ok dir => v.fs.isDir dir
  | .error _ => false

/-- `delete_bucket`: only an empty directory goes. -/
def deleteBucket (bucket : String) : VolAct LocalVolume Unit := do
  let dir ← Act.ofExcept (bucketDir bucket)
  let isDir ← Act.read fun v => v.fs.isDir dir
  let busy ← Act.read fun v => !(v.fs.children dir).isEmpty
  if isDir then do
    match ← Act.attempt (fsCall fun fs => fs.removeDir dir) with
    | .ok _ => pure ()
    | .error e => Act.fail (if busy ∧ e = .io "file system" then .bucketNotEmpty else e)
  else Act.fail .bucketNotFound

/-- `read_bucket_settings`. -/
def readBucketSettings (bucket : String) (v : LocalVolume) : BucketSettings :=
  match bucketSettingsPath bucket with
  | .error _ => .empty
  | .ok p =>
    match v.fs.read p with
    | some (.settingsJson settings) => settings.parsed
    | _ => .empty

/-- The name of a part's file. -/
def partFile (number : Int) : String := "part." ++ toString number

/-- The name of the file that describes a part. -/
def partMetaFile (number : Int) : String := "part." ++ toString number ++ ".meta"

/-- What the multipart decoder reads of one part. -/
def readPart (bucket key : String) (number : Int) (v : LocalVolume) : Option (Nat × Bytes) :=
  match objectDir bucket key with
  | .error _ => none
  | .ok dir =>
    match v.fs.read (dir ++ [partMetaFile number]) with
    | some (.partJson pm) =>
      (readBytes v.fs (dir ++ [partFile number])).map fun data => (pm.erasure.index, data)
    | _ => none

end LocalVolume

instance : Backend LocalVolume LocalShardWriter where
  volumeId := LocalVolume.volumeId
  openShardWriter := LocalVolume.openShardWriter
  writeChunk := LocalVolume.writeChunk
  finalize := LocalVolume.finalize
  writeShard := LocalVolume.writeShard
  readShard := LocalVolume.readShard
  mmapShard := LocalVolume.mmapShard
  deleteObject := LocalVolume.deleteObject
  statObject := LocalVolume.statObject
  readMetaVersions := LocalVolume.readMetaVersions
  writeMetaVersions := LocalVolume.writeMetaVersions
  readVersionedShard := LocalVolume.readVersionedShard
  deleteVersionData := LocalVolume.deleteVersionData
  listObjects := LocalVolume.listObjects
  bucketExists := LocalVolume.bucketExists
  readBucketSettings := LocalVolume.readBucketSettings
  readPart := LocalVolume.readPart

/-! ## What the calls do -/

variable {op : FileTree FileData → Option (FileTree FileData)} {dir : Path} {data : Bytes}
  {content : FileData} {vid : String} {fs : FileTree FileData}

section Calls

variable {v v' : LocalVolume} {p : Path}

theorem fsCall_ok {u : Unit} (h : fsCall op v = (.ok u, v')) : op v.fs = some v'.fs := by
  unfold fsCall at h
  split at h
  · cases h
  · split at h
    · rename_i fs hop
      cases h
      exact hop
    · cases h

/-- A failing call changes no file. -/
theorem fsCall_error {e : StorageError} (h : fsCall op v = (.error e, v')) : v'.fs = v.fs := by
  unfold fsCall at h
  split at h
  · cases h
    rfl
  · split at h
    · cases h
    · cases h
      rfl

/-- **`fs::write`** replaces one file and touches nothing else. -/
theorem writeWhole_ok {u : Unit} (h : writeWhole p content v = (.ok u, v')) :
    v'.fs.read p = some content ∧ (∀ q, q ≠ p → v'.fs.read q = v.fs.read q) ∧
      ∀ q, v'.fs.isDir q = v.fs.isDir q := by
  obtain ⟨_, v₁, hcreate, hwrite⟩ := Act.bind_eq_ok.mp h
  have hc := fsCall_ok hcreate
  have hw : v₁.fs.modifyFile p (fun _ => content) = v'.fs := Option.some.inj (by exact fsCall_ok hwrite)
  rw [← hw]
  refine ⟨modifyFile_read (writeFile_read hc), ?_, ?_⟩
  · intro q hq
    rw [modifyFile_read_of_ne hq, writeFile_read_of_ne hc hq]
  · intro q
    rw [modifyFile_isDir, writeFile_isDir hc]

theorem readMetaFile_eq {mf : ObjectMetaFile}
    (h : fs.read p = some (.metaJson mf)) : readMetaFile fs p = some mf := by
  unfold readMetaFile
  rw [h]

theorem readShardFile_eq (h : v.fs.read p = some (.bytes data)) :
    LocalVolume.readShardFile p v = .ok data := by
  unfold LocalVolume.readShardFile readBytes
  rw [h]

theorem objectMetaPath_eq {bucket key : String}
    (h : objectDir bucket key = .ok dir) : objectMetaPath bucket key = .ok (dir ++ ["meta.json"]) := by
  unfold objectMetaPath
  rw [h]
  rfl

theorem objectShardPath_eq {bucket key : String}
    (h : objectDir bucket key = .ok dir) : objectShardPath bucket key = .ok (dir ++ ["shard.dat"]) := by
  unfold objectShardPath
  rw [h]
  rfl

theorem versionDir_ok {bucket key vid : String} (h : versionDir bucket key vid = .ok dir) :
    ∃ obj, objectDir bucket key = .ok obj ∧ dir = obj ++ [vid] ∧ vid ≠ "" ∧
      versionShardPath bucket key vid = .ok (obj ++ [vid, "shard.dat"]) := by
  obtain ⟨⟨⟩, hv, hobj⟩ := except_bind_eq_ok.mp h
  obtain ⟨obj, ho, ⟨⟩⟩ := except_bind_eq_ok.mp hobj
  refine ⟨obj, ho, rfl, ?_, ?_⟩
  · rintro rfl
    exact absurd hv (by decide)
  · unfold versionShardPath
    rw [h]
    simp [bind, Except.bind]

end Calls

/-! ## The volume keeps what it is given -/

namespace LocalVolume

variable {bucket key : String} {v₀ v v' : LocalVolume} {w : LocalShardWriter}
  {chunks : List Bytes} {m : ObjectMeta}

/-- An open writer's file holds the chunks written so far. -/
structure WriterHolds (bucket key : String) (vid : Option String) (dir path : Path)
    (chunks : List Bytes) (w : LocalShardWriter) (v : LocalVolume) : Prop where
  writer : w = ⟨bucket, key, vid, path⟩
  isDir : v.fs.isDir dir = true
  file : v.fs.read path = some (.bytes chunks.flatten)

/-- One chunk. -/
theorem WriterHolds.chunk {vid : Option String} {dir path : Path} {w' : LocalShardWriter}
    (h : WriterHolds bucket key vid dir path chunks w v) (hc : writeChunk w data v = (.ok w', v')) :
    WriterHolds bucket key vid dir path (chunks ++ [data]) w' v' := by
  obtain ⟨_, v₁, hwrite, hpure⟩ := Act.bind_eq_ok.mp hc
  cases hpure
  have hfs : v.fs.modifyFile w.path (FileData.append data) = v'.fs :=
    Option.some.inj (by exact fsCall_ok hwrite)
  obtain ⟨rfl, hdir, hfile⟩ := h
  refine ⟨rfl, ?_, ?_⟩
  · rw [← hfs, modifyFile_isDir]
    exact hdir
  · rw [← hfs, modifyFile_read hfile]
    simp [FileData.append]

variable {vid : Option String} {obj path : Path}

/-- A created file is empty. -/
theorem WriterHolds.opened (hmk : createDirAll dir v₀ = (.ok (), v)) (hobj : obj <+: dir)
    (h : (createFile path >>= fun _ => pure ⟨bucket, key, vid, path⟩ : VolAct LocalVolume LocalShardWriter) v =
      (.ok w, v')) : WriterHolds bucket key vid obj path [] w v' := by
  obtain ⟨_, v₁, hcreate, hpure⟩ := Act.bind_eq_ok.mp h
  cases hpure
  have hc := fsCall_ok hcreate
  refine ⟨rfl, ?_, writeFile_read hc⟩
  rw [writeFile_isDir hc]
  exact createDirAll_isDir (fsCall_ok hmk) hobj

/-- The file of a writer, and what was written to it. -/
theorem writing_ok (h : Writing bucket key vid v₀ chunks w v) : ∃ obj, objectDir bucket key = .ok obj ∧
    (∀ id ∈ vid, id ≠ "" ∧ versionShardPath bucket key id = .ok (obj ++ [id, "shard.dat"])) ∧
      WriterHolds bucket key vid obj (obj ++ (vid.toList ++ ["shard.dat"])) chunks w v := by
  induction h with
  | opened h =>
    cases vid with
    | none =>
      obtain ⟨dir, hdir, h1⟩ := ofExcept_bind_eq_ok.mp h
      obtain ⟨_, v₂, hmk, h2⟩ := Act.bind_eq_ok.mp h1
      obtain ⟨path, hpath, h3⟩ := ofExcept_bind_eq_ok.mp h2
      rw [objectShardPath_eq hdir] at hpath
      cases hpath
      exact ⟨dir, hdir, nofun, .opened hmk (prefix_refl _) h3⟩
    | some vid =>
      obtain ⟨dir, hdir, h1⟩ := ofExcept_bind_eq_ok.mp h
      obtain ⟨_, v₂, hmk, h2⟩ := Act.bind_eq_ok.mp h1
      obtain ⟨path, hpath, h3⟩ := ofExcept_bind_eq_ok.mp h2
      obtain ⟨obj, hobj, rfl, hvid, hshard⟩ := versionDir_ok hdir
      rw [hshard] at hpath
      cases hpath
      refine ⟨obj, hobj, ?_, .opened hmk (prefix_append _ _) h3⟩
      rintro id ⟨⟩
      exact ⟨hvid, hshard⟩
  | chunk _ h ih =>
    obtain ⟨obj, hobj, hvid, hw⟩ := ih
    exact ⟨obj, hobj, hvid, hw.chunk h⟩

/-- What a read without a version id returns, in terms of the files. -/
theorem currentVersion_eq {mf : ObjectMetaFile} (hdir : objectDir bucket key = .ok dir)
    (hisDir : v.fs.isDir dir = true)
    (hmeta : v.fs.read (dir ++ ["meta.json"]) = some (.metaJson mf))
    (hfind : mf.versions.find? (fun m => !m.isDeleteMarker) = some m) :
    currentVersion bucket key v = .ok m := by
  unfold currentVersion
  rw [hdir]
  simp only [bind, Except.bind, hisDir, if_true, readMetaFile_eq hmeta, hfind]

theorem find?_front (hm : m.isDeleteMarker = false) (rest : List ObjectMeta) :
    (m :: rest).find? (fun m => !m.isDeleteMarker) = some m :=
  find?_cons_of_pos (by simpa using hm)

theorem shardPathOf_empty (hdir : objectDir bucket key = .ok dir)
    (hvid : m.versionId = "") : shardPathOf bucket key m = .ok (dir ++ ["shard.dat"]) := by
  unfold shardPathOf
  rw [hvid, if_pos (by rfl)]
  exact objectShardPath_eq hdir

/-- A version whose shard is in a file of its own. -/
theorem readShard_of_file {p : Path}
    (hcur : currentVersion bucket key v = .ok m) (hinline : m.inlineData = none)
    (hpath : shardPathOf bucket key m = .ok p) (hfile : v.fs.read p = some (.bytes data)) :
    Returns bucket key data m v := by
  have hnone : { m with inlineData := none } = m := by rw [← hinline]
  change readShard bucket key v = _ ∧ mmapShard bucket key v = _ ∧ statObject bucket key v = _
  unfold readShard mmapShard statObject
  simp only [hcur, bind, Except.bind, hinline, hpath, readShardFile_eq hfile, hnone, and_self]

theorem meta_ne_shard (dir : Path) : dir ++ ["shard.dat"] ≠ dir ++ ["meta.json"] := by
  intro h
  exact absurd (append_cancel_left h) (by decide)

theorem finalize_none_ok (hw : Writing bucket key none v₀ chunks w v) (hm : m.Plain)
    (hvid : m.versionId = "") (h : finalize w m v = (.ok (), v')) :
    Returns bucket key chunks.flatten m v' := by
  obtain ⟨dir, hdir, -, rfl, hisDir, hfile⟩ := writing_ok hw
  obtain ⟨_, v₁, hflush, h1⟩ := Act.bind_eq_ok.mp h
  have hfs := Option.some.inj (fsCall_ok hflush)
  obtain ⟨path, hpath, h2⟩ := ofExcept_bind_eq_ok.mp h1
  rw [objectMetaPath_eq hdir] at hpath
  cases hpath
  obtain ⟨hmeta, hother, hdirs⟩ := writeWhole_ok h2
  have hlatest : { m with isLatest := true } = m := by rw [← hm.latest]
  rw [hlatest] at hmeta
  have hcur : currentVersion bucket key v' = .ok m :=
    currentVersion_eq hdir (by rw [hdirs, ← hfs]; exact hisDir) hmeta (find?_front hm.notMarker [])
  refine readShard_of_file hcur hm.inlineNone (shardPathOf_empty hdir hvid) ?_
  rw [hother _ (meta_ne_shard dir), ← hfs]
  exact hfile

theorem finalize_some_ok {vid : String} (hw : Writing bucket key (some vid) v₀ chunks w v)
    (hm : m.Plain) (hvid : m.versionId = vid) (h : finalize w m v = (.ok (), v')) :
    Returns bucket key chunks.flatten m v' ∧
      readVersionedShard bucket key vid v' = .ok (chunks.flatten, m) := by
  obtain ⟨obj, hobj, hversion, rfl, hisDir, hfile⟩ := writing_ok hw
  obtain ⟨hvne, hshard⟩ := hversion vid rfl
  obtain ⟨_, v₁, hflush, h1⟩ := Act.bind_eq_ok.mp h
  have hfs := Option.some.inj (fsCall_ok hflush)
  obtain ⟨path, hpath, h2⟩ := ofExcept_bind_eq_ok.mp h1
  rw [objectMetaPath_eq hobj] at hpath
  cases hpath
  obtain ⟨mf, v₃, hread, h3⟩ := Act.bind_eq_ok.mp h2
  cases hread
  obtain ⟨hmeta, hother, hdirs⟩ := writeWhole_ok h3
  have hself : { m with isLatest := true, versionId := vid } = m := by
    rw [← hm.latest, ← hvid]
  have hne : obj ++ [vid, "shard.dat"] ≠ obj ++ ["meta.json"] := by
    intro he
    exact absurd (congrArg List.length (append_cancel_left he)) (by simp)
  have hdata : v'.fs.read (obj ++ [vid, "shard.dat"]) = some (.bytes chunks.flatten) := by
    rw [hother _ hne, ← hfs]
    exact hfile
  rw [hself] at hmeta
  constructor
  · have hcur : currentVersion bucket key v' = .ok m :=
      currentVersion_eq hobj (by rw [hdirs, ← hfs]; exact hisDir) hmeta
        (find?_front hm.notMarker _)
    refine readShard_of_file hcur hm.inlineNone ?_ hdata
    unfold shardPathOf
    rw [hvid, if_neg (by simpa using hvne)]
    exact hshard
  · unfold readVersionedShard
    rw [objectMetaPath_eq hobj]
    simp only [bind, Except.bind, readMetaFile_eq hmeta, pushVersion, hshard,
      readShardFile_eq hdata]
    rw [find?_cons_of_pos (by simpa using hvid)]

/-- Both writes succeeded, one after the other. -/
theorem writeBoth_ok {a b : VolAct LocalVolume Unit} (h : writeBoth a b v = (.ok (), v')) :
    ∃ v₁, a v = (.ok (), v₁) ∧ b v₁ = (.ok (), v') := by
  obtain ⟨ra, v₁, ha, h₁⟩ := Act.bind_eq_ok.mp h
  obtain ⟨rb, v₂, hb, h₂⟩ := Act.bind_eq_ok.mp h₁
  obtain ⟨_, hra, hrb⟩ := ofExcept_bind_eq_ok.mp h₂
  cases hra
  cases hrb
  rw [attempt_apply, Prod.mk.injEq, Except.ok.injEq] at ha hb
  exact ⟨v₁, Prod.ext ha.1 ha.2, Prod.ext hb.1 hb.2⟩

/-- A shard file and a `meta.json` with one entry are what reads return. -/
theorem writeFiles_ok (hdir : objectDir bucket key = .ok dir) (hisDir : v.fs.isDir dir = true)
    (hm : m.Plain) (hvid : m.versionId = "")
    (h : writeBoth (writeWhole (dir ++ ["shard.dat"]) (.bytes data))
      (writeMetaFile (dir ++ ["meta.json"]) ⟨bucket, key, [m]⟩) v = (.ok (), v')) :
    Returns bucket key data m v' := by
  obtain ⟨v₁, ha, hb⟩ := writeBoth_ok h
  obtain ⟨hshard, -, hdirs⟩ := writeWhole_ok ha
  obtain ⟨hmeta, hother, hdirs'⟩ := writeWhole_ok hb
  have hcur : currentVersion bucket key v' = .ok m :=
    currentVersion_eq hdir (by rw [hdirs', hdirs]; exact hisDir) hmeta (find?_front hm.notMarker [])
  refine readShard_of_file hcur hm.inlineNone (shardPathOf_empty hdir hvid) ?_
  rw [hother _ (meta_ne_shard dir)]
  exact hshard

theorem writeShard_ok (hm : m.Plain) (hvid : m.versionId = "")
    (h : writeShard bucket key data m v = (.ok (), v')) :
    readShard bucket key v' = .ok (data, m) ∧ statObject bucket key v' = .ok m ∧
      ∃ m', mmapShard bucket key v' = .ok (data, m') ∧ { m' with inlineData := none } = m := by
  obtain ⟨_, -, h1⟩ := ofExcept_bind_eq_ok.mp h
  obtain ⟨_, -, h2⟩ := ofExcept_bind_eq_ok.mp h1
  obtain ⟨dir, hdir, h3⟩ := ofExcept_bind_eq_ok.mp h2
  obtain ⟨_, v₄, hmk, h4⟩ := Act.bind_eq_ok.mp h3
  have hisDir := createDirAll_isDir (fsCall_ok hmk) (prefix_refl _)
  have hlatest : { m with isLatest := true } = m := by rw [← hm.latest]
  have hnone : { m with inlineData := none } = m := by rw [← hm.inlineNone]
  simp only [hlatest] at h4
  split at h4
  · obtain ⟨hmeta, -, hdirs⟩ := writeWhole_ok h4
    have hinline : { m with isLatest := true, inlineData := some data } =
        { m with inlineData := some data } := by rw [← hm.latest]
    rw [hinline] at hmeta
    have hcur : currentVersion bucket key v' = .ok { m with inlineData := some data } :=
      currentVersion_eq hdir (by rw [hdirs]; exact hisDir) hmeta
        (find?_front (m := { m with inlineData := some data }) hm.notMarker [])
    unfold readShard mmapShard statObject
    simp only [hcur, bind, Except.bind]
    exact ⟨by rw [hnone], by rw [hnone], _, rfl, hnone⟩
  · obtain ⟨hread, hmmap, hstat⟩ := writeFiles_ok hdir hisDir hm hvid h4
    exact ⟨hread, hstat, m, hmmap, hnone⟩

/-- A call on a volume without faults succeeds if the tree allows it. -/
theorem fsCall_healthy (hf : v.faults = []) (hop : op v.fs = some fs) :
    fsCall op v = (.ok (), { v with fs := fs }) := by
  unfold fsCall
  simp only [hf, hop, tail_nil]

theorem writeWhole_healthy {name : String} (hf : v.faults = []) (hdir : v.fs.isDir dir = true)
    (hno : v.fs.isDir (dir ++ [name]) = false) :
    ∃ v', writeWhole (dir ++ [name]) content v = (.ok (), v') ∧ v'.faults = [] := by
  obtain ⟨fs, hfs⟩ := writeFile_isSome (a := FileData.bytes []) hdir hno
  refine ⟨{ v with fs := fs.modifyFile (dir ++ [name]) fun _ => content }, ?_, hf⟩
  unfold writeWhole createFile
  rw [bind_ok (fsCall_healthy hf hfs)]
  exact fsCall_healthy hf rfl

/-- **A volume where nothing is in the way of an object**: there is no fault, no file where the
object has a directory, and no directory where it has a file. -/
structure Ready (bucket key : String) (v : LocalVolume) : Prop where
  calm : v.faults = []
  clear : ∀ q, q <+: bucket :: keySegments key → v.fs.read q = none
  shardFree : v.fs.isDir (bucket :: keySegments key ++ ["shard.dat"]) = false
  metaFree : v.fs.isDir (bucket :: keySegments key ++ ["meta.json"]) = false

theorem ready_empty (bucket key id : String) : Ready bucket key ⟨FileTree.empty, id, []⟩ := by
  refine ⟨rfl, fun q _ => ?_, rfl, rfl⟩
  cases q <;> rfl

/-- A path longer than another one is not on the way to it. -/
theorem not_prefix_concat (dir : Path) (name : String) : ¬ dir ++ [name] <+: dir := by
  intro hp
  have hlen := hp.length_le
  rw [length_append, length_singleton] at hlen
  omega

/-- The directory of the object can be created, and its files are still free. -/
theorem Ready.createDirAll (hv : Ready bucket key v) :
    ∃ fs, Abixio.createDirAll (bucket :: keySegments key) v = (.ok (), { v with fs := fs }) ∧
      Ready bucket key { v with fs := fs } ∧ fs.isDir (bucket :: keySegments key) = true ∧
      fs.isDir [bucket] = true := by
  obtain ⟨fs, hfs⟩ : ∃ fs, v.fs.createDirAll (bucket :: keySegments key) = some fs :=
    createDirs_isSome hv.clear
  have hfree : ∀ name, v.fs.isDir (bucket :: keySegments key ++ [name]) = false →
      fs.isDir (bucket :: keySegments key ++ [name]) = false := by
    intro name hname
    rw [FileTree.createDirAll_isDir_of_not_prefix hfs (not_prefix_concat _ name)]
    exact hname
  refine ⟨fs, fsCall_healthy hv.calm hfs, ⟨hv.calm, fun q hq => ?_, hfree _ hv.shardFree,
    hfree _ hv.metaFree⟩, createDirAll_isDir hfs (prefix_refl _),
    createDirAll_isDir hfs (cons_prefix_cons.mpr ⟨rfl, nil_prefix⟩)⟩
  exact (createDirAll_read hfs q).trans (hv.clear q hq)

/-- A file of the object can be written. -/
theorem Ready.writeWhole {name : String} (hv : Ready bucket key v)
    (hdir : v.fs.isDir (bucket :: keySegments key) = true)
    (hfree : v.fs.isDir (bucket :: keySegments key ++ [name]) = false) :
    ∃ v', Abixio.writeWhole (bucket :: keySegments key ++ [name]) content v = (.ok (), v') ∧
      Ready bucket key v' ∧ ∀ q, v'.fs.isDir q = v.fs.isDir q := by
  obtain ⟨v', hw, hcalm⟩ : ∃ v', Abixio.writeWhole (bucket :: keySegments key ++ [name]) content v =
      (.ok (), v') ∧ v'.faults = [] := writeWhole_healthy hv.calm hdir hfree
  obtain ⟨-, hread, hdirs⟩ := writeWhole_ok hw
  refine ⟨v', hw, ⟨hcalm, fun q hq => ?_, (hdirs _).trans hv.shardFree,
    (hdirs _).trans hv.metaFree⟩, hdirs⟩
  refine (hread q ?_).trans (hv.clear q hq)
  rintro rfl
  exact not_prefix_concat _ name hq

/-- Both files of the object can be written. -/
theorem Ready.writeFiles (hv : Ready bucket key v)
    (hdir : v.fs.isDir (bucket :: keySegments key) = true) (data : Bytes) (mf : ObjectMetaFile) :
    ∃ v', writeBoth (Abixio.writeWhole (bucket :: keySegments key ++ ["shard.dat"]) (.bytes data))
        (writeMetaFile (bucket :: keySegments key ++ ["meta.json"]) mf) v = (.ok (), v') ∧
      Ready bucket key v' ∧ ∀ q, v'.fs.isDir q = v.fs.isDir q := by
  obtain ⟨v₁, hw₁, hready₁, hdirs₁⟩ := hv.writeWhole hdir hv.shardFree
  obtain ⟨v', hw, hready', hdirs⟩ := hready₁.writeWhole ((hdirs₁ _).trans hdir) hready₁.metaFree
  refine ⟨v', ?_, hready', fun q => (hdirs q).trans (hdirs₁ q)⟩
  unfold writeBoth
  simp only [bind_apply, attempt_apply]
  unfold writeMetaFile
  rw [hw₁]
  rw [hw]
  rfl

section

variable (hb : ValidBucket bucket)
include hb

/-- **A ready volume stores any shard**, and stays ready. -/
theorem Ready.writeShard (hk : ValidKey key) (hv : Ready bucket key v) (data : Bytes)
    (m : ObjectMeta) :
    ∃ v', LocalVolume.writeShard bucket key data m v = (.ok (), v') ∧ Ready bucket key v' ∧
      v'.fs.isDir [bucket] = true := by
  obtain ⟨fs, hmk, hready, hdir, hbucket⟩ := hv.createDirAll
  unfold LocalVolume.writeShard
  rw [hb, hk, objectDir_ok hb hk]
  simp only [bind_apply, ofExcept_apply, hmk]
  split
  · obtain ⟨v', hw, hready', hdirs⟩ := hready.writeWhole hdir hready.metaFree
    exact ⟨v', hw, hready', (hdirs _).trans hbucket⟩
  · obtain ⟨v', hw, hready', hdirs⟩ := hready.writeFiles hdir data _
    exact ⟨v', hw, hready', (hdirs _).trans hbucket⟩

theorem bucketExists_of_isDir (h : v.fs.isDir [bucket] = true) : bucketExists bucket v = true := by
  unfold bucketExists
  rw [bucketDir_ok hb]
  exact h

/-- **An empty volume stores any shard.** -/
theorem writeShard_empty (hk : ValidKey key) (id : String) (data : Bytes) (m : ObjectMeta) :
    ∃ v', writeShard bucket key data m ⟨FileTree.empty, id, []⟩ = (.ok (), v') ∧
      bucketExists bucket v' = true := by
  obtain ⟨v', hw, -, hbucket⟩ := (ready_empty bucket key id).writeShard hb hk data m
  exact ⟨v', hw, bucketExists_of_isDir hb hbucket⟩

end

end LocalVolume

/-- **A local volume returns what was stored on it**, whatever calls failed before. -/
instance instLawfulBackend : LawfulBackend LocalVolume where
  read_finalized := by
    intro bucket key vid v₀ v v' chunks w m hw hm hvid h
    cases vid with
    | none => exact LocalVolume.finalize_none_ok hw hm hvid h
    | some vid => exact (LocalVolume.finalize_some_ok hw hm hvid h).1
  read_finalized_version := fun hw hm hvid h => (LocalVolume.finalize_some_ok hw hm hvid h).2
  read_written := LocalVolume.writeShard_ok

end Abixio
