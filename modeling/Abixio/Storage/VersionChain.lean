import Abixio.Storage.WriterMoves

/-!
# The versions of a key on a disk

What `meta.json` holds of a key on one disk is a list of versions, newest first
(`src/storage/local_volume.rs`). `read_versioned_shard` and `read_meta_versions` read it, and the
`finalize` of a version and a delete marker (`write_meta_versions`) put a version in front and clear the
latest flag of the others.
-/

namespace Abixio

open Lib List LocalVolume

variable {bucket key : String} {vid : Option String}

/-- A version without its latest flag. -/
def ObjectMeta.forgetLatest (m : ObjectMeta) : ObjectMeta := { m with isLatest := false }

open ObjectMeta (forgetLatest)

/-- The versions in `meta.json`, as they are stored. -/
def storedVersions (bucket key : String) (v : LocalVolume) : List ObjectMeta :=
  match readMetaFile v.fs (objectPath bucket key ++ ["meta.json"]) with
  | some mf => mf.versions
  | none => []

/-- Where the shard of a version is. -/
def versionFile (bucket key id : String) : Path :=
  objectPath bucket key ++ [id] ++ ["shard.dat"]

/-! ## Calls on a healthy disk -/

section Calls

variable {v : LocalVolume}

/-- Without faults a call fails only if the tree does not allow it. -/
theorem fsCall_calm {op : FileTree FileData → Option (FileTree FileData)} (hf : v.faults = []) :
    fsCall op v = match op v.fs with
      | some fs => (.ok (), { v with fs := fs })
      | none => (.error (.io "file system"), v) := by
  rcases v with ⟨fs, id, faults⟩
  subst hf
  unfold fsCall
  cases op fs <;> rfl

variable (ha : Accepted bucket key vid)

include ha in
/-- `finalize` of a version on a healthy disk is one write of `meta.json`. -/
theorem finalize_healthy {id : String} {path : Path} (hf : v.faults = []) (m : ObjectMeta) :
    finalize ⟨bucket, key, some id, path⟩ m v =
      writeMetaFile (metaFile bucket key) (pushVersion bucket key
          (readMetaFile v.fs (metaFile bucket key))
          { m with isLatest := true, versionId := id }) v := by
  have hflush : fsCall some v = (.ok (), v) := fsCall_calm hf
  unfold finalize
  rw [Act.bind_ok hflush, ha.objectMetaPath, Act.ok_bind]
  rfl

/-! ## The list -/

/-- The metadata of a disk's current version, without its latest flag. -/
def currentMeta (bucket key : String) (v : LocalVolume) : Option ObjectMeta :=
  (LocalVolume.currentVersion bucket key v).toOption.map forgetLatest

theorem markLatest_forget : ∀ (seen : Bool) (l : List ObjectMeta),
    (markLatest seen l).map forgetLatest = l.map forgetLatest
  | _, [] => by simp [markLatest]
  | true, m :: l => by
    simp [markLatest, markLatest_forget true l, forgetLatest]
  | false, m :: l => by
    unfold markLatest
    split_ifs
    · simp [markLatest_forget false l]
    · simp [markLatest_forget true l, forgetLatest]

include ha in
/-- A version is read from its entry in `meta.json` and its own file. -/
theorem readVersionedShard_eq (id : String) (v : LocalVolume) : readVersionedShard bucket key id v =
      match (storedVersions bucket key v).find? fun m => m.versionId = id with
      | none => .error .objectNotFound
      | some m => (versionShardPath bucket key id).bind fun q =>
        (readShardFile q v).bind fun data => .ok (data, m) := by
  unfold readVersionedShard storedVersions
  rw [ha.objectMetaPath]
  simp only [bind, Except.bind]
  cases readMetaFile v.fs (metaFile bucket key) <;> rfl

/-- What a delete marker is put in front of. -/
def clearedVersions (bucket key : String) (v : LocalVolume) : List ObjectMeta :=
  ((LocalVolume.readMetaVersions bucket key v).toOption.getD []).map fun m =>
    { m with isLatest := false }

section

variable (ha : Accepted bucket key vid)
include ha

theorem readMetaVersions_eq (v : LocalVolume) : readMetaVersions bucket key v =
      .ok (markLatest false (storedVersions bucket key v)) := by
  unfold readMetaVersions storedVersions
  rw [ha.objectMetaPath]
  simp only [bind, Except.bind]
  cases readMetaFile v.fs (metaFile bucket key) with
  | none => rfl
  | some mf => rfl

theorem clearedVersions_eq (v : LocalVolume) : clearedVersions bucket key v =
      (storedVersions bucket key v).map forgetLatest := by
  unfold clearedVersions
  rw [readMetaVersions_eq ha]
  exact markLatest_forget false _

theorem pushMarker_eq (marker : ObjectMeta) (v : LocalVolume) : pushMarker bucket key marker v = (do
      createDirAll (objectPath bucket key)
      writeMetaFile (metaFile bucket key)
        ⟨bucket, key, marker :: clearedVersions bucket key v⟩) v := by
  have h : pushMarker bucket key marker v =
      writeMetaVersions bucket key (marker :: clearedVersions bucket key v) v := rfl
  rw [h]
  unfold writeMetaVersions
  rw [ha.objectDir, Act.ok_bind]

/-- The current version is the first stored one that is not a marker. -/
theorem currentMeta_of_isDir (hdir : v.fs.isDir (objectPath bucket key) = true) :
    currentMeta bucket key v = ((storedVersions bucket key v).map forgetLatest).find? fun m =>
        !m.isDeleteMarker := by
  unfold currentMeta currentVersion storedVersions
  rw [ha.objectDir, find?_map,
    show (fun m => !m.isDeleteMarker) ∘ forgetLatest = fun m => !m.isDeleteMarker from rfl]
  simp only [bind, Except.bind, hdir, if_true]
  cases readMetaFile v.fs (metaFile bucket key) with
  | none => rfl
  | some mf =>
    simp only
    cases mf.versions.find? fun m => !m.isDeleteMarker with
    | none => rfl
    | some m => rfl

end

end Calls

/-- A read without the latest flag. -/
def ShardRead.forgetLatest (read : ShardRead) : ShardRead :=
  read.map fun r => (r.1, r.2.forgetLatest)

end Abixio
