import Abixio.Storage.Listing
import Abixio.Storage.Reads

/-!
# The files of an object

Where a volume has the files of an object (`src/storage/local_volume.rs`, `src/storage/pathing.rs`): its
directory, `meta.json` with its versions, and the shard file of a PUT, which an open writer
(`open_shard_writer`) has in its final place. The names of a request are `Accepted`.
-/

namespace Abixio

open Lib List LocalVolume FileTree

variable {bucket key : String} {vid : Option String}

/-- The names of a request were accepted. -/
structure Accepted (bucket key : String) (vid : Option String) : Prop where
  bucket_ok : validateBucketName bucket = .ok ()
  key_ok : validateObjectKey key = .ok ()
  version_ok : ∀ id, vid = some id → validateVersionId id = .ok ()

/-- Where the files of an object are. -/
def objectPath (bucket key : String) : Path := bucket :: keySegments key

/-- The file of an object's versions. -/
abbrev metaFile (bucket key : String) : Path := objectPath bucket key ++ ["meta.json"]

/-- The shard file a PUT writes. -/
def shardFile (bucket key : String) : Option String → Path
  | none => objectPath bucket key ++ ["shard.dat"]
  | some vid => objectPath bucket key ++ [vid] ++ ["shard.dat"]

variable {q : Path} {m : ObjectMeta}

/-! ## The writer -/

section Writer

variable (ha : Accepted bucket key vid)
include ha

theorem Accepted.objectDir : objectDir bucket key = .ok (objectPath bucket key) :=
  objectDir_ok ha.bucket_ok ha.key_ok

/-- `open_shard_writer` for accepted names. -/
theorem openShardWriter_eq : openShardWriter bucket key vid = (do
    createDirAll (shardFile bucket key vid).dropLast
    createFile (shardFile bucket key vid)
    pure ⟨bucket, key, vid, shardFile bucket key vid⟩) := by
  cases vid with
  | none =>
    simp only [openShardWriter, ha.objectDir, objectShardPath_eq ha.objectDir,
      Act.ok_bind, shardFile, dropLast_concat]
  | some id =>
    have hdir : versionDir bucket key id = .ok (objectPath bucket key ++ [id]) := by
      unfold versionDir
      rw [ha.version_ok id rfl, ha.objectDir]
      rfl
    have hpath : versionShardPath bucket key id = .ok (objectPath bucket key ++ [id] ++ ["shard.dat"]) := by
      unfold versionShardPath
      rw [hdir]
      rfl
    simp only [openShardWriter, hdir, hpath, Act.ok_bind, shardFile, dropLast_concat]

end Writer

/-! ## Reading -/

section Read

variable {v v' : LocalVolume}

theorem Accepted.objectMetaPath (ha : Accepted bucket key vid) :
    objectMetaPath bucket key = .ok (metaFile bucket key) :=
  objectMetaPath_eq ha.objectDir

theorem Accepted.versionShardPath (ha : Accepted bucket key vid) {id : String} (h : versionShardPath bucket key id = .ok q) :
    q = objectPath bucket key ++ [id] ++ ["shard.dat"] := by
  unfold Abixio.versionShardPath versionDir at h
  rw [ha.objectDir] at h
  cases hid : validateVersionId id with
  | error e => rw [hid] at h; cases h
  | ok u =>
    rw [hid] at h
    exact (Except.ok.inj h).symm

/-- Reads of the current version, when it and the file it names read the same. -/
theorem readShard_of_current (hcur : currentVersion bucket key v' = currentVersion bucket key v)
    (hfile : ∀ m q, currentVersion bucket key v = .ok m → m.inlineData = none →
      shardPathOf bucket key m = .ok q → readShardFile q v' = readShardFile q v) :
    readShard bucket key v' = readShard bucket key v ∧
      mmapShard bucket key v' = mmapShard bucket key v := by
  unfold readShard mmapShard
  rw [hcur]
  cases hm : currentVersion bucket key v with
  | error e => exact ⟨rfl, rfl⟩
  | ok m =>
    simp only [bind, Except.bind]
    cases hin : m.inlineData with
    | some data => exact ⟨rfl, rfl⟩
    | none =>
      cases hq : shardPathOf bucket key m with
      | error e => exact ⟨rfl, rfl⟩
      | ok q =>
        simp only [hfile m q hm hin hq]
        exact ⟨trivial, trivial⟩

end Read

/-- What the checks of a request establish. -/
theorem accepted_of_check {V W : Type} [Backend V W] {n : Nat} {bucket key : String}
    {vid : Option String} {p : Pool V n} (h : checkKey bucket key vid p = .ok ()) :
    Accepted bucket key vid ∧ headBucket bucket p = .ok true := by
  obtain ⟨⟨⟩, hb, h⟩ := except_bind_eq_ok.mp h
  obtain ⟨⟨⟩, hk, h⟩ := except_bind_eq_ok.mp h
  have hhead : ∀ r, (do if ← headBucket bucket p then Except.ok () else .error r) = .ok () →
      headBucket bucket p = .ok true := by
    intro r hr
    obtain ⟨_ | _, hb, hr⟩ := except_bind_eq_ok.mp hr
    · cases hr
    · exact hb
  cases vid with
  | none => exact ⟨⟨hb, hk, fun _ hid => by cases hid⟩, hhead _ h⟩
  | some id =>
    obtain ⟨⟨⟩, hv, h⟩ := except_bind_eq_ok.mp h
    refine ⟨⟨hb, hk, fun id' hid => ?_⟩, hhead _ h⟩
    cases hid
    exact hv

end Abixio
