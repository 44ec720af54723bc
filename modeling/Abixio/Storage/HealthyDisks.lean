import Abixio.Storage.ShardFiles

/-!
# Disks on which the calls on a key succeed

`StaysHealthy bucket key P F` says that on a disk in a state of kind `P` every write of the key with
metadata of kind `F` and every delete goes through and leads to such a state again, which is what a history
of requests needs of the disks. `LawfulDelete` says what a delete does whether it goes through or not. Both
are about a disk that is settled when the call comes, and about the work it does afterwards.

For the file tier of a local volume (`src/storage/local_volume.rs`) `P` is `LocalVolume.Ready` with the
directory of the bucket: there is no fault, and no file or directory is in the way of the object's own.
There is no work between the calls.
-/

namespace Abixio

open Lib Act FileTree
open LocalVolume (bucketExists currentVersion deleteObject fsCall_healthy mmapShard
  not_prefix_concat readShard statObject)

/-- **A delete removes the object or changes nothing.** -/
class LawfulDelete (V : Type) {W : outParam Type} [Backend V W] [Background V] : Prop where
  /-- What was deleted stays away, whatever the disk still has to do. -/
  delete_ok : ∀ {bucket key : String} {v v' : V}, Background.Settled bucket key v →
    Backend.deleteObject bucket key v = (.ok (), v') →
      ∀ steps, Absent bucket key (afterWork steps v')
  delete_error : ∀ {bucket key : String} {v v' : V} {e : StorageError},
    Backend.deleteObject bucket key v = (.error e, v') →
      Backend.statObject bucket key v' = Backend.statObject bucket key v
  /-- What `stat_object` finds is not missing for the delete. -/
  delete_found : ∀ {bucket key : String} {v : V} {m : ObjectMeta},
    Backend.statObject bucket key v = .ok m →
      (Backend.deleteObject bucket key v).1 ≠ .error .objectNotFound
  /-- The bucket stays. -/
  delete_bucket : ∀ {bucket key : String} {v : V},
    Backend.bucketExists bucket (Backend.deleteObject bucket key v).2 =
      Backend.bucketExists bucket v
  work_bucket : ∀ {bucket : String} {v : V} (i : Nat), Backend.bucketExists bucket v = true →
    Backend.bucketExists bucket (Background.work i v) = true

theorem LawfulDelete.afterWork_bucket {V W : Type} [Backend V W] [Background V] [LawfulDelete V]
    {bucket : String} (steps : List Nat) : ∀ {v : V}, Backend.bucketExists bucket v = true →
      Backend.bucketExists bucket (afterWork steps v) = true := by
  induction steps with
  | nil => exact fun h => h
  | cons i steps ih => exact fun h => ih (LawfulDelete.work_bucket i h)

/-- The reads of a key without a version id answer as before. -/
structure SameShard {V W : Type} [Backend V W] (bucket key : String) (v v' : V) : Prop where
  read : Backend.readShard bucket key v' = Backend.readShard bucket key v
  mmap : Backend.mmapShard bucket key v' = Backend.mmapShard bucket key v
  stat : Backend.statObject bucket key v' = Backend.statObject bucket key v

/-- A disk has this shard for the key. The mapping may show that it is stored inline. -/
structure Stores {V W : Type} [Backend V W] (bucket key : String) (data : Bytes) (m : ObjectMeta) (v : V) :
    Prop where
  read : Backend.readShard bucket key v = .ok (data, m)
  stat : Backend.statObject bucket key v = .ok m
  mmap : ∃ m', Backend.mmapShard bucket key v = .ok (data, m') ∧ { m' with inlineData := none } = m

/-- **A kind of disk state on which the calls on a key succeed**, and which they keep. -/
structure StaysHealthy {V W : Type} [Backend V W] [Background V] (bucket key : String) (P : V → Prop)
    (F : ObjectMeta → Prop) : Prop where
  hasBucket : ∀ {v}, P v → Backend.bucketExists bucket v = true
  stream : ∀ {v}, P v → Background.Settled bucket key v → ∀ chunks, ∃ w v₁,
    Writing bucket key none v chunks w v₁ ∧ ∀ m, m.Plain → m.versionId = "" → F m →
      ∃ v₂, Backend.finalize w m v₁ = (.ok (), v₂) ∧ P v₂ ∧ Stores bucket key chunks.flatten m v₂
  small : ∀ {v}, P v → Background.Settled bucket key v → ∀ data m, m.Plain → m.versionId = "" → F m →
    ∃ v₁, Backend.writeShard bucket key data m v = (.ok (), v₁) ∧ P v₁ ∧ Stores bucket key data m v₁
  /-- A delete leaves nothing, and finds nothing only if there was nothing. -/
  delete : ∀ {v}, P v → Background.Settled bucket key v → P (Backend.deleteObject bucket key v).2 ∧
    Absent bucket key (Backend.deleteObject bucket key v).2 ∧
    ((Backend.deleteObject bucket key v).1 = .ok () ∨
      (Backend.deleteObject bucket key v).1 = .error .objectNotFound ∧ Absent bucket key v)
  /-- The work of the disk changes no answer. -/
  work : ∀ {v}, P v → ∀ i, P (Background.work i v) ∧ SameShard bucket key v (Background.work i v)

/-- The disks of a pool take steps of their own. -/
def Pool.afterWork {V : Type} [Background V] {n : Nat} (steps : Fin n → List Nat) (p : Pool V n) :
    Pool V n :=
  { p with disks := fun d => Abixio.afterWork (steps d) (p.disks d) }

/-- A healthy disk stays healthy while it works, and answers the same. -/
theorem StaysHealthy.afterWork {V W : Type} [Backend V W] [Background V] {bucket key : String}
    {P : V → Prop} {F : ObjectMeta → Prop} (hP : StaysHealthy bucket key P F) (steps : List Nat) :
    ∀ {v}, P v → P (Abixio.afterWork steps v) ∧ SameShard bucket key v (Abixio.afterWork steps v) := by
  induction steps with
  | nil => exact fun hv => ⟨hv, rfl, rfl, rfl⟩
  | cons i steps ih =>
    intro v hv
    obtain ⟨hv₁, hsame₁⟩ := hP.work hv i
    obtain ⟨hv₂, hsame₂⟩ := ih hv₁
    exact ⟨hv₂, hsame₂.read.trans hsame₁.read, hsame₂.mmap.trans hsame₁.mmap,
      hsame₂.stat.trans hsame₁.stat⟩

/-! ## Local volumes -/

/-- The file tier has nothing to do between the calls. -/
instance : Background LocalVolume where
  work _ v := v
  Settled _ _ _ := True

theorem LocalVolume.afterWork_eq (steps : List Nat) (v : LocalVolume) : afterWork steps v = v := by
  induction steps with
  | nil => rfl
  | cons i steps ih => exact ih

section LocalVolumes

variable {bucket key : String} {v v' : LocalVolume}

theorem currentVersion_eq_of_fs (h : v'.fs = v.fs) :
    currentVersion bucket key v' = currentVersion bucket key v := by
  unfold currentVersion
  rw [h]

theorem currentVersion_of_not_dir {dir : Path} (hdir : objectDir bucket key = .ok dir)
    (h : v.fs.isDir dir = false) : currentVersion bucket key v = .error .objectNotFound := by
  unfold currentVersion
  rw [hdir]
  simp [bind, Except.bind, h]

theorem absent_of_not_dir {dir : Path} (hdir : objectDir bucket key = .ok dir)
    (h : v.fs.isDir dir = false) : Absent bucket key v := by
  have hnone := currentVersion_of_not_dir hdir h
  refine ⟨?_, ?_, ?_⟩
  · change statObject bucket key v = _
    unfold statObject
    rw [hnone]
    rfl
  · change readShard bucket key v = _
    unfold readShard
    rw [hnone]
    rfl
  · change mmapShard bucket key v = _
    unfold mmapShard
    rw [hnone]
    rfl

/-- The object is below its bucket. -/
theorem not_prefix_bucket (bucket key : String) : ¬ bucket :: keySegments key <+: [bucket] := by
  intro hp
  have hlen := hp.length_le
  have hpos := List.length_pos_of_ne_nil (keySegments_ne_nil key)
  rw [List.length_cons, List.length_singleton] at hlen
  omega

theorem objectDir_eq_ok {dir : Path} (h : objectDir bucket key = .ok dir) :
    ValidBucket bucket ∧ dir = bucket :: keySegments key := by
  obtain ⟨⟨⟩, hb, hrest⟩ := except_bind_eq_ok.mp h
  obtain ⟨⟨⟩, hk, -⟩ := except_bind_eq_ok.mp hrest
  rw [objectDir_ok hb hk] at h
  exact ⟨hb, (Except.ok.inj h).symm⟩

theorem LocalVolume.deleteObject_cases (bucket key : String) (v : LocalVolume) :
    (∃ e, deleteObject bucket key v = (.error e, v) ∧ ∀ m, statObject bucket key v ≠ .ok m) ∨
    ∃ dir, objectDir bucket key = .ok dir ∧ deleteObject bucket key v =
      fsCall (fun fs => fs.removeDirAll dir) v := by
  unfold deleteObject statObject
  cases hdir : objectDir bucket key with
  | error e =>
    refine Or.inl ⟨e, rfl, fun m hm => ?_⟩
    unfold currentVersion at hm
    rw [hdir] at hm
    cases hm
  | ok dir =>
    simp only [bind_apply, ofExcept_apply, read_apply]
    cases hd : v.fs.isDir dir with
    | false =>
      refine Or.inl ⟨.objectNotFound, rfl, fun m hm => ?_⟩
      rw [currentVersion_of_not_dir hdir hd] at hm
      cases hm
    | true => exact Or.inr ⟨dir, rfl, rfl⟩

instance : LawfulDelete LocalVolume where
  delete_ok {bucket key v v'} _ h steps := by
    rw [LocalVolume.afterWork_eq]
    rcases LocalVolume.deleteObject_cases bucket key v with ⟨e, he, -⟩ | ⟨dir, hdir, hcall⟩
    · simp [show LocalVolume.deleteObject bucket key v = _ from h] at he
    · have hfs := fsCall_ok (hcall.symm.trans h)
      exact absent_of_not_dir hdir (FileTree.removeDirAll_isDir hfs)
  delete_error {bucket key v v' e} h := by
    have hfs : v'.fs = v.fs := by
      rcases LocalVolume.deleteObject_cases bucket key v with ⟨e', he, -⟩ | ⟨dir, -, hcall⟩
      · rw [show LocalVolume.deleteObject bucket key v = _ from h] at he
        cases he
        rfl
      · exact fsCall_error (hcall.symm.trans h)
    change LocalVolume.statObject bucket key v' = LocalVolume.statObject bucket key v
    unfold LocalVolume.statObject
    rw [currentVersion_eq_of_fs hfs]
  delete_found {bucket key v m} h := by
    rcases LocalVolume.deleteObject_cases bucket key v with ⟨e, -, hstat⟩ | ⟨dir, -, hcall⟩
    · exact absurd h (hstat m)
    · change (LocalVolume.deleteObject bucket key v).1 ≠ _
      rw [hcall]
      unfold fsCall
      split
      · simp
      · split <;> simp
  delete_bucket {bucket key v} := by
    change LocalVolume.bucketExists bucket (LocalVolume.deleteObject bucket key v).2 =
      LocalVolume.bucketExists bucket v
    rcases LocalVolume.deleteObject_cases bucket key v with ⟨e, he, -⟩ | ⟨dir, hdir, hcall⟩
    · rw [he]
    · obtain ⟨hb, rfl⟩ := objectDir_eq_ok hdir
      have hnot := not_prefix_bucket bucket key
      have hkeeps : ∀ v', (LocalVolume.deleteObject bucket key v).2 = v' →
          v'.fs.isDir [bucket] = v.fs.isDir [bucket] := by
        rintro v' rfl
        rw [hcall]
        cases hrun : fsCall (fun fs => fs.removeDirAll (bucket :: keySegments key)) v with
        | mk r v' =>
          cases r with
          | error e => rw [fsCall_error hrun]
          | ok u =>
            obtain ⟨-, hd⟩ := FileTree.removeDirAll_of_not_prefix (fsCall_ok hrun) hnot
            exact hd
      unfold LocalVolume.bucketExists
      rw [bucketDir_ok hb]
      exact hkeeps _ rfl
  work_bucket _ h := h

/-- An open writer on a volume where nothing is in the way. -/
structure WriterReady (bucket key : String) (w : LocalShardWriter) (v : LocalVolume) : Prop where
  writer : w = ⟨bucket, key, none, bucket :: keySegments key ++ ["shard.dat"]⟩
  ready : v.Ready bucket key
  dir : v.fs.isDir (bucket :: keySegments key) = true
  bucketDir : v.fs.isDir [bucket] = true

theorem LocalVolume.Ready.openShardWriter (ha : Accepted bucket key none)
    (hv : v.Ready bucket key) :
    ∃ w v₁, LocalVolume.openShardWriter bucket key none v = (.ok w, v₁) ∧
      WriterReady bucket key w v₁ := by
  obtain ⟨fs, hmk, hready, hdir, hbucket⟩ := hv.createDirAll
  have hfile : shardFile bucket key none = bucket :: keySegments key ++ ["shard.dat"] := rfl
  obtain ⟨fs', hfs'⟩ := writeFile_isSome (a := FileData.bytes []) hdir hready.shardFree
  have hdirs := writeFile_isDir hfs'
  have hcreate : createFile (shardFile bucket key none) { v with fs := fs } =
      (.ok (), { v with fs := fs' }) := fsCall_healthy hv.calm hfs'
  refine ⟨_, { v with fs := fs' }, ?_, rfl, ⟨hv.calm, fun q hq => ?_,
    (hdirs _).trans hready.shardFree, (hdirs _).trans hready.metaFree⟩,
    (hdirs _).trans hdir, (hdirs _).trans hbucket⟩
  · rw [openShardWriter_eq ha, hfile, List.dropLast_concat, bind_ok hmk, ← hfile, bind_ok hcreate]
    rfl
  · refine (writeFile_read_of_ne hfs' ?_).trans (hready.clear q hq)
    rintro rfl
    exact not_prefix_concat _ _ hq

theorem WriterReady.writeChunk {w : LocalShardWriter} (h : WriterReady bucket key w v)
    (data : Bytes) :
    ∃ v₁, LocalVolume.writeChunk w data v = (.ok w, v₁) ∧ WriterReady bucket key w v₁ := by
  have hdirs : ∀ q, (v.fs.modifyFile w.path (FileData.append data)).isDir q = v.fs.isDir q :=
    fun q => modifyFile_isDir q
  have hwrite : writeAll w.path data v =
      (.ok (), { v with fs := v.fs.modifyFile w.path (FileData.append data) }) :=
    LocalVolume.fsCall_healthy h.ready.calm rfl
  refine ⟨{ v with fs := v.fs.modifyFile w.path (FileData.append data) }, ?_, h.writer,
    ⟨h.ready.calm, fun q hq => ?_, (hdirs _).trans h.ready.shardFree,
      (hdirs _).trans h.ready.metaFree⟩, (hdirs _).trans h.dir, (hdirs _).trans h.bucketDir⟩
  · unfold LocalVolume.writeChunk
    rw [bind_ok hwrite]
    rfl
  · refine (modifyFile_read_of_ne ?_).trans (h.ready.clear q hq)
    rintro rfl
    rw [h.writer] at hq
    exact not_prefix_concat _ _ hq

section

variable (ha : Accepted bucket key none)
include ha

theorem WriterReady.finalize {w : LocalShardWriter} (h : WriterReady bucket key w v) (m : ObjectMeta) :
    ∃ v₁, LocalVolume.finalize w m v = (.ok (), v₁) ∧ v₁.Ready bucket key ∧
      v₁.fs.isDir [bucket] = true := by
  have hflush : fsCall some v = (.ok (), v) := LocalVolume.fsCall_healthy h.ready.calm rfl
  have hpath : objectMetaPath bucket key = .ok (bucket :: keySegments key ++ ["meta.json"]) :=
    ha.objectMetaPath
  unfold LocalVolume.finalize
  rw [bind_ok hflush, h.writer]
  simp only [hpath, Act.ok_bind]
  obtain ⟨v₁, hw, hready, hdirs⟩ := h.ready.writeWhole h.dir h.ready.metaFree
  exact ⟨v₁, hw, hready, (hdirs _).trans h.bucketDir⟩

/-- Any chunks can be written. -/
theorem LocalVolume.Ready.writing (hv : v.Ready bucket key) (chunks : List Bytes) :
    ∃ w v₁, Writing bucket key none v chunks w v₁ ∧ WriterReady bucket key w v₁ := by
  induction chunks using List.reverseRecOn with
  | nil =>
    obtain ⟨w, v₁, hopen, hready⟩ := hv.openShardWriter ha
    exact ⟨w, v₁, .opened hopen, hready⟩
  | append_singleton chunks data ih =>
    obtain ⟨w, v₁, hw, hready⟩ := ih
    obtain ⟨v₂, hchunk, hready₂⟩ := hready.writeChunk data
    exact ⟨w, v₂, .chunk hw hchunk, hready₂⟩

/-- A delete removes the directory of the object, if there is one. -/
theorem LocalVolume.Ready.deleted (hv : v.Ready bucket key) (hbucket : v.fs.isDir [bucket] = true) :
    ((deleteObject bucket key v).2.Ready bucket key ∧
      (deleteObject bucket key v).2.fs.isDir [bucket] = true) ∧
    Absent bucket key (deleteObject bucket key v).2 ∧ ((deleteObject bucket key v).1 = .ok () ∨
      (deleteObject bucket key v).1 = .error .objectNotFound ∧ Absent bucket key v) := by
  have hdir : objectDir bucket key = .ok (bucket :: keySegments key) := ha.objectDir
  have hrun : deleteObject bucket key v = if v.fs.isDir (bucket :: keySegments key) then
      fsCall (fun fs => fs.removeDirAll (bucket :: keySegments key)) v
      else (.error .objectNotFound, v) := by
    unfold deleteObject
    rw [hdir, Act.ok_bind]
    simp only [bind_apply, read_apply]
    split_ifs <;> rfl
  by_cases hd : v.fs.isDir (bucket :: keySegments key) = true
  · obtain ⟨fs, hfs⟩ : ∃ fs, v.fs.removeDirAll (bucket :: keySegments key) = some fs :=
      ⟨_, if_pos ⟨List.cons_ne_nil _ _, hd⟩⟩
    have hcall : fsCall (fun fs => fs.removeDirAll (bucket :: keySegments key)) v =
        (.ok (), { v with fs := fs }) := fsCall_healthy hv.calm hfs
    rw [hrun, if_pos hd, hcall]
    have hgone : ∀ name, fs.isDir (bucket :: keySegments key ++ [name]) = false := by
      intro name
      unfold FileTree.isDir
      rw [removeDirAll_lookup hfs (by simp), if_pos (List.prefix_append _ _)]
    refine ⟨⟨⟨hv.calm, fun q hq => ?_, hgone _, hgone _⟩, ?_⟩,
      absent_of_not_dir hdir (removeDirAll_isDir hfs), Or.inl rfl⟩
    · by_cases hback : bucket :: keySegments key <+: q
      · exact removeDirAll_read hfs hback
      · exact (FileTree.removeDirAll_of_not_prefix hfs hback).1.trans (hv.clear q hq)
    · exact (FileTree.removeDirAll_of_not_prefix hfs (not_prefix_bucket bucket key)).2.trans hbucket
  · rw [Bool.not_eq_true] at hd
    have habsent := absent_of_not_dir hdir hd
    rw [hrun, if_neg (by simp [hd])]
    exact ⟨⟨hv, hbucket⟩, habsent, Or.inr ⟨rfl, habsent⟩⟩

/-- **A local volume with nothing in the way is healthy.** -/
theorem LocalVolume.healthy : StaysHealthy bucket key
    (fun v : LocalVolume => v.Ready bucket key ∧ v.fs.isDir [bucket] = true) fun _ => True where
  hasBucket h := bucketExists_of_isDir ha.bucket_ok h.2
  stream h _ chunks := by
    obtain ⟨w, v₁, hw, hready⟩ := h.1.writing ha chunks
    refine ⟨w, v₁, hw, fun m hm hid _ => ?_⟩
    obtain ⟨v₂, hrun, hready₂⟩ : ∃ v₂, Backend.finalize w m v₁ = (.ok (), v₂) ∧ _ :=
      hready.finalize ha m
    obtain ⟨hread, hmmap, hstat⟩ := LawfulBackend.read_finalized hw hm hid hrun
    exact ⟨v₂, hrun, hready₂, hread, hstat, m, hmmap, congrArg _ hm.inlineNone.symm⟩
  small h _ data m hm hid _ := by
    obtain ⟨v₁, hrun, hready⟩ : ∃ v₁, Backend.writeShard bucket key data m _ = (.ok (), v₁) ∧ _ :=
      h.1.writeShard ha.bucket_ok ha.key_ok data m
    obtain ⟨hread, hstat, hmmap⟩ := LawfulBackend.read_written hm hid hrun
    exact ⟨v₁, hrun, hready, hread, hstat, hmmap⟩
  delete h _ := h.1.deleted ha h.2
  work h _ := ⟨h, rfl, rfl, rfl⟩

end

end LocalVolumes

theorem bucketExists_eq {bucket : String} {v : LocalVolume} (hb : ValidBucket bucket) :
    bucketExists bucket v = v.fs.isDir [bucket] := by
  unfold bucketExists
  rw [bucketDir_ok hb]

/-- A bucket is found if a disk has it. -/
theorem headBucket_eq {n : Nat} {bucket : String} (hb : ValidBucket bucket)
    (p : Pool LocalVolume n) : headBucket bucket p =
      .ok ((List.finRange n).any fun d => (p.disks d).fs.isDir [bucket]) := by
  unfold headBucket
  rw [hb]
  refine congrArg Except.ok ?_
  rw [Bool.eq_iff_iff, decide_eq_true_eq, List.any_eq_true, Nat.one_le_iff_ne_zero, Ne,
    List.length_eq_zero_iff, List.filter_eq_nil_iff]
  push Not
  refine exists_congr fun d => and_congr_right fun _ => ?_
  rw [← bucketExists_eq hb]
  rfl

end Abixio
