import Abixio.Storage.DiskFrame
import Abixio.Storage.ListObjects
import Abixio.Storage.WalHealth
import Abixio.S3.Service

/-!
# Buckets: creation, settings, deletion

Model of `make_bucket`, `delete_bucket`, `set_ftt`, `get_ftt`, `set_versioning_config`,
`get_bucket_settings` and `set_bucket_settings` of the pool (`src/storage/volume_pool.rs:962-1007`,
`1222-1243`, `1391-1462`), of the calls they make on a volume (`src/storage/local_volume.rs:913-936`,
`1154-1175`), and of the handlers `create_bucket`, `delete_bucket` and `put_bucket_versioning`
(`src/s3_service.rs:321-344`, `961-986`). All but `delete_bucket` work on the files of the volumes only.

* A bucket is its directory on every disk, and `settings.json` in the system directory. Creation
  writes the fault tolerance into the settings and leaves what else is there. Deletion leaves the
  settings.
* `delete_bucket` of a volume removes an empty directory. A deleted object with a nested key leaves
  the directories above its own.
* The versioning status is also in the service's cache, which neither creation nor deletion clears.
* A worker that writes the files of an object creates the directory of its bucket again. `Quiet` says
  that a log has nothing of the bucket.

`startsFresh_iff` says which of the first three a bucket that was deleted and created again still shows,
when the logs are quiet.
-/

namespace Abixio

open Lib List LocalVolume
open Act (attempt bind_apply bind_eq_ok bind_ok each fail ofExcept ok_bind query read_apply)

variable {n : Nat} {bucket : String}

/-! ## The calls on a volume -/

namespace LocalVolume

/-- `make_bucket`. -/
def makeBucket (bucket : String) : VolAct LocalVolume Unit := do
  let dir ← ofExcept (bucketDir bucket)
  let found ← Act.read fun v => v.fs.isDir dir
  if found then fail .bucketExists else createDirAll dir

/-- `write_bucket_settings`. -/
def writeBucketSettings (bucket : String) (settings : BucketSettings) : VolAct LocalVolume Unit := do
  let dir ← ofExcept (bucketSettingsDir bucket)
  createDirAll dir
  writeWhole (dir ++ ["settings.json"]) (.settingsJson settings)

/-- The settings read, changed and written back. -/
def changeSettings (bucket : String) (change : BucketSettings → BucketSettings) :
    VolAct LocalVolume Unit := do
  let settings ← Act.read (readBucketSettings bucket)
  writeBucketSettings bucket (change settings)

end LocalVolume

/-! ## The requests on a pool -/

section Pool

/-- The check the requests on a bucket start with. -/
def checkBucket (bucket : String) (p : Pool LocalVolume n) : Except StorageError Unit := do
  validateBucketName bucket
  if ← headBucket bucket p then .ok () else .error .bucketNotFound

/-- A call on every disk; one that succeeds is enough. -/
def onAnyDisk (x : VolAct LocalVolume Unit) : PoolOp LocalVolume n Unit := do
  let answers ← onDisks (each (fun d => Act.at d (attempt x)) (finRange n))
  if (answers.filter fun answer => answer.toOption.isSome).length = 0 then fail .writeQuorum
  else pure ()

/-- `set_ftt`. -/
def setFtt (bucket : String) (ftt : Nat) : PoolOp LocalVolume n Unit := do
  query (checkBucket bucket)
  let _ ← ofExcept (fttToEc ftt n)
  onAnyDisk (LocalVolume.changeSettings bucket fun settings => { settings with ftt := some ftt })

/-- `get_ftt`. -/
def getFtt (bucket : String) (p : Pool LocalVolume n) : Except StorageError (Option Nat) := do
  checkBucket bucket p
  .ok ((finRange n).findSome? fun d => (LocalVolume.readBucketSettings bucket (p.disks d)).ftt)

/-- `set_versioning_config`. -/
def setVersioningConfig (bucket status : String) : PoolOp LocalVolume n Unit := do
  query (checkBucket bucket)
  onAnyDisk (LocalVolume.changeSettings bucket fun settings =>
    { settings with versioning := some status })

/-- `get_bucket_settings`: those of the first disk that has any. -/
def getBucketSettings (bucket : String) (p : Pool LocalVolume n) :
    Except StorageError BucketSettings := do
  checkBucket bucket p
  .ok (((finRange n).findSome? fun d =>
    let settings := LocalVolume.readBucketSettings bucket (p.disks d)
    if settings ≠ .empty then some settings else none).getD .empty)

/-- `set_bucket_settings`. -/
def setBucketSettings (bucket : String) (settings : BucketSettings) : PoolOp LocalVolume n Unit := do
  query (checkBucket bucket)
  onAnyDisk (LocalVolume.writeBucketSettings bucket settings)

/-- `make_bucket`. What becomes of the fault tolerance is ignored. -/
def makeBucket (bucket : String) : PoolOp LocalVolume n Unit := do
  ofExcept (validateBucketName bucket)
  let found ← Act.read fun p =>
    (finRange n).any fun d => LocalVolume.bucketExists bucket (p.disks d)
  if found then fail .bucketExists
  else do
    onAnyDisk (LocalVolume.makeBucket bucket)
    let _ ← attempt (setFtt bucket (defaultFtt n))
    pure ()

variable {log : NeedleEnv}

/-- The files of the volumes. -/
def Pool.files (p : Pool (WalVolume log) n) : Pool LocalVolume n :=
  { p with disks := fun d => (p.disks d).files }

/-- A request on the files of the volumes. -/
def onPoolFiles {α : Type} (x : PoolOp LocalVolume n α) : PoolOp (WalVolume log) n α := fun p =>
  ((x p.files).1,
    { (x p.files).2 with disks := fun d => { p.disks d with files := (x p.files).2.disks d } })

/-- `delete_bucket` of the pool. What the disks answer is ignored. -/
def deleteBucket (bucket : String) : PoolOp (WalVolume log) n Unit := do
  let found ← query (headBucket bucket)
  if found then do
    let cached ← Act.read fun p =>
      !((p.writeCache.map fun c => c.listKeys bucket "").getD []).isEmpty
    let listed ← Act.read fun p => (finRange n).any fun d =>
      !((WalVolume.listObjects bucket "" (p.disks d)).toOption.getD []).isEmpty
    if cached ∨ listed then fail .bucketNotEmpty
    else do
      let _ ← onDisks (each
        (fun d => Act.at d (attempt (WalVolume.onFiles (LocalVolume.deleteBucket bucket)))) (finRange n))
      Act.modify (onReadCache fun c => c.invalidateBucket bucket)
  else fail .bucketNotFound

/-- `delete_bucket`. -/
def s3DeleteBucket (bucket : String) : S3Op (WalVolume log) n Unit := onPool (deleteBucket bucket)

/-- `create_bucket`, with the location it returns. -/
def s3CreateBucket (bucket : String) : S3Op (WalVolume log) n String := do
  onPool (onPoolFiles (makeBucket bucket))
  pure ("/" ++ bucket)

/-- `put_bucket_versioning`, with a status it accepts. -/
def s3PutBucketVersioning (bucket status : String) : S3Op (WalVolume log) n Unit := do
  onPool (onPoolFiles (setVersioningConfig bucket status))
  Act.modify fun s => { s with versioningCache := s.versioningCache.erase bucket }

end Pool

/-! ## One disk -/

/-- Where the settings of a bucket are. -/
def settingsDir (bucket : String) : Path := [".abixio.sys", "buckets", bucket]

/-- **A volume where nothing is in the way of a bucket**: there is no fault, no file where the bucket or
its settings have a directory, and no directory in place of the settings. -/
structure BucketSpace (bucket : String) (v : LocalVolume) : Prop where
  calm : v.faults = []
  sane : v.Sane
  dirClear : v.fs.read [bucket] = none
  settingsClear : ∀ q, q <+: settingsDir bucket → v.fs.read q = none
  settingsFree : v.fs.isDir (settingsDir bucket ++ ["settings.json"]) = false

/-- The directory of the bucket goes away when it is asked to: nothing is in it, and the call does not
fail. -/
def Removable (bucket : String) (v : LocalVolume) : Prop :=
  v.fs.isDir [bucket] = true → v.fs.children [bucket] = [] ∧ v.faults.head?.join = none

variable {settings : BucketSettings}

section Disk

variable {v : LocalVolume}

variable (hb : validateBucketName bucket = .ok ())

include hb in
theorem bucketSettingsDir_ok : bucketSettingsDir bucket = .ok (settingsDir bucket) := by
  obtain ⟨dir, hdir, hpath⟩ := except_bind_eq_ok.mp (bucketSettingsPath_ok hb)
  have happend : dir ++ ["settings.json"] = settingsDir bucket ++ ["settings.json"] := Except.ok.inj hpath
  rw [hdir, append_cancel_right happend]

/-- The call that removes the directory of a bucket: it does so, or the tree stays. -/
theorem removeBucketDir (hdir : v.fs.isDir [bucket] = true) :
    (v.fs.children [bucket] = [] ∧ v.faults.head?.join = none ∧
        (fsCall (fun fs => fs.removeDir [bucket]) v).2.fs = v.fs.restrict fun q => q ≠ [bucket]) ∨
      ¬ (v.fs.children [bucket] = [] ∧ v.faults.head?.join = none) ∧
        (fsCall (fun fs => fs.removeDir [bucket]) v).2.fs = v.fs := by
  by_cases hfault : v.faults.head?.join = none
  · have hremove : v.fs.removeDir [bucket] = if v.fs.children [bucket] = [] then
        some (v.fs.restrict fun q => q ≠ [bucket]) else none := by
      unfold FileTree.removeDir
      simp only [ne_eq, cons_ne_nil, not_false_eq_true, hdir, List.isEmpty_iff, true_and]
    have hcall : (fsCall (fun fs => fs.removeDir [bucket]) v).2.fs =
        (v.fs.removeDir [bucket]).getD v.fs := by
      unfold fsCall
      split
      · rename_i msg rest hf
        rw [hf] at hfault
        cases hfault
      · split
        · rename_i fs hfs
          exact (congrArg (fun fs' => fs'.getD v.fs) hfs).symm
        · rename_i hfs
          exact (congrArg (fun fs' => fs'.getD v.fs) hfs).symm
    rw [hcall, hremove]
    by_cases hempty : v.fs.children [bucket] = []
    · rw [if_pos hempty]
      exact Or.inl ⟨hempty, hfault, rfl⟩
    · rw [if_neg hempty]
      exact Or.inr ⟨fun h => hempty h.1, rfl⟩
  · refine Or.inr ⟨fun h => hfault h.2, ?_⟩
    unfold fsCall
    split
    · rfl
    · rename_i faults hno
      refine absurd ?_ hfault
      cases hf : v.faults with
      | nil => rfl
      | cons fault rest =>
        cases fault with
        | none => rfl
        | some msg => exact absurd hf (hno msg rest)

include hb in
/-- **What `delete_bucket` does to a volume**: the directory is gone if it could be removed, and
everything else is as it was. -/
theorem deleteBucket_disk (v : LocalVolume) :
    ((LocalVolume.deleteBucket bucket v).2.fs.isDir [bucket] = false ↔ Removable bucket v) ∧
      ∀ q, q ≠ [bucket] → (LocalVolume.deleteBucket bucket v).2.fs.lookup q = v.fs.lookup q := by
  have hrun : (LocalVolume.deleteBucket bucket v).2 =
      if v.fs.isDir [bucket] then (fsCall (fun fs => fs.removeDir [bucket]) v).2 else v := by
    unfold LocalVolume.deleteBucket
    rw [bucketDir_ok hb, ok_bind, bind_apply, read_apply]
    dsimp only
    rw [bind_apply, read_apply]
    dsimp only
    split_ifs
    · rw [bind_apply, Act.attempt_apply]
      cases (fsCall (fun fs => fs.removeDir [bucket]) v).1 with
      | ok u => rfl
      | error e => rfl
    · rfl
  rw [hrun]
  cases hdir : v.fs.isDir [bucket] with
  | false =>
    rw [if_neg Bool.false_ne_true]
    refine ⟨⟨fun _ h => ?_, fun _ => hdir⟩, fun _ _ => rfl⟩
    rw [hdir] at h
    cases h
  | true =>
    rw [if_pos rfl]
    rcases removeBucketDir hdir with ⟨hempty, hfault, hfs⟩ | ⟨hkept, hfs⟩
    · rw [hfs]
      have hgone : (v.fs.restrict fun q => q ≠ [bucket]).isDir [bucket] = false := by
        unfold FileTree.isDir
        rw [FileTree.lookup_restrict _ _ (cons_ne_nil _ _)]
        simp
      refine ⟨⟨fun _ _ => ⟨hempty, hfault⟩, fun _ => hgone⟩, fun q hq => ?_⟩
      exact FileTree.lookup_restrict_ne _ hq
    · rw [hfs]
      refine ⟨⟨fun h => ?_, fun h => absurd (h hdir) hkept⟩, fun _ _ => rfl⟩
      rw [hdir] at h
      cases h

/-- What a volume shows of a bucket without objects, with the settings given. -/
structure EmptyBucket (bucket : String) (settings : BucketSettings) (v : LocalVolume) : Prop where
  dir : v.fs.isDir [bucket] = true
  below : ∀ q, [bucket] <+: q → q ≠ [bucket] → v.fs.lookup q = none
  settings : LocalVolume.readBucketSettings bucket v = settings

/-- Nothing is below a directory that is not there. -/
theorem lookup_below_none (hv : v.Sane) (hno : v.fs.lookup [bucket] = none) :
    ∀ q, [bucket] <+: q → v.fs.lookup q = none := by
  rintro q ⟨rest, rfl⟩
  induction rest using reverseRecOn with
  | nil => exact hno
  | append_singleton rest name ih =>
    rw [← append_assoc]
    cases hl : v.fs.lookup ([bucket] ++ rest ++ [name]) with
    | none => rfl
    | some e =>
      have hparent := hv.isDir_parent (Option.isSome_iff_exists.mpr ⟨e, hl⟩)
      rw [FileTree.isDir_iff, ih] at hparent
      cases hparent

include hb in
theorem settings_not_below {q : Path} (hq : [bucket] <+: q) :
    ¬ q <+: settingsDir bucket ++ ["settings.json"] := by
  intro hp
  have hhead := hq.trans hp
  simp only [settingsDir, cons_append, nil_append, cons_prefix_cons, nil_prefix, and_true] at hhead
  exact bucket_ne_system hb hhead

include hb in
theorem readBucketSettings_of_read
    (h : v.fs.read (settingsDir bucket ++ ["settings.json"]) = some (.settingsJson settings)) :
    readBucketSettings bucket v = settings.parsed := by
  have hpath : bucketSettingsPath bucket = .ok (settingsDir bucket ++ ["settings.json"]) :=
    bucketSettingsPath_ok hb
  unfold readBucketSettings
  rw [hpath]
  dsimp only
  rw [h]

theorem readBucketSettings_policy (bucket : String) (v : LocalVolume) :
    (readBucketSettings bucket v).policy ≠ some .null := by
  unfold readBucketSettings
  split
  · exact nofun
  · split
    · exact BucketSettings.parsed_policy _
    · exact nofun

/-- Two volumes with the same files and directories in a bucket. -/
def SameBelow (bucket : String) (v w : LocalVolume) : Prop :=
  ∀ q, [bucket] <+: q → w.fs.lookup q = v.fs.lookup q

/-- **Changing the settings** where nothing is in the way. -/
theorem BucketSpace.changeSettings (hv : BucketSpace bucket v)
    (hb : ValidBucket bucket) (change : BucketSettings → BucketSettings)
    (hpolicy : ∀ settings, (change settings).policy = settings.policy) :
    ∃ w, LocalVolume.changeSettings bucket change v = (.ok (), w) ∧ SameBelow bucket v w ∧
      LocalVolume.readBucketSettings bucket w = change (LocalVolume.readBucketSettings bucket v) := by
  obtain ⟨fs, hfs⟩ : ∃ fs, v.fs.createDirAll (settingsDir bucket) = some fs :=
    FileTree.createDirs_isSome hv.settingsClear
  have hfree : fs.isDir (settingsDir bucket ++ ["settings.json"]) = false := by
    rw [FileTree.createDirAll_isDir_of_not_prefix hfs (not_prefix_concat _ _)]
    exact hv.settingsFree
  obtain ⟨w, hw, -⟩ : ∃ w, writeWhole (settingsDir bucket ++ ["settings.json"])
      (.settingsJson (change (LocalVolume.readBucketSettings bucket v))) { v with fs := fs } = (.ok (), w) ∧
        w.faults = [] :=
    writeWhole_healthy hv.calm (FileTree.createDirAll_isDir hfs (prefix_refl _)) hfree
  obtain ⟨hread, hothers, hdirs⟩ := writeWhole_ok hw
  refine ⟨w, ?_, fun q hq => ?_, ?_⟩
  · unfold LocalVolume.changeSettings writeBucketSettings
    rw [bind_apply, read_apply]
    dsimp only
    rw [bucketSettingsDir_ok hb, ok_bind]
    unfold Abixio.createDirAll
    rw [bind_ok (fsCall_healthy hv.calm hfs)]
    exact hw
  · have hout := settings_not_below hb hq
    refine FileTree.lookup_eq_of ?_ ?_
    · rw [hothers q fun he => hout (he ▸ prefix_refl _)]
      exact FileTree.createDirAll_read hfs q
    · rw [hdirs q]
      exact FileTree.createDirAll_isDir_of_not_prefix hfs fun h =>
        hout (h.trans (prefix_append _ _))
  · rw [readBucketSettings_of_read hb hread, BucketSettings.parsed_of_policy]
    rw [hpolicy]
    exact readBucketSettings_policy bucket v

/-- **Creating a bucket** where nothing is in the way. -/
theorem BucketSpace.makeBucket (hv : BucketSpace bucket v) (hb : ValidBucket bucket)
    (hno : v.fs.isDir [bucket] = false) :
    ∃ w, LocalVolume.makeBucket bucket v = (.ok (), w) ∧ BucketSpace bucket w ∧
      EmptyBucket bucket (LocalVolume.readBucketSettings bucket v) w := by
  have hclear : ∀ q, q <+: [bucket] → v.fs.read q = none := by
    intro q hq
    rcases prefix_cons_iff.mp hq with rfl | ⟨rest, rfl, hrest⟩
    · rfl
    · rw [prefix_nil.mp hrest]
      exact hv.dirClear
  have hlookup : v.fs.lookup [bucket] = none := by
    rw [← Option.not_isSome_iff_eq_none, FileTree.lookup_isSome, hno, hv.dirClear]
    exact Bool.false_ne_true
  obtain ⟨fs, hfs⟩ : ∃ fs, v.fs.createDirAll [bucket] = some fs :=
    FileTree.createDirs_isSome hclear
  have hread := FileTree.createDirAll_read hfs
  have hdirs : ∀ q, ¬ q <+: [bucket] → fs.isDir q = v.fs.isDir q := fun q hq =>
    FileTree.createDirAll_isDir_of_not_prefix hfs hq
  refine ⟨{ v with fs := fs }, ?_, ⟨hv.calm, ?_, ?_, fun q hq => ?_, ?_⟩, ?_, fun q hq hne => ?_, ?_⟩
  · unfold LocalVolume.makeBucket
    rw [bucketDir_ok hb, ok_bind, bind_apply, read_apply]
    dsimp only
    rw [if_neg (by rw [hno]; exact Bool.false_ne_true)]
    exact fsCall_healthy hv.calm hfs
  · refine hv.sane.createDirAll (fun name hname => ?_) hfs
    rw [mem_singleton.mp hname]
    exact slash_not_mem_bucket hb
  · exact (hread _).trans hv.dirClear
  · exact (hread q).trans (hv.settingsClear q hq)
  · rw [← hv.settingsFree]
    refine hdirs _ fun hp => ?_
    have hlen := hp.length_le
    simp [settingsDir] at hlen
  · exact FileTree.createDirAll_isDir hfs (prefix_refl _)
  · rw [← lookup_below_none hv.sane hlookup q hq]
    refine FileTree.lookup_eq_of (hread q) (hdirs q fun hp => hne ?_)
    exact hp.eq_of_length_le hq.length_le
  · unfold LocalVolume.readBucketSettings
    rw [show ({ v with fs := fs } : LocalVolume).fs.read = v.fs.read from funext hread]

end Disk

/-! ## Volumes with a log -/

section Log

variable {log : NeedleEnv} {v : WalVolume log}

/-- **The log has nothing of the bucket**: no entry of it is pending, and what waits of it cannot be read
any more. -/
structure Quiet (bucket : String) (v : WalVolume log) : Prop where
  pending : ∀ t ∈ v.tier, ∀ key vid, t.wal.getVersioned bucket key vid = none
  waiting : ∀ t ∈ v.tier, ∀ r ∈ t.waiting, r.bucket = bucket →
    t.wal.hasSegment r.entry.segmentId = false

/-- Two volumes have the directory of the bucket and its settings alike. -/
structure SameBucket (bucket : String) (v w : LocalVolume) : Prop where
  dir : w.fs.isDir [bucket] = v.fs.isDir [bucket]
  settings : LocalVolume.readBucketSettings bucket w = LocalVolume.readBucketSettings bucket v

/-- The files of an object are below its directory. -/
theorem storeFiles_changes {stage : Path} (bucket key vid : String) (data : Bytes) (m : ObjectMeta) :
    Act.Moves (ChangedFor stage (objectPath bucket key)) (storeFiles bucket key vid data m) := by
  unfold storeFiles
  cases versionOption vid with
  | none =>
    refine .ofExcept_bind fun dir hdir => ?_
    obtain ⟨rfl, hown⟩ := objectDir_own hdir
    exact .andThen (createDirAll_changes hown (prefix_refl _)) fun _ =>
      writeBoth_changes (writeWhole_changes (hown _ (prefix_append _ _)) _)
        (writeWhole_changes (hown _ (prefix_append _ _)) _)
  | some vid =>
    refine .ofExcept_bind fun dir hdir => ?_
    obtain ⟨hbelow, hown⟩ := versionDir_own hdir
    refine .andThen (createDirAll_changes hown hbelow) fun _ => .ofExcept_bind fun path hpath => ?_
    refine .andThen (writeWhole_changes (versionShardPath_area hpath) _) fun _ => .ofExcept_bind fun p hp => ?_
    exact .andThen (.read _) fun _ => writeWhole_changes (objectDir_area hp) _

/-- Files of another bucket. -/
theorem sameBucket_of_changed {other key : String} {v w : LocalVolume} (hb : ValidBucket bucket)
    (hne : other ≠ bucket) (h : ChangedFor stagingRoot (objectPath other key) v w) :
    SameBucket bucket v w := by
  have hway : ¬ [bucket] <+: objectPath other key := by
    intro hp
    exact hne (cons_prefix_cons.mp hp).1.symm
  have hdir : ¬ RequestArea stagingRoot (objectPath other key) [bucket] := by
    rintro (⟨hp, -⟩ | hp)
    · exact hne (cons_prefix_cons.mp hp).1
    · exact absurd hp.length_le (by simp [stagingRoot])
  have hsettings : ¬ RequestArea stagingRoot (objectPath other key)
      (settingsDir bucket ++ ["settings.json"]) := by
    rintro (⟨-, hp⟩ | hp)
    · exact hp rfl
    · exact absurd (cons_prefix_cons.mp (cons_prefix_cons.mp hp).2).1 (by decide)
  refine ⟨h.rest.outside.isDir hdir hway, ?_⟩
  have hpath : bucketSettingsPath bucket = .ok (settingsDir bucket ++ ["settings.json"]) :=
    bucketSettingsPath_ok hb
  unfold LocalVolume.readBucketSettings
  rw [hpath]
  dsimp only
  rw [h.rest.outside.read hsettings]

/-- **A worker leaves a quiet bucket alone**, -/
theorem Quiet.work (hb : ValidBucket bucket) (h : Quiet bucket v) (i : Nat) :
    Quiet bucket (v.work i) ∧ SameBucket bucket v.files (v.work i).files := by
  rcases WalVolume.work_cases i v with hsame | ⟨t, r, wal, ht, hr, htier, hwal, hfiles⟩
  · rw [hsame]
    exact ⟨h, rfl, rfl⟩
  · refine ⟨⟨fun t' ht' key vid => ?_, fun t' ht' r' hr' hbucket => ?_⟩, ?_⟩
    · rw [htier] at ht'
      cases ht'
      have hnone := h.pending t ht key vid
      rcases hwal with rfl | rfl
      · exact hnone
      · unfold Wal.getVersioned
        rw [Wal.lookup_markMaterialized]
        split_ifs
        · rfl
        · exact hnone
    · rw [htier] at ht'
      cases ht'
      have hgone := h.waiting t ht r' (mem_of_mem_eraseIdx hr') hbucket
      rcases hwal with rfl | rfl
      · exact hgone
      · rw [← Bool.not_eq_true] at hgone ⊢
        exact fun hseg => hgone (Wal.hasSegment_of_mark hseg)
    · rcases hfiles with hfiles | ⟨hseg, data, m, hfiles⟩
      · rw [hfiles]
        exact ⟨rfl, rfl⟩
      · have hne : r.bucket ≠ bucket := by
          intro hbucket
          rw [h.waiting t ht r hr hbucket] at hseg
          cases hseg
        rw [hfiles]
        exact sameBucket_of_changed hb hne (storeFiles_changes r.bucket r.key r.versionId data m v.files)

/-- and so do all of them. -/
theorem Quiet.afterWork (hb : ValidBucket bucket) (steps : List Nat) : ∀ {v : WalVolume log},
    Quiet bucket v → Quiet bucket (afterWork steps v) ∧
      SameBucket bucket v.files (Abixio.afterWork steps v).files := by
  induction steps with
  | nil => exact fun h => ⟨h, rfl, rfl⟩
  | cons i steps ih =>
    intro v h
    obtain ⟨hquiet, hsame⟩ := h.work hb i
    obtain ⟨hquiet', hsame'⟩ := ih hquiet
    exact ⟨hquiet', hsame'.dir.trans hsame.dir, hsame'.settings.trans hsame.settings⟩

end Log

/-! ## The pool -/

section Requests

section Delete

variable {log : NeedleEnv} {p p' : Pool (WalVolume log) n}

/-- **What a successful `delete_bucket` found and left.** -/
theorem deleteBucket_eq (h : deleteBucket bucket p = (.ok (), p')) :
    ValidBucket bucket ∧
      ((p.writeCache.map fun c => c.listKeys bucket "").getD []) = [] ∧
      (∀ d, p'.disks d =
        { p.disks d with files := (LocalVolume.deleteBucket bucket (p.disks d).files).2 }) ∧
      p'.writeCache = p.writeCache := by
  obtain ⟨found, p₁, hfound, h⟩ := bind_eq_ok.mp h
  rw [Act.query_apply, Prod.mk.injEq] at hfound
  obtain ⟨hhead, rfl⟩ := hfound
  obtain ⟨⟨⟩, hb, -⟩ := except_bind_eq_ok.mp hhead
  split_ifs at h with hf
  · obtain ⟨cached, p₂, hcached, h⟩ := bind_eq_ok.mp h
    obtain ⟨rfl, rfl⟩ := hcached
    obtain ⟨listed, p₃, hlisted, h⟩ := bind_eq_ok.mp h
    obtain ⟨rfl, rfl⟩ := hlisted
    split_ifs at h with hbusy
    · cases h
    · have hcached := (not_or.mp hbusy).1
      rw [bind_ok (onDisks_each_attempt _ _), Act.modify_apply, Prod.mk.injEq] at h
      obtain ⟨-, rfl⟩ := h
      exact ⟨hb, by simpa using hcached, fun _ => rfl, rfl⟩
  · cases h

end Delete

variable {p : Pool LocalVolume (n + 1)}

/-- **A call that succeeds on every disk.** -/
theorem onAnyDisk_ok {x : VolAct LocalVolume Unit} {w : Fin (n + 1) → LocalVolume}
    (h : ∀ d, x (p.disks d) = (.ok (), w d)) :
    onAnyDisk x p = (.ok (), { p with disks := w }) := by
  have hrun : onDisks (each (fun d => Act.at d (attempt x))
      (finRange (n + 1))) p =
        (.ok ((finRange (n + 1)).map fun _ => .ok ()), { p with disks := w }) := by
    rw [onDisks_each_attempt]
    simp only [h]
  unfold onAnyDisk
  rw [bind_ok hrun, if_neg]
  · rfl
  · simp [Except.toOption]

theorem checkBucket_ok (hb : ValidBucket bucket) (h : (p.disks 0).fs.isDir [bucket] = true) :
    headBucket bucket p = .ok true ∧ checkBucket bucket p = .ok () := by
  have hhead : headBucket bucket p = .ok true := by
    rw [headBucket_eq hb, any_eq_true.mpr ⟨0, mem_finRange _, h⟩]
  refine ⟨hhead, ?_⟩
  unfold checkBucket
  rw [hb, hhead]
  rfl

/-- The settings a bucket has after creation: what was left of it, and the default fault tolerance. -/
def createdSettings (numDisks : Nat) (left : BucketSettings) : BucketSettings :=
  { left with ftt := some (defaultFtt numDisks) }

/-- **What `make_bucket` leaves** where no disk has the bucket and nothing is in the way. -/
theorem makeBucket_eq (hb : ValidBucket bucket) (hspace : ∀ d, BucketSpace bucket (p.disks d))
    (hno : ∀ d, (p.disks d).fs.isDir [bucket] = false) :
    ∃ w : Fin (n + 1) → LocalVolume, makeBucket bucket p = (.ok (), { p with disks := w }) ∧
      ∀ d, EmptyBucket bucket
        (createdSettings (n + 1) (LocalVolume.readBucketSettings bucket (p.disks d))) (w d) := by
  choose made hmade hspace' hempty using fun d => (hspace d).makeBucket hb (hno d)
  choose w hw hbelow hsettings using fun d => (hspace' d).changeSettings hb
    (fun settings => { settings with ftt := some (defaultFtt (n + 1)) }) fun _ => rfl
  have hset : setFtt bucket (defaultFtt (n + 1)) { p with disks := made } =
      (.ok (), { p with disks := w }) := by
    have hec : ∃ ec, fttToEc (defaultFtt (n + 1)) (n + 1) = .ok ec := by
      unfold fttToEc defaultFtt
      rw [if_neg (by omega)]
      exact ⟨_, rfl⟩
    obtain ⟨ec, hec⟩ := hec
    have hcheck : checkBucket bucket { p with disks := made } = .ok () :=
      (checkBucket_ok hb (hempty 0).dir).2
    unfold setFtt
    rw [bind_apply, Act.query_apply, hcheck]
    rw [hec, ok_bind]
    exact onAnyDisk_ok hw
  refine ⟨w, ?_, fun d => ⟨?_, fun q hq hne => ?_, ?_⟩⟩
  · have hnone : ((finRange (n + 1)).any fun d => LocalVolume.bucketExists bucket (p.disks d)) =
        false := by
      rw [any_eq_false]
      intro d _
      rw [bucketExists_eq hb, hno d]
      exact Bool.false_ne_true
    unfold makeBucket
    rw [hb, ok_bind, bind_apply, read_apply]
    dsimp only
    rw [hnone, if_neg Bool.false_ne_true, bind_ok (onAnyDisk_ok hmade), bind_apply,
      Act.attempt_apply, hset]
    rfl
  · rw [FileTree.isDir_eq_of_lookup (hbelow d _ (prefix_refl _))]
    exact (hempty d).dir
  · rw [hbelow d q hq]
    exact (hempty d).below q hq hne
  · rw [hsettings d, (hempty d).settings]
    rfl

end Requests

/-! ## Requests on a bucket without versioning -/

section Unversioned

variable {V W : Type} [Backend V W] {s : S3State V n}

/-- The service as it is for a bucket that it knows to be without versioning. -/
def neverVersioned (bucket : String) (s : S3State V n) : S3State V n :=
  { s with versioningCache := s.versioningCache.insert bucket none }

/-- The same answer, and the same pool afterwards. -/
def SameEffect {α : Type} (a b : Except StorageError α × S3State V n) : Prop :=
  a.1 = b.1 ∧ a.2.pool = b.2.pool

/-- PutObject and DeleteObject do what they do in a bucket that never had a versioning status. -/
structure ActsUnversioned (bucket : String) (s : S3State V n) : Prop where
  put : ∀ (env : Env) (cfg : PoolConfig n) (input : PutObjectInput) (draw : Draw) (peerOk : Bool),
    input.bucket = bucket → SameEffect (s3PutObject env cfg input draw peerOk s)
      (s3PutObject env cfg input draw peerOk (neverVersioned bucket s))
  delete : ∀ (input : DeleteObjectInput) (draw : Draw), input.bucket = bucket →
    SameEffect (s3DeleteObject input draw s) (s3DeleteObject input draw (neverVersioned bucket s))

theorem seenStatus_neverVersioned (bucket : String) (s : S3State V n) :
    seenStatus bucket (neverVersioned bucket s) = none :=
  seenStatus_of_cache (AList.lookup_insert _)

/-- The status a handler acts on is one of the two it looks for. -/
abbrev Versioned (status : Option String) : Prop := status = some "Enabled" ∨ status = some "Suspended"

/-- What `put_object` answers, by the status it sees. -/
theorem s3PutObject_fst (env : Env) (cfg : PoolConfig n) (input : PutObjectInput) (draw : Draw)
    (peerOk : Bool) (s : S3State V n) (hstatus : ¬ Versioned (seenStatus input.bucket s)) :
    (s3PutObject env cfg input draw peerOk s).1 =
      (putObjectStream env cfg (putRequest input draw false) peerOk (input.body.getD [.ok []])
        s.pool).1.map fun r =>
          ⟨r.1.etag, if r.1.versionId ≠ "" then some r.1.versionId else none⟩ := by
  obtain ⟨cache, hseen, -⟩ := versioningStatus_eq input.bucket s
  unfold s3PutObject
  rw [bind_ok hseen, decide_eq_false fun h => hstatus (Or.inl h), bind_apply]
  unfold onPool
  cases (putObjectStream env cfg (putRequest input draw false) peerOk (input.body.getD [.ok []])
      s.pool).1 with
  | error e => rfl
  | ok r =>
    rw [if_neg fun h => hstatus (Or.inr h)]
    rfl

/-- What `delete_object` answers, by the status it sees. -/
theorem s3DeleteObject_fst (key : String) (draw : Draw) (s : S3State V n)
    (hstatus : ¬ Versioned (seenStatus bucket s)) : (s3DeleteObject ⟨bucket, key, none⟩ draw s).1 =
      (deleteObject bucket key s.pool).1.map fun _ => ⟨false, none⟩ := by
  obtain ⟨cache, hseen, -⟩ := versioningStatus_eq bucket s
  unfold s3DeleteObject
  dsimp only
  rw [bind_ok hseen, if_neg hstatus, bind_apply]
  unfold onPool
  cases (deleteObject bucket key s.pool).1 with
  | error e => rfl
  | ok r => rfl

theorem s3DeleteObject_version (key vid : String) (draw : Draw) (s : S3State V n) :
    (s3DeleteObject ⟨bucket, key, some vid⟩ draw s).1 =
      (deleteObjectVersion bucket key vid s.pool).1.map fun _ => ⟨false, some vid⟩ := by
  unfold s3DeleteObject
  dsimp only
  rw [bind_apply]
  unfold onPool
  cases (deleteObjectVersion bucket key vid s.pool).1 with
  | error e => rfl
  | ok r => rfl

/-- A DELETE under a versioning status answers with a delete marker. -/
theorem s3DeleteObject_marker {key : String} (hcheck : checkKey bucket key none s.pool = .ok ())
    (draw : Draw) (hstatus : Versioned (seenStatus bucket s)) :
    (s3DeleteObject ⟨bucket, key, none⟩ draw s).1 = .ok ⟨true, some draw.uuid⟩ := by
  obtain ⟨cache, hseen, -⟩ := versioningStatus_eq bucket s
  have hmarker : (addDeleteMarker bucket key draw.uuid draw.now s.pool).1 =
      .ok ((deleteMarker draw.uuid draw.now).toInfo bucket key) := by
    unfold addDeleteMarker
    rw [bind_apply, Act.query_apply, hcheck]
    dsimp only
    rw [bind_ok (onDisks_each_attempt _ _)]
    rfl
  unfold s3DeleteObject
  dsimp only
  rw [bind_ok hseen, if_pos hstatus, bind_apply]
  unfold onPool
  rw [hmarker]
  rfl

/-- **The requests act as on a bucket without versioning when the status they see is none of the
two.** -/
theorem actsUnversioned_iff (hb : ValidBucket bucket)
    (hhead : headBucket bucket s.pool = .ok true) :
    ActsUnversioned bucket s ↔ ¬ Versioned (seenStatus bucket s) := by
  have hnever : ¬ Versioned (seenStatus bucket (neverVersioned bucket s)) := by
    rw [seenStatus_neverVersioned]
    rintro (h | h) <;> cases h
  constructor
  · intro h hstatus
    have hcheck : checkKey bucket "k" none s.pool = .ok () := by
      unfold checkKey
      rw [hb, hhead]
      decide
    have hsame := (h.delete ⟨bucket, "k", none⟩ ⟨"", 0⟩ rfl).1
    rw [s3DeleteObject_marker hcheck _ hstatus, s3DeleteObject_fst _ _ _ hnever] at hsame
    cases hdel : (deleteObject bucket "k" (neverVersioned bucket s).pool).1 <;>
      rw [hdel] at hsame <;> cases hsame
  · intro hstatus
    refine ⟨?_, ?_⟩
    · rintro env cfg input draw peerOk rfl
      refine ⟨?_, ?_⟩
      · rw [s3PutObject_fst _ _ _ _ _ _ hstatus, s3PutObject_fst _ _ _ _ _ _ hnever]
        rfl
      · obtain ⟨cache, hput, -⟩ := s3PutObject_snd env cfg input draw peerOk s
        obtain ⟨cache', hput', -⟩ := s3PutObject_snd env cfg input draw peerOk
          (neverVersioned input.bucket s)
        rw [hput, hput', decide_eq_false fun h => hstatus (Or.inl h),
          decide_eq_false fun h => hnever (Or.inl h)]
        rfl
    · rintro ⟨_, key, versionId⟩ draw rfl
      cases versionId with
      | some vid =>
        refine ⟨?_, ?_⟩
        · rw [s3DeleteObject_version, s3DeleteObject_version]
          rfl
        · rw [s3DeleteObject_pool, s3DeleteObject_pool]
          rfl
      | none =>
        refine ⟨?_, ?_⟩
        · rw [s3DeleteObject_fst _ _ _ hstatus, s3DeleteObject_fst _ _ _ hnever]
          rfl
        · rw [s3DeleteObject_pool, s3DeleteObject_pool]
          rw [if_neg hstatus, if_neg hnever]
          rfl

end Unversioned

/-! ## Deleting and creating again -/

section Recreation

variable {log : NeedleEnv}

/-- **What a new bucket shows**: no objects, the default fault tolerance, no versioning, policy,
lifecycle or tags, and requests that act as if it never had a versioning status. -/
structure Fresh (bucket : String) (s : S3State (WalVolume log) (n + 1)) : Prop where
  listing : ∀ opts, validateObjectPrefix opts.keyPrefix = .ok () →
    listObjects bucket opts s.pool = some (.ok ⟨[], [], false, ""⟩)
  objects : ∀ key info, headObject bucket key s.pool ≠ .ok info
  ftt : getFtt bucket s.pool.files = .ok (some (defaultFtt (n + 1)))
  versioning : getVersioningConfig bucket s.pool = .ok none
  settings : ∃ settings, getBucketSettings bucket s.pool.files = .ok settings ∧
    settings.policy = none ∧ settings.lifecycle = none ∧ settings.tags.getD [] = []
  requests : ActsUnversioned bucket s

/-- The bucket is gone, and creating it gives a new one. -/
def GoneThenFresh (bucket : String) (s : S3State (WalVolume log) (n + 1)) : Prop :=
  headBucket bucket s.pool = .ok false ∧
    ∃ location s', s3CreateBucket bucket s = (.ok location, s') ∧ Fresh bucket s'

/-- **A deleted bucket starts fresh**, whatever the workers do before it is created again. -/
def StartsFresh (bucket : String) (s : S3State (WalVolume log) (n + 1)) : Prop :=
  ∀ steps, (∀ d, BucketSpace bucket ((s.pool.afterWork steps).disks d).files) →
    GoneThenFresh bucket { s with pool := s.pool.afterWork steps }

/-- Nothing is left of the settings of a bucket but the fault tolerance. -/
structure NoSettings (left : Fin (n + 1) → BucketSettings) : Prop where
  versioning : ∀ d, (left d).versioning = none
  policy : (left 0).policy = none
  lifecycle : (left 0).lifecycle = none
  tags : (left 0).tags.getD [] = []

/-- **Nothing of the bucket is outside its directories**: the directories can be removed, no settings
other than the fault tolerance would be read again, and the service has no versioning status. -/
structure Traceless (bucket : String) (s : S3State (WalVolume log) (n + 1)) : Prop where
  removable : ∀ d, Removable bucket (s.pool.disks d).files
  settings : NoSettings fun d => LocalVolume.readBucketSettings bucket (s.pool.disks d).files
  cache : ¬ Versioned (s.versioningCache.lookup bucket).join

variable {left : Fin (n + 1) → BucketSettings} {p : Pool (WalVolume log) (n + 1)} {keyPrefix : String}
  {v : LocalVolume}

/-- A disk with an empty bucket lists nothing, -/
theorem EmptyBucket.listObjects (h : EmptyBucket bucket settings v) (hb : ValidBucket bucket)
    (hp : validateObjectPrefix keyPrefix = .ok ()) :
    LocalVolume.listObjects bucket keyPrefix v = .ok [] := by
  have hchildren : v.fs.children [bucket] = [] := by
    refine eq_nil_iff_forall_not_mem.mpr fun ⟨name, e⟩ hmem => ?_
    rw [FileTree.mem_children, h.below _ (prefix_append _ _) (by simp)] at hmem
    cases hmem
  have hwalk : ∀ fuel, walkKeys v.fs keyPrefix fuel [bucket] [] = [] := by
    intro fuel
    cases fuel with
    | zero => rfl
    | succ fuel =>
      unfold walkKeys
      rw [hchildren]
      rfl
  unfold LocalVolume.listObjects
  rw [bucketDir_ok hb]
  simp only [bind, Except.bind]
  rw [if_pos h.dir, hp]
  rw [hwalk]
  rfl

/-- and has no object. -/
theorem EmptyBucket.statObject
    (h : EmptyBucket bucket settings v) (hb : ValidBucket bucket) {key : String}
    (hk : ValidKey key) : LocalVolume.statObject bucket key v = .error .objectNotFound := by
  have hno : v.fs.isDir (bucket :: keySegments key) = false := by
    have hbelow := h.below (bucket :: keySegments key) (by simp) (by simpa using keySegments_ne_nil key)
    unfold FileTree.isDir
    rw [hbelow]
  unfold LocalVolume.statObject LocalVolume.currentVersion
  rw [objectDir_ok hb hk]
  simp only [bind, Except.bind]
  rw [if_neg (by rw [hno]; exact Bool.false_ne_true)]

/-- The log of a quiet volume lists nothing. -/
theorem Quiet.listKeys {v : WalVolume log} (h : Quiet bucket v) {t : WalTier} (ht : t ∈ v.tier)
    (keyPrefix : String) : t.wal.listKeys bucket keyPrefix = [] := by
  refine eq_nil_iff_forall_not_mem.mpr fun key hkey => ?_
  obtain ⟨⟨b, k, vid⟩, hmem, rfl⟩ := mem_map.mp (mem_dedup.mp hkey)
  obtain ⟨hk, hown⟩ := mem_filter.mp hmem
  obtain ⟨rfl, -⟩ : b = bucket ∧ _ := of_decide_eq_true hown
  have hsome := AList.lookup_isSome.mpr (AList.mem_keys.mp hk)
  rw [show t.wal.pending.lookup (b, k, vid) = none from h.pending t ht k vid] at hsome
  cases hsome

section Created

variable (hb : validateBucketName bucket = .ok ())
  (hempty : ∀ d, EmptyBucket bucket (createdSettings (n + 1) (left d)) (p.disks d).files)
include hb hempty

/-- What the disks with an empty bucket say of its versioning, -/
theorem getVersioningConfig_created : getVersioningConfig bucket p =
    .ok ((finRange (n + 1)).findSome? fun d => (left d).versioning) := by
  have hhead : headBucket bucket p = .ok true :=
    (checkBucket_ok (p := p.files) hb (hempty 0).dir).1
  unfold getVersioningConfig
  rw [hb, hhead]
  have hsettings : ∀ d, Backend.readBucketSettings bucket (p.disks d) =
      createdSettings (n + 1) (left d) := fun d => (hempty d).settings
  simp only [hsettings]
  rfl

/-- of its fault tolerance, -/
theorem getFtt_created : getFtt bucket p.files = .ok (some (defaultFtt (n + 1))) := by
  have hfirst : LocalVolume.readBucketSettings bucket (p.files.disks 0) =
      createdSettings (n + 1) (left 0) := (hempty 0).settings
  unfold getFtt
  rw [(checkBucket_ok (p := p.files) hb (hempty 0).dir).2, finRange_succ, findSome?_cons, hfirst]
  rfl

/-- and of its other settings. -/
theorem getBucketSettings_created :
    getBucketSettings bucket p.files = .ok (createdSettings (n + 1) (left 0)) := by
  have hne : createdSettings (n + 1) (left 0) ≠ .empty := by
    intro he
    have hftt := congrArg BucketSettings.ftt he
    cases hftt
  have hfirst : LocalVolume.readBucketSettings bucket (p.files.disks 0) =
      createdSettings (n + 1) (left 0) := (hempty 0).settings
  unfold getBucketSettings
  rw [(checkBucket_ok (p := p.files) hb (hempty 0).dir).2, finRange_succ, findSome?_cons]
  rw [hfirst, if_pos hne]
  rfl

variable (hquiet : ∀ d, Quiet bucket (p.disks d))
  (hcached : ((p.writeCache.map fun c => c.listKeys bucket "").getD []) = [])
include hcached

omit hb hempty in
/-- Nothing of the bucket is in the write cache. -/
theorem cachedWrite_none (key : String) : cachedWrite bucket key p = none := by
  unfold cachedWrite
  cases hc : p.writeCache with
  | none => rfl
  | some c =>
    rw [hc] at hcached
    rw [Option.bind_some, ← Option.not_isSome_iff_eq_none]
    intro hsome
    have hmem : key ∈ c.listKeys bucket "" := WriteCache.mem_listKeys.mpr ⟨hsome, nil_prefix⟩
    rw [show c.listKeys bucket "" = [] from hcached] at hmem
    cases hmem

include hquiet

theorem listedKeys_created (hp : validateObjectPrefix keyPrefix = .ok ()) :
    listedKeys bucket keyPrefix p = [] := by
  have hfirst : firstKeys bucket keyPrefix p = [] := by
    have hanswer : ∀ d, Backend.listObjects bucket keyPrefix (p.disks d) = .ok [] := by
      intro d
      change WalVolume.listObjects bucket keyPrefix (p.disks d) = _
      unfold WalVolume.listObjects
      rw [(hempty d).listObjects hb hp]
      cases ht : (p.disks d).tier with
      | none => rfl
      | some t =>
        simp only [bind, Except.bind, (hquiet d).listKeys ht]
        rfl
    unfold firstKeys
    rw [finRange_succ, findSome?_cons, hanswer 0]
    rfl
  unfold listedKeys
  rw [hfirst]
  cases hc : p.writeCache with
  | none => rfl
  | some c =>
    have hnone : c.listKeys bucket keyPrefix = [] := by
      refine eq_nil_iff_forall_not_mem.mpr fun key hkey => ?_
      have hsome := (WriteCache.mem_listKeys.mp hkey).1
      have hno := cachedWrite_none hcached key
      unfold cachedWrite at hno
      rw [hc, Option.bind_some] at hno
      rw [hno] at hsome
      cases hsome
    dsimp only
    rw [hnone]
    rfl

theorem headObject_created (key : String) (info : ObjectInfo) : headObject bucket key p ≠ .ok info := by
  intro h
  obtain ⟨⟨⟩, hcheck, h⟩ := except_bind_eq_ok.mp h
  have hstat : firstStat bucket key p = none := by
    refine findSome?_eq_none_iff.mpr fun d _ => ?_
    have hd : Backend.statObject bucket key (p.disks d) = .error .objectNotFound :=
      (WalVolume.reads_of_none fun t ht => (hquiet d).pending t ht key "").2.2.trans
        ((hempty d).statObject hb (accepted_of_check hcheck).1.key_ok)
    rw [hd]
    rfl
  rw [cachedWrite_none hcached key, hstat] at h
  cases h

end Created

/-- **What a created bucket shows**: it is a new one if what was left of the old one has no
settings, and the service no status. -/
theorem fresh_iff (hb : ValidBucket bucket) {s : S3State (WalVolume log) (n + 1)}
    (hempty : ∀ d, EmptyBucket bucket (createdSettings (n + 1) (left d)) (s.pool.disks d).files)
    (hquiet : ∀ d, Quiet bucket (s.pool.disks d))
    (hcached : ((s.pool.writeCache.map fun c => c.listKeys bucket "").getD []) = []) :
    Fresh bucket s ↔ NoSettings left ∧ ¬ Versioned (s.versioningCache.lookup bucket).join := by
  have hversioning := getVersioningConfig_created hb hempty
  have hsettings := getBucketSettings_created hb hempty
  have hhead : headBucket bucket s.pool = .ok true :=
    (checkBucket_ok (p := s.pool.files) hb (hempty 0).dir).1
  have hstatus : (∀ d, (left d).versioning = none) →
      seenStatus bucket s = (s.versioningCache.lookup bucket).join := by
    intro hnone
    cases hc : s.versioningCache.lookup bucket with
    | some config => exact seenStatus_of_cache hc
    | none =>
      have hsome : ((finRange (n + 1)).findSome? fun d => (left d).versioning) = none :=
        findSome?_eq_none_iff.mpr fun d _ => hnone d
      unfold seenStatus cachedVersioningConfig
      rw [hc, hversioning, hsome]
      rfl
  constructor
  · intro h
    have hnone : ∀ d, (left d).versioning = none := by
      intro d
      have hget := h.versioning
      rw [hversioning, Except.ok.injEq, findSome?_eq_none_iff] at hget
      exact hget d (mem_finRange d)
    obtain ⟨settings, hget, hpolicy, hlifecycle, htags⟩ := h.settings
    rw [hsettings, Except.ok.injEq] at hget
    subst hget
    refine ⟨⟨hnone, hpolicy, hlifecycle, htags⟩, ?_⟩
    rw [← hstatus hnone]
    exact (actsUnversioned_iff hb hhead).mp h.requests
  · rintro ⟨⟨hnone, hpolicy, hlifecycle, htags⟩, hcache⟩
    refine ⟨fun opts hp => ?_, headObject_created hb hempty hquiet hcached, getFtt_created hb hempty, ?_,
      ⟨_, hsettings, hpolicy, hlifecycle, htags⟩, ?_⟩
    · unfold listObjects
      rw [hb, hp, hhead]
      rw [listedKeys_created hb hempty hquiet hcached hp]
      rfl
    · rw [hversioning, findSome?_eq_none_iff.mpr fun d _ => hnone d]
    · rw [actsUnversioned_iff hb hhead, hstatus hnone]
      exact hcache

/-- **Creating a bucket that is gone** gives a new one exactly if nothing is left of its settings. -/
theorem goneThenFresh_iff (hb : ValidBucket bucket) {s : S3State (WalVolume log) (n + 1)}
    (hspace : ∀ d, BucketSpace bucket (s.pool.disks d).files)
    (hquiet : ∀ d, Quiet bucket (s.pool.disks d))
    (hcached : ((s.pool.writeCache.map fun c => c.listKeys bucket "").getD []) = []) :
    GoneThenFresh bucket s ↔ (∀ d, (s.pool.disks d).files.fs.isDir [bucket] = false) ∧
      NoSettings (fun d => LocalVolume.readBucketSettings bucket (s.pool.disks d).files) ∧
      ¬ Versioned (s.versioningCache.lookup bucket).join := by
  have hhead : headBucket bucket s.pool = .ok false ↔
      ∀ d, (s.pool.disks d).files.fs.isDir [bucket] = false := by
    rw [show headBucket bucket s.pool = headBucket bucket s.pool.files from rfl, headBucket_eq hb,
      Except.ok.injEq, any_eq_false]
    exact ⟨fun h d => Bool.eq_false_iff.mpr (h d (mem_finRange d)),
      fun h d _ => Bool.eq_false_iff.mp (h d)⟩
  unfold GoneThenFresh
  rw [hhead]
  refine and_congr_right fun hno => ?_
  obtain ⟨w, hmake, hempty⟩ := makeBucket_eq (p := s.pool.files) hb hspace hno
  let made : S3State (WalVolume log) (n + 1) :=
    ⟨{ s.pool with disks := fun d => { s.pool.disks d with files := w d } }, s.versioningCache⟩
  have hcreate : s3CreateBucket bucket s = (.ok ("/" ++ bucket), made) := by
    have hrun : onPool (onPoolFiles (makeBucket bucket)) s = (.ok (), made) := by
      unfold onPool onPoolFiles
      rw [hmake]
      rfl
    unfold s3CreateBucket
    rw [bind_ok hrun]
    rfl
  have hfresh : Fresh bucket made ↔ _ :=
    fresh_iff hb hempty (fun d => ⟨(hquiet d).pending, (hquiet d).waiting⟩) hcached
  refine Iff.trans ?_ hfresh
  constructor
  · rintro ⟨location, s', hcreate', h⟩
    rw [hcreate, Prod.mk.injEq] at hcreate'
    rw [hcreate'.2]
    exact h
  · intro h
    exact ⟨_, made, hcreate, h⟩

/-- With the checksum of the object below. -/
def bucketEnv : Env := { sampleEnv with
  xxh64 := fun data => if data = utf8 "x" then 6665539201184043299 else 0 }

/-- A service with one empty disk, after `bkt` was created. -/
def newBucket : S3State (WalVolume plainNeedleEnv) 1 :=
  (s3CreateBucket "bkt" ⟨⟨fun _ => ⟨⟨FileTree.empty, "v0", []⟩, none⟩, none, none⟩, ∅⟩).2

/-- A bucket in which an object was stored and deleted. -/
def usedBucket (key : String) : S3State (WalVolume plainNeedleEnv) 1 :=
  (s3DeleteObject ⟨"bkt", key, none⟩ ⟨"00000000-0000-4000-8000-000000000002", 1700000002⟩
    (s3PutObject bucketEnv oneConfig ⟨"bkt", key, none, none, none, none, some [.ok (utf8 "x")]⟩
      ⟨"00000000-0000-4000-8000-000000000001", 1700000001⟩ true newBucket).2).2

/-- A bucket with versioning enabled. -/
def versionedBucket : S3State (WalVolume plainNeedleEnv) 1 :=
  (s3PutBucketVersioning "bkt" "Enabled" newBucket).2

/-- `BucketSpace` of `bkt`, so that it can be evaluated. -/
theorem bucketSpace_of {v : LocalVolume} (h : v.faults = [] ∧ v.Sane ∧ v.fs.read ["bkt"] = none ∧
      (∀ q ∈ (settingsDir "bkt").inits, v.fs.read q = none) ∧
      v.fs.isDir (settingsDir "bkt" ++ ["settings.json"]) = false) : BucketSpace "bkt" v := by
  obtain ⟨hcalm, hsane, hdir, hclear, hfree⟩ := h
  exact ⟨hcalm, hsane, hdir, fun q hq => hclear q ((mem_inits q _).mpr hq), hfree⟩

/-- A log that reads the metadata of `k` back. -/
def bucketLog : NeedleEnv := { plainNeedleEnv with
  fromSlice := fun _ => .ok (shardMeta bucketEnv
    (putRequest ⟨"bkt", "k", none, none, none, none, none⟩ ⟨"", 1700000001⟩ false)
    (⟨1, "local-set", 1, 0, []⟩ : PlacementRecord 1) 0 0 (utf8 "x") (utf8 "x")) }

/-- **A worker brings back what is deleted.** The object `k` waits in the log when it and its bucket are
deleted. -/
theorem logged_bucket_comes_back :
    let created : S3State (WalVolume bucketLog) 1 :=
      (s3CreateBucket "bkt" ⟨⟨fun _ => ⟨⟨FileTree.empty, "v0", []⟩, some emptyLog⟩, none, none⟩, ∅⟩).2
    let stored := s3PutObject bucketEnv oneConfig
      ⟨"bkt", "k", none, none, none, none, some [.ok (utf8 "x")]⟩ ⟨"", 1700000001⟩ true created
    let deleted := s3DeleteObject ⟨"bkt", "k", none⟩ ⟨"", 1700000002⟩ stored.2
    let after := s3DeleteBucket "bkt" deleted.2
    stored.1.isOk = true ∧ deleted.1.isOk = true ∧
      headObject "bkt" "k" deleted.2.pool = .error .objectNotFound ∧
      (headObject "bkt" "k" (deleted.2.pool.afterWork fun _ => [0])).isOk = true ∧ after.1 = .ok () ∧
      headBucket "bkt" after.2.pool = .ok false ∧
      headBucket "bkt" (after.2.pool.afterWork fun _ => [0]) = .ok true := by
  decide +kernel

end Recreation

end Abixio
