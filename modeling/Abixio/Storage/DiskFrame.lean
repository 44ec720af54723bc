import Abixio.Multipart.Upload
import Abixio.Storage.CacheFrame
import Abixio.Storage.WriterMoves
import Abixio.Storage.HealthyDisks

/-!
# What a request on one key leaves alone

The requests of `src/storage/volume_pool.rs` and `src/multipart/mod.rs` on a key work below the directory
of the object, in the staging area of the uploads, and on the directories above. `ChangedBelow` says so
about one local volume (`src/storage/local_volume.rs`), and holds whatever the calls answer.

Keys are `Apart` when neither path leads to the other. The GETs of a key apart from the request read
the same as before (`ChangedBelow.sameContent`). Nested keys are not apart: deleting `a` removes the
directory of `a/b` too.
-/

namespace Abixio

open Lib List LocalVolume Act FileTree

variable {bucket key : String} {n : Nat}

/-- Where uploads are staged. -/
def stagingRoot : Path := [".abixio.sys", "multipart"]

/-- What a request may change: the paths below `dir`, if `dir` is in a bucket, and the staged files. -/
def OwnArea (dir q : Path) : Prop :=
  (dir <+: q ∧ q.head? ≠ some ".abixio.sys") ∨ stagingRoot <+: q

/-- **Only what is below `dir`, staged files and the directories above `dir` changed.** A volume without
faults has none afterwards. -/
structure ChangedBelow (dir : Path) (v v' : LocalVolume) : Prop where
  keeps : FileTree.KeepsOutside (OwnArea dir) dir v.fs v'.fs
  calm : v.faults = [] → v'.faults = []

/-- The same with the staged files below `stage` alone. -/
def RequestArea (stage dir q : Path) : Prop :=
  (dir <+: q ∧ q.head? ≠ some ".abixio.sys") ∨ stage <+: q

/-- **Only what is below `dir` or `stage` and the directories above `dir` changed.** -/
structure ChangedFor (stage dir : Path) (v v' : LocalVolume) : Prop where
  rest : FileTree.KeepsRest (RequestArea stage dir) dir v.fs v'.fs
  calm : v.faults = [] → v'.faults = []

section Calls

variable {stage dir p : Path}

instance : Std.Refl (ChangedFor stage dir) := ⟨fun v => ⟨.refl v.fs, id⟩⟩

instance : IsTrans LocalVolume (ChangedFor stage dir) :=
  ⟨fun _ _ _ h h' => ⟨h.rest.trans h'.rest, fun hv => h'.calm (h.calm hv)⟩⟩

theorem bucket_ne_system {bucket : String} (hb : ValidBucket bucket) : bucket ≠ ".abixio.sys" := by
  rintro rfl
  exact absurd hb (by decide)

/-- Everything below a bucket's directory, for a path in that bucket. -/
theorem requestArea_of_bucket {bucket : String} {rest q : Path} (hb : ValidBucket bucket)
    (hq : bucket :: rest <+: q) : RequestArea stage (bucket :: rest) q := by
  refine Or.inl ⟨hq, ?_⟩
  obtain ⟨tail, rfl⟩ := hq
  simpa using bucket_ne_system hb

theorem fsCall_changes {op : FileTree FileData → Option (FileTree FileData)}
    (h : ∀ fs fs', op fs = some fs' → FileTree.KeepsRest (RequestArea stage dir) dir fs fs') :
    Act.Moves (ChangedFor stage dir) (fsCall op) := by
  intro v
  unfold fsCall
  split
  · rename_i hfaults
    refine ⟨.refl v.fs, fun hcalm => ?_⟩
    rw [hcalm] at hfaults
    cases hfaults
  · split
    · rename_i fs' hop
      exact ⟨h v.fs fs' hop, fun hcalm => by rw [hcalm]; rfl⟩
    · exact ⟨.refl v.fs, fun hcalm => by rw [hcalm]; rfl⟩

theorem createDirAll_changes (hown : ∀ q, dir <+: q → RequestArea stage dir q) (h : dir <+: p) :
    Act.Moves (ChangedFor stage dir) (createDirAll p) := by
  refine fsCall_changes fun fs fs' hop => keeps_createDirAll hop fun q hq => ?_
  rcases prefix_or_prefix_of_prefix hq h with hway | hbelow
  · exact Or.inr hway
  · exact Or.inl (hown q hbelow)

theorem createFile_changes (h : RequestArea stage dir p) : Act.Moves (ChangedFor stage dir) (createFile p) :=
  fsCall_changes fun _ _ hop => keeps_writeFile hop h

theorem writeAll_changes (h : RequestArea stage dir p) (data : Bytes) :
    Act.Moves (ChangedFor stage dir) (writeAll p data) := by
  refine fsCall_changes fun fs fs' hop => ?_
  cases hop
  exact keeps_modifyFile _ h

theorem writeWhole_changes (h : RequestArea stage dir p) (content : FileData) :
    Act.Moves (ChangedFor stage dir) (writeWhole p content) := by
  refine .andThen (createFile_changes h) fun _ => fsCall_changes fun fs fs' hop => ?_
  cases hop
  exact keeps_modifyFile _ h

theorem removeDirAll_changes (h : ∀ q, p <+: q → RequestArea stage dir q) :
    Act.Moves (ChangedFor stage dir) (fsCall fun fs => fs.removeDirAll p) :=
  fsCall_changes fun _ _ hop => keeps_removeDirAll hop h

end Calls

/-! ## The volume -/

variable {dir : Path}

namespace LocalVolume

variable {stage : Path}

/-- The directory of an object, and what is below it. -/
theorem objectDir_own (h : Abixio.objectDir bucket key = .ok dir) : dir = objectPath bucket key ∧
      ∀ q, objectPath bucket key <+: q → RequestArea stage (objectPath bucket key) q := by
  obtain ⟨hb, hdir⟩ := objectDir_eq_ok h
  exact ⟨hdir, fun q hq => requestArea_of_bucket hb hq⟩

theorem versionDir_own {vid : String} (h : versionDir bucket key vid = .ok dir) :
    objectPath bucket key <+: dir ∧
      ∀ q, objectPath bucket key <+: q → RequestArea stage (objectPath bucket key) q := by
  obtain ⟨obj, hobj, rfl, -, -⟩ := versionDir_ok h
  obtain ⟨rfl, hown⟩ := objectDir_own hobj
  exact ⟨prefix_append _ _, hown⟩

variable {p : Path}

/-- A file in the directory of an object. -/
theorem objectDir_area {name : String} (h : (objectDir bucket key >>= fun dir => .ok (dir ++ [name])) = .ok p) :
    RequestArea stage (objectPath bucket key) p := by
  obtain ⟨dir, hobj, ⟨⟩⟩ := except_bind_eq_ok.mp h
  obtain ⟨rfl, hown⟩ := objectDir_own hobj
  exact hown _ (prefix_append _ _)

theorem versionShardPath_area {vid : String} (h : versionShardPath bucket key vid = .ok p) :
    RequestArea stage (objectPath bucket key) p := by
  obtain ⟨dir, hdir, ⟨⟩⟩ := except_bind_eq_ok.mp h
  obtain ⟨hbelow, hown⟩ := versionDir_own hdir
  exact hown _ (hbelow.trans (prefix_append _ _))

/-- What is known of an open writer. -/
def WriterIn (stage : Path) (bucket key : String) (w : LocalShardWriter) : Prop :=
  w.bucket = bucket ∧ w.key = key ∧ RequestArea stage (objectPath bucket key) w.path

theorem openShardWriter_runs (vid : Option String) : Act.Runs (ChangedFor stage (objectPath bucket key))
    (WriterIn stage bucket key) (openShardWriter bucket key vid) := by
  cases vid with
  | some vid =>
    refine .ofExcept_bind fun dir hdir => ?_
    obtain ⟨hbelow, hown⟩ := versionDir_own hdir
    refine .andThen (createDirAll_changes hown hbelow) fun _ => .ofExcept_bind fun path hpath => ?_
    have harea : RequestArea stage (objectPath bucket key) path := versionShardPath_area hpath
    exact .andThen (createFile_changes harea) fun _ => .pure ⟨rfl, rfl, harea⟩
  | none =>
    refine .ofExcept_bind fun dir hdir => ?_
    obtain ⟨rfl, hown⟩ := objectDir_own hdir
    refine .andThen (createDirAll_changes hown (prefix_refl _)) fun _ => .ofExcept_bind fun path hpath => ?_
    have harea : RequestArea stage (objectPath bucket key) path := objectDir_area hpath
    exact .andThen (createFile_changes harea) fun _ => .pure ⟨rfl, rfl, harea⟩

theorem finalize_changes {w : LocalShardWriter} (hw : WriterIn stage bucket key w) (m : ObjectMeta) :
    Act.Moves (ChangedFor stage (objectPath bucket key)) (finalize w m) := by
  obtain ⟨rfl, rfl, -⟩ := hw
  refine .andThen (fsCall_changes fun fs fs' hop => ?_) fun _ => .ofExcept_bind fun p hp => ?_
  · cases hop
    exact .refl fs
  · cases w.versionId with
    | some vid =>
      exact .andThen (.read _) fun _ => writeWhole_changes (objectDir_area hp) _
    | none => exact writeWhole_changes (objectDir_area hp) _

theorem writeBoth_changes {a b : VolAct LocalVolume Unit}
    (ha : Act.Moves (ChangedFor stage dir) a) (hb : Act.Moves (ChangedFor stage dir) b) :
    Act.Moves (ChangedFor stage dir) (writeBoth a b) :=
  .andThen ha.attempt fun _ => .andThen hb.attempt fun _ => .andThen (.ofExcept _) fun _ => .ofExcept _

theorem writeShard_changes (data : Bytes) (m : ObjectMeta) :
    Act.Moves (ChangedFor stage (objectPath bucket key)) (writeShard bucket key data m) := by
  refine .andThen (.ofExcept _) fun _ => .andThen (.ofExcept _) fun _ => .ofExcept_bind fun dir hdir => ?_
  obtain ⟨rfl, hown⟩ := objectDir_own hdir
  refine .andThen (createDirAll_changes hown (prefix_refl _)) fun _ => ?_
  split
  · exact writeWhole_changes (hown _ (prefix_append _ _)) _
  · exact writeBoth_changes (writeWhole_changes (hown _ (prefix_append _ _)) _)
      (writeWhole_changes (hown _ (prefix_append _ _)) _)

theorem writeMetaVersions_changes (versions : List ObjectMeta) :
    Act.Moves (ChangedFor stage (objectPath bucket key)) (writeMetaVersions bucket key versions) := by
  refine .ofExcept_bind fun dir hdir => ?_
  obtain ⟨rfl, hown⟩ := objectDir_own hdir
  exact .andThen (createDirAll_changes hown (prefix_refl _)) fun _ =>
    writeWhole_changes (hown _ (prefix_append _ _)) _

theorem deleteObject_changes :
    Act.Moves (ChangedFor stage (objectPath bucket key)) (deleteObject bucket key) := by
  refine .ofExcept_bind fun dir hdir => .andThen (.read _) fun found => ?_
  obtain ⟨rfl, hown⟩ := objectDir_own hdir
  cases found with
  | true => exact removeDirAll_changes hown
  | false => exact .fail _

theorem deleteVersionData_changes (vid : String) :
    Act.Moves (ChangedFor stage (objectPath bucket key)) (deleteVersionData bucket key vid) := by
  refine .ofExcept_bind fun dir hdir => .andThen (.read _) fun found => ?_
  obtain ⟨hbelow, hown⟩ := versionDir_own hdir
  cases found
  case' true => refine .andThen (removeDirAll_changes fun q hq => hown q (hbelow.trans hq)) fun _ => ?_
  -- the rest of the call, after the version's directory
  all_goals
    refine .ofExcept_bind fun p hp => .andThen (.read _) fun mf => ?_
    cases mf with
    | some mf => exact .andThen (writeWhole_changes (objectDir_area hp) _).attempt fun _ => .pure _
    | none => exact .pure _

end LocalVolume

/-! ## The disks -/

section Disks

variable {V W : Type} [Backend V W] {R : V → V → Prop} [Std.Refl R] [IsTrans V R] {Q : W → Prop}
  {req : PutRequest} (env : Env)

section Streaming

variable (h : WriterMoves R Q req.bucket req.key req.versionId)
include h

variable (hfinal : ∀ w, Q w → ∀ m, Act.Moves R (Backend.finalize w m : VolAct V Unit))
  (hdelete : Act.Moves R (Backend.deleteObject req.bucket req.key : VolAct V Unit))

include hfinal in
theorem encodeOnePlusZero_moves (record : PlacementRecord n) (body : Body) :
    Act.Moves R (encodeOnePlusZero env req record body : VolAct V ObjectInfo) :=
  (streamOnePlusZero_runs h body).1.bind (streamOnePlusZero_runs h body).2 fun _ hw =>
    .andThen (hfinal _ hw _) fun _ => .pure _

omit h in
include hfinal hdelete in
theorem commitShards_moves (dataN parityN : Nat) (record : PlacementRecord n) {st : EncodeState W n}
    (hst : ∀ w ∈ st.writers, Q w.2) :
    Act.Moves (Act.Pointwise R) (commitShards env dataN parityN req record st) := by
  refine .andThen (.each fun p hp => ?_) fun results => ?_
  · have hmem := of_mem_zip (fst_mem_of_mem_zipIdx hp)
    exact (hfinal _ (hst _ hmem.1) _).attempt.at _
  · dsimp only
    split
    · exact .andThen (.andThen (.each fun d _ => hdelete.attempt.at d) fun _ => .pure _) fun _ => .fail _
    · exact .pure _

include hfinal hdelete in
/-- **A whole PUT moves every disk along `R`**, if opening, writing and finalizing a shard do, and the
delete that undoes it. -/
theorem encodeAndWrite_moves (planner : PoolPlanner n) (dataN parityN : Nat) (body : Body) :
    Act.Moves (Act.Pointwise R) (encodeAndWrite env planner dataN parityN req body) := by
  refine .ofExcept_bind fun record _ => ?_
  split
  · cases record.shards with
    | nil => exact .fail _
    | cons shard rest =>
      exact .andThen ((encodeOnePlusZero_moves env h hfinal record body).at _) fun _ => .pure _
  · refine .andThen (.ofExcept _) fun _ => ?_
    exact (encodeBody_runs h env dataN parityN _ body).1.bind (encodeBody_runs h env dataN parityN _ body).2
      fun st hst => commitShards_moves env hfinal hdelete dataN parityN record hst

end Streaming

end Disks

/-! ## Requests -/

variable {uploadId : String}

section Requests

variable {stage : Path}

/-- Every disk changed below `dir` and `stage` only. -/
def DisksFor (stage dir : Path) (p p' : Pool LocalVolume n) : Prop :=
  Act.Pointwise (ChangedFor stage dir) p.disks p'.disks

instance {dir : Path} : Std.Refl (DisksFor stage dir : Pool LocalVolume n → Pool LocalVolume n → Prop) :=
  ⟨fun p => refl_of (Act.Pointwise (ChangedFor stage dir)) p.disks⟩

instance {dir : Path} : IsTrans (Pool LocalVolume n) (DisksFor stage dir) :=
  ⟨fun _ _ _ h h' => IsTrans.trans (r := Act.Pointwise (ChangedFor stage dir)) _ _ _ h h'⟩

variable {dir : Path}

/-- **What a request may touch**: the cache entries of the keys in `own`, and on every disk the paths
below `dir` and `stage`. -/
structure Touches (own : CacheKey → Prop) (stage dir : Path) (p p' : Pool LocalVolume n) : Prop where
  caches : KeepsOthers own p p'
  disks : DisksFor stage dir p p'

variable {own : CacheKey → Prop}

instance : Std.Refl (Touches own stage dir : Pool LocalVolume n → Pool LocalVolume n → Prop) :=
  ⟨fun p => ⟨refl_of (KeepsOthers own) p, refl_of (DisksFor stage dir) p⟩⟩

instance : IsTrans (Pool LocalVolume n) (Touches own stage dir) :=
  ⟨fun _ _ _ h h' => ⟨IsTrans.trans _ _ _ h.caches h'.caches, IsTrans.trans _ _ _ h.disks h'.disks⟩⟩

variable {α : Type}

theorem onDisks_touches {x : PoolAct LocalVolume n α}
    (h : Act.Moves (Act.Pointwise (ChangedFor stage dir)) x) :
    Act.Moves (Touches own stage dir) (onDisks x) := fun p => ⟨onDisks_keeps x p, h p.disks⟩

/-- A change of the caches alone. -/
theorem modify_touches {f : Pool LocalVolume n → Pool LocalVolume n}
    (hcaches : ∀ p, KeepsOthers own p (f p)) (hdisks : ∀ p, (f p).disks = p.disks) :
    Act.Moves (Touches own stage dir) (Act.modify f : PoolOp LocalVolume n Unit) := by
  refine fun p => ⟨hcaches p, ?_⟩
  unfold DisksFor
  rw [modify_apply, hdisks]
  exact refl_of (Act.Pointwise (ChangedFor stage dir)) p.disks

theorem eachDisk_touches {x : Fin n → VolAct LocalVolume α}
    (h : ∀ d, Act.Moves (ChangedFor stage dir) (x d)) : Act.Moves (Touches own stage dir)
      (onDisks (Act.each (fun d => Act.at d (x d)) (List.finRange n))) :=
  onDisks_touches (.each fun d _ => (h d).at d)

variable (env : Env) (cfg : PoolConfig n)

theorem writerMoves_frames (vid : Option String) :
    WriterMoves (ChangedFor stage (objectPath bucket key)) (WriterIn stage bucket key) bucket key vid where
  open_moves := (openShardWriter_runs vid).1
  open_returns := (openShardWriter_runs vid).2
  chunk_moves := fun _ hw data => .andThen (writeAll_changes hw.2.2 data) fun _ => .pure _
  chunk_returns := by
    intro w hw data v w' v' h
    obtain ⟨_, _, -, hret⟩ := Act.bind_eq_ok.mp h
    cases hret
    exact hw

theorem encodeAndWrite_touches (req : PutRequest) (planner : PoolPlanner n) (dataN parityN : Nat)
    (body : Body) : Act.Moves (Touches own stage (objectPath req.bucket req.key))
      (onDisks (encodeAndWrite env planner dataN parityN req body)) :=
  onDisks_touches (encodeAndWrite_moves env (writerMoves_frames req.versionId)
    (fun _ hw m => finalize_changes hw m) deleteObject_changes planner dataN parityN
    body)

theorem putSmall_touches (req : PutRequest) (peerOk : Bool) (body : Body) :
    Act.Moves (Touches (· = (req.bucket, req.key)) stage (objectPath req.bucket req.key))
      (putSmall env cfg req peerOk body : PoolOp LocalVolume n ObjectInfo) := by
  refine .andThen (.ofExcept _) fun data => .andThen (.query _) fun ec => .andThen (.ofExcept _)
    fun shards => .andThen (.ofExcept _) fun record =>
      .andThen (modify_touches (put_keeps _) fun _ => rfl) fun _ =>
        .andThen (fun p => ⟨cacheSmall_keeps req peerOk _ p, ?_⟩) fun taken => ?_
  · unfold cacheSmall
    cases p.writeCache.bind fun c => if peerOk then c.inserted req.bucket req.key _ else none with
    | none => exact refl_of (DisksFor stage _) p
    | some c => exact refl_of (Act.Pointwise (ChangedFor stage _)) p.disks
  · cases taken with
    | true => exact .pure _
    | false =>
      refine .andThen (onDisks_touches (.each fun s _ => (writeShard_changes s.1.2 s.2).attempt.at _))
        fun results => ?_
      split
      · exact .fail _
      · exact .pure _

theorem putObjectStream_touches (req : PutRequest) (peerOk : Bool) (body : Body) :
    Act.Moves (Touches (· = (req.bucket, req.key)) stage (objectPath req.bucket req.key))
      (putObjectStream env cfg req peerOk body : PoolOp LocalVolume n (ObjectInfo × List MrfEntry)) := by
  refine .andThen (.query _) fun _ => .andThen (modify_touches invalidate_keeps fun _ => rfl) fun _ => ?_
  split
  · exact .andThen (putSmall_touches env cfg req peerOk body) fun _ => .pure _
  · exact .andThen (.query _) fun _ => encodeAndWrite_touches env req _ _ _ body

theorem putObject_touches (req : PutRequest) (data : Bytes) :
    Act.Moves (Touches (· = (req.bucket, req.key)) stage (objectPath req.bucket req.key))
      (putObject env cfg req data : PoolOp LocalVolume n (ObjectInfo × List MrfEntry)) := by
  refine .andThen (.query _) fun _ => .andThen (.query _) fun ec => .andThen (Act.Moves.attempt ?_)
    fun _ => .andThen (modify_touches invalidate_keeps fun _ => rfl) fun _ => .ofExcept _
  exact encodeAndWrite_touches env { req with contentLength := some data.length } _ _ _ _

theorem deleteObject_touches : Act.Moves (Touches (· = (bucket, key)) stage (objectPath bucket key))
    (deleteObject bucket key : PoolOp LocalVolume n Unit) := by
  exact .andThen (.ofExcept _) fun _ => .andThen (.ofExcept _) fun _ => .andThen (.read _) fun _ =>
    .andThen (modify_touches remove_keeps fun _ => rfl) fun _ => .andThen (.read _) fun _ =>
      .andThen (eachDisk_touches fun _ => deleteObject_changes.attempt) fun _ => .ofExcept _

theorem deleteObjectVersion_touches (vid : String) :
    Act.Moves (Touches (· = (bucket, key)) stage (objectPath bucket key))
      (deleteObjectVersion bucket key vid : PoolOp LocalVolume n Unit) := by
  exact .andThen (.query _) fun _ =>
    .andThen (eachDisk_touches fun _ => (deleteVersionData_changes vid).attempt) fun _ =>
      modify_touches invalidate_keeps fun _ => rfl

theorem addDeleteMarker_touches (vid : String) (now : Nat) :
    Act.Moves (Touches (· = (bucket, key)) stage (objectPath bucket key))
      (addDeleteMarker bucket key vid now : PoolOp LocalVolume n ObjectInfo) := by
  have hpush : ∀ marker, Act.Moves (ChangedFor stage (objectPath bucket key))
      (pushMarker bucket key marker : VolAct LocalVolume Unit) := fun marker =>
    .andThen (.read _) fun _ => writeMetaVersions_changes _
  exact .andThen (.query _) fun _ => .andThen (eachDisk_touches fun _ => (hpush _).attempt) fun _ =>
    .andThen (modify_touches invalidate_keeps fun _ => rfl) fun _ => .pure _

/-! ### Uploads -/

/-- Where the uploads of a key are staged. -/
def uploadsDir (bucket key : String) : Path := stagingRoot ++ bucket :: keySegments key

variable (h : multipartUploadDir bucket key uploadId = .ok dir)

include h in
theorem accepted_of_uploadDir :
    ValidBucket bucket ∧ ValidKey key ∧ validateUploadId uploadId = .ok () ∧
      safeJoin ([".abixio.sys", "multipart", bucket] ++ keySegments key ++ [uploadId]) = .ok dir := by
  obtain ⟨⟨⟩, hb, h⟩ := except_bind_eq_ok.mp h
  obtain ⟨⟨⟩, hk, h⟩ := except_bind_eq_ok.mp h
  obtain ⟨⟨⟩, hu, hjoin⟩ := except_bind_eq_ok.mp h
  exact ⟨hb, hk, hu, hjoin⟩

include h in
theorem multipartUploadDir_eq : dir = uploadsDir bucket key ++ [uploadId] := by
  obtain ⟨hb, hk, hu, hjoin⟩ := accepted_of_uploadDir h
  have hparts : ∀ part ∈ [".abixio.sys", "multipart", bucket] ++ keySegments key ++ [uploadId],
      isPlainPart part = true := by
    intro part hpart
    simp only [mem_append, mem_cons, not_mem_nil, or_false] at hpart
    rcases hpart with ((rfl | rfl | rfl) | hseg) | rfl
    · decide
    · decide
    · exact isPlainPart_of_bucket hb
    · exact isPlainPart_of_key hk hseg
    · exact isPlainPart_of_check (P := (validateUploadId · = .ok ())) hu (by decide)
  unfold safeJoin at hjoin
  rw [normalizePath_plain [] hparts] at hjoin
  rw [← Except.ok.inj hjoin]
  simp [uploadsDir, stagingRoot]

include h in
theorem multipartUploadDir_staged : stagingRoot <+: dir := by
  rw [multipartUploadDir_eq h, uploadsDir, append_assoc]
  exact prefix_append _ _

theorem moveStaged_changes {src dst : Path} (hsrc : RequestArea stage dir src) (hdst : RequestArea stage dir dst) :
    Act.Moves (ChangedFor stage dir) (moveStaged src dst) := by
  refine .andThen (.read _) fun found => ?_
  split
  · refine .andThen (Act.Moves.attempt (fsCall_changes fun _ _ hop =>
      keeps_renameFile hop hsrc hdst)) fun moved => ?_
    cases moved with
    | ok u => exact .pure _
    | error e =>
      refine .andThen (.read _) fun data => ?_
      cases data with
      | none => exact .pure _
      | some data =>
        exact .andThen (writeWhole_changes hdst data).attempt fun _ =>
          .andThen (Act.Moves.attempt (fsCall_changes fun _ _ hop =>
            keeps_removeFile hop hsrc)) fun _ => .pure _
  · exact .pure _

section Object

variable (hown : ∀ q, objectPath bucket key <+: q → RequestArea stage (objectPath bucket key) q)
include hown

theorem completePart_moves {dataDir : String} (hdir : stage <+: dir) (number : Int) :
    Act.Moves (Act.Pointwise (ChangedFor stage (objectPath bucket key)))
      (completePart (dir ++ [dataDir]) (objectPath bucket key) number : PoolAct LocalVolume n PartEntry) := by
  have hsrc : ∀ name, RequestArea stage (objectPath bucket key) (dir ++ [dataDir] ++ [name]) := fun name =>
    Or.inr ((hdir.trans (prefix_append _ _)).trans (prefix_append _ _))
  have hmove : Act.Moves (ChangedFor stage (objectPath bucket key))
      (movePart (dir ++ [dataDir]) (objectPath bucket key) number) :=
    .andThen (createDirAll_changes hown (prefix_refl _)).attempt fun _ =>
      .andThen (moveStaged_changes (hsrc _) (hown _ (prefix_append _ _))) fun _ =>
        moveStaged_changes (hsrc _) (hown _ (prefix_append _ _))
  refine .andThen (.read _) fun found => ?_
  cases found with
  | none => exact .fail _
  | some pm => exact .andThen (.each fun d _ => hmove.at d) fun _ => .pure _

theorem writeCompleted_changes (m : ObjectMeta) (d : Fin n) :
    Act.Moves (ChangedFor stage (objectPath bucket key))
      (writeCompleted bucket key (objectPath bucket key) m d) :=
  .andThen (createDirAll_changes hown (prefix_refl _)).attempt fun _ =>
    writeWhole_changes (hown _ (prefix_append _ _)) _

end Object

theorem completeUpload_touches (uploadId : String) (hstage : stage <+: uploadsDir bucket key)
    (requested : List (Int × String)) (now : Nat) :
    Act.Moves (Touches own stage (objectPath bucket key))
      (onDisks (completeUpload bucket key uploadId env requested now) : PoolOp LocalVolume n ObjectInfo) := by
  apply onDisks_touches
  refine .andThen (.ofExcept _) fun _ => .andThen (.ofExcept _) fun _ => .andThen (.ofExcept _) fun _ =>
    .andThen (.query _) fun listed => ?_
  obtain ⟨upload, available⟩ := listed
  dsimp only
  split
  · refine .ofExcept_bind fun dir hdir => .ofExcept_bind fun obj hobj => ?_
    have hstaged : stage <+: dir := by
      rw [multipartUploadDir_eq hdir]
      exact hstage.trans (prefix_append _ _)
    obtain ⟨rfl, hown⟩ := objectDir_own hobj
    refine .andThen (.each fun r _ => completePart_moves hown hstaged r.1) fun parts =>
      .andThen (.each fun d _ => (writeCompleted_changes hown _ d).attempt.at d) fun results => ?_
    split
    · exact .fail _
    · refine .andThen (.each fun d _ => Act.Moves.at (Act.Moves.attempt ?_) d) fun _ => .pure _
      exact removeDirAll_changes fun q hq => Or.inr (hstaged.trans hq)
  · exact .fail _

/-- The frame in terms of the whole staging area. -/
theorem ChangedFor.below {v v' : LocalVolume} (hstage : stagingRoot <+: stage)
    (h : ChangedFor stage dir v v') : ChangedBelow dir v v' := by
  refine ⟨h.rest.outside.mono fun q hq => ?_, h.calm⟩
  exact hq.imp_right hstage.trans

end Requests

/-! ## Other keys -/

/-- Neither path leads to the other. -/
def Apart (dir : Path) (bucket key : String) : Prop :=
  ¬ dir <+: objectPath bucket key ∧ ¬ objectPath bucket key <+: dir

section Others

variable {dir : Path} {v v' : LocalVolume} {q : Path}

/-- The files of a key apart from the request are outside its area. -/
theorem Apart.not_area (h : Apart dir bucket key) (hb : ValidBucket bucket)
    (hq : objectPath bucket key <+: q) : ¬ OwnArea dir q := by
  rintro (⟨hown, -⟩ | hstaged)
  · rcases prefix_or_prefix_of_prefix hown hq with hp | hp
    · exact h.1 hp
    · exact h.2 hp
  · obtain ⟨rest, rfl⟩ := hstaged
    exact bucket_ne_system hb (cons_prefix_cons.mp hq).1

variable (h : ChangedBelow dir v v') (hapart : Apart dir bucket key)

include h hapart in
/-- The current version of the other key. -/
theorem ChangedBelow.currentVersion (ha : Accepted bucket key none) :
    LocalVolume.currentVersion bucket key v' = LocalVolume.currentVersion bucket key v := by
  have hdir : v'.fs.isDir (objectPath bucket key) = v.fs.isDir (objectPath bucket key) :=
    h.keeps.isDir (hapart.not_area ha.bucket_ok (prefix_refl _)) hapart.2
  have hmeta : readMetaFile v'.fs (metaFile bucket key) =
      readMetaFile v.fs (metaFile bucket key) := by
    unfold readMetaFile
    rw [h.keeps.read (hapart.not_area ha.bucket_ok (prefix_append _ _))]
  unfold LocalVolume.currentVersion
  rw [ha.objectDir]
  simp only [bind, Except.bind, hdir, hmeta]

include h hapart in
theorem ChangedBelow.readShardFile (hb : ValidBucket bucket) (hq : objectPath bucket key <+: q) :
    LocalVolume.readShardFile q v' = LocalVolume.readShardFile q v := by
  unfold LocalVolume.readShardFile readBytes
  rw [h.keeps.read (hapart.not_area hb hq)]

theorem shardPathOf_below {m : ObjectMeta}
    (h : shardPathOf bucket key m = .ok q) (ha : Accepted bucket key none) :
    objectPath bucket key <+: q := by
  unfold shardPathOf at h
  split_ifs at h
  · rw [objectShardPath_eq ha.objectDir] at h
    rw [← Except.ok.inj h]
    exact prefix_append _ _
  · rw [ha.versionShardPath h, append_assoc]
    exact prefix_append _ _

include h hapart in
/-- **GETs of a key apart from the request read the same.** -/
theorem ChangedBelow.sameContent (ha : Accepted bucket key none) : SameContent bucket key v v' := by
  have hcur := h.currentVersion hapart ha
  have hfile : ∀ {m : ObjectMeta} {q : Path}, shardPathOf bucket key m = .ok q →
      LocalVolume.readShardFile q v' = LocalVolume.readShardFile q v :=
    fun hq => h.readShardFile hapart ha.bucket_ok (shardPathOf_below hq ha)
  have hbelow : ∀ name, v'.fs.read (objectPath bucket key ++ [name]) =
      v.fs.read (objectPath bucket key ++ [name]) :=
    fun name => h.keeps.read (hapart.not_area ha.bucket_ok (prefix_append _ _))
  obtain ⟨hread, hmmap⟩ := readShard_of_current hcur fun m q _ _ hq => hfile hq
  refine ⟨hread, hmmap, ?_, fun number => ?_, ?_⟩
  · change LocalVolume.statObject bucket key v' = LocalVolume.statObject bucket key v
    unfold LocalVolume.statObject
    rw [hcur]
  · change readPart bucket key number v' = readPart bucket key number v
    unfold readPart
    simp only [ha.objectDir, readBytes, hbelow]
  · change LocalVolume.readBucketSettings bucket v' = LocalVolume.readBucketSettings bucket v
    have hsettings : ¬ OwnArea dir [".abixio.sys", "buckets", bucket, "settings.json"] := by
      rintro (⟨-, hhead⟩ | hstaged)
      · exact hhead rfl
      · exact absurd (cons_prefix_cons.mp (cons_prefix_cons.mp hstaged).2).1 (by decide)
    unfold LocalVolume.readBucketSettings
    rw [bucketSettingsPath_ok ha.bucket_ok]
    simp only [h.keeps.read hsettings]

/-- Its bucket stays, if the request does not remove it. -/
theorem ChangedBelow.bucketExists (h : ChangedBelow dir v v') (hb : ValidBucket bucket)
    (hdir : ¬ dir <+: [bucket]) (hv : LocalVolume.bucketExists bucket v = true) :
    LocalVolume.bucketExists bucket v' = true := by
  unfold LocalVolume.bucketExists at hv ⊢
  rw [bucketDir_ok hb] at hv ⊢
  refine h.keeps.isDir_of ?_ hv
  rintro (⟨hown, -⟩ | hstaged)
  · exact hdir hown
  · exact bucket_ne_system hb (cons_prefix_cons.mp hstaged).1.symm

end Others

end Abixio
