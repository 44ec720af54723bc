import Abixio.Storage.DiskFrame
import Mathlib

/-!
# The parts of an upload

Model of `create_upload`, `put_part` and `abort_upload` (`src/multipart/mod.rs`) and of `hash_order`
(`src/storage/erasure_encode.rs:16-30`).

* The random ids of an upload are arguments.
* `hash_order` reads the bytes of the digest; they are those of its hex text in `Env`.
* `put_part` splits a part as one block, so its shards are never empty. A failed write of `part.N.meta` is
  ignored, and the shard counts as stored.

A disk is `Workable` for an upload when no call on its files fails. `writePart_workable`, `movePart_workable`
and `writeCompleted_workable` say what the calls leave on such a disk, `putPart_workable` what a part
leaves on all of them.
-/

namespace Abixio

open Lib List LocalVolume FileTree Option
open Act (attempt attempt_apply each fail ofExcept)
open String (toList_append toList_inj)

/-! ## Placement of a part -/

/-- The value of a hex digit. -/
def hexValue (c : Char) : Nat :=
  if isAsciiDigit c then c.toNat - 48
  else if 97 ≤ c.toNat then c.toNat - 87
  else c.toNat - 55

/-- The bytes of a digest, from its hex text. -/
def digestBytes : List Char → List Nat
  | a :: b :: rest => (16 * hexValue a + hexValue b) :: digestBytes rest
  | _ => []

/-- One turn of the Fisher–Yates shuffle. -/
def shuffleStep (hash : List Nat) (indices : Array Nat) (i : Nat) : Array Nat :=
  let start := (i * 2) % hash.length
  let rand := 256 * hash.getD start 0 + hash.getD ((start + 1) % hash.length) 0
  indices.swapIfInBounds i (rand % (i + 1))

/-- `hash_order`. -/
def hashOrder (env : Env) (key : String) (n : Nat) : List Nat :=
  let hash := digestBytes (env.sha256Hex (utf8 key)).toList
  (((range n).drop 1).reverse.foldl (shuffleStep hash) (Array.range n)).toList

theorem shuffleStep_perm (hash : List Nat) (indices : Array Nat) (i : Nat) :
    (shuffleStep hash indices i).Perm indices := by
  unfold shuffleStep Array.swapIfInBounds
  dsimp only
  split
  · split
    · exact Array.swap_perm _ _
    · exact Array.Perm.refl _
  · exact Array.Perm.refl _

/-- **`hash_order` is a permutation of the disks.** -/
theorem hashOrder_perm (env : Env) (key : String) (n : Nat) :
    (hashOrder env key n).Perm (range n) := by
  have hfold : ∀ (is : List Nat) (hash : List Nat) (indices : Array Nat),
      (is.foldl (shuffleStep hash) indices).Perm indices := by
    intro is hash
    induction is with
    | nil => exact fun indices => Array.Perm.refl _
    | cons i is ih => exact fun indices => (ih _).trans (shuffleStep_perm hash indices i)
  have hperm := hfold ((range n).drop 1).reverse
    (digestBytes (env.sha256Hex (utf8 key)).toList) (Array.range n)
  rw [Array.perm_iff_toList_perm, Array.toList_range] at hperm
  exact hperm

/-- The shards of a part. -/
def partShards (env : Env) (dataN parityN : Nat) (data : Bytes) : Except StorageError (List Bytes) :=
  let shards := splitData data dataN
  if 0 < parityN then do
    let size := (shards.headD []).length
    (rsNew dataN parityN).mapError fun e => .invalidConfig ("reed-solomon: " ++ env.rsErrorText e)
    (rsEncode env dataN parityN (shards ++ replicate parityN (replicate size 0))).mapError
      fun e => .invalidConfig ("encode: " ++ env.rsErrorText e)
  else .ok shards

/-- A part as a caller uploads it, with the layout of the bucket at that time. -/
structure PartUpload where
  number : Int
  dataN : Nat
  parityN : Nat
  data : Bytes
  deriving DecidableEq, Inhabited

/-- The layout is over all disks, and the code accepts it. -/
def PartUpload.Fits (n : Nat) (u : PartUpload) : Prop :=
  0 < u.dataN ∧ u.dataN + u.parityN = n ∧ (u.parityN = 0 ∨ RsAccepts u.dataN u.parityN)

/-- The contents of `part.N.meta` for one shard. -/
def partFileMeta (env : Env) (u : PartUpload) (i : Nat) (shard : Bytes) : PartFileMeta where
  partNumber := u.number
  size := u.data.length
  etag := env.md5Hex u.data
  erasure := ⟨u.parityN, i, 1, (range (u.dataN + u.parityN)).map fun i => "vol-" ++ toString i⟩
  checksum := env.blake3Hex shard

section Upload

variable {n : Nat} (bucket key uploadId : String)

/-- The disks of a part's shards. -/
def partOrder (env : Env) (u : PartUpload) : List Nat :=
  hashOrder env (bucket ++ "/" ++ key ++ "/" ++ toString u.number) (u.dataN + u.parityN)

/-- The shards of a part that have a disk, with their index. -/
def partTargets (n : Nat) (order : List Nat) (shards : List Bytes) : List (Fin n × (Nat × Bytes)) :=
  (range shards.length).filterMap fun i => order[i]?.bind fun d =>
    if h : d < n then some (⟨d, h⟩, i, shards.getD i []) else none

/-- One shard of a part on its disk: whether it counts as stored. -/
def writePart (staging : Path) (pm : PartFileMeta) (shard : Bytes) : VolAct LocalVolume Bool := do
  let stored ← attempt do
    createDirAll staging
    writeWhole (staging ++ [LocalVolume.partFile pm.partNumber]) (.bytes shard)
  match stored with
  | .error _ => pure false
  | .ok _ => do
    let _ ← attempt
      (writeWhole (staging ++ [LocalVolume.partMetaFile pm.partNumber]) (.partJson pm))
    pure true

/-- `create_upload`, with the ids it draws. -/
def createUpload (upload : UploadMeta) : PoolAct LocalVolume n String := do
  ofExcept (validateBucketName upload.bucket)
  ofExcept (validateObjectKey upload.key)
  let dir ← ofExcept (multipartUploadDir upload.bucket upload.key upload.uploadId)
  let results ← each (fun d => Act.at d (attempt do
    createDirAll dir
    writeWhole (dir ++ ["upload.json"]) (.uploadJson upload))) (finRange n)
  if (results.filter Except.isOk).length = 0 then fail .writeQuorum
  else pure upload.uploadId

/-- `put_part`. -/
def putPart (env : Env) (u : PartUpload) : PoolAct LocalVolume n PartMeta := do
  ofExcept (validateBucketName bucket)
  ofExcept (validateObjectKey key)
  ofExcept (validateUploadId uploadId)
  let upload ← Act.query (readUpload bucket key uploadId)
  let shards ← ofExcept (partShards env u.dataN u.parityN u.data)
  let dir ← ofExcept (multipartUploadDir bucket key uploadId)
  let stored ← each
    (fun t : Fin n × (Nat × Bytes) => Act.at t.1
      (writePart (dir ++ [upload.dataDir]) (partFileMeta env u t.2.1 t.2.2) t.2.2))
    (partTargets n (partOrder bucket key env u) shards)
  if (stored.filter id).length < (if u.parityN = 0 then u.dataN else u.dataN + 1) then
    fail .writeQuorum
  else pure ⟨u.number, u.data.length, env.md5Hex u.data⟩

/-- `abort_upload`. -/
def abortUpload : PoolAct LocalVolume n Unit := do
  ofExcept (validateBucketName bucket)
  ofExcept (validateObjectKey key)
  ofExcept (validateUploadId uploadId)
  let dir ← ofExcept (multipartUploadDir bucket key uploadId)
  let _ ← each
    (fun d => Act.at d (attempt (fsCall fun fs => fs.removeDirAll dir))) (finRange n)
  pure ()

end Upload

/-! ## The shards of a part -/

section Shards

variable {env : Env} {u : PartUpload} {n : Nat}

/-- The rows of a part. -/
def PartUpload.rows (env : Env) (u : PartUpload) : List Bytes := encodeBlock env u.dataN u.parityN u.data

/-- **The shards of an accepted part** are those of one block. -/
theorem partShards_ok (h : u.Fits n) : partShards env u.dataN u.parityN u.data = .ok (u.rows env) := by
  obtain ⟨hd, -, hlayout⟩ := h
  unfold partShards PartUpload.rows
  rw [splitData_eq]
  set size := shardSize u.data.length u.dataN with hsize
  dsimp only
  by_cases hp : 0 < u.parityN
  · rw [if_pos hp]
    have hnew : rsNew u.dataN u.parityN = .ok () := hlayout.resolve_left (by omega)
    have hhead : ((pieces u.dataN size u.data).headD []).length = size := by
      obtain ⟨k, hk⟩ : ∃ k, u.dataN = k + 1 := ⟨u.dataN - 1, by omega⟩
      rw [hk, pieces_succ]
      simpa using padRight_length (by simp)
    have hrow : ∀ r ∈ pieces u.dataN size u.data ++
        replicate u.parityN (replicate size 0), r.length = size := by
      intro r hr
      rcases mem_append.mp hr with hr | hr
      · exact length_of_mem_pieces hr
      · rw [(mem_replicate.mp hr).2, length_replicate]
    rw [hhead, hnew, rsEncode_ok (shardSize_pos u.data.length u.dataN) hd (by simp) hrow,
      take_left' (pieces_length _ _ _)]
    rfl
  · rw [if_neg hp]
    obtain hp : u.parityN = 0 := by omega
    rw [hp]
    simp [encodeBlock, encodeRows, parityRows, hsize]

/-- Only accepted layouts have shards. -/
theorem fits_of_partShards {rows : List Bytes} (hn : u.dataN + u.parityN = n) (hd : 0 < u.dataN)
    (h : partShards env u.dataN u.parityN u.data = .ok rows) : u.Fits n := by
  refine ⟨hd, hn, ?_⟩
  by_cases hp : u.parityN = 0
  · exact Or.inl hp
  · right
    unfold partShards at h
    rw [if_pos (Nat.pos_of_ne_zero hp)] at h
    obtain ⟨⟨⟩, hnew, -⟩ := except_bind_eq_ok.mp h
    exact Act.mapError_eq_ok.mp hnew

@[simp] theorem PartUpload.rows_length (env : Env) (u : PartUpload) :
    (u.rows env).length = u.dataN + u.parityN := by
  simp [PartUpload.rows]

theorem PartUpload.length_of_mem_rows {r : Bytes} (h : r ∈ u.rows env) :
    r.length = shardSize u.data.length u.dataN := length_of_mem_encodeBlock h

theorem PartUpload.dataN_of_meta (env : Env) (u : PartUpload) (i : Nat) (shard : Bytes) :
    (partFileMeta env u i shard).erasure.data = u.dataN ∧
      (partFileMeta env u i shard).erasure.parity = u.parityN := by
  refine ⟨?_, rfl⟩
  unfold ErasureMeta.data partFileMeta
  simp

end Shards

/-! ## One disk of an upload -/

/-- The names of the files of a part, and of the metadata of an object. -/
def OwnName (name : String) : Prop :=
  (∃ number, name = LocalVolume.partFile number ∨ name = LocalVolume.partMetaFile number) ∨
    name = "meta.json"

/-- **A disk on which the calls of an upload go through**: it has no fault, no file where the upload and
the object have directories, and no directory where they have files. -/
structure Workable (staging obj : Path) (v : LocalVolume) : Prop where
  calm : v.faults = []
  stagingClear : ∀ q, q <+: staging → v.fs.read q = none
  objectClear : ∀ q, q <+: obj → v.fs.read q = none
  files : ∀ name, OwnName name →
    v.fs.isDir (staging ++ [name]) = false ∧ v.fs.isDir (obj ++ [name]) = false

/-- A file system with nothing below a directory. -/
theorem lookup_none_of_entries {fs : FileTree FileData} {base : Path} (h : ∀ e ∈ fs.entries, ¬ base <+: e.1)
    (name : String) : fs.lookup (base ++ [name]) = none := by
  have hfind : (fs.entries.find? fun e => e.1 = base ++ [name]) = none := by
    refine find?_eq_none.mpr fun e he heq => h e he ?_
    rw [of_decide_eq_true heq]
    exact prefix_append _ _
  unfold FileTree.lookup
  rw [if_neg (concat_ne_nil _ _), hfind]
  rfl

/-- A disk with no file on the way to the two directories, and nothing in them. -/
theorem Workable.of_entries {staging obj : Path} {v : LocalVolume} (h : v.faults = [] ∧
    (∀ q ∈ staging.inits ++ obj.inits, v.fs.read q = none) ∧
    ∀ e ∈ v.fs.entries, ¬ staging <+: e.1 ∧ ¬ obj <+: e.1) : Workable staging obj v := by
  obtain ⟨hcalm, hclear, hfree⟩ := h
  refine ⟨hcalm, fun q hq => hclear q ?_, fun q hq => hclear q ?_, fun name _ => ?_⟩
  · exact mem_append.mpr (Or.inl ((mem_inits _ _).mpr hq))
  · exact mem_append.mpr (Or.inr ((mem_inits _ _).mpr hq))
  · unfold FileTree.isDir
    rw [lookup_none_of_entries (fun e he => (hfree e he).1), lookup_none_of_entries fun e he => (hfree e he).2]
    exact ⟨rfl, rfl⟩

/-- The directories of an upload and of its object are apart. -/
structure ApartDirs (staging obj : Path) : Prop where
  of_staging : ∀ q, staging <+: q → ¬ q <+: obj ∧ ¬ obj <+: q
  of_object : ∀ q, obj <+: q → ¬ q <+: staging

section Disk

variable {staging obj : Path} {v v' : LocalVolume}

/-- **Files below `staging` and `obj` changed.** What is on the way to them did not, and there are no new
directories but on the way to them. -/
structure Worked (staging obj : Path) (v v' : LocalVolume) : Prop where
  calm : v'.faults = []
  reads : ∀ q, (∀ name, OwnName name → q ≠ staging ++ [name] ∧ q ≠ obj ++ [name]) →
    v'.fs.read q = v.fs.read q
  dirs : ∀ q, ¬ q <+: staging → ¬ q <+: obj → v'.fs.isDir q = v.fs.isDir q
  kept : ∀ q, v.fs.isDir q = true → v'.fs.isDir q = true

theorem Worked.trans {v'' : LocalVolume} (h : Worked staging obj v v') (h' : Worked staging obj v' v'') :
    Worked staging obj v v'' :=
  ⟨h'.calm, fun q hq => (h'.reads q hq).trans (h.reads q hq),
    fun q hs ho => (h'.dirs q hs ho).trans (h.dirs q hs ho), fun q hq => h'.kept q (h.kept q hq)⟩

variable (ha : ApartDirs staging obj)

include ha in
theorem not_way_concat (name : String) :
    (¬ staging ++ [name] <+: staging ∧ ¬ staging ++ [name] <+: obj) ∧
      ¬ obj ++ [name] <+: staging ∧ ¬ obj ++ [name] <+: obj :=
  ⟨⟨not_prefix_concat _ _, (ha.of_staging _ (prefix_append _ _)).1⟩,
    ha.of_object _ (prefix_append _ _), not_prefix_concat _ _⟩

include ha in
theorem Workable.of_worked (hv : Workable staging obj v) (h : Worked staging obj v v') :
    Workable staging obj v' := by
  refine ⟨h.calm, fun q hq => ?_, fun q hq => ?_, fun name hname => ?_⟩
  · refine (h.reads q fun name _ => ⟨?_, ?_⟩).trans (hv.stagingClear q hq)
    · rintro rfl
      exact (not_way_concat ha name).1.1 hq
    · rintro rfl
      exact (not_way_concat ha name).2.1 hq
  · refine (h.reads q fun name _ => ⟨?_, ?_⟩).trans (hv.objectClear q hq)
    · rintro rfl
      exact (not_way_concat ha name).1.2 hq
    · rintro rfl
      exact (not_way_concat ha name).2.2 hq
  · obtain ⟨⟨hss, hso⟩, hos, hoo⟩ := not_way_concat ha name
    rw [h.dirs _ hss hso, h.dirs _ hos hoo]
    exact hv.files name hname

/-- Directories on the way can be made. -/
theorem createDirAll_worked {dir : Path} (hdir : dir = staging ∨ dir = obj)
    (hv : Workable staging obj v) :
    ∃ v', createDirAll dir v = (.ok (), v') ∧ Worked staging obj v v' ∧ v'.fs.isDir dir = true ∧
      ∀ q, v'.fs.read q = v.fs.read q := by
  have hclear : ∀ q, q <+: dir → v.fs.read q = none := by
    rcases hdir with rfl | rfl
    · exact hv.stagingClear
    · exact hv.objectClear
  obtain ⟨fs, hfs⟩ : ∃ fs, v.fs.createDirAll dir = some fs := createDirs_isSome hclear
  refine ⟨{ v with fs := fs }, fsCall_healthy hv.calm hfs, ⟨hv.calm, fun q _ =>
    createDirAll_read hfs q, fun q hs ho => ?_, fun q hq =>
      createDirAll_isDir_of hfs hq⟩, createDirAll_isDir hfs (prefix_refl _),
    createDirAll_read hfs⟩
  refine createDirAll_isDir_of_not_prefix hfs ?_
  rcases hdir with rfl | rfl
  · exact hs
  · exact ho

/-- A file of a part can be written. -/
theorem writeWhole_worked {dir : Path} (hdir : dir = staging ∨ dir = obj)
    (hv : Workable staging obj v) {name : String} (hname : OwnName name) (content : FileData)
    (hd : v.fs.isDir dir = true) :
    ∃ v', writeWhole (dir ++ [name]) content v = (.ok (), v') ∧ Worked staging obj v v' ∧
      v'.fs.read (dir ++ [name]) = some content ∧
      ∀ q, q ≠ dir ++ [name] → v'.fs.read q = v.fs.read q := by
  have hfree : v.fs.isDir (dir ++ [name]) = false := by
    rcases hdir with rfl | rfl
    · exact (hv.files name hname).1
    · exact (hv.files name hname).2
  obtain ⟨v', hrun, hcalm⟩ : ∃ v', writeWhole (dir ++ [name]) content v = (.ok (), v') ∧ v'.faults = [] :=
    writeWhole_healthy hv.calm hd hfree
  obtain ⟨hread, hother, hdirs⟩ := writeWhole_ok hrun
  refine ⟨v', hrun, ⟨hcalm, fun q hq => hother q ?_, fun q _ _ => hdirs q, fun q hq =>
    (hdirs q).trans hq⟩, hread, hother⟩
  rcases hdir with rfl | rfl
  · exact (hq name hname).1
  · exact (hq name hname).2

theorem ownName_part (number : Int) : OwnName (partFile number) :=
  Or.inl ⟨number, Or.inl rfl⟩

theorem ownName_partMeta (number : Int) : OwnName (partMetaFile number) :=
  Or.inl ⟨number, Or.inr rfl⟩

/-! ### Names -/

/-- The decimal text of an integer. -/
theorem toList_toString_int (number : Int) : (toString number).toList =
    match number with
    | .ofNat k => Nat.toDigits 10 k
    | .negSucc k => '-' :: Nat.toDigits 10 (k + 1) := by
  cases number with
  | ofNat k =>
    change (Nat.repr k).toList = _
    rw [Nat.toList_repr]
  | negSucc k =>
    change ("-" ++ Nat.repr (k + 1)).toList = _
    rw [toList_append, Nat.toList_repr]
    rfl

theorem meta_not_mem_int (number : Int) : 'm' ∉ (toString number).toList := by
  have hdigits : ∀ k, 'm' ∉ Nat.toDigits 10 k := by
    intro k hmem
    have hdigit : ('m').isDigit = true := Nat.isDigit_of_mem_toDigits (by decide) (by decide) hmem
    exact absurd hdigit (by decide)
  rw [toList_toString_int]
  cases number with
  | ofNat k => exact hdigits k
  | negSucc k => exact not_mem_cons_of_ne_of_not_mem (by decide) (hdigits _)

theorem partFile_injective {a b : Int} (h : partFile a = partFile b) : a = b := by
  refine Int.repr_injective (toList_inj.mp ?_)
  have htext := congrArg String.toList h
  unfold partFile at htext
  rw [toList_append, toList_append] at htext
  exact append_cancel_left htext

theorem partMetaFile_injective {a b : Int} (h : partMetaFile a = partMetaFile b) : a = b := by
  refine Int.repr_injective (toList_inj.mp ?_)
  have htext := congrArg String.toList h
  unfold partMetaFile at htext
  rw [toList_append, toList_append, toList_append, toList_append] at htext
  exact append_cancel_left (append_cancel_right htext)

theorem partFile_ne_partMetaFile (a b : Int) : partFile a ≠ partMetaFile b := by
  intro h
  have hmem : 'm' ∈ (partFile a).toList := by
    rw [h]
    unfold partMetaFile
    rw [toList_append]
    exact mem_append_right _ (by decide)
  unfold partFile at hmem
  rw [toList_append] at hmem
  rcases mem_append.mp hmem with hmem | hmem
  · exact absurd hmem (by decide)
  · exact meta_not_mem_int a hmem

theorem part_ne_meta (number : Int) :
    partFile number ≠ "meta.json" ∧ partMetaFile number ≠ "meta.json" := by
  constructor
  · intro h
    have hhead := congrArg (fun s : String => s.toList.head?) h
    simp [partFile, toList_append] at hhead
  · intro h
    have hhead := congrArg (fun s : String => s.toList.head?) h
    simp [partMetaFile, toList_append] at hhead

/-! ### The calls -/

/-- A shard of a part and its metadata, in a directory. -/
structure PartIn (dir : Path) (pm : PartFileMeta) (shard : Bytes) (v : LocalVolume) : Prop where
  described : v.fs.read (dir ++ [LocalVolume.partMetaFile pm.partNumber]) = some (.partJson pm)
  data : v.fs.read (dir ++ [LocalVolume.partFile pm.partNumber]) = some (.bytes shard)

include ha in
/-- **A shard of a part is stored**, and nothing else changes. -/
theorem writePart_workable (hv : Workable staging obj v) (pm : PartFileMeta) (shard : Bytes) :
    ∃ v', writePart staging pm shard v = (.ok true, v') ∧ Worked staging obj v v' ∧
      PartIn staging pm shard v' ∧ v'.fs.isDir staging = true ∧
      ∀ q, q ≠ staging ++ [partFile pm.partNumber] →
        q ≠ staging ++ [partMetaFile pm.partNumber] → v'.fs.read q = v.fs.read q := by
  obtain ⟨v₁, hmk, hw₁, hd₁, hr₁⟩ := createDirAll_worked (Or.inl rfl) hv
  have hv₁ := hv.of_worked ha hw₁
  obtain ⟨v₂, hwrite, hw₂, hr₂, ho₂⟩ := writeWhole_worked (Or.inl rfl) hv₁ (ownName_part pm.partNumber)
    (.bytes shard) hd₁
  have hv₂ := hv₁.of_worked ha hw₂
  have hd₂ := hw₂.kept staging hd₁
  obtain ⟨v₃, hmeta, hw₃, hr₃, ho₃⟩ := writeWhole_worked (Or.inl rfl) hv₂
    (ownName_partMeta pm.partNumber) (.partJson pm) hd₂
  have hne : staging ++ [partFile pm.partNumber] ≠
      staging ++ [partMetaFile pm.partNumber] := by
    intro h
    exact partFile_ne_partMetaFile _ _ (cons.inj (append_cancel_left h)).1
  refine ⟨v₃, ?_, (hw₁.trans hw₂).trans hw₃, ⟨hr₃, (ho₃ _ hne).trans hr₂⟩, hw₃.kept staging hd₂,
    fun q hfile hmetaFile => (ho₃ q hmetaFile).trans ((ho₂ q hfile).trans (hr₁ q))⟩
  unfold writePart
  simp only [Act.bind_apply, attempt_apply, hmk, hwrite, hmeta]
  rfl

/-- Storing a shard always answers. -/
theorem writePart_total (staging : Path) (pm : PartFileMeta) (shard : Bytes) (v : LocalVolume) :
    ∃ b v', writePart staging pm shard v = (.ok b, v') := by
  unfold writePart
  rw [Act.bind_apply, attempt_apply]
  cases hstored : (do
      createDirAll staging
      writeWhole (staging ++ [partFile pm.partNumber]) (.bytes shard) : VolAct LocalVolume Unit)
      v with
  | mk r v₁ =>
    cases r with
    | error e => exact ⟨false, _, rfl⟩
    | ok _ => exact ⟨true, _, rfl⟩

/-- What moving a file leaves. -/
structure FileMoved (src dst : Path) (v v' : LocalVolume) : Prop where
  there : v'.fs.read dst = (v.fs.read src).or (v.fs.read dst)
  gone : v'.fs.read src = none
  other : ∀ q, q ≠ src → q ≠ dst → v'.fs.read q = v.fs.read q

include ha in
theorem ApartDirs.concat_ne (a b : String) : staging ++ [a] ≠ obj ++ [b] := by
  intro heq
  exact (ha.of_staging _ (prefix_append staging [a])).2 (heq ▸ prefix_append _ _)

include ha in
theorem moveStaged_workable (hv : Workable staging obj v) {name : String} (hname : OwnName name)
    (hobj : v.fs.isDir obj = true) :
    ∃ v', moveStaged (staging ++ [name]) (obj ++ [name]) v = (.ok (), v') ∧ Worked staging obj v v' ∧
      FileMoved (staging ++ [name]) (obj ++ [name]) v v' := by
  obtain ⟨hsrcFree, hdstFree⟩ := hv.files name hname
  cases hsrc : v.fs.read (staging ++ [name]) with
  | none =>
    have hgone : (v.fs.lookup (staging ++ [name])).isSome = false := by
      rw [lookup_isSome, hsrc, hsrcFree]
      rfl
    refine ⟨v, ?_, ⟨hv.calm, fun _ _ => rfl, fun _ _ _ => rfl, fun _ h => h⟩, ?_, hsrc, fun _ _ _ => rfl⟩
    · unfold moveStaged
      simp only [Act.bind_apply, Act.read_apply, hgone]
      rfl
    · rw [hsrc, none_or]
  | some content =>
    have hthere : (v.fs.lookup (staging ++ [name])).isSome = true := by
      rw [lookup_isSome, hsrc, isSome_some, Bool.or_true]
    obtain ⟨fs, hfs⟩ : ∃ fs, v.fs.renameFile (staging ++ [name]) (obj ++ [name]) = some fs :=
      renameFile_isSome hsrc hobj hdstFree
    have hcall : fsCall (fun fs => fs.renameFile (staging ++ [name]) (obj ++ [name])) v =
        (.ok (), { v with fs := fs }) := fsCall_healthy hv.calm hfs
    have hdirs := renameFile_isDir hfs
    have hreads := renameFile_read_of_ne hfs
    refine ⟨{ v with fs := fs }, ?_, ⟨hv.calm, fun q hq => hreads q (hq name hname).1 (hq name hname).2,
      fun q _ _ => hdirs q, fun q hq => (hdirs q).trans hq⟩, ⟨?_, ?_, hreads⟩⟩
    · unfold moveStaged
      simp only [Act.bind_apply, Act.read_apply, hthere, if_true, attempt_apply, hcall]
      rfl
    · rw [hsrc, some_or]
      exact renameFile_read hfs hsrc
    · exact renameFile_gone hfs (ha.concat_ne name name)

/-- The two files of a part. -/
abbrev PartName (number : Int) (name : String) : Prop :=
  name = LocalVolume.partFile number ∨ name = LocalVolume.partMetaFile number

/-- **What moving a part leaves**: the files that were staged are in the object's directory. -/
structure PartMoved (staging obj : Path) (number : Int) (v v' : LocalVolume) : Prop where
  worked : Worked staging obj v v'
  file : ∀ name, PartName number name →
    v'.fs.read (obj ++ [name]) = (v.fs.read (staging ++ [name])).or (v.fs.read (obj ++ [name]))
  gone : v'.fs.read (staging ++ [LocalVolume.partMetaFile number]) = none
  other : ∀ q, (∀ name, PartName number name → q ≠ staging ++ [name] ∧ q ≠ obj ++ [name]) →
    v'.fs.read q = v.fs.read q

theorem concat_ne (dir : Path) {a b : String} (h : a ≠ b) : dir ++ [a] ≠ dir ++ [b] := by
  intro heq
  exact h (cons.inj (append_cancel_left heq)).1

include ha in
/-- **A part is moved on a workable disk.** -/
theorem movePart_workable (hv : Workable staging obj v) (number : Int) :
    ∃ v', movePart staging obj number v = (.ok (), v') ∧ PartMoved staging obj number v v' := by
  obtain ⟨v₁, hmk, hw₁, hd₁, hr₁⟩ := createDirAll_worked (Or.inr rfl) hv
  have hv₁ := hv.of_worked ha hw₁
  obtain ⟨v₂, hfile, hw₂, hm₂⟩ := moveStaged_workable ha hv₁ (ownName_part number) hd₁
  have hv₂ := hv₁.of_worked ha hw₂
  have hd₂ := hw₂.kept obj hd₁
  obtain ⟨v₃, hmeta, hw₃, hm₃⟩ := moveStaged_workable ha hv₂ (ownName_partMeta number) hd₂
  have hnames := partFile_ne_partMetaFile number number
  refine ⟨v₃, ?_, ⟨(hw₁.trans hw₂).trans hw₃, fun name hname => ?_, hm₃.gone, fun q hq => ?_⟩⟩
  · unfold movePart
    simp only [Act.bind_apply, attempt_apply, hmk, hfile, hmeta]
  · rcases hname with rfl | rfl
    · rw [hm₃.other _ (ha.concat_ne _ _).symm (concat_ne obj hnames), hm₂.there, hr₁, hr₁]
    · rw [hm₃.there, hm₂.other _ (concat_ne staging hnames.symm) (ha.concat_ne _ _),
        hm₂.other _ (ha.concat_ne _ _).symm (concat_ne obj hnames.symm), hr₁, hr₁]
  · obtain ⟨hs, ho⟩ := hq _ (Or.inl rfl)
    obtain ⟨hs', ho'⟩ := hq _ (Or.inr rfl)
    rw [hm₃.other q hs' ho', hm₂.other q hs ho, hr₁]

include ha in
/-- **The metadata of the object is replaced.** -/
theorem writeCompleted_workable {n : Nat} (hv : Workable staging obj v) (bucket key : String)
    (m : ObjectMeta) (d : Fin n) :
    ∃ v', writeCompleted bucket key obj m d v = (.ok (), v') ∧ Worked staging obj v v' ∧
      v'.fs.isDir obj = true ∧ v'.fs.read (obj ++ ["meta.json"]) =
        some (.metaJson ⟨bucket, key, [{ m with erasure := { m.erasure with index := d } }]⟩) ∧
      ∀ q, q ≠ obj ++ ["meta.json"] → v'.fs.read q = v.fs.read q := by
  obtain ⟨v₁, hmk, hw₁, hd₁, hr₁⟩ := createDirAll_worked (Or.inr rfl) hv
  have hv₁ := hv.of_worked ha hw₁
  obtain ⟨v₂, hwrite, hw₂, hr₂, ho₂⟩ := writeWhole_worked (Or.inr rfl) hv₁ (Or.inr rfl)
    (.metaJson ⟨bucket, key, [{ m with erasure := { m.erasure with index := d } }]⟩) hd₁
  refine ⟨v₂, ?_, hw₁.trans hw₂, hw₂.kept obj hd₁, hr₂, fun q hq => (ho₂ q hq).trans (hr₁ q)⟩
  unfold writeCompleted writeMetaFile
  simp only [Act.bind_apply, attempt_apply, hmk]
  exact hwrite

end Disk

end Abixio
