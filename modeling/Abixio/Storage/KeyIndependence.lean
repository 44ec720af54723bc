import Abixio.Multipart.Parts

/-!
# Requests on one key and the reads of another

Objects, versions, parts and staged uploads share one directory tree per disk
(`src/storage/pathing.rs:42-133`, `src/storage/local_volume.rs`, `src/multipart/mod.rs:368-383`), and a key is
a path in it. Two keys of a bucket can be in each other's way in two ways.

* One is a path above the other: `delete_object` removes the directory of `a` with that of `a/b` in it.
* A segment is named `meta.json`: an object `a/meta.json` makes `walk_keys` take the directory `a` for an
  object, and `a/b` is no longer listed (`Hides`).

`independent_iff` says that these are the only ones: otherwise a PUT, a DELETE, a delete marker, a
version delete, a completion or an abort on one key leaves the reads, the version list and the uploads of
the other as they were.
-/

namespace Abixio

open Lib List LocalVolume Act FileTree Option

variable {bucket key other : String}

/-! ## Segments -/

theorem splitOn_intercalate_flatMap {α : Type} [DecidableEq α] (sep : α) :
    ∀ {ls : List (List α)}, ls ≠ [] →
      (intercalate [sep] ls).splitOn sep = ls.flatMap (splitOn sep)
  | [], h => absurd rfl h
  | [l], _ => by simp [intercalate]
  | l :: l' :: ls, _ => by
    have hrest := splitOn_intercalate_flatMap sep (cons_ne_nil l' ls)
    have hcons : intercalate [sep] (l :: l' :: ls) =
        l ++ sep :: intercalate [sep] (l' :: ls) := by
      simp [intercalate]
    rw [hcons, splitOn_append_cons_self, hrest, ← flatMap_cons]

variable {names : List String}

/-- The segments of a joined key are those of the names it is joined from. -/
theorem keySegments_flatMap (hne : names ≠ []) :
    keySegments ("/".intercalate names) = names.flatMap keySegments := by
  have hsplit : (intercalate "/".toList (names.map String.toList)).splitOn '/' =
      (names.map String.toList).flatMap (splitOn '/') :=
    splitOn_intercalate_flatMap '/' (by simpa using hne)
  unfold keySegments
  rw [String.toList_intercalate, hsplit, flatMap_map, map_flatMap]

theorem keySegments_of_slash_free {name : String} (h : '/' ∉ name.toList) : keySegments name = [name] := by
  have hjoin : keySegments ("/".intercalate [name]) = [name] :=
    keySegments_intercalate (cons_ne_nil _ _) fun x hx => mem_singleton.mp hx ▸ h
  exact hjoin

theorem flatMap_keySegments_of_slash_free (h : ∀ name ∈ names, '/' ∉ name.toList) :
    names.flatMap keySegments = names := by
  induction names with
  | nil => rfl
  | cons name rest ih =>
    rw [flatMap_cons, keySegments_of_slash_free (h name mem_cons_self),
      ih fun x hx => h x (mem_cons_of_mem _ hx)]
    rfl

/-! ## Keys in each other's way -/

/-- Neither key is a path above the other. -/
def NotNested (key other : String) : Prop :=
  ¬ keySegments key <+: keySegments other ∧ ¬ keySegments other <+: keySegments key

/-- A key the walk can reach: no segment starts with a dot, and none below the first is named
`meta.json`. -/
def Listable (key : String) : Prop :=
  (∀ name ∈ keySegments key, isDotName name = false) ∧ "meta.json" ∉ (keySegments key).tail

/-- The directories of `key` put a `meta.json` in a directory above the listed key `other`. -/
def Hides (key other : String) : Prop :=
  Listable other ∧ ∃ q ∈ (keySegments other).inits, q ≠ [] ∧ q ++ ["meta.json"] <+: keySegments key

/-- **Keys that are not in each other's way.** -/
structure Unrelated (key other : String) : Prop where
  nested : NotNested key other
  shows : ¬ Hides key other
  shown : ¬ Hides other key

instance (key other : String) : Decidable (NotNested key other) := inferInstanceAs (Decidable (_ ∧ _))

instance (key : String) : Decidable (Listable key) := inferInstanceAs (Decidable (_ ∧ _))

instance (key other : String) : Decidable (Hides key other) := inferInstanceAs (Decidable (_ ∧ _))

theorem NotNested.symm {key other : String} (h : NotNested key other) : NotNested other key := ⟨h.2, h.1⟩

theorem Unrelated.symm {key other : String} (h : Unrelated key other) : Unrelated other key :=
  ⟨h.nested.symm, h.shown, h.shows⟩

theorem NotNested.apart (h : NotNested key other) : Apart (objectPath bucket key) bucket other :=
  ⟨fun hp => h.1 (cons_prefix_cons.mp hp).2, fun hp => h.2 (cons_prefix_cons.mp hp).2⟩

/-! ## One disk -/

variable {keyPrefix : String}

section Disk

variable {v v' : LocalVolume}

/-- What a request on a key does to a disk. -/
abbrev KeyChange (bucket key : String) (v v' : LocalVolume) : Prop :=
  ChangedFor (uploadsDir bucket key) (objectPath bucket key) v v'

theorem staging_of_uploadsDir (bucket key : String) : stagingRoot <+: uploadsDir bucket key :=
  prefix_append _ _

/-- A path in a bucket is outside the area of a request on a key that does not lead to it. -/
theorem not_requestArea (hb : ValidBucket bucket) (h : ¬ keySegments key <+: names) :
    ¬ RequestArea (uploadsDir bucket key) (objectPath bucket key) (bucket :: names) := by
  rintro (⟨hp, -⟩ | hp)
  · exact h (cons_prefix_cons.mp hp).2
  · exact bucket_ne_system hb (cons_prefix_cons.mp ((staging_of_uploadsDir _ _).trans hp)).1.symm

/-- The names on a listed path that join to the other key are not in the way of the request. -/
theorem notNested_names (hnest : NotNested key other)
    (hne : names ≠ []) (hjoin : other = "/".intercalate names) :
    ¬ keySegments key <+: names ∧ ¬ names <+: keySegments key := by
  have hsegs : keySegments other = names.flatMap keySegments := by
    rw [hjoin]
    exact keySegments_flatMap hne
  have hkey : (keySegments key).flatMap keySegments = keySegments key :=
    flatMap_keySegments_of_slash_free fun _ hx => slash_not_mem_segment hx
  constructor
  · rintro ⟨rest, rfl⟩
    rw [flatMap_append, hkey] at hsegs
    exact hnest.1 ⟨_, hsegs.symm⟩
  · intro hp
    have hfree : names.flatMap keySegments = names :=
      flatMap_keySegments_of_slash_free fun _ hx => slash_not_mem_segment (hp.subset hx)
    rw [hfree] at hsegs
    exact hnest.2 (hsegs ▸ hp)

/-- A key that the walk cannot reach is not listed. -/
theorem Listed.listable {fs : FileTree FileData} {dir : Path}
    (h : Listed fs dir (keySegments other)) : Listable other := by
  refine ⟨h.visible, fun hmem => ?_⟩
  obtain ⟨first, rest, hsegs⟩ := exists_cons_of_ne_nil h.ne_nil
  rw [hsegs, tail_cons] at hmem
  obtain ⟨front, back, rfl⟩ := append_of_mem hmem
  have hq : first :: front <+: keySegments other := ⟨"meta.json" :: back, by rw [hsegs]; rfl⟩
  have hq' : first :: front ++ ["meta.json"] <+: keySegments other :=
    ⟨back, by rw [hsegs]; simp⟩
  have hmeta : hasMeta fs (dir ++ (first :: front)) = true := by
    have hdir := h.isDir _ hq' (by simp)
    unfold hasMeta
    rw [append_assoc, isDir_iff.mp hdir]
    rfl
  have heq := (h.first _ hq (by simp)).mp hmeta
  rw [hsegs] at heq
  simp at heq

/-- A listing with a prefix that passes the check is answered. -/
theorem listObjects_ok (hb : ValidBucket bucket) (hp : validateObjectPrefix keyPrefix = .ok ()) :
    ∃ keys, LocalVolume.listObjects bucket keyPrefix v = .ok keys := by
  unfold LocalVolume.listObjects
  rw [bucketDir_ok hb, hp]
  by_cases hdir : v.fs.isDir [bucket] = true
  · simp only [bind, Except.bind, if_pos hdir]
    exact ⟨_, rfl⟩
  · simp only [bind, Except.bind, if_neg hdir]
    exact ⟨_, rfl⟩

section Frame

variable (h : KeyChange bucket key v v') (hb : validateBucketName bucket = .ok ())
include h hb

/-- The directory of the other key, and those of the same names. -/
theorem isDir_names (hno : ¬ keySegments key <+: names)
    (hway : ¬ names <+: keySegments key) : v'.fs.isDir (bucket :: names) = v.fs.isDir (bucket :: names) :=
  h.rest.outside.isDir (not_requestArea hb hno) fun hp => hway (cons_prefix_cons.mp hp).2

variable (hnest : NotNested key other)
include hnest

/-- **A request on an unrelated key leaves the walk as it was.** -/
theorem listed_names (hshows : ¬ Hides key other) (hv : v.Sane) :
    Listed v'.fs [bucket] (keySegments other) ↔ Listed v.fs [bucket] (keySegments other) := by
  by_cases hlist : Listable other
  · have hmeta : ∀ q, q <+: keySegments other → q ≠ [] →
        hasMeta v'.fs ([bucket] ++ q) = hasMeta v.fs ([bucket] ++ q) := by
      intro q hq hne
      have hway : ¬ q ++ ["meta.json"] <+: keySegments key := fun hp =>
        hshows ⟨hlist, q, (mem_inits q _).mpr hq, hne, hp⟩
      have hno : ¬ keySegments key <+: q ++ ["meta.json"] := by
        intro hp
        rcases prefix_concat_iff.mp hp with heq | hp
        · exact hway (heq ▸ prefix_refl _)
        · exact hnest.1 (hp.trans hq)
      unfold hasMeta
      rcases h.rest.outside _ (not_requestArea hb hno) with hl | ⟨-, -, hp⟩
      · exact congrArg Option.isSome hl
      · exact absurd (cons_prefix_cons.mp hp).2 hway
    constructor
    · intro hl
      have hdir : v.fs.isDir ([bucket] ++ keySegments other) = true := by
        rw [← hl.isDir _ (prefix_refl _) hl.ne_nil]
        exact (isDir_names h hb hnest.1 hnest.2).symm
      refine ⟨hl.ne_nil, hl.visible, ?_, fun q hq hne => ?_⟩
      · rintro q ⟨rest, hrest⟩ -
        rw [← hrest, ← append_assoc] at hdir
        exact hv.isDir_of_append _ hdir
      · rw [← hmeta q hq hne]
        exact hl.first q hq hne
    · intro hl
      refine ⟨hl.ne_nil, hl.visible, fun q hq hne => ?_, fun q hq hne => ?_⟩
      · exact h.rest.outside.isDir_of (not_requestArea hb fun hp => hnest.1 (hp.trans hq))
          (hl.isDir q hq hne)
      · rw [hmeta q hq hne]
        exact hl.first q hq hne
  · exact ⟨fun hl => absurd hl.listable hlist, fun hl => absurd hl.listable hlist⟩

/-- The names the walk finds for the other key afterwards are its segments: the directory was there
before, so its names have no slash. -/
theorem names_eq (hv : v.Sane) (hnames : Listed v'.fs [bucket] names)
    (hjoin : other = "/".intercalate names) :
    keySegments other = names ∧ v.fs.isDir ([bucket] ++ names) = true := by
  obtain ⟨hno, hway⟩ := notNested_names hnest hnames.ne_nil hjoin
  have hdir : v.fs.isDir (bucket :: names) = true := by
    rw [← isDir_names h hb hno hway]
    exact hnames.isDir _ (prefix_refl _) hnames.ne_nil
  have hfree : ∀ name ∈ names, '/' ∉ name.toList := fun name hname =>
    hv.names _ (mem_entries_of_lookup (cons_ne_nil _ _)
      (isDir_iff.mp hdir)) name (mem_cons_of_mem _ hname)
  refine ⟨?_, hdir⟩
  rw [hjoin]
  exact keySegments_intercalate hnames.ne_nil hfree

/-- It leaves the listings of the other key. -/
theorem mem_listing (hshows : ¬ Hides key other) (hv : v.Sane)
    {keys keys' : List String} (hkeys : LocalVolume.listObjects bucket keyPrefix v = .ok keys)
    (hkeys' : LocalVolume.listObjects bucket keyPrefix v' = .ok keys') : other ∈ keys' ↔ other ∈ keys := by
  have hlisted := listed_names h hb hnest hshows hv
  rw [mem_listObjects hv hkeys, mem_listObjects_names hkeys']
  constructor
  · rintro ⟨-, names, hnames, hjoin, hp⟩
    obtain ⟨rfl, hdir⟩ := names_eq h hb hnest hv hnames hjoin
    exact ⟨hv.isDir_of_append [bucket] hdir, hlisted.mp hnames, hp⟩
  · rintro ⟨hdir, hnames, hp⟩
    refine ⟨?_, keySegments other, hlisted.mpr hnames, (intercalate_keySegments other).symm, hp⟩
    exact h.rest.outside.isDir_of (not_requestArea hb fun hp =>
      keySegments_ne_nil key (prefix_nil.mp hp)) hdir

/-- **A request on an unrelated key leaves the answers of a disk for the other key.** -/
theorem KeyChange.sameAnswers (hshows : ¬ Hides key other) (hk : validateObjectKey other = .ok ())
    (hv : v.Sane) : SameAnswers bucket other v v' := by
  have ha : Accepted bucket other none := ⟨hb, hk, fun _ h => by cases h⟩
  have hbelow : ChangedBelow (objectPath bucket key) v v' := h.below (staging_of_uploadsDir _ _)
  have hapart : Apart (objectPath bucket key) bucket other := hnest.apart
  have hcontent := hbelow.sameContent hapart ha
  have hmeta : readMetaFile v'.fs (objectPath bucket other ++ ["meta.json"]) =
      readMetaFile v.fs (objectPath bucket other ++ ["meta.json"]) := by
    unfold readMetaFile
    rw [hbelow.keeps.read (hapart.not_area hb (prefix_append _ _))]
  have hpath := ha.objectMetaPath
  refine ⟨hcontent.read, hcontent.mmap, hcontent.stat, ?_, fun vid => ?_, hcontent.part,
    hcontent.settings, fun keyPrefix hpre => ?_, fun keyPrefix keys keys' hkeys hkeys' =>
      mem_listing h hb hnest hshows hv hkeys hkeys'⟩
  · change readMetaVersions bucket other v' = readMetaVersions bucket other v
    unfold readMetaVersions
    rw [hpath]
    simp only [bind, Except.bind, hmeta]
  · change readVersionedShard bucket other vid v' = readVersionedShard bucket other vid v
    unfold readVersionedShard
    rw [hpath]
    simp only [bind, Except.bind, hmeta]
    cases hshard : versionShardPath bucket other vid with
    | error e => rfl
    | ok path =>
      have hfile : readShardFile path v' = readShardFile path v := by
        refine hbelow.readShardFile hapart hb ?_
        rw [ha.versionShardPath hshard, append_assoc]
        exact prefix_append _ _
      simp only [hfile]
  · obtain ⟨keys, hkeys⟩ := listObjects_ok (v := v) hb hpre
    obtain ⟨keys', hkeys'⟩ := listObjects_ok (v := v') hb hpre
    change (LocalVolume.listObjects bucket keyPrefix v').isOk = (LocalVolume.listObjects bucket keyPrefix v).isOk
    rw [hkeys, hkeys']
    rfl

omit h in
/-- What is staged for the other key is outside the area, -/
theorem not_staged {q : Path} (hq : uploadsDir bucket other <+: q) :
    ¬ RequestArea (uploadsDir bucket key) (objectPath bucket key) q ∧ ¬ q <+: objectPath bucket key := by
  have hhead : q.head? = some ".abixio.sys" := by
    obtain ⟨rest, rfl⟩ := hq
    rfl
  refine ⟨?_, fun hp => ?_⟩
  · rintro (⟨-, hout⟩ | hp)
    · exact hout hhead
    · rcases prefix_or_prefix_of_prefix hp hq with hp | hp
      · exact hnest.1 (cons_prefix_cons.mp ((prefix_append_right_inj _).mp hp)).2
      · exact hnest.2 (cons_prefix_cons.mp ((prefix_append_right_inj _).mp hp)).2
  · obtain ⟨rest, hrest⟩ := hp
    cases q with
    | nil => cases hhead
    | cons first tail =>
      have hfirst : first = bucket := (cons.inj hrest).1
      rw [hfirst] at hhead
      exact bucket_ne_system hb (Option.some.inj hhead)

/-- and stays as it was. -/
theorem staged_kept {q : Path} (hq : uploadsDir bucket other <+: q) :
    v'.fs.read q = v.fs.read q ∧ v'.fs.isDir q = v.fs.isDir q ∧ v'.fs.children q = v.fs.children q := by
  have hout := fun q hq => not_staged hb hnest (q := q) hq
  exact ⟨h.rest.outside.read (hout q hq).1, h.rest.outside.isDir (hout q hq).1 (hout q hq).2,
    h.rest.children q fun name => hout _ (hq.trans (prefix_append _ _))⟩

end Frame

end Disk

/-! ## Requests -/

/-- The requests that change a key. -/
inductive KeyRequest where
  /-- A PUT, versioned if the request has a version id. -/
  | put (req : PutRequest) (peerOk : Bool) (body : Body)
  /-- A PUT of a body in memory, as copies make it. -/
  | putWhole (req : PutRequest) (data : Bytes)
  | delete
  /-- A DELETE in a bucket with versioning. -/
  | mark (versionId : String) (now : Nat)
  | deleteVersion (versionId : String)
  | complete (uploadId : String) (requested : List (Int × String)) (now : Nat)
  | abort (uploadId : String)

/-- The request on a key of a bucket; what it returns is left out. -/
def KeyRequest.run {n : Nat} (env : Env) (cfg : PoolConfig n) (bucket key : String) :
    KeyRequest → PoolOp LocalVolume n Unit
  | .put req peerOk body => do
    let _ ← putObjectStream env cfg { req with bucket := bucket, key := key } peerOk body
    pure ()
  | .putWhole req data => do
    let _ ← putObject env cfg { req with bucket := bucket, key := key } data
    pure ()
  | .delete => deleteObject bucket key
  | .mark versionId now => do
    let _ ← addDeleteMarker bucket key versionId now
    pure ()
  | .deleteVersion versionId => deleteObjectVersion bucket key versionId
  | .complete uploadId requested now => do
    let _ ← onDisks (completeUpload bucket key uploadId env requested now)
    pure ()
  | .abort uploadId => onDisks (abortUpload bucket key uploadId)

/-- **What a client sees of a key is the same on both pools**: the reads, the versions listed, and the
uploads in progress with their parts. -/
structure SameKey {n : Nat} (env : Env) (bucket key : String) (p p' : Pool LocalVolume n) : Prop where
  reads : SameReads env bucket key p p'
  upload : ∀ uploadId, readUpload bucket key uploadId p'.disks = readUpload bucket key uploadId p.disks
  parts : ∀ uploadId, listParts bucket key uploadId p'.disks = listParts bucket key uploadId p.disks

/-- **Successful requests on `key` leave `other` alone**, in every pool that has the bucket and whose
read cache says what the disks say. -/
def LeavesAlone (bucket key other : String) : Prop :=
  ∀ (env : Env) (n : Nat) (cfg : PoolConfig n) (request : KeyRequest) (p p' : Pool LocalVolume n),
    (∀ d, (p.disks d).Sane) → headBucket bucket p = .ok true → Coherent env bucket other p →
      request.run env cfg bucket key p = (.ok (), p') → SameKey env bucket other p p'

section Requests

variable {n : Nat} {env : Env} {cfg : PoolConfig n}

theorem abortUpload_touches (uploadId : String) :
    Act.Moves (Touches (· = (bucket, key)) (uploadsDir bucket key) (objectPath bucket key))
      (onDisks (abortUpload bucket key uploadId) : PoolOp LocalVolume n Unit) := by
  apply onDisks_touches
  refine .andThen (.ofExcept _) fun _ => .andThen (.ofExcept _) fun _ => .andThen (.ofExcept _) fun _ =>
    .ofExcept_bind fun dir hdir => .andThen (.each fun d _ => Act.Moves.at (Act.Moves.attempt ?_) d)
      fun _ => .pure _
  refine removeDirAll_changes fun q hq => Or.inr ?_
  rw [multipartUploadDir_eq hdir] at hq
  exact (prefix_append _ _).trans hq

/-- **Every request changes its own area** and its own entries in the caches, whatever it answers. -/
theorem KeyRequest.touches (request : KeyRequest) :
    Act.Moves (Touches (· = (bucket, key)) (uploadsDir bucket key) (objectPath bucket key))
      (request.run env cfg bucket key) := by
  cases request with
  | put req peerOk body =>
    exact .andThen (putObjectStream_touches env cfg { req with bucket := bucket, key := key } peerOk body)
      fun _ => .pure _
  | putWhole req data =>
    exact .andThen (putObject_touches env cfg { req with bucket := bucket, key := key } data) fun _ => .pure _
  | delete => exact deleteObject_touches
  | mark versionId now => exact .andThen (addDeleteMarker_touches versionId now) fun _ => .pure _
  | deleteVersion versionId => exact deleteObjectVersion_touches versionId
  | complete uploadId requested now =>
    exact .andThen (completeUpload_touches env uploadId (prefix_refl _) requested now) fun _ => .pure _
  | abort uploadId => exact abortUpload_touches uploadId

section Uploads

variable {s t : Disks LocalVolume n} (h : ∀ d, KeyChange bucket key (s d) (t d))
  (hb : validateBucketName bucket = .ok ()) (hnest : NotNested key other)
include h hb hnest

theorem readUpload_kept (uploadId : String) :
    readUpload bucket other uploadId t = readUpload bucket other uploadId s := by
  unfold readUpload
  cases hdir : multipartUploadDir bucket other uploadId with
  | error e => rfl
  | ok dir =>
    have hread : ∀ d, (t d).fs.read (dir ++ ["upload.json"]) = (s d).fs.read (dir ++ ["upload.json"]) := by
      intro d
      refine (staged_kept (h d) hb hnest ?_).1
      rw [multipartUploadDir_eq hdir, append_assoc]
      exact prefix_append _ _
    simp only [bind, Except.bind, hread]

theorem listParts_kept (uploadId : String) :
    listParts bucket other uploadId t = listParts bucket other uploadId s := by
  unfold listParts
  rw [readUpload_kept h hb hnest]
  cases readUpload bucket other uploadId s with
  | error e => rfl
  | ok upload =>
    cases hdir : multipartUploadDir bucket other uploadId with
    | error e => rfl
    | ok dir =>
      have hstaged : uploadsDir bucket other <+: dir ++ [upload.dataDir] := by
        rw [multipartUploadDir_eq hdir, append_assoc]
        exact prefix_append _ _
      have hisDir := fun d => (staged_kept (h d) hb hnest hstaged).2.1
      have hparts : ∀ d, stagedParts (t d).fs (dir ++ [upload.dataDir]) =
          stagedParts (s d).fs (dir ++ [upload.dataDir]) := by
        intro d
        unfold stagedParts
        rw [(staged_kept (h d) hb hnest hstaged).2.2]
      simp only [bind, Except.bind, hisDir, hparts]

end Uploads

/-- **What a client sees of the object of a key is there in the other pool too.** An entry of the read cache may
be gone. -/
structure KeepsKey (bucket key : String) (p p' : Pool LocalVolume n) : Prop where
  content : ∀ d, SameContent bucket key (p.disks d) (p'.disks d)
  head : headBucket bucket p = .ok true → headBucket bucket p' = .ok true
  write : cachedWrite bucket key p' = cachedWrite bucket key p
  read : cachedRead bucket key p' = cachedRead bucket key p ∨ cachedRead bucket key p' = none
  upload : ∀ uploadId, readUpload bucket key uploadId p'.disks = readUpload bucket key uploadId p.disks
  parts : ∀ uploadId, listParts bucket key uploadId p'.disks = listParts bucket key uploadId p.disks

section Keeps

variable (hb : validateBucketName bucket = .ok ()) (ho : validateObjectKey other = .ok ())
include hb ho

/-- **A request keeps the keys that are not nested with its own**, whatever it answers. -/
theorem KeyRequest.keeps (request : KeyRequest) (hnest : NotNested key other) (p : Pool LocalVolume n) :
    KeepsKey bucket other p (request.run env cfg bucket key p).2 := by
  have hne : ¬ (bucket, other) = (bucket, key) := by
    intro he
    have hother : other = key := congrArg Prod.snd he
    exact hnest.1 (hother ▸ prefix_refl _)
  obtain ⟨hcaches, hdisks⟩ : Touches (· = (bucket, key)) (uploadsDir bucket key) (objectPath bucket key) p
      (request.run env cfg bucket key p).2 := request.touches p
  have hbelow := fun d => (hdisks d).below (staging_of_uploadsDir _ _)
  exact ⟨fun d => (hbelow d).sameContent hnest.apart ⟨hb, ho, fun _ h => by cases h⟩,
    headBucket_of_le fun d hd => (hbelow d).bucketExists hb (not_prefix_bucket bucket key) hd,
    hcaches.entry (bucket, other) hne, hcaches.read (bucket, other) hne, readUpload_kept hdisks hb hnest,
    listParts_kept hdisks hb hnest⟩

/-- **Unrelated keys leave each other alone.** -/
theorem Unrelated.leavesAlone (h : Unrelated key other) : LeavesAlone bucket key other := by
  intro env n cfg request p p' hsane hhead hcoherent hrun
  have hkeeps : KeepsKey bucket other p (request.run env cfg bucket key p).2 :=
    request.keeps hb ho h.nested p
  have hmoved : DisksFor (uploadsDir bucket key) (objectPath bucket key) p
    (request.run env cfg bucket key p).2 := (request.touches p).disks
  rw [hrun] at hkeeps hmoved
  have hdisks : ∀ d, KeyChange bucket key (p.disks d) (p'.disks d) := hmoved
  exact ⟨sameReads_of_cached (fun d => (hdisks d).sameAnswers hb h.nested h.shows ho (hsane d))
    ((hkeeps.head hhead).trans hhead.symm) (hkeeps.read.imp_right fun hnone => ⟨hnone, hcoherent⟩)
    hkeeps.write, hkeeps.upload, hkeeps.parts⟩

end Keeps

end Requests

/-! ## A disk with one object -/

section Sole

/-- The metadata of an empty object. -/
def soleMeta : ObjectMeta := { deleteMarker "" 0 with isDeleteMarker := false }

/-- A disk that holds one object and nothing else. -/
def soleObject (bucket key : String) : LocalVolume where
  fs := ((FileTree.empty.createDirAll (objectPath bucket key)).bind fun fs =>
    fs.writeFile (objectPath bucket key ++ ["meta.json"])
      (.metaJson ⟨bucket, key, [soleMeta]⟩)).getD .empty
  volumeId := "v0"
  faults := []

/-- What is on it. -/
structure SoleTree (bucket key : String) (fs : FileTree FileData) : Prop where
  dirs : ∀ q, fs.isDir q = true ↔ q <+: objectPath bucket key
  file : fs.read (objectPath bucket key ++ ["meta.json"]) = some (.metaJson ⟨bucket, key, [soleMeta]⟩)
  others : ∀ q, q ≠ objectPath bucket key ++ ["meta.json"] → fs.read q = none

theorem isDir_empty (q : Path) : (FileTree.empty : FileTree FileData).isDir q = true ↔ q = [] := by
  cases q with
  | nil => exact ⟨fun _ => rfl, fun _ => rfl⟩
  | cons name rest =>
    constructor
    · intro h
      cases h
    · intro h
      cases h

theorem read_empty (q : Path) : (FileTree.empty : FileTree FileData).read q = none := by
  cases q with
  | nil => rfl
  | cons name rest => rfl

theorem soleObject_spec (key : String) (hb : ValidBucket bucket) :
    SoleTree bucket key (soleObject bucket key).fs ∧ (soleObject bucket key).Sane := by
  obtain ⟨fs, hfs⟩ : ∃ fs, (FileTree.empty : FileTree FileData).createDirAll (objectPath bucket key) =
      some fs := createDirs_isSome fun q _ => read_empty q
  have hdirs : ∀ q, fs.isDir q = true ↔ q <+: objectPath bucket key := by
    intro q
    refine ⟨fun hq => ?_, fun hq => createDirAll_isDir hfs hq⟩
    by_contra hno
    rw [FileTree.createDirAll_isDir_of_not_prefix hfs hno, isDir_empty] at hq
    exact hno (hq ▸ nil_prefix)
  have hfree : fs.isDir (metaFile bucket key) = false :=
    Bool.eq_false_iff.mpr fun h => not_prefix_concat _ _ ((hdirs _).mp h)
  obtain ⟨fs', hfs'⟩ : ∃ fs', fs.writeFile (metaFile bucket key)
      (.metaJson ⟨bucket, key, [soleMeta]⟩) = some fs' :=
    writeFile_isSome ((hdirs _).mpr (prefix_refl _)) hfree
  have htree : (soleObject bucket key).fs = fs' := by
    unfold soleObject
    rw [hfs, bind_some, hfs']
    rfl
  have hnames : ∀ name ∈ objectPath bucket key, '/' ∉ name.toList := by
    intro name hname
    rcases mem_cons.mp hname with rfl | hname
    · exact slash_not_mem_bucket hb
    · exact slash_not_mem_segment hname
  have hempty : (FileTree.empty : FileTree FileData).WellFormed fun name => '/' ∉ name.toList :=
    ⟨fun _ h => absurd h not_mem_nil, fun _ h => absurd h not_mem_nil⟩
  unfold Sane
  rw [htree]
  refine ⟨⟨fun q => ?_, writeFile_read hfs', fun q hq => ?_⟩, ?_⟩
  · rw [writeFile_isDir hfs']
    exact hdirs q
  · rw [writeFile_read_of_ne hfs' hq, createDirAll_read hfs]
    exact read_empty q
  · refine (hempty.createDirAll hnames hfs).writeFile (fun name hname => ?_) hfs'
    rcases mem_append.mp hname with hname | hname
    · exact hnames name hname
    · rw [mem_singleton.mp hname]
      decide

/-- A pool of that disk. -/
def solePool (bucket key : String) : Pool LocalVolume 1 := ⟨fun _ => soleObject bucket key, none, none⟩

variable (hb : validateBucketName bucket = .ok ())
include hb

theorem soleObject_bucket : (soleObject bucket other).fs.isDir [bucket] = true :=
  ((soleObject_spec other hb).1.dirs _).mpr (cons_prefix_cons.mpr ⟨rfl, nil_prefix⟩)

theorem solePool_head : headBucket bucket (solePool bucket other) = .ok true := by
  rw [headBucket_eq hb, any_eq_true.mpr ⟨0, mem_finRange _, soleObject_bucket hb⟩]

omit hb in
theorem solePool_coherent (env : Env) : Coherent env bucket other (solePool bucket other) :=
  fun _ _ h => by cases h

variable (hk : validateObjectKey key = .ok ()) (ho : validateObjectKey other = .ok ())

include ho in
theorem soleObject_stat : Backend.statObject bucket other (soleObject bucket other) = .ok soleMeta := by
  obtain ⟨htree, -⟩ := soleObject_spec other hb
  have hdir : (soleObject bucket other).fs.isDir (bucket :: keySegments other) = true :=
    (htree.dirs _).mpr (prefix_refl _)
  have hfile : (soleObject bucket other).fs.read (bucket :: keySegments other ++ ["meta.json"]) =
      some (.metaJson ⟨bucket, other, [soleMeta]⟩) := htree.file
  change statObject bucket other (soleObject bucket other) = _
  unfold statObject currentVersion
  rw [objectDir_ok hb ho]
  simp only [bind, Except.bind, readMetaFile]
  rw [if_pos hdir, hfile]
  rfl

include ho in
theorem solePool_info : headObject bucket other (solePool bucket other) =
    .ok (soleMeta.toInfo bucket other) := by
  have hcheck : checkKey bucket other none (solePool bucket other) = .ok () := by
    unfold checkKey
    rw [hb, ho, solePool_head hb]
    rfl
  have hstat : Backend.statObject bucket other ((solePool bucket other).disks 0) = .ok soleMeta :=
    soleObject_stat hb ho
  unfold headObject firstStat
  rw [hcheck, finRange_succ, findSome?_cons, hstat]
  rfl

include hk in
/-- The layout of a key that is not there is the default one. -/
theorem solePool_ec (hne : keySegments key ≠ keySegments other) :
    objectEc bucket key (solePool bucket other) = (1, 0) := by
  obtain ⟨htree, -⟩ := soleObject_spec other hb
  have hstat : firstStat bucket key (solePool bucket other) = none := by
    have hno : (soleObject bucket other).fs.read (bucket :: keySegments key ++ ["meta.json"]) = none := by
      refine htree.others _ fun he => hne ?_
      exact (cons.inj (append_cancel_right he)).2
    refine findSome?_eq_none_iff.mpr fun d _ => ?_
    change (statObject bucket key (soleObject bucket other)).toOption = none
    unfold statObject currentVersion
    rw [objectDir_ok hb hk]
    simp only [bind, Except.bind, readMetaFile, hno, ite_self]
    rfl
  have hsettings : ∀ d, Backend.readBucketSettings bucket ((solePool bucket other).disks d) = .empty := by
    intro d
    have hno : (soleObject bucket other).fs.read [".abixio.sys", "buckets", bucket, "settings.json"] =
        none := by
      refine htree.others _ fun he => bucket_ne_system hb ?_
      exact (cons.inj he).1.symm
    change readBucketSettings bucket (soleObject bucket other) = _
    unfold readBucketSettings
    rw [bucketSettingsPath_ok hb]
    dsimp only
    rw [hno]
  unfold objectEc readEcFromMeta bucketEc
  simp only [hstat, hsettings]
  rfl

include hk ho

/-- **A DELETE takes the keys below its own with it.** -/
theorem not_leavesAlone_of_nested (hne : keySegments key ≠ keySegments other)
    (hp : keySegments key <+: keySegments other) : ¬ LeavesAlone bucket key other := by
  intro h
  obtain ⟨htree, hsane⟩ := soleObject_spec other hb
  have hobj : bucket :: keySegments key <+: bucket :: keySegments other :=
    cons_prefix_cons.mpr ⟨rfl, hp⟩
  have hdir : (soleObject bucket other).fs.isDir (bucket :: keySegments key) = true := (htree.dirs _).mpr hobj
  obtain ⟨fs, hremove⟩ : ∃ fs,
      (soleObject bucket other).fs.removeDirAll (bucket :: keySegments key) = some fs := by
    unfold FileTree.removeDirAll
    rw [if_pos ⟨cons_ne_nil _ _, hdir⟩]
    exact ⟨_, rfl⟩
  have hdelete : LocalVolume.deleteObject bucket key (soleObject bucket other) =
      (.ok (), { soleObject bucket other with fs := fs }) := by
    unfold LocalVolume.deleteObject
    rw [objectDir_ok hb hk, Act.ok_bind, Act.bind_apply, Act.read_apply]
    dsimp only
    rw [if_pos hdir]
    exact fsCall_healthy rfl hremove
  have hrun : KeyRequest.run sampleEnv oneConfig bucket key .delete (solePool bucket other) =
      (.ok (), afterDelete bucket key (solePool bucket other)) := by
    obtain ⟨ec, hec, heq⟩ := deleteObject_eq hb hk (solePool bucket other)
    have hanswers : ((finRange 1).map fun d =>
        (Backend.deleteObject bucket key ((solePool bucket other).disks d)).1) = [.ok ()] :=
      congrArg (fun r => [Prod.fst r]) hdelete
    have hlayout : ec = (1, 0) := hec.trans (solePool_ec hb hk hne)
    change deleteObject bucket key (solePool bucket other) = _
    rw [heq, hanswers, hlayout]
    rfl
  have hsame := (h sampleEnv 1 oneConfig .delete _ _ (fun _ => hsane) (solePool_head hb)
    (solePool_coherent sampleEnv) hrun).reads.head
  -- afterwards the directory of the other key is gone
  have hgone : firstStat bucket other (afterDelete bucket key (solePool bucket other)) = none := by
    refine findSome?_eq_none_iff.mpr fun d _ => ?_
    have hno : fs.isDir (bucket :: keySegments other) = false := by
      unfold FileTree.isDir
      rw [removeDirAll_lookup hremove (cons_ne_nil _ _), if_pos hobj]
    have hdisk : (afterDelete bucket key (solePool bucket other)).disks d =
        { soleObject bucket other with fs := fs } := congrArg Prod.snd hdelete
    rw [hdisk, (absent_of_not_dir (objectDir_ok hb ho) hno).stat]
    rfl
  rw [solePool_info hb ho] at hsame
  unfold headObject at hsame
  rw [hgone] at hsame
  cases hcheck : checkKey bucket other none (afterDelete bucket key (solePool bucket other)) <;>
    rw [hcheck] at hsame <;> cases hsame

omit hk ho in
/-- The key on the disk is listed, if the walk can reach it. -/
theorem soleObject_listed (hlist : Listable other) :
    Listed (soleObject bucket other).fs [bucket] (keySegments other) := by
  obtain ⟨htree, -⟩ := soleObject_spec other hb
  refine ⟨keySegments_ne_nil other, hlist.1, fun q hq _ => ?_, fun q hq hne => ⟨fun hmeta => ?_, ?_⟩⟩
  · exact (htree.dirs _).mpr (cons_prefix_cons.mpr ⟨rfl, hq⟩)
  · -- a `meta.json` is the file, or a directory named so
    unfold hasMeta at hmeta
    rw [lookup_isSome, Bool.or_eq_true] at hmeta
    rcases hmeta with hdir | hfile
    · have hway := (cons_prefix_cons.mp ((htree.dirs _).mp hdir)).2
      obtain ⟨rest, hrest⟩ := hway
      obtain ⟨first, front, rfl⟩ := exists_cons_of_ne_nil hne
      refine absurd ?_ hlist.2
      rw [← hrest]
      simp
    · by_contra hother
      have hnone := htree.others ([bucket] ++ q ++ ["meta.json"]) fun he =>
        hother (cons.inj (append_cancel_right he)).2
      rw [hnone] at hfile
      cases hfile
  · rintro rfl
    unfold hasMeta
    rw [lookup_isSome, Bool.or_eq_true]
    right
    have hfile : (soleObject bucket other).fs.read ([bucket] ++ keySegments other ++ ["meta.json"]) = _ :=
      htree.file
    rw [hfile]
    rfl

omit hb hk ho in
theorem firstKeys_one {p : Pool LocalVolume 1} {keys : List String}
    (h : LocalVolume.listObjects bucket keyPrefix (p.disks 0) = .ok keys) :
    firstKeys bucket keyPrefix p = keys := by
  have hanswer : Backend.listObjects bucket keyPrefix (p.disks 0) = .ok keys := h
  unfold firstKeys
  rw [finRange_succ, findSome?_cons, hanswer]
  rfl

omit hk in
theorem solePool_lists (hlist : Listable other) : ListsVersions bucket "" other
    (markLatest false [soleMeta]) (solePool bucket other) := by
  obtain ⟨htree, hsane⟩ := soleObject_spec other hb
  have ha : Accepted bucket other none := ⟨hb, ho, fun _ h => by cases h⟩
  refine listsVersions_iff.mpr ⟨by decide, solePool_head hb, ?_, ?_⟩
  · obtain ⟨keys, hkeys⟩ : ∃ keys, LocalVolume.listObjects bucket "" (soleObject bucket other) = .ok keys :=
      listObjects_ok hb (by decide)
    have hfirst : firstKeys bucket "" (solePool bucket other) = keys := firstKeys_one hkeys
    rw [hfirst]
    exact (mem_listObjects hsane hkeys).mpr
      ⟨soleObject_bucket hb, soleObject_listed hb hlist, nil_prefix⟩
  · have hversions : Backend.readMetaVersions bucket other ((solePool bucket other).disks 0) =
        .ok (markLatest false [soleMeta]) := by
      change readMetaVersions bucket other (soleObject bucket other) = _
      unfold readMetaVersions
      rw [ha.objectMetaPath]
      simp only [bind, Except.bind, readMetaFile]
      rw [htree.file]
    unfold firstVersions
    rw [finRange_succ, findSome?_cons, hversions]
    rfl

omit ho in
/-- A delete marker makes the directory of its key. -/
theorem mark_isDir (hnest : NotNested key other) (marker : ObjectMeta) :
    ∃ w, (pushMarker bucket key marker : VolAct LocalVolume Unit) (soleObject bucket other) = (.ok (), w) ∧
      ∀ q, q <+: bucket :: keySegments key → w.fs.isDir q = true := by
  obtain ⟨htree, -⟩ := soleObject_spec other hb
  obtain ⟨fs, hfs⟩ : ∃ fs, (soleObject bucket other).fs.createDirAll (bucket :: keySegments key) = some fs := by
    refine createDirs_isSome fun q hq => htree.others q ?_
    rintro rfl
    refine hnest.2 ((prefix_append _ ["meta.json"]).trans ?_)
    exact (cons_prefix_cons.mp hq).2
  have hdirs : ∀ q, q <+: bucket :: keySegments key → fs.isDir q = true := fun q hq =>
    createDirAll_isDir hfs hq
  have hfree : fs.isDir (bucket :: keySegments key ++ ["meta.json"]) = false := by
    rw [FileTree.createDirAll_isDir_of_not_prefix hfs (not_prefix_concat _ _), Bool.eq_false_iff]
    intro hdir
    have hway := (prefix_append _ _).trans ((htree.dirs _).mp hdir)
    exact hnest.1 (cons_prefix_cons.mp hway).2
  have hpush : ∀ versions, ∃ w, (writeMetaVersions bucket key versions) (soleObject bucket other) =
      (.ok (), w) ∧ ∀ q, q <+: bucket :: keySegments key → w.fs.isDir q = true := by
    intro versions
    obtain ⟨w, hw, -⟩ : ∃ w, writeWhole (bucket :: keySegments key ++ ["meta.json"])
        (.metaJson ⟨bucket, key, versions⟩) { soleObject bucket other with fs := fs } = (.ok (), w) ∧
          w.faults = [] :=
      writeWhole_healthy rfl (hdirs _ (prefix_refl _)) hfree
    refine ⟨w, ?_, fun q hq => ?_⟩
    · unfold writeMetaVersions
      rw [objectDir_ok hb hk, Act.ok_bind]
      unfold createDirAll
      rw [bind_ok (fsCall_healthy rfl hfs)]
      exact hw
    · rw [(writeWhole_ok hw).2.2 q]
      exact hdirs q hq
  exact hpush _

/-- **A delete marker on a key below a `meta.json` hides the keys beside it.** -/
theorem not_leavesAlone_of_hides (hnest : NotNested key other) (hides : Hides key other) :
    ¬ LeavesAlone bucket key other := by
  intro h
  obtain ⟨hlist, q, hq, hne, hway⟩ := hides
  obtain ⟨htree, hsane⟩ := soleObject_spec other hb
  obtain ⟨w, hpush, hdirs⟩ := mark_isDir hb hk hnest (deleteMarker "" 0)
  have hcheck : checkKey bucket key none (solePool bucket other) = .ok () := by
    unfold checkKey
    rw [hb, hk, solePool_head hb]
    rfl
  have hmark : addDeleteMarker bucket key "" 0 (solePool bucket other) =
      (.ok ((deleteMarker "" 0).toInfo bucket key), ⟨fun _ => w, none, none⟩) := by
    have hdisks : (fun d => ((pushMarker bucket key (deleteMarker "" 0) : VolAct LocalVolume Unit)
        ((solePool bucket other).disks d)).2) = fun _ => w := funext fun _ => congrArg Prod.snd hpush
    unfold addDeleteMarker
    rw [Act.bind_apply, Act.query_apply, hcheck]
    dsimp only
    rw [bind_ok (onDisks_each_attempt _ _), hdisks]
    rfl
  have hrun : KeyRequest.run sampleEnv oneConfig bucket key (.mark "" 0) (solePool bucket other) =
      (.ok (), ⟨fun _ => w, none, none⟩) := by
    change (addDeleteMarker bucket key "" 0 >>= fun _ => pure ()) (solePool bucket other) = _
    rw [bind_ok hmark]
    rfl
  have hsame := (h sampleEnv 1 oneConfig (.mark "" 0) _ _ (fun _ => hsane) (solePool_head hb)
    (solePool_coherent sampleEnv) hrun).reads.listing "" (markLatest false [soleMeta])
  -- the key is listed before
  have hbefore := hsame.mpr (solePool_lists hb ho hlist)
  -- and afterwards a directory above it has a `meta.json`
  obtain ⟨-, -, hmem, -⟩ := listsVersions_iff.mp hbefore
  obtain ⟨keys, hkeys⟩ : ∃ keys, LocalVolume.listObjects bucket "" w = .ok keys :=
    listObjects_ok hb (by decide)
  rw [firstKeys_one hkeys] at hmem
  obtain ⟨-, names, hnames, hjoin, -⟩ := (mem_listObjects_names hkeys).mp hmem
  have hchange : KeyChange bucket key (soleObject bucket other) w := by
    have hmoved : DisksFor (uploadsDir bucket key) (objectPath bucket key) (solePool bucket other)
      (KeyRequest.run sampleEnv oneConfig bucket key (.mark "" 0) (solePool bucket other)).2 :=
        (KeyRequest.touches _ _).disks
    rw [hrun] at hmoved
    exact hmoved 0
  obtain ⟨rfl, -⟩ := names_eq hchange hb hnest hsane hnames hjoin
  have hmeta : hasMeta w.fs ([bucket] ++ q) = true := by
    have hdir := hdirs (bucket :: (q ++ ["meta.json"])) (cons_prefix_cons.mpr ⟨rfl, hway⟩)
    unfold hasMeta
    rw [lookup_isSome, Bool.or_eq_true]
    exact Or.inl hdir
  have heq := (hnames.first q ((mem_inits q _).mp hq) hne).mp hmeta
  rw [heq] at hway
  exact hnest.2 ((prefix_append _ _).trans hway)

end Sole

/-- **Two keys of a bucket leave each other alone exactly if they are unrelated.** -/
theorem independent_iff {bucket key other : String} (hb : validateBucketName bucket = .ok ())
    (hk : validateObjectKey key = .ok ()) (ho : validateObjectKey other = .ok ()) (hne : key ≠ other) :
    LeavesAlone bucket key other ∧ LeavesAlone bucket other key ↔ Unrelated key other := by
  have hsegs : keySegments key ≠ keySegments other := by
    intro he
    rw [← intercalate_keySegments key, ← intercalate_keySegments other, he] at hne
    exact hne rfl
  constructor
  · rintro ⟨hkey, hother⟩
    have hnest : NotNested key other :=
      ⟨fun hp => not_leavesAlone_of_nested hb hk ho hsegs hp hkey,
        fun hp => not_leavesAlone_of_nested hb ho hk hsegs.symm hp hother⟩
    exact ⟨hnest, fun hides => not_leavesAlone_of_hides hb hk ho hnest hides hkey,
      fun hides => not_leavesAlone_of_hides hb ho hk hnest.symm hides hother⟩
  · intro h
    exact ⟨h.leavesAlone hb ho, h.symm.leavesAlone hb hk⟩

/-- The keys `a/b` and `a/c` of `bkt` leave each other alone. -/
theorem independent_siblings : LeavesAlone "bkt" "a/b" "a/c" ∧ LeavesAlone "bkt" "a/c" "a/b" := by
  refine (independent_iff (by decide) (by decide) (by decide) (by decide)).mpr ⟨?_, ?_, ?_⟩
  · decide
  · decide
  · decide

/-! ## Many requests -/

section Runs

variable {n : Nat} {env : Env} {cfg : PoolConfig n} {p p' p'' : Pool LocalVolume n}

/-- Requests on keys of a bucket, one after the other; what they answer is left out. -/
def runRequests (env : Env) (cfg : PoolConfig n) (bucket : String) (requests : List (String × KeyRequest))
    (p : Pool LocalVolume n) : Pool LocalVolume n :=
  requests.foldl (fun p r => (r.2.run env cfg bucket r.1 p).2) p

theorem KeepsKey.trans (h : KeepsKey bucket key p p') (h' : KeepsKey bucket key p' p'') :
    KeepsKey bucket key p p'' := by
  refine ⟨fun d => (h.content d).trans (h'.content d), h'.head ∘ h.head, h'.write.trans h.write, ?_,
    fun id => (h'.upload id).trans (h.upload id), fun id => (h'.parts id).trans (h.parts id)⟩
  rcases h'.read with hsame | hnone
  · rw [hsame]
    exact h.read
  · exact Or.inr hnone

theorem runRequests_keeps (hb : ValidBucket bucket) (ho : validateObjectKey other = .ok ())
    (requests : List (String × KeyRequest)) (hnest : ∀ r ∈ requests, NotNested r.1 other) :
    KeepsKey bucket other p (runRequests env cfg bucket requests p) := by
  induction requests generalizing p with
  | nil => exact ⟨fun d => .refl _ _ _, id, rfl, Or.inl rfl, fun _ => rfl, fun _ => rfl⟩
  | cons r requests ih =>
    exact (r.2.keeps hb ho (hnest r mem_cons_self) p).trans (ih fun r' hr' => hnest r' (.tail _ hr'))

/-- **No run of requests disturbs a key that they are not nested with**, whichever of them fail: both GETs,
a HEAD and the lists of uploaded parts answer as before. -/
theorem requests_keep_key {requests : List (String × KeyRequest)} (hb : validateBucketName bucket = .ok ())
    (ho : validateObjectKey other = .ok ()) (hnest : ∀ r ∈ requests, NotNested r.1 other)
    (hhead : headBucket bucket p = .ok true) (hcoherent : Coherent env bucket other p)
    (hrun : runRequests env cfg bucket requests p = p') :
    (getObject env bucket other p').1 = (getObject env bucket other p).1 ∧
      streamedObject env bucket other p' = streamedObject env bucket other p ∧
      headObject bucket other p' = headObject bucket other p ∧
      ∀ uploadId, listParts bucket other uploadId p'.disks = listParts bucket other uploadId p.disks := by
  have hkeeps : KeepsKey bucket other p p' := hrun ▸ runRequests_keeps hb ho requests hnest
  obtain ⟨hget, hstream, hhead'⟩ := sameGets_of_cached ((hkeeps.head hhead).trans hhead.symm)
    (hkeeps.read.imp_right fun hnone => ⟨hnone, hcoherent⟩) hkeeps.content hkeeps.write
  exact ⟨hget, hstream, hhead', hkeeps.parts⟩

end Runs

/-- `a` and `c/d` are deleted on a disk that has `b`, and a marker is set on `c`. -/
theorem requests_keep_key_sole : headObject "bkt" "b" (runRequests sampleEnv oneConfig "bkt"
    [("a", .delete), ("c/d", .delete), ("c", .mark "" 0)] (solePool "bkt" "b")) =
      headObject "bkt" "b" (solePool "bkt" "b") :=
  (requests_keep_key (by decide) (by decide) (by decide) (solePool_head (by decide))
    (solePool_coherent sampleEnv) rfl).2.2.1

/-- One disk after PUTs of `x`. -/
def putAll (keys : List String) : Pool LocalVolume 1 :=
  keys.foldl (fun p key =>
    (KeyRequest.run sampleEnv oneConfig "bkt" key (.put sampleRequest true [.ok (utf8 "x")]) p).2) (onePool [] none)

/-- **Keys in each other's way.** `a` and `a/b` are stored: a DELETE of `a` removes `a/b`. `a/b` is
stored: a PUT of `a/meta.json` takes it off the version list. -/
theorem nested_key_deleted : ((headObject "bkt" "a/b" (putAll ["a", "a/b"])).isOk = true ∧
      (KeyRequest.run sampleEnv oneConfig "bkt" "a" .delete (putAll ["a", "a/b"])).1 = .ok () ∧
      headObject "bkt" "a/b" (KeyRequest.run sampleEnv oneConfig "bkt" "a" .delete (putAll ["a", "a/b"])).2 =
        .error .objectNotFound) ∧
    (listObjectVersions "bkt" "" (putAll ["a/b"])).map (map Prod.fst) = .ok ["a/b"] ∧
      (listObjectVersions "bkt" "" (putAll ["a/b", "a/meta.json"])).map (map Prod.fst) = .ok [] ∧
      (headObject "bkt" "a/meta.json" (putAll ["a/b", "a/meta.json"])).isOk = true ∧
    ¬ LeavesAlone "bkt" "a" "a/b" ∧ ¬ LeavesAlone "bkt" "a/meta.json" "a/b" := by
  refine ⟨⟨?_, ?_, ?_⟩, ?_, ?_, ?_, ?_, ?_⟩
  · decide +kernel
  · decide +kernel
  · decide +kernel
  · decide +kernel
  · decide +kernel
  · decide +kernel
  · exact not_leavesAlone_of_nested (by decide) (by decide) (by decide) (by decide) (by decide)
  · exact not_leavesAlone_of_hides (by decide) (by decide) (by decide) (by decide) (by decide)

end Abixio
