import Abixio.Storage.Listing

/-!
# Paths below a volume's root

`Pathing.lean` has paths relative to the root of a volume. Here they are as `src/storage/pathing.rs` builds
them: the text of a root, to which `safe_join` pushes the parts, and the components of the normalized
result.

* A `PathBuf` is its text. `push` of an absolute part replaces it.
* `components` drops empty names and `.`, except a leading `.`; `normalize_path` drops that one too, and
  lets `..` take the name before it, if there is one.
* `starts_with` compares components.

`safeJoinAt_plain`: below an absolute root, names without a slash are the components after those of the
root, so the relative paths of `Pathing.lean` are the real ones without the root (`objectDirAt_eq`).
`paths_confined` puts the paths of objects, versions, settings and uploads strictly below the root, and
objects and versions outside of the system directories; distinct objects have distinct paths.
-/

namespace Abixio

open List

/-- `std::path::Component`, on Unix. -/
inductive Component where
  | rootDir
  | curDir
  | parentDir
  | normal (name : String)
  deriving DecidableEq

/-- `PathBuf::push`. -/
def pushPath (path : List Char) (part : String) : List Char :=
  if part.toList.head? = some '/' then part.toList
  else if path.getLast?.any (· ≠ '/') then path ++ '/' :: part.toList
  else path ++ part.toList

/-- The component of a name between slashes. -/
def nameComponent (name : List Char) : Option Component :=
  if name = [] ∨ name = ['.'] then none
  else if name = ['.', '.'] then some .parentDir
  else some (.normal (String.ofList name))

/-- `Path::components`. -/
def components (path : List Char) : List Component :=
  let names := path.splitOn '/'
  let start := if path.head? = some '/' then [.rootDir]
    else if names.head? = some ['.'] then [.curDir]
    else []
  start ++ names.filterMap nameComponent

/-- One turn of `normalize_path`. Neither the root nor the empty path has a parent to `pop` to. -/
def normalizeStep (normalized : List Component) : Component → List Component
  | .curDir => normalized
  | .parentDir => if normalized.getLast? = some .rootDir then normalized else normalized.dropLast
  | .normal name => normalized ++ [.normal name]
  | .rootDir => [.rootDir]

/-- The components of `normalize_path`. -/
def normalizeAt (path : List Char) : List Component := (components path).foldl normalizeStep []

/-- `safe_join`. -/
def safeJoinAt (root : String) (parts : List String) : Except StorageError (List Component) :=
  let candidate := parts.foldl pushPath root.toList
  if (normalizeAt root.toList).isPrefixOf (normalizeAt candidate) then .ok (normalizeAt candidate)
  else .error (.invalidObjectKey (String.ofList candidate))

/-- `PathBuf::join`, on the components of a normalized path. -/
def joinAt (path : List Component) (part : String) : List Component :=
  if part.toList.head? = some '/' then components part.toList
  else path ++ (part.toList.splitOn '/').filterMap nameComponent

/-- `object_dir`. -/
def objectDirAt (root bucket key : String) : Except StorageError (List Component) := do
  validateBucketName bucket
  validateObjectKey key
  safeJoinAt root (bucket :: keySegments key)

/-- `version_shard_path`. -/
def versionShardPathAt (root bucket key versionId : String) : Except StorageError (List Component) := do
  validateVersionId versionId
  let dir ← objectDirAt root bucket key
  .ok (joinAt (joinAt dir versionId) "shard.dat")

/-- `bucket_settings_path`. -/
def bucketSettingsPathAt (root bucket : String) : Except StorageError (List Component) := do
  validateBucketName bucket
  let dir ← safeJoinAt root [".abixio.sys", "buckets", bucket]
  .ok (joinAt dir "settings.json")

/-- `multipart_upload_dir`. -/
def multipartUploadDirAt (root bucket key uploadId : String) :
    Except StorageError (List Component) := do
  validateBucketName bucket
  validateObjectKey key
  validateUploadId uploadId
  safeJoinAt root ([".abixio.sys", "multipart", bucket] ++ keySegments key ++ [uploadId])

/-! ## Plain names -/

/-- A name that is one component. -/
structure PlainName (name : String) : Prop where
  plain : isPlainPart name = true
  slash : '/' ∉ name.toList

variable {name : String}

variable {root bucket key : String} {names : List String}

theorem PlainName.component (h : PlainName name) :
    nameComponent name.toList = some (.normal name) := by
  have hplain := h.plain
  simp only [isPlainPart, Bool.and_eq_true, decide_eq_true_eq] at hplain
  have hne : ∀ s : String, name ≠ s → name.toList ≠ s.toList := fun s hs h => hs (String.toList_inj.mp h)
  unfold nameComponent
  rw [if_neg, if_neg (show name.toList ≠ ['.', '.'] from hne ".." hplain.2), String.ofList_toList]
  rintro (hempty | hdot)
  · exact hne "" hplain.1.1 hempty
  · exact hne "." hplain.1.2 hdot

theorem PlainName.split (h : PlainName name) :
    (name.toList.splitOn '/').filterMap nameComponent = [.normal name] := by
  rw [splitOn_eq_singleton h.slash, filterMap_cons, h.component]
  rfl

theorem PlainName.relative (h : PlainName name) : name.toList.head? ≠ some '/' := by
  intro hhead
  exact h.slash (mem_of_head? hhead)

theorem plainName_bucket (h : ValidBucket bucket) : PlainName bucket :=
  ⟨isPlainPart_of_bucket h, slash_not_mem_bucket h⟩

theorem plainName_segment {name : String} (h : ValidKey key)
    (hname : name ∈ keySegments key) : PlainName name :=
  ⟨isPlainPart_of_key h hname, slash_not_mem_segment hname⟩

theorem plainName_id {id : String} (h : uuidParses id = true) : PlainName id := by
  have hid : validateVersionId id = .ok () := if_pos h
  exact ⟨isPlainPart_of_check (P := (uuidParses · = true)) h (by decide), slash_not_mem_versionId hid⟩

/-! ## Joining plain names to a root -/

/-- A path that starts at the root directory. -/
def Absolute (path : List Char) : Prop := path.head? = some '/'

instance (path : List Char) : Decidable (Absolute path) :=
  inferInstanceAs (Decidable (path.head? = some '/'))

theorem components_absolute {path : List Char} (h : Absolute path) :
    components path = .rootDir :: (path.splitOn '/').filterMap nameComponent := by
  unfold components
  dsimp only
  rw [if_pos (show path.head? = some '/' from h)]
  rfl

/-- **Pushing a plain name adds its component.** -/
theorem components_push {path : List Char} (h : Absolute path) (hname : PlainName name) :
    Absolute (pushPath path name) ∧ components (pushPath path name) = components path ++ [.normal name] := by
  obtain ⟨rest, rfl⟩ : ∃ rest, path = '/' :: rest := by
    cases path with
    | nil => cases h
    | cons c rest => exact ⟨rest, congrArg (· :: rest) (Option.some.inj h)⟩
  have habs : Absolute (pushPath ('/' :: rest) name) := by
    unfold pushPath
    rw [if_neg hname.relative]
    split_ifs <;> rfl
  refine ⟨habs, ?_⟩
  rw [components_absolute habs, components_absolute h, cons_append, ← hname.split]
  congr 1
  unfold pushPath
  rw [if_neg hname.relative]
  split_ifs with hlast
  · rw [splitOn_append_cons_self, filterMap_append]
  · -- the path ends in a slash: the name fills the empty name after it
    have hslash : ('/' :: rest).getLast? = some '/' := by
      rw [getLast?_cons]
      rw [getLast?_cons, Option.any_some, decide_not, Bool.not_eq_true, Bool.not_eq_false',
        decide_eq_true_eq] at hlast
      rw [hlast]
    obtain ⟨front, hfront⟩ : ∃ front, '/' :: rest = front ++ ['/'] :=
      ⟨_, (dropLast_append_getLast? _ hslash).symm⟩
    rw [hfront, append_assoc]
    change ((front ++ '/' :: name.toList).splitOn '/').filterMap nameComponent =
      ((front ++ ['/']).splitOn '/').filterMap nameComponent ++ _
    rw [splitOn_append_cons_self, splitOn_append_cons_self, filterMap_append,
      filterMap_append, splitOn_nil,
      show [([] : List Char)].filterMap nameComponent = [] from rfl, append_nil]

theorem components_push_all (hnames : ∀ name ∈ names, PlainName name) :
    ∀ {path : List Char}, Absolute path → Absolute (names.foldl pushPath path) ∧
      components (names.foldl pushPath path) = components path ++ names.map .normal := by
  induction names with
  | nil =>
    intro path h
    exact ⟨h, by rw [foldl_nil, map_nil, append_nil]⟩
  | cons name names ih =>
    intro path h
    obtain ⟨habs, hcomp⟩ := components_push h (hnames name mem_cons_self)
    obtain ⟨habs', hcomp'⟩ := ih (fun name' h' => hnames name' (.tail _ h')) habs
    refine ⟨habs', ?_⟩
    rw [foldl_cons, hcomp', hcomp, append_assoc]
    rfl

theorem normalize_names (names : List String) (done : List Component) :
    (names.map Component.normal).foldl normalizeStep done = done ++ names.map .normal := by
  induction names generalizing done with
  | nil => rw [map_nil, foldl_nil, append_nil]
  | cons name names ih =>
    rw [map_cons, foldl_cons, ih, normalizeStep, append_assoc]
    rfl

/-- **`safe_join` of plain names** is the root and the names. -/
theorem safeJoinAt_plain (h : Absolute root.toList) (hnames : ∀ name ∈ names, PlainName name) :
    safeJoinAt root names = .ok (normalizeAt root.toList ++ names.map .normal) := by
  have hjoined : normalizeAt (names.foldl pushPath root.toList) =
      normalizeAt root.toList ++ names.map .normal := by
    unfold normalizeAt
    rw [(components_push_all hnames h).2, foldl_append, normalize_names]
  unfold safeJoinAt
  dsimp only
  rw [hjoined, if_pos]
  rw [List.isPrefixOf_iff_prefix]
  exact prefix_append _ _

theorem joinAt_plain (path : List Component) (h : PlainName name) :
    joinAt path name = path ++ [.normal name] := by
  unfold joinAt
  rw [if_neg h.relative, h.split]

/-- The names of an object's path. -/
theorem plainNames_object (hb : ValidBucket bucket)
    (hk : ValidKey key) : ∀ name ∈ bucket :: keySegments key, PlainName name := by
  intro name hname
  rcases mem_cons.mp hname with rfl | hseg
  · exact plainName_bucket hb
  · exact plainName_segment hk hseg

/-- **The paths of `Pathing.lean` are those below the root.** -/
theorem objectDirAt_eq (h : Absolute root.toList) : objectDirAt root bucket key =
      (objectDir bucket key).map fun p => normalizeAt root.toList ++ p.map .normal := by
  cases hb : validateBucketName bucket with
  | error e =>
    unfold objectDirAt objectDir
    rw [hb]
    rfl
  | ok _ =>
    cases hk : validateObjectKey key with
    | error e =>
      unfold objectDirAt objectDir
      rw [hb, hk]
      rfl
    | ok _ =>
      rw [objectDir_ok hb hk]
      unfold objectDirAt
      rw [hb, hk]
      exact safeJoinAt_plain h (plainNames_object hb hk)

/-! ## Confinement -/

/-- A path that leads from a directory to something in it. -/
def StrictlyBelow (dir path : List Component) : Prop :=
  ∃ names : List String, names ≠ [] ∧ (∀ name ∈ names, PlainName name) ∧ path = dir ++ names.map .normal

section Confined

variable {root bucket key : String} {p : List Component}

/-- An accepted object is in its bucket's directory. -/
theorem objectDirAt_ok (h : Absolute root.toList) (hp : objectDirAt root bucket key = .ok p) :
    ValidBucket bucket ∧ ValidKey key ∧
      p = normalizeAt root.toList ++ (bucket :: keySegments key).map .normal := by
  obtain ⟨⟨⟩, hb, hrest⟩ := Lib.except_bind_eq_ok.mp hp
  obtain ⟨⟨⟩, hk, -⟩ := Lib.except_bind_eq_ok.mp hrest
  rw [objectDirAt_eq h, objectDir_ok hb hk] at hp
  exact ⟨hb, hk, (Except.ok.inj hp).symm⟩

/-- What is below a bucket's directory is below no system directory. -/
theorem not_system_below {dir : List Component} (hb : ValidBucket bucket)
    (hname : validateBucketName name ≠ .ok ()) (hp : StrictlyBelow (dir ++ [.normal bucket]) p) :
    ¬ dir ++ [.normal name] <+: p := by
  obtain ⟨names, -, -, rfl⟩ := hp
  rw [append_assoc, prefix_append_right_inj]
  intro hprefix
  obtain ⟨heq, -⟩ := cons_prefix_cons.mp hprefix
  rw [Component.normal.injEq] at heq
  subst heq
  exact hname hb

theorem StrictlyBelow.of_bucket {dir : List Component} (hb : ValidBucket bucket)
    (hp : StrictlyBelow (dir ++ [.normal bucket]) p) : StrictlyBelow dir p := by
  obtain ⟨names, -, hplain, rfl⟩ := hp
  refine ⟨bucket :: names, cons_ne_nil _ _, fun name hname => ?_, ?_⟩
  · rcases mem_cons.mp hname with rfl | hname
    · exact plainName_bucket hb
    · exact hplain name hname
  · rw [append_assoc]
    rfl

/-- Objects and their versions are in the directory of their bucket. -/
theorem objectPaths_below (h : Absolute root.toList) {versionId : String}
    (hp : objectDirAt root bucket key = .ok p ∨ versionShardPathAt root bucket key versionId = .ok p) :
    ValidBucket bucket ∧
      StrictlyBelow (normalizeAt root.toList ++ [.normal bucket]) p := by
  rcases hp with hp | hp
  · obtain ⟨hb, hk, rfl⟩ := objectDirAt_ok h hp
    refine ⟨hb, keySegments key, keySegments_ne_nil key, fun name => plainName_segment hk, ?_⟩
    rw [append_assoc]
    rfl
  · unfold versionShardPathAt at hp
    unfold validateVersionId at hp
    split_ifs at hp with hid
    · obtain ⟨_, -, hp⟩ := Lib.except_bind_eq_ok.mp hp
      obtain ⟨dir, hdir, hp⟩ := Lib.except_bind_eq_ok.mp hp
      obtain ⟨hb, hk, rfl⟩ := objectDirAt_ok h hdir
      have hfile : PlainName "shard.dat" := ⟨by decide, by decide⟩
      have hpath : joinAt (joinAt _ versionId) "shard.dat" = p := Except.ok.inj hp
      rw [joinAt_plain _ (plainName_id hid), joinAt_plain _ hfile] at hpath
      refine ⟨hb, keySegments key ++ [versionId, "shard.dat"], by simp, fun name hname => ?_, ?_⟩
      · rcases mem_append.mp hname with hseg | hlast
        · exact plainName_segment hk hseg
        · simp only [mem_cons, not_mem_nil, or_false] at hlast
          rcases hlast with rfl | rfl
          · exact plainName_id hid
          · exact hfile
      · rw [← hpath]
        simp
    · cases hp

/-- Settings and uploads are below the root. -/
theorem systemPaths_below (h : Absolute root.toList) {uploadId : String}
    (hp : bucketSettingsPathAt root bucket = .ok p ∨ multipartUploadDirAt root bucket key uploadId = .ok p) :
    StrictlyBelow (normalizeAt root.toList) p := by
  have hsys : ∀ {name : String}, name = ".abixio.sys" ∨ name = "buckets" ∨ name = "multipart" ∨
      name = "settings.json" → PlainName name := by
    rintro name (rfl | rfl | rfl | rfl) <;> exact ⟨by decide, by decide⟩
  cases hb : validateBucketName bucket with
  | error e =>
    unfold bucketSettingsPathAt multipartUploadDirAt at hp
    rw [hb] at hp
    rcases hp with hp | hp <;> cases hp
  | ok _ =>
    rcases hp with hp | hp
    · have hnames : ∀ name ∈ [".abixio.sys", "buckets", bucket], PlainName name := by
        intro name hname
        simp only [mem_cons, not_mem_nil, or_false] at hname
        rcases hname with rfl | rfl | rfl
        · exact hsys (by simp)
        · exact hsys (by simp)
        · exact plainName_bucket hb
      unfold bucketSettingsPathAt at hp
      rw [hb, safeJoinAt_plain h hnames] at hp
      have hpath : joinAt _ "settings.json" = p := Except.ok.inj hp
      rw [joinAt_plain _ (hsys (by simp))] at hpath
      refine ⟨[".abixio.sys", "buckets", bucket, "settings.json"], by simp, fun name hname => ?_, ?_⟩
      · rw [show [".abixio.sys", "buckets", bucket, "settings.json"] =
          [".abixio.sys", "buckets", bucket] ++ ["settings.json"] from rfl] at hname
        rcases mem_append.mp hname with hname | hname
        · exact hnames name hname
        · exact hsys (by simp [mem_singleton.mp hname])
      · rw [← hpath, append_assoc]
        rfl
    · unfold multipartUploadDirAt at hp
      obtain ⟨⟨⟩, -, hp⟩ := Lib.except_bind_eq_ok.mp hp
      obtain ⟨⟨⟩, hk, hp⟩ := Lib.except_bind_eq_ok.mp hp
      unfold validateUploadId at hp
      split_ifs at hp with hid
      · have hnames : ∀ name ∈ [".abixio.sys", "multipart", bucket] ++ keySegments key ++ [uploadId],
            PlainName name := by
          intro name hname
          simp only [mem_append, mem_cons, not_mem_nil, or_false] at hname
          rcases hname with ((rfl | rfl | rfl) | hseg) | rfl
          · exact hsys (by simp)
          · exact hsys (by simp)
          · exact plainName_bucket hb
          · exact plainName_segment hk hseg
          · exact plainName_id hid
        have hpath : safeJoinAt root _ = .ok p := hp
        rw [safeJoinAt_plain h hnames] at hpath
        exact ⟨_, by simp, hnames, (Except.ok.inj hpath).symm⟩
      · cases hp

/-- **Paths are confined, and objects do not share one.** Below an absolute root, whatever strings they
are built from: objects and versions lie strictly below the directory of their bucket and outside of the
system directories, settings and uploads strictly below the root, and `object_dir` is injective. -/
theorem paths_confined (h : Absolute root.toList) (bucket key versionId uploadId : String) :
    (∀ p, objectDirAt root bucket key = .ok p ∨ versionShardPathAt root bucket key versionId = .ok p →
        StrictlyBelow (normalizeAt root.toList) p ∧
          StrictlyBelow (normalizeAt root.toList ++ [.normal bucket]) p ∧
          ¬ normalizeAt root.toList ++ [.normal ".abixio.sys"] <+: p ∧
          ¬ normalizeAt root.toList ++ [.normal ".abixio.tmp"] <+: p) ∧
      (∀ p, bucketSettingsPathAt root bucket = .ok p ∨
          multipartUploadDirAt root bucket key uploadId = .ok p →
        StrictlyBelow (normalizeAt root.toList) p) ∧
      ∀ bucket' key' p, objectDirAt root bucket key = .ok p → objectDirAt root bucket' key' = .ok p →
        bucket = bucket' ∧ key = key' := by
  refine ⟨fun p hp => ?_, fun p hp => systemPaths_below h hp, fun bucket' key' p hp hp' => ?_⟩
  · obtain ⟨hb, hbelow⟩ := objectPaths_below h hp
    exact ⟨hbelow.of_bucket hb, hbelow, not_system_below hb (by decide) hbelow,
      not_system_below hb (by decide) hbelow⟩
  · obtain ⟨-, -, rfl⟩ := objectDirAt_ok h hp
    obtain ⟨-, -, heq⟩ := objectDirAt_ok h hp'
    have hnames := map_injective_iff.mpr (fun _ _ e => Component.normal.inj e)
      (append_cancel_left heq)
    obtain ⟨hbucket, hsegments⟩ := List.cons.inj hnames
    refine ⟨hbucket, ?_⟩
    rw [← intercalate_keySegments key, hsegments, intercalate_keySegments]

/-- An object and an upload below a root that is not normalized. -/
theorem paths_confined_sample : (∃ p, objectDirAt "/srv/../data/" "bkt" "a/b" = .ok p ∧
      StrictlyBelow (normalizeAt "/srv/../data/".toList) p) ∧
      ∃ p, multipartUploadDirAt "/srv/../data/" "bkt" "a/b" "00000000-0000-0000-0000-000000000001" = .ok p ∧
        StrictlyBelow (normalizeAt "/srv/../data/".toList) p := by
  have habs : Absolute "/srv/../data/".toList := by decide
  obtain ⟨hobject, hupload, -⟩ := paths_confined habs "bkt" "a/b" "" "00000000-0000-0000-0000-000000000001"
  have hobj : objectDirAt "/srv/../data/" "bkt" "a/b" =
      .ok [.rootDir, .normal "data", .normal "bkt", .normal "a", .normal "b"] := by decide +kernel
  have hupl : multipartUploadDirAt "/srv/../data/" "bkt" "a/b" "00000000-0000-0000-0000-000000000001" =
      .ok [.rootDir, .normal "data", .normal ".abixio.sys", .normal "multipart", .normal "bkt", .normal "a",
        .normal "b", .normal "00000000-0000-0000-0000-000000000001"] := by decide +kernel
  exact ⟨⟨_, hobj, (hobject _ (Or.inl hobj)).1⟩, ⟨_, hupl, hupload _ (Or.inr hupl)⟩⟩

end Confined

end Abixio
