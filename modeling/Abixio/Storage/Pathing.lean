import Abixio.Lib.FileTree
import Abixio.Storage.Metadata

/-!
# Names and paths

Model of `src/storage/pathing.rs`: which bucket names, keys and ids are accepted, and where objects
live below a volume's root. Paths are lists of components below the root, so `safe_join`'s test that
the normalized path stays below the root is that normalizing never pops above it.

* Lengths are in bytes of UTF-8, as `str::len` has them.
* `trim` removes Unicode white space at both ends. The bucket name is validated after trimming but
  used untrimmed.
* `uuidParses` is `Uuid::parse_str(..).is_ok()`: 32 hex digits, the hyphenated form, or that form in
  braces or after `urn:uuid:`.

`objectDir_ok`: an accepted bucket and key are the components of the object's path.
-/

namespace Abixio

open Lib List

/-- `MAX_KEY_LEN`. -/
def maxKeyLen : Nat := 1024

/-- `WINDOWS_FORBIDDEN`, by code point: `: * ? " | < > \`. -/
def windowsForbidden : List Nat := [58, 42, 63, 34, 124, 60, 62, 92]

/-- `char::is_whitespace`. -/
def isWhitespace (c : Char) : Bool :=
  let n := c.toNat
  (9 ≤ n && n ≤ 13) || n = 32 || n = 0x85 || n = 0xA0 || n = 0x1680 ||
    (0x2000 ≤ n && n ≤ 0x200A) || n = 0x2028 || n = 0x2029 || n = 0x202F || n = 0x205F ||
    n = 0x3000

/-- `str::trim`, on characters. -/
def trim (s : List Char) : List Char :=
  ((s.dropWhile isWhitespace).reverse.dropWhile isWhitespace).reverse

/-- `str::contains` for a two-character pattern. -/
def containsPair (a b : Char) : List Char → Bool
  | x :: y :: rest => (x = a && y = b) || containsPair a b (y :: rest)
  | _ => false

def isAsciiLowercase (c : Char) : Bool := 97 ≤ c.toNat && c.toNat ≤ 122

def isAsciiDigit (c : Char) : Bool := 48 ≤ c.toNat && c.toNat ≤ 57

/-- One decimal octet of an IPv4 address, without leading zeros. -/
def isOctet (s : List Char) : Bool :=
  !s.isEmpty && s.length ≤ 3 && s.all isAsciiDigit && (s.length = 1 || s.headD '0' ≠ '0') &&
    s.foldl (fun n c => 10 * n + (c.toNat - 48)) 0 ≤ 255

/-- `parse::<Ipv4Addr>().is_ok()`. -/
def isIpv4 (s : List Char) : Bool :=
  let parts := s.splitOn '.'
  parts.length = 4 && parts.all isOctet

/-- `validate_bucket_name`. -/
def validateBucketName (bucket : String) : Except StorageError Unit :=
  let b := trim bucket.toList
  let alnum := fun c => isAsciiLowercase c || isAsciiDigit c
  if b.isEmpty || 63 < (String.ofList b).utf8ByteSize || b = "abixio".toList || isIpv4 b ||
      containsPair '.' '.' b || containsPair '.' '-' b || containsPair '-' '.' b ||
      !b.all (fun c => alnum c || c = '.' || c = '-') ||
      !(b.head?.any alnum) || !(b.getLast?.any alnum) then
    .error (.invalidBucketName (String.ofList b))
  else .ok ()

/-- `key.split('/')`. -/
def keySegments (key : String) : List String := (key.toList.splitOn '/').map String.ofList

theorem keySegments_ne_nil (key : String) : keySegments key ≠ [] := by
  unfold keySegments
  rw [Ne, map_eq_nil_iff]
  exact splitOn_ne_nil _ _

/-- The test on one segment of a key. -/
def segmentOk (segment : String) : Bool :=
  let s := segment.toList
  !(s.isEmpty || trim s ≠ s || segment = "." || segment = "..") &&
    !s.any fun c => windowsForbidden.contains c.toNat

/-- `validate_key_segments`. -/
def validateKeySegments (key : String) : Except StorageError Unit :=
  if (keySegments key).all segmentOk then .ok () else .error (.invalidObjectKey key)

/-- `validate_object_key`. -/
def validateObjectKey (key : String) : Except StorageError Unit :=
  if key.toList.isEmpty || maxKeyLen < key.utf8ByteSize then .error (.invalidObjectKey key)
  else if key.toList.head? = some '/' || key.toList.any (fun c => c.toNat = 0) ||
      containsPair '/' '/' key.toList then
    .error (.invalidObjectKey key)
  else validateKeySegments key

/-- The bucket name is accepted. -/
abbrev ValidBucket (bucket : String) : Prop := validateBucketName bucket = .ok ()

/-- The object key is accepted. -/
abbrev ValidKey (key : String) : Prop := validateObjectKey key = .ok ()

/-- `trim_end_matches('/')`. -/
def trimEndSlash (s : List Char) : List Char := (s.reverse.dropWhile (· = '/')).reverse

/-- `validate_object_prefix`. -/
def validateObjectPrefix (keyPrefix : String) : Except StorageError Unit :=
  if keyPrefix.toList.isEmpty then .ok ()
  else if maxKeyLen < keyPrefix.utf8ByteSize || keyPrefix.toList.head? = some '/' ||
      keyPrefix.toList.any (fun c => c.toNat = 0) || containsPair '/' '/' keyPrefix.toList then
    .error (.invalidObjectKey keyPrefix)
  else
    let trimmed := trimEndSlash keyPrefix.toList
    if trimmed.isEmpty then .ok () else validateKeySegments (String.ofList trimmed)

def isHexDigit (c : Char) : Bool :=
  isAsciiDigit c || (97 ≤ c.toNat && c.toNat ≤ 102) || (65 ≤ c.toNat && c.toNat ≤ 70)

/-- The hyphenated form of a UUID: groups of 8, 4, 4, 4 and 12 hex digits. -/
def isHyphenated (s : List Char) : Bool :=
  let groups := s.splitOn '-'
  groups.map List.length = [8, 4, 4, 4, 12] && groups.all (·.all isHexDigit)

/-- `Uuid::parse_str(s).is_ok()`. -/
def uuidParses (s : String) : Bool :=
  let c := s.toList
  (c.length = 32 && c.all isHexDigit) || isHyphenated c ||
    (c.length = 38 && c.head? = some '{' && c.getLast? = some '}' &&
      isHyphenated (c.drop 1).dropLast) ||
    (c.length = 45 && c.take 9 = "urn:uuid:".toList && isHyphenated (c.drop 9))

/-- `validate_version_id`. -/
def validateVersionId (versionId : String) : Except StorageError Unit :=
  if uuidParses versionId then .ok () else .error (.invalidVersionId versionId)

/-- `validate_upload_id`. -/
def validateUploadId (uploadId : String) : Except StorageError Unit :=
  if uuidParses uploadId then .ok () else .error (.invalidUploadId uploadId)

/-- `normalize_path` below the root: `none` once a `..` leaves it. -/
def normalizePath : Path → List String → Option Path
  | done, [] => some done
  | done, part :: rest =>
    if part = "" || part = "." then normalizePath done rest
    else if part = ".." then
      if done.isEmpty then none else normalizePath done.dropLast rest
    else normalizePath (done ++ [part]) rest

/-- `safe_join`. -/
def safeJoin (parts : List String) : Except StorageError Path :=
  match normalizePath [] parts with
  | some p => .ok p
  | none => .error (.invalidObjectKey ("/".intercalate parts))

/-- `bucket_dir`. -/
def bucketDir (bucket : String) : Except StorageError Path := do
  validateBucketName bucket
  safeJoin [bucket]

/-- `object_dir`. -/
def objectDir (bucket key : String) : Except StorageError Path := do
  validateBucketName bucket
  validateObjectKey key
  safeJoin (bucket :: keySegments key)

/-- A part that `normalize_path` keeps. -/
def isPlainPart (part : String) : Bool := part ≠ "" && part ≠ "." && part ≠ ".."

theorem normalizePath_plain : ∀ {parts : List String} (done : Path),
    (∀ part ∈ parts, isPlainPart part = true) → normalizePath done parts = some (done ++ parts)
  | [], done, _ => by simp [normalizePath]
  | part :: rest, done, h => by
    have hpart := h part mem_cons_self
    simp only [isPlainPart, Bool.and_eq_true, decide_eq_true_eq] at hpart
    unfold normalizePath
    rw [if_neg (by simp [hpart.1]), if_neg hpart.2,
      normalizePath_plain (done ++ [part]) fun p hp => h p (mem_cons_of_mem _ hp),
      append_assoc]
    rfl

variable {bucket : String}

/-- A check that refuses the special names accepts plain parts only. -/
theorem isPlainPart_of_check {P : String → Prop} {part : String} (h : P part)
    (hrefused : ∀ s ∈ ["", ".", ".."], ¬ P s) : isPlainPart part = true := by
  have hne : ∀ s ∈ ["", ".", ".."], part ≠ s := by
    rintro s hs rfl
    exact hrefused part hs h
  simp only [isPlainPart, Bool.and_eq_true, decide_eq_true_eq]
  exact ⟨⟨hne "" (by simp), hne "." (by simp)⟩, hne ".." (by simp)⟩

theorem isPlainPart_of_bucket (h : ValidBucket bucket) : isPlainPart bucket = true :=
  isPlainPart_of_check h (by decide)

theorem isPlainPart_of_key {key segment : String} (h : ValidKey key)
    (hmem : segment ∈ keySegments key) : isPlainPart segment = true := by
  unfold ValidKey validateObjectKey at h
  split_ifs at h
  unfold validateKeySegments at h
  split_ifs at h with hall
  have hok := all_eq_true.mp hall segment hmem
  simp only [segmentOk, Bool.and_eq_true, Bool.not_eq_true', Bool.or_eq_false_iff,
    decide_eq_false_iff_not] at hok
  obtain ⟨⟨⟨⟨hempty, -⟩, hdot⟩, hdots⟩, -⟩ := hok
  simp only [isPlainPart, Bool.and_eq_true, decide_eq_true_eq]
  refine ⟨⟨?_, hdot⟩, hdots⟩
  rintro rfl
  exact absurd hempty (by decide)

/-- **The path of an accepted object** is its bucket and the segments of its key. -/
theorem objectDir_ok {bucket key : String} (hb : ValidBucket bucket) (hk : ValidKey key) :
    objectDir bucket key = .ok (bucket :: keySegments key) := by
  have hparts : ∀ part ∈ bucket :: keySegments key, isPlainPart part = true := by
    intro part hpart
    rcases mem_cons.mp hpart with rfl | hseg
    · exact isPlainPart_of_bucket hb
    · exact isPlainPart_of_key hk hseg
  unfold objectDir safeJoin
  rw [hb, hk, normalizePath_plain [] hparts]
  rfl

theorem bucketDir_ok (hb : ValidBucket bucket) : bucketDir bucket = .ok [bucket] := by
  have hparts : ∀ part ∈ [bucket], isPlainPart part = true := by
    intro part hpart
    rw [mem_singleton.mp hpart]
    exact isPlainPart_of_bucket hb
  unfold bucketDir safeJoin
  rw [hb, normalizePath_plain [] hparts]
  rfl

/-- `object_meta_path`. -/
def objectMetaPath (bucket key : String) : Except StorageError Path := do
  let dir ← objectDir bucket key
  .ok (dir ++ ["meta.json"])

/-- `object_shard_path`. -/
def objectShardPath (bucket key : String) : Except StorageError Path := do
  let dir ← objectDir bucket key
  .ok (dir ++ ["shard.dat"])

/-- `version_dir`. -/
def versionDir (bucket key versionId : String) : Except StorageError Path := do
  validateVersionId versionId
  let dir ← objectDir bucket key
  .ok (dir ++ [versionId])

/-- `version_shard_path`. -/
def versionShardPath (bucket key versionId : String) : Except StorageError Path := do
  let dir ← versionDir bucket key versionId
  .ok (dir ++ ["shard.dat"])

/-- `bucket_settings_dir`. -/
def bucketSettingsDir (bucket : String) : Except StorageError Path := do
  validateBucketName bucket
  safeJoin [".abixio.sys", "buckets", bucket]

/-- `bucket_settings_path`. -/
def bucketSettingsPath (bucket : String) : Except StorageError Path := do
  let dir ← bucketSettingsDir bucket
  .ok (dir ++ ["settings.json"])

theorem bucketSettingsPath_ok (hb : ValidBucket bucket) :
    bucketSettingsPath bucket = .ok [".abixio.sys", "buckets", bucket, "settings.json"] := by
  have hparts : ∀ part ∈ [".abixio.sys", "buckets", bucket], isPlainPart part = true := by
    intro part hpart
    simp only [mem_cons, not_mem_nil, or_false] at hpart
    rcases hpart with rfl | rfl | rfl
    · decide
    · decide
    · exact isPlainPart_of_bucket hb
  unfold bucketSettingsPath bucketSettingsDir safeJoin
  rw [hb, normalizePath_plain [] hparts]
  rfl

/-- `multipart_upload_dir`. -/
def multipartUploadDir (bucket key uploadId : String) : Except StorageError Path := do
  validateBucketName bucket
  validateObjectKey key
  validateUploadId uploadId
  safeJoin ([".abixio.sys", "multipart", bucket] ++ keySegments key ++ [uploadId])

/-! ## Accepted names have no slash -/

/-- A character that is not white space survives `trim`. -/
theorem mem_trim {s : List Char} {c : Char} (hc : c ∈ s) (hw : isWhitespace c = false) :
    c ∈ trim s := by
  have hdrop : ∀ l : List Char, c ∈ l → c ∈ l.dropWhile isWhitespace := by
    intro l hl
    induction l with
    | nil => exact hl
    | cons x xs ih =>
      rw [dropWhile_cons]
      split_ifs with hx
      · rcases mem_cons.mp hl with rfl | hl
        · simp [hw] at hx
        · exact ih hl
      · exact hl
  unfold trim
  rw [mem_reverse]
  exact hdrop _ (mem_reverse.mpr (hdrop s hc))

theorem slash_not_mem_bucket (h : ValidBucket bucket) : '/' ∉ bucket.toList := by
  intro hmem
  have htrim := mem_trim hmem (by decide)
  unfold ValidBucket validateBucketName at h
  simp only at h
  split_ifs at h with hcond
  simp only [Bool.or_eq_true, not_or, Bool.not_eq_true', Bool.not_eq_false] at hcond
  have hall := hcond.1.1.2
  have hslash := all_eq_true.mp hall '/' htrim
  exact absurd hslash (by decide)

/-- The pieces between separators have none, and every other character is in one of them. -/
theorem splitOn_pieces (x : Char) : ∀ s : List Char,
    (∀ l ∈ s.splitOn x, x ∉ l) ∧ ∀ c ∈ s, c = x ∨ ∃ l ∈ s.splitOn x, c ∈ l
  | [] => by simp [splitOn_nil]
  | a :: s => by
    obtain ⟨hfree, hmem⟩ := splitOn_pieces x s
    rw [splitOn_cons_eq_if_modifyHead]
    split_ifs with ha
    · have hax : a = x := by simpa using ha
      refine ⟨?_, ?_⟩
      · intro l hl
        rcases mem_cons.mp hl with rfl | hl
        · exact not_mem_nil
        · exact hfree l hl
      · intro c hc
        rcases mem_cons.mp hc with rfl | hc
        · exact Or.inl hax
        · rcases hmem c hc with h | ⟨l, hl, hcl⟩
          · exact Or.inl h
          · exact Or.inr ⟨l, mem_cons_of_mem _ hl, hcl⟩
    · have hax : x ≠ a := fun e => ha (by simp [e])
      obtain ⟨first, rest, hsplit⟩ := exists_cons_of_ne_nil (splitOn_ne_nil x s)
      rw [hsplit] at hfree hmem ⊢
      refine ⟨?_, ?_⟩
      · intro l hl
        rcases mem_cons.mp hl with rfl | hl
        · exact not_mem_cons_of_ne_of_not_mem hax (hfree first mem_cons_self)
        · exact hfree l (mem_cons_of_mem _ hl)
      · intro c hc
        rcases mem_cons.mp hc with rfl | hc
        · exact Or.inr ⟨_, mem_cons_self, mem_cons_self⟩
        · rcases hmem c hc with h | ⟨l, hl, hcl⟩
          · exact Or.inl h
          · rcases mem_cons.mp hl with rfl | hl
            · exact Or.inr ⟨_, mem_cons_self, mem_cons_of_mem _ hcl⟩
            · exact Or.inr ⟨l, mem_cons_of_mem _ hl, hcl⟩

theorem slash_not_mem_segment {key segment : String} (h : segment ∈ keySegments key) :
    '/' ∉ segment.toList := by
  obtain ⟨l, hl, rfl⟩ := mem_map.mp h
  rw [String.toList_ofList]
  exact (splitOn_pieces '/' key.toList).1 l hl

theorem slash_not_mem_hyphenated {s : List Char} (h : isHyphenated s = true) : '/' ∉ s := by
  intro hmem
  simp only [isHyphenated, Bool.and_eq_true] at h
  rcases (splitOn_pieces '-' s).2 _ hmem with hc | ⟨l, hl, hc⟩
  · exact absurd hc (by decide)
  · have hhex := all_eq_true.mp (all_eq_true.mp h.2 l hl) _ hc
    exact absurd hhex (by decide)

theorem slash_not_mem_versionId {vid : String} (h : validateVersionId vid = .ok ()) :
    '/' ∉ vid.toList := by
  unfold validateVersionId at h
  split_ifs at h with hparse
  simp only [uuidParses, Bool.or_eq_true, Bool.and_eq_true, decide_eq_true_eq] at hparse
  intro hmem
  rcases hparse with ((⟨-, hall⟩ | hhyph) | ⟨⟨⟨-, hhead⟩, hlast⟩, hmid⟩) | ⟨⟨-, hurn⟩, hrest⟩
  · exact absurd (all_eq_true.mp hall _ hmem) (by decide)
  · exact slash_not_mem_hyphenated hhyph hmem
  · -- between the braces
    cases hs : vid.toList with
    | nil => rw [hs] at hmem; cases hmem
    | cons c rest =>
      rw [hs] at hmem hhead hlast hmid
      simp only [head?_cons, Option.some.injEq] at hhead
      rcases mem_cons.mp hmem with h' | h'
      · rw [hhead] at h'
        exact absurd h' (by decide)
      · have hne : rest ≠ [] := ne_nil_of_mem h'
        rw [getLast?_cons_of_ne_nil hne] at hlast
        rw [← dropLast_append_getLast? _ hlast] at h'
        rcases mem_append.mp h' with h' | h'
        · exact slash_not_mem_hyphenated hmid h'
        · exact absurd (mem_singleton.mp h') (by decide)
  · rw [← take_append_drop 9 vid.toList, hurn] at hmem
    rcases mem_append.mp hmem with h' | h'
    · exact absurd h' (by decide)
    · exact slash_not_mem_hyphenated hrest h'

end Abixio
