import Abixio.Multipart.Completion

/-!
# What a completion checks, and what a failed one leaves

`complete_upload` (`src/multipart/mod.rs:208-366`) checks that every requested part is listed, and then moves
the parts into the object's directory one by one. The ETag sent with each part number only goes into the
ETag of the object. The moves are not undone when a later step fails.

* A list that names a part that is not there is refused before anything is touched, whatever the disks do.
* A number that occurs twice is only found missing after its part was moved. The upload has lost the part.
* When no disk takes the new `meta.json`, the parts are moved as well.

`validatedAtomic_iff`: on working disks a completion is validated and atomic exactly for lists that name a
missing part, and for lists of distinct parts with the stored ETags.
-/

namespace Abixio

open Lib List LocalVolume
open UploadRun (run sampleRun sampleStaged sampleUpload sampleUploadDir step)

section Validation

variable {n : Nat} {env : Env} {bucket key uploadId : String} {dir obj staging : Path}
  {upload : UploadMeta} {available : List PartMeta} {requested : List (Int × String)} {now : Nat}

/-! ## What is listed -/

/-- A listed part is staged. -/
theorem of_mem_stagedParts {fs : FileTree FileData} {p : PartMeta} (h : p ∈ stagedParts fs staging) :
    ∃ name pm, isPartMetaName name = true ∧ fs.read (staging ++ [name]) = some (.partJson pm) ∧
      p = ⟨pm.partNumber, pm.size, pm.etag⟩ := by
  revert h
  -- what the loop adds comes from one of the entries
  refine foldlRecOn (motive := fun parts => p ∈ parts → ∃ name pm, isPartMetaName name = true ∧
    fs.read (staging ++ [name]) = some (.partJson pm) ∧ p = ⟨pm.partNumber, pm.size, pm.etag⟩) _ _
    (fun h => absurd h not_mem_nil) fun parts ih child hchild h => ?_
  split at h
  · split_ifs at h with hnew
    · rcases mem_append.mp h with h | h
      · exact ih h
      · exact ⟨_, _, hnew.1, FileTree.read_eq_some.mpr (FileTree.mem_children.mp hchild), mem_singleton.mp h⟩
    · exact ih h
  · exact ih h

theorem isPartMetaName_partFile (number : Int) : isPartMetaName (partFile number) = false := by
  rw [Bool.eq_false_iff]
  intro h
  unfold isPartMetaName at h
  rw [Bool.and_eq_true, isSuffixOf_iff_suffix] at h
  have hmem : 'm' ∈ (partFile number).toList := h.2.mem (by decide)
  unfold partFile at hmem
  rw [String.toList_append] at hmem
  rcases mem_append.mp hmem with hmem | hmem
  · exact absurd hmem (by decide)
  · exact meta_not_mem_int number hmem

/-- **A staging directory that `put_part` wrote.** The metadata of a part is in the file of its number. -/
structure Staged (bucket key uploadId : String) (dir : Path) (upload : UploadMeta)
    (s : Disks LocalVolume n) : Prop where
  opened : readUpload bucket key uploadId s = .ok upload
  named : ∀ d name pm, (s d).fs.read (dir ++ [upload.dataDir] ++ [name]) = some (.partJson pm) →
    name = LocalVolume.partMetaFile pm.partNumber
  placed : ∀ d name, (s d).fs.read (dir ++ [upload.dataDir] ++ [name]) ≠ none →
    (s d).fs.isDir (dir ++ [upload.dataDir]) = true

variable (hdir : multipartUploadDir bucket key uploadId = .ok dir)

include hdir in
/-- `put_part` keeps it so. -/
theorem Staged.putPart {s t : Disks LocalVolume (n + 1)} {u : PartUpload}
    {distribution : List (Fin (n + 1))} (h : Staged bucket key uploadId dir upload s)
    (hall : ∀ d, d ∈ distribution)
    (hstored : PartStored (dir ++ [upload.dataDir]) obj env u distribution s t) :
    Staged bucket key uploadId dir upload t := by
  refine ⟨?_, fun d name pm hread => ?_, fun d name _ => hstored.isDir d⟩
  · refine (readUpload_congr hdir fun d => hstored.other d _ ?_ ?_).trans h.opened <;>
    · intro heq
      have hlen := congrArg length heq
      simp at hlen
  · obtain ⟨i, hi⟩ := mem_iff_getElem?.mp (hall d)
    obtain ⟨hdescribed, hdata⟩ := hstored.part i d hi
    by_cases hmeta : name = partMetaFile u.number
    · rw [hmeta, show (t d).fs.read (dir ++ [upload.dataDir] ++ [partMetaFile u.number]) = _
        from hdescribed, Option.some.injEq, FileData.partJson.injEq] at hread
      rw [hmeta, ← hread]
      rfl
    by_cases hfile : name = partFile u.number
    · rw [hfile, show (t d).fs.read (dir ++ [upload.dataDir] ++ [partFile u.number]) = _
        from hdata] at hread
      cases hread
    · rw [hstored.other d _ (concat_ne _ hfile) (concat_ne _ hmeta)] at hread
      exact h.named d name pm hread

include hdir in
/-- So does an upload. -/
theorem Staged.run {s : UploadRun (n + 1)} (hobj : objectDir bucket key = .ok obj)
    (hinv : UploadRun.Inv env bucket key uploadId dir obj upload s)
    (h : Staged bucket key uploadId dir upload s.disks) {uploads : List PartUpload}
    (hn : ∀ u ∈ uploads, u.dataN + u.parityN = n + 1) :
    Staged bucket key uploadId dir upload (run env bucket key uploadId uploads s).disks := by
  induction uploads generalizing s with
  | nil => exact h
  | cons u uploads ih =>
    have hu := hn u mem_cons_self
    refine ih (hinv.step hdir hobj u hu) ?_ fun u' hu' => hn u' (.tail _ hu')
    unfold step
    by_cases hfits : u.Fits (n + 1)
    · obtain ⟨t, hrun, hstored⟩ := putPart_workable hdir hobj env hinv.work hinv.opened hfits
      rw [hrun]
      exact h.putPart hdir (partDisks_perm (partOrder_perm bucket key env hfits)).2.2 hstored
    · obtain ⟨e, hrun⟩ := putPart_rejected env bucket key uploadId s.disks hu hfits
      rw [hrun]
      exact h

variable {s : Disks LocalVolume n}

/-- An upload without parts. -/
theorem Staged.of_entries (hopened : readUpload bucket key uploadId s = .ok upload)
    (hfree : ∀ d, ∀ e ∈ (s d).fs.entries, ¬ (dir ++ [upload.dataDir]) <+: e.1) :
    Staged bucket key uploadId dir upload s := by
  have hnone : ∀ d name, (s d).fs.read (dir ++ [upload.dataDir] ++ [name]) = none := by
    intro d name
    unfold FileTree.read
    rw [lookup_none_of_entries (hfree d)]
  refine ⟨hopened, fun d name pm hread => ?_, fun d name hread => absurd (hnone d name) hread⟩
  rw [hnone] at hread
  cases hread

/-- What a search finds at the first place that qualifies. -/
theorem findSome?_of_find? {α β : Type} {l : List α} {P : α → Bool} {f : α → Option β} {a : α} {b : β}
    (ha : l.find? P = some a) (hP : ∀ a, f a ≠ none → P a = true) (hb : f a = some b) :
    l.findSome? f = some b := by
  induction l with
  | nil => cases ha
  | cons c l ih =>
    rw [find?_cons] at ha
    rw [findSome?_cons]
    cases hc : P c with
    | true =>
      rw [hc] at ha
      obtain rfl : c = a := Option.some.inj ha
      rw [hb]
    | false =>
      rw [hc] at ha
      have hnone : f c = none := by
        by_contra hne
        rw [hP c hne] at hc
        cases hc
      rw [hnone]
      exact ih ha

variable (h : Staged bucket key uploadId dir upload s)
  (hlist : listParts bucket key uploadId s = .ok (upload, available))

include h hlist hdir in
/-- **A listed part is the one a completion takes**: both are from the first disk with the directory. -/
theorem Staged.listed {p : PartMeta} (hp : p ∈ available) :
    ∃ pm, stagedMeta (dir ++ [upload.dataDir]) p.partNumber s = some pm ∧
      p = ⟨pm.partNumber, pm.size, pm.etag⟩ := by
  rw [listParts_eq hdir h.opened, Except.ok.injEq, Prod.mk.injEq] at hlist
  rw [← hlist.2, mem_insertionSort] at hp
  cases hfirst : (finRange n).find? fun d => (s d).fs.isDir (dir ++ [upload.dataDir]) with
  | none =>
    rw [hfirst] at hp
    exact absurd hp not_mem_nil
  | some d =>
    rw [hfirst] at hp
    obtain ⟨name, pm, -, hread, rfl⟩ := of_mem_stagedParts hp
    have hname := h.named d name pm hread
    refine ⟨pm, findSome?_of_find? hfirst (fun d' hd' => ?_) ?_, rfl⟩
    · refine h.placed d' (partMetaFile pm.partNumber) fun hnone => hd' ?_
      rw [hnone]
    · rw [← hname, hread]

/-! ## Validated and atomic -/

/-- The requested ETags are those that are listed. -/
def EtagsMatch (requested : List (Int × String)) (available : List PartMeta) : Prop :=
  ∀ r ∈ requested, ∃ p ∈ available, p.partNumber = r.1 ∧ p.etag = r.2

/-- A requested part is not listed. -/
def NamesMissing (requested : List (Int × String)) (available : List PartMeta) : Prop :=
  ∃ r ∈ requested, ∀ p ∈ available, p.partNumber ≠ r.1

/-- The shard of a part that a disk has staged. -/
def stagedShard (staging : Path) (number : Int) (v : LocalVolume) : Option (Nat × Bytes) :=
  match v.fs.read (staging ++ [LocalVolume.partMetaFile number]) with
  | some (.partJson pm) =>
    (readBytes v.fs (staging ++ [LocalVolume.partFile number])).map fun data => (pm.erasure.index, data)
  | _ => none

/-- **The object consists of the requested parts**: its metadata lists them as they were listed, on every
disk, and every disk has the shards it had staged. -/
structure ConsistsOf (bucket key : String) (staging : Path) (requested : List (Int × String))
    (available : List PartMeta) (s t : Disks LocalVolume n) : Prop where
  entries : ∀ d, ∃ m, LocalVolume.statObject bucket key (t d) = .ok m ∧
    List.Forall₂ (fun r part => ∃ p ∈ available, p.partNumber = r.1 ∧
      part.number = r.1 ∧ part.size = p.size ∧ part.etag = p.etag) requested m.parts
  shards : ∀ r ∈ requested, ∀ d shard, stagedShard staging r.1 (s d) = some shard →
    LocalVolume.readPart bucket key r.1 (t d) = some shard

/-- **As if the call had not happened**: the object, the listed parts and every completion. -/
structure Unharmed (env : Env) (bucket key uploadId : String) (s t : Disks LocalVolume n) : Prop where
  object : ∀ d, SameContent bucket key (s d) (t d)
  parts : listParts bucket key uploadId t = listParts bucket key uploadId s
  retry : ∀ requested now, (completeUpload bucket key uploadId env requested now t).1 =
    (completeUpload bucket key uploadId env requested now s).1

/-- **A completion that is validated and atomic.** -/
def ValidatedAtomic (env : Env) (bucket key uploadId : String) (staging : Path)
    (requested : List (Int × String)) (now : Nat) (available : List PartMeta) (s : Disks LocalVolume n) :
    Prop :=
  (∀ info t, completeUpload bucket key uploadId env requested now s = (.ok info, t) →
    EtagsMatch requested available ∧ ConsistsOf bucket key staging requested available s t) ∧
  ∀ e t, completeUpload bucket key uploadId env requested now s = (.error e, t) →
    Unharmed env bucket key uploadId s t

include hdir in
/-- A list that names a missing part is refused at once. -/
theorem completeUpload_missing (hlist : listParts bucket key uploadId s = .ok (upload, available))
    (hmissing : NamesMissing requested available) :
    completeUpload bucket key uploadId env requested now s = (.error .objectNotFound, s) := by
  obtain ⟨hbucket, hkey, hid⟩ := accepted_of_uploadDir hdir
  obtain ⟨r, hr, hne⟩ := hmissing
  have hall : (requested.all fun r => available.any fun p => p.partNumber = r.1) = false := by
    rw [all_eq_false]
    refine ⟨r, hr, ?_⟩
    rw [any_eq_true]
    rintro ⟨p, hp, hnumber⟩
    exact hne p hp (of_decide_eq_true hnumber)
  unfold completeUpload
  simp only [Act.bind_apply, Act.ofExcept_apply, Act.query_apply, hbucket, hkey, hid, hlist, hall]
  rfl

/-- The first repetition in a list. -/
theorem exists_first_repeat {α β : Type} [DecidableEq β] {f : α → β} {l : List α} (h : ¬ (l.map f).Nodup) :
    ∃ a x b, l = a ++ x :: b ∧ (a.map f).Nodup ∧ f x ∈ a.map f := by
  induction l using reverseRecOn with
  | nil => exact absurd nodup_nil h
  | append_singleton l x ih =>
    by_cases hnodup : (l.map f).Nodup
    · refine ⟨l, x, [], rfl, hnodup, ?_⟩
      by_contra hnot
      refine h ?_
      rw [map_append, map_singleton]
      refine hnodup.append (nodup_singleton _) fun y hy hx => ?_
      rw [mem_singleton.mp hx] at hy
      exact hnot hy
    · obtain ⟨a, y, b, rfl, ha, hy⟩ := ih hnodup
      exact ⟨a, y, b ++ [x], by simp, ha, hy⟩

include h hlist hdir in
/-- The metadata of the listed parts. -/
theorem Staged.metas (hall : ¬ NamesMissing requested available) :
    ∃ metas : Int → PartFileMeta, ∀ r ∈ requested,
      stagedMeta (dir ++ [upload.dataDir]) r.1 s = some (metas r.1) ∧
        ∃ p ∈ available, p.partNumber = r.1 ∧ (metas r.1).size = p.size ∧ (metas r.1).etag = p.etag := by
  refine ⟨fun number => (stagedMeta (dir ++ [upload.dataDir]) number s).getD ⟨0, 0, "", ⟨0, 0, 0, []⟩, ""⟩,
    fun r hr => ?_⟩
  obtain ⟨p, hp, hnumber⟩ : ∃ p ∈ available, p.partNumber = r.1 := by
    by_contra hnone
    exact hall ⟨r, hr, fun p hp hnumber => hnone ⟨p, hp, hnumber⟩⟩
  obtain ⟨pm, hpm, hp'⟩ := h.listed hdir hlist hp
  rw [hnumber] at hpm
  dsimp only
  rw [hpm]
  exact ⟨rfl, p, hp, hnumber, by rw [hp']; rfl, by rw [hp']; rfl⟩

/-- A completed object consists of the requested parts. -/
theorem consistsOf_completed {t : Disks LocalVolume n} (hobj : objectDir bucket key = .ok obj)
    {metas : Int → PartFileMeta} {m : ObjectMeta} (hinline : m.inlineData = none)
    (hmarker : m.isDeleteMarker = false)
    (hm : m.parts = requested.map fun r => partEntry r.1 (metas r.1))
    (hmetas : ∀ r ∈ requested, ∃ p ∈ available, p.partNumber = r.1 ∧ (metas r.1).size = p.size ∧
      (metas r.1).etag = p.etag)
    (hdone : ∀ d : Fin n, CompletedDisk staging obj bucket key m d (requested.map Prod.fst) (s d) (t d)) :
    ConsistsOf bucket key staging requested available s t := by
  refine ⟨fun d => ⟨_, statObject_completed hobj hinline hmarker (hdone d), ?_⟩,
    fun r hr d shard hshard => ?_⟩
  · change List.Forall₂ _ requested m.parts
    rw [hm, forall₂_map_right_iff]
    refine forall₂_same.mpr fun r hr => ?_
    obtain ⟨p, hp, hnumber, hsize, hetag⟩ := hmetas r hr
    exact ⟨p, hp, hnumber, rfl, hsize, hetag⟩
  · have hmem : r.1 ∈ requested.map Prod.fst := mem_map_of_mem hr
    have hdescribed := (hdone d).file r.1 hmem _ (Or.inr rfl)
    have hfile := (hdone d).file r.1 hmem _ (Or.inl rfl)
    unfold stagedShard readBytes at hshard
    unfold readPart readBytes
    rw [hobj]
    dsimp only
    split at hshard
    · rename_i pm hpm
      rw [hpm, Option.some_or] at hdescribed
      rw [hdescribed]
      split at hshard
      · rename_i data hdata
        rw [hdata, Option.some_or] at hfile
        rw [hfile]
        exact hshard
      · cases hshard
    · cases hshard

include h hlist hdir in
/-- **A repeated number is noticed when its part is gone.** -/
theorem completeUpload_repeated (hobj : objectDir bucket key = .ok obj)
    (hwork : ∀ d, Workable (dir ++ [upload.dataDir]) obj (s d)) (hall : ¬ NamesMissing requested available)
    (hrepeat : ¬ (requested.map Prod.fst).Nodup) :
    ∃ t, completeUpload bucket key uploadId env requested now s = (.error .objectNotFound, t) ∧
      ∃ p ∈ available, ∀ upload' available', listParts bucket key uploadId t = .ok (upload', available') →
        ∀ p' ∈ available', p'.partNumber ≠ p.partNumber := by
  obtain ⟨hbucket, hkey, hid⟩ := accepted_of_uploadDir hdir
  have hapart := apart_of_staged hdir hobj (prefix_append dir [upload.dataDir])
  obtain ⟨metas, hmetas⟩ := h.metas hdir hlist hall
  obtain ⟨first, r, rest, rfl, hnodup, hr⟩ := exists_first_repeat hrepeat
  -- the parts up to the repetition are moved
  obtain ⟨t, hfirst, hmoved⟩ := completeParts_workable hapart hwork hnodup
    fun r' hr' => (hmetas r' (mem_append_left _ hr')).1
  have hgone : stagedMeta (dir ++ [upload.dataDir]) r.1 t = none := by
    refine findSome?_eq_none_iff.mpr fun d _ => ?_
    rw [(hmoved d).gone r.1 hr]
  have hfail : completePart (dir ++ [upload.dataDir]) obj r.1 t = (.error .objectNotFound, t) := by
    rw [completePart_eq, hgone]
  have hparts : Act.each (fun r : Int × String => completePart (dir ++ [upload.dataDir]) obj r.1)
      (first ++ r :: rest) s = (.error .objectNotFound, t) := Act.each_append_fail hfirst hfail
  have hlisted : ((first ++ r :: rest).all fun r => available.any fun p => p.partNumber = r.1) = true := by
    rw [all_eq_true]
    intro r' hr'
    obtain ⟨p, hp, hnumber, -⟩ := (hmetas r' hr').2
    exact any_eq_true.mpr ⟨p, hp, decide_eq_true hnumber⟩
  refine ⟨t, ?_, ?_⟩
  · unfold completeUpload
    simp only [Act.bind_apply, Act.ofExcept_apply, Act.query_apply, hbucket, hkey, hid, hlist,
      hlisted, if_true, hdir, hobj, hparts]
  · obtain ⟨p, hp, hnumber, -⟩ := (hmetas r (mem_append_right _ mem_cons_self)).2
    refine ⟨p, hp, fun upload' available' hlist' p' hp' hsame => ?_⟩
    have hopened : readUpload bucket key uploadId t = .ok upload := by
      refine (readUpload_congr hdir fun d => (hmoved d).other _ fun number hnumber name hname => ?_).trans
        h.opened
      constructor
      · intro heq
        have hlen := congrArg length heq
        simp at hlen
      · intro heq
        refine ((apart_of_staged hdir hobj (prefix_refl dir)).of_staging (dir ++ ["upload.json"])
          (prefix_append _ _)).2 ?_
        rw [heq]
        exact prefix_append _ _
    rw [listParts_eq hdir hopened, Except.ok.injEq, Prod.mk.injEq] at hlist'
    rw [← hlist'.2, mem_insertionSort] at hp'
    split at hp'
    · rename_i d hd
      obtain ⟨name, pm, hname, hread, hp''⟩ := of_mem_stagedParts hp'
      have hnumber' : pm.partNumber = r.1 := by
        rw [← hnumber, ← hsame, hp'']
      by_cases hown : ∃ number ∈ first.map Prod.fst,
          name = partFile number ∨ name = partMetaFile number
      · obtain ⟨number, hmem, hfile | hmeta⟩ := hown
        · rw [hfile, isPartMetaName_partFile] at hname
          cases hname
        · rw [hmeta, (hmoved d).gone number hmem] at hread
          cases hread
      · rw [(hmoved d).other _ fun number hmem name' hname' => ⟨?_, (hapart.concat_ne _ _)⟩] at hread
        · have hfile := h.named d name pm hread
          rw [hnumber'] at hfile
          exact hown ⟨r.1, hr, Or.inr hfile⟩
        · intro heq
          rw [(cons.inj (append_cancel_left heq)).1] at hown
          exact hown ⟨number, hmem, hname'⟩
    · exact absurd hp' not_mem_nil

/-- **When a completion is validated and atomic.** A list that names a missing part is refused without
harm, whatever the disks do. On working disks, of the other lists exactly those are validated and atomic
that have distinct numbers and the listed ETags. -/
theorem validatedAtomic_iff {s : Disks LocalVolume (n + 1)}
    (hdir : multipartUploadDir bucket key uploadId = .ok dir) (hobj : objectDir bucket key = .ok obj)
    (h : Staged bucket key uploadId dir upload s)
    (hlist : listParts bucket key uploadId s = .ok (upload, available)) :
    (NamesMissing requested available →
      ValidatedAtomic env bucket key uploadId (dir ++ [upload.dataDir]) requested now available s) ∧
    ((∀ d, Workable (dir ++ [upload.dataDir]) obj (s d)) →
      (ValidatedAtomic env bucket key uploadId (dir ++ [upload.dataDir]) requested now available s ↔
        NamesMissing requested available ∨
          (requested.map Prod.fst).Nodup ∧ EtagsMatch requested available)) := by
  have hmissing : NamesMissing requested available →
      ValidatedAtomic env bucket key uploadId (dir ++ [upload.dataDir]) requested now available s := by
    intro hmissing
    have hrun : completeUpload bucket key uploadId env requested now s = (.error .objectNotFound, s) :=
      completeUpload_missing hdir hlist hmissing
    refine ⟨fun info t hok => ?_, fun e t herr => ?_⟩
    · simp [hrun] at hok
    · rw [hrun] at herr
      cases herr
      exact ⟨fun d => SameContent.refl bucket key (s d), rfl, fun _ _ => rfl⟩
  refine ⟨hmissing, fun hwork => ⟨fun hva => ?_, ?_⟩⟩
  · by_cases hall : NamesMissing requested available
    · exact Or.inl hall
    by_cases hnodup : (requested.map Prod.fst).Nodup
    · obtain ⟨metas, hmetas⟩ := h.metas hdir hlist hall
      obtain ⟨t, hrun, -⟩ := completeUpload_workable hdir hobj hwork hlist
        (fun r hr => (hmetas r hr).2.imp fun p hp => ⟨hp.1, hp.2.1⟩) hnodup env now fun r hr => (hmetas r hr).1
      exact Or.inr ⟨hnodup, (hva.1 _ t hrun).1⟩
    · obtain ⟨t, hrun, p, hp, hlost⟩ := completeUpload_repeated hdir h hlist hobj hwork hall hnodup
      have hsame := (hva.2 _ t hrun).parts
      rw [hlist] at hsame
      exact absurd rfl (hlost upload available hsame p hp)
  · rintro (hall | ⟨hnodup, hetags⟩)
    · exact hmissing hall
    have hall : ¬ NamesMissing requested available := by
      rintro ⟨r, hr, hnone⟩
      obtain ⟨p, hp, hnumber, -⟩ := hetags r hr
      exact hnone p hp hnumber
    obtain ⟨metas, hmetas⟩ := h.metas hdir hlist hall
    obtain ⟨t, hrun, hdone⟩ := completeUpload_workable hdir hobj hwork hlist
      (fun r hr => (hmetas r hr).2.imp fun p hp => ⟨hp.1, hp.2.1⟩) hnodup env now fun r hr => (hmetas r hr).1
    refine ⟨fun info t' hok => ?_, fun e t' herr => ?_⟩
    · rw [hrun] at hok
      cases hok
      exact ⟨hetags, consistsOf_completed hobj rfl rfl rfl (fun r hr => (hmetas r hr).2) hdone⟩
    · simp [hrun] at herr

/-! ## Two parts on two disks -/

/-- The parts of the sample upload. -/
def sampleAvailable : List PartMeta :=
  [⟨1, 1, "9dd4e461268c8034f5c8564e155c67a6"⟩, ⟨2, 1, "415290769594460e2e485922904f345d"⟩]

theorem validatedAtomic_sample :
    ValidatedAtomic sampleEnv "bkt" "k" sampleUpload.uploadId
        (sampleUploadDir ++ [sampleUpload.dataDir]) UploadRun.sampleListed 9 sampleAvailable
        sampleRun.disks ∧
      ValidatedAtomic sampleEnv "bkt" "k" sampleUpload.uploadId
        (sampleUploadDir ++ [sampleUpload.dataDir]) [(3, "")] 9 sampleAvailable
        sampleRun.disks := by
  obtain ⟨hopened, hfree, hlist, hdir, hobj⟩ :
      readUpload "bkt" "k" sampleUpload.uploadId sampleStaged = .ok sampleUpload ∧
      (∀ d, ∀ e ∈ (sampleStaged d).fs.entries,
        ¬ (sampleUploadDir ++ [sampleUpload.dataDir]) <+: e.1) ∧
      listParts "bkt" "k" sampleUpload.uploadId sampleRun.disks =
        .ok (sampleUpload, sampleAvailable) ∧
      multipartUploadDir "bkt" "k" sampleUpload.uploadId = .ok sampleUploadDir ∧
      objectDir "bkt" "k" = .ok ["bkt", "k"] := by
    decide +kernel
  have hinv : UploadRun.Inv sampleEnv "bkt" "k" sampleUpload.uploadId
      sampleUploadDir ["bkt", "k"] sampleUpload ⟨sampleStaged, fun _ => none⟩ :=
    ⟨UploadRun.sampleStaged_workable, hopened, fun _ _ h => by cases h⟩
  have hstaged : Staged "bkt" "k" sampleUpload.uploadId sampleUploadDir
      sampleUpload sampleRun.disks :=
    Staged.run hdir hobj hinv (Staged.of_entries hopened hfree) (by decide)
  have hwork : ∀ d, Workable (sampleUploadDir ++ [sampleUpload.dataDir]) ["bkt", "k"]
      (sampleRun.disks d) :=
    (hinv.run hdir hobj UploadRun.sampleParts (by decide)).work
  refine ⟨((validatedAtomic_iff hdir hobj hstaged hlist).2 hwork).mpr (Or.inr ⟨by decide, ?_⟩),
    (validatedAtomic_iff hdir hobj hstaged hlist).1 ⟨(3, ""), by simp, by decide⟩⟩
  unfold EtagsMatch
  decide

/-- The sample upload on disks that fail when they write `meta.json`. -/
def sampleFull : Disks LocalVolume 2 := fun d =>
  { sampleRun.disks d with faults := [none, none, none, none, some "disk full"] }

/-- Complete the sample upload with part 1, once or more often. -/
def completeSample (etags : List String) (s : Disks LocalVolume 2) :
    Except StorageError ObjectInfo × Disks LocalVolume 2 :=
  completeUpload "bkt" "k" sampleUpload.uploadId sampleEnv
    (etags.map fun etag => (1, etag)) 9 s

/-- **Completions that are not validated, or not atomic.** A wrong ETag is accepted. A repeated number fails,
and the part, which could be completed before, cannot be completed any more. So it is when no disk takes the
metadata. -/
theorem completion_accepts_and_loses :
    let etag := "9dd4e461268c8034f5c8564e155c67a6"
    (completeSample ["wrong"] sampleRun.disks).1.isOk = true ∧
      (completeSample [etag] sampleRun.disks).1.isOk = true ∧
      (completeSample [etag, etag] sampleRun.disks).1 = .error .objectNotFound ∧
      (completeSample [etag] (completeSample [etag, etag] sampleRun.disks).2).1 =
        .error .objectNotFound ∧
      (completeSample [etag] sampleFull).1 = .error .writeQuorum ∧
      (completeSample [etag] (completeSample [etag] sampleFull).2).1 = .error .objectNotFound := by
  decide +kernel

end Validation

end Abixio
