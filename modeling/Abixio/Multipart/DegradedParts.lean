import Abixio.Multipart.PartDamage
import Abixio.Multipart.Validation

/-!
# Parts that some disks did not store

`put_part` (`src/multipart/mod.rs:75-154`) acknowledges a part when one disk more than there are data shards
took it. `list_parts` and `complete_upload` (`src/multipart/mod.rs:156-290`) then look at one disk at a time:
a part is listed if the first disk with the staging directory has it, and completed from whatever `part.N` and
`part.N.meta` each disk has.

* A call of `put_part` comes with the failures of the disks during the call (`PartCall`), at any of their file
  system calls; afterwards the disks work again.
* A part that the first disk with the directory did not store is not listed, and cannot be completed.
* A disk that fails to store a part again keeps the shard of the earlier upload, and one that fails to store a
  part of a new upload may have a shard of the object that is replaced. Both are taken for shards of the part.

`UploadRun.usable`: when the calls avoid this (`Spared`), every acknowledged part is listed, and a completion
serves them.
-/

namespace Abixio

open Lib List LocalVolume

/-! ## A disk that may fail -/

/-- A disk once the failures are over. -/
def LocalVolume.rested (v : LocalVolume) : LocalVolume := { v with faults := [] }

section Disk

variable {staging obj : Path} {v v' : LocalVolume} {p : Path} {pm : PartFileMeta} {shard : Bytes}

/-- **What a write leaves**: the content, or after an error the file as it was, or emptied. -/
theorem writeWhole_leaves {content : FileData} {r : Except StorageError Unit}
    (h : writeWhole p content v = (r, v')) :
    (∀ q, q ≠ p → v'.fs.read q = v.fs.read q) ∧ (∀ q, v'.fs.isDir q = v.fs.isDir q) ∧
      (r = .ok () ∧ v'.fs.read p = some content ∨
        r ≠ .ok () ∧ (v'.fs.read p = v.fs.read p ∨ v'.fs.read p = some (.bytes []))) := by
  cases r with
  | ok _ =>
    obtain ⟨hread, hother, hdirs⟩ := writeWhole_ok h
    exact ⟨hother, hdirs, .inl ⟨rfl, hread⟩⟩
  | error e =>
    unfold writeWhole at h
    cases hcreate : createFile p v with
    | mk r v₁ =>
      rw [Act.bind_apply, hcreate] at h
      cases r with
      | error e' =>
        cases h
        rw [fsCall_error hcreate]
        exact ⟨fun _ _ => rfl, fun _ => rfl, .inr ⟨nofun, .inl rfl⟩⟩
      | ok _ =>
        have hfs := fsCall_ok hcreate
        rw [fsCall_error h]
        exact ⟨fun q hq => FileTree.writeFile_read_of_ne hfs hq, FileTree.writeFile_isDir hfs,
          .inr ⟨nofun, .inr (FileTree.writeFile_read hfs)⟩⟩

/-- **What storing a shard can leave on a disk**, whichever of its calls fail. -/
structure Touched (staging : Path) (pm : PartFileMeta) (shard : Bytes) (v v' : LocalVolume) : Prop where
  dirs : ∀ q, ¬ q <+: staging → v'.fs.isDir q = v.fs.isDir q
  kept : ∀ q, v.fs.isDir q = true → v'.fs.isDir q = true
  other : ∀ q, q ≠ staging ++ [LocalVolume.partFile pm.partNumber] →
    q ≠ staging ++ [LocalVolume.partMetaFile pm.partNumber] → v'.fs.read q = v.fs.read q
  data : v'.fs.read (staging ++ [LocalVolume.partFile pm.partNumber]) =
      v.fs.read (staging ++ [LocalVolume.partFile pm.partNumber]) ∨
    ∃ data, v'.fs.read (staging ++ [LocalVolume.partFile pm.partNumber]) = some (.bytes data)
  described : PartIn staging pm shard v' ∨
    v'.fs.read (staging ++ [LocalVolume.partMetaFile pm.partNumber]) =
      v.fs.read (staging ++ [LocalVolume.partMetaFile pm.partNumber]) ∨
    v'.fs.read (staging ++ [LocalVolume.partMetaFile pm.partNumber]) = some (.bytes [])
  placed : v'.fs.isDir staging = true ∨ v'.fs = v.fs

theorem writePart_touched {b : Bool} (h : writePart staging pm shard v = (.ok b, v')) :
    Touched staging pm shard v v' := by
  have hnames := concat_ne staging (partFile_ne_partMetaFile pm.partNumber pm.partNumber)
  unfold writePart at h
  rw [Act.bind_apply, Act.attempt_apply, Act.bind_apply] at h
  cases hmk : createDirAll staging v with
  | mk r₁ v₁ =>
    rw [hmk] at h
    cases r₁ with
    | error e =>
      cases h
      have hfs : v₁.fs = v.fs := fsCall_error hmk
      exact ⟨fun q _ => by rw [hfs], fun q hq => by rw [hfs]; exact hq, fun q _ _ => by rw [hfs],
        Or.inl (by rw [hfs]), Or.inr (Or.inl (by rw [hfs])), Or.inr hfs⟩
    | ok _ =>
      have hfs₁ := fsCall_ok hmk
      have hdirs : ∀ q, ¬ q <+: staging → v₁.fs.isDir q = v.fs.isDir q := fun q hq =>
        FileTree.createDirAll_isDir_of_not_prefix hfs₁ hq
      have hkept : ∀ q, v.fs.isDir q = true → v₁.fs.isDir q = true := fun q hq =>
        FileTree.createDirAll_isDir_of hfs₁ hq
      have hread := FileTree.createDirAll_read hfs₁
      have hstaging : v₁.fs.isDir staging = true := FileTree.createDirAll_isDir hfs₁ (prefix_refl _)
      cases hwrite : writeWhole (staging ++ [partFile pm.partNumber]) (.bytes shard) v₁ with
      | mk r₂ v₂ =>
        obtain ⟨hother, hdirs₂, hfile⟩ := writeWhole_leaves hwrite
        dsimp only at h
        rw [hwrite] at h
        cases r₂ with
        | error e =>
          cases h
          refine ⟨fun q hq => (hdirs₂ q).trans (hdirs q hq), fun q hq => (hdirs₂ q).trans (hkept q hq),
            fun q hq _ => (hother q hq).trans (hread q), ?_,
            .inr (.inl ((hother _ hnames.symm).trans (hread _))), .inl ((hdirs₂ _).trans hstaging)⟩
          rcases hfile with ⟨hok, -⟩ | ⟨-, hsame | hempty⟩
          · cases hok
          · exact .inl (hsame.trans (hread _))
          · exact .inr ⟨_, hempty⟩
        | ok _ =>
          have hdata := (hfile.resolve_right fun hfail => hfail.1 rfl).2
          cases hmeta : writeWhole (staging ++ [partMetaFile pm.partNumber]) (.partJson pm) v₂ with
          | mk r₃ v₃ =>
            obtain ⟨hother₃, hdirs₃, hmetaFile⟩ := writeWhole_leaves hmeta
            dsimp only at h
            rw [Act.bind_apply, Act.attempt_apply, hmeta] at h
            cases h
            have hdata₃ := (hother₃ _ hnames).trans hdata
            refine ⟨fun q hq => (hdirs₃ q).trans ((hdirs₂ q).trans (hdirs q hq)),
              fun q hq => (hdirs₃ q).trans ((hdirs₂ q).trans (hkept q hq)),
              fun q hq hq' => (hother₃ q hq').trans ((hother q hq).trans (hread q)), .inr ⟨_, hdata₃⟩, ?_,
              .inl ((hdirs₃ _).trans ((hdirs₂ _).trans hstaging))⟩
            rcases hmetaFile with ⟨-, hdescribed⟩ | ⟨-, hsame | hempty⟩
            · exact .inl ⟨hdescribed, hdata₃⟩
            · exact .inr (.inl (hsame.trans ((hother _ hnames.symm).trans (hread _))))
            · exact .inr (.inr hempty)

/-- A disk that worked before the call works after it. -/
theorem Touched.worked (h : Touched staging pm shard v v') : Worked staging obj v.rested v'.rested := by
  refine ⟨rfl, fun q hq => h.other q ?_ ?_, fun q hq _ => h.dirs q hq, h.kept⟩
  · exact (hq _ (ownName_part pm.partNumber)).1
  · exact (hq _ (ownName_partMeta pm.partNumber)).1

/-- **Storing shards keeps the staging directories in order**, whatever fails. -/
theorem Staged.touched {n : Nat} {bucket key uploadId : String} {dir : Path} {upload : UploadMeta}
    {s t : Disks LocalVolume n} (hdir : multipartUploadDir bucket key uploadId = .ok dir)
    (h : Staged bucket key uploadId dir upload s)
    (htouched : ∀ d, ∃ pm shard, Touched (dir ++ [upload.dataDir]) pm shard (s d) (t d)) :
    Staged bucket key uploadId dir upload fun d => (t d).rested := by
  refine ⟨(readUpload_congr hdir fun d => ?_).trans h.opened, fun d name pm hread => ?_,
    fun d name hread => ?_⟩
  · obtain ⟨pm, shard, ht⟩ := htouched d
    refine ht.other _ ?_ ?_ <;>
    · intro heq
      have hlen := congrArg length heq
      simp at hlen
  · obtain ⟨pm', shard, ht⟩ := htouched d
    change (t d).fs.read _ = _ at hread
    by_cases hmeta : name = partMetaFile pm'.partNumber
    · subst hmeta
      rcases ht.described with hpart | hsame | hempty
      · have heq := hpart.described.symm.trans hread
        rw [Option.some.injEq, FileData.partJson.injEq] at heq
        rw [heq]
      · exact h.named d _ pm (hsame.symm.trans hread)
      · rw [hempty] at hread
        cases hread
    by_cases hfile : name = partFile pm'.partNumber
    · subst hfile
      rcases ht.data with hsame | ⟨data, hdata⟩
      · exact h.named d _ pm (hsame.symm.trans hread)
      · rw [hdata] at hread
        cases hread
    · rw [ht.other _ (concat_ne _ hfile) (concat_ne _ hmeta)] at hread
      exact h.named d name pm hread
  · obtain ⟨pm, shard, ht⟩ := htouched d
    change (t d).fs.isDir _ = true
    change (t d).fs.read _ ≠ none at hread
    rcases ht.placed with hisDir | hfs
    · exact hisDir
    · rw [hfs] at hread ⊢
      exact h.placed d name hread

end Disk

/-- The first index that qualifies. -/
theorem find?_finRange {n : Nat} {P : Fin n → Bool} {a : Fin n} (ha : P a = true)
    (hbefore : ∀ d < a, P d ≠ true) : (finRange n).find? P = some a := by
  refine find?_eq_some_iff_getElem.mpr ⟨ha, a.val, by simp, by simp, fun j hj => ?_⟩
  rw [getElem_finRange, Bool.not_eq_true', ← Bool.not_eq_true]
  exact hbefore _ (Fin.lt_def.mpr hj)

/-- In a list without repetitions a search finds what it is for. -/
theorem find?_of_nodup_map {α β : Type} [DecidableEq β] {f : α → β} {l : List α} (h : (l.map f).Nodup)
    {a : α} (ha : a ∈ l) : (l.find? fun a' => f a' = f a) = some a := by
  cases hfind : l.find? fun a' => f a' = f a with
  | none => exact absurd (decide_eq_true rfl) (find?_eq_none.mp hfind a ha)
  | some a' =>
    have heq : f a' = f a := by simpa using find?_some hfind
    rw [inj_on_of_nodup_map h (mem_of_find?_eq_some hfind) ha heq]

/-! ## Uploads with failing disks -/

/-- A call of `put_part`: what fails during the call, and on which disks the shard is not stored. -/
structure PartCall (n : Nat) where
  part : PartUpload
  faults : Fin n → List (Option String)
  failed : Finset (Fin n)

namespace UploadRun

section Degraded

variable {n : Nat} (env : Env) (bucket key uploadId : String)

/-- The disks during a call. -/
def failing (s : UploadRun n) (c : PartCall n) : Disks LocalVolume n := fun d =>
  { s.disks d with faults := c.faults d }

/-- One call of `put_part` with failing disks. -/
def degradedStep (s : UploadRun n) (c : PartCall n) : UploadRun n :=
  let r := putPart bucket key uploadId env c.part (s.failing c)
  ⟨fun d => (r.2 d).rested, match r.1 with
    | .ok _ => Function.update s.last c.part.number (some c.part)
    | .error _ => s.last⟩

/-- The calls of an upload. -/
def degradedRun (calls : List (PartCall n)) (s : UploadRun n) : UploadRun n :=
  calls.foldl (degradedStep env bucket key uploadId) s

/-- The disk has its shard of the part. -/
def HasShard (staging : Path) (u : PartUpload) (d : Fin n) (v : LocalVolume) : Prop :=
  ∀ i, (partDisks n (partOrder bucket key env u))[i]? = some d →
    PartIn staging (partFileMeta env u i ((u.rows env).getD i [])) ((u.rows env).getD i []) v

/-- Only the shards of the layout matter, so it can be tested. -/
theorem hasShard_iff (staging : Path) (u : PartUpload) (d : Fin n) (v : LocalVolume) :
    HasShard env bucket key staging u d v ↔
      ∀ i ∈ range (partDisks n (partOrder bucket key env u)).length,
        (partDisks n (partOrder bucket key env u))[i]? = some d →
          v.fs.read (staging ++ [partMetaFile u.number]) =
            some (.partJson (partFileMeta env u i ((u.rows env).getD i []))) ∧
          v.fs.read (staging ++ [partFile u.number]) = some (.bytes ((u.rows env).getD i [])) := by
  constructor
  · exact fun h i _ hi => ⟨(h i hi).described, (h i hi).data⟩
  · intro h i hi
    obtain ⟨hdescribed, hdata⟩ := h i (mem_range.mpr (List.getElem?_eq_some_iff.mp hi).1) hi
    exact ⟨hdescribed, hdata⟩

instance (staging : Path) (u : PartUpload) (d : Fin n) (v : LocalVolume) :
    Decidable (HasShard env bucket key staging u d v) :=
  decidable_of_iff _ (hasShard_iff env bucket key staging u d v).symm

/-- **An acknowledged call** with a layout over all disks. The shard is missing on fewer disks than there are
parity shards. -/
structure Acknowledged (staging : Path) (s : UploadRun n) (c : PartCall n) : Prop where
  layout : c.part.dataN + c.part.parityN = n
  acked : ∃ pm, (putPart bucket key uploadId env c.part (s.failing c)).1 = .ok pm
  few : c.failed.card ≤ c.part.parityN - 1
  failed : ∀ d, d ∈ c.failed ↔
    ¬ HasShard env bucket key staging c.part d ((degradedStep env bucket key uploadId s c).disks d)

/-- **What must be spared by the failures.** The disk that is listed stores every part: the same disk in every
call, with no directory on the disks before it. A disk that fails has no older metadata of the part. -/
structure Spared (staging obj : Path) (first : Fin n) (s : UploadRun n) (c : PartCall n) : Prop where
  listed : first ∉ c.failed
  earlier : ∀ d < first, ((degradedStep env bucket key uploadId s c).disks d).fs.isDir staging = false
  clean : ∀ d ∈ c.failed, NoPartMeta staging obj c.part.number (s.disks d)

/-- Every call is acknowledged and spares what it must. -/
def SparedRun (staging obj : Path) (first : Fin n) : List (PartCall n) → UploadRun n → Prop
  | [], _ => True
  | c :: calls, s => Acknowledged env bucket key uploadId staging s c ∧
      Spared env bucket key uploadId staging obj first s c ∧
      SparedRun staging obj first calls (degradedStep env bucket key uploadId s c)

end Degraded

variable {number : Int} {u : PartUpload}

/-- The contents of a part are those of one of the calls. -/
theorem mem_of_degraded_last {n : Nat} {env : Env} {bucket key uploadId : String} {calls : List (PartCall n)}
    {s : UploadRun n}
    (hu : (degradedRun env bucket key uploadId calls s).last number = some u) :
    (∃ c ∈ calls, c.part = u) ∨ s.last number = some u := by
  induction calls generalizing s with
  | nil => exact Or.inr hu
  | cons c calls ih =>
    rcases ih hu with ⟨c', hmem, heq⟩ | hlast
    · exact Or.inl ⟨c', .tail _ hmem, heq⟩
    have hstep : (step env bucket key uploadId ⟨s.failing c, s.last⟩ c.part).last number = some u := hlast
    rcases eq_of_step_last hstep with rfl | hthere
    · exact Or.inl ⟨c, mem_cons_self, rfl⟩
    · exact Or.inr hthere

section Invariant

variable {n : Nat} {env : Env} {bucket key uploadId : String} {dir obj : Path} {upload : UploadMeta}
  {first : Fin (n + 1)} {s : UploadRun (n + 1)} {c : PartCall (n + 1)}

/-- **The invariant.** The listed disk has every part, and of each part the disks without their shard have no
metadata. -/
structure DegradedInv (env : Env) (bucket key uploadId : String) (dir obj : Path) (upload : UploadMeta)
    (first : Fin (n + 1)) (s : UploadRun (n + 1)) : Prop where
  work : ∀ d, Workable (dir ++ [upload.dataDir]) obj (s.disks d)
  staged : Staged bucket key uploadId dir upload s.disks
  earlier : ∀ d < first, (s.disks d).fs.isDir (dir ++ [upload.dataDir]) = false
  part : ∀ number u, s.last number = some u → u.number = number ∧ u.Fits (n + 1) ∧
    (s.disks first).fs.isDir (dir ++ [upload.dataDir]) = true ∧
    ∃ failed : Finset (Fin (n + 1)), failed.card ≤ u.parityN ∧ first ∉ failed ∧
      (∀ d, d ∉ failed → HasShard env bucket key (dir ++ [upload.dataDir]) u d (s.disks d)) ∧
      ∀ d ∈ failed, NoPartMeta (dir ++ [upload.dataDir]) obj number (s.disks d)

variable (hdir : multipartUploadDir bucket key uploadId = .ok dir) (hobj : objectDir bucket key = .ok obj)
include hdir

variable (h : DegradedInv env bucket key uploadId dir obj upload first s)

include h in
/-- What an acknowledged call does on each disk. -/
theorem degradedStep_acked (hack : Acknowledged env bucket key uploadId (dir ++ [upload.dataDir]) s c) :
    c.part.Fits (n + 1) ∧ ∃ t : Disks LocalVolume (n + 1),
      degradedStep env bucket key uploadId s c =
        ⟨fun d => (t d).rested, Function.update s.last c.part.number (some c.part)⟩ ∧
      ∀ (i : Nat) d, (partDisks (n + 1) (partOrder bucket key env c.part))[i]? = some d →
        Touched (dir ++ [upload.dataDir]) (partFileMeta env c.part i ((c.part.rows env).getD i []))
          ((c.part.rows env).getD i []) (s.disks d) (t d) := by
  obtain ⟨pm, hacked⟩ := hack.acked
  have hfits : c.part.Fits (n + 1) := by
    by_contra hnot
    obtain ⟨e, hrun⟩ := putPart_rejected env bucket key uploadId (s.failing c) hack.layout hnot
    rw [hrun] at hacked
    cases hacked
  have hopened : readUpload bucket key uploadId (s.failing c) = .ok upload :=
    (readUpload_congr hdir fun d => rfl).trans h.staged.opened
  obtain ⟨stored, t, -, hwrites, hput⟩ := putPart_eq hdir env hopened hfits
  refine ⟨hfits, t, ?_, fun i d hi => ?_⟩
  · by_cases hquorum :
        (stored.filter id).length < (if c.part.parityN = 0 then c.part.dataN else c.part.dataN + 1)
    · simp [hput, if_pos hquorum] at hacked
    · unfold degradedStep
      rw [hput, if_neg hquorum]
  · obtain ⟨b, -, hwrite⟩ := hwrites i d hi
    obtain ⟨hdirs, hkept, hother, hdata, hdescribed, hplaced⟩ := writePart_touched hwrite
    exact ⟨hdirs, hkept, hother, hdata, hdescribed, hplaced⟩

omit hdir in
/-- A disk gets no metadata of a part from another part. -/
theorem noPartMeta_other {staging : Path} {number' : Int} {v v' : LocalVolume}
    (hapart : ApartDirs staging obj) (hother : ∀ q, q ≠ staging ++ [partFile number] →
      q ≠ staging ++ [partMetaFile number] → v'.fs.read q = v.fs.read q) (hne : number' ≠ number)
    (h : NoPartMeta staging obj number' v) : NoPartMeta staging obj number' v' := by
  obtain ⟨⟨hss, -⟩, hos, -⟩ := other_part hapart hne (Or.inl rfl) (Or.inr rfl)
  obtain ⟨⟨hss', -⟩, hos', -⟩ := other_part hapart hne (Or.inr rfl) (Or.inr rfl)
  intro pm
  rw [hother _ hss hss', hother _ hos hos']
  exact h pm

include hobj

include h in
/-- **One call keeps the invariant.** -/
theorem DegradedInv.step (hack : Acknowledged env bucket key uploadId (dir ++ [upload.dataDir]) s c)
    (hspared : Spared env bucket key uploadId (dir ++ [upload.dataDir]) obj first s c) :
    DegradedInv env bucket key uploadId dir obj upload first (degradedStep env bucket key uploadId s c) := by
  have hapart := apart_of_staged hdir hobj (prefix_append dir [upload.dataDir])
  obtain ⟨hfits, t, hstep, htouched⟩ := degradedStep_acked hdir h hack
  have hdisk := hfits.exists_row bucket key env
  have hother : ∀ d q, q ≠ dir ++ [upload.dataDir] ++ [partFile c.part.number] →
      q ≠ dir ++ [upload.dataDir] ++ [partMetaFile c.part.number] →
        (t d).fs.read q = (s.disks d).fs.read q := by
    intro d
    obtain ⟨i, hi⟩ := hdisk d
    exact (htouched i d hi).other
  have hfailed := hack.failed
  have hearlier := hspared.earlier
  rw [hstep] at hfailed hearlier ⊢
  have hshard : ∀ d, d ∉ c.failed →
      HasShard env bucket key (dir ++ [upload.dataDir]) c.part d (t d).rested := by
    intro d hd
    by_contra hnot
    exact hd ((hfailed d).mpr hnot)
  have hfirst : (t first).fs.isDir (dir ++ [upload.dataDir]) = true := by
    obtain ⟨i, hi⟩ := hdisk first
    rcases (htouched i first hi).placed with hdir' | hfs
    · exact hdir'
    · have hpart := (hshard first hspared.listed i hi).data
      rw [hfs]
      refine h.staged.placed first (partFile c.part.number) fun hnone => ?_
      rw [show (t first).rested.fs = (s.disks first).fs from hfs] at hpart
      rw [show (s.disks first).fs.read (dir ++ [upload.dataDir] ++ [partFile c.part.number]) = _
        from hpart] at hnone
      cases hnone
  have hstaged : Staged bucket key uploadId dir upload fun d => (t d).rested := by
    refine h.staged.touched hdir fun d => ?_
    obtain ⟨i, hi⟩ := hdisk d
    exact ⟨_, _, htouched i d hi⟩
  refine ⟨fun d => ?_, hstaged, hearlier, fun number u hu => ?_⟩
  · obtain ⟨i, hi⟩ := hdisk d
    have hrested : (s.disks d).rested = s.disks d := by
      unfold rested
      rw [← (h.work d).calm]
    have hworked : Worked (dir ++ [upload.dataDir]) obj (s.disks d).rested (t d).rested :=
      (htouched i d hi).worked
    rw [hrested] at hworked
    exact (h.work d).of_worked hapart hworked
  · dsimp only at hu
    by_cases hnumber : number = c.part.number
    · subst hnumber
      rw [Function.update_self, Option.some.injEq] at hu
      subst hu
      refine ⟨rfl, hfits, hfirst, c.failed, hack.few.trans (Nat.sub_le _ _), hspared.listed, hshard,
        fun d hd pm => ⟨?_, ?_⟩⟩
      · -- a disk that failed has written no metadata
        obtain ⟨i, hi⟩ := hdisk d
        rcases (htouched i d hi).described with hpart | hsame | hempty
        · refine absurd (fun j hj => ?_) ((hfailed d).mp hd)
          obtain rfl : i = j := by
            obtain ⟨hnd, -, -⟩ := partDisks_perm (partOrder_perm bucket key env hfits)
            exact (getElem?_inj (List.getElem?_eq_some_iff.mp hi).1 hnd).mp (hi.trans hj.symm)
          exact ⟨hpart.described, hpart.data⟩
        · exact fun hread => (hspared.clean d hd pm).1 (hsame.symm.trans hread)
        · exact fun hread => absurd (hempty.symm.trans hread) (by simp)
      · intro hread
        refine (hspared.clean d hd pm).2 ((hother d _ ?_ ?_).symm.trans hread)
        · exact (hapart.concat_ne _ _).symm
        · exact (hapart.concat_ne _ _).symm
    · rw [Function.update_of_ne hnumber] at hu
      obtain ⟨rfl, hfits', -, failed, hcard, hnotin, hstored, hnone⟩ := h.part number u hu
      exact ⟨rfl, hfits', hfirst, failed, hcard, hnotin,
        fun d hd i hi => (hstored d hd i hi).other hapart hnumber (hother d),
        fun d hd => noPartMeta_other hapart (hother d) hnumber (hnone d hd)⟩

include h in
/-- **An upload keeps the invariant.** -/
theorem DegradedInv.run {calls : List (PartCall (n + 1))}
    (hrun : SparedRun env bucket key uploadId (dir ++ [upload.dataDir]) obj first calls s) :
    DegradedInv env bucket key uploadId dir obj upload first (degradedRun env bucket key uploadId calls s) := by
  induction calls generalizing s with
  | nil => exact h
  | cons c calls ih => exact ih (h.step hdir hobj hrun.1 hrun.2.1) hrun.2.2

/-! ## What can be done with the parts -/

include h in
omit hobj in
/-- **Every acknowledged part is listed**, with its last size and ETag, -/
theorem DegradedInv.lists :
    ∃ available, listParts bucket key uploadId s.disks = .ok (upload, available) ∧
      ∀ number u, s.last number = some u → ⟨number, u.data.length, env.md5Hex u.data⟩ ∈ available := by
  refine ⟨_, listParts_eq hdir h.staged.opened, fun number u hu => ?_⟩
  obtain ⟨rfl, hfits, hisDir, failed, -, hnotin, hstored, -⟩ := h.part number u hu
  have hfirst : ((finRange (n + 1)).find? fun d => (s.disks d).fs.isDir (dir ++ [upload.dataDir])) =
      some first := by
    refine find?_finRange hisDir fun d hd => ?_
    rw [h.earlier d hd]
    exact Bool.false_ne_true
  rw [hfirst, mem_insertionSort]
  obtain ⟨i, hi⟩ := hfits.exists_row bucket key env first
  have hdescribed := (hstored first hnotin i hi).described
  obtain ⟨p, hp, hnumber⟩ := exists_stagedPart hdescribed
  obtain ⟨name, pm, -, hread, rfl⟩ := of_mem_stagedParts hp
  have hname := h.staged.named first name pm hread
  rw [hname, show pm.partNumber = u.number from hnumber] at hread
  have heq := hread.symm.trans hdescribed
  rw [Option.some.injEq, FileData.partJson.injEq] at heq
  subst heq
  exact hp

include h in
omit hobj in
/-- and its metadata is found by a completion. -/
theorem DegradedInv.stagedMeta (hu : s.last number = some u) :
    ∃ i, Abixio.stagedMeta (dir ++ [upload.dataDir]) number s.disks =
      some (partFileMeta env u i ((u.rows env).getD i [])) := by
  obtain ⟨available, hlist, havailable⟩ := h.lists hdir
  obtain ⟨pm, hpm, -⟩ := h.staged.listed hdir hlist (havailable number u hu)
  obtain ⟨d, hd⟩ := stagedMeta_some hpm
  obtain ⟨rfl, hfits, -, failed, -, -, hstored, hnone⟩ := h.part number u hu
  have hnotin : d ∉ failed := fun hmem => (hnone d hmem pm).1 hd
  obtain ⟨i, hi⟩ := hfits.exists_row bucket key env d
  have heq := hd.symm.trans (hstored d hnotin i hi).described
  rw [Option.some.injEq, FileData.partJson.injEq] at heq
  exact ⟨i, hpm.trans (congrArg some heq)⟩

include h in
/-- **Completing acknowledged parts** makes an object of the shards that were stored. -/
theorem DegradedInv.complete {requested : List (Int × String)} (hnodup : (requested.map Prod.fst).Nodup)
    (hacked : ∀ r ∈ requested, s.last r.1 ≠ none) (now : Nat) :
    ∃ absent, Completes env bucket key uploadId requested now s.disks (listed s.last requested) absent := by
  obtain ⟨available, hlist, havailable⟩ := h.lists hdir
  have hlast : ∀ r ∈ requested, ∃ u, s.last r.1 = some u := fun r hr =>
    Option.ne_none_iff_exists'.mp (hacked r hr)
  choose! part hpart using hlast
  have hfailed : ∀ r ∈ requested, ∃ failed : Finset (Fin (n + 1)), failed.card ≤ (part r).parityN ∧
      (∀ d, d ∉ failed → HasShard env bucket key (dir ++ [upload.dataDir]) (part r) d (s.disks d)) ∧
      ∀ d ∈ failed, NoPartMeta (dir ++ [upload.dataDir]) obj r.1 (s.disks d) := by
    intro r hr
    obtain ⟨-, -, -, failed, hcard, -, hstored, hnone⟩ := h.part r.1 (part r) (hpart r hr)
    exact ⟨failed, hcard, hstored, hnone⟩
  choose! failed hcard hstored hnone using hfailed
  -- the numbers tell the parts apart, so the missing shards can be given by the part
  obtain ⟨absent, habsent⟩ : ∃ absent : PartUpload → Finset (Fin (n + 1)),
      ∀ r ∈ requested, absent (part r) = failed r := by
    refine ⟨fun u => ((requested.find? fun r => r.1 = u.number).map failed).getD ∅, fun r hr => ?_⟩
    have hfind : (requested.find? fun r' => r'.1 = (part r).number) = some r := by
      rw [(h.part r.1 (part r) (hpart r hr)).1]
      exact find?_of_nodup_map hnodup hr
    dsimp only
    rw [hfind]
    rfl
  rw [listed_eq hpart]
  refine ⟨absent, completeUpload_object hdir hobj h.work hlist
    (fun r hr => ⟨_, havailable r.1 (part r) (hpart r hr), rfl⟩) hnodup (fun r hr => ?_) now⟩
  obtain ⟨hnumber, hfits, -⟩ := h.part r.1 (part r) (hpart r hr)
  rw [habsent r hr]
  exact ⟨hnumber, hfits, hcard r hr, h.stagedMeta hdir (hpart r hr),
    fun i d hi hd => hstored r hr d hd i hi, hnone r hr⟩

end Invariant

/-! ## Two parts on three disks -/

/-- Three disks with the sample upload. -/
def trioStaged : Disks LocalVolume 3 :=
  (createUpload sampleUpload fun d =>
    sampleVolume (if d = 0 then "v0" else if d = 1 then "v1" else "v2")).2

/-- Part 1, with a disk that cannot make the directory, -/
def trioFirst (bad : Fin 3) : PartCall 3 :=
  ⟨⟨1, 1, 2, utf8 "x"⟩, fun d => if d = bad then [some "io"] else [], {bad}⟩

/-- and part 2 without failures. -/
def trioSecond : PartCall 3 := ⟨⟨2, 1, 2, utf8 "y"⟩, fun _ => [], ∅⟩

/-- The upload before the calls, -/
def trioStart : UploadRun 3 := ⟨trioStaged, fun _ => none⟩

/-- and after them. -/
def trioRun (bad : Fin 3) : UploadRun 3 :=
  degradedRun sampleEnv "bkt" "k" sampleUpload.uploadId [trioFirst bad, trioSecond] trioStart

theorem trioStaged_workable (d : Fin 3) :
    Workable (sampleUploadDir ++ [sampleUpload.dataDir]) ["bkt", "k"] (trioStaged d) := by
  apply Workable.of_entries
  revert d
  decide +kernel

theorem trioFirst_acknowledged : Acknowledged sampleEnv "bkt" "k" sampleUpload.uploadId
    (sampleUploadDir ++ [sampleUpload.dataDir]) trioStart (trioFirst 2) :=
  ⟨rfl, ⟨⟨1, 1, "9dd4e461268c8034f5c8564e155c67a6"⟩, by decide +kernel⟩, by decide, by decide +kernel⟩

theorem trioSecond_acknowledged : Acknowledged sampleEnv "bkt" "k" sampleUpload.uploadId
    (sampleUploadDir ++ [sampleUpload.dataDir])
    (degradedStep sampleEnv "bkt" "k" sampleUpload.uploadId trioStart (trioFirst 2)) trioSecond :=
  ⟨rfl, ⟨⟨2, 1, "415290769594460e2e485922904f345d"⟩, by decide +kernel⟩, by decide, by decide +kernel⟩

theorem trio_spared : SparedRun sampleEnv "bkt" "k" sampleUpload.uploadId
    (sampleUploadDir ++ [sampleUpload.dataDir]) ["bkt", "k"] 0 [trioFirst 2, trioSecond] trioStart := by
  refine ⟨trioFirst_acknowledged, ⟨by decide, fun d hd => absurd hd (Fin.not_lt_zero d),
    fun d hd pm => ?_⟩, trioSecond_acknowledged, ⟨Finset.notMem_empty _,
    fun d hd => absurd hd (Fin.not_lt_zero d), fun d hd => absurd hd (Finset.notMem_empty d)⟩, trivial⟩
  obtain ⟨hstaged, hobject⟩ :
      (trioStart.disks 2).fs.read (sampleUploadDir ++ [sampleUpload.dataDir] ++ [partMetaFile 1]) =
        none ∧
      (trioStart.disks 2).fs.read (["bkt", "k"] ++ [partMetaFile 1]) = none := by
    decide +kernel
  obtain rfl : d = 2 := Finset.mem_singleton.mp hd
  constructor
  · intro hread
    cases hstaged.symm.trans hread
  · intro hread
    cases hobject.symm.trans hread

end UploadRun

end Abixio
