import Abixio.Multipart.DegradedParts
import Abixio.S3.Buckets

/-!
# Reading bucket settings back

`set_bucket_settings`, `set_versioning_config` and `set_ftt` write every disk and are content with one that
took the write; the latter two change what each disk has by itself. `get_versioning_config`, `get_ftt`,
`get_bucket_settings` and `bucket_ec` go through the disks and take the first one that says something
(`src/storage/volume_pool.rs:290-303`, `1205-1243`, `1391-1462`).

* A call comes with the file system calls that fail on each disk during it. A write that fails leaves the
  settings of its disk as they were, or an empty file, which reads as no settings.
* A run is a sequence of calls that all return Ok.

Result: `settings_read_back`. Settings read back in every run in which the first disk takes every write, a
call that leaves a field absent reaches every disk, and no policy is `null`.
-/

namespace Abixio

open Lib
open LocalVolume (readBucketSettings writeBucketSettings)

variable {bucket : String}

/-! ## Calls -/

/-- A call that sets a field or all. -/
inductive SettingsOp where
  | setBucketSettings (settings : BucketSettings)
  | setVersioningConfig (status : String)
  | setFtt (ftt : Nat)

namespace SettingsOp

/-- What the call makes of settings. -/
def change : SettingsOp → BucketSettings → BucketSettings
  | .setBucketSettings settings, _ => settings
  | .setVersioningConfig status, settings => { settings with versioning := some status }
  | .setFtt ftt, settings => { settings with ftt := some ftt }

/-- The call. -/
def call {n : Nat} (bucket : String) : SettingsOp → PoolOp LocalVolume n Unit
  | .setBucketSettings settings => Abixio.setBucketSettings bucket settings
  | .setVersioningConfig status => Abixio.setVersioningConfig bucket status
  | .setFtt ftt => Abixio.setFtt bucket ftt

/-- What the call does on a disk. -/
def onDisk (bucket : String) (op : SettingsOp) : VolAct LocalVolume Unit :=
  LocalVolume.changeSettings bucket op.change

end SettingsOp

/-- A call, and what fails on each disk during it. -/
structure SettingsCall (n : Nat) where
  op : SettingsOp
  faults : Fin n → List (Option String)

/-- The pool during a call. -/
def SettingsCall.during {n : Nat} (c : SettingsCall n) (p : Pool LocalVolume n) : Pool LocalVolume n :=
  { p with disks := fun d => { p.disks d with faults := c.faults d } }

/-- Call after call, as long as they return Ok. -/
def settingsRun {n : Nat} (bucket : String) : List (SettingsCall n) → Pool LocalVolume n →
    Except StorageError (Pool LocalVolume n)
  | [], p => .ok p
  | c :: cs, p =>
    match c.op.call bucket (c.during p) with
    | (.ok (), p') => settingsRun bucket cs p'
    | (.error e, _) => .error e

/-- The fault tolerance that `bucket_ec` can use. -/
def usableFtt (numDisks : Nat) (ftt : Option Nat) : Option (Nat × Nat) :=
  ftt.bind fun ftt => (fttToEc ftt numDisks).toOption

/-- **The settings read back.** -/
structure ReadsSettings {n : Nat} (bucket : String) (last : BucketSettings) (p : Pool LocalVolume n) :
    Prop where
  settings : getBucketSettings bucket p = .ok last
  versioning : getVersioningConfig bucket p = .ok last.versioning
  ftt : getFtt bucket p = .ok last.ftt
  ec : bucketEc bucket p =
    (usableFtt n last.ftt).getD ((fttToEc (defaultFtt n) n).toOption.getD (1, 0))

/-- What the calls set, from what was there. -/
def lastSettings {n : Nat} (cs : List (SettingsCall n)) (settings : BucketSettings) : BucketSettings :=
  cs.foldl (fun settings c => c.op.change settings) settings

/-! ## The condition -/

/-- A disk takes the write of a call. -/
def TakesSettings {n : Nat} (bucket : String) (p : Pool LocalVolume n) (c : SettingsCall n) (d : Fin n) : Prop :=
  (c.op.onDisk bucket ((c.during p).disks d)).1 = .ok ()

/-- The call leaves the versioning status absent, or the fault tolerance absent or unusable. -/
def SettingsOp.LeavesGap (numDisks : Nat) : SettingsOp → Prop
  | .setBucketSettings settings => settings.versioning = none ∨ usableFtt numDisks settings.ftt = none
  | .setVersioningConfig _ | .setFtt _ => False

/-- **The condition on a call.** -/
structure Lands {n : Nat} (bucket : String) (p : Pool LocalVolume (n + 1)) (c : SettingsCall (n + 1)) :
    Prop where
  first : TakesSettings bucket p c 0
  gap : c.op.LeavesGap (n + 1) → ∀ d, TakesSettings bucket p c d
  policy : ∀ s, c.op = .setBucketSettings s → s.policy ≠ some .null

/-- Every call of a run meets it. -/
def AllLand {n : Nat} (bucket : String) : Pool LocalVolume (n + 1) → List (SettingsCall (n + 1)) → Prop
  | _, [] => True
  | p, c :: cs => Lands bucket p c ∧ AllLand bucket (c.op.call bucket (c.during p)).2 cs

/-! ## One disk -/

section Disk

/-- **What a write leaves**: the settings, or after an error those before or none. The bucket stays. -/
theorem writeBucketSettings_leaves (hb : ValidBucket bucket) (settings : BucketSettings)
    (v : LocalVolume) :
    let r := writeBucketSettings bucket settings v
    (r.1 = .ok () ∧ readBucketSettings bucket r.2 = settings.parsed ∨
      r.1 ≠ .ok () ∧ (readBucketSettings bucket r.2 = readBucketSettings bucket v ∨
        readBucketSettings bucket r.2 = .empty)) ∧
    r.2.fs.isDir [bucket] = v.fs.isDir [bucket] := by
  have hpath : bucketSettingsPath bucket = .ok (settingsDir bucket ++ ["settings.json"]) :=
    bucketSettingsPath_ok hb
  -- the settings of a volume are those of its file
  have hsame : ∀ w : LocalVolume, w.fs.read (settingsDir bucket ++ ["settings.json"]) =
      v.fs.read (settingsDir bucket ++ ["settings.json"]) →
      readBucketSettings bucket w = readBucketSettings bucket v := by
    intro w hw
    unfold readBucketSettings
    rw [hpath]
    dsimp only
    rw [hw]
  have hout : ¬ [bucket] <+: settingsDir bucket := fun h =>
    settings_not_below hb (List.prefix_refl _) (h.trans (List.prefix_append _ _))
  unfold writeBucketSettings
  rw [bucketSettingsDir_ok hb, Act.ok_bind, Act.bind_apply]
  cases hcreate : createDirAll (settingsDir bucket) v with
  | mk created v₁ =>
    cases created with
    | error e =>
      have hfs := fsCall_error hcreate
      exact ⟨.inr ⟨nofun, .inl (hsame v₁ (by rw [hfs]))⟩, by rw [hfs]⟩
    | ok _ =>
      have hfs := fsCall_ok hcreate
      have hread := FileTree.createDirAll_read hfs
      have hdir := FileTree.createDirAll_isDir_of_not_prefix hfs hout
      dsimp only
      cases hwrite : writeWhole (settingsDir bucket ++ ["settings.json"]) (.settingsJson settings) v₁ with
      | mk written w =>
        obtain ⟨-, hdirs, hfile⟩ := writeWhole_leaves hwrite
        refine ⟨?_, (hdirs _).trans hdir⟩
        rcases hfile with ⟨rfl, hfile⟩ | ⟨hfail, hfile | hfile⟩
        · exact .inl ⟨rfl, readBucketSettings_of_read hb hfile⟩
        · exact .inr ⟨hfail, .inl (hsame w (hfile.trans (hread _)))⟩
        · refine .inr ⟨hfail, .inr ?_⟩
          unfold readBucketSettings
          rw [hpath]
          dsimp only
          rw [hfile]

/-- A setter keeps what is written free of a null policy. -/
theorem change_policy {op : SettingsOp} (hop : ∀ s, op = .setBucketSettings s → s.policy ≠ some .null)
    {settings : BucketSettings} (h : settings.policy ≠ some .null) :
    (op.change settings).policy ≠ some .null := by
  cases op with
  | setBucketSettings s => exact hop s rfl
  | setVersioningConfig status => exact h
  | setFtt ftt => exact h

end Disk

/-! ## One call -/

section Calls

variable {n : Nat} {p p' : Pool LocalVolume n}

/-- The disks after a call on every disk. -/
theorem onAnyDisk_snd (x : VolAct LocalVolume Unit) (p : Pool LocalVolume n) :
    (onAnyDisk x p).2 = { p with disks := fun d => (x (p.disks d)).2 } := by
  unfold onAnyDisk
  rw [Act.bind_ok (onDisks_each_attempt (fun _ => x) p)]
  split <;> rfl

theorem checked_ok {x : PoolOp LocalVolume n Unit}
    (h : (do Act.query (checkBucket bucket); x : PoolOp LocalVolume n Unit) p = (.ok (), p')) :
    checkBucket bucket p = .ok () ∧ x p = (.ok (), p') := by
  obtain ⟨⟨⟩, hcheck, h⟩ := Act.query_bind_eq_ok.mp h
  exact ⟨hcheck, h⟩

/-- **A call that returns Ok**: the bucket is there, and every disk has seen the write. -/
theorem SettingsOp.call_ok {op : SettingsOp} (h : op.call bucket p = (.ok (), p')) :
    checkBucket bucket p = .ok () ∧ (∀ f, op = .setFtt f → (fttToEc f n).toOption ≠ none) ∧
      p' = { p with disks := fun d => (op.onDisk bucket (p.disks d)).2 } := by
  cases op with
  | setBucketSettings s =>
    obtain ⟨hcheck, hdisks⟩ := checked_ok h
    exact ⟨hcheck, nofun, (congrArg Prod.snd hdisks).symm.trans (onAnyDisk_snd _ p)⟩
  | setVersioningConfig status =>
    obtain ⟨hcheck, hdisks⟩ := checked_ok h
    exact ⟨hcheck, nofun, (congrArg Prod.snd hdisks).symm.trans (onAnyDisk_snd _ p)⟩
  | setFtt ftt =>
    obtain ⟨hcheck, hrest⟩ := checked_ok h
    obtain ⟨ec, hec, hdisks⟩ := Act.ofExcept_bind_eq_ok.mp hrest
    refine ⟨hcheck, ?_, (congrArg Prod.snd hdisks).symm.trans (onAnyDisk_snd _ p)⟩
    rintro f ⟨⟩
    rw [hec]
    exact nofun

/-! ## The invariant -/

/-- **The first disk has the settings**, and where it has a gap no disk has more. -/
structure FirstRules (bucket : String) (last : BucketSettings) (p : Pool LocalVolume (n + 1)) :
    Prop where
  check : checkBucket bucket p = .ok ()
  first : LocalVolume.readBucketSettings bucket (p.disks 0) = last
  versioning : last.versioning = none → ∀ d,
    (LocalVolume.readBucketSettings bucket (p.disks d)).versioning = none
  ftt : last.ftt = none → ∀ d, (LocalVolume.readBucketSettings bucket (p.disks d)).ftt = none
  usable : usableFtt (n + 1) last.ftt = none → ∀ d,
    usableFtt (n + 1) (LocalVolume.readBucketSettings bucket (p.disks d)).ftt = none
  empty : last = .empty → ∀ d, LocalVolume.readBucketSettings bucket (p.disks d) = .empty

variable {p p' : Pool LocalVolume (n + 1)} {last : BucketSettings} {c : SettingsCall (n + 1)}

theorem checkBucket_iff : checkBucket bucket p = .ok () ↔
    validateBucketName bucket = .ok () ∧ headBucket bucket p = .ok true := by
  unfold checkBucket
  cases validateBucketName bucket with
  | error e => exact iff_of_false nofun fun h => nomatch h.1
  | ok _ =>
    cases headBucket bucket p with
    | error e => exact iff_of_false nofun fun h => nomatch h.2
    | ok found =>
      cases found with
      | true => exact iff_of_true rfl ⟨rfl, rfl⟩
      | false => exact iff_of_false nofun fun h => nomatch h.2

/-- The first disk that has a value has that of the first disk, if one there is a value for all. -/
theorem findSome?_first {α : Type} (f : Fin (n + 1) → Option α) (h : f 0 = none → ∀ d, f d = none) :
    (List.finRange (n + 1)).findSome? f = f 0 := by
  cases hzero : f 0 with
  | none => rw [List.findSome?_eq_none_iff.mpr fun d _ => h hzero d]
  | some a => rw [List.finRange_succ, List.findSome?_cons, hzero]

/-- The settings then read back. -/
theorem FirstRules.reads (h : FirstRules bucket last p) : ReadsSettings bucket last p where
  settings := by
    unfold getBucketSettings
    rw [h.check]
    have hgap : readBucketSettings bucket (p.disks 0) = .empty → ∀ d,
        readBucketSettings bucket (p.disks d) = .empty := fun he =>
      h.empty (h.first.symm.trans he)
    rw [findSome?_first _ fun hnone d => ?_]
    · rw [h.first]
      by_cases he : last = .empty
      · rw [if_neg (not_not_intro he), he]
        rfl
      · rw [if_pos he]
        rfl
    · by_cases he : readBucketSettings bucket (p.disks 0) = .empty
      · rw [if_neg (not_not_intro (hgap he d))]
      · simp [if_pos he] at hnone
  versioning := by
    have hhead := checkBucket_iff.mp h.check
    unfold getVersioningConfig
    rw [hhead.1, hhead.2]
    dsimp only [bind, Except.bind]
    rw [if_pos rfl, findSome?_first _ fun hnone => ?_]
    · exact congrArg (fun s : BucketSettings => Except.ok s.versioning) h.first
    · exact h.versioning ((congrArg BucketSettings.versioning h.first).symm.trans hnone)
  ftt := by
    unfold getFtt
    rw [h.check]
    dsimp only [bind, Except.bind]
    rw [findSome?_first _ fun hnone => h.ftt ((congrArg BucketSettings.ftt h.first).symm.trans hnone),
      h.first]
  ec := by
    have hfirst := congrArg (fun s : BucketSettings => usableFtt (n + 1) s.ftt) h.first
    rw [← hfirst]
    refine congrArg (fun o : Option (Nat × Nat) => o.getD _) (findSome?_first _ fun hnone => ?_)
    exact h.usable (hfirst.symm.trans hnone)

section

variable (hb : validateBucketName bucket = .ok ())
include hb

/-- What a call leaves on a disk: the change, or the settings before or none. -/
theorem onDisk_leaves
    (hpolicy : ∀ s, c.op = .setBucketSettings s → s.policy ≠ some .null) (d : Fin (n + 1)) :
    let before := readBucketSettings bucket (p.disks d)
    let after := readBucketSettings bucket (c.op.onDisk bucket ((c.during p).disks d)).2
    (TakesSettings bucket p c d → after = c.op.change before) ∧
      (after = c.op.change before ∨ after = before ∨ after = .empty) := by
  have hparsed := BucketSettings.parsed_of_policy
    (change_policy hpolicy (readBucketSettings_policy bucket (p.disks d)))
  have hleaves := (writeBucketSettings_leaves hb
    (c.op.change (readBucketSettings bucket (p.disks d))) ((c.during p).disks d)).1
  rw [hparsed] at hleaves
  rcases hleaves with ⟨-, hafter⟩ | ⟨hfail, hafter⟩
  · exact ⟨fun _ => hafter, .inl hafter⟩
  · exact ⟨fun htakes => absurd htakes hfail, .inr hafter⟩

/-- The bucket is there after a call. -/
theorem checkBucket_during (c : SettingsCall (n + 1)) (hcheck : checkBucket bucket p = .ok ()) :
    checkBucket bucket { c.during p with
      disks := fun d => (c.op.onDisk bucket ((c.during p).disks d)).2 } = .ok () := by
  have hhead := (checkBucket_iff.mp hcheck).2
  refine checkBucket_iff.mpr ⟨hb, ?_⟩
  rw [headBucket_eq hb] at hhead ⊢
  rw [← hhead]
  refine congrArg (fun found : Fin (n + 1) → Bool => Except.ok ((List.finRange (n + 1)).any found)) ?_
  funext d
  exact (writeBucketSettings_leaves hb
    (c.op.change (readBucketSettings bucket (p.disks d))) ((c.during p).disks d)).2

/-- **A call that lands** keeps the rule. -/
theorem FirstRules.call (h : FirstRules bucket last p) (hland : Lands bucket p c)
    (hcall : c.op.call bucket (c.during p) = (.ok (), p')) : FirstRules bucket (c.op.change last) p' := by
  obtain ⟨-, hvalid, rfl⟩ := SettingsOp.call_ok hcall
  have hleaves := onDisk_leaves (p := p) hb hland.policy
  have hfirst := (hleaves 0).1 hland.first
  rw [h.first] at hfirst
  have hcheck := checkBucket_during hb c h.check
  -- a field that a setter does not set is as before on every disk, or gone with the file
  have hkeeps {α : Type} (f : BucketSettings → Option α) (hchange : ∀ s, f (c.op.change s) = f s)
      (hempty : f .empty = none) (hnone : ∀ d, f (readBucketSettings bucket (p.disks d)) = none)
      (d : Fin (n + 1)) : f (readBucketSettings bucket
        (c.op.onDisk bucket ((c.during p).disks d)).2) = none := by
    rcases (hleaves d).2 with hafter | hafter | hafter
    · rw [hafter, hchange, hnone]
    · rw [hafter, hnone]
    · rw [hafter, hempty]
  cases hop : c.op with
  | setBucketSettings s =>
    have hall : c.op.LeavesGap (n + 1) → ∀ d, readBucketSettings bucket
        (c.op.onDisk bucket ((c.during p).disks d)).2 = s := fun hgap d => by
      rw [(hleaves d).1 (hland.gap hgap d), hop]
      rfl
    rw [hop] at hall hfirst hcheck
    refine ⟨hcheck, hfirst, fun hnone d => ?_, fun hnone d => ?_, fun hnone d => ?_, fun he d => ?_⟩
    · rw [hall (.inl hnone) d]
      exact hnone
    · rw [hall (.inr (congrArg (usableFtt (n + 1)) hnone)) d]
      exact hnone
    · rw [hall (.inr hnone) d]
      exact hnone
    · rw [hall (.inl (congrArg BucketSettings.versioning he)) d]
      exact he
  | setVersioningConfig status =>
    rw [hop] at hkeeps hfirst hcheck
    exact ⟨hcheck, hfirst, nofun,
      fun hnone => hkeeps BucketSettings.ftt (fun _ => rfl) rfl (h.ftt hnone),
      fun hnone => hkeeps (fun s => usableFtt (n + 1) s.ftt) (fun _ => rfl) rfl (h.usable hnone),
      fun he => nomatch congrArg BucketSettings.versioning he⟩
  | setFtt ftt =>
    rw [hop] at hkeeps hfirst hcheck
    exact ⟨hcheck, hfirst, fun hnone => hkeeps BucketSettings.versioning (fun _ => rfl) rfl
        (h.versioning hnone), nofun, fun hnone => absurd hnone (hvalid ftt hop),
      fun he => nomatch congrArg BucketSettings.ftt he⟩

/-- **A run of calls that land** keeps it. -/
theorem FirstRules.run (cs : List (SettingsCall (n + 1))) :
    ∀ {p : Pool LocalVolume (n + 1)} {last : BucketSettings}, FirstRules bucket last p →
      AllLand bucket p cs → settingsRun bucket cs p = .ok p' → FirstRules bucket (lastSettings cs last) p' := by
  induction cs with
  | nil =>
    intro p last h _ hrun
    cases hrun
    exact h
  | cons c cs ih =>
    intro p last h hland hrun
    rw [settingsRun] at hrun
    cases hcall : c.op.call bucket (c.during p) with
    | mk r q =>
      rw [hcall] at hrun
      cases r with
      | error e => cases hrun
      | ok _ =>
        have hrest := hland.2
        rw [hcall] at hrest
        exact ih (h.call hb hland.1 hcall) hrest hrun

end

/-- **Bucket settings read back.** From disks that agree, after every run whose calls land. -/
theorem settings_read_back (hb : validateBucketName bucket = .ok ()) {first : BucketSettings}
    (hhead : headBucket bucket p = .ok true)
    (hagree : ∀ d, LocalVolume.readBucketSettings bucket (p.disks d) = first)
    (cs : List (SettingsCall (n + 1))) (hland : AllLand bucket p cs)
    (hrun : settingsRun bucket cs p = .ok p') : ReadsSettings bucket (lastSettings cs first) p' := by
  have hstart : FirstRules bucket first p :=
    ⟨checkBucket_iff.mpr ⟨hb, hhead⟩, hagree 0, fun hnone d => (hagree d).symm ▸ hnone,
      fun hnone d => (hagree d).symm ▸ hnone, fun hnone d => (hagree d).symm ▸ hnone,
      fun he d => (hagree d).trans he⟩
  exact (hstart.run hb cs hland hrun).reads

end Calls

/-! ## Two disks -/

/-- Two disks with the bucket `bkt`. -/
def settingsPool : Pool LocalVolume 2 := ⟨sampleDisks, none, none⟩

/-- A status is set, and the first file system call fails on these disks. -/
def statusCall (status : String) (failing : List (Fin 2)) : SettingsCall 2 :=
  ⟨.setVersioningConfig status, fun d => if d ∈ failing then [some "disk error"] else []⟩

/-- The second disk misses a change. -/
theorem settings_read_back_second :
    ∃ p, settingsRun "bkt" [statusCall "Enabled" [], statusCall "Suspended" [1]] settingsPool = .ok p ∧
      ReadsSettings "bkt" { BucketSettings.empty with versioning := some "Suspended" } p := by
  have hname : validateBucketName "bkt" = .ok () := by decide +kernel
  have hhead : headBucket "bkt" settingsPool = .ok true := by decide +kernel
  have hagree : ∀ d, readBucketSettings "bkt" (settingsPool.disks d) = .empty := by
    decide +kernel
  have htakes : TakesSettings "bkt" settingsPool (statusCall "Enabled" []) 0 ∧
      TakesSettings "bkt" ((statusCall "Enabled" []).op.call "bkt"
        ((statusCall "Enabled" []).during settingsPool)).2 (statusCall "Suspended" [1]) 0 := by
    unfold TakesSettings
    decide +kernel
  cases hrun : settingsRun "bkt" [statusCall "Enabled" [], statusCall "Suspended" [1]] settingsPool with
  | error e =>
    have hok : (settingsRun "bkt" [statusCall "Enabled" [], statusCall "Suspended" [1]]
      settingsPool).toOption.isSome = true := by decide +kernel
    rw [hrun] at hok
    cases hok
  | ok p =>
    exact ⟨p, rfl, settings_read_back hname hhead hagree
      [statusCall "Enabled" [], statusCall "Suspended" [1]]
      ⟨⟨htakes.1, False.elim, nofun⟩, ⟨htakes.2, False.elim, nofun⟩, trivial⟩ hrun⟩

/-- The first disk misses the change, and its old status is read. -/
theorem stale_status_shadows :
    (settingsRun "bkt" [statusCall "Enabled" [], statusCall "Suspended" [0]] settingsPool).map
        (getVersioningConfig "bkt") = .ok (.ok (some "Enabled")) ∧
      (lastSettings [statusCall "Enabled" [], statusCall "Suspended" [0]] .empty).versioning =
        some "Suspended" := by
  decide +kernel

end Abixio
