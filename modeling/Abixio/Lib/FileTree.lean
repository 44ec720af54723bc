import Mathlib.Data.List.Nodup
import Mathlib.Data.List.Lookmap
import Mathlib.Data.List.Induction

/-!
# A tree of directories and files

A file system as a finite map from paths to directories and files, over an arbitrary type of file
contents. Paths are lists of components below a root that always exists. `createDirAll`,
`writeFile`, `modifyFile`, `renameFile`, `removeFile` and `removeDirAll` behave as the POSIX calls
do when the device works: they answer `none` when the tree does not allow the call, and change
nothing then.

The lemmas say of each operation what `read` and `isDir` return afterwards, on the path it was
called with and on every other one. `WellFormed ok` trees have a directory above every entry and
only names that satisfy `ok`. `KeepsOutside` is the frame of a sequence of operations.
-/

namespace Abixio.Lib

open List

/-- A path below the root. -/
abbrev Path := List String

/-- A directory or a file. -/
inductive TreeEntry (α : Type) where
  | dir
  | file (content : α)
  deriving DecidableEq

/-- A finite map from paths to directories and files. -/
structure FileTree (α : Type) where
  entries : List (Path × TreeEntry α)
  nodup : (entries.map Prod.fst).Nodup

variable {r : Path}

namespace FileTree

variable {α : Type}

/-- The tree with nothing below its root. -/
def empty : FileTree α := ⟨[], nodup_nil⟩

/-- The entry at a path. -/
def lookup (t : FileTree α) (p : Path) : Option (TreeEntry α) :=
  if p = [] then some .dir else (t.entries.find? fun e => e.1 = p).map Prod.snd

def isDir (t : FileTree α) (p : Path) : Bool :=
  match t.lookup p with
  | some .dir => true
  | _ => false

/-- The contents of a file. -/
def read (t : FileTree α) (p : Path) : Option α :=
  match t.lookup p with
  | some (.file a) => some a
  | _ => none

/-- Keep the entries whose path satisfies `keep`. -/
def restrict (t : FileTree α) (keep : Path → Bool) : FileTree α where
  entries := t.entries.filter fun e => keep e.1
  nodup := t.nodup.sublist (filter_sublist.map _)

/-- Put an entry at a path. -/
def set (t : FileTree α) (p : Path) (e : TreeEntry α) : FileTree α where
  entries := (p, e) :: (t.restrict fun q => q ≠ p).entries
  nodup := by
    rw [map_cons, nodup_cons]
    refine ⟨?_, (t.restrict fun q => q ≠ p).nodup⟩
    rintro h
    obtain ⟨q, hq, rfl⟩ := mem_map.mp h
    exact of_decide_eq_true (mem_filter.mp hq).2 rfl

/-- Create the directories `done ++ [s₁]`, `done ++ [s₁, s₂]`, … that are missing. -/
def createDirs (t : FileTree α) (done : Path) : Path → Option (FileTree α)
  | [] => some t
  | s :: rest =>
    match t.lookup (done ++ [s]) with
    | some .dir => t.createDirs (done ++ [s]) rest
    | some (.file _) => none
    | none => (t.set (done ++ [s]) .dir).createDirs (done ++ [s]) rest

/-- `mkdir -p`. -/
def createDirAll (t : FileTree α) (p : Path) : Option (FileTree α) := t.createDirs [] p

/-- Create a file or replace its contents. -/
def writeFile (t : FileTree α) (p : Path) (a : α) : Option (FileTree α) :=
  if t.isDir p.dropLast ∧ ¬ t.isDir p then some (t.set p (.file a)) else none

/-- Change the contents of a file through an open handle; nothing happens to an unlinked file. -/
def modifyFile (t : FileTree α) (p : Path) (f : α → α) : FileTree α :=
  match t.read p with
  | some a => t.set p (.file (f a))
  | none => t

/-- Remove a directory with everything below it. -/
def removeDirAll (t : FileTree α) (p : Path) : Option (FileTree α) :=
  if p ≠ [] ∧ t.isDir p then some (t.restrict fun q => ¬ p.isPrefixOf q) else none

/-- Remove a file. -/
def removeFile (t : FileTree α) (p : Path) : Option (FileTree α) :=
  if (t.read p).isSome then some (t.restrict fun q => q ≠ p) else none

/-- Move a file, over another one if there is one. -/
def renameFile (t : FileTree α) (p q : Path) : Option (FileTree α) :=
  match t.read p with
  | some a => if t.isDir q.dropLast ∧ ¬ t.isDir q then
      some ((t.restrict fun r => r ≠ p).set q (.file a))
    else none
  | none => none

/-- The entries directly below a directory. -/
def children (t : FileTree α) (p : Path) : List (String × TreeEntry α) :=
  t.entries.filterMap fun e =>
    if e.1.dropLast = p ∧ e.1 ≠ [] then e.1.getLast?.map fun name => (name, e.2) else none

/-- Remove an empty directory. -/
def removeDir (t : FileTree α) (p : Path) : Option (FileTree α) :=
  if p ≠ [] ∧ t.isDir p ∧ (t.children p).isEmpty then some (t.restrict fun q => q ≠ p) else none

/-! ## Lookup -/

variable {t t' : FileTree α} {p q : Path} {name : String} {a : α} {e : TreeEntry α} {f : α → α}

@[simp] theorem lookup_nil (t : FileTree α) : t.lookup [] = some .dir := rfl

theorem lookup_restrict (t : FileTree α) (keep : Path → Bool) (hp : p ≠ []) :
    (t.restrict keep).lookup p = if keep p then t.lookup p else none := by
  unfold lookup restrict
  rw [if_neg hp, if_neg hp, find?_filter]
  split
  · rename_i hk
    congr 2
    funext e
    by_cases he : e.1 = p
    · simp [he, hk]
    · simp [he]
  · rename_i hk
    rw [find?_eq_none.mpr]
    · rfl
    · intro e _
      by_cases he : e.1 = p
      · simp [he, hk]
      · simp [he]

theorem lookup_restrict_ne (t : FileTree α) (h : q ≠ p) :
    (t.restrict fun r => r ≠ p).lookup q = t.lookup q := by
  by_cases hq : q = []
  · rw [hq, lookup_nil, lookup_nil]
  · rw [lookup_restrict _ _ hq, if_pos (decide_eq_true h)]

theorem lookup_set_self (t : FileTree α) (e : TreeEntry α) (hp : p ≠ []) :
    (t.set p e).lookup p = some e := by
  unfold lookup set
  rw [if_neg hp]
  simp

theorem lookup_set_of_ne (t : FileTree α) (e : TreeEntry α) (h : q ≠ p) :
    (t.set p e).lookup q = t.lookup q := by
  by_cases hq : q = []
  · subst hq
    rfl
  rw [← t.lookup_restrict_ne h]
  unfold lookup set
  rw [if_neg hq, if_neg hq, find?_cons_of_neg (by simpa using fun e => h e.symm)]

theorem isDir_iff : t.isDir p = true ↔ t.lookup p = some .dir := by
  unfold isDir
  split <;> simp_all

theorem read_eq_some : t.read p = some a ↔ t.lookup p = some (.file a) := by
  unfold read
  split <;> simp_all

theorem read_of_isDir (h : t.isDir p = true) : t.read p = none := by
  unfold read
  rw [isDir_iff.mp h]

theorem read_eq_of_lookup (h : t'.lookup p = t.lookup p) : t'.read p = t.read p := by
  unfold read
  rw [h]

theorem isDir_eq_of_lookup (h : t'.lookup p = t.lookup p) : t'.isDir p = t.isDir p := by
  unfold isDir
  rw [h]

/-- What there is is a directory or a file. -/
theorem lookup_isSome : (t.lookup p).isSome = (t.isDir p || (t.read p).isSome) := by
  unfold isDir read
  cases t.lookup p with
  | none => rfl
  | some e => cases e <;> rfl

/-- Files and directories are all there is to find. -/
theorem lookup_eq_of (hr : t'.read p = t.read p) (hd : t'.isDir p = t.isDir p) :
    t'.lookup p = t.lookup p := by
  unfold read at hr
  unfold isDir at hd
  cases h : t.lookup p with
  | none =>
    cases h' : t'.lookup p with
    | none => rfl
    | some e => rw [h'] at hr hd; cases e <;> simp_all
  | some e =>
    cases h' : t'.lookup p with
    | none => rw [h'] at hr hd; cases e <;> simp_all
    | some e' => rw [h'] at hr hd; cases e <;> cases e' <;> simp_all

/-- **Directories are created one after the other**: what making a missing one keeps, making all of them
keeps. -/
theorem createDirs_induction {motive : FileTree α → Prop} :
    ∀ {rest : Path} {t t' : FileTree α} {done : Path}, (∀ {t q}, q ≠ [] → q <+: done ++ rest →
      t.isDir q.dropLast = true → t.lookup q = none → motive t → motive (t.set q .dir)) →
    t.isDir done = true → t.createDirs done rest = some t' → motive t → motive t'
  | [], t, t', done, _, _, h, hm => by
    cases h
    exact hm
  | s :: rest, t, t', done, hstep, hd, h, hm => by
    rw [append_cons] at hstep
    unfold createDirs at h
    split at h
    · rename_i hdir
      exact createDirs_induction hstep (isDir_iff.mpr hdir) h hm
    · cases h
    · rename_i hnone
      have hne : done ++ [s] ≠ [] := by simp
      refine createDirs_induction hstep (isDir_iff.mpr (t.lookup_set_self .dir hne)) h ?_
      exact hstep hne (prefix_append _ _) (by rwa [dropLast_concat]) hnone hm

/-- The entries of a directory. -/
theorem mem_children : (name, e) ∈ t.children p ↔ t.lookup (p ++ [name]) = some e := by
  have hlookup : t.lookup (p ++ [name]) = some e ↔ (p ++ [name], e) ∈ t.entries := by
    unfold lookup
    rw [if_neg (by simp), Option.map_eq_some_iff]
    constructor
    · rintro ⟨⟨q, e'⟩, hfind, rfl⟩
      have hq := find?_some hfind
      simp only [decide_eq_true_eq] at hq
      rw [← hq]
      exact mem_of_find?_eq_some hfind
    · intro hmem
      cases hfind : t.entries.find? fun e => e.1 = p ++ [name] with
      | none => exact absurd (find?_eq_none.mp hfind _ hmem) (by simp)
      | some found =>
        have hq := find?_some hfind
        simp only [decide_eq_true_eq] at hq
        have heq := inj_on_of_nodup_map t.nodup (mem_of_find?_eq_some hfind) hmem hq
        exact ⟨found, rfl, by rw [heq]⟩
  rw [hlookup]
  unfold children
  rw [mem_filterMap]
  constructor
  · rintro ⟨⟨q, e'⟩, hmem, hq⟩
    split_ifs at hq with hcond
    rw [Option.map_eq_some_iff] at hq
    obtain ⟨last, hlast, heq⟩ := hq
    cases heq
    have hsplit : q.dropLast ++ [name] = q := dropLast_append_getLast? name hlast
    have hdir : q.dropLast = p := hcond.1
    rw [hdir] at hsplit
    rw [hsplit]
    exact hmem
  · intro hmem
    refine ⟨_, hmem, ?_⟩
    simp

/-- Every entry is in a directory and has a name that satisfies `ok`. -/
structure WellFormed (ok : String → Prop) (t : FileTree α) : Prop where
  parent : ∀ e ∈ t.entries, t.isDir e.1.dropLast = true
  names : ∀ e ∈ t.entries, ∀ name ∈ e.1, ok name

section WellFormed

variable {ok : String → Prop}

instance [DecidablePred ok] (t : FileTree α) : Decidable (t.WellFormed ok) :=
  decidable_of_iff ((∀ e ∈ t.entries, t.isDir e.1.dropLast = true) ∧
    ∀ e ∈ t.entries, ∀ name ∈ e.1, ok name) ⟨fun h => ⟨h.1, h.2⟩, fun h => ⟨h.1, h.2⟩⟩

/-- An entry that is found is one of the tree's. -/
theorem mem_entries_of_lookup (hp : p ≠ []) (h : t.lookup p = some e) : (p, e) ∈ t.entries := by
  unfold lookup at h
  rw [if_neg hp, Option.map_eq_some_iff] at h
  obtain ⟨⟨q, e'⟩, hfind, rfl⟩ := h
  have hq := find?_some hfind
  simp only [decide_eq_true_eq] at hq
  rw [← hq]
  exact mem_of_find?_eq_some hfind

theorem WellFormed.isDir_parent (h : t.WellFormed ok)
    (hl : (t.lookup (p ++ [name])).isSome = true) : t.isDir p = true := by
  obtain ⟨e, he⟩ := Option.isSome_iff_exists.mp hl
  have hparent := h.parent _ (mem_entries_of_lookup (by simp) he)
  rwa [dropLast_concat] at hparent

/-- The directories above a directory. -/
theorem WellFormed.isDir_of_append (h : t.WellFormed ok) (p : Path) :
    ∀ {q : Path}, t.isDir (p ++ q) = true → t.isDir p = true := by
  intro q
  induction q using reverseRecOn with
  | nil => simp
  | append_singleton q name ih =>
    intro hd
    rw [← append_assoc] at hd
    exact ih (h.isDir_parent (by rw [isDir_iff.mp hd]; rfl))

/-- A new entry in a directory, or a file in a file's place. -/
theorem WellFormed.set (h : t.WellFormed ok) (hd : t.isDir p.dropLast = true)
    (hp : t.isDir p = false) (hn : ∀ name ∈ p, ok name) (e : TreeEntry α) :
    (t.set p e).WellFormed ok := by
  have hkeep : ∀ q, t.isDir q = true → (t.set p e).isDir q = true := by
    intro q hq
    have hne : q ≠ p := by
      rintro rfl
      rw [hp] at hq
      cases hq
    rw [isDir_eq_of_lookup (t.lookup_set_of_ne e hne)]
    exact hq
  have hmem : ∀ x ∈ (t.set p e).entries, x = (p, e) ∨ x ∈ t.entries := by
    intro x hx
    rcases mem_cons.mp hx with rfl | hx
    · exact Or.inl rfl
    · exact Or.inr (mem_filter.mp hx).1
  constructor
  · intro x hx
    rcases hmem x hx with rfl | hx
    · exact hkeep _ hd
    · exact hkeep _ (h.parent x hx)
  · intro x hx
    rcases hmem x hx with rfl | hx
    · exact hn
    · exact h.names x hx

theorem WellFormed.createDirAll (h : t.WellFormed ok) (hn : ∀ name ∈ p, ok name)
    (hc : t.createDirAll p = some t') : t'.WellFormed ok := by
  refine createDirs_induction (fun {t q} _ hq hd hnone h => ?_) rfl hc h
  refine h.set hd ?_ (fun name hname => hn name (hq.subset hname)) .dir
  unfold isDir
  rw [hnone]

theorem WellFormed.writeFile (h : t.WellFormed ok) (hn : ∀ name ∈ p, ok name)
    (hw : t.writeFile p a = some t') : t'.WellFormed ok := by
  unfold FileTree.writeFile at hw
  split at hw
  · rename_i hd
    cases hw
    exact h.set hd.1 (by simpa using hd.2) hn _
  · cases hw

end WellFormed

/-! ## What stays -/

/-- Entries outside `area` stay. The only new ones are directories on the way to `dir`. -/
def KeepsOutside (area : Path → Prop) (dir : Path) (t t' : FileTree α) : Prop :=
  ∀ q, ¬ area q → t'.lookup q = t.lookup q ∨
    (t.lookup q = none ∧ t'.lookup q = some .dir ∧ q <+: dir)

variable {area : Path → Prop} {dir : Path} {t'' : FileTree α}

theorem KeepsOutside.refl (t : FileTree α) : KeepsOutside area dir t t := fun _ _ => Or.inl rfl

section

variable (h : KeepsOutside area dir t t')
include h

theorem KeepsOutside.trans (h' : KeepsOutside area dir t' t'') : KeepsOutside area dir t t'' := by
  intro q hq
  rcases h q hq with h₁ | ⟨h₁, h₁', hp⟩
  · rcases h' q hq with h₂ | ⟨h₂, h₂', hp⟩
    · exact Or.inl (h₂.trans h₁)
    · exact Or.inr ⟨h₁.symm.trans h₂, h₂', hp⟩
  · rcases h' q hq with h₂ | ⟨h₂, -, -⟩
    · exact Or.inr ⟨h₁, h₂.trans h₁', hp⟩
    · simp [h₁'] at h₂

theorem KeepsOutside.mono {area' : Path → Prop} (hsub : ∀ q, area q → area' q) : KeepsOutside area' dir t t' :=
  fun q hq => h q fun ha => hq (hsub q ha)

theorem KeepsOutside.read (hq : ¬ area q) : t'.read q = t.read q := by
  rcases h q hq with hl | ⟨hl, hd, -⟩
  · exact read_eq_of_lookup hl
  · rw [read_of_isDir (isDir_iff.mpr hd)]
    unfold FileTree.read
    rw [hl]

theorem KeepsOutside.isDir (hq : ¬ area q) (hp : ¬ q <+: dir) : t'.isDir q = t.isDir q := by
  rcases h q hq with hl | ⟨-, -, hway⟩
  · exact isDir_eq_of_lookup hl
  · exact absurd hway hp

theorem KeepsOutside.isDir_of (hq : ¬ area q) (hd : t.isDir q = true) : t'.isDir q = true := by
  rcases h q hq with hl | ⟨-, hnew, -⟩
  · rw [isDir_eq_of_lookup hl]
    exact hd
  · exact isDir_iff.mpr hnew

end

/-! ## Creating directories -/

/-- Creating directories adds directories and nothing else. -/
theorem createDirs_keeps {done rest : Path} (hd : t.isDir done = true)
    (h : t.createDirs done rest = some t') : KeepsOutside (fun _ => False) (done ++ rest) t t' := by
  intro q _
  refine createDirs_induction (motive := fun t' => t'.lookup q = t.lookup q ∨
    (t.lookup q = none ∧ t'.lookup q = some .dir ∧ q <+: done ++ rest))
    (fun {t₁ r} hne hway _ hnone hold => ?_) hd h (Or.inl rfl)
  by_cases hq : q = r
  · subst hq
    rcases hold with hl | ⟨-, hdir, -⟩
    · exact Or.inr ⟨hl.symm.trans hnone, t₁.lookup_set_self .dir hne, hway⟩
    · cases hnone.symm.trans hdir
  · rw [t₁.lookup_set_of_ne .dir hq]
    exact hold

/-- Every directory on the way is there afterwards. -/
theorem createDirs_isDir :
    ∀ {rest : Path} {t t' : FileTree α} {done q : Path}, t.createDirs done rest = some t' →
      t.isDir done = true → q <+: rest → t'.isDir (done ++ q) = true
  | rest, t, t', done, [], h, hd, _ => by
    rw [append_nil]
    exact (createDirs_keeps hd h).isDir_of id hd
  | [], _, _, _, _ :: _, _, _, hq => absurd hq (by simp)
  | s :: rest, t, t', done, r :: q, h, hd, hq => by
    obtain ⟨rfl, hq'⟩ := cons_prefix_cons.mp hq
    have happ : done ++ r :: q = done ++ [r] ++ q := by simp
    unfold createDirs at h
    rw [happ]
    split at h
    · rename_i hdir
      exact createDirs_isDir h (isDir_iff.mpr hdir) hq'
    · cases h
    · exact createDirs_isDir h (isDir_iff.mpr (t.lookup_set_self .dir (by simp))) hq'

theorem createDirAll_isDir (h : t.createDirAll p = some t') (hq : q <+: p) : t'.isDir q = true :=
  createDirs_isDir h rfl hq

/-- Directories can be created where there is no file on the way. -/
theorem createDirs_isSome :
    ∀ {rest : Path} {t : FileTree α} {done : Path}, (∀ q, q <+: done ++ rest → t.read q = none) →
      ∃ t', t.createDirs done rest = some t'
  | [], t, _, _ => ⟨t, rfl⟩
  | s :: rest, t, done, hno => by
    rw [append_cons] at hno
    unfold createDirs
    split
    · exact createDirs_isSome hno
    · rename_i a ha
      have hread := hno (done ++ [s]) (prefix_append _ _)
      rw [read_eq_some.mpr ha] at hread
      cases hread
    · refine createDirs_isSome fun q hq => ?_
      by_cases hself : q = done ++ [s]
      · subst hself
        exact read_of_isDir (isDir_iff.mpr (t.lookup_set_self .dir (by simp)))
      · rw [read_eq_of_lookup (t.lookup_set_of_ne .dir hself)]
        exact hno q hq

/-- Files stay as they were. -/
theorem createDirAll_read (h : t.createDirAll p = some t') (q : Path) : t'.read q = t.read q :=
  (createDirs_keeps rfl h).read id

/-- Directories stay, and the only new ones are on the way to `p`. -/
theorem createDirAll_isDir_of (h : t.createDirAll p = some t') (hq : t.isDir q = true) :
    t'.isDir q = true :=
  (createDirs_keeps rfl h).isDir_of id hq

theorem createDirAll_isDir_of_not_prefix (h : t.createDirAll p = some t') (hq : ¬ q <+: p) :
    t'.isDir q = t.isDir q :=
  (createDirs_keeps rfl h).isDir id hq

/-! ## Writing files -/

section

variable (h : t.writeFile p a = some t')
include h

theorem writeFile_eq :
    t.isDir p.dropLast = true ∧ t.isDir p = false ∧ p ≠ [] ∧ t' = t.set p (.file a) := by
  unfold writeFile at h
  split at h
  · rename_i hd
    cases h
    refine ⟨hd.1, by simpa using hd.2, ?_, rfl⟩
    rintro rfl
    exact hd.2 rfl
  · cases h

theorem writeFile_read : t'.read p = some a := by
  obtain ⟨-, -, hne, rfl⟩ := writeFile_eq h
  exact read_eq_some.mpr (t.lookup_set_self _ hne)

theorem writeFile_read_of_ne (hq : q ≠ p) : t'.read q = t.read q := by
  obtain ⟨-, -, -, rfl⟩ := writeFile_eq h
  exact read_eq_of_lookup (t.lookup_set_of_ne _ hq)

theorem writeFile_isDir (q : Path) : t'.isDir q = t.isDir q := by
  obtain ⟨-, hd, hne, rfl⟩ := writeFile_eq h
  by_cases hq : q = p
  · subst hq
    rw [hd]
    unfold isDir
    rw [t.lookup_set_self _ hne]
  · exact isDir_eq_of_lookup (t.lookup_set_of_ne _ hq)

end

/-- A file can be written in a directory, unless a directory is in its place. -/
theorem writeFile_isSome (hd : t.isDir p = true)
    (hno : t.isDir (p ++ [name]) = false) : ∃ t', t.writeFile (p ++ [name]) a = some t' := by
  unfold writeFile
  rw [dropLast_concat, if_pos ⟨hd, by simp [hno]⟩]
  exact ⟨_, rfl⟩

theorem modifyFile_read (h : t.read p = some a) : (t.modifyFile p f).read p = some (f a) := by
  unfold modifyFile
  rw [h]
  refine read_eq_some.mpr (t.lookup_set_self _ ?_)
  rintro rfl
  cases h

theorem modifyFile_read_of_ne (hq : q ≠ p) : (t.modifyFile p f).read q = t.read q := by
  unfold modifyFile
  split
  · exact read_eq_of_lookup (t.lookup_set_of_ne _ hq)
  · rfl

theorem modifyFile_isDir (q : Path) : (t.modifyFile p f).isDir q = t.isDir q := by
  unfold modifyFile
  split
  · rename_i a ha
    by_cases hq : q = p
    · subst hq
      have hl := read_eq_some.mp ha
      have hne : q ≠ [] := by
        rintro rfl
        cases hl
      unfold isDir
      rw [t.lookup_set_self _ hne, hl]
    · exact isDir_eq_of_lookup (t.lookup_set_of_ne _ hq)
  · rfl

/-! ## Removing directories -/

section

variable (h : t.removeDirAll p = some t')
include h

theorem removeDirAll_lookup (hq : q ≠ []) : t'.lookup q = if p <+: q then none else t.lookup q := by
  unfold removeDirAll at h
  split at h
  · cases h
    rw [lookup_restrict _ _ hq]
    by_cases hp : p <+: q
    · simp [hp]
    · simp [hp]
  · cases h

theorem removeDirAll_isDir : t'.isDir p = false := by
  have hp : p ≠ [] := by
    rintro rfl
    simp [removeDirAll] at h
  unfold isDir
  rw [removeDirAll_lookup h hp, if_pos (prefix_refl p)]

theorem removeDirAll_read (hq : p <+: q) : t'.read q = none := by
  by_cases hne : q = []
  · subst hne
    rfl
  · unfold read
    rw [removeDirAll_lookup h hne, if_pos hq]

theorem removeDirAll_of_not_prefix (hq : ¬ p <+: q) : t'.read q = t.read q ∧ t'.isDir q = t.isDir q := by
  by_cases hne : q = []
  · subst hne
    exact ⟨rfl, rfl⟩
  · have hl := removeDirAll_lookup h hne
    rw [if_neg hq] at hl
    exact ⟨read_eq_of_lookup hl, isDir_eq_of_lookup hl⟩

/-! ## Moving files -/

end

section

variable (h : t.renameFile p r = some t')
include h

theorem renameFile_eq (ha : t.read p = some a) :
    t.isDir r = false ∧ r ≠ [] ∧ t' = (t.restrict fun q => q ≠ p).set r (.file a) := by
  unfold renameFile at h
  rw [ha] at h
  dsimp only at h
  split at h
  · rename_i hd
    refine ⟨by simpa using hd.2, ?_, (Option.some.inj h).symm⟩
    rintro rfl
    exact hd.2 rfl
  · cases h

omit h in
/-- A file can be moved into a directory, unless a directory is in its place. -/
theorem renameFile_isSome (ha : t.read q = some a) (hd : t.isDir p = true)
    (hno : t.isDir (p ++ [name]) = false) : ∃ t', t.renameFile q (p ++ [name]) = some t' := by
  unfold renameFile
  rw [ha, dropLast_concat]
  dsimp only
  rw [if_pos ⟨hd, by simp [hno]⟩]
  exact ⟨_, rfl⟩

theorem exists_read_of_renameFile : ∃ a, t.read p = some a := by
  cases ha : t.read p with
  | some a => exact ⟨a, rfl⟩
  | none =>
    unfold renameFile at h
    rw [ha] at h
    cases h

theorem renameFile_read (ha : t.read p = some a) : t'.read r = some a := by
  obtain ⟨-, hne, rfl⟩ := renameFile_eq h ha
  exact read_eq_some.mpr (lookup_set_self _ _ hne)

theorem renameFile_gone (hr : p ≠ r) : t'.read p = none := by
  obtain ⟨a, ha⟩ := exists_read_of_renameFile h
  obtain ⟨-, -, rfl⟩ := renameFile_eq h ha
  have hne : p ≠ [] := by
    rintro rfl
    cases ha
  unfold read
  rw [lookup_set_of_ne _ _ hr, lookup_restrict _ _ hne, if_neg]
  simp

theorem renameFile_lookup_of_ne (q : Path) (hp : q ≠ p)
    (hr : q ≠ r) : t'.lookup q = t.lookup q := by
  obtain ⟨a, ha⟩ := exists_read_of_renameFile h
  obtain ⟨-, -, rfl⟩ := renameFile_eq h ha
  rw [lookup_set_of_ne _ _ hr, lookup_restrict_ne _ hp]

theorem renameFile_read_of_ne (q : Path) (hp : q ≠ p) (hr : q ≠ r) : t'.read q = t.read q :=
  read_eq_of_lookup (renameFile_lookup_of_ne h q hp hr)

/-- Directories stay as they were. -/
theorem renameFile_isDir (q : Path) : t'.isDir q = t.isDir q := by
  obtain ⟨a, ha⟩ := exists_read_of_renameFile h
  obtain ⟨hd, hne, -⟩ := renameFile_eq h ha
  by_cases hr : q = r
  · subst hr
    rw [hd]
    unfold isDir
    rw [read_eq_some.mp (renameFile_read h ha)]
  · by_cases hp : q = p
    · subst hp
      unfold isDir
      rw [read_eq_some.mp ha]
      cases hl : t'.lookup q with
      | none => rfl
      | some e =>
        cases e with
        | file b => rfl
        | dir =>
          obtain ⟨-, -, rfl⟩ := renameFile_eq h ha
          have hqne : q ≠ [] := by
            rintro rfl
            cases ha
          rw [lookup_set_of_ne _ _ hr, lookup_restrict _ _ hqne, if_neg (by simp)] at hl
          cases hl
    · exact isDir_eq_of_lookup (renameFile_lookup_of_ne h q hp hr)

end

/-! ## Changed contents -/

/-- An entry with other contents, if it is a file. -/
def TreeEntry.mapContent (f : α → α) : TreeEntry α → TreeEntry α
  | .dir => .dir
  | .file a => .file (f a)

/-- The tree with the contents of its files changed in place. -/
def mapFiles (t : FileTree α) (f : Path → α → α) : FileTree α where
  entries := t.entries.map fun e => (e.1, TreeEntry.mapContent (f e.1) e.2)
  nodup := by
    rw [map_map]
    exact t.nodup

theorem lookup_mapFiles (t : FileTree α) (f : Path → α → α) (p : Path) :
    (t.mapFiles f).lookup p = (t.lookup p).map (TreeEntry.mapContent (f p)) := by
  unfold lookup mapFiles
  split_ifs with hp
  · rfl
  · dsimp only
    rw [find?_map, Option.map_map, Option.map_map]
    change (t.entries.find? fun e => decide (e.1 = p)).map _ = _
    cases hfind : t.entries.find? fun e => decide (e.1 = p) with
    | none => rfl
    | some e =>
      have he : e.1 = p := by simpa using find?_some hfind
      rw [← he]
      rfl

theorem read_mapFiles (t : FileTree α) (f : Path → α → α) (p : Path) :
    (t.mapFiles f).read p = (t.read p).map (f p) := by
  unfold read
  rw [lookup_mapFiles]
  rcases t.lookup p with _ | _ | _ <;> rfl

theorem isDir_mapFiles (t : FileTree α) (f : Path → α → α) (p : Path) :
    (t.mapFiles f).isDir p = t.isDir p := by
  unfold isDir
  rw [lookup_mapFiles]
  rcases t.lookup p with _ | _ | _ <;> rfl

/-! ## Listings that stay -/

/-- Entries outside `area` stay, and so do the listings of the directories with no entry of their own in
`area` or on the way to `dir`. -/
structure KeepsRest (area : Path → Prop) (dir : Path) (t t' : FileTree α) : Prop where
  outside : KeepsOutside area dir t t'
  children : ∀ q, (∀ name, ¬ area (q ++ [name]) ∧ ¬ q ++ [name] <+: dir) →
    t'.children q = t.children q

theorem KeepsRest.refl (t : FileTree α) : KeepsRest area dir t t := ⟨.refl t, fun _ _ => rfl⟩

theorem KeepsRest.trans (h : KeepsRest area dir t t') (h' : KeepsRest area dir t' t'') :
    KeepsRest area dir t t'' :=
  ⟨h.outside.trans h'.outside, fun q hq => (h'.children q hq).trans (h.children q hq)⟩

/-- A listing without the entries that go. -/
theorem children_restrict {keep : Path → Bool} (h : ∀ name, keep (q ++ [name]) = true) :
    (t.restrict keep).children q = t.children q := by
  unfold children restrict
  rw [filterMap_filter]
  refine filterMap_congr fun e _ => ?_
  by_cases hq : e.1.dropLast = q ∧ e.1 ≠ []
  · obtain ⟨rfl, hne⟩ := hq
    have hkeep := h (e.1.getLast hne)
    rw [dropLast_append_getLast] at hkeep
    rw [if_pos hkeep]
  · rw [if_neg hq, ite_self]

theorem children_set (e : TreeEntry α) (h : ∀ name, q ++ [name] ≠ p) :
    (t.set p e).children q = t.children q := by
  have hp : ¬ (p.dropLast = q ∧ p ≠ []) := by
    rintro ⟨hq, hne⟩
    refine h (p.getLast hne) ?_
    rw [← hq]
    exact dropLast_append_getLast hne
  have hrest : (t.restrict fun r => r ≠ p).children q = t.children q :=
    children_restrict fun name => by simpa using h name
  rw [← hrest]
  unfold children set
  rw [filterMap_cons_none]
  exact if_neg hp

theorem children_createDirAll (h : t.createDirAll p = some t') (hq : ∀ name, ¬ q ++ [name] <+: p) :
    t'.children q = t.children q := by
  refine createDirs_induction (motive := fun t' => t'.children q = t.children q)
    (fun _ hway _ _ hold => ?_) rfl h rfl
  rw [← hold]
  exact children_set .dir fun name he => hq name (he ▸ hway)

theorem keeps_createDirAll (h : t.createDirAll p = some t') (hp : ∀ q, q <+: p → area q ∨ q <+: dir) :
    KeepsRest area dir t t' := by
  refine ⟨fun q hq => ?_, fun q hq => children_createDirAll h fun name hway => ?_⟩
  · refine (createDirs_keeps rfl h q id).imp_right fun ⟨hnone, hdir, hway⟩ => ⟨hnone, hdir, ?_⟩
    exact (hp q hway).resolve_left hq
  · rcases hp _ hway with hin | hin
    · exact (hq name).1 hin
    · exact (hq name).2 hin

theorem keeps_set (hp : area p) (e : TreeEntry α) : KeepsRest area dir t (t.set p e) := by
  refine ⟨fun q hq => Or.inl (t.lookup_set_of_ne e ?_), fun q hq => children_set e fun name he => ?_⟩
  · rintro rfl
    exact hq hp
  · exact (hq name).1 (he ▸ hp)

theorem keeps_restrict {keep : Path → Bool} (h : ∀ q, ¬ area q → keep q = true) :
    KeepsRest area dir t (t.restrict keep) := by
  refine ⟨fun q hq => Or.inl ?_, fun q hq => children_restrict fun name => h _ (hq name).1⟩
  by_cases hne : q = []
  · subst hne
    rfl
  · rw [lookup_restrict _ _ hne, if_pos (h q hq)]

theorem keeps_writeFile (h : t.writeFile p a = some t') (hp : area p) : KeepsRest area dir t t' := by
  obtain ⟨-, -, -, rfl⟩ := writeFile_eq h
  exact keeps_set hp _

theorem keeps_modifyFile (f : α → α) (hp : area p) : KeepsRest area dir t (t.modifyFile p f) := by
  unfold modifyFile
  split
  · exact keeps_set hp _
  · exact .refl t

theorem keeps_removeDirAll (h : t.removeDirAll p = some t') (hp : ∀ q, p <+: q → area q) :
    KeepsRest area dir t t' := by
  unfold removeDirAll at h
  split_ifs at h
  cases h
  refine keeps_restrict fun q hq => ?_
  have hno : ¬ p <+: q := fun hpq => hq (hp q hpq)
  simpa using hno

theorem keeps_removeOne (hp : area p) : KeepsRest area dir t (t.restrict fun q => q ≠ p) := by
  refine keeps_restrict fun q hq => ?_
  have hno : q ≠ p := by
    rintro rfl
    exact hq hp
  simpa using hno

theorem keeps_removeFile (h : t.removeFile p = some t') (hp : area p) : KeepsRest area dir t t' := by
  unfold removeFile at h
  split_ifs at h
  cases h
  exact keeps_removeOne hp

theorem keeps_renameFile (h : t.renameFile p r = some t') (hp : area p) (hr : area r) :
    KeepsRest area dir t t' := by
  unfold renameFile at h
  split at h
  · split_ifs at h
    cases h
    exact (keeps_removeOne hp).trans (keeps_set hr _)
  · cases h

end FileTree

end Abixio.Lib
