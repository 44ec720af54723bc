import Abixio.Storage.LocalVolume

/-!
# Which keys a volume lists

`walk_keys` (`src/storage/local_volume.rs`, `list_objects`) visits the directories below a bucket,
reports those that contain a `meta.json` and does not look below them. `Listed` says so about one
path of directory names, and `mem_walkKeys` that the walk finds exactly the listed paths. With file
names that contain no slash, a key is listed when the directories named by its segments are
(`mem_listObjects`).
-/

namespace Abixio

open Lib List FileTree
open LocalVolume (listObjects walkKeys)

/-- A directory the walk skips. -/
def isDotName (name : String) : Bool := name.toList.head? = some '.'

/-- There is something named `meta.json` in a directory. -/
def hasMeta (fs : FileTree FileData) (dir : Path) : Bool :=
  (fs.lookup (dir ++ ["meta.json"])).isSome

/-- The walk from `dir` reports the path `names`: directories all the way, of which the last one is
the first with a `meta.json`. -/
structure Listed (fs : FileTree FileData) (dir : Path) (names : List String) : Prop where
  ne_nil : names ≠ []
  visible : ∀ name ∈ names, isDotName name = false
  isDir : ∀ q, q <+: names → q ≠ [] → fs.isDir (dir ++ q) = true
  first : ∀ q, q <+: names → q ≠ [] → (hasMeta fs (dir ++ q) = true ↔ q = names)

variable {names : List String}

section Walk

variable {fs : FileTree FileData} {dir : Path} {name : String} {rest : List String}

/-- The walk into one directory. -/
theorem listed_cons :
    Listed fs dir (name :: rest) ↔ fs.isDir (dir ++ [name]) = true ∧ isDotName name = false ∧
      ((hasMeta fs (dir ++ [name]) = true ∧ rest = []) ∨
        (hasMeta fs (dir ++ [name]) = false ∧ Listed fs (dir ++ [name]) rest)) := by
  have hone : [name] <+: name :: rest := cons_prefix_cons.mpr ⟨rfl, nil_prefix⟩
  have hstep : ∀ q, dir ++ name :: q = dir ++ [name] ++ q := by simp
  constructor
  · intro h
    refine ⟨h.isDir _ hone (by simp), h.visible _ mem_cons_self, ?_⟩
    by_cases hrest : rest = []
    · subst hrest
      exact Or.inl ⟨(h.first _ hone (by simp)).mpr rfl, rfl⟩
    · have hno : hasMeta fs (dir ++ [name]) = false := by
        rw [← Bool.not_eq_true, h.first _ hone (by simp)]
        simpa using hrest
      refine Or.inr ⟨hno, hrest, fun x hx => h.visible x (mem_cons_of_mem _ hx), ?_, ?_⟩
      · intro q hq _
        rw [← hstep]
        exact h.isDir _ (cons_prefix_cons.mpr ⟨rfl, hq⟩) (by simp)
      · intro q hq _
        rw [← hstep, h.first _ (cons_prefix_cons.mpr ⟨rfl, hq⟩) (by simp)]
        simp
  · rintro ⟨hdir, hvis, hcase⟩
    refine ⟨by simp, ?_, ?_, ?_⟩
    · intro x hx
      rcases mem_cons.mp hx with rfl | hx
      · exact hvis
      · rcases hcase with ⟨-, rfl⟩ | ⟨-, h⟩
        · exact absurd hx (by simp)
        · exact h.visible x hx
    · intro q hq hne
      obtain ⟨r, q', rfl⟩ := exists_cons_of_ne_nil hne
      obtain ⟨rfl, hq'⟩ := cons_prefix_cons.mp hq
      by_cases hq0 : q' = []
      · subst hq0
        exact hdir
      · rcases hcase with ⟨-, rfl⟩ | ⟨-, h⟩
        · exact absurd (prefix_nil.mp hq') hq0
        · rw [hstep]
          exact h.isDir q' hq' hq0
    · intro q hq hne
      obtain ⟨r, q', rfl⟩ := exists_cons_of_ne_nil hne
      obtain ⟨rfl, hq'⟩ := cons_prefix_cons.mp hq
      rcases hcase with ⟨hmeta, rfl⟩ | ⟨hno, h⟩
      · rw [prefix_nil.mp hq']
        simpa using hmeta
      · by_cases hq0 : q' = []
        · subst hq0
          have hne' : ([] : List String) ≠ rest := fun e => h.ne_nil e.symm
          simp [hno, hne']
        · rw [hstep, h.first q' hq' hq0]
          simp

/-- **The walk reports the listed paths** no longer than its fuel. -/
theorem mem_walkKeys {keyPrefix key : String} :
    ∀ {fuel : Nat} {dir : Path} {rel : List String}, key ∈ walkKeys fs keyPrefix fuel dir rel ↔
        ∃ names, names.length ≤ fuel ∧ Listed fs dir names ∧
          key = "/".intercalate (rel ++ names) ∧ keyPrefix.toList <+: key.toList
  | 0, dir, rel => by
    simp only [walkKeys, not_mem_nil, false_iff]
    rintro ⟨names, hlen, hlisted, -⟩
    exact hlisted.ne_nil (eq_nil_of_length_eq_zero (Nat.le_zero.mp hlen))
  | fuel + 1, dir, rel => by
    have ih : ∀ {name : String}, key ∈ walkKeys fs keyPrefix fuel (dir ++ [name])
        (rel ++ [name]) ↔ _ := fun {name} => mem_walkKeys
    unfold walkKeys
    rw [mem_flatMap]
    constructor
    · rintro ⟨⟨name, e⟩, hchild, hmem⟩
      rw [mem_children] at hchild
      cases e with
      | file a => exact absurd hmem (by simp)
      | dir =>
        simp only at hmem
        split_ifs at hmem with hdot hmeta hpre
        · exact absurd hmem (by simp)
        · rw [mem_singleton] at hmem
          refine ⟨[name], by simp, ?_, hmem, ?_⟩
          · exact listed_cons.mpr ⟨isDir_iff.mpr hchild, by simpa [isDotName] using hdot,
              Or.inl ⟨hmeta, rfl⟩⟩
          · rw [hmem]
            exact isPrefixOf_iff_prefix.mp hpre
        · exact absurd hmem (by simp)
        · obtain ⟨names, hlen, hlisted, hkey, hpre⟩ := ih.mp hmem
          refine ⟨name :: names, by simpa using hlen, ?_, by simpa using hkey, hpre⟩
          exact listed_cons.mpr ⟨isDir_iff.mpr hchild, by simpa [isDotName] using hdot,
            Or.inr ⟨by simpa [hasMeta] using hmeta, hlisted⟩⟩
    · rintro ⟨names, hlen, hlisted, hkey, hpre⟩
      obtain ⟨name, rest, rfl⟩ := exists_cons_of_ne_nil hlisted.ne_nil
      obtain ⟨hdir, hvis, hcase⟩ := listed_cons.mp hlisted
      refine ⟨(name, .dir), mem_children.mpr (isDir_iff.mp hdir), ?_⟩
      have hdot : ¬ name.toList.head? = some '.' := by simpa [isDotName] using hvis
      simp only [if_neg hdot]
      rcases hcase with ⟨hmeta, rfl⟩ | ⟨hno, hrest⟩
      · have hmeta' : (fs.lookup (dir ++ [name] ++ ["meta.json"])).isSome = true := hmeta
        rw [if_pos hmeta', ← hkey, if_pos (List.isPrefixOf_iff_prefix.mpr hpre)]
        exact mem_singleton_self _
      · have hno' : ¬ (fs.lookup (dir ++ [name] ++ ["meta.json"])).isSome = true := by
          simpa [hasMeta] using hno
        rw [if_neg hno']
        exact ih.mpr ⟨rest, by simpa using hlen, hrest, by simpa using hkey, hpre⟩

/-- There is fuel enough: the directories on a path are entries of the tree. -/
theorem Listed.length_le (h : Listed fs dir names) : names.length ≤ fs.entries.length := by
  have hsub : (range names.length).map (fun i => dir ++ names.take (i + 1)) ⊆
      fs.entries.map Prod.fst := by
    intro p hp
    obtain ⟨i, hi, rfl⟩ := mem_map.mp hp
    have hne : names.take (i + 1) ≠ [] := by
      rw [Ne, take_eq_nil_iff]
      rintro (h0 | h0)
      · omega
      · exact h.ne_nil h0
    have hdir := h.isDir _ (List.take_prefix (i + 1) names) hne
    exact mem_map_of_mem (mem_entries_of_lookup (by simpa using fun _ => hne)
      (isDir_iff.mp hdir))
  have hnodup : ((range names.length).map fun i => dir ++ names.take (i + 1)).Nodup := by
    refine List.Nodup.map_on (fun i hi j hj he => ?_) nodup_range
    rw [mem_range] at hi hj
    have hlen := congrArg length (append_cancel_left he)
    rw [length_take, length_take] at hlen
    omega
  have hle := (subperm_of_subset hnodup hsub).length_le
  simpa using hle

end Walk

/-! ## Keys -/

/-- File names contain no slash, and every entry is in a directory. -/
abbrev LocalVolume.Sane (v : LocalVolume) : Prop := v.fs.WellFormed fun name => '/' ∉ name.toList

/-- The segments of a key joined from names without slashes. -/
theorem keySegments_intercalate (hne : names ≠ [])
    (h : ∀ name ∈ names, '/' ∉ name.toList) : keySegments ("/".intercalate names) = names := by
  have hsplit : (intercalate "/".toList (names.map String.toList)).splitOn '/' =
      names.map String.toList := by
    refine splitOn_intercalate '/' ?_ (by simpa using hne)
    intro l hl
    obtain ⟨name, hname, rfl⟩ := mem_map.mp hl
    exact h name hname
  unfold keySegments
  rw [String.toList_intercalate, hsplit, map_map]
  simp [Function.comp_def]

theorem intercalate_keySegments (key : String) : "/".intercalate (keySegments key) = key := by
  have hjoin : (intercalate "/".toList (key.toList.splitOn '/')) = key.toList :=
    intercalate_splitOn '/'
  have hmap : (keySegments key).map String.toList = key.toList.splitOn '/' := by
    simp [keySegments, Function.comp_def]
  rw [← String.toList_inj, String.toList_intercalate, hmap, hjoin]

variable {v : LocalVolume} {bucket keyPrefix key : String}

/-- The names on a listed path contain no slash. -/
theorem Listed.slash_free (hv : v.Sane) {dir : Path}
    (h : Listed v.fs dir names) : ∀ name ∈ names, '/' ∉ name.toList := by
  intro name hname
  have hdir := isDir_iff.mp (h.isDir names (prefix_refl _) h.ne_nil)
  have hmem := mem_entries_of_lookup (by simpa using fun _ => h.ne_nil) hdir
  exact hv.names _ hmem name (mem_append_right _ hname)

/-- What a volume lists, by the names of the directories. -/
theorem mem_listObjects_names {keys : List String} (h : listObjects bucket keyPrefix v = .ok keys) :
    key ∈ keys ↔ v.fs.isDir [bucket] = true ∧
      ∃ names, Listed v.fs [bucket] names ∧ key = "/".intercalate names ∧
        keyPrefix.toList <+: key.toList := by
  obtain ⟨dir, hdir, h⟩ := except_bind_eq_ok.mp h
  obtain ⟨⟨⟩, hname, -⟩ := except_bind_eq_ok.mp hdir
  cases (bucketDir_ok hname).symm.trans hdir
  split_ifs at h with hb
  · obtain ⟨_, -, ⟨⟩⟩ := except_bind_eq_ok.mp h
    rw [mem_insertionSort, mem_walkKeys]
    constructor
    · rintro ⟨names, -, hlisted, hkey, hp⟩
      exact ⟨hb, names, hlisted, hkey, hp⟩
    · rintro ⟨-, names, hlisted, hkey, hp⟩
      exact ⟨names, hlisted.length_le, hlisted, hkey, hp⟩
  · cases h
    simp [hb]

/-- **A key is listed when the directories of its segments are.** -/
theorem mem_listObjects {keys : List String}
    (hv : v.Sane) (h : listObjects bucket keyPrefix v = .ok keys) :
    key ∈ keys ↔ v.fs.isDir [bucket] = true ∧ Listed v.fs [bucket] (keySegments key) ∧
      keyPrefix.toList <+: key.toList := by
  rw [mem_listObjects_names h]
  refine and_congr_right fun _ => ⟨?_, ?_⟩
  · rintro ⟨names, hlisted, hkey, hp⟩
    have hsegs : keySegments key = names := by
      rw [hkey]
      exact keySegments_intercalate hlisted.ne_nil (hlisted.slash_free hv)
    exact ⟨hsegs ▸ hlisted, hp⟩
  · rintro ⟨hlisted, hp⟩
    exact ⟨keySegments key, hlisted, (intercalate_keySegments key).symm, hp⟩

end Abixio
