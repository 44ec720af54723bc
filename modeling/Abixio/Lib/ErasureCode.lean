import Mathlib.Data.Finite.Prod
import Mathlib.Data.List.GetD

/-!
# Systematic erasure codes acting column by column

A code with `k` data and `m` parity symbols is given by two operations: the parity of a data
column, and the data column solved for from `k` symbols of its code word (`ErasureCode`). `Mds`
says what such a code is for: every `k` symbols of a code word determine the data.

A shard is a row of symbols, and the code acts on each column of equally long rows on its own.
`encodeRows` appends the parity rows to the data rows, `reconstructRows` fills in missing rows
from the first `k` present ones.

* `encodeRows_appendRows`: encoding commutes with appending rows, so encoding block by block and
  concatenating is encoding the concatenation.
* `reconstructRows_eq`: from at least `k` rows of an encoding, the missing ones come back exactly.
-/

namespace Abixio.Lib

open List

variable {α : Type} {a b : List (List α)} {r : List α} {data : List (List α)} {k m i j lb len : Nat}
  {s : List Nat}
  {slots : List (Option (List α))} {m len : Nat}

/-- The symbol-level operations of a systematic code. -/
structure ErasureCode (α : Type) where
  /-- The parity symbols of a data column. -/
  parity : List α → List α
  /-- The data column that has the given symbols at the given code word positions. -/
  solve : List (Nat × α) → List α

variable {c : ErasureCode α}

namespace ErasureCode

/-- The code word of a data column: the data followed by its parity. -/
def word (c : ErasureCode α) (x : List α) : List α := x ++ c.parity x

variable [Inhabited α]

/-- **Maximum distance separable**: any `k` of the `k + m` symbols of a code word give back its
data column. -/
structure Mds (c : ErasureCode α) (k m : Nat) : Prop where
  parity_length : ∀ x : List α, x.length = k → (c.parity x).length = m
  solve_word : ∀ x : List α, x.length = k → ∀ s : List Nat, s.Nodup → s.length = k →
    (∀ i ∈ s, i < k + m) → c.solve (s.map fun i => (i, (c.word x).getD i default)) = x

/-- **Nested codes**: the code words of `c`, which has `k` data symbols, are code words of `c'`, which
has `k'`. -/
def Nested (c c' : ErasureCode α) (k k' : Nat) : Prop :=
  ∀ x : List α, x.length = k → c'.word ((c.word x).take k') = c.word x

/-- **Any `k` symbols of a code word can be chosen.** There are as many choices as data columns, and
different data columns differ in them. -/
theorem Mds.exists_word [Finite α] (hc : c.Mds k m) (hnd : s.Nodup) (hlen : s.length = k) (hlt : ∀ i ∈ s, i < k + m)
    (v : Nat → α) : ∃ x : List α, x.length = k ∧ ∀ i ∈ s, (c.word x).getD i default = v i := by
  let symbols : (Fin k → α) → (Fin k → α) := fun x j =>
    (c.word (ofFn x)).getD (s.get (j.cast hlen.symm)) default
  have hinj : Function.Injective symbols := by
    intro x y hxy
    have hmap : (s.map fun i => (i, (c.word (ofFn x)).getD i default)) =
        s.map fun i => (i, (c.word (ofFn y)).getD i default) := by
      refine map_congr_left fun i hi => ?_
      obtain ⟨l, hl, rfl⟩ := mem_iff_getElem.mp hi
      exact congrArg (Prod.mk _) (congrFun hxy ⟨l, hlen ▸ hl⟩)
    have hx := hc.solve_word (ofFn x) (length_ofFn) s hnd hlen hlt
    rw [hmap, hc.solve_word (ofFn y) (length_ofFn) s hnd hlen hlt] at hx
    exact (ofFn_injective hx).symm
  obtain ⟨x, hx⟩ := Finite.surjective_of_injective hinj fun j =>
    v (s.get (j.cast hlen.symm))
  refine ⟨ofFn x, length_ofFn, fun i hi => ?_⟩
  obtain ⟨l, hl, rfl⟩ := mem_iff_getElem.mp hi
  exact congrFun hx ⟨l, hlen ▸ hl⟩

/-- At most `k` symbols can be chosen too, also those of a code without parity. -/
theorem exists_word_of_le [Finite α] (hc : 0 < m → c.Mds k m) (hnd : s.Nodup) (hlen : s.length ≤ k) (hlt : ∀ i ∈ s, i < k + m)
    (v : Nat → α) : ∃ x : List α, x.length = k ∧ ∀ i ∈ s, (c.word x).getD i default = v i := by
  by_cases hm : 0 < m
  · obtain ⟨t, hst, htk, hcard⟩ := Finset.exists_subsuperset_card_eq
      (show s.toFinset ⊆ Finset.range (k + m) from fun i hi =>
        Finset.mem_range.mpr (hlt i (mem_toFinset.mp hi)))
      (by rw [toFinset_card_of_nodup hnd]; exact hlen)
      (show k ≤ (Finset.range (k + m)).card by rw [Finset.card_range]; omega)
    obtain ⟨x, hx, hword⟩ := (hc hm).exists_word t.nodup_toList
      (by rw [Finset.length_toList, hcard])
      (fun i hi => Finset.mem_range.mp (htk (Finset.mem_toList.mp hi))) v
    exact ⟨x, hx, fun i hi =>
      hword i (Finset.mem_toList.mpr (hst (mem_toFinset.mpr hi)))⟩
  · refine ⟨(range k).map v, by simp, fun i hi => ?_⟩
    have hik : i < k := by
      have := hlt i hi
      omega
    unfold word
    rw [getD_append _ _ _ _ (by simpa using hik), getD_eq_getElem _ _ (by simpa using hik)]
    simp

/-- **Fewer than `k` symbols leave every other symbol open**: two code words agree in the ones and
differ in the other. -/
theorem exists_unseen [Finite α] [Nontrivial α]
    (hc : 0 < m → c.Mds k m) {seen : List Nat} {i₀ : Nat} (hnd : (i₀ :: seen).Nodup)
    (hlen : seen.length < k) (hlt : ∀ i ∈ i₀ :: seen, i < k + m) :
    ∃ x y : List α, x.length = k ∧ y.length = k ∧
      (∀ i ∈ seen, (c.word x).getD i default = (c.word y).getD i default) ∧
      (c.word x).getD i₀ default ≠ (c.word y).getD i₀ default := by
  obtain ⟨a, b, hab⟩ := exists_pair_ne α
  obtain ⟨x, hx, hxs⟩ := exists_word_of_le hc hnd hlen hlt fun _ => a
  obtain ⟨y, hy, hys⟩ := exists_word_of_le hc hnd hlen hlt fun i => if i = i₀ then b else a
  refine ⟨x, y, hx, hy, fun i hi => ?_, ?_⟩
  · have hne : i ≠ i₀ := by
      rintro rfl
      exact (nodup_cons.mp hnd).1 hi
    rw [hxs i (mem_cons_of_mem _ hi), hys i (mem_cons_of_mem _ hi), if_neg hne]
  · rw [hxs i₀ mem_cons_self, hys i₀ mem_cons_self, if_pos rfl]
    exact hab

end ErasureCode

/-! ## Rows and columns -/

section Rows

variable [Inhabited α]

/-- Column `j` of a list of rows. -/
def column (rows : List (List α)) (j : Nat) : List α :=
  rows.map fun r => r.getD j default

/-- The `m` parity rows of length `len` of the given data rows. -/
def parityRows (c : ErasureCode α) (m len : Nat) (data : List (List α)) : List (List α) :=
  (range m).map fun i => (range len).map fun j =>
    (c.parity (column data j)).getD i default

/-- Data rows followed by their parity rows. -/
def encodeRows (c : ErasureCode α) (m len : Nat) (data : List (List α)) : List (List α) :=
  data ++ parityRows c m len data

omit [Inhabited α] in
/-- Append two lists of rows row by row. -/
def appendRows (a b : List (List α)) : List (List α) := zipWith (· ++ ·) a b

@[simp] theorem column_length (rows : List (List α)) (j : Nat) :
    (column rows j).length = rows.length := by
  simp [column]

@[simp] theorem parityRows_length (c : ErasureCode α) (m len : Nat) (data : List (List α)) :
    (parityRows c m len data).length = m := by
  simp [parityRows]

@[simp] theorem encodeRows_length (c : ErasureCode α) (m len : Nat) (data : List (List α)) :
    (encodeRows c m len data).length = data.length + m := by
  simp [encodeRows]

theorem parityRows_row_length (h : r ∈ parityRows c m len data) : r.length = len := by
  obtain ⟨i, -, rfl⟩ := mem_map.mp h
  simp

theorem encodeRows_row_length (hd : ∀ r ∈ data, r.length = len) (h : r ∈ encodeRows c m len data) :
    r.length = len := by
  rcases mem_append.mp h with h | h
  · exact hd r h
  · exact parityRows_row_length h

omit [Inhabited α] in
@[simp] theorem appendRows_length (a b : List (List α)) :
    (appendRows a b).length = min a.length b.length := by
  simp [appendRows]

omit [Inhabited α] in
theorem appendRows_row_length {la : Nat} (ha : ∀ r ∈ a, r.length = la) (hb : ∀ r ∈ b, r.length = lb)
    (h : r ∈ appendRows a b) : r.length = la + lb := by
  obtain ⟨i, hi, rfl⟩ := mem_iff_getElem.mp h
  rw [appendRows_length] at hi
  have hia : i < a.length := by omega
  have hib : i < b.length := by omega
  simp only [appendRows, getElem_zipWith, length_append]
  rw [ha _ (getElem_mem hia), hb _ (getElem_mem hib)]

omit [Inhabited α] in
theorem appendRows_append {a a' b b' : List (List α)} (h : a.length = b.length) :
    appendRows (a ++ a') (b ++ b') = appendRows a b ++ appendRows a' b' := by
  exact zipWith_append h

omit [Inhabited α] in
/-- Rows in front of which nothing stands. -/
theorem appendRows_empty {rows : List (List α)} (h : rows.length = k) :
    appendRows (replicate k []) rows = rows := by
  subst h
  refine ext_getElem (by simp) fun i h1 h2 => ?_
  simp [appendRows]

omit [Inhabited α] in
theorem appendRows_assoc (a b c : List (List α)) :
    appendRows (appendRows a b) c = appendRows a (appendRows b c) := by
  refine ext_getElem (by simp [Nat.min_assoc]) fun i h1 h2 => ?_
  simp [appendRows]

/-- Symbol `(i, j)` of an encoding is symbol `i` of the code word of column `j`. -/
theorem encodeRows_symbol (c : ErasureCode α) (data : List (List α))
    (hi : i < data.length + m) (hj : j < len) :
    ((encodeRows c m len data).getD i []).getD j default =
      (c.word (column data j)).getD i default := by
  unfold encodeRows ErasureCode.word
  by_cases h : i < data.length
  · rw [getD_append _ _ _ _ h, getD_append _ _ _ _ (by simpa using h)]
    simp [column, getD_eq_getElem?_getD, getElem?_eq_getElem h]
  · have hle : data.length ≤ i := Nat.le_of_not_lt h
    rw [getD_append_right _ _ _ _ hle, getD_append_right _ _ _ _ (by simpa using hle)]
    have him : i - data.length < m := by omega
    simp [parityRows, getD_eq_getElem?_getD, him, hj]

variable {la : Nat} (hab : a.length = b.length) (ha : ∀ r ∈ a, r.length = la)

include hab ha in
/-- Columns of appended rows, left part. -/
theorem column_appendRows_left (hj : j < la) : column (appendRows a b) j = column a j := by
  apply ext_getElem
  · simp [hab]
  · intro i h1 h2
    have hia : i < a.length := by simpa using h2
    have hlen : a[i].length = la := ha _ (getElem_mem hia)
    simp only [column, appendRows, getElem_map, getElem_zipWith]
    rw [getD_append _ _ _ _ (by omega)]

include hab ha in
/-- Columns of appended rows, right part. -/
theorem column_appendRows_right (hj : la ≤ j) : column (appendRows a b) j = column b (j - la) := by
  apply ext_getElem
  · simp [hab]
  · intro i h1 h2
    have hib : i < b.length := by simpa using h2
    have hia : i < a.length := by omega
    have hlen : a[i].length = la := ha _ (getElem_mem hia)
    simp only [column, appendRows, getElem_map, getElem_zipWith]
    rw [getD_append_right _ _ _ _ (by omega), hlen]

include hab ha in
theorem parityRows_appendRows (c : ErasureCode α) : parityRows c m (la + lb) (appendRows a b) =
      appendRows (parityRows c m la a) (parityRows c m lb b) := by
  apply ext_getElem
  · simp
  · intro i h1 h2
    have him : i < m := by simpa using h1
    simp only [parityRows, appendRows, getElem_map, getElem_zipWith, getElem_range]
    rw [range_add, map_append, map_map]
    congr 1
    · apply map_congr_left
      intro j hj
      rw [← appendRows, column_appendRows_left hab ha (mem_range.mp hj)]
    · apply map_congr_left
      intro j _
      simp only [Function.comp]
      rw [← appendRows, column_appendRows_right hab ha (Nat.le_add_right la j),
        Nat.add_sub_cancel_left]

include hab ha in
/-- **Encoding commutes with appending rows.** -/
theorem encodeRows_appendRows (c : ErasureCode α) : encodeRows c m (la + lb) (appendRows a b) =
      appendRows (encodeRows c m la a) (encodeRows c m lb b) := by
  unfold encodeRows
  rw [appendRows_append hab, parityRows_appendRows hab ha c]

/-- **An encoding by a nested code is an encoding by the larger one.** -/
theorem encodeRows_nested {c c' : ErasureCode α} {k' m' : Nat}
    (hc : c.Nested c' k k') (hmds : c.Mds k m) (hk : data.length = k) (hle : k + m = k' + m')
    (hrows : ∀ r ∈ data, r.length = len) :
    encodeRows c' m' len ((encodeRows c m len data).take k') = encodeRows c m len data := by
  set rows := encodeRows c m len data with hdef
  have hlen : rows.length = k + m := by rw [hdef, encodeRows_length, hk]
  have hword : ∀ j, (c.word (column data j)).length = k + m := by
    intro j
    unfold ErasureCode.word
    rw [length_append, column_length, hk, hmds.parity_length _ (by rw [column_length, hk])]
  -- a column of the first rows is the start of a code word
  have hcol : ∀ j < len, column (rows.take k') j = (c.word (column data j)).take k' := by
    intro j hj
    refine ext_getElem (by simp [hlen, hword]) fun i h1 h2 => ?_
    have hi : i < k + m := by
      rw [length_take, hword] at h2
      omega
    simp only [column, getElem_map, getElem_take]
    rw [← getD_eq_getElem rows [] (by omega), hdef, encodeRows_symbol c data (by omega) hj,
      getD_eq_getElem _ _ (by rw [hword]; omega)]
    rfl
  conv_rhs => rw [← take_append_drop k' rows]
  unfold encodeRows
  congr 1
  refine ext_getElem (by simp [hlen]; omega) fun i h1 h2 => ?_
  have hi : k' + i < rows.length := by
    rw [length_drop] at h2
    omega
  have hrow : rows[k' + i].length = len :=
    encodeRows_row_length hrows
      (show rows[k' + i] ∈ encodeRows c m len data from getElem_mem hi)
  rw [getElem_drop]
  simp only [parityRows, getElem_map, getElem_range]
  refine ext_getElem (by simp [hrow]) fun j hj1 hj2 => ?_
  have hj : j < len := by simpa using hj1
  have hpar : c'.parity ((c.word (column data j)).take k') = (c.word (column data j)).drop k' := by
    have hnest := hc (column data j) (by rw [column_length, hk])
    nth_rewrite 1 [ErasureCode.word] at hnest
    conv_rhs at hnest => rw [← take_append_drop k' (c.word (column data j))]
    exact append_cancel_left hnest
  simp only [getElem_map, getElem_range]
  rw [hcol j hj, hpar, getD_eq_getElem _ _ (by rw [length_drop, hword]; omega),
    getElem_drop, ← getD_eq_getElem _ default (by rw [hword]; omega),
    ← encodeRows_symbol c data (show k' + i < data.length + m by omega) hj, ← hdef,
    getD_eq_getElem _ _ hi,
    getD_eq_getElem _ _ hj2]

/-! ## Reconstruction -/

omit [Inhabited α] in
/-- The present rows with their positions, in order. -/
def presentRows (slots : List (Option (List α))) : List (Nat × List α) :=
  slots.zipIdx.filterMap fun p => p.1.map fun r => (p.2, r)

/-- The data column `j` solved for from the given rows. -/
def solveColumn (c : ErasureCode α) (valid : List (Nat × List α)) (j : Nat) : List α :=
  c.solve (valid.map fun p => (p.1, p.2.getD j default))

/-- The data rows: present ones kept, missing ones solved for from the first `k` present rows. -/
def fillData (c : ErasureCode α) (k len : Nat) (slots : List (Option (List α))) :
    List (List α) :=
  (range k).map fun i =>
    match slots.getD i none with
    | some r => r
    | none => (range len).map fun j =>
        (solveColumn c ((presentRows slots).take k) j).getD i default

/-- Fill every missing row: the data rows first, then the parity rows from the filled data. -/
def reconstructRows (c : ErasureCode α) (k m len : Nat) (slots : List (Option (List α))) :
    List (List α) :=
  let data := fillData c k len slots
  data ++ (range m).map fun i =>
    match slots.getD (k + i) none with
    | some r => r
    | none => (parityRows c m len data).getD i []

@[simp] theorem reconstructRows_length (c : ErasureCode α) (k m len : Nat)
    (slots : List (Option (List α))) : (reconstructRows c k m len slots).length = k + m := by
  simp [reconstructRows, fillData]

/-- The filled data rows have the length of the present ones. -/
theorem reconstructRows_row_length (hr : r ∈ (reconstructRows c k m len slots).take k)
    (hpresent : ∀ r, some r ∈ slots → r.length = len) : r.length = len := by
  have hdata : (reconstructRows c k m len slots).take k = fillData c k len slots :=
    take_left' (by simp [fillData])
  rw [hdata] at hr
  obtain ⟨i, -, rfl⟩ := mem_map.mp hr
  cases hslot : slots.getD i none with
  | none => simp
  | some r' =>
    refine hpresent r' ?_
    rw [getD_eq_getElem?_getD] at hslot
    cases hget : slots[i]? with
    | none => simp [hget] at hslot
    | some r'' =>
      rw [hget] at hslot
      exact hslot ▸ mem_of_getElem? hget

omit [Inhabited α] in
theorem mem_presentRows : (i, r) ∈ presentRows slots ↔ slots[i]? = some (some r) := by
  unfold presentRows
  simp only [mem_filterMap, Option.map_eq_some_iff, Prod.mk.injEq, Prod.exists]
  constructor
  · rintro ⟨s, i', hmem, r', rfl, rfl, rfl⟩
    simpa using mk_mem_zipIdx_iff_getElem?.mp hmem
  · intro h
    exact ⟨some r, i, mk_mem_zipIdx_iff_getElem?.mpr h, r, rfl, rfl, rfl⟩

omit [Inhabited α] in
theorem presentRows_map_range (f : Nat → Option (List α)) (n : Nat) :
    presentRows ((range n).map f) =
      (range n).filterMap fun i => (f i).map fun r => (i, r) := by
  unfold presentRows
  induction n with
  | zero => rfl
  | succ n ih =>
    rw [range_succ, map_append, zipIdx_append, filterMap_append, ih, filterMap_append]
    simp [filterMap_cons]

omit [Inhabited α] in
theorem presentRows_fst_sublist (slots : List (Option (List α))) :
    ((presentRows slots).map Prod.fst).Sublist (range slots.length) := by
  have h : (presentRows slots).map Prod.fst =
      (slots.zipIdx.filter fun p => p.1.isSome).map Prod.snd := by
    unfold presentRows
    induction slots.zipIdx with
    | nil => rfl
    | cons p l ih =>
      obtain ⟨s, i⟩ := p
      cases s with
      | none => simpa using ih
      | some r => simpa using ih
  rw [h]
  have := (filter_sublist (l := slots.zipIdx) (p := fun p => p.1.isSome)).map Prod.snd
  rwa [zipIdx_map_snd, range'_eq_map_range, show (fun x => 0 + x) = (id : Nat → Nat) from
    funext fun x => Nat.zero_add x, map_id] at this

omit [Inhabited α] in
theorem presentRows_fst_nodup (slots : List (Option (List α))) :
    ((presentRows slots).map Prod.fst).Nodup :=
  (presentRows_fst_sublist slots).nodup nodup_range

omit [Inhabited α] in
theorem presentRows_length (slots : List (Option (List α))) :
    (presentRows slots).length = (slots.filter Option.isSome).length := by
  rw [← countP_eq_length_filter]
  have : ∀ (l : List (Option (List α))) (n : Nat),
      (filterMap (fun p : Option (List α) × Nat => p.1.map fun r => (p.2, r))
        (l.zipIdx n)).length = l.countP Option.isSome := by
    intro l
    induction l with
    | nil => intro n; rfl
    | cons s l ih =>
      intro n
      cases s with
      | none => simpa [zipIdx_cons] using ih (n + 1)
      | some r => simpa [zipIdx_cons] using ih (n + 1)
  exact this slots 0

variable {slots : List (Option (List α))}

section Reconstruct

variable (hc : c.Mds k m) (hk : data.length = k) (hslots : slots.length = k + m)
  (hcons : ∀ i r, slots[i]? = some (some r) → r = (encodeRows c m len data).getD i [])
  (hcount : k ≤ (presentRows slots).length)
include hc hk hslots hcons hcount

/-- The first `k` present rows of an encoding give back every data column. -/
theorem solveColumn_eq (hj : j < len) :
    solveColumn c ((presentRows slots).take k) j = column data j := by
  set valid := (presentRows slots).take k with hvalid
  have hlt : ∀ p ∈ valid, p.1 < k + m ∧ p.2 = (encodeRows c m len data).getD p.1 [] := by
    intro p hp
    have hmem := mem_presentRows.mp (mem_of_mem_take hp)
    refine ⟨?_, hcons _ _ hmem⟩
    rw [← hslots]
    exact (List.getElem?_eq_some_iff.mp hmem).1
  have hrw : (valid.map fun p => (p.1, p.2.getD j default)) =
      (valid.map Prod.fst).map fun i => (i, (c.word (column data j)).getD i default) := by
    rw [map_map]
    apply map_congr_left
    intro p hp
    obtain ⟨hpl, hpr⟩ := hlt p hp
    simp only [Function.comp, Prod.mk.injEq, true_and]
    rw [hpr, encodeRows_symbol c data (by omega) hj]
  unfold solveColumn
  rw [hrw]
  apply hc.solve_word
  · simp [hk]
  · rw [hvalid, map_take]
    exact (presentRows_fst_nodup slots).sublist (take_sublist _ _)
  · rw [length_map, hvalid, length_take, Nat.min_eq_left hcount]
  · intro i hi
    obtain ⟨p, hp, rfl⟩ := mem_map.mp hi
    exact (hlt p hp).1

/-- The filled data rows are the data rows. -/
theorem fillData_eq (hlen : ∀ r ∈ data, r.length = len) : fillData c k len slots = data := by
  apply ext_getElem
  · simp [fillData, hk]
  · intro i h1 h2
    have hrow : (encodeRows c m len data).getD i [] = data[i] := by
      unfold encodeRows
      rw [getD_append _ _ _ _ h2, getD_eq_getElem _ _ h2]
    simp only [fillData, getElem_map, getElem_range]
    have hi : i < slots.length := by omega
    rw [getD_eq_getElem _ _ hi]
    split
    · rename_i r hr
      rw [← hrow]
      exact hcons i r (by rw [getElem?_eq_getElem hi, hr])
    · apply ext_getElem
      · simp [hlen _ (getElem_mem h2)]
      · intro j hj1 hj2
        have hj : j < len := by simpa using hj1
        simp only [getElem_map, getElem_range]
        rw [solveColumn_eq hc hk hslots hcons hcount hj]
        simp [column, getD_eq_getElem?_getD, getElem?_eq_getElem h2, getElem?_eq_getElem hj2]

/-- **Reconstruction is exact**: with at least `k` rows of an encoding present, every missing row
comes back. -/
theorem reconstructRows_eq (hlen : ∀ r ∈ data, r.length = len) :
    reconstructRows c k m len slots = encodeRows c m len data := by
  unfold reconstructRows
  simp only [fillData_eq hc hk hslots hcons hcount hlen]
  congr 1
  apply ext_getElem
  · simp
  · intro i h1 h2
    have him : i < m := by simpa using h2
    have hi : k + i < slots.length := by omega
    simp only [getElem_map, getElem_range]
    rw [getD_eq_getElem _ _ hi]
    have hrow : (encodeRows c m len data).getD (k + i) [] = (parityRows c m len data)[i] := by
      unfold encodeRows
      rw [getD_append_right _ _ _ _ (by omega), hk, Nat.add_sub_cancel_left, getD_eq_getElem _ _ h2]
    split
    · rename_i r hr
      rw [← hrow]
      exact hcons (k + i) r (by rw [getElem?_eq_getElem hi, hr])
    · exact getD_eq_getElem _ _ h2

end Reconstruct

omit [Inhabited α] in
/-- A present data row is one of the first `k` present rows. -/
theorem mem_take_presentRows (hi : i < k)
    (h : slots[i]? = some (some r)) : (i, r) ∈ (presentRows slots).take k := by
  have hsorted : ((presentRows slots).map Prod.fst).Pairwise (· < ·) :=
    pairwise_lt_range.sublist (presentRows_fst_sublist slots)
  -- positions grow at least as fast as they are counted
  have hgrow : ∀ l (hl : l < ((presentRows slots).map Prod.fst).length),
      l ≤ ((presentRows slots).map Prod.fst)[l] := by
    intro l
    induction l with
    | zero => exact fun _ => Nat.zero_le _
    | succ l ih =>
      intro hl
      exact Nat.lt_of_le_of_lt (ih (Nat.lt_of_succ_lt hl))
        (pairwise_iff_getElem.mp hsorted l (l + 1) _ hl (Nat.lt_succ_self l))
  obtain ⟨l, hl, hget⟩ := mem_iff_getElem.mp (mem_presentRows.mpr h)
  have hle := hgrow l (by simpa using hl)
  rw [getElem_map, hget] at hle
  exact mem_take_iff_getElem.mpr ⟨l, by simp at hle ⊢; omega, hget⟩

/-- **Reconstruction reads only the first `k` present rows**: slots that have these in common get the
same row at a position that both miss. -/
theorem reconstructRows_congr {slots' : List (Option (List α))}
    (hpres : (presentRows slots).take k = (presentRows slots').take k)
    (hnone : slots.getD i none = none) (hnone' : slots'.getD i none = none) :
    (reconstructRows c k m len slots).getD i [] = (reconstructRows c k m len slots').getD i [] := by
  have hdata : ∀ i < k, slots.getD i none = slots'.getD i none := by
    intro i hi
    have hsome : ∀ {a b : List (Option (List α))}, (presentRows a).take k = (presentRows b).take k →
        ∀ r, a.getD i none = some r → b.getD i none = some r := by
      intro a b hab r hr
      have ha : a[i]? = some (some r) := by
        rw [getD_eq_getElem?_getD] at hr
        cases hget : a[i]? with
        | none => simp [hget] at hr
        | some x =>
          rw [hget] at hr
          exact congrArg some hr
      have hmem := mem_take_presentRows hi ha
      rw [hab] at hmem
      rw [getD_eq_getElem?_getD, mem_presentRows.mp (mem_of_mem_take hmem)]
      rfl
    cases h : slots.getD i none with
    | some r => exact (hsome hpres r h).symm
    | none =>
      cases h' : slots'.getD i none with
      | none => rfl
      | some r =>
        rw [hsome hpres.symm r h'] at h
        cases h
  have hfill : fillData c k len slots = fillData c k len slots' := by
    refine map_congr_left fun i hi => ?_
    rw [hdata i (mem_range.mp hi), hpres]
  unfold reconstructRows
  simp only [hfill]
  by_cases hi : i < k
  · rw [getD_append _ _ _ _ (by simpa [fillData] using hi),
      getD_append _ _ _ _ (by simpa [fillData] using hi)]
  · have hk : (fillData c k len slots').length = k := by simp [fillData]
    rw [getD_append_right _ _ _ _ (by omega), getD_append_right _ _ _ _ (by omega), hk]
    by_cases him : i - k < m
    · have hki : k + (i - k) = i := by omega
      simp only [getD_eq_getElem?_getD, getElem?_map, getElem?_range him,
        Option.map_some, Option.getD_some, hki]
      rw [getD_eq_getElem?_getD] at hnone hnone'
      rw [hnone, hnone']
    · rw [getD_eq_default _ _ (by simpa using him), getD_eq_default _ _ (by simpa using him)]

end Rows

/-! ## Replication -/

/-- The code with one data symbol, repeated `m` times. -/
def replication (α : Type) [Inhabited α] (m : Nat) : ErasureCode α where
  parity x := replicate m (x.headD default)
  solve known := (known.map Prod.snd).take 1

theorem replication_mds [Inhabited α] (m : Nat) : (replication α m).Mds 1 m := by
  refine ⟨fun x _ => by simp [replication], ?_⟩
  intro x hx s _ hs hlt
  obtain ⟨a, rfl⟩ := length_eq_one_iff.mp hx
  obtain ⟨i, rfl⟩ := length_eq_one_iff.mp hs
  have hword : (replication α m).word [a] = replicate (1 + m) a := by
    rw [Nat.add_comm, replicate_succ]
    rfl
  have hi : i < 1 + m := hlt i (by simp)
  rw [hword]
  show take 1 [(replicate (1 + m) a).getD i default] = [a]
  rw [getD_replicate _ hi]
  rfl

end Abixio.Lib
