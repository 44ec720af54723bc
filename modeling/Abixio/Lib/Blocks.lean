import Mathlib.Data.List.Basic
import Mathlib.Data.List.TakeDrop
import Mathlib.Tactic.Ring

/-!
# Cutting a stream into blocks and a block into padded pieces

`cut b l` takes full blocks of length `b` off the front of `l` and returns them with the rest;
`blocks b l` also counts a nonempty rest as a last, shorter block. `cut_append` is what makes
a buffered cutter independent of how its input was split into chunks: cutting after every chunk
gives the blocks of the whole input (`foldl_cut`).

`pieces k s l` are the first `k` slices of length `s`, each padded to `s`. Joined and trimmed they
give `l` back (`pieces_flatten_take`).
-/

namespace Abixio.Lib

open List

variable {α : Type}

/-! ## Full blocks -/

/-- `cut` with an explicit bound on the number of blocks taken. -/
def cutAux (b : Nat) : Nat → List α → List (List α) × List α
  | 0, l => ([], l)
  | fuel + 1, l =>
    if b ≤ l.length then
      let r := cutAux b fuel (l.drop b)
      (l.take b :: r.1, r.2)
    else ([], l)

/-- The full blocks of length `b` at the front of `l`, and what is left. -/
def cut (b : Nat) (l : List α) : List (List α) × List α := cutAux b l.length l

/-- The blocks of `l`: all of length `b` except a shorter, nonempty last one. -/
def blocks (b : Nat) (l : List α) : List (List α) :=
  let r := cut b l
  if r.2.isEmpty then r.1 else r.1 ++ [r.2]

variable {b : Nat} {l : List α}

/-- Any bound at least the length gives the same result. -/
theorem cutAux_eq_cut (hb : 0 < b) :
    ∀ (fuel : Nat) (l : List α), l.length ≤ fuel → cutAux b fuel l = cut b l := by
  have key : ∀ (f g : Nat) (l : List α), l.length ≤ f → l.length ≤ g →
      cutAux b f l = cutAux b g l := by
    intro f
    induction f with
    | zero =>
      intro g l hf hg
      have hl : l = [] := length_eq_zero_iff.mp (by omega)
      subst hl
      cases g with
      | zero => rfl
      | succ g => simp [cutAux, Nat.not_le.mpr hb]
    | succ f ih =>
      intro g l hf hg
      cases g with
      | zero =>
        have hl : l = [] := length_eq_zero_iff.mp (by omega)
        subst hl
        simp [cutAux, Nat.not_le.mpr hb]
      | succ g =>
        unfold cutAux
        by_cases h : b ≤ l.length
        · rw [if_pos h, if_pos h]
          rw [ih g (l.drop b) (by simp; omega) (by simp; omega)]
        · rw [if_neg h, if_neg h]
  intro fuel l h
  exact key fuel l.length l h (le_refl _)

theorem cut_of_lt (h : l.length < b) : cut b l = ([], l) := by
  unfold cut
  cases hl : l.length with
  | zero => rfl
  | succ n =>
    unfold cutAux
    rw [if_neg (by omega)]

theorem cut_of_le (hb : 0 < b) (h : b ≤ l.length) :
    cut b l = (l.take b :: (cut b (l.drop b)).1, (cut b (l.drop b)).2) := by
  unfold cut
  cases hl : l.length with
  | zero => omega
  | succ n =>
    conv_lhs => unfold cutAux
    rw [if_pos (by omega), cutAux_eq_cut hb n (l.drop b) (by simp; omega)]
    rfl

/-- Induction along `cut`: peel one full block at a time. -/
theorem cut_induction (hb : 0 < b) {P : List α → Prop} (short : ∀ l, l.length < b → P l)
    (long : ∀ l, b ≤ l.length → P (l.drop b) → P l)
    (l : List α) : P l := by
  induction h : l.length using Nat.strong_induction_on generalizing l with
  | _ n ih =>
    by_cases hl : l.length < b
    · exact short l hl
    · have hle : b ≤ l.length := Nat.le_of_not_lt hl
      exact long l hle (ih (l.drop b).length (by simp; omega) (l.drop b) rfl)

theorem cut_flatten (hb : 0 < b) (l : List α) : (cut b l).1.flatten ++ (cut b l).2 = l := by
  induction l using cut_induction hb with
  | short l h => rw [cut_of_lt h]; rfl
  | long l h ih =>
    rw [cut_of_le hb h]
    simp only [flatten_cons, append_assoc, ih, take_append_drop]

/-- **Cutting is incremental**: cut `l`, then cut the rest with `m` appended. -/
theorem cut_append (hb : 0 < b) (l m : List α) : cut b (l ++ m) =
      ((cut b l).1 ++ (cut b ((cut b l).2 ++ m)).1, (cut b ((cut b l).2 ++ m)).2) := by
  induction l using cut_induction hb with
  | short l h => rw [cut_of_lt h]; rfl
  | long l h ih =>
    have hle : b ≤ (l ++ m).length := by simp; omega
    rw [cut_of_le hb hle, cut_of_le hb h, take_append_of_le_length h,
      drop_append_of_le_length h, ih]
    simp only [cons_append]

/-! ## All blocks -/

theorem blocks_nil (hb : 0 < b) : blocks b ([] : List α) = [] := by
  unfold blocks
  rw [cut_of_lt (by simpa using hb)]
  rfl

theorem blocks_of_le_length (hb : 0 < b) (h0 : l ≠ []) (h : l.length ≤ b) : blocks b l = [l] := by
  unfold blocks
  rcases Nat.lt_or_ge l.length b with h' | h'
  · rw [cut_of_lt h']
    simp [h0]
  · have hd : l.drop b = [] := drop_eq_nil_of_le h
    rw [cut_of_le hb h', hd, cut_of_lt (by simpa using hb), take_of_length_le h]
    rfl

theorem blocks_of_lt_length (hb : 0 < b) (h : b < l.length) :
    blocks b l = l.take b :: blocks b (l.drop b) := by
  unfold blocks
  rw [cut_of_le hb (Nat.le_of_lt h)]
  simp only
  split <;> simp

/-- Induction along `blocks`: nothing, one last block, or a full block and the rest. -/
theorem blocks_induction (hb : 0 < b) {P : List α → Prop} (nil : P [])
    (last : ∀ l, l ≠ [] → l.length ≤ b → P l) (full : ∀ l, b < l.length → P (l.drop b) → P l)
    (l : List α) : P l := by
  induction h : l.length using Nat.strong_induction_on generalizing l with
  | _ n ih =>
    by_cases h0 : l = []
    · exact h0 ▸ nil
    · by_cases hl : l.length ≤ b
      · exact last l h0 hl
      · have hlt : b < l.length := Nat.lt_of_not_le hl
        exact full l hlt (ih (l.drop b).length (by simp; omega) (l.drop b) rfl)

theorem blocks_flatten (hb : 0 < b) (l : List α) : (blocks b l).flatten = l := by
  have h := cut_flatten hb l
  unfold blocks
  simp only
  split
  · rename_i he
    rw [isEmpty_iff.mp he, append_nil] at h
    exact h
  · rw [flatten_append, flatten_singleton]
    exact h

theorem ne_nil_of_mem_blocks (hb : 0 < b) {l x : List α} (h : x ∈ blocks b l) : x ≠ [] := by
  induction l using blocks_induction hb with
  | nil => rw [blocks_nil hb] at h; exact absurd h (by simp)
  | last l h0 hl =>
    rw [blocks_of_le_length hb h0 hl, mem_singleton] at h
    exact h ▸ h0
  | full l hl ih =>
    rw [blocks_of_lt_length hb hl] at h
    rcases mem_cons.mp h with rfl | h
    · apply ne_nil_of_length_pos
      rw [length_take]
      omega
    · exact ih h

/-! ## Padded pieces -/

variable [Inhabited α] {as bs : List (List α)} {x : List α} {s k size : Nat}

/-- Extend `x` to length `s` with default symbols. -/
def padRight (s : Nat) (x : List α) : List α := x ++ replicate (s - x.length) default

/-- The first `k` slices of length `s` of `l`, each padded to `s`. -/
def pieces (k s : Nat) (l : List α) : List (List α) :=
  (range k).map fun i => padRight s ((l.drop (i * s)).take s)

theorem padRight_length (h : x.length ≤ s) : (padRight s x).length = s := by
  simp [padRight]
  omega

@[simp] theorem pieces_length (k s : Nat) (l : List α) : (pieces k s l).length = k := by
  simp [pieces]

theorem length_of_mem_pieces {l : List α} (h : x ∈ pieces k s l) : x.length = s := by
  obtain ⟨i, -, rfl⟩ := mem_map.mp h
  exact padRight_length (by simp)

theorem pieces_succ (k s : Nat) (l : List α) :
    pieces (k + 1) s l = padRight s (l.take s) :: pieces k s (l.drop s) := by
  unfold pieces
  rw [range_succ_eq_map, map_cons, map_map]
  simp only [Nat.zero_mul, drop_zero]
  congr 1
  apply map_congr_left
  intro i _
  simp only [Function.comp, drop_drop]
  rw [show (i.succ) * s = s + i * s by rw [Nat.succ_mul, Nat.add_comm]]

/-- Joined, the pieces are the covered part of `l` followed by padding. -/
theorem pieces_flatten (k s : Nat) (l : List α) :
    (pieces k s l).flatten = l.take (k * s) ++ replicate (k * s - l.length) default := by
  induction k generalizing l with
  | zero => simp [pieces]
  | succ k ih =>
    rw [pieces_succ, flatten_cons, ih]
    have hks : (k + 1) * s = s + k * s := by rw [Nat.succ_mul, Nat.add_comm]
    rw [hks, take_add]
    unfold padRight
    by_cases h : s ≤ l.length
    · rw [length_take, Nat.min_eq_left h, Nat.sub_self, replicate_zero,
        append_nil, length_drop, append_assoc,
        show k * s - (l.length - s) = s + k * s - l.length by omega]
    · have hd : l.drop s = [] := drop_eq_nil_of_le (by omega)
      rw [hd, length_take, Nat.min_eq_right (by omega)]
      simp only [take_nil, nil_append, append_nil, length_nil, Nat.sub_zero, append_assoc]
      rw [replicate_append_replicate,
        show s - l.length + k * s = s + k * s - l.length by omega]

/-- **Joining the pieces and trimming gives the list back.** -/
theorem pieces_flatten_take (h : l.length ≤ k * s) : (pieces k s l).flatten.take l.length = l := by
  rw [pieces_flatten, take_of_length_le h, take_left]

/-! ## Joining pieces of one length -/

omit [Inhabited α] in
/-- The front of a join depends on the pieces it reaches. -/
theorem flatten_take_congr (hs : ∀ b ∈ bs, b.length = s)
    (h : ∀ i, i * s < size → as[i]? = bs[i]?) : as.flatten.take size = bs.flatten.take size := by
  induction as generalizing bs size with
  | nil =>
    cases size with
    | zero => rfl
    | succ size =>
      have hbs := h 0 (by omega)
      rw [length_eq_zero_iff.mp (Nat.le_zero.mp (getElem?_eq_none_iff.mp hbs.symm))]
  | cons a as ih =>
    cases size with
    | zero => rfl
    | succ size =>
      cases bs with
      | nil => exact absurd (h 0 (by omega)) (by simp)
      | cons b bs =>
        obtain rfl : a = b := by simpa using h 0 (by omega)
        have ha : a.length = s := hs a mem_cons_self
        rw [flatten_cons, flatten_cons, take_append, take_append, ha]
        congr 1
        refine ih (fun b hb => hs b (.tail _ hb)) fun i hi => ?_
        have hnext := h (i + 1) (by rw [Nat.succ_mul]; omega)
        simpa using hnext

omit [Inhabited α] in
/-- The first elements of the pieces are in the join. -/
theorem head?_of_flatten (h0 : 0 < s) (has : ∀ a ∈ as, a.length = s) (i : Nat) :
    as[i]?.bind head? = as.flatten[i * s]? := by
  induction as generalizing i with
  | nil => simp
  | cons a as ih =>
    have ha := has a mem_cons_self
    rw [flatten_cons]
    cases i with
    | zero =>
      rw [Nat.zero_mul, getElem?_append_left (by omega), getElem?_cons_zero, Option.bind_some,
        head?_eq_getElem?]
    | succ i =>
      rw [Nat.succ_mul, getElem?_append_right (by omega), ha, Nat.add_sub_cancel,
        ← ih (fun a' ha' => has a' (.tail _ ha'))]
      rfl

omit [Inhabited α] in
/-- It shows the first element of each piece it reaches. -/
theorem head?_of_flatten_take (h0 : 0 < s) (has : ∀ a ∈ as, a.length = s) (hbs : ∀ b ∈ bs, b.length = s)
    (h : as.flatten.take size = bs.flatten.take size) {i : Nat} (hi : i * s < size) :
    as[i]?.bind head? = bs[i]?.bind head? := by
  rw [head?_of_flatten h0 has, head?_of_flatten h0 hbs, ← getElem?_take_of_lt hi, h,
    getElem?_take_of_lt hi]

end Abixio.Lib
