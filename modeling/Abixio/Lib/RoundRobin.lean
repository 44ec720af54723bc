import Mathlib.Data.List.Perm.Subperm
import Mathlib.Data.List.Dedup
import Mathlib.Data.List.Sort
import Mathlib.Algebra.BigOperators.Group.List.Basic

/-!
# Taking from several lists in rounds

`layer groups r` is what round `r` takes: the `r`-th entry of each list that has one.
`interleave groups R` joins the first `R` rounds. Nothing is taken twice
(`interleave_subperm`), enough rounds take everything (`interleave_perm`), and the front of it is fair
to the groups (`interleave_take_fair`).

`groupBy`-style splitting: the classes of a list under a key, for any duplicate-free list of keys
that covers it, join to a permutation of the list (`classes_perm`).

A sorted list does not depend on the order before, if the order tells its entries apart
(`insertionSort_of_perm`).
-/

namespace Abixio.Lib

open List

variable {α κ : Type}

theorem insertionSort_of_perm {r : α → α → Prop} [DecidableRel r] [Std.Total r] [IsTrans α r]
    {xs ys : List α} (h : xs.Perm ys) (hanti : ∀ a ∈ ys, ∀ b ∈ ys, r a b → r b a → a = b) :
    xs.insertionSort r = ys.insertionSort r := by
  have hperm := (perm_insertionSort r xs).trans h
  refine List.Perm.eq_of_pairwise (fun a b ha hb => ?_) (pairwise_insertionSort r xs)
    (pairwise_insertionSort r ys) (hperm.trans (perm_insertionSort r ys).symm)
  exact hanti a (hperm.mem_iff.mp ha) b ((mem_insertionSort r).mp hb)

/-- What round `r` takes from the groups. -/
def layer (groups : List (List α)) (r : Nat) : List α := groups.filterMap fun g => g[r]?

/-- The first `R` rounds, in order. -/
def interleave (groups : List (List α)) (R : Nat) : List α :=
  (range R).flatMap (layer groups)

theorem interleave_succ (groups : List (List α)) (R : Nat) :
    interleave groups (R + 1) = interleave groups R ++ layer groups R := by
  simp [interleave, range_succ]

theorem layer_cons (g : List α) (gs : List (List α)) (r : Nat) :
    layer (g :: gs) r = g[r]?.toList ++ layer gs r := by
  unfold layer
  cases h : g[r]? <;> simp [h]

theorem flatMap_range_getElem? (g : List α) (R : Nat) :
    ((range R).flatMap fun r => g[r]?.toList) = g.take R := by
  induction R with
  | zero => simp
  | succ R ih =>
    rw [range_succ, flatMap_append, ih, flatMap_singleton, take_add_one]

/-- The first `R` rounds take the first `R` entries of each list. -/
theorem interleave_perm_take (groups : List (List α)) (R : Nat) :
    (interleave groups R).Perm (groups.map (take R)).flatten := by
  induction groups with
  | nil => simp [interleave, layer]
  | cons g gs ih =>
    have h : interleave (g :: gs) R =
        (range R).flatMap fun r => g[r]?.toList ++ layer gs r := by
      unfold interleave
      congr 1
      funext r
      exact layer_cons g gs r
    rw [h, map_cons, flatten_cons]
    refine (flatMap_append_perm (range R) (fun r => g[r]?.toList) (layer gs)).symm.trans ?_
    rw [flatMap_range_getElem?]
    exact List.Perm.append_left _ ih

theorem interleave_subperm (groups : List (List α)) (R : Nat) :
    (interleave groups R).Subperm groups.flatten := by
  refine (interleave_perm_take groups R).subperm.trans (List.Sublist.subperm ?_)
  induction groups with
  | nil => exact List.Sublist.refl _
  | cons g gs ih =>
    exact (take_sublist R g).append ih

theorem interleave_perm {groups : List (List α)} {R : Nat} (h : ∀ g ∈ groups, g.length ≤ R) :
    (interleave groups R).Perm groups.flatten := by
  have he : groups.map (take R) = groups := by
    conv_rhs => rw [← map_id groups]
    exact map_congr_left fun g hg => take_of_length_le (h g hg)
  rw [← he]
  have := interleave_perm_take groups R
  rwa [he] at this ⊢

/-! ## Fair prefixes -/

theorem interleave_prefix (groups : List (List α)) {R S : Nat} (h : R ≤ S) :
    interleave groups R <+: interleave groups S := by
  induction h with
  | refl => exact prefix_rfl
  | step _ ih =>
    rw [Nat.succ_eq_add_one, interleave_succ]
    exact ih.trans (prefix_append _ _)

/-- Any number of entries taken from the front lies between two numbers of full rounds. -/
theorem interleave_take_between {groups : List (List α)} {total : Nat} :
    ∀ {N : Nat}, total ≤ (interleave groups N).length →
      ∃ r, interleave groups r <+: (interleave groups N).take total ∧
        (interleave groups N).take total <+: interleave groups (r + 1)
  | 0, h => by
    have hnil : interleave groups 0 = [] := rfl
    refine ⟨0, ?_, ?_⟩
    · rw [hnil]
      exact nil_prefix
    · rw [hnil, take_nil]
      exact nil_prefix
  | N + 1, h => by
    have hpre := interleave_prefix groups (Nat.le_succ N)
    by_cases hN : total ≤ (interleave groups N).length
    · obtain ⟨r, hlow, hhigh⟩ := interleave_take_between hN
      have htake : (interleave groups (N + 1)).take total = (interleave groups N).take total := by
        rw [interleave_succ, take_append_of_le_length hN]
      rw [htake]
      exact ⟨r, hlow, hhigh⟩
    · refine ⟨N, ?_, take_prefix _ _⟩
      rw [prefix_take_iff]
      exact ⟨hpre, by omega⟩

section Keyed

variable [DecidableEq κ] {key : α → κ} {ks : List κ} {f : κ → List α} {k : κ}

section

variable (hf : ∀ k ∈ ks, ∀ x ∈ f k, key x = k)
include hf

theorem countP_flatten_keyed (hnd : ks.Nodup) (hk : k ∈ ks) :
    (ks.map f).flatten.countP (fun x => key x = k) = (f k).length := by
  have hother : ∀ k' ≠ k, k' ∈ ks → (f k').countP (fun x => key x = k) = 0 := by
    intro k' hne hk'
    rw [countP_eq_zero]
    intro x hx
    rw [decide_eq_true_eq, hf k' hk' x hx]
    exact hne
  have hown : (f k).countP (fun x => key x = k) = (f k).length := by
    rw [countP_eq_length]
    exact fun x hx => decide_eq_true (hf k hk x hx)
  rw [countP_flatten, map_map]
  refine (sum_map_eq_nsmul_single k _ hother).trans ?_
  rw [count_eq_one_of_mem hnd hk, one_nsmul]
  exact hown

/-- **The first `R` rounds take up to `R` entries of each key.** -/
theorem countP_interleave (hnd : ks.Nodup) (hk : k ∈ ks) (R : Nat) :
    (interleave (ks.map f) R).countP (fun x => key x = k) = min R (f k).length := by
  rw [(interleave_perm_take (ks.map f) R).countP_eq, map_map]
  refine (countP_flatten_keyed (f := take R ∘ f) (fun k' hk' x hx => ?_) hnd hk).trans ?_
  · exact hf k' hk' x (mem_of_mem_take hx)
  · rw [Function.comp_apply, length_take]

/-- **Rounds are fair.** If the front has two more entries of one key than of another, it has all
entries of the other. -/
theorem interleave_take_fair {k' : κ} {N total : Nat} (hnd : ks.Nodup) (hk : k ∈ ks) (hk' : k' ∈ ks)
    (htotal : total ≤ (interleave (ks.map f) N).length)
    (hmore : ((interleave (ks.map f) N).take total).countP (fun x => key x = k') + 2 ≤
      ((interleave (ks.map f) N).take total).countP (fun x => key x = k)) :
    ∀ x ∈ f k', x ∈ (interleave (ks.map f) N).take total := by
  obtain ⟨r, hlow, hhigh⟩ := interleave_take_between htotal
  have hle := hhigh.sublist.countP_le (p := fun x => key x = k)
  have hge := hlow.sublist.countP_le (p := fun x => key x = k')
  rw [countP_interleave hf hnd hk] at hle
  rw [countP_interleave hf hnd hk'] at hge
  intro x hx
  refine hlow.subset ((interleave_perm_take (ks.map f) r).mem_iff.mpr ?_)
  refine mem_flatten.mpr ⟨(f k').take r, ?_, ?_⟩
  · exact mem_map.mpr ⟨f k', mem_map_of_mem hk', rfl⟩
  · rwa [take_of_length_le (by omega)]

end

end Keyed

/-! ## Classes of a list under a key -/

variable [DecidableEq κ]

/-- The entries of `l` with key `k`. -/
def classOf (key : α → κ) (l : List α) (k : κ) : List α := l.filter fun a => key a = k

/-- The classes of a duplicate-free, covering list of keys make up the list. -/
theorem classes_perm (key : α → κ) {ks : List κ} (hnd : ks.Nodup) :
    ∀ {l : List α}, (∀ a ∈ l, key a ∈ ks) → (ks.flatMap (classOf key l)).Perm l
  | [], _ => by
    have : ks.flatMap (classOf key []) = [] := by simp [classOf]
    rw [this]
  | a :: l, h => by
    have ih := classes_perm key hnd fun b hb => h b (mem_cons_of_mem a hb)
    have hcons : classOf key (a :: l) = fun k => (if key a = k then [a] else []) ++ classOf key l k := by
      funext k
      by_cases hk : key a = k <;> simp [classOf, hk]
    have hone : (ks.flatMap fun k => if key a = k then [a] else []) = [a] := by
      have hmem := h a mem_cons_self
      clear ih hcons h
      induction ks with
      | nil => exact absurd hmem (by simp)
      | cons k ks ihk =>
        rw [flatMap_cons]
        rcases mem_cons.mp hmem with hk | hk
        · rw [if_pos hk]
          have hrest : (ks.flatMap fun k => if key a = k then [a] else []) = [] := by
            rw [flatMap_eq_nil_iff]
            intro k' hk'
            rw [if_neg]
            intro he
            exact (nodup_cons.mp hnd).1 (hk ▸ he ▸ hk')
          rw [hrest, append_nil]
        · have hne : key a ≠ k := fun he => (nodup_cons.mp hnd).1 (he ▸ hk)
          rw [if_neg hne, nil_append]
          exact ihk (nodup_cons.mp hnd).2 hk
    rw [hcons]
    refine (flatMap_append_perm ks _ _).symm.trans ?_
    rw [hone]
    exact List.Perm.append_left [a] ih

end Abixio.Lib
