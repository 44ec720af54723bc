import Mathlib.Order.Lattice
import Mathlib.Data.List.Basic

/-!
# Ordered maps

A map with ordered keys is the list of its entries, by ascending key. `insert` keeps the order and
replaces an entry of the same key; behind the last key it is an append (`insert_of_gt`).
-/

namespace Abixio.Lib.SortedMap

variable {κ β : Type} [LinearOrder κ] {m : List (κ × β)} {k : κ} {v : β}

/-- The value at a key. -/
def lookup (k : κ) : List (κ × β) → Option β
  | [] => none
  | e :: m => if e.1 = k then some e.2 else lookup k m

/-- Put an entry into its place. -/
def insert (k : κ) (v : β) : List (κ × β) → List (κ × β)
  | [] => [(k, v)]
  | e :: m =>
    if k < e.1 then (k, v) :: e :: m
    else if e.1 < k then e :: insert k v m
    else (k, v) :: m

/-- Remove the entry of a key. -/
def erase (k : κ) (m : List (κ × β)) : List (κ × β) := m.filter fun e => e.1 ≠ k

/-- The greatest key. -/
def lastKey (m : List (κ × β)) : Option κ := m.getLast?.map Prod.fst

/-- The least key. -/
def firstKey (m : List (κ × β)) : Option κ := m.head?.map Prod.fst

/-- **A new greatest key goes to the end.** -/
theorem insert_of_gt (h : ∀ e ∈ m, e.1 < k) : insert k v m = m ++ [(k, v)] := by
  induction m with
  | nil => rfl
  | cons e m ih =>
    have he : e.1 < k := h e (List.mem_cons_self ..)
    rw [insert, if_neg (not_lt_of_gt he), if_pos he, ih fun e' h' => h e' (List.mem_cons_of_mem _ h'),
      List.cons_append]

theorem lookup_insert_self (k : κ) (v : β) (m : List (κ × β)) : lookup k (insert k v m) = some v := by
  induction m with
  | nil => rw [insert, lookup, if_pos rfl]
  | cons e m ih =>
    rw [insert]
    split_ifs with hlt hgt
    · rw [lookup, if_pos rfl]
    · rw [lookup, if_neg (ne_of_lt hgt), ih]
    · rw [lookup, if_pos rfl]

theorem lookup_insert_of_ne {k' : κ} (h : k ≠ k') (v : β) (m : List (κ × β)) :
    lookup k (insert k' v m) = lookup k m := by
  induction m with
  | nil => exact if_neg h.symm
  | cons e m ih =>
    rw [insert]
    split_ifs with hlt hgt
    · exact if_neg h.symm
    · rw [lookup, lookup, ih]
    · have he : e.1 = k' := le_antisymm (not_lt.mp hlt) (not_lt.mp hgt)
      rw [lookup, if_neg h.symm, lookup, if_neg (he ▸ h.symm)]

theorem lookup_erase (k k' : κ) (m : List (κ × β)) :
    lookup k (erase k' m) = if k = k' then none else lookup k m := by
  induction m with
  | nil => simp [erase, lookup]
  | cons e m ih =>
    rw [erase, List.filter_cons]
    by_cases he : e.1 = k'
    · rw [if_neg (by simp [he])]
      refine ih.trans ?_
      by_cases hk : k = k'
      · rw [if_pos hk, if_pos hk]
      · rw [if_neg hk, if_neg hk, lookup, if_neg fun h => hk (h.symm.trans he)]
    · rw [if_pos (by simp [he]), lookup, lookup]
      by_cases hk : e.1 = k
      · rw [if_pos hk, if_pos hk, if_neg fun h => he (hk.trans h)]
      · rw [if_neg hk, if_neg hk]
        exact ih

theorem lookup_eq_none : lookup k m = none ↔ ∀ e ∈ m, e.1 ≠ k := by
  induction m with
  | nil => simp [lookup]
  | cons e m ih =>
    rw [lookup, List.forall_mem_cons]
    by_cases he : e.1 = k
    · simp [he]
    · rw [if_neg he, ih]
      exact ⟨fun h => ⟨he, h⟩, fun h => h.2⟩

/-- Entries without the key do not matter. -/
theorem lookup_append {front rest : List (κ × β)} (h : ∀ e ∈ front, e.1 ≠ k) :
    lookup k (front ++ rest) = lookup k rest := by
  induction front with
  | nil => rfl
  | cons e front ih =>
    rw [List.cons_append, lookup, if_neg (h e (List.mem_cons_self ..)),
      ih fun e' h' => h e' (List.mem_cons_of_mem _ h')]

end Abixio.Lib.SortedMap
