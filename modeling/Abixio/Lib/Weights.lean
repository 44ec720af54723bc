import Mathlib.Algebra.BigOperators.Group.List.Basic
import Mathlib.Algebra.GroupWithZero.Nat
import Mathlib.Data.List.AList

/-!
# The weight of a map

Every value of a finite map has a weight. A counter beside the map is exact if it follows
`weight_erase` and `weight_insert`. `Trims` is eviction from the end of a list: one entry at a time,
until the total is at most a limit.
-/

namespace Abixio.Lib

open List

variable {κ β : Type} {f : β → Nat} {s : Sigma fun _ : κ => β}
  {l after : List (Sigma fun _ : κ => β)} {limit : Nat}

/-- The weight of a list of entries. -/
def total (f : β → Nat) (l : List (Sigma fun _ : κ => β)) : Nat := (l.map fun s => f s.2).sum

/-- **`after` is what is left of `before`** when entries are taken off its end until the total is at
most `limit`. -/
structure Trims (f : β → Nat) (limit : Nat) (before after : List (Sigma fun _ : κ => β)) : Prop where
  kept : after <+: before
  fits : total f after ≤ limit
  stops : ∀ l, l <+: before → after.length < l.length → limit < total f l

/-- One more entry that did not fit. -/
theorem Trims.concat
    (h : Trims f limit l after) (hs : limit < total f (l ++ [s])) : Trims f limit (l ++ [s]) after := by
  refine ⟨h.kept.trans (prefix_append l [s]), h.fits, fun l' hl' hlt => ?_⟩
  rcases prefix_concat_iff.mp hl' with rfl | hl'
  · exact hs
  · exact h.stops l' hl' hlt

theorem Trims.refl {l : List (Sigma fun _ : κ => β)} (h : total f l ≤ limit) : Trims f limit l l :=
  ⟨prefix_refl l, h, fun _ hl hlt => absurd hl.length_le (Nat.not_le.mpr hlt)⟩

/-- If the first entry does not fit, nothing is left. -/
theorem Trims.eq_nil (h : Trims f limit (s :: l) after) (hs : limit < f s.2) : after = [] := by
  cases after with
  | nil => rfl
  | cons a after =>
    have hfits := h.fits
    obtain rfl : a = s := (cons_prefix_cons.mp h.kept).1
    simp only [total, map_cons, sum_cons] at hfits
    omega

variable [DecidableEq κ] {m : AList fun _ : κ => β} {k : κ} {e : β}

theorem weight_erase (h : m.lookup k = some e) :
    total f (m.erase k).entries + f e = total f m.entries := by
  have hk : k ∈ m.entries.keys := AList.mem_keys.mp (AList.lookup_isSome.mp (by rw [h]; rfl))
  obtain ⟨e', l₁, l₂, -, hm, herase⟩ := exists_of_kerase hk
  obtain rfl : e' = e := by
    have hmem : e' ∈ m.lookup k := AList.mem_lookup_iff.mpr (hm ▸ mem_append_right l₁ mem_cons_self)
    rw [h] at hmem
    exact (Option.some.inj hmem).symm
  rw [show (m.erase k).entries = l₁ ++ l₂ from herase, hm]
  simp only [total, map_append, map_cons, sum_append, sum_cons]
  omega

theorem weight_le (h : m.lookup k = some e) : f e ≤ total f m.entries := by
  have := weight_erase (f := f) h
  omega

theorem erase_of_lookup_none (h : m.lookup k = none) : (m.erase k).entries = m.entries :=
  kerase_of_notMem_keys (AList.lookup_eq_none.mp h)

/-- An insertion puts its entry in front. -/
theorem weight_insert : total f (m.insert k e).entries = f e + total f (m.erase k).entries := rfl

/-- The last entry is removed by its key. -/
theorem erase_getLast {l : List (Sigma fun _ : κ => β)} (h : m.entries = l ++ [s]) :
    (m.erase s.1).entries = l := by
  have hnd := m.nodupKeys
  rw [h, List.NodupKeys, List.keys, map_append, nodup_append] at hnd
  have hs : s.1 ∉ l.keys := fun hmem => hnd.2.2 s.1 hmem s.1 (mem_singleton.mpr rfl) rfl
  change List.kerase s.1 m.entries = l
  rw [h, kerase_append_right hs, kerase_cons_eq rfl, append_nil]

end Abixio.Lib
