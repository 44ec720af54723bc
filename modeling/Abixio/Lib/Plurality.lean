import Mathlib.Data.List.Induction
import Mathlib.Data.List.Sort

/-!
# Plurality votes

Votes are counted in groups of votes that are the same, a group standing where its first vote stood
(`tally`), and the largest group wins, the earliest one on a tie (`plurality`).

`plurality_spec`, when being the same is an equivalence: the winner is one of the votes, its count is
that of its class, no class is larger, and if the first vote is of another class that class is
smaller.
-/

namespace Abixio.Lib

open List

variable {α : Type}

/-- Count one vote: into the first group it belongs to, or as a new group at the end. -/
def bump (same : α → α → Bool) (x : α) : List (α × Nat) → List (α × Nat)
  | [] => [(x, 1)]
  | (y, c) :: groups => if same y x then (y, c + 1) :: groups else (y, c) :: bump same x groups

/-- The groups of a list of votes, in the order of their first votes. -/
def tally (same : α → α → Bool) (votes : List α) : List (α × Nat) :=
  votes.foldl (fun groups x => bump same x groups) []

/-- The largest group, sorted to the front; sorting keeps the order of equally large ones. -/
def plurality (same : α → α → Bool) (votes : List α) : Option (α × Nat) :=
  ((tally same votes).insertionSort fun a b => b.2 ≤ a.2).head?

/-- The first votes of the groups. -/
def firsts (same : α → α → Bool) (votes : List α) : List α := (tally same votes).map Prod.fst

section Tally

variable {same : α → α → Bool} {votes : List α} {x y : α}

theorem tally_concat (same : α → α → Bool) (votes : List α) (x : α) :
    tally same (votes ++ [x]) = bump same x (tally same votes) := by
  unfold tally
  rw [foldl_append]
  rfl

/-- One vote raises the count of its group, and opens one if it has none. -/
theorem bump_eq (hsame : Equivalence fun a b => same a b = true) {f : α → Nat} (x : α) :
    ∀ {xs : List α}, xs.Pairwise (fun a b => same a b = false) →
      bump same x (xs.map fun y => (y, f y)) =
        (xs.map fun y => (y, f y + if same y x then 1 else 0)) ++
          if xs.any (fun y => same y x) then [] else [(x, 1)]
  | [], _ => rfl
  | y :: xs, hpw => by
    obtain ⟨hy, hxs⟩ := pairwise_cons.mp hpw
    rw [map_cons, bump]
    by_cases hyx : same y x = true
    · -- no other group takes the vote
      have hrest : ∀ z ∈ xs, same z x = false := by
        intro z hz
        by_contra hzx
        have hyz := hsame.trans hyx (hsame.symm (Bool.eq_true_of_not_eq_false hzx))
        rw [hy z hz] at hyz
        cases hyz
      have hmap : (xs.map fun z => (z, f z + if same z x then 1 else 0)) =
          xs.map fun z => (z, f z) := by
        refine map_congr_left fun z hz => ?_
        rw [hrest z hz]
        rfl
      rw [if_pos hyx, map_cons, hmap, any_cons, hyx, Bool.true_or]
      simp
    · rw [if_neg hyx, bump_eq hsame x hxs, map_cons, any_cons,
        Bool.eq_false_of_not_eq_true hyx, Bool.false_or]
      rfl

/-- **The groups of a tally**: their first votes are pairwise different and cover the votes, and each
count is that of the votes in its class. -/
structure Tallied (same : α → α → Bool) (votes firsts : List α) : Prop where
  tally_eq : tally same votes = firsts.map fun y => (y, votes.countP (same y))
  pairwise : firsts.Pairwise fun a b => same a b = false
  covers : ∀ x ∈ votes, firsts.any (fun y => same y x) = true
  subset : ∀ y ∈ firsts, y ∈ votes
  head : firsts.head? = votes.head?

theorem tallied (hsame : Equivalence fun a b => same a b = true) (votes : List α) :
    Tallied same votes (firsts same votes) := by
  suffices ∃ fs, Tallied same votes fs by
    obtain ⟨fs, hfs⟩ := this
    have heq : firsts same votes = fs := by
      unfold firsts
      rw [hfs.tally_eq, map_map]
      exact map_id _
    rw [heq]
    exact hfs
  induction votes using List.reverseRecOn with
  | nil => exact ⟨[], rfl, List.Pairwise.nil, by simp, by simp, rfl⟩
  | append_singleton votes x ih =>
    obtain ⟨fs, hfs⟩ := ih
    have hcount : ∀ y, (votes ++ [x]).countP (same y) =
        votes.countP (same y) + if same y x then 1 else 0 := by
      intro y
      rw [countP_append, countP_singleton]
    have htally := tally_concat same votes x
    rw [hfs.tally_eq, bump_eq hsame x hfs.pairwise] at htally
    by_cases hany : fs.any (fun y => same y x) = true
    · have hne : votes ≠ [] := by
        rintro rfl
        rw [head?_eq_none_iff.mp hfs.head] at hany
        cases hany
      refine ⟨fs, ?_, hfs.pairwise, ?_, fun y hy => mem_append_left _ (hfs.subset y hy),
        by rw [head?_append_of_ne_nil _ hne]; exact hfs.head⟩
      · rw [htally, if_pos hany, append_nil]
        simp only [hcount]
      · intro z hz
        rcases mem_append.mp hz with hz | hz
        · exact hfs.covers z hz
        · rw [mem_singleton.mp hz]
          exact hany
    · have hnone : ∀ y ∈ fs, same y x = false := by
        intro y hy
        by_contra h
        exact hany (any_eq_true.mpr ⟨y, hy, Bool.eq_true_of_not_eq_false h⟩)
      refine ⟨fs ++ [x], ?_, ?_, ?_, ?_, by rw [head?_append, head?_append, hfs.head]⟩
      · have hzero : votes.countP (same x) = 0 := by
          rw [countP_eq_zero]
          intro z hz hxz
          obtain ⟨y, hy, hyz⟩ := any_eq_true.mp (hfs.covers z hz)
          have hyx := hsame.trans hyz (hsame.symm hxz)
          rw [hnone y hy] at hyx
          cases hyx
        rw [htally, if_neg hany, map_append]
        simp only [hcount, map_cons, map_nil, hzero, hsame.refl x, if_true]
      · rw [pairwise_append]
        refine ⟨hfs.pairwise, pairwise_singleton _ _, ?_⟩
        intro y hy z hz
        rw [mem_singleton.mp hz]
        exact hnone y hy
      · intro z hz
        rw [any_append, Bool.or_eq_true]
        rcases mem_append.mp hz with hz | hz
        · exact Or.inl (hfs.covers z hz)
        · right
          rw [mem_singleton.mp hz]
          simp [hsame.refl x]
      · intro y hy
        rcases mem_append.mp hy with hy | hy
        · exact mem_append_left _ (hfs.subset y hy)
        · exact mem_append_right _ hy

/-- What there is to know of the winner. -/
structure Wins (same : α → α → Bool) (votes : List α) (x : α) : Prop where
  mem : x ∈ votes
  most : ∀ y ∈ votes, votes.countP (same y) ≤ votes.countP (same x)
  tie : ∀ y, votes.head? = some y → same y x = false → votes.countP (same y) < votes.countP (same x)

/-- **The winner of a vote.** -/
theorem plurality_spec (hsame : Equivalence fun a b => same a b = true) {c : Nat}
    (h : plurality same votes = some (x, c)) : c = votes.countP (same x) ∧ Wins same votes x := by
  have ht := tallied hsame votes
  set r : α × Nat → α × Nat → Prop := fun a b => b.2 ≤ a.2 with hr
  have hsorted : ((tally same votes).insertionSort r).Pairwise r :=
    pairwise_insertionSort r _
  obtain ⟨rest, hcons⟩ : ∃ rest, (tally same votes).insertionSort r = (x, c) :: rest := by
    unfold plurality at h
    cases hs : (tally same votes).insertionSort r with
    | nil =>
      rw [hs] at h
      cases h
    | cons g rest =>
      rw [hs] at h
      cases h
      exact ⟨rest, rfl⟩
  have hmem : ∀ g, g ∈ tally same votes ↔ g ∈ (x, c) :: rest := by
    intro g
    rw [← hcons]
    exact (mem_insertionSort r).symm
  have hgroup : ∀ y ∈ firsts same votes, (y, votes.countP (same y)) ∈ tally same votes := by
    intro y hy
    rw [ht.tally_eq]
    exact mem_map_of_mem hy
  have hx : x ∈ firsts same votes ∧ c = votes.countP (same x) := by
    have hxc := (hmem (x, c)).mpr mem_cons_self
    rw [ht.tally_eq] at hxc
    obtain ⟨y, hy, he⟩ := mem_map.mp hxc
    cases he
    exact ⟨hy, rfl⟩
  obtain ⟨hx, rfl⟩ := hx
  rw [hcons] at hsorted
  have hle : ∀ y ∈ firsts same votes, votes.countP (same y) ≤ votes.countP (same x) := by
    intro y hy
    rcases mem_cons.mp ((hmem _).mp (hgroup y hy)) with he | he
    · rw [Prod.mk.injEq] at he
      exact he.2.le
    · exact (pairwise_cons.mp hsorted).1 _ he
  have hclass : ∀ {y z}, same y z = true → votes.countP (same y) = votes.countP (same z) := by
    intro y z hyz
    refine countP_congr fun w _ => ?_
    exact ⟨fun h => hsame.trans (hsame.symm hyz) h, fun h => hsame.trans hyz h⟩
  refine ⟨rfl, ht.subset x hx, ?_, ?_⟩
  · intro y hy
    obtain ⟨z, hz, hzy⟩ := any_eq_true.mp (ht.covers y hy)
    rw [← hclass hzy]
    exact hle z hz
  · intro y hy hyx
    -- sorting keeps a larger or equally large group that stood in front
    have hhead := ht.head
    rw [hy] at hhead
    obtain ⟨fs, hfs⟩ : ∃ fs, firsts same votes = y :: fs := by
      cases hf : firsts same votes with
      | nil =>
        rw [hf] at hhead
        cases hhead
      | cons z fs =>
        rw [hf] at hhead
        cases hhead
        exact ⟨fs, rfl⟩
    have hne : y ≠ x := by
      rintro rfl
      rw [hsame.refl y] at hyx
      cases hyx
    have hxfs : x ∈ fs := by
      rw [hfs] at hx
      exact (mem_cons.mp hx).resolve_left (Ne.symm hne)
    refine lt_of_le_of_ne (hle y (by rw [hfs]; exact mem_cons_self)) fun heq => ?_
    have hpair : [(y, votes.countP (same y)), (x, votes.countP (same x))].Sublist
        (tally same votes) := by
      rw [ht.tally_eq, hfs, map_cons]
      refine List.Sublist.cons_cons _ ?_
      exact singleton_sublist.mpr (mem_map.mpr ⟨x, hxfs, rfl⟩)
    have hkept := pair_sublist_insertionSort (r := r) (by rw [hr]; exact heq.ge) hpair
    rw [hcons] at hkept
    have hnodup : ((x, votes.countP (same x)) :: rest).Nodup := by
      rw [← hcons, (perm_insertionSort r _).nodup_iff, ht.tally_eq]
      refine List.Nodup.map (fun a b hab => (Prod.mk.inj hab).1) ?_
      refine ht.pairwise.imp fun {a b} hab he => ?_
      rw [he, hsame.refl b] at hab
      cases hab
    cases hkept with
    | cons _ hsub =>
      exact (nodup_cons.mp hnodup).1 (hsub.subset (by simp))
    | cons_cons _ hsub => exact hne rfl

/-- A vote that was cast has a winner. -/
theorem plurality_isSome (hsame : Equivalence fun a b => same a b = true) (hne : votes ≠ []) :
    ∃ g, plurality same votes = some g := by
  have htally : tally same votes ≠ [] := by
    intro hnil
    have hhead := (tallied hsame votes).head
    unfold firsts at hhead
    rw [hnil] at hhead
    exact hne (head?_eq_none_iff.mp hhead.symm)
  unfold plurality
  cases hs : (tally same votes).insertionSort fun a b => b.2 ≤ a.2 with
  | nil =>
    have hperm := perm_insertionSort (fun a b : α × Nat => b.2 ≤ a.2) (tally same votes)
    rw [hs] at hperm
    exact absurd hperm.nil_eq.symm htally
  | cons g rest => exact ⟨g, rfl⟩

end Tally

end Abixio.Lib
