import Mathlib.Data.List.Nodup

/-!
# State-passing actions that can fail

`Act ε σ α` is a computation over a state `σ` that returns a value or fails, and leaves a state in
both cases: a failing call may have done part of its work. `bind_eq_ok` and `bind_eq_error` take a
run apart; `each` runs one action per list entry and stops at the first failure; `attempt` turns a
failure into a value, which is how a caller goes on after it.

`at i x` runs `x` on component `i` of a family of states. `each_at_ok` is the frame rule for one
action on each of several distinct components.

`Moves R x` says what `x` does to the state whether it succeeds or not, and `Returns Q x` what its
values satisfy. The `Moves` rules follow the structure of a program.
-/

namespace Abixio.Lib

open List
open Function (update_of_ne update_self)

variable {ε σ α β ι V : Type} {r : Except ε α} {as : List α} {a : α} {b : β} {e : ε}

theorem except_bind_eq_ok {f : α → Except ε β} : (r >>= f) = .ok b ↔ ∃ a, r = .ok a ∧ f a = .ok b := by
  cases r <;> simp [bind, Except.bind]

theorem except_toOption_eq_some : r.toOption = some a ↔ r = .ok a := by
  cases r <;> simp [Except.toOption]

theorem map_ok_inj {bs : List α} (h : as.map (.ok : α → Except ε α) = bs.map .ok) : as = bs :=
  map_injective_iff.mpr (fun _ _ h => Except.ok.inj h) h

/-- A computation over `σ` that may fail with `ε`; the state survives a failure. -/
def Act (ε σ α : Type) : Type := σ → Except ε α × σ

namespace Act

instance : Monad (Act ε σ) where
  pure a := fun s => (.ok a, s)
  bind x f := fun s =>
    match x s with
    | (.ok a, s') => f a s'
    | (.error e, s') => (.error e, s')

/-- Fail without touching the state. -/
def fail (e : ε) : Act ε σ α := fun s => (.error e, s)

/-- A value or failure computed without the state. -/
def ofExcept (r : Except ε α) : Act ε σ α := fun s => (r, s)

/-- Read something off the state. -/
def read (f : σ → α) : Act ε σ α := fun s => (.ok (f s), s)

/-- Compute a value or failure from the state. -/
def query (f : σ → Except ε α) : Act ε σ α := fun s => (f s, s)

/-- Change the state. -/
def modify (f : σ → σ) : Act ε σ Unit := fun s => (.ok (), f s)

/-- Run `x` and return its outcome as a value. -/
def attempt (x : Act ε σ α) : Act ε σ (Except ε α) := fun s => (.ok (x s).1, (x s).2)

/-- Run `f` on every entry in order, stopping at the first failure. -/
def each (f : ι → Act ε σ α) : List ι → Act ε σ (List α)
  | [] => pure []
  | i :: is => do
    let a ← f i
    let as ← each f is
    pure (a :: as)

@[simp] theorem pure_apply (a : α) (s : σ) : (pure a : Act ε σ α) s = (.ok a, s) := rfl

@[simp] theorem ofExcept_apply (r : Except ε α) (s : σ) : (ofExcept r : Act ε σ α) s = (r, s) := rfl

@[simp] theorem read_apply (f : σ → α) (s : σ) : (read f : Act ε σ α) s = (.ok (f s), s) := rfl

@[simp] theorem query_apply (f : σ → Except ε α) (s : σ) : (query f : Act ε σ α) s = (f s, s) := rfl

@[simp] theorem modify_apply (f : σ → σ) (s : σ) :
    (modify f : Act ε σ Unit) s = (.ok (), f s) := rfl

@[simp] theorem attempt_apply (x : Act ε σ α) (s : σ) :
    (attempt x) s = (.ok (x s).1, (x s).2) := rfl

variable {x : Act ε σ α} {f g : α → Act ε σ β} {s s' t : σ} {i : ι} {is : List ι}

theorem bind_apply (x : Act ε σ α) (f : α → Act ε σ β) (s : σ) : (x >>= f) s = match x s with
      | (.ok a, s') => f a s'
      | (.error e, s') => (.error e, s') := rfl

theorem bind_ok (h : x s = (.ok a, s')) : (x >>= f) s = f a s' := by
  rw [bind_apply, h]

theorem bind_error (h : x s = (.error e, s')) : (x >>= f) s = (.error e, s') := by
  rw [bind_apply, h]

/-- A rest that does not change the state. -/
theorem bind_snd (hf : ∀ a s, (f a s).2 = s) (x : Act ε σ α) (s : σ) : ((x >>= f) s).2 = (x s).2 := by
  rw [bind_apply]
  rcases x s with ⟨r, t⟩
  cases r with
  | error e => rfl
  | ok a => exact hf a t

/-- **A successful `bind` is two successful runs.** -/
theorem bind_eq_ok : (x >>= f) s = (.ok b, t) ↔ ∃ a s', x s = (.ok a, s') ∧ f a s' = (.ok b, t) := by
  rw [bind_apply]
  constructor
  · intro h
    split at h
    · rename_i a s' hx
      exact ⟨a, s', hx, h⟩
    · cases h
  · rintro ⟨a, s', hx, hf⟩
    rw [hx]
    exact hf

/-- Going on after a value computed without the state. -/
theorem ofExcept_bind_eq_ok :
    (ofExcept r >>= f) s = (.ok b, t) ↔ ∃ a, r = .ok a ∧ f a s = (.ok b, t) := by
  rw [bind_eq_ok]
  constructor
  · rintro ⟨a, s', hr, hf⟩
    cases hr
    exact ⟨a, rfl, hf⟩
  · rintro ⟨a, rfl, hf⟩
    exact ⟨a, s, rfl, hf⟩

theorem ok_bind (a : α) (f : α → Act ε σ β) : (ofExcept (.ok a) >>= f) = f a := rfl

theorem mapError_eq_ok {ε' : Type*} {f : ε → ε'} : r.mapError f = .ok a ↔ r = .ok a := by
  cases r <;> simp [Except.mapError]

theorem query_bind_ok {f : σ → Except ε α} (h : f s = .ok a) : (query f >>= g) s = g a s :=
  bind_ok (Prod.ext h rfl)

theorem query_bind_eq_ok {f : σ → Except ε α} :
    (query f >>= g) s = (.ok b, t) ↔ ∃ a, f s = .ok a ∧ g a s = (.ok b, t) := by
  rw [bind_eq_ok]
  constructor
  · rintro ⟨a, s', hf, hg⟩
    obtain ⟨ha, rfl⟩ := Prod.mk.inj hf
    exact ⟨a, ha, hg⟩
  · rintro ⟨a, ha, hg⟩
    exact ⟨a, s, Prod.ext ha rfl, hg⟩

theorem each_cons (f : ι → Act ε σ α) (i : ι) (is : List ι) :
    each f (i :: is) = f i >>= fun a => each f is >>= fun as => pure (a :: as) := rfl

theorem each_cons_eq_ok {f : ι → Act ε σ α} : each f (i :: is) s = (.ok as, t) ↔
      ∃ a s' as', f i s = (.ok a, s') ∧ each f is s' = (.ok as', t) ∧ as = a :: as' := by
  rw [each_cons, bind_eq_ok]
  constructor
  · rintro ⟨a, s', hf, h⟩
    obtain ⟨as', s'', hrest, hp⟩ := bind_eq_ok.mp h
    cases hp
    exact ⟨a, s', as', hf, hrest, rfl⟩
  · rintro ⟨a, s', as', hf, hrest, rfl⟩
    exact ⟨a, s', hf, bind_eq_ok.mpr ⟨as', t, hrest, rfl⟩⟩

theorem each_length {f : ι → Act ε σ α} :
    ∀ {is : List ι} {s t : σ} {as : List α}, each f is s = (.ok as, t) → as.length = is.length
  | [], s, t, as, h => by cases h; rfl
  | i :: is, s, t, as, h => by
    obtain ⟨a, s', as', -, hrest, rfl⟩ := each_cons_eq_ok.mp h
    simp [each_length hrest]

/-- A loop whose turns never fail does not fail. -/
theorem each_total {f : ι → Act ε σ α} (h : ∀ i s, ∃ a t, f i s = (.ok a, t)) :
    ∀ (is : List ι) (s : σ), ∃ as t, each f is s = (.ok as, t)
  | [], s => ⟨[], s, rfl⟩
  | i :: is, s => by
    obtain ⟨a, s', hi⟩ := h i s
    obtain ⟨as, t, hrest⟩ := each_total h is s'
    exact ⟨a :: as, t, each_cons_eq_ok.mpr ⟨a, s', as, hi, hrest, rfl⟩⟩

/-- A loop stops at the first turn that fails. -/
theorem each_append_fail {f : ι → Act ε σ α} {js : List ι} {t' : σ}
    (his : each f is s = (.ok as, t)) (hi : f i t = (.error e, t')) :
    each f (is ++ i :: js) s = (.error e, t') := by
  induction is generalizing s as with
  | nil =>
    cases his
    rw [nil_append, each_cons, bind_apply, hi]
  | cons j is ih =>
    obtain ⟨a, s', as', hj, hrest, -⟩ := each_cons_eq_ok.mp his
    rw [cons_append, each_cons, bind_ok hj, bind_apply, ih hrest]

/-- A loop that collects outcomes succeeds only when all of them did. -/
theorem mapM_eq_ok {f : β → Except ε α} {l : List β} (h : l.mapM f = .ok as) : l.map f = as.map .ok := by
  induction l generalizing as with
  | nil => cases h; rfl
  | cons b bs ih =>
    rw [mapM_cons] at h
    obtain ⟨a, hb, h⟩ := except_bind_eq_ok.mp h
    obtain ⟨as', hbs, h⟩ := except_bind_eq_ok.mp h
    cases h
    rw [map_cons, hb, ih hbs, map_cons]

/-- and it does succeed then. -/
theorem mapM_of_map_eq {f : β → Except ε α} {l : List β} (h : l.map f = as.map .ok) :
    l.mapM f = .ok as := by
  induction l generalizing as with
  | nil =>
    rw [map_eq_nil_iff.mp h.symm]
    rfl
  | cons b bs ih =>
    cases as with
    | nil => cases h
    | cons a as =>
      rw [map_cons, map_cons, cons.injEq] at h
      rw [mapM_cons, h.1, ih h.2]
      rfl

theorem mapM_id_eq_ok {l : List (Except ε α)} (h : l.mapM id = .ok as) : l = as.map .ok := by
  rw [← mapM_eq_ok h, map_id]

/-- Collecting outcomes succeeds when all of them did. -/
theorem mapM_id_of_ok {l : List (Except ε α)} (h : ∀ r ∈ l, ∃ a, r = .ok a) :
    ∃ as, l.mapM id = .ok as := by
  induction l with
  | nil => exact ⟨[], rfl⟩
  | cons r rs ih =>
    obtain ⟨a, rfl⟩ := h r mem_cons_self
    obtain ⟨as, has⟩ := ih fun r' hr' => h r' (mem_cons_of_mem _ hr')
    refine ⟨a :: as, ?_⟩
    rw [mapM_cons, has]
    rfl

/-- Related lists are related entry by entry. -/
theorem forall₂_getElem? {R : α → β → Prop} {bs : List β}
    (h : List.Forall₂ R as bs) {i : Nat} {a : α} {b : β} (ha : as[i]? = some a)
    (hb : bs[i]? = some b) : R a b := by
  obtain ⟨hi, rfl⟩ := List.getElem?_eq_some_iff.mp ha
  obtain ⟨hj, rfl⟩ := List.getElem?_eq_some_iff.mp hb
  exact (forall₂_iff_get.mp h).2 i hi hj

/-! ## What an action does in any case -/

/-- Whatever its outcome, `x` moves the state along `R`. -/
def Moves (R : σ → σ → Prop) (x : Act ε σ α) : Prop := ∀ s, R s (x s).2

/-- Every value that `x` returns satisfies `Q`. -/
def Returns (Q : α → Prop) (x : Act ε σ α) : Prop := ∀ s a t, x s = (.ok a, t) → Q a

/-- Both. -/
def Runs (R : σ → σ → Prop) (Q : α → Prop) (x : Act ε σ α) : Prop := Moves R x ∧ Returns Q x

section Moves

variable {R : σ → σ → Prop} {Q : α → Prop} {Q' : β → Prop}

theorem Moves.attempt (h : Moves R x) : Moves R (Act.attempt x) := h

theorem Runs.attempt (h : Runs R Q x) : Runs R (fun r => ∀ a, r = .ok a → Q a) (Act.attempt x) := by
  refine ⟨h.1, fun s r t hrun a ha => ?_⟩
  cases hrun
  exact h.2 s a (x s).2 (Prod.ext ha rfl)

section Refl

variable [Std.Refl R]

theorem Moves.pure (a : α) : Moves R (Pure.pure a : Act ε σ α) := fun s => refl_of R s

theorem Moves.fail (e : ε) : Moves R (Act.fail e : Act ε σ α) := fun s => refl_of R s

theorem Runs.pure (h : Q a) : Runs R Q (Pure.pure a : Act ε σ α) := by
  refine ⟨.pure a, fun s b t hrun => ?_⟩
  cases hrun
  exact h

theorem Runs.fail (e : ε) : Runs R Q (Act.fail e : Act ε σ α) := ⟨.fail e, fun _ _ _ hrun => nomatch hrun⟩

theorem Moves.ofExcept (r : Except ε α) : Moves R (Act.ofExcept r : Act ε σ α) :=
  fun s => refl_of R s

theorem Moves.read (f : σ → α) : Moves R (Act.read f : Act ε σ α) := fun s => refl_of R s

theorem Moves.query (f : σ → Except ε α) : Moves R (Act.query f) := fun s => refl_of R s

end Refl

variable [IsTrans σ R]

/-- The rest of a program only runs on values of its first part. -/
theorem Moves.bind (hx : Moves R x) (hq : Returns Q x)
    (hf : ∀ a, Q a → Moves R (f a)) : Moves R (x >>= f) := by
  intro s
  have hstep := hx s
  rw [bind_apply]
  split
  · rename_i a s' hrun
    rw [hrun] at hstep
    exact IsTrans.trans _ _ _ hstep (hf a (hq s a s' hrun) s')
  · rename_i e s' hrun
    rw [hrun] at hstep
    exact hstep

/-- `Moves.bind` when the value does not matter. -/
theorem Moves.andThen (hx : Moves R x) (hf : ∀ a, Moves R (f a)) : Moves R (x >>= f) :=
  Moves.bind (Q := fun _ => True) hx (fun _ _ _ _ => trivial) fun a _ => hf a

/-- Going on after a value computed without the state. -/
theorem Moves.ofExcept_bind [Std.Refl R]
    (hf : ∀ a, r = .ok a → Moves R (f a)) : Moves R (Act.ofExcept r >>= f) := by
  refine Moves.bind (Q := fun a => r = .ok a) (.ofExcept r) ?_ hf
  intro s a t hrun
  exact congrArg Prod.fst hrun

theorem Moves.each [Std.Refl R] {f : ι → Act ε σ α} :
    ∀ {is : List ι}, (∀ i ∈ is, Moves R (f i)) → Moves R (Act.each f is)
  | [], _ => Moves.pure _
  | i :: is, h => by
    refine Moves.andThen (h i mem_cons_self) fun a => ?_
    refine Moves.andThen (Moves.each fun j hj => h j (mem_cons_of_mem _ hj)) fun as => ?_
    exact Moves.pure _

/-- The rest of a program runs on the values of its first part. -/
theorem Runs.bind (hx : Runs R Q x) (hf : ∀ a, Q a → Runs R Q' (f a)) : Runs R Q' (x >>= f) := by
  refine ⟨hx.1.bind hx.2 fun a ha => (hf a ha).1, fun s b t h => ?_⟩
  obtain ⟨a, s', hrun, hrest⟩ := bind_eq_ok.mp h
  exact (hf a (hx.2 s a s' hrun)).2 s' b t hrest

/-- `Runs.bind` when the value does not matter. -/
theorem Runs.andThen (hx : Moves R x) (hf : ∀ a, Runs R Q' (f a)) : Runs R Q' (x >>= f) :=
  Runs.bind (Q := fun _ => True) ⟨hx, fun _ _ _ _ => trivial⟩ fun a _ => hf a

theorem Runs.ofExcept_bind [Std.Refl R]
    (hf : ∀ a, r = .ok a → Runs R Q' (f a)) : Runs R Q' (Act.ofExcept r >>= f) :=
  Runs.bind (Q := fun a => r = .ok a) ⟨.ofExcept r, fun _ _ _ hrun => congrArg Prod.fst hrun⟩ hf

theorem Runs.each [Std.Refl R] {f : ι → Act ε σ α} :
    ∀ {is : List ι}, (∀ i ∈ is, Runs R Q (f i)) → Runs R (fun as => ∀ a ∈ as, Q a) (Act.each f is)
  | [], _ => .pure nofun
  | i :: is, h => by
    refine (h i mem_cons_self).bind fun a ha => ?_
    refine (Runs.each fun j hj => h j (mem_cons_of_mem _ hj)).bind fun as has => ?_
    exact .pure (forall_mem_cons.mpr ⟨ha, has⟩)

end Moves

/-! ## Components of a family of states -/

variable [DecidableEq ι] {x : Act ε V α} {s t : ι → V}

/-- Run `x` on component `i`. -/
def «at» (i : ι) (x : Act ε V α) : Act ε (ι → V) α := fun s =>
  ((x (s i)).1, Function.update s i (x (s i)).2)

theorem at_eq_ok :
    Act.at i x s = (.ok a, t) ↔ ∃ v, x (s i) = (.ok a, v) ∧ t = Function.update s i v := by
  unfold Act.at
  constructor
  · intro h
    obtain ⟨h1, h2⟩ := Prod.mk.injEq _ _ _ _ ▸ h
    exact ⟨(x (s i)).2, Prod.ext h1 rfl, h2.symm⟩
  · rintro ⟨v, hx, rfl⟩
    rw [hx]

theorem at_frame {j : ι} (h : j ≠ i) : (Act.at i x s).2 j = s j :=
  update_of_ne h _ _

/-- **One action on each of several distinct components**: when all succeed, each ran on its own
component, and the other components are untouched. -/
theorem each_at_ok {κ : Type} {idx : κ → ι} {f : κ → Act ε V α} :
    ∀ {ks : List κ} {s t : ι → V} {as : List α}, (ks.map idx).Nodup →
      each (fun k => Act.at (idx k) (f k)) ks s = (.ok as, t) →
      List.Forall₂ (fun k a => f k (s (idx k)) = (.ok a, t (idx k))) ks as ∧
        ∀ j, j ∉ ks.map idx → t j = s j
  | [], s, t, as, _, h => by
    cases h
    exact ⟨List.Forall₂.nil, fun _ _ => rfl⟩
  | k :: ks, s, t, as, hnd, h => by
    obtain ⟨a, s', as', hk, hrest, rfl⟩ := each_cons_eq_ok.mp h
    obtain ⟨v, hv, rfl⟩ := at_eq_ok.mp hk
    rw [map_cons, nodup_cons] at hnd
    obtain ⟨hall, hframe⟩ := each_at_ok hnd.2 hrest
    have htk : t (idx k) = v := by rw [hframe _ hnd.1, update_self]
    refine ⟨List.Forall₂.cons (by rw [htk]; exact hv) ?_, ?_⟩
    · -- the later components were not touched by the first action
      refine (forall₂_iff_get.mpr ?_)
      obtain ⟨hlen, hget⟩ := forall₂_iff_get.mp hall
      refine ⟨hlen, fun i h1 h2 => ?_⟩
      have hne : idx (ks.get ⟨i, h1⟩) ≠ idx k := fun e =>
        hnd.1 (e ▸ mem_map_of_mem (get_mem ks ⟨i, h1⟩))
      have := hget i h1 h2
      rwa [update_of_ne hne] at this
    · intro j hj
      rw [map_cons, mem_cons, not_or] at hj
      rw [hframe j hj.2, update_of_ne hj.1]

/-- If each action succeeds on its own component, they do one after the other. -/
theorem each_at_total {κ : Type} {idx : κ → ι} {f : κ → Act ε V α} :
    ∀ {ks : List κ} {s : ι → V}, (ks.map idx).Nodup →
      (∀ k ∈ ks, ∃ a v, f k (s (idx k)) = (.ok a, v)) →
      ∃ as t, each (fun k => Act.at (idx k) (f k)) ks s = (.ok as, t)
  | [], s, _, _ => ⟨[], s, rfl⟩
  | k :: ks, s, hnd, h => by
    rw [map_cons, nodup_cons] at hnd
    obtain ⟨a, v, hk⟩ := h k mem_cons_self
    -- the later components are not touched by the first action
    have hlater : ∀ k' ∈ ks, ∃ a' v',
        f k' (Function.update s (idx k) v (idx k')) = (.ok a', v') := by
      intro k' hk'
      have hne : idx k' ≠ idx k := fun e => hnd.1 (e ▸ mem_map_of_mem hk')
      rw [update_of_ne hne]
      exact h k' (mem_cons_of_mem _ hk')
    obtain ⟨as, t, hrest⟩ := each_at_total hnd.2 hlater
    exact ⟨a :: as, t, each_cons_eq_ok.mpr ⟨a, _, as, at_eq_ok.mpr ⟨v, hk, rfl⟩, hrest, rfl⟩⟩

/-- A loop over all components, when the action of each succeeds. -/
theorem each_all {n : Nat} {f : Fin n → Act ε V α} {s : Fin n → V}
    (h : ∀ d, ∃ a v, f d (s d) = (.ok a, v)) :
    ∃ as t, each (fun d => Act.at d (f d)) (finRange n) s = (.ok as, t) ∧
      ∀ d, ∃ a, f d (s d) = (.ok a, t d) := by
  have hnd : ((finRange n).map id).Nodup := by
    rw [map_id]
    exact nodup_finRange n
  obtain ⟨as, t, hrun⟩ : ∃ as t, each (fun d => Act.at (id d) (f d)) (finRange n) s = (.ok as, t) :=
    each_at_total hnd fun d _ => h d
  obtain ⟨hall, -⟩ := each_at_ok hnd hrun
  refine ⟨as, t, hrun, fun d => ?_⟩
  have hlen := hall.length_eq
  rw [length_finRange] at hlen
  refine ⟨_, forall₂_getElem? hall (i := d.val) (a := d) ?_ (getElem?_eq_getElem (hlen ▸ d.isLt))⟩
  rw [getElem?_eq_getElem (by simp), getElem_finRange]
  rfl

/-- **One attempt on every component**: each runs on its own component, whatever the others
answer. -/
theorem each_attempt {n : Nat} (x : Fin n → Act ε V α) (s : Fin n → V) :
    each (fun d => Act.at d (attempt (x d))) (finRange n) s =
      (.ok ((finRange n).map fun d => (x d (s d)).1), fun d => (x d (s d)).2) := by
  obtain ⟨as, t, h⟩ := each_total (f := fun d => Act.at d (attempt (x d)))
    (fun d s => ⟨_, _, rfl⟩) (finRange n) s
  have hnd : ((finRange n).map id).Nodup := by
    rw [map_id]
    exact nodup_finRange n
  have h' : each (fun d => Act.at (id d) (attempt (x d))) (finRange n) s = (.ok as, t) := h
  obtain ⟨hall, -⟩ := each_at_ok hnd h'
  have hruns : ∀ d a, attempt (x d) (s d) = (.ok a, t d) → a = (x d (s d)).1 ∧ t d = (x d (s d)).2 := by
    intro d a ha
    rw [attempt_apply, Prod.mk.injEq, Except.ok.injEq] at ha
    exact ⟨ha.1.symm, ha.2.symm⟩
  have has : as = (finRange n).map fun d => (x d (s d)).1 := by
    refine ext_getElem (by rw [← hall.length_eq, length_map]) fun i h₁ h₂ => ?_
    have hi : i < (finRange n).length := by rw [hall.length_eq]; exact h₁
    rw [getElem_map]
    exact (hruns _ _ (hall.get hi h₁)).1
  have ht : t = fun d => (x d (s d)).2 := by
    funext d
    have hi : (d : Nat) < (finRange n).length := by rw [length_finRange]; exact d.isLt
    have hget := hall.get hi (by rw [← hall.length_eq]; exact hi)
    have hd : (finRange n).get ⟨d, hi⟩ = d := by simp
    rw [hd] at hget
    exact (hruns d _ hget).2
  rw [h, has, ht]

/-- Every component moves along `R`. -/
def Pointwise (R : V → V → Prop) (s t : ι → V) : Prop := ∀ i, R (s i) (t i)

instance {R : V → V → Prop} [Std.Refl R] : Std.Refl (Pointwise R : (ι → V) → (ι → V) → Prop) :=
  ⟨fun s i => refl_of R (s i)⟩

instance {R : V → V → Prop} [IsTrans V R] : IsTrans (ι → V) (Pointwise R) :=
  ⟨fun _ _ _ hab hbc i => IsTrans.trans _ _ _ (hab i) (hbc i)⟩

theorem Moves.at {R : V → V → Prop} [Std.Refl R] (h : Moves R x) (i : ι) :
    Moves (Pointwise R) (Act.at i x) := by
  intro s j
  by_cases hj : j = i
  · subst hj
    have hself : (Act.at j x s).2 j = (x (s j)).2 := update_self _ _ _
    rw [hself]
    exact h (s j)
  · rw [at_frame hj]
    exact refl_of R (s j)

theorem Runs.at {R : V → V → Prop} [Std.Refl R] {Q : α → Prop} (h : Runs R Q x) (i : ι) :
    Runs (Pointwise R) Q (Act.at i x) := by
  refine ⟨h.1.at i, fun s a t hrun => ?_⟩
  obtain ⟨v, hv, -⟩ := at_eq_ok.mp hrun
  exact h.2 (s i) a v hv

end Act

end Abixio.Lib
