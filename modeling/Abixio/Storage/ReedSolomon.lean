import Abixio.Storage.Metadata

/-!
# The Reed–Solomon crate

The three entry points of `reed-solomon-erasure` the storage layer calls, over the byte code
`env.code data parity`: `ReedSolomon::new` (which shard counts it accepts), `encode` and
`reconstruct` with the checks they make before any arithmetic. `reconstruct` solves for the data
columns from the first `data` present shards and then recomputes missing parity. The checks are those of
the crate's version 6; the code itself is a parameter.

`rsReconstruct_eq` is what the decoders and the healer use: from enough shards of an encoding all
of it comes back. Empty shards are rejected before the counts are looked at
(`rsReconstruct_empty`).
-/

namespace Abixio

open List

/-- `ReedSolomon::new(data, parity)` over `galois_8`, whose order is 256. -/
def rsNew (data parity : Nat) : Except RsError Unit :=
  if data = 0 then .error .tooFewDataShards
  else if parity = 0 then .error .tooFewParityShards
  else if 256 < data + parity then .error .tooManyShards
  else .ok ()

/-- The shard counts `ReedSolomon::new` accepts. -/
def RsAccepts (data parity : Nat) : Prop := rsNew data parity = .ok ()

instance (data parity : Nat) : Decidable (RsAccepts data parity) :=
  decidable_of_iff (data ≠ 0 ∧ parity ≠ 0 ∧ data + parity ≤ 256) (by
    unfold RsAccepts rsNew
    split_ifs <;> simp <;> omega)

variable {data parity len k m : Nat}

theorem rsAccepts_iff : RsAccepts data parity ↔ 0 < data ∧ 0 < parity ∧ data + parity ≤ 256 := by
  unfold RsAccepts rsNew
  split_ifs <;> simp <;> omega

/-- `check_piece_count!(all => ..)`. -/
def checkPieceCount (total count : Nat) : Except RsError Unit :=
  if count < total then .error .tooFewShards
  else if total < count then .error .tooManyShards
  else .ok ()

/-- `check_slices!(multi => ..)`: the first shard is not empty and all have its length. -/
def checkSlices (shards : List Bytes) : Except RsError Unit :=
  let size := (shards.headD []).length
  if size = 0 then .error .emptyShard
  else if shards.any fun s => s.length ≠ size then .error .incorrectShardSize
  else .ok ()

/-- `ReedSolomon::encode`: the parity shards are overwritten. -/
def rsEncode (env : Env) (data parity : Nat) (shards : List Bytes) :
    Except RsError (List Bytes) := do
  checkPieceCount (data + parity) shards.length
  checkSlices shards
  .ok (Lib.encodeRows (env.code data parity) parity (shards.headD []).length (shards.take data))

/-- The length checks of `reconstruct`, in slot order: the common length of the shards seen so far
is carried along. -/
def checkPresent : List (Option Bytes) → Option Nat → Except RsError (Option Nat)
  | [], len => .ok len
  | none :: rest, len => checkPresent rest len
  | some s :: rest, len =>
    if s.length = 0 then .error .emptyShard
    else
      match len with
      | none => checkPresent rest (some s.length)
      | some l => if s.length ≠ l then .error .incorrectShardSize else checkPresent rest (some l)

/-- `ReedSolomon::reconstruct`. -/
def rsReconstruct (env : Env) (data parity : Nat) (slots : List (Option Bytes)) :
    Except RsError (List (Option Bytes)) := do
  checkPieceCount (data + parity) slots.length
  let len ← checkPresent slots none
  let present := (slots.filter Option.isSome).length
  if present = data + parity then .ok slots
  else if present < data then .error .tooFewShardsPresent
  else .ok ((Lib.reconstructRows (env.code data parity) data parity (len.getD 0) slots).map some)

/-! ## Specification -/

theorem checkPieceCount_ok {total count : Nat} (h : count = total) :
    checkPieceCount total count = .ok () := by
  unfold checkPieceCount
  rw [if_neg (by omega), if_neg (by omega)]

theorem headD_length {shards : List Bytes} (hne : shards ≠ []) (h : ∀ s ∈ shards, s.length = len) :
    (shards.headD []).length = len := by
  cases shards with
  | nil => exact absurd rfl hne
  | cons s _ => exact h s mem_cons_self

theorem checkSlices_ok {shards : List Bytes} (h0 : 0 < len) (hne : shards ≠ [])
    (h : ∀ s ∈ shards, s.length = len) : checkSlices shards = .ok () := by
  unfold checkSlices
  simp only [headD_length hne h]
  rw [if_neg (by omega), if_neg]
  simp only [any_eq_true, decide_eq_true_eq, not_exists, not_and, ne_eq, not_not]
  exact h

variable {env : Env}

/-- Encoding equally long, nonempty shards succeeds. -/
theorem rsEncode_ok {shards : List Bytes} (h0 : 0 < len)
    (hpos : 0 < data) (hcount : shards.length = data + parity) (h : ∀ s ∈ shards, s.length = len) :
    rsEncode env data parity shards =
      .ok (Lib.encodeRows (env.code data parity) parity len (shards.take data)) := by
  have hne : shards ≠ [] := ne_nil_of_length_pos (by omega)
  unfold rsEncode
  rw [checkPieceCount_ok hcount, checkSlices_ok h0 hne h, headD_length hne h]
  rfl

theorem checkPresent_ok (h0 : 0 < len) : ∀ {slots : List (Option Bytes)} (acc : Option Nat),
      (∀ s, some s ∈ slots → s.length = len) → (∀ l, acc = some l → l = len) →
      checkPresent slots acc = .ok (if slots.any Option.isSome then some len else acc)
  | [], acc, _, _ => rfl
  | none :: rest, acc, h, hacc => by
    unfold checkPresent
    rw [checkPresent_ok h0 acc (fun s hs => h s (mem_cons_of_mem _ hs)) hacc]
    simp
  | some s :: rest, acc, h, hacc => by
    have hs : s.length = len := h s mem_cons_self
    have hrest := checkPresent_ok h0 (some len)
      (fun s hs => h s (mem_cons_of_mem _ hs)) (fun l hl => (Option.some.inj hl).symm)
    unfold checkPresent
    rw [if_neg (by omega)]
    cases acc with
    | none =>
      simp only [hs, hrest]
      simp
    | some l =>
      have hl : l = len := hacc l rfl
      subst hl
      simp only [hs, ne_eq, not_true_eq_false, if_false, hrest]
      simp

/-- A present empty shard is an error. -/
theorem checkPresent_empty :
    ∀ {slots : List (Option Bytes)} {acc : Option Nat},
      (∀ s, some s ∈ slots → s.length = 0) → (∃ s, some s ∈ slots) →
      checkPresent slots acc = .error .emptyShard
  | [], _, _, ⟨s, hs⟩ => absurd hs (by simp)
  | none :: rest, acc, h, ⟨s, hs⟩ => by
    unfold checkPresent
    refine checkPresent_empty (fun s hs => h s (mem_cons_of_mem _ hs)) ⟨s, ?_⟩
    simpa using hs
  | some s :: rest, acc, h, _ => by
    unfold checkPresent
    rw [if_pos (h s mem_cons_self)]

/-- So is one among others. -/
theorem checkPresent_of_nil :
    ∀ {slots : List (Option Bytes)} (acc : Option Nat), some [] ∈ slots →
      ∃ e, checkPresent slots acc = .error e
  | [], _, h => absurd h not_mem_nil
  | none :: rest, acc, h => by
    have hrest : some [] ∈ rest := by simpa using h
    unfold checkPresent
    exact checkPresent_of_nil acc hrest
  | some s :: rest, acc, h => by
    unfold checkPresent
    by_cases hs : s.length = 0
    · exact ⟨.emptyShard, if_pos hs⟩
    rw [if_neg hs]
    have hrest : some [] ∈ rest := by
      rcases mem_cons.mp h with heq | hrest
      · exact absurd (congrArg List.length (Option.some.inj heq).symm) hs
      · exact hrest
    cases acc with
    | none => exact checkPresent_of_nil _ hrest
    | some l =>
      by_cases hl : s.length ≠ l
      · exact ⟨.incorrectShardSize, if_pos hl⟩
      · obtain ⟨e, he⟩ := checkPresent_of_nil (some l) hrest
        exact ⟨e, (if_neg hl).trans he⟩

variable {slots : List (Option Bytes)}

/-- Reconstructing from empty shards fails. -/
theorem rsReconstruct_empty
    (hlen : slots.length = data + parity) (h : ∀ s, some s ∈ slots → s.length = 0)
    (hex : ∃ s, some s ∈ slots) : rsReconstruct env data parity slots = .error .emptyShard := by
  unfold rsReconstruct
  rw [checkPieceCount_ok hlen, checkPresent_empty h hex]
  rfl

/-- Reconstruction from some, but not all, of equally long shards. -/
theorem rsReconstruct_missing (hk0 : 0 < k) (hlen0 : 0 < len) (hslots : slots.length = k + m)
    (hpres : ∀ s, some s ∈ slots → s.length = len)
    (hcount : k ≤ (slots.filter Option.isSome).length)
    (hmissing : (slots.filter Option.isSome).length ≠ k + m) : rsReconstruct env k m slots =
      .ok ((Lib.reconstructRows (env.code k m) k m len slots).map some) := by
  have hany : slots.any Option.isSome = true := by
    obtain ⟨s, hs⟩ := exists_mem_of_length_pos (l := slots.filter Option.isSome) (by omega)
    exact any_eq_true.mpr ⟨s, (mem_filter.mp hs).1, (mem_filter.mp hs).2⟩
  unfold rsReconstruct
  rw [checkPieceCount_ok hslots, checkPresent_ok hlen0 none hpres (fun l hl => by cases hl),
    if_pos hany]
  simp only [bind, Except.bind]
  rw [if_neg hmissing, if_neg (by omega)]
  rfl

/-- **Reconstruction gives back every shard of an encoding** with nonempty shards, when at least
`data` of them are present. -/
theorem rsReconstruct_eq {rows : List Bytes}
    (hc : (env.code k m).Mds k m) (hk0 : 0 < k) (hk : rows.length = k)
    (hlen0 : 0 < len) (hrows : ∀ r ∈ rows, r.length = len) (hslots : slots.length = k + m)
    (hcons : ∀ (i : Nat) (r : Bytes), slots[i]? = some (some r) →
      r = (Lib.encodeRows (env.code k m) m len rows).getD i [])
    (hcount : k ≤ (slots.filter Option.isSome).length) : rsReconstruct env k m slots =
      .ok ((Lib.encodeRows (env.code k m) m len rows).map some) := by
  have hpres : ∀ s, some s ∈ slots → s.length = len := by
    intro s hs
    obtain ⟨i, hi, he⟩ := mem_iff_getElem.mp hs
    have := hcons i s (by rw [getElem?_eq_getElem hi, he])
    rw [this]
    have hi' : i < (Lib.encodeRows (env.code k m) m len rows).length := by simp; omega
    rw [getD_eq_getElem _ _ hi']
    exact Lib.encodeRows_row_length hrows (getElem_mem hi')
  by_cases hfull : (slots.filter Option.isSome).length = k + m
  · -- nothing is missing: the slots already are the encoding
    unfold rsReconstruct
    rw [checkPieceCount_ok hslots, checkPresent_ok hlen0 none hpres (fun l hl => by cases hl)]
    simp only [bind, Except.bind]
    rw [if_pos hfull]
    congr 1
    apply ext_getElem
    · simp; omega
    · intro i h1 h2
      have hall : ∀ a ∈ slots, a.isSome = true :=
        length_filter_eq_length_iff.mp (by rw [hfull, hslots])
      obtain ⟨s, hs⟩ := Option.isSome_iff_exists.mp (hall _ (getElem_mem h1))
      have hi' : i < (Lib.encodeRows (env.code k m) m len rows).length := by simpa using h2
      have := hcons i s (by rw [getElem?_eq_getElem h1, hs])
      rw [getElem_map, hs, this, getD_eq_getElem _ _ hi']
  · rw [rsReconstruct_missing hk0 hlen0 hslots hpres hcount hfull,
      Lib.reconstructRows_eq hc hk hslots hcons (by rw [Lib.presentRows_length]; exact hcount) hrows]

end Abixio
