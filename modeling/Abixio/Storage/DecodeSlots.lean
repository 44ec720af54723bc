import Abixio.Storage.ErasureDecode

/-!
# Slotting the shards of one object

The slotting loop of the decoders (`src/storage/erasure_decode.rs:91-107`, `164-181`, `406-421`),
when every valid shard the disks return belongs to one encoded object. `keepRows` is the list of
slots with some of an object's shards in place; `slotShards_slots` says that the loop computes it,
and `slotShards_meta` where its metadata comes from. `ObjectReads` describes disks that hold one
object, some of them damaged; `gatherShards_object` is what the decoders and the healer start from.
-/

namespace Abixio

open List

variable {rows : List Bytes} {env : Env}

/-- The slots of an object of which only the shards `keep` picks are there. -/
def keepRows (keep : Nat → Bool) (rows : List Bytes) : List (Option Bytes) :=
  rows.mapIdx fun i r => if keep i then some r else none

/-- The read returned a shard that passes its checksum. -/
def ShardRead.valid (env : Env) (read : ShardRead) : Bool :=
  match read with
  | .ok (data, m) => verifyShardChecksum env data m.checksum
  | .error _ => false

/-- The read returned a valid shard with index `i`. -/
def ShardRead.holds (env : Env) (i : Nat) (read : ShardRead) : Bool :=
  match read with
  | .ok (data, m) => verifyShardChecksum env data m.checksum && m.erasure.index == i
  | .error _ => false

section KeepRows

variable {keep : Nat → Bool}

@[simp] theorem keepRows_length (keep : Nat → Bool) (rows : List Bytes) :
    (keepRows keep rows).length = rows.length := by
  simp [keepRows]

theorem keepRows_getElem? (keep : Nat → Bool) (rows : List Bytes) (i : Nat) :
    (keepRows keep rows)[i]? = rows[i]?.map fun r => if keep i then some r else none := by
  simp [keepRows, getElem?_mapIdx]

theorem keepRows_none (rows : List Bytes) :
    keepRows (fun _ => false) rows = replicate rows.length none := by
  refine ext_getElem (by simp) fun i h1 h2 => ?_
  simp [keepRows]

/-- Filling slot `i` with its own shard. -/
theorem keepRows_set (keep : Nat → Bool) {i : Nat} (hi : i < rows.length) :
    (keepRows keep rows).set i (some (rows.getD i [])) =
      keepRows (fun j => keep j || i == j) rows := by
  refine ext_getElem (by simp) fun j h1 h2 => ?_
  rw [getElem_set]
  split
  · rename_i hij
    subst hij
    simp [keepRows, getElem?_eq_getElem hi]
  · rename_i hij
    simp [keepRows, hij]

/-- A slot that is filled holds its own shard. -/
theorem keepRows_some {i : Nat} {r : Bytes} (h : (keepRows keep rows)[i]? = some (some r)) :
    r = rows.getD i [] := by
  rw [keepRows_getElem?, Option.map_eq_some_iff] at h
  obtain ⟨r', hr', hkeep⟩ := h
  split at hkeep
  · rw [getD_eq_getElem?_getD, hr']
    exact (Option.some.inj hkeep).symm
  · cases hkeep

theorem mem_of_mem_keepRows {r : Bytes} (h : some r ∈ keepRows keep rows) : r ∈ rows := by
  obtain ⟨i, hi⟩ := mem_iff_getElem?.mp h
  rw [keepRows_getElem?, Option.map_eq_some_iff] at hi
  obtain ⟨r', hr', hkeep⟩ := hi
  split at hkeep
  · rw [← Option.some.inj hkeep]
    exact mem_of_getElem? hr'
  · cases hkeep

theorem keepRows_eq_map (keep : Nat → Bool) (rows : List Bytes) : keepRows keep rows =
      (range rows.length).map fun i => if keep i then some (rows.getD i []) else none := by
  refine ext_getElem (by simp) fun i h1 h2 => ?_
  have hi : i < rows.length := by simpa using h1
  simp [keepRows, getElem?_eq_getElem hi]

theorem keepRows_congr {keep keep' : Nat → Bool} {rows : List Bytes}
    (h : ∀ i < rows.length, keep i = keep' i) : keepRows keep rows = keepRows keep' rows := by
  rw [keepRows_eq_map, keepRows_eq_map]
  refine map_congr_left fun i hi => ?_
  rw [h i (mem_range.mp hi)]

/-- The present rows are the kept ones. -/
theorem presentRows_keepRows (keep : Nat → Bool) (rows : List Bytes) :
    Lib.presentRows (keepRows keep rows) =
      ((range rows.length).filter keep).map fun i => (i, rows.getD i []) := by
  rw [keepRows_eq_map, Lib.presentRows_map_range, ← filterMap_eq_map', filterMap_filter]
  refine filterMap_congr fun i _ => ?_
  cases keep i <;> rfl

theorem keepRows_count (keep : Nat → Bool) (rows : List Bytes) :
    ((keepRows keep rows).filter Option.isSome).length =
      ((range rows.length).filter keep).length := by
  rw [keepRows_eq_map, filter_map, length_map]
  congr 1
  refine filter_congr fun i _ => ?_
  simp only [Function.comp]
  cases keep i <;> rfl

/-- Empty shards cannot be reconstructed. -/
theorem rsReconstruct_keepRows {env : Env} {dataN parityN : Nat} (hlen : rows.length = dataN + parityN)
    (hempty : ∀ r ∈ rows, r.length = 0) (hpos : 0 < ((range rows.length).filter keep).length) :
    rsReconstruct env dataN parityN (keepRows keep rows) = .error .emptyShard := by
  refine rsReconstruct_empty ((keepRows_length keep rows).trans hlen)
    (fun s hs => hempty s (mem_of_mem_keepRows hs)) ?_
  rw [← keepRows_count] at hpos
  obtain ⟨s, hs⟩ := exists_mem_of_length_pos hpos
  obtain ⟨hmem, hsome⟩ := mem_filter.mp hs
  obtain ⟨r, rfl⟩ := Option.isSome_iff_exists.mp hsome
  exact ⟨r, hmem⟩

theorem keepRows_all (rows : List Bytes) (h : ∀ i < rows.length, keep i = true) :
    keepRows keep rows = rows.map some := by
  refine ext_getElem (by simp) fun i h1 h2 => ?_
  have hi : i < rows.length := by simpa using h1
  simp [keepRows, h i hi]

end KeepRows

/-! ## The slotting loop -/

variable {reads : List ShardRead} {m : ObjectMeta} {data : Bytes}

section Slotting

variable {total : Nat}

/-- **One turn of the loop** fills the slot of the shard it reads, if that shard is valid. -/
theorem slotShard_slots {keep : Nat → Bool} {read : ShardRead} (hrows : rows.length = total)
    (hown : ∀ data m, read = .ok (data, m) → verifyShardChecksum env data m.checksum = true →
      m.erasure.index < total → data = rows.getD m.erasure.index [])
    {acc : List (Option Bytes) × Option ObjectMeta} (hacc : acc.1 = keepRows keep rows) :
    (slotShard env total acc read).1 = keepRows (fun i => keep i || read.holds env i) rows := by
  -- a read that fills nothing leaves every in-range slot as it was
  have hsame : (∀ i < total, read.holds env i = false) →
      acc.1 = keepRows (fun i => keep i || read.holds env i) rows := by
    intro hno
    rw [hacc]
    refine ext_getElem (by simp) fun i h1 h2 => ?_
    simp [keepRows, hno i (by simpa [hrows] using h1)]
  unfold slotShard
  cases read with
  | error e => exact hsame fun i _ => rfl
  | ok p =>
    obtain ⟨data, m⟩ := p
    simp only
    split
    · rename_i hv
      split
      · rename_i hi
        have hset := keepRows_set keep (show m.erasure.index < rows.length by omega)
        rw [← hown data m rfl hv hi, ← hacc] at hset
        have hholds : (fun j => ShardRead.holds env j (.ok (data, m))) =
            fun j => m.erasure.index == j := by
          funext j
          simp [ShardRead.holds, hv]
        rw [funext_iff] at hholds
        simp only [hset, hholds]
      · rename_i hi
        refine hsame fun i hlt => ?_
        have hne : (m.erasure.index == i) = false := by simp; omega
        simp [ShardRead.holds, hne]
    · rename_i hv
      exact hsame fun i _ => by simp [ShardRead.holds, hv]

/-- **The whole loop**, started with any slots of the object filled. -/
theorem slotShards_run (hrows : rows.length = total) :
    ∀ {reads : List ShardRead} {keep : Nat → Bool}
      {acc : List (Option Bytes) × Option ObjectMeta},
      (∀ data m, .ok (data, m) ∈ reads → verifyShardChecksum env data m.checksum = true →
        m.erasure.index < total → data = rows.getD m.erasure.index []) →
      acc.1 = keepRows keep rows →
      (reads.foldl (slotShard env total) acc).1 =
        keepRows (fun i => keep i || reads.any (ShardRead.holds env i)) rows
  | [], keep, acc, _, hacc => by simpa using hacc
  | read :: reads, keep, acc, hown, hacc => by
    have hstep := slotShard_slots hrows
      (fun data m (hr : read = .ok (data, m)) => hown data m (hr ▸ mem_cons_self)) hacc
    have hrest := slotShards_run hrows
      (fun data m hm => hown data m (mem_cons_of_mem _ hm)) hstep
    rw [foldl_cons, hrest]
    simp only [any_cons, Bool.or_assoc]

theorem slotShards_slots (hrows : rows.length = total)
    (hown : ∀ data m, .ok (data, m) ∈ reads → verifyShardChecksum env data m.checksum = true →
      m.erasure.index < total → data = rows.getD m.erasure.index []) :
    (slotShards env total reads).1 =
      keepRows (fun i => reads.any (ShardRead.holds env i)) rows := by
  have hinit : (replicate total none : List (Option Bytes)) =
      keepRows (fun _ => false) rows := by
    rw [keepRows_none, hrows]
  unfold slotShards
  rw [slotShards_run hrows hown hinit]
  simp only [Bool.false_or]

/-- The metadata slotted is that of some valid shard in range. -/
theorem slotShards_meta (h : (slotShards env total reads).2 = some m) :
    ∃ data, .ok (data, m) ∈ reads ∧ verifyShardChecksum env data m.checksum = true ∧
      m.erasure.index < total := by
  have key : ∀ (reads : List ShardRead) (acc : List (Option Bytes) × Option ObjectMeta),
      (reads.foldl (slotShard env total) acc).2 = some m → acc.2 = some m ∨
        ∃ data, .ok (data, m) ∈ reads ∧ verifyShardChecksum env data m.checksum = true ∧
          m.erasure.index < total := by
    intro reads
    induction reads with
    | nil => exact fun acc h => Or.inl h
    | cons read reads ih =>
      intro acc h
      rcases ih (slotShard env total acc read) h with h | ⟨data, hmem, hv, hi⟩
      · unfold slotShard at h
        cases read with
        | error e => exact Or.inl h
        | ok p =>
          obtain ⟨data, m'⟩ := p
          simp only at h
          split_ifs at h with hv hi hnone
          · cases h
            exact Or.inr ⟨data, mem_cons_self, hv, hi⟩
          all_goals exact Or.inl h
      · exact Or.inr ⟨data, mem_cons_of_mem _ hmem, hv, hi⟩
  rcases key reads _ h with h | h
  · cases h
  · exact h

/-- Metadata once found are kept. -/
theorem foldl_slotShard_meta (reads : List ShardRead) :
    ∀ {acc : List (Option Bytes) × Option ObjectMeta},
      acc.2 = some m → (reads.foldl (slotShard env total) acc).2 = some m := by
  induction reads with
  | nil => exact id
  | cons read reads ih =>
    intro acc h
    refine ih ?_
    cases read with
    | error e => exact h
    | ok p =>
      simp only [slotShard, h]
      split_ifs <;> simp_all

variable (hv : verifyShardChecksum env data m.checksum = true) (hi : m.erasure.index < total)

include hv hi in
/-- A valid shard in range gives the loop its metadata. -/
theorem slotShards_meta_isSome (hmem : .ok (data, m) ∈ reads) :
    (slotShards env total reads).2.isSome = true := by
  have key : ∀ (reads : List ShardRead) (acc : List (Option Bytes) × Option ObjectMeta),
      .ok (data, m) ∈ reads → (reads.foldl (slotShard env total) acc).2.isSome = true := by
    intro reads
    induction reads with
    | nil => exact fun acc h => absurd h (by simp)
    | cons read reads ih =>
      intro acc h
      rcases mem_cons.mp h with rfl | h
      · obtain ⟨o, ho⟩ : ∃ o, (slotShard env total acc (.ok (data, m))).2 = some o := by
          simp only [slotShard, hv, if_true, if_pos hi]
          cases acc.2 <;> simp
        rw [foldl_cons, foldl_slotShard_meta reads ho]
        rfl
      · exact ih _ h
  exact key reads _ hmem

include hv hi in
/-- The metadata is that of the first read, when that is a valid shard in range. -/
theorem slotShards_meta_head : (slotShards env total (.ok (data, m) :: reads)).2 = some m :=
  foldl_slotShard_meta reads (by simp [slotShard, hv, hi])

end Slotting

/-! ## Disks that hold one object -/

section Object

variable {n : Nat} {reads : Fin n → ShardRead} {distribution : List (Fin n)} {metas : Nat → ObjectMeta}
  {lost : Finset (Fin n)} {dataN parityN : Nat}

/-- Shard `i` is on a disk that is not lost. -/
def survives (distribution : List (Fin n)) (lost : Finset (Fin n)) (i : Nat) : Bool :=
  match distribution[i]? with
  | some d => d ∉ lost
  | none => false

/-- **The disks hold one object**: disk `distribution[i]` returns shard `i` with its own metadata,
unless it is lost; a lost disk, and a disk outside the distribution, returns nothing valid. -/
structure ObjectReads (env : Env) (reads : Fin n → ShardRead) (distribution : List (Fin n))
    (rows : List Bytes) (metas : Nat → ObjectMeta) (lost : Finset (Fin n)) : Prop where
  nodup : distribution.Nodup
  length : rows.length = distribution.length
  index : ∀ i < rows.length, (metas i).erasure.index = i
  checksum : ∀ i < rows.length, verifyShardChecksum env (rows.getD i []) (metas i).checksum = true
  kept : ∀ (i : Nat) (d : Fin n), distribution[i]? = some d → d ∉ lost →
    reads d = .ok (rows.getD i [], metas i)
  damaged : ∀ d, d ∈ lost ∨ d ∉ distribution → (reads d).valid env = false

section

variable (h : ObjectReads env reads distribution rows metas lost)
include h

theorem ObjectReads.lt_length {d : Fin n} {i : Nat} (hi : distribution[i]? = some d) :
    i < rows.length := by
  rw [h.length]
  exact (List.getElem?_eq_some_iff.mp hi).1

/-- A valid read is the disk's own shard. -/
theorem ObjectReads.valid_read {d : Fin n} (hd : reads d = .ok (data, m))
    (hv : verifyShardChecksum env data m.checksum = true) :
    ∃ i < rows.length, distribution[i]? = some d ∧ d ∉ lost ∧ data = rows.getD i [] ∧
      m = metas i := by
  have hvalid : (reads d).valid env = true := by rw [hd]; exact hv
  have hkept : ¬ (d ∈ lost ∨ d ∉ distribution) := fun hdam =>
    absurd hvalid (by rw [h.damaged d hdam]; decide)
  rw [not_or, not_not] at hkept
  obtain ⟨i, hi⟩ := mem_iff_getElem?.mp hkept.2
  have hread := h.kept i d hi hkept.1
  rw [hd, Except.ok.injEq, Prod.mk.injEq] at hread
  exact ⟨i, h.lt_length hi, hi, hkept.1, hread.1, hread.2⟩

theorem ObjectReads.own : ∀ data m, .ok (data, m) ∈ (finRange n).map reads →
      verifyShardChecksum env data m.checksum = true → m.erasure.index < rows.length →
      data = rows.getD m.erasure.index [] := by
  intro data m hmem hv _
  obtain ⟨d, -, hd⟩ := mem_map.mp hmem
  obtain ⟨i, hi, -, -, rfl, rfl⟩ := h.valid_read hd hv
  rw [h.index i hi]

/-- A slot is filled exactly when the disk of its shard is not lost. -/
theorem ObjectReads.holds_iff (i : Nat) :
    ((finRange n).map reads).any (ShardRead.holds env i) = survives distribution lost i := by
  rw [Bool.eq_iff_iff, any_eq_true]
  unfold survives
  constructor
  · rintro ⟨read, hmem, hholds⟩
    obtain ⟨d, -, rfl⟩ := mem_map.mp hmem
    unfold ShardRead.holds at hholds
    split at hholds
    · rename_i data m hd
      rw [Bool.and_eq_true, beq_iff_eq] at hholds
      obtain ⟨j, hlt, hj, hlost, -, rfl⟩ := h.valid_read hd hholds.1
      rw [h.index j hlt] at hholds
      rw [← hholds.2, hj]
      exact decide_eq_true hlost
    · cases hholds
  · intro hsurv
    split at hsurv
    · rename_i d hd
      have hlost := of_decide_eq_true hsurv
      have hlt : i < rows.length := by
        rw [h.length]
        exact (List.getElem?_eq_some_iff.mp hd).1
      refine ⟨reads d, mem_map_of_mem (mem_finRange d), ?_⟩
      rw [h.kept i d hd hlost]
      simp only [ShardRead.holds, h.checksum i hlt, h.index i hlt, beq_self_eq_true, Bool.and_self]
    · cases hsurv

theorem ObjectReads.slots : (slotShards env rows.length ((finRange n).map reads)).1 =
      keepRows (survives distribution lost) rows := by
  rw [slotShards_slots rfl h.own]
  simp only [h.holds_iff]

end

/-- The number of surviving shards. -/
theorem survives_count (distribution : List (Fin n)) (lost : Finset (Fin n)) :
    ((range distribution.length).filter (survives distribution lost)).length =
      (distribution.filter (· ∉ lost)).length := by
  have hmap : distribution = (finRange distribution.length).map distribution.get := by simp
  have hrange : range distribution.length =
      (finRange distribution.length).map Fin.val := by simp
  conv_rhs => rw [hmap, filter_map, length_map]
  rw [hrange, filter_map, length_map]
  congr 1
  refine filter_congr fun i _ => ?_
  simp [survives, Function.comp]

/-- A shard survives, or its disk is among the lost ones. -/
theorem survives_count_add (hnd : distribution.Nodup) (lost : Finset (Fin n)) :
    ((range distribution.length).filter (survives distribution lost)).length +
      (lost.filter (· ∈ distribution)).card = distribution.length := by
  have hin : (distribution.filter fun d => decide (d ∈ lost)).length =
      (lost.filter (· ∈ distribution)).card := by
    rw [← toFinset_card_of_nodup (hnd.filter _)]
    congr 1
    ext d
    simp [and_comm]
  have hsplit := length_eq_length_filter_add (l := distribution) fun d => decide (d ∈ lost)
  have hnot : (distribution.filter (· ∉ lost)) = distribution.filter fun d => !decide (d ∈ lost) := by
    refine filter_congr fun d _ => ?_
    simp
  rw [survives_count, hnot]
  omega

/-- Losing few disks leaves many shards. -/
theorem le_survives_count (hnd : distribution.Nodup)
    (hlen : distribution.length = dataN + parityN) (hlost : lost.card ≤ parityN) :
    dataN ≤ ((range distribution.length).filter (survives distribution lost)).length := by
  have hadd := survives_count_add hnd lost
  have hle := Finset.card_filter_le lost (· ∈ distribution)
  omega

variable (h : ObjectReads env reads distribution rows metas lost)

include h in
/-- The surviving shards are on disks that return something valid. -/
theorem survives_count_le : ((range rows.length).filter (survives distribution lost)).length ≤
      (Finset.univ.filter fun d => (reads d).valid env = true).card := by
  rw [h.length, survives_count, ← toFinset_card_of_nodup (h.nodup.filter _)]
  refine Finset.card_le_card fun d hd => ?_
  obtain ⟨hmem, hlost⟩ := mem_filter.mp (mem_toFinset.mp hd)
  obtain ⟨i, hi⟩ := mem_iff_getElem?.mp hmem
  rw [Finset.mem_filter, h.kept i d hi (of_decide_eq_true hlost)]
  exact ⟨Finset.mem_univ d, h.checksum i (h.lt_length hi)⟩

include h in
/-- **Enough surviving shards**: the decoders get the object's slots, and metadata of one of its
shards. -/
theorem gatherShards_object (hlen : rows.length = dataN + parityN) (hd : 0 < dataN)
    (hcount : dataN ≤ ((range rows.length).filter (survives distribution lost)).length) :
    ∃ j, gatherShards env dataN parityN ((finRange n).map reads) =
      .ok (keepRows (survives distribution lost) rows, metas j) := by
  obtain ⟨i, hi⟩ := exists_mem_of_length_pos (Nat.lt_of_lt_of_le hd hcount)
  rw [mem_filter, mem_range] at hi
  obtain ⟨hlt, hsurv⟩ := hi
  unfold survives at hsurv
  split at hsurv
  · rename_i d hdist
    have hread := h.kept i d hdist (of_decide_eq_true hsurv)
    have hmem : .ok (rows.getD i [], metas i) ∈ (finRange n).map reads :=
      hread ▸ mem_map_of_mem (mem_finRange d)
    have hany : ((finRange n).map reads).any Except.isOk = true :=
      any_eq_true.mpr ⟨_, hmem, rfl⟩
    have hsome := slotShards_meta_isSome (h.checksum i hlt) (by rw [h.index i hlt]; exact hlt) hmem
    obtain ⟨m, hm⟩ := Option.isSome_iff_exists.mp hsome
    obtain ⟨data, hmem', hv, -⟩ := slotShards_meta hm
    obtain ⟨d', -, hd'⟩ := mem_map.mp hmem'
    obtain ⟨j, -, -, -, -, rfl⟩ := h.valid_read hd' hv
    refine ⟨j, ?_⟩
    unfold gatherShards
    rw [if_pos hany, ← hlen]
    simp only [hm, h.slots, keepRows_count]
    rw [if_neg (by omega)]
  · cases hsurv

/-- **No shard lost**: all slots are filled, and the metadata is that of the first disk. -/
theorem gatherShards_first {k : Nat} {reads : Fin (k + 1) → ShardRead}
    {distribution : List (Fin (k + 1))} (h : ObjectReads env reads distribution rows metas ∅)
    (hlen : rows.length = dataN + parityN) {i : Nat} (hi : distribution[i]? = some 0) :
    gatherShards env dataN parityN ((finRange (k + 1)).map reads) =
      .ok (rows.map some, metas i) := by
  have hlt := h.lt_length hi
  have hread := h.kept i 0 hi (Finset.notMem_empty _)
  have hslots := h.slots
  rw [keepRows_all _ fun j hj => by
    unfold survives
    rw [getElem?_eq_getElem (h.length ▸ hj)]
    simp] at hslots
  have hmeta : (slotShards env rows.length ((finRange (k + 1)).map reads)).2 =
      some (metas i) := by
    rw [finRange_succ, map_cons, hread]
    exact slotShards_meta_head (h.checksum i hlt) (by rw [h.index i hlt]; exact hlt)
  have hany : ((finRange (k + 1)).map reads).any Except.isOk = true :=
    any_eq_true.mpr ⟨reads 0, mem_map_of_mem (mem_finRange 0), by rw [hread]; rfl⟩
  unfold gatherShards
  rw [if_pos hany, ← hlen]
  have hcount : ((rows.map some).filter Option.isSome).length = rows.length := by
    simp [filter_map, Function.comp_def]
  simp only [hmeta, hslots, hcount]
  rw [if_neg (by omega)]

include h in
/-- **Too few surviving shards**: an error. -/
theorem gatherShards_lost (hlen : rows.length = dataN + parityN)
    (hcount : ((range rows.length).filter (survives distribution lost)).length < dataN) :
    ∃ e, gatherShards env dataN parityN ((finRange n).map reads) = .error e := by
  unfold gatherShards
  split
  · rw [← hlen]
    simp only [h.slots, keepRows_count]
    split
    · exact ⟨_, rfl⟩
    · rw [if_pos hcount]
      exact ⟨_, rfl⟩
  · exact ⟨_, rfl⟩

end Object

end Abixio
