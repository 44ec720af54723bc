import Abixio.Heal.Restore

/-!
# Several PUTs on the disks

The vote of `find_consensus_meta` (`src/heal/worker.rs:150-178`) when the disks hold shards of different
PUTs of a key. `Assigned` is any such state: each disk returns nothing, or the metadata of its shard of
one of the PUTs with data that is that shard unless its checksum fails. No two of the PUTs agree in all
the fields of `quorum_eq` and differ in their shards: otherwise "the object of the consensus" has no
meaning.

`Assigned.healsTo`: the consensus is the metadata of one of the PUTs, and the shards that are kept are
that PUT's own, but the layout is that of the first disk that answers. `EachHolds` is the state in which
no shard is damaged: every disk has a vote, that of the PUT it holds (`EachHolds.votes`).
-/

namespace Abixio

open List

variable {n : Nat} {env : Env} {planner : PoolPlanner n} {bucket key : String} {V W : Type} [Backend V W]
  {s : Disks V n}

/-- The PUTs agree in all the fields that `quorum_eq` compares. -/
def Generation.agrees {n : Nat} (env : Env) (g g' : Generation n) : Bool :=
  (g.metaOf env 0).quorumEq (g'.metaOf env 0)

section Generations

variable {g g' : Generation n}

/-- `quorum_eq` does not see which shard the metadata is of. -/
theorem Generation.quorumEq_metaOf (env : Env) (g g' : Generation n) (i j : Nat) :
    (g.metaOf env i).quorumEq (g'.metaOf env j) = g.agrees env g' := rfl

theorem Generation.agrees_self (env : Env) (g : Generation n) : g.agrees env g = true :=
  ObjectMeta.quorumEq_equivalence.refl _

theorem Generation.agrees_comm (env : Env) (g g' : Generation n) :
    g.agrees env g' = g'.agrees env g := by
  rw [Bool.eq_iff_iff]
  exact ⟨ObjectMeta.quorumEq_equivalence.symm, ObjectMeta.quorumEq_equivalence.symm⟩

theorem Generation.agrees_symm (h : g.agrees env g' = false) : g'.agrees env g = false := by
  rw [agrees_comm, h]

section

variable (h : g.Stored env planner bucket key)
include h

/-- The shards of a PUT are an encoding, on either path. -/
theorem Generation.Stored.encodes : ∃ len, Encodes env g.dataN g.parityN len g.rows := by
  rcases h.rows_eq with hr | ⟨-, hr⟩
  · rw [hr]
    exact ⟨_, encodes_encodeObject env _ _ _⟩
  rw [smallShards_ok h.data_pos hr]
  by_cases hone : g.dataN = 1 ∧ g.parityN = 0
  · rw [if_pos hone, hone.1, hone.2]
    exact ⟨g.body.length, rfl, by simp, by simp [Lib.encodeRows, Lib.parityRows]⟩
  · rw [if_neg hone]
    refine ⟨shardSize g.body.length g.dataN, encodeBlock_length _,
      fun r hr => length_of_mem_encodeBlock hr, ?_⟩
    unfold encodeBlock
    rw [show (Lib.encodeRows (env.code g.dataN g.parityN) g.parityN (shardSize g.body.length g.dataN)
      (Lib.pieces g.dataN (shardSize g.body.length g.dataN) g.body)).take g.dataN =
        Lib.pieces g.dataN (shardSize g.body.length g.dataN) g.body from by
      unfold Lib.encodeRows
      rw [take_left' (Lib.pieces_length _ _ _)]]

theorem Generation.Stored.data_metaOf (i : Nat) :
    (g.metaOf env i).erasure.data = g.dataN := (Prod.mk.inj (h.layout i)).1

theorem Generation.Stored.parity_metaOf (i : Nat) :
    (g.metaOf env i).erasure.parity = g.parityN := (Prod.mk.inj (h.layout i)).2

end

end Generations

section Assigned

variable {puts : Set (Generation n)}

variable {fst : ObjectMeta} {data : Bytes} {reads : List HealRead}

/-- **Each disk holds nothing, a damaged shard or an intact shard of one of the PUTs.** -/
structure Assigned (env : Env) (planner : PoolPlanner n) (bucket key : String)
    (puts : Set (Generation n)) (disks : Disks V n) : Prop where
  stored : ∀ g ∈ puts, g.Stored env planner bucket key
  same : ∀ g ∈ puts, ∀ g' ∈ puts, g.agrees env g' = true → g.rows = g'.rows
  read : ∀ d data m, Backend.readShard bucket key (disks d) = .ok (data, m) →
    ∃ g ∈ puts, ∃ i : Nat, (planner.distribution env bucket key n)[i]? = some d ∧
      m = g.metaOf env i ∧
      (verifyShardChecksum env data m.checksum = true → data = g.rows.getD i [])

variable (h : Assigned env planner bucket key puts s)

include h in
/-- Every metadata that a heal reads is that of a PUT. -/
theorem Assigned.metas {m : ObjectMeta} (hm : m ∈ readMetas (healReads bucket key s)) :
    ∃ g ∈ puts, ∃ i, m = g.metaOf env i := by
  obtain ⟨data, hdata⟩ := mem_readMetas.mp hm
  obtain ⟨d, hd⟩ := mem_healReadsOf.mp hdata
  obtain ⟨g, hg, i, -, hi, -⟩ := h.read d data m hd
  exact ⟨g, hg, i, hi⟩

theorem first_head (h : reads.findSome? id = some (data, fst)) : (readMetas reads).head? = some fst := by
  unfold readMetas
  rw [head?_map, head?_filterMap, h]
  rfl

include h in
/-- **The consensus is the metadata of one of the PUTs, and the shards kept are its own.** -/
theorem Assigned.healsTo {consensus : ObjectMeta}
    (hfirst : (healReads bucket key s).findSome? id = some (data, fst))
    (hvote : findConsensusMeta (healReads bucket key s) fst.erasure.data = .ok consensus) :
    ∃ g ∈ puts, (∃ i, consensus = g.metaOf env i) ∧
      HealsTo env (healReads bucket key s) consensus fst.erasure.data fst.erasure.parity
        g.rows := by
  obtain ⟨g, hg, i, rfl⟩ := h.metas (findConsensusMeta_ok hvote).1.mem
  obtain ⟨g₁, hg₁, i₁, rfl⟩ := h.metas (first_mem hfirst)
  refine ⟨g, hg, ⟨i, rfl⟩, ⟨data, _, hfirst, rfl, rfl⟩, hvote, ?_, ?_⟩
  · rw [(h.stored g₁ hg₁).data_metaOf, (h.stored g₁ hg₁).parity_metaOf, (h.stored g₁ hg₁).total]
    exact (h.stored g hg).rows_length
  · intro data' m hmem hq hv
    obtain ⟨d, hd⟩ := mem_healReadsOf.mp hmem
    obtain ⟨g', hg', l, -, rfl, hdata⟩ := h.read d data' m hd
    rw [hdata hv, h.same g' hg' g hg hq]
    rfl

include h in
/-- With more disks than the code takes shards, nothing is rebuilt. -/
theorem Assigned.healWrites_of_many (hmany : 256 < n) : healWrites env bucket key s = [] := by
  refine eq_nil_iff_forall_not_mem.mpr fun w hw => ?_
  obtain ⟨c, repairs, hplan, -⟩ := mem_healWrites hw
  obtain ⟨data, fst, c₀, hfirst, hc⟩ := healPlan_ok hplan
  obtain ⟨g, -, -, hheals⟩ := h.healsTo hfirst hc
  obtain ⟨g₁, hg₁, i₁, rfl⟩ := h.metas (first_mem hfirst)
  have hs₁ := h.stored g₁ hg₁
  rw [hs₁.data_metaOf, hs₁.parity_metaOf] at hheals
  have hsum := (rsAccepts_iff.mp (hheals.rebuilt hplan).1).2.2
  have htotal := hs₁.total
  omega

end Assigned

/-! ## Every disk answers -/

section Votes

/-- The metadata read when every disk answers, in the order of the disks. -/
theorem readMetas_of_ok {reads : Fin n → ShardRead} {p : Fin n → Bytes × ObjectMeta}
    (h : ∀ d, reads d = .ok (p d)) :
    readMetas (healReadsOf reads) = (finRange n).map fun d => (p d).2 := by
  unfold readMetas healReadsOf
  have hread : (fun d => (reads d).toOption) = fun d => some (p d) := by
    funext d
    rw [h d]
    rfl
  rw [hread, filterMap_map]
  simp [Function.comp_def, filterMap_eq_map']

theorem countP_finRange (p : Fin n → Bool) :
    (finRange n).countP p = (Finset.univ.filter fun d => p d = true).card := by
  rw [countP_eq_length_filter, ← toFinset_card_of_nodup ((nodup_finRange n).filter _)]
  congr 1
  ext d
  simp

/-- As many positions are kept as there are holders. -/
theorem positions_count {holders : Finset (Fin n)} {distribution : List (Fin n)} {keep : Nat → Bool}
    (hnd : distribution.Nodup) (hindex : ∀ d, ∃ i : Nat, distribution[i]? = some d)
    (hkeep : ∀ i d, distribution[i]? = some d → keep i = decide (d ∈ holders)) :
    ((range distribution.length).filter keep).length = holders.card := by
  have hmem : ∀ d ∈ holdersᶜ, d ∈ distribution :=
    fun d _ => mem_iff_getElem?.mpr (hindex d)
  have hlen : distribution.length = n := by
    have huniv : distribution.toFinset = Finset.univ := by
      ext d
      simpa using mem_iff_getElem?.mpr (hindex d)
    rw [← toFinset_card_of_nodup hnd, huniv, Finset.card_univ, Fintype.card_fin]
  have hsurv : (range distribution.length).filter keep =
      (range distribution.length).filter (survives distribution holdersᶜ) := by
    refine filter_congr fun i hi => ?_
    have hd := getElem?_eq_getElem (mem_range.mp hi)
    rw [hkeep i _ hd]
    unfold survives
    rw [hd]
    simp
  have hcard := survives_count_eq hnd hmem
  rw [Finset.card_compl, Fintype.card_fin] at hcard
  have hle := Finset.card_le_univ holders
  rw [Fintype.card_fin] at hle
  rw [hsurv]
  omega

end Votes

section EachHolds

variable {gen : Fin n → Generation n}

/-- **Each disk holds an intact shard of the PUT `gen` names for it.** -/
structure EachHolds (env : Env) (planner : PoolPlanner n) (bucket key : String)
    (gen : Fin n → Generation n) (disks : Disks V n) : Prop where
  stored : ∀ d, (gen d).Stored env planner bucket key
  read : ∀ (i : Nat) d, (planner.distribution env bucket key n)[i]? = some d →
    Backend.readShard bucket key (disks d) = .ok ((gen d).rows.getD i [], (gen d).metaOf env i)

variable (h : EachHolds env planner bucket key gen s)

include h in
theorem EachHolds.index (d : Fin n) :
    ∃ i : Nat, (planner.distribution env bucket key n)[i]? = some d :=
  (h.stored d).exists_index d

include h in
/-- What each disk returns, by the disk. -/
theorem EachHolds.reads :
    ∃ index : Fin n → Nat, ∀ d, (planner.distribution env bucket key n)[index d]? = some d ∧
      Backend.readShard bucket key (s d) =
        .ok ((gen d).rows.getD (index d) [], (gen d).metaOf env (index d)) := by
  choose index hindex using h.index
  exact ⟨index, fun d => ⟨hindex d, h.read _ d (hindex d)⟩⟩

include h in
/-- The metadata of each disk's shard is among those that are read. -/
theorem EachHolds.meta_mem (d : Fin n) :
    ∃ i, (gen d).metaOf env i ∈ readMetas (healReads bucket key s) := by
  obtain ⟨index, hread⟩ := h.reads
  exact ⟨index d, mem_readMetas.mpr ⟨_, mem_healReadsOf.mpr ⟨d, (hread d).2⟩⟩⟩

include h in
/-- The votes for a PUT are those of the disks that hold it, or one that agrees with it. -/
theorem EachHolds.votes (g : Generation n) (i : Nat) :
    (readMetas (healReads bucket key s)).countP (g.metaOf env i).quorumEq =
      (Finset.univ.filter fun d => g.agrees env (gen d) = true).card := by
  obtain ⟨index, hread⟩ := h.reads
  have hmetas := readMetas_of_ok fun d => (hread d).2
  unfold healReadsOf at hmetas
  unfold healReads
  rw [hmetas, countP_map, countP_finRange]
  rfl

/-- The first vote is that of the first disk, whose layout a heal uses. -/
theorem EachHolds.first {planner : PoolPlanner (n + 1)}
    {gen : Fin (n + 1) → Generation (n + 1)} {s : Disks V (n + 1)}
    (h : EachHolds env planner bucket key gen s) :
    ∃ data i, (healReads bucket key s).findSome? id = some (data, (gen 0).metaOf env i) ∧
      (readMetas (healReads bucket key s)).head? = some ((gen 0).metaOf env i) := by
  obtain ⟨index, hread⟩ := h.reads
  obtain ⟨rest, hhead⟩ : ∃ rest, healReads bucket key s =
      some ((gen 0).rows.getD (index 0) [], (gen 0).metaOf env (index 0)) :: rest := by
    unfold healReads
    rw [finRange_succ, map_cons, (hread 0).2]
    exact ⟨_, rfl⟩
  rw [hhead]
  exact ⟨_, _, rfl, rfl⟩

include h in
theorem EachHolds.assigned
    (hsame : ∀ d d', (gen d).agrees env (gen d') = true → (gen d).rows = (gen d').rows) :
    Assigned env planner bucket key (Set.range gen) s := by
  refine ⟨?_, ?_, fun d data m hread => ?_⟩
  · rintro g ⟨d, rfl⟩
    exact h.stored d
  · rintro g ⟨d, rfl⟩ g' ⟨d', rfl⟩
    exact hsame d d'
  · obtain ⟨i, hi⟩ := h.index d
    rw [h.read i d hi, Except.ok.injEq, Prod.mk.injEq] at hread
    exact ⟨gen d, ⟨d, rfl⟩, i, hi, hread.2.symm, fun _ => hread.1.symm⟩

include h in
/-- The positions of a PUT are those of the disks that hold it. -/
theorem EachHolds.present {g : Generation n} {holders : Finset (Fin n)}
    (hholds : ∀ d, (gen d).agrees env g = decide (d ∈ holders)) (j i : Nat) (d : Fin n)
    (hd : (planner.distribution env bucket key n)[i]? = some d) :
    Abixio.present env (g.metaOf env j) (healReads bucket key s) i = decide (d ∈ holders) := by
  rw [← hholds d, Bool.eq_iff_iff]
  unfold Abixio.present
  rw [any_eq_true]
  constructor
  · rintro ⟨read, hmem, hgood⟩
    cases read with
    | none => cases hgood
    | some p =>
      obtain ⟨data, m⟩ := p
      obtain ⟨d', hd'⟩ := mem_healReadsOf.mp hmem
      obtain ⟨i', hi'⟩ := h.index d'
      rw [h.read i' d' hi', Except.ok.injEq, Prod.mk.injEq] at hd'
      simp only [HealRead.good, Bool.and_eq_true, beq_iff_eq] at hgood
      rw [← hd'.2, Generation.quorumEq_metaOf] at hgood
      obtain rfl : i' = i := hgood.1.1
      rw [hi', Option.some.injEq] at hd
      rw [← hd]
      exact hgood.1.2
  · intro hagree
    refine ⟨some (_, _), mem_healReadsOf.mpr ⟨d, h.read i d hd⟩, ?_⟩
    simp only [HealRead.good, Bool.and_eq_true, beq_iff_eq]
    exact ⟨⟨rfl, hagree⟩, verifyShardChecksum_blake3 env _⟩

end EachHolds

end Abixio
