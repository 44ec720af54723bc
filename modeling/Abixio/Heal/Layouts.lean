import Abixio.Heal.Rollback

/-!
# Heal with PUTs of different layouts on the disks

`heal_object` takes the data and parity counts from the first disk that answers
(`src/heal/worker.rs:54-60`) and the metadata from the vote (`src/heal/worker.rs:62-63`). PUTs of a key
with different failures-to-tolerate counts have different layouts over the same disks, so the two can
differ.

* If the first answer states as many data shards as the consensus, the rebuild is that of the consensus.
* If it states more, the rebuild still is: the codes the crate builds for one number of shards are
  nested (`Lib.ErasureCode.Nested`), since a shard is the value at its index of the polynomial through
  the data, and a polynomial of low degree is one of higher degree (`Encodes.nested`).
* If it states fewer, shards are rebuilt from too few others, and what comes out depends on the body
  (`rebuilt_eq`, `exists_bodies`).

`heal_writes_own_iff` puts these together.
-/

namespace Abixio

open List
open Generation (agrees_comm agrees_self agrees_symm)
open ObjectMeta (quorumEq quorumEq_equivalence)
open UInt8 (xor_zero zero_xor)

variable {V W : Type} [Backend V W] {n : Nat} {env : Env} {bucket key : String} {k₁ k₂ m₁ m₂ : Nat}

/-! ## Encodings by nested codes -/

/-- A code with more data shards sees an encoding as its own. -/
theorem Encodes.nested {k m k' m' len : Nat} {rows : List Bytes}
    (h : Encodes env k m len rows) (hmds : (env.code k m).Mds k m)
    (hnested : k < k' → (env.code k m).Nested (env.code k' m') k k') (hle : k ≤ k')
    (htotal : k + m = k' + m') : Encodes env k' m' len rows := by
  by_cases heq : k = k'
  · subst heq
    obtain rfl : m = m' := by omega
    exact h
  have htake : (rows.take k).length = k := by
    rw [length_take, h.length]
    omega
  refine ⟨by rw [h.length, htotal], h.row, ?_⟩
  have hrows := Lib.encodeRows_nested (hnested (by omega)) hmds htake htotal
    (fun r hr => h.row r (mem_of_mem_take hr))
  rw [← h.code] at hrows
  exact hrows.symm

/-! ## The layouts of a heal -/

section Layouts

variable {planner : PoolPlanner n} {puts : Set (Generation n)} {s : Disks V n}

/-- The first answer states `k₁` data shards, and the consensus `k₂`. -/
structure HealLayouts (bucket key : String) (disks : Disks V n) (k₁ k₂ : Nat) : Prop where
  first : ∃ data fst, (healReads bucket key disks).findSome? id = some (data, fst) ∧
    fst.erasure.data = k₁
  consensus : ∃ c, findConsensusMeta (healReads bucket key disks) k₁ = .ok c ∧ c.erasure.data = k₂

/-- **Every shard a heal writes is a shard of the PUT whose metadata it carries.** -/
def WritesOwn (env : Env) (bucket key : String) (puts : Set (Generation n)) (disks : Disks V n) :
    Prop :=
  ∀ w ∈ healWrites env bucket key disks, ∃ g ∈ puts,
    w.2.objectMeta.quorumEq (g.metaOf env 0) = true ∧ w.2.data = g.rows.getD w.2.index []

/-- The repairs of missing positions are shards of the rows. -/
theorem mem_missingRepairs {consensus : ObjectMeta} {keep : Nat → Bool} {rows : List Bytes}
    {r : Repair} (hr : r ∈ missingRepairs env consensus keep rows) :
    r.data = rows.getD r.index [] ∧ r.objectMeta = repairMeta env consensus r.index r.data := by
  obtain ⟨i, -, rfl⟩ := mem_map.mp hr
  exact ⟨rfl, rfl⟩

/-- **The first answer states at least as many data shards as the consensus**: what is written is
right. -/
theorem Assigned.writesOwn (h : Assigned env planner bucket key puts s)
    (hmds : ∀ k m, RsAccepts k m → k + m = n → (env.code k m).Mds k m)
    (hnested : ∀ k m k' m', RsAccepts k m → RsAccepts k' m' → k + m = n → k' + m' = n →
      k < k' → (env.code k m).Nested (env.code k' m') k k')
    (hl : HealLayouts bucket key s k₁ k₂) (hle : k₂ ≤ k₁) : WritesOwn env bucket key puts s := by
  intro w hw
  obtain ⟨c', repairs, hplan, hrepair, -⟩ := mem_healWrites hw
  obtain ⟨data, fst, hfirst, rfl⟩ := hl.first
  obtain ⟨c, hc, rfl⟩ := hl.consensus
  obtain ⟨g, hg, ⟨j, rfl⟩, hheals⟩ := h.healsTo hfirst hc
  obtain ⟨g₁, hg₁, i₁, rfl⟩ := h.metas (first_mem hfirst)
  have hs := h.stored g hg
  have hs₁ := h.stored g₁ hg₁
  rw [hs.data_metaOf, hs₁.data_metaOf] at hle
  rw [hs₁.data_metaOf, hs₁.parity_metaOf] at hheals
  have haccepts₁ := (hheals.rebuilt hplan).1
  obtain ⟨hk₁, hm₁, hsum₁⟩ := rsAccepts_iff.mp haccepts₁
  have htotal : g.dataN + g.parityN = g₁.dataN + g₁.parityN := hs.total.trans hs₁.total.symm
  have haccepts : RsAccepts g.dataN g.parityN :=
    rsAccepts_iff.mpr ⟨hs.data_pos, by omega, by omega⟩
  obtain ⟨len, henc⟩ := hs.encodes
  have henc' : Encodes env g₁.dataN g₁.parityN len g.rows :=
    henc.nested (hmds _ _ haccepts hs.total)
      (hnested _ _ _ _ haccepts haccepts₁ hs.total hs₁.total) hle htotal
  by_cases hlen : len = 0
  · exact absurd hplan (hheals.plan_empty (fun r hr => (henc.row r hr).trans hlen) hk₁ c' repairs)
  have hplan' := hheals.plan_eq henc' (fun _ => hmds _ _ haccepts₁ hs₁.total) (fun _ => haccepts₁) hk₁
    (Nat.pos_of_ne_zero hlen)
  rw [hplan] at hplan'
  split_ifs at hplan' with hall hfew
  · cases hplan'
  · cases hplan'
  · rw [Except.ok.injEq, HealPlan.repair.injEq] at hplan'
    rw [hplan'.2] at hrepair
    obtain ⟨hdata, hmeta⟩ := mem_missingRepairs hrepair
    refine ⟨g, hg, ?_, hdata⟩
    rw [hmeta]
    exact quorumEq_equivalence.refl (g.metaOf env 0)

/-- Metadata that agree state the same layout. -/
theorem ObjectMeta.data_of_quorumEq {a b : ObjectMeta} (h : a.quorumEq b = true) :
    a.erasure.data = b.erasure.data := by
  simp only [quorumEq, Bool.and_eq_true, beq_iff_eq] at h
  obtain ⟨⟨⟨⟨⟨-, hftt⟩, -⟩, hvols⟩, -⟩, -⟩ := h
  unfold ErasureMeta.data
  rw [hftt, hvols]

/-- With two disks or fewer the first answer is never outvoted. -/
theorem HealLayouts.eq_of_two (hl : HealLayouts bucket key s k₁ k₂) (hn : n ≤ 2) : k₁ = k₂ := by
  obtain ⟨data, fst, hfirst, rfl⟩ := hl.first
  obtain ⟨c, hc, rfl⟩ := hl.consensus
  have hwins := (findConsensusMeta_ok hc).1
  have hmem := first_mem hfirst
  by_cases hagree : fst.quorumEq c = true
  · exact ObjectMeta.data_of_quorumEq hagree
  have hlt := hwins.tie fst (first_head hfirst) (by simpa using hagree)
  have hpos : 0 < (readMetas (healReads bucket key s)).countP fst.quorumEq :=
    countP_pos_iff.mpr ⟨fst, hmem, quorumEq_equivalence.refl fst⟩
  -- two votes against one, on two disks
  have hdisjoint : (readMetas (healReads bucket key s)).countP c.quorumEq ≤
      (readMetas (healReads bucket key s)).countP fun m => !fst.quorumEq m := by
    refine countP_mono_left fun m _ hm => ?_
    rw [Bool.not_eq_true']
    by_contra hfm
    rw [Bool.not_eq_false] at hfm
    exact hagree (quorumEq_equivalence.trans hfm
      (quorumEq_equivalence.symm hm))
  have hsplit := length_eq_countP_add_countP fst.quorumEq
    (l := readMetas (healReads bucket key s))
  have hcount : (readMetas (healReads bucket key s)).length ≤ n := by
    unfold readMetas healReads
    rw [length_map]
    exact (length_filterMap_le _ _).trans (by simp)
  simp only [Bool.not_eq_true, Bool.decide_eq_false] at hsplit
  omega

end Layouts

/-! ## The first disk outvoted -/

section Outvoted

variable {planner : PoolPlanner (n + 1)} {a b : Generation (n + 1)} {s : Disks V (n + 1)}

/-- The PUT of each disk when the first holds another than the rest. -/
def firstOf (a b : Generation (n + 1)) (d : Fin (n + 1)) : Generation (n + 1) :=
  if d = 0 then a else b

theorem firstOf_holds (hsep : a.agrees env b = false) (d : Fin (n + 1)) :
    (firstOf a b d).agrees env b = decide (d ∈ Finset.univ.erase (0 : Fin (n + 1))) := by
  unfold firstOf
  by_cases hd : d = 0
  · rw [if_pos hd, hsep, decide_eq_false (by simp [hd])]
  · rw [if_neg hd, agrees_self, decide_eq_true (by simp [hd])]

theorem firstOf_same (hsep : a.agrees env b = false) (d d' : Fin (n + 1))
    (h : (firstOf a b d).agrees env (firstOf a b d') = true) :
    (firstOf a b d).rows = (firstOf a b d').rows := by
  unfold firstOf at h ⊢
  by_cases hd : d = 0 <;> by_cases hd' : d' = 0
  · rw [if_pos hd, if_pos hd']
  · simp [if_pos hd, if_neg hd', hsep] at h
  · simp [if_neg hd, if_pos hd', agrees_symm hsep] at h
  · rw [if_neg hd, if_neg hd']

/-- Another disk than the first. -/
theorem firstOf_last (hn : 0 < n) (a b : Generation (n + 1)) : firstOf a b (Fin.last n) = b := by
  refine if_neg fun h0 => ?_
  have hval := congrArg Fin.val h0
  rw [Fin.val_last, Fin.val_zero] at hval
  omega

variable (h : EachHolds env planner bucket key (firstOf a b) s) (hsep : a.agrees env b = false) (hn : 2 ≤ n)
  (ha : a.dataN ≤ n)

include h hsep hn ha in
/-- With three disks or more the others win the vote. -/
theorem EachHolds.outvoted :
    ∃ j, findConsensusMeta (healReads bucket key s) a.dataN = .ok (b.metaOf env j) := by
  have hb : ∀ i, (readMetas (healReads bucket key s)).countP (b.metaOf env i).quorumEq = n := by
    intro i
    rw [h.votes]
    have hfilter : (Finset.univ.filter fun d => b.agrees env (firstOf a b d) = true) =
        Finset.univ.erase 0 := by
      ext d
      rw [Finset.mem_filter, agrees_comm, firstOf_holds hsep]
      simp
    rw [hfilter, Finset.card_erase_of_mem (Finset.mem_univ _), Finset.card_univ, Fintype.card_fin]
    omega
  have ha1 : ∀ i, (readMetas (healReads bucket key s)).countP (a.metaOf env i).quorumEq = 1 := by
    intro i
    rw [h.votes]
    have hfilter : (Finset.univ.filter fun d => a.agrees env (firstOf a b d) = true) = {0} := by
      ext d
      unfold firstOf
      by_cases hd : d = 0
      · simp [hd, agrees_self]
      · simp [hd, hsep]
    rw [hfilter, Finset.card_singleton]
  obtain ⟨i, hmem⟩ := h.meta_mem (Fin.last n)
  rw [firstOf_last (by omega)] at hmem
  obtain ⟨c, hc⟩ := findConsensusMeta_isOk hmem (ha.trans (Nat.le_of_eq (hb i).symm))
  have hwins := (findConsensusMeta_ok hc).1
  obtain ⟨data, hdata⟩ := mem_readMetas.mp hwins.mem
  obtain ⟨d, hd⟩ := mem_healReadsOf.mp hdata
  obtain ⟨l, hl⟩ := h.index d
  rw [h.read l d hl, Except.ok.injEq, Prod.mk.injEq] at hd
  by_cases hd0 : d = 0
  · -- the first disk's own PUT has one vote
    have hmost := hwins.most _ hmem
    rw [← hd.2, show firstOf a b d = a from if_pos hd0, hb, ha1] at hmost
    omega
  · rw [← hd.2, show firstOf a b d = b from if_neg hd0] at hc
    exact ⟨l, hc⟩

include h hsep hn ha in
/-- **What is written to the first disk**: the shard rebuilt with the first disk's layout. -/
theorem EachHolds.rebuilt_mem (hacc : n + 1 ≤ 256) (hunit : ∀ r ∈ b.rows, r.length = 1) {i₀ : Nat}
    (hi₀ : (planner.distribution env bucket key (n + 1))[i₀]? = some 0) :
    ∃ w ∈ healWrites env bucket key s, w.2.index = i₀ ∧
      w.2.objectMeta.quorumEq (b.metaOf env 0) = true ∧
      w.2.data = (Lib.reconstructRows (env.code a.dataN a.parityN) a.dataN a.parityN 1
        (keepRows (fun i => decide (i ≠ i₀)) b.rows)).getD i₀ [] := by
  have hsA : a.Stored env planner bucket key := by
    have := h.stored 0
    rwa [show firstOf a b 0 = a from if_pos rfl] at this
  have hassigned := h.assigned (firstOf_same hsep)
  obtain ⟨data, i₁, hfirst, -⟩ := h.first
  rw [show firstOf a b 0 = a from if_pos rfl] at hfirst
  obtain ⟨j, hc⟩ := h.outvoted hsep hn ha
  rw [← hsA.data_metaOf i₁] at hc
  obtain ⟨g, hg, ⟨i, hi⟩, hheals⟩ := hassigned.healsTo hfirst hc
  -- the rows of the consensus are those of the other disks
  have hrows : g.rows = b.rows := by
    refine hassigned.same g hg b ⟨Fin.last n, firstOf_last (by omega) a b⟩ ?_
    rw [← Generation.quorumEq_metaOf env g b i j, hi]
    exact quorumEq_equivalence.refl _
  rw [hrows, hsA.data_metaOf, hsA.parity_metaOf] at hheals
  have hlen : b.rows.length = n + 1 := by rw [hheals.length, hsA.total]
  have hdistLen := hsA.distribution_length
  have hnodup := hsA.distribution_nodup
  have hpresent := h.present (firstOf_holds hsep) j
  have hcount := positions_count hnodup h.index hpresent
  rw [hdistLen.trans hlen.symm, Finset.card_erase_of_mem (Finset.mem_univ _), Finset.card_univ,
    Fintype.card_fin, Nat.add_sub_cancel] at hcount
  have hkeep : keepRows (Abixio.present env (b.metaOf env j) (healReads bucket key s)) b.rows =
      keepRows (fun i => decide (i ≠ i₀)) b.rows := by
    refine keepRows_congr fun i hi => ?_
    have hlt : i < (planner.distribution env bucket key (n + 1)).length := by omega
    rw [hpresent i _ (getElem?_eq_getElem hlt), decide_eq_decide]
    obtain ⟨hi₀', heq⟩ := List.getElem?_eq_some_iff.mp hi₀
    rw [Finset.mem_erase, ← heq]
    simp [List.Nodup.getElem_inj_iff hnodup]
  have hi₀lt : i₀ < n + 1 := by
    rw [← hdistLen]
    exact (List.getElem?_eq_some_iff.mp hi₀).1
  have htotal := hsA.total
  have hplan := hheals.plan_missing hunit Nat.one_pos
    (rsAccepts_iff.mpr ⟨hsA.data_pos, by omega, by omega⟩) (by omega) (by omega)
  rw [hkeep] at hplan
  set slots := keepRows (fun i => decide (i ≠ i₀)) b.rows with hslots
  set rebuilt := Lib.reconstructRows (env.code a.dataN a.parityN) a.dataN a.parityN 1 slots
    with hrebuilt
  obtain ⟨d, hd⟩ := repairTarget_isSome s (b.metaOf env j) hi₀lt
  have hslot : slots[i₀]?.join = none := by
    rw [hslots, keepRows_getElem?, getElem?_eq_getElem (show i₀ < b.rows.length by omega)]
    simp
  have hlt : i₀ < rebuilt.length := by
    rw [hrebuilt, Lib.reconstructRows_length]
    omega
  refine ⟨(d, ⟨i₀, rebuilt.getD i₀ [], repairMeta env (b.metaOf env j) i₀ (rebuilt.getD i₀ [])⟩),
    ?_, rfl, quorumEq_equivalence.refl (b.metaOf env 0), rfl⟩
  unfold healWrites
  rw [hplan]
  refine mem_filterMap.mpr ⟨_, mem_repairsOf (by rw [keepRows_length, hlen]; exact hi₀lt) hslot ?_,
    by rw [hd]; rfl⟩
  · rw [getElem?_map, getElem?_eq_getElem hlt, getD_eq_getElem _ _ hlt]
    rfl

end Outvoted

/-! ## When a heal writes only shards of the consensus -/

section Iff

variable {cfg : PoolConfig (n + 1)} {record₁ record₂ : PlacementRecord (n + 1)}

instance finiteByte : Finite UInt8 := Finite.of_injective UInt8.toFin fun _ _ h => UInt8.toFin_inj.mp h

instance nontrivialByte : Nontrivial UInt8 := ⟨0, 1, by decide⟩

/-- If heals with these layouts write only what they should, then the shard rebuilt for the first disk
is the right one, whatever the body. -/
theorem rebuilt_eq (hb : ValidBucket bucket) (hk : ValidKey key)
    (hplan₁ : cfg.planner.plan env bucket key k₁ m₁ = .ok record₁)
    (hplan₂ : cfg.planner.plan env bucket key k₂ m₂ = .ok record₂) (hn₁ : k₁ + m₁ = n + 1)
    (hn₂ : k₂ + m₂ = n + 1) (hlt : k₁ < k₂) (hn : 2 ≤ n) (hacc : n + 1 ≤ 256)
    (hown : ∀ (puts : Set (Generation (n + 1))) (s : Disks LocalVolume (n + 1)),
      Assigned env cfg.planner bucket key puts s → HealLayouts bucket key s k₁ k₂ →
        WritesOwn env bucket key puts s)
    {i₀ : Nat} (hi₀ : (cfg.planner.distribution env bucket key (n + 1))[i₀]? = some 0)
    {body : Bytes} (hbody : body.length = k₂) : (Lib.reconstructRows (env.code k₁ m₁) k₁ m₁ 1
      (keepRows (fun i => decide (i ≠ i₀)) (encodeObject env k₂ m₂ body))).getD i₀ [] =
        (encodeObject env k₂ m₂ body).getD i₀ [] := by
  set a := plainGeneration env bucket key record₁ k₁ m₁ 0 [] with ha
  set b := plainGeneration env bucket key record₂ k₂ m₂ 0 body with hbdef
  have hsA : a.Stored env cfg.planner bucket key := plainGeneration_stored hplan₁ hn₁ 0 []
  have hsB : b.Stored env cfg.planner bucket key := plainGeneration_stored hplan₂ hn₂ 0 body
  have hsep : a.agrees env b = false := by
    by_contra hagree
    rw [Bool.not_eq_false] at hagree
    have hdata := ObjectMeta.data_of_quorumEq hagree
    rw [hsA.data_metaOf, hsB.data_metaOf] at hdata
    exact absurd (show k₁ = k₂ from hdata) (by omega)
  have hgen : ∀ d, (firstOf a b d).Stored env cfg.planner bucket key ∧
      (firstOf a b d).req.versionId = none := by
    intro d
    unfold firstOf
    by_cases hd : d = 0
    · rw [if_pos hd]
      exact ⟨hsA, rfl⟩
    · rw [if_neg hd]
      exact ⟨hsB, rfl⟩
  obtain ⟨p, hp⟩ := exists_pool hb hk (fun d => (hgen d).1) (fun d => (hgen d).2) none none
  have heach : EachHolds env cfg.planner bucket key (firstOf a b) p.disks :=
    ⟨hp.stored, fun i d hd => (hp.disk i d hd).read⟩
  have hpos := hsB.data_pos
  have hunit : ∀ r ∈ b.rows, r.length = 1 := fun r hr =>
    length_of_mem_encodeObject_bytes hpos
      (show k₂ ≤ streamBlockSize by unfold streamBlockSize; omega) hbody hr
  have hlayouts : HealLayouts bucket key p.disks k₁ k₂ := by
    obtain ⟨data, i, hfirst, -⟩ := heach.first
    obtain ⟨j, hj⟩ := heach.outvoted hsep hn (show k₁ ≤ n by omega)
    exact ⟨⟨data, _, hfirst, hsA.data_metaOf i⟩, ⟨_, hj, hsB.data_metaOf j⟩⟩
  obtain ⟨w, hw, hindex, hmeta, hdata⟩ := heach.rebuilt_mem hsep hn (show k₁ ≤ n by omega) hacc
    hunit hi₀
  obtain ⟨g, ⟨d, rfl⟩, hg, hgdata⟩ := hown _ _ (heach.assigned (firstOf_same hsep)) hlayouts w hw
  rw [hdata, hindex] at hgdata
  -- the metadata is that of the other disks' PUT
  have hd : d ≠ 0 := by
    rintro rfl
    have hab : b.agrees env a = true :=
      quorumEq_equivalence.trans (quorumEq_equivalence.symm hmeta) hg
    rw [agrees_comm, hsep] at hab
    cases hab
  rw [show firstOf a b d = b from if_neg hd] at hgdata
  exact hgdata

/-- Two bodies that differ in a shard, and not in the first `k₁` others. -/
theorem exists_bodies (hmds : 0 < m₂ → (env.code k₂ m₂).Mds k₂ m₂) (hacc : k₂ + m₂ ≤ 256)
    (hlt : k₁ < k₂) {i₀ : Nat} (hi₀ : i₀ < k₂ + m₂) : ∃ x y : Bytes, x.length = k₂ ∧ y.length = k₂ ∧
      (Lib.presentRows (keepRows (fun i => decide (i ≠ i₀)) (encodeObject env k₂ m₂ x))).take k₁ =
          (Lib.presentRows (keepRows (fun i => decide (i ≠ i₀))
            (encodeObject env k₂ m₂ y))).take k₁ ∧
      (encodeObject env k₂ m₂ x).getD i₀ [] ≠ (encodeObject env k₂ m₂ y).getD i₀ [] := by
  -- the shards that a rebuild from `k₁` looks at
  set seen := ((range (k₂ + m₂)).filter fun i => decide (i ≠ i₀)).take k₁ with hseen
  have hmem : ∀ i ∈ seen, i < k₂ + m₂ ∧ i ≠ i₀ := by
    intro i hi
    simpa using mem_of_mem_take hi
  have hnd : (i₀ :: seen).Nodup := by
    refine nodup_cons.mpr ⟨fun hi => (hmem i₀ hi).2 rfl, ?_⟩
    exact (nodup_range.filter _).sublist (take_sublist _ _)
  have hlen : seen.length < k₂ := by
    rw [hseen, length_take]
    omega
  have hall : ∀ i ∈ i₀ :: seen, i < k₂ + m₂ := by
    intro i hi
    rcases mem_cons.mp hi with rfl | hi
    · exact hi₀
    · exact (hmem i hi).1
  obtain ⟨x, y, hx, hy, hagree, hdiffer⟩ := Lib.ErasureCode.exists_unseen hmds hnd hlen hall
  have hbytes : ∀ {z : Bytes}, z.length = k₂ → ∀ i < k₂ + m₂, (encodeObject env k₂ m₂ z).getD i [] =
      [((env.code k₂ m₂).word z).getD i default] := by
    intro z hz i hi
    exact encodeObject_bytes (by omega) (by unfold streamBlockSize; omega) env _ hz hi
  refine ⟨x, y, hx, hy, ?_, ?_⟩
  · rw [presentRows_keepRows, presentRows_keepRows, encodeObject_length, encodeObject_length,
      ← map_take, ← map_take]
    refine map_congr_left fun i hi => ?_
    rw [hbytes hx i (hmem i hi).1, hbytes hy i (hmem i hi).1, hagree i hi]
  · rw [hbytes hx i₀ hi₀, hbytes hy i₀ hi₀]
    exact fun h => hdiffer (singleton_inj.mp h)

/-- **When a heal writes only shards of the consensus.** The disks hold nothing, damaged or intact
shards of PUTs of a key. If the first answer states `k₁` data shards and the consensus `k₂`, every
shard that is written is a shard of the PUT whose metadata it carries, for all such states of the
disks, if and only if `k₂ ≤ k₁`; or there are at most two disks, where the first answer is never
outvoted; or more than 256, where the code refuses every layout with parity. -/
theorem heal_writes_own_iff (hb : validateBucketName bucket = .ok ())
    (hk : validateObjectKey key = .ok ())
    (hmds : ∀ k m, RsAccepts k m → k + m = n + 1 → (env.code k m).Mds k m)
    (hnested : ∀ k m k' m', RsAccepts k m → RsAccepts k' m' → k + m = n + 1 → k' + m' = n + 1 →
      k < k' → (env.code k m).Nested (env.code k' m') k k')
    {dataN parityN : Nat} {record : PlacementRecord (n + 1)}
    (hplan : cfg.planner.plan env bucket key dataN parityN = .ok record)
    (htotal : dataN + parityN = n + 1) (hk₁ : 0 < k₁) (hk₂ : k₂ ≤ n + 1) :
    (∀ (V W : Type) [Backend V W] (puts : Set (Generation (n + 1))) (s : Disks V (n + 1)),
      Assigned env cfg.planner bucket key puts s → HealLayouts bucket key s k₁ k₂ →
        WritesOwn env bucket key puts s) ↔ k₂ ≤ k₁ ∨ n + 1 ≤ 2 ∨ 256 < n + 1 := by
  constructor
  · intro hown
    by_contra hcond
    push Not at hcond
    obtain ⟨hlt, htwo, hacc⟩ := hcond
    have hplan₁ := PlacementPlanner.plan_layout hplan hk₁
      (show k₁ + (n + 1 - k₁) = dataN + parityN by omega)
    have hplan₂ := PlacementPlanner.plan_layout hplan (show 0 < k₂ by omega)
      (show k₂ + (n + 1 - k₂) = dataN + parityN by omega)
    have hsA := plainGeneration_stored hplan₁ (show k₁ + (n + 1 - k₁) = n + 1 by omega) 0 []
    have hdistLen := hsA.distribution_length
    obtain ⟨i₀, hi₀⟩ := hsA.exists_index 0
    have hi₀lt : i₀ < n + 1 := by
      rw [← hdistLen]
      exact (List.getElem?_eq_some_iff.mp hi₀).1
    obtain ⟨x, y, hx, hy, hpres, hdiffer⟩ := exists_bodies
      (fun hm => hmds _ _ (rsAccepts_iff.mpr ⟨by omega, hm, by omega⟩) (by omega))
      (show k₂ + (n + 1 - k₂) ≤ 256 by omega) hlt (show i₀ < k₂ + (n + 1 - k₂) by omega)
    have hrebuilt : ∀ {z : Bytes}, z.length = k₂ → _ := fun {z} hz =>
      rebuilt_eq hb hk hplan₁ hplan₂ (by omega) (by omega) hlt (by omega) hacc
        (fun puts s => hown LocalVolume _ puts s) hi₀ hz
    have hnone : ∀ z : Bytes, (keepRows (fun i => decide (i ≠ i₀))
        (encodeObject env k₂ (n + 1 - k₂) z)).getD i₀ none = none := by
      intro z
      rw [getD_eq_getElem?_getD, keepRows_getElem?,
        getElem?_eq_getElem (by rw [encodeObject_length]; omega)]
      simp
    refine hdiffer ?_
    rw [← hrebuilt hx, ← hrebuilt hy]
    exact Lib.reconstructRows_congr hpres (hnone x) (hnone y)
  · intro hcond V W _ puts s hassigned hl
    rcases hcond with hle | htwo | hmany
    · exact hassigned.writesOwn hmds hnested hl hle
    · exact hassigned.writesOwn hmds hnested hl (Nat.le_of_eq (hl.eq_of_two htwo).symm)
    · intro w hw
      rw [hassigned.healWrites_of_many hmany] at hw
      cases hw

end Iff

/-! ### The code with two data shards -/

/-- Twice a byte, in the field of the crate's `galois_8` codes (polynomial `0x11d`). -/
def twice (b : UInt8) : UInt8 := b <<< 1 ^^^ if 128 ≤ b then 0x1d else 0

/-- Half a byte. -/
def half (b : UInt8) : UInt8 := b >>> 1 ^^^ if b % 2 = 1 then 0x8e else 0

/-- A third of a byte: its product with `0xf4`. -/
def third (b : UInt8) : UInt8 :=
  let b4 := twice (twice b)
  let b16 := twice (twice b4)
  let b32 := twice b16
  b4 ^^^ b16 ^^^ b32 ^^^ twice b32 ^^^ twice (twice b32)

/-- A byte times 0, 1, 2 or 3. -/
def times : Nat → UInt8 → UInt8
  | 0, _ => 0
  | 1, b => b
  | 2, b => twice b
  | _, b => b ^^^ twice b

/-- A byte over 1, 2 or 3. -/
def quotient : Nat → UInt8 → UInt8
  | 2, b => half b
  | 3, b => third b
  | _, b => b

/-- The code with two data shards and at most two parity shards: the values at 0, 1, 2 and 3 of the
line through the data. -/
def lineCode (parity : Nat) : Lib.ErasureCode UInt8 where
  parity x :=
    let start := x.getD 0 0
    let slope := start ^^^ x.getD 1 0
    [start ^^^ times 2 slope, start ^^^ times 3 slope].take parity
  solve
    | (r, y) :: (s, z) :: _ =>
      let slope := quotient (r ^^^ s) (y ^^^ z)
      let start := y ^^^ times r slope
      [start, start ^^^ slope]
    | _ => []

theorem quotient_times (r : Nat) (b : UInt8) (hr : 0 < r) (hlt : r < 4) : quotient r (times r b) = b := by
  have hall : ∀ b : Fin 256, quotient 2 (times 2 (UInt8.ofFin b)) = UInt8.ofFin b ∧
      quotient 3 (times 3 (UInt8.ofFin b)) = UInt8.ofFin b := by
    decide +kernel
  have hb := hall b.toFin
  match r with
  | 1 => rfl
  | 2 => exact hb.1
  | 3 => exact hb.2

/-- Two values of a line differ by a multiple of its slope. -/
theorem times_xor (r s : Nat) (b : UInt8) (hr : r < 4) (hs : s < 4) :
    times r b ^^^ times s b = times (r ^^^ s) b := by
  have hcancel : ∀ x y : UInt8, x ^^^ (x ^^^ y) = y := fun x y => by
    rw [← UInt8.xor_assoc, UInt8.xor_self, zero_xor]
  match r, s with
  | 0, 0 | 0, 1 | 0, 2 | 0, 3 => exact zero_xor
  | 1, 0 | 2, 0 | 3, 0 => exact xor_zero
  | 1, 1 | 2, 2 | 3, 3 => exact UInt8.xor_self
  | 1, 2 => rfl
  | 2, 1 => exact UInt8.xor_comm _ _
  | 1, 3 => exact hcancel b (twice b)
  | 3, 1 => exact (UInt8.xor_comm _ _).trans (hcancel b (twice b))
  | 2, 3 =>
    show twice b ^^^ (b ^^^ twice b) = b
    rw [UInt8.xor_comm b, hcancel]
  | 3, 2 =>
    show (b ^^^ twice b) ^^^ twice b = b
    rw [UInt8.xor_assoc, UInt8.xor_self, xor_zero]

/-- The symbols of a code word are values of a line. -/
theorem lineCode_word {m : Nat} (hm : m ≤ 2) (a b : UInt8) {r : Nat} (hr : r < 2 + m) :
    ((lineCode m).word [a, b]).getD r default = a ^^^ times r (a ^^^ b) := by
  have hb : b = a ^^^ (a ^^^ b) := by rw [← UInt8.xor_assoc, UInt8.xor_self, zero_xor]
  match m, r with
  | _, 0 => exact xor_zero.symm
  | _, 1 => exact hb
  | 1, 2 => rfl
  | 2, 2 => rfl
  | 2, 3 => rfl
  | _, _ + 4 => omega

theorem lineCode_mds {m : Nat} (hm : m ≤ 2) : (lineCode m).Mds 2 m := by
  refine ⟨fun x _ => by simp [lineCode, hm], fun x hx positions hnd hlen hlt => ?_⟩
  obtain ⟨a, b, rfl⟩ := length_eq_two.mp hx
  obtain ⟨r, s, rfl⟩ := length_eq_two.mp hlen
  have hrs : r ≠ s := by simpa using hnd
  have hr : r < 2 + m := hlt r (by simp)
  have hs : s < 2 + m := hlt s (by simp)
  have hslope : quotient (r ^^^ s) ((a ^^^ times r (a ^^^ b)) ^^^ (a ^^^ times s (a ^^^ b))) =
      a ^^^ b := by
    have hxor : (a ^^^ times r (a ^^^ b)) ^^^ (a ^^^ times s (a ^^^ b)) =
        times (r ^^^ s) (a ^^^ b) := by
      rw [← times_xor r s _ (by omega) (by omega), UInt8.xor_comm a (times r _), UInt8.xor_assoc,
        ← UInt8.xor_assoc a, UInt8.xor_self, zero_xor]
    have hne : r ^^^ s ≠ 0 := by
      intro h0
      have hcancel : r ^^^ (r ^^^ s) = s := by rw [← Nat.xor_assoc, Nat.xor_self, Nat.zero_xor]
      rw [h0, Nat.xor_zero] at hcancel
      exact hrs hcancel
    have hlt4 : r ^^^ s < 2 ^ 2 := Nat.xor_lt_two_pow (by omega) (by omega)
    rw [hxor, quotient_times _ _ (Nat.pos_of_ne_zero hne) hlt4]
  have hstart : (a ^^^ times r (a ^^^ b)) ^^^ times r (a ^^^ b) = a := by
    rw [UInt8.xor_assoc, UInt8.xor_self, xor_zero]
  simp only [map_cons, map_nil, lineCode_word hm a b hr, lineCode_word hm a b hs]
  show [(a ^^^ times r (a ^^^ b)) ^^^ times r (quotient (r ^^^ s) _),
    ((a ^^^ times r (a ^^^ b)) ^^^ times r (quotient (r ^^^ s) _)) ^^^ quotient (r ^^^ s) _] = [a, b]
  rw [hslope, hstart, ← UInt8.xor_assoc, UInt8.xor_self, zero_xor]

/-- Repeated data lie on a line. -/
theorem replication_nested_lineCode {m : Nat} (hm : m ≤ 2) :
    (Lib.replication UInt8 (m + 1)).Nested (lineCode m) 1 2 := by
  intro x hx
  obtain ⟨a, rfl⟩ := length_eq_one_iff.mp hx
  have htimes : a ^^^ times 2 (a ^^^ a) = a ∧ a ^^^ times 3 (a ^^^ a) = a := by
    rw [UInt8.xor_self]
    exact ⟨xor_zero, xor_zero⟩
  match m with
  | 0 => rfl
  | 1 =>
    show [a, a, a ^^^ times 2 (a ^^^ a)] = [a, a, a]
    rw [htimes.1]
  | 2 =>
    show [a, a, a ^^^ times 2 (a ^^^ a), a ^^^ times 3 (a ^^^ a)] = [a, a, a, a]
    rw [htimes.1, htimes.2]

/-- The codes of the crate for one and two data shards. -/
def lineEnv : Env :=
  { sampleEnv with
    code := fun data parity => if data = 2 then lineCode parity else Lib.replication UInt8 parity }

/-- Three disks: a heal whose first answer states two data shards and whose consensus states one writes
only shards of the consensus; the other way round it need not. -/
theorem heal_writes_own_iff_three :
    (∀ (V W : Type) [Backend V W] (puts : Set (Generation 3)) (s : Disks V 3),
      Assigned lineEnv threeConfig.planner "bkt" "g" puts s → HealLayouts "bkt" "g" s 2 1 →
        WritesOwn lineEnv "bkt" "g" puts s) ∧
    ¬ ∀ (V W : Type) [Backend V W] (puts : Set (Generation 3)) (s : Disks V 3),
      Assigned lineEnv threeConfig.planner "bkt" "g" puts s → HealLayouts "bkt" "g" s 1 2 →
        WritesOwn lineEnv "bkt" "g" puts s := by
  have hlayout : ∀ k m, RsAccepts k m → k + m = 3 → (k = 1 ∧ m = 2) ∨ (k = 2 ∧ m = 1) := by
    intro k m haccepts htotal
    obtain ⟨hk, hm, -⟩ := rsAccepts_iff.mp haccepts
    omega
  have hmds : ∀ k m, RsAccepts k m → k + m = 2 + 1 → (lineEnv.code k m).Mds k m := by
    intro k m haccepts htotal
    rcases hlayout k m haccepts htotal with ⟨rfl, rfl⟩ | ⟨rfl, rfl⟩
    · exact Lib.replication_mds 2
    · exact lineCode_mds (by decide)
  have hnested : ∀ k m k' m', RsAccepts k m → RsAccepts k' m' → k + m = 2 + 1 → k' + m' = 2 + 1 →
      k < k' → (lineEnv.code k m).Nested (lineEnv.code k' m') k k' := by
    intro k m k' m' h h' htotal htotal' hlt
    rcases hlayout k m h htotal with ⟨rfl, rfl⟩ | ⟨rfl, rfl⟩
    · rcases hlayout k' m' h' htotal' with ⟨rfl, rfl⟩ | ⟨rfl, rfl⟩
      · omega
      · exact replication_nested_lineCode (by decide)
    · rcases hlayout k' m' h' htotal' with ⟨rfl, rfl⟩ | ⟨rfl, rfl⟩ <;> omega
  have hplan : threeConfig.planner.plan lineEnv "bkt" "g" 1 2 = .ok
      ⟨1, "local-set", 1, 2, [⟨0, 0, "local", "v0"⟩, ⟨1, 1, "local", "v1"⟩, ⟨2, 2, "local", "v2"⟩]⟩ := by
    decide +kernel
  refine ⟨?_, fun hall => ?_⟩
  · exact (heal_writes_own_iff (by decide) (by decide) hmds hnested hplan rfl (by decide)
      (by decide)).mpr (Or.inl (by decide))
  · have hcond := (heal_writes_own_iff (by decide) (by decide) hmds hnested hplan rfl (by decide)
      (by decide)).mp hall
    omega

/-- Four disks, one faulty. -/
def linePool : Pool LocalVolume 4 := faultyPool 4 [0]

/-- A PUT of `bkt/g`. -/
def lineRequest (ftt createdAt length : Nat) : PutRequest :=
  { sampleRequest with
    key := "g"
    opts := { sampleRequest.opts with ecFtt := some ftt }
    createdAt := createdAt
    contentLength := some length }

/-- The pool after a PUT of `x` with one data and three parity shards that every disk stores. -/
def lineFirst : Pool LocalVolume 4 :=
  (putObjectStream lineEnv fourConfig (lineRequest 3 1 1) true [.ok (utf8 "x")] linePool).2

/-- The pool after a PUT of `hi` with two data and two parity shards that fails on disk 0. -/
def lineSecond : Pool LocalVolume 4 :=
  (putObjectStream lineEnv fourConfig (lineRequest 2 2 2) true [.ok (utf8 "hi")] lineFirst).2

/-- The pool after a heal. -/
def lineHealed : Pool LocalVolume 4 :=
  { lineSecond with disks := (healObject lineEnv "bkt" "g" lineSecond.disks).2 }

/-- **A heal that makes up a shard.** The second PUT is acknowledged with its shards on disks 1, 2 and
3 and is the consensus. The heal rebuilds shard 0, which is `h`, with the layout of the first disk, one
data and three parity shards: it writes a copy of shard 1. The object then reads as `ii`. -/
theorem heal_makes_up_shard :
    (putObjectStream lineEnv fourConfig (lineRequest 3 1 1) true [.ok (utf8 "x")] linePool).1 =
        .ok (putInfo lineEnv (lineRequest 3 1 1) (utf8 "x"), []) ∧
      (putObjectStream lineEnv fourConfig (lineRequest 2 2 2) true [.ok (utf8 "hi")] lineFirst).1 =
        .ok (putInfo lineEnv (lineRequest 2 2 2) (utf8 "hi"), []) ∧
      (encodeObject lineEnv 2 2 (utf8 "hi")).getD 0 [] = utf8 "h" ∧
      (healObject lineEnv "bkt" "g" lineSecond.disks).1 = .ok (.repaired 1) ∧
      (Backend.readShard "bkt" "g" (lineHealed.disks 0)).toOption.map
        (fun p => (p.1, p.2.createdAt, p.2.checksum == lineEnv.blake3Hex p.1)) =
          some (utf8 "i", 2, true) ∧ (getObject lineEnv "bkt" "g" lineHealed).1 =
        .ok (utf8 "ii", putInfo lineEnv (lineRequest 2 2 2) (utf8 "hi")) := by
  decide +kernel

end Abixio
