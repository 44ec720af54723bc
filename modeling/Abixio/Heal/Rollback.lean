import Abixio.Heal.Consensus

/-!
# Heal after an overwrite that some disks missed

`heal_object` when every disk holds an intact shard, of the latest PUT or of one earlier PUT with the
same layout, and the latest is on at least its write quorum of disks
(`src/storage/erasure_encode.rs:464-477`, `src/heal/worker.rs:150-178`).

A write quorum need not be a majority, and the healer knows no order of PUTs: the larger group wins,
and on a tie the group of the first disk (`TwoPuts.consensus`). The group that wins is written over the
other one (`heal_winner`). `heal_keeps_latest_iff` says exactly when that is right.
-/

namespace Abixio

open Backend (readShard volumeId writeShard)
open Generation (agrees_comm agrees_self agrees_symm metaOf quorumEq_metaOf)

variable {V W : Type} [Backend V W] {n : Nat} {env : Env} {bucket key : String} {j : Nat}
  (hb : validateBucketName bucket = .ok ()) (hk : validateObjectKey key = .ok ())

section Winner

variable {planner : PoolPlanner n} {s : Disks V n} {g : Generation n} {holders : Finset (Fin n)}

include hb hk in
/-- A heal that plans no repair changes nothing. -/
theorem healObject_no_repair
    (hplan : ∀ c repairs, healPlan env (healReads bucket key s) ≠ .ok (.repair c repairs)) :
    (healObject env bucket key s).2 = s ∧
      ∀ fixed, (healObject env bucket key s).1 ≠ .ok (.repaired fixed) := by
  rw [healObject_eq hb hk s]
  cases h : healPlan env (healReads bucket key s) with
  | error e => exact ⟨rfl, nofun⟩
  | ok plan =>
    cases plan with
    | healthy => exact ⟨rfl, nofun⟩
    | unrecoverable => exact ⟨rfl, nofun⟩
    | repair c repairs => exact absurd h (hplan c repairs)

include hb hk in
/-- **The PUT that wins the vote is written to the disks that do not hold it**, and its own disks are
left alone. -/
theorem heal_winner [LawfulBackend V] (hs : g.Stored env planner bucket key) (hvid : g.req.versionId = none)
    (hmds : 0 < g.parityN → (env.code g.dataN g.parityN).Mds g.dataN g.parityN)
    (hrs : 0 < g.parityN → RsAccepts g.dataN g.parityN) (hids : PlannerIds planner s)
    (hheals : HealsTo env (healReads bucket key s) (g.metaOf env j) g.dataN g.parityN g.rows)
    (hne : ∃ r ∈ g.rows, r ≠ []) (hcount : g.dataN ≤ holders.card)
    (hpresent : ∀ i d, (planner.distribution env bucket key n)[i]? = some d →
      present env (g.metaOf env j) (healReads bucket key s) i = decide (d ∈ holders))
    (hwrite : ∀ w ∈ healWrites env bucket key s,
      (writeShard bucket key w.2.data w.2.objectMeta (s w.1)).1 = .ok ()) :
    (∀ d ∈ holders, (healObject env bucket key s).2 d = s d) ∧
      ∀ i d, (planner.distribution env bucket key n)[i]? = some d → d ∉ holders →
        readShard bucket key ((healObject env bucket key s).2 d) =
          .ok (g.rows.getD i [], g.metaOf env i) := by
  have hsound := PoolPlanner.plan_ok hs.plan
  have hnd : (planner.distribution env bucket key n).Nodup := hs.distribution ▸ hsound.nodup
  have hdlen : (planner.distribution env bucket key n).length = n := by
    rw [← hs.distribution, List.length_map, hsound.length, hs.total]
  have hrows : g.rows.length = (planner.distribution env bucket key n).length := by
    rw [hdlen, hs.rows_length]
  have hindex : ∀ d, ∃ i : Nat, (planner.distribution env bucket key n)[i]? = some d := by
    intro d
    rw [← hs.distribution]
    exact List.mem_iff_getElem?.mp (mem_distribution hs.plan hs.total d)
  obtain ⟨len, henc⟩ := hs.encodes
  have hlen : 0 < len := by
    obtain ⟨r, hr, hnil⟩ := hne
    rw [← henc.row r hr]
    exact List.length_pos_of_ne_nil hnil
  have hplan := hheals.plan_eq henc hmds hrs hs.data_pos hlen
  have hgood : ((List.range g.rows.length).filter
      (present env (g.metaOf env j) (healReads bucket key s))).length = holders.card := by
    rw [hrows]
    exact positions_count hnd hindex hpresent
  rw [hgood] at hplan
  by_cases hfull : holders.card = g.dataN + g.parityN
  · rw [if_pos hfull] at hplan
    have huniv : holders = Finset.univ :=
      Finset.eq_univ_of_card _ (by rw [hfull, hs.total, Fintype.card_fin])
    rw [healObject_eq hb hk s, hplan]
    exact ⟨fun _ _ => rfl, fun i d _ hd => absurd (huniv ▸ Finset.mem_univ d) hd⟩
  rw [if_neg hfull, if_neg (Nat.not_lt.mpr hcount)] at hplan
  have htarget : ∀ i d, (planner.distribution env bucket key n)[i]? = some d →
      repairTarget s (g.metaOf env j) i = some d := by
    intro i d hd
    rw [← hs.distribution] at hd
    exact repairTarget_planned hids hs.plan rfl hd
  obtain ⟨u, hrun, hwritten, hkept⟩ := healObject_missing hb hk hplan hnd hrows htarget
    fun i d hd hmissing => hwrite (d, ⟨i, g.rows.getD i [], _⟩) (by
      unfold healWrites
      rw [hplan]
      simp only
      rw [repairWrites_missing hrows htarget]
      refine mem_missingWrites.mpr ⟨i, List.mem_filter.mpr ⟨List.mem_range.mpr ?_, ?_⟩, hd, rfl⟩
      · rw [hrows]
        exact (List.getElem?_eq_some_iff.mp hd).1
      · rw [hmissing]
        rfl)
  rw [hrun]
  refine ⟨fun d hd => hkept d fun i hi => ?_, fun i d hi hd => ?_⟩
  · rw [hpresent i d hi]
    exact decide_eq_true hd
  · have hw := hwritten i d hi (by rw [hpresent i d hi]; exact decide_eq_false hd)
    exact (LawfulBackend.read_written ⟨rfl, rfl, rfl, rfl⟩
      (by simp [repairMeta, metaOf, shardMeta, hvid]) hw).1

end Winner

/-! ## Two PUTs -/

section TwoPuts

variable {cfg : PoolConfig (n + 1)} {latest old : Generation (n + 1)} {fresh : Finset (Fin (n + 1))}
  {s : Disks V (n + 1)}

/-- **An overwrite that some disks missed.** The latest PUT is on at least its write quorum of disks,
and the others hold their shards of one earlier PUT with the same layout. -/
structure TwoPuts (env : Env) (cfg : PoolConfig (n + 1)) (bucket key : String)
    (latest old : Generation (n + 1)) (fresh : Finset (Fin (n + 1))) (s : Disks V (n + 1)) :
    Prop where
  latestStored : latest.Stored env cfg.planner bucket key
  oldStored : old.Stored env cfg.planner bucket key
  data : old.dataN = latest.dataN
  parity : old.parityN = latest.parityN
  accepted : 0 < latest.parityN → RsAccepts latest.dataN latest.parityN
  quorum : writeQuorum latest.dataN latest.parityN ≤ fresh.card
  read : ∀ i d, (cfg.planner.distribution env bucket key (n + 1))[i]? = some d →
    readShard bucket key (s d) = .ok ((if d ∈ fresh then latest else old).rows.getD i [],
        (if d ∈ fresh then latest else old).metaOf env i)

/-- The latest PUT is on more than half of the disks, or on half of them with the first. -/
def Majority (fresh : Finset (Fin (n + 1))) : Prop :=
  n + 1 < 2 * fresh.card ∨ n + 1 = 2 * fresh.card ∧ 0 ∈ fresh

/-- Each disk holds one of the two PUTs. -/
theorem TwoPuts.each (h : TwoPuts env cfg bucket key latest old fresh s) :
    EachHolds env cfg.planner bucket key (fun d => if d ∈ fresh then latest else old) s := by
  refine ⟨fun d => ?_, h.read⟩
  by_cases hd : d ∈ fresh
  · rw [if_pos hd]
    exact h.latestStored
  · rw [if_neg hd]
    exact h.oldStored

/-- A PUT on the disks is one of the two. -/
theorem latest_or_old {g : Generation (n + 1)}
    (hg : g ∈ Set.range fun d => if d ∈ fresh then latest else old) : g = latest ∨ g = old := by
  obtain ⟨d, rfl⟩ := hg
  by_cases hd : d ∈ fresh
  · exact Or.inl (if_pos hd)
  · exact Or.inr (if_neg hd)

section

variable (h : TwoPuts env cfg bucket key latest old fresh s)
include h

theorem TwoPuts.dataN_le : latest.dataN ≤ fresh.card := by
  have hquorum := h.quorum
  unfold writeQuorum at hquorum
  split at hquorum <;> omega

/-- The first disk's layout is the layout of both. -/
theorem TwoPuts.layout (d : Fin (n + 1)) (i : Nat) :
    ((if d ∈ fresh then latest else old).metaOf env i).erasure.data = latest.dataN ∧
      ((if d ∈ fresh then latest else old).metaOf env i).erasure.parity = latest.parityN := by
  by_cases hd : d ∈ fresh
  · rw [if_pos hd, h.latestStored.data_metaOf, h.latestStored.parity_metaOf]
    exact ⟨rfl, rfl⟩
  · rw [if_neg hd, h.oldStored.data_metaOf, h.oldStored.parity_metaOf]
    exact ⟨h.data, h.parity⟩

variable (hsep : old.agrees env latest = false)

include hsep in
/-- Two PUTs that can be told apart. -/
theorem TwoPuts.assigned :
    Assigned env cfg.planner bucket key (Set.range fun d => if d ∈ fresh then latest else old) s := by
  refine h.each.assigned fun d d' => ?_
  by_cases hd : d ∈ fresh <;> by_cases hd' : d' ∈ fresh
  · simp [hd, hd']
  · simp [hd, hd', agrees_symm hsep]
  · simp [hd, hd', hsep]
  · simp [hd, hd']

include hsep in
/-- The votes for each of two PUTs that can be told apart. -/
theorem TwoPuts.votes_each (i : Nat) :
    (readMetas (healReads bucket key s)).countP (latest.metaOf env i).quorumEq = fresh.card ∧
      (readMetas (healReads bucket key s)).countP (old.metaOf env i).quorumEq =
        n + 1 - fresh.card := by
  rw [h.each.votes, h.each.votes]
  constructor
  · congr 1
    ext d
    by_cases hd : d ∈ fresh
    · simp [hd, agrees_self]
    · simp [hd, agrees_symm hsep]
  · have hcompl := Finset.card_compl fresh
    rw [Fintype.card_fin] at hcompl
    rw [← hcompl]
    congr 1
    ext d
    by_cases hd : d ∈ fresh
    · simp [hd, hsep]
    · simp [hd, agrees_self]

include hsep in
/-- **The consensus is the latest PUT exactly if it has the majority.** -/
theorem TwoPuts.consensus : ∃ c, findConsensusMeta (healReads bucket key s) latest.dataN = .ok c ∧
      ((Majority fresh ∧ ∃ j, c = latest.metaOf env j) ∨
        (¬ Majority fresh ∧ ∃ j, c = old.metaOf env j)) := by
  have hle := Finset.card_le_univ fresh
  have hpos : 0 < fresh.card := Nat.lt_of_lt_of_le h.latestStored.data_pos h.dataN_le
  obtain ⟨d, hd⟩ := Finset.card_pos.mp hpos
  obtain ⟨l, hmem⟩ := h.each.meta_mem d
  rw [if_pos hd] at hmem
  obtain ⟨c, hc⟩ := findConsensusMeta_isOk hmem
    (h.dataN_le.trans (Nat.le_of_eq (h.votes_each hsep _).1.symm))
  refine ⟨c, hc, ?_⟩
  have hwins := (findConsensusMeta_ok hc).1
  obtain ⟨-, i₀, -, hhead⟩ := h.each.first
  obtain ⟨g, hg, j, rfl⟩ := (h.assigned hsep).metas hwins.mem
  have hmost := hwins.most _ hmem
  rw [(h.votes_each hsep _).1] at hmost
  rcases latest_or_old hg with rfl | rfl
  · -- the earlier PUT has at most as many votes, and fewer if its vote is the first
    refine Or.inl ⟨?_, j, rfl⟩
    have hothers : 0 ∉ fresh → n + 1 - fresh.card < fresh.card := by
      intro h0
      rw [if_neg h0] at hhead
      have htie := hwins.tie _ hhead (by rw [quorumEq_metaOf, hsep])
      rwa [(h.votes_each hsep _).1, (h.votes_each hsep _).2] at htie
    have hall : n + 1 - fresh.card ≤ fresh.card := by
      by_cases hfull : fresh = Finset.univ
      · rw [hfull, Finset.card_univ, Fintype.card_fin]
        omega
      · obtain ⟨d', hd'⟩ : ∃ d', d' ∉ fresh := by
          by_contra hnone
          push Not at hnone
          exact hfull (Finset.eq_univ_of_forall hnone)
        obtain ⟨l', hmem'⟩ := h.each.meta_mem d'
        rw [if_neg hd'] at hmem'
        have hmost' := hwins.most _ hmem'
        rwa [(h.votes_each hsep _).1, (h.votes_each hsep _).2] at hmost'
    by_cases h0 : 0 ∈ fresh
    · by_cases htie : n + 1 = 2 * fresh.card
      · exact Or.inr ⟨htie, h0⟩
      · exact Or.inl (by omega)
    · have := hothers h0
      exact Or.inl (by omega)
  · refine Or.inr ⟨?_, j, rfl⟩
    rw [(h.votes_each hsep _).2] at hmost
    rintro (hmore | ⟨htie, h0⟩)
    · omega
    · rw [if_pos h0] at hhead
      have hlt := hwins.tie _ hhead (by rw [quorumEq_metaOf, agrees_symm hsep])
      rw [(h.votes_each hsep _).1, (h.votes_each hsep _).2] at hlt
      omega

/-- Two PUTs that cannot be told apart: all shards count as good. -/
theorem TwoPuts.healthy (hsame : old.agrees env latest = true) :
    healPlan env (healReads bucket key s) = .ok .healthy := by
  set gen : Fin (n + 1) → Generation (n + 1) := fun d => if d ∈ fresh then latest else old
    with hgen
  have hsame' : latest.agrees env old = true := by rw [agrees_comm, hsame]
  have hagree : ∀ d d', (gen d).agrees env (gen d') = true := by
    intro d d'
    simp only [hgen]
    by_cases hd : d ∈ fresh <;> by_cases hd' : d' ∈ fresh
    · rw [if_pos hd, if_pos hd', agrees_self]
    · rw [if_pos hd, if_neg hd', hsame']
    · rw [if_neg hd, if_pos hd', hsame]
    · rw [if_neg hd, if_neg hd', agrees_self]
  have hstored : ∀ d, (gen d).Stored env cfg.planner bucket key := h.each.stored
  set dist := cfg.planner.distribution env bucket key (n + 1) with hdist
  have hreads : ObjectReads env (fun d => readShard bucket key (s d)) dist
      (mixedRows env cfg bucket key gen) (fun i => (gen (dist.getD i 0)).metaOf env i) ∅ := by
    refine mixed_objectReads (p := ⟨s, none, none⟩) hstored fun i d hd => ?_
    have hgd : dist.getD i 0 = d := by
      rw [List.getD_eq_getElem?_getD, hd, Option.getD_some]
    rw [hgd]
    exact ⟨h.read i d hd, rfl⟩
  have hmeta : ∀ d data o, readShard bucket key (s d) = .ok (data, o) →
      ∃ i, o = (gen (dist.getD i 0)).metaOf env i := by
    intro d data o hread
    obtain ⟨i, hi⟩ := h.each.index d
    rw [h.read i d hi, Except.ok.injEq, Prod.mk.injEq] at hread
    refine ⟨i, ?_⟩
    rw [List.getD_eq_getElem?_getD, hi, Option.getD_some]
    exact hread.2.symm
  have hrows : (mixedRows env cfg bucket key gen).length = latest.dataN + latest.parityN := by
    rw [h.latestStored.total, hreads.length]
    exact h.latestStored.distribution_length
  exact hreads.healthy hmeta (fun i j => hagree _ _) (fun i => h.layout _ i) hrows
    h.latestStored.data_pos

end

/-- The heal after an overwrite that some disks missed does not undo it: the disks of the latest PUT
keep their shards, and if anything is repaired then every disk holds the latest PUT. -/
structure KeepsLatest (env : Env) (cfg : PoolConfig (n + 1)) (bucket key : String)
    (latest : Generation (n + 1)) (fresh : Finset (Fin (n + 1))) (s : Disks V (n + 1)) : Prop where
  kept : ∀ d ∈ fresh, readShard bucket key ((healObject env bucket key s).2 d) =
    readShard bucket key (s d)
  repaired : ∀ fixed, 0 < fixed → (healObject env bucket key s).1 = .ok (.repaired fixed) →
    ∀ i d, (cfg.planner.distribution env bucket key (n + 1))[i]? = some d →
      readShard bucket key ((healObject env bucket key s).2 d) =
        .ok (latest.rows.getD i [], latest.metaOf env i)

include hb hk in
/-- A heal that plans no repair keeps the latest PUT. -/
theorem KeepsLatest.of_no_repair
    (hplan : ∀ c repairs, healPlan env (healReads bucket key s) ≠ .ok (.repair c repairs)) :
    KeepsLatest env cfg bucket key latest fresh s := by
  obtain ⟨hsame, hres⟩ := healObject_no_repair hb hk hplan
  refine ⟨fun d _ => by rw [hsame], fun fixed _ hfixed => absurd hfixed (hres fixed)⟩

section Heals

variable [LawfulBackend V] (h : TwoPuts env cfg bucket key latest old fresh s)
  (hb : validateBucketName bucket = .ok ()) (hk : validateObjectKey key = .ok ())
  (hmds : 0 < latest.parityN →
    (env.code latest.dataN latest.parityN).Mds latest.dataN latest.parityN)
  (hids : PlannerIds cfg.planner s)
  (hwrite : ∀ w ∈ healWrites env bucket key s,
    (writeShard bucket key w.2.data w.2.objectMeta (s w.1)).1 = .ok ())
  (hsep : old.agrees env latest = false)
include h hb hk hmds hids hwrite hsep

/-- The latest PUT wins: it is kept, and written to the other disks if its shards are not empty. -/
theorem TwoPuts.keeps_of_latest (hvid : latest.req.versionId = none)
    (hheals : HealsTo env (healReads bucket key s) (latest.metaOf env j) latest.dataN
      latest.parityN latest.rows) : KeepsLatest env cfg bucket key latest fresh s := by
  by_cases hempty : ∀ r ∈ latest.rows, r = []
  · exact KeepsLatest.of_no_repair hb hk
      (hheals.plan_empty (fun r hr => by rw [hempty r hr]; rfl) h.latestStored.data_pos)
  push Not at hempty
  have hholds : ∀ d, (if d ∈ fresh then latest else old).agrees env latest =
      decide (d ∈ fresh) := by
    intro d
    by_cases hd : d ∈ fresh
    · rw [if_pos hd, agrees_self, decide_eq_true hd]
    · rw [if_neg hd, hsep, decide_eq_false hd]
  obtain ⟨hkept, hwritten⟩ := heal_winner hb hk h.latestStored hvid hmds h.accepted hids hheals
    hempty h.dataN_le (h.each.present hholds j) hwrite
  refine ⟨fun d hd => by rw [hkept d hd], fun fixed _ _ i d hi => ?_⟩
  by_cases hd : d ∈ fresh
  · rw [hkept d hd, h.read i d hi, if_pos hd]
  · exact hwritten i d hi hd

/-- The earlier PUT wins: its shards are written over those of the latest. -/
theorem TwoPuts.loses_of_old (hvid : old.req.versionId = none)
    (hheals : HealsTo env (healReads bucket key s) (old.metaOf env j) latest.dataN latest.parityN
      old.rows) (hminority : ¬ Majority fresh) (hempty : ¬ ∀ r ∈ old.rows, r = []) :
    ¬ KeepsLatest env cfg bucket key latest fresh s := by
  intro hkeeps
  push Not at hempty
  have hholds : ∀ d, (if d ∈ fresh then latest else old).agrees env old = decide (d ∈ freshᶜ) := by
    intro d
    by_cases hd : d ∈ fresh
    · rw [if_pos hd, agrees_symm hsep, decide_eq_false (by simpa using hd)]
    · rw [if_neg hd, agrees_self, decide_eq_true (by simpa using hd)]
  have hcount : old.dataN ≤ (freshᶜ).card := by
    have hle := h.dataN_le
    rw [Finset.card_compl, Fintype.card_fin, h.data]
    unfold Majority at hminority
    omega
  rw [← h.data, ← h.parity] at hmds hheals
  have haccepted := h.accepted
  rw [← h.data, ← h.parity] at haccepted
  obtain ⟨-, hwritten⟩ := heal_winner hb hk h.oldStored hvid hmds haccepted hids hheals hempty
    hcount (h.each.present hholds j) hwrite
  -- a disk of the latest PUT now has a shard of the earlier one
  obtain ⟨d, hd⟩ := Finset.card_pos.mp (Nat.lt_of_lt_of_le h.latestStored.data_pos h.dataN_le)
  obtain ⟨i, hi⟩ := h.each.index d
  have hnow := hwritten i d hi (by simpa using hd)
  rw [hkeeps.kept d hd, h.read i d hi, if_pos hd, Except.ok.injEq, Prod.mk.injEq] at hnow
  have hagree : old.agrees env latest = true := by
    rw [← quorumEq_metaOf env old latest i i, hnow.2]
    exact ObjectMeta.quorumEq_equivalence.refl _
  rw [hsep] at hagree
  cases hagree

end Heals

end TwoPuts

/-- A one-byte PUT with one data shard, as it is stored on `n` disks. -/
def oneByteGeneration {n : Nat} (req : PutRequest) (parityN : Nat) (record : PlacementRecord n)
    (body : Bytes) : Generation n where
  req := smallRequest req
  body := body
  dataN := 1
  parityN := parityN
  record := record
  rows := List.replicate (1 + parityN) body

/-- The placement of `bkt/k` on three disks. -/
def threeRecord : PlacementRecord 3 where
  epochId := 1
  clusterId := "local-set"
  data := 1
  parity := 2
  shards := [⟨0, 1, "local", "v1"⟩, ⟨1, 2, "local", "v2"⟩, ⟨2, 0, "local", "v0"⟩]

/-- A pool of four disks. -/
def fourConfig : PoolConfig 4 where
  planner := {
    epochId := 1
    clusterId := "local-set"
    disks := [⟨0, "local", "v0"⟩, ⟨1, "local", "v1"⟩, ⟨2, "local", "v2"⟩, ⟨3, "local", "v3"⟩]
    nodup := by decide }
  localNodeId := ""

/-- Four disks, two of them faulty. -/
def fourPool : Pool LocalVolume 4 := faultyPool 4 [0, 1]

/-- A PUT of one byte with one data and three parity shards. -/
def fourRequest (createdAt : Nat) : PutRequest :=
  { threeRequest createdAt with opts := { sampleRequest.opts with ecFtt := some 3 } }

/-- The pool after a PUT of `x` that every disk stores. -/
def fourFirst : Pool LocalVolume 4 :=
  (putObjectStream sampleEnv fourConfig (fourRequest 1) true [.ok (utf8 "x")] fourPool).2

/-- The pool after a PUT of `y` that fails on disks 0 and 1. -/
def fourSecond : Pool LocalVolume 4 :=
  (putObjectStream sampleEnv fourConfig (fourRequest 2) true [.ok (utf8 "y")] fourFirst).2

/-- The pool after a heal. -/
def fourHealed : Pool LocalVolume 4 :=
  { fourSecond with disks := (healObject sampleEnv "bkt" "k" fourSecond.disks).2 }

end Abixio
