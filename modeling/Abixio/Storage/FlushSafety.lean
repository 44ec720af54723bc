import Abixio.Storage.CacheRun
import Abixio.Storage.FailingDisks

/-!
# What a flush loses

`flush_older_than` and `shutdown` (`src/storage/volume_pool.rs:249-288`) when some of the `write_shard`
calls fail, and the GETs that run meanwhile.

* `TakesWrites K fails P` is a disk on which the `write_shard` calls of the keys in `fails` fail and
  change nothing that a GET reads, and those of the other keys in `K` succeed and do not change what
  GETs of another key read.
* A flush takes its entries out of the cache first and ignores what the disks answer. So the read cache
  is all that serves a new object in between, and nothing notices a missed quorum (`FlushCovered`).

`flush_safe_iff`: a flush keeps every acknowledged object if the read cache has every drained one and no
entry misses its write quorum; for objects that the disks do not have yet, only then. `flush_loses_object`
shows both failures.
-/

namespace Abixio

open Lib List
open Backend (bucketExists writeShard)

section Flush

variable {V W : Type} [Backend V W] {n : Nat} {d : Fin n}

/-- **A disk during a flush.** -/
structure TakesWrites (K : Set CacheKey) (fails : CacheKey → Bool) (P : V → Prop) : Prop where
  write : ∀ {v}, P v → ∀ k ∈ K, ∀ data m, ∃ r v', writeShard k.1 k.2 data m v = (r, v') ∧
    P v' ∧ (fails k = false → r = .ok ()) ∧
    ∀ k' ∈ K, bucketExists k'.1 v' = bucketExists k'.1 v ∧
      (k' ≠ k ∨ fails k = true → SameContent k'.1 k'.2 v v')

/-- A PUT that the write cache can hold. -/
structure CachedPut (env : Env) (cfg : PoolConfig n) (k : CacheKey) (g : Generation n) : Prop where
  stored : g.Stored env cfg.planner k.1 k.2
  plain : smallRequest g.req = g.req
  small : g.body.length ≤ logThreshold

/-- A write quorum of disks holds the PUT. -/
def OnQuorum (env : Env) (cfg : PoolConfig n) (k : CacheKey) (g : Generation n) (disks : Disks V n) :
    Prop :=
  ∃ S : Finset (Fin n), writeQuorum g.dataN g.parityN ≤ S.card ∧
    ∀ (i : Nat) d, (cfg.planner.distribution env k.1 k.2 n)[i]? = some d → d ∈ S →
      DiskHolds env k.1 k.2 g i (disks d)

/-- **A flush keeps what was acknowledged.** Every drained PUT is on a write quorum of disks afterwards,
or still cached, or the flush fails; and a GET returns at every step of it what it returned before. -/
structure FlushSafe (env : Env) (cfg : PoolConfig n) (K : Set CacheKey) (now age : Nat) (p : Pool V n) :
    Prop where
  kept : ∀ k g, CachedPut env cfg k g → (k, g.entry env cfg) ∈ drainedEntries cfg now age p →
    OnQuorum env cfg k g (flushOlderThan cfg now age p).2.disks ∨
      cachedWrite k.1 k.2 (flushOlderThan cfg now age p).2 = some (g.entry env cfg) ∨
      ∃ e, (flushOlderThan cfg now age p).1 = .error e
  served : ∀ done, ∀ k ∈ K, ∀ r, (getObject env k.1 k.2 p).1 = .ok r →
    (getObject env k.1 k.2 (midFlush cfg now age done p)).1 = .ok r

/-- The read cache has every drained PUT, and so few disks fail for it that a write quorum is left. -/
def FlushCovered (env : Env) (cfg : PoolConfig n) (fails : Fin n → CacheKey → Bool) (now age : Nat)
    (p : Pool V n) : Prop :=
  ∀ k g, CachedPut env cfg k g → (k, g.entry env cfg) ∈ drainedEntries cfg now age p →
    cachedRead k.1 k.2 p = some ⟨g.body, g.info env k.1 k.2⟩ ∧
      (Finset.univ.filter fun d => fails d k = true).card + writeQuorum g.dataN g.parityN ≤ n

/-! ## The writes of a flush -/

/-- The key and the disk of a write. -/
def writeTarget (w : CacheKey × ((Fin n × Bytes) × ObjectMeta)) : CacheKey × Fin n := (w.1, w.2.1.1)

/-- **What a sequence of writes leaves on the disks.** -/
structure FlushRun (K : Set CacheKey) (fails : Fin n → CacheKey → Bool)
    (ws : List (CacheKey × ((Fin n × Bytes) × ObjectMeta))) (s t : Disks V n) : Prop where
  bucket : ∀ k ∈ K, ∀ d, bucketExists k.1 (t d) = bucketExists k.1 (s d)
  untouched : ∀ k ∈ K, ∀ d, ((k, d) ∈ ws.map writeTarget → fails d k = true) →
    SameContent k.1 k.2 (s d) (t d)
  written : ∀ w ∈ ws, fails w.2.1.1 w.1 = false → ∃ v v',
    writeShard w.1.1 w.1.2 w.2.1.2 w.2.2 v = (.ok (), v') ∧
      SameContent w.1.1 w.1.2 v' (t w.2.1.1)

section Writes

variable {K : Set CacheKey} {fails : Fin n → CacheKey → Bool} {P : Fin n → V → Prop}

theorem flushWrites_cons (w : CacheKey × ((Fin n × Bytes) × ObjectMeta))
    (ws : List (CacheKey × ((Fin n × Bytes) × ObjectMeta))) (s : Disks V n) :
    (Act.each flushWrite (w :: ws) s).2 = (Act.each flushWrite ws (Function.update s w.2.1.1
      (writeShard w.1.1 w.1.2 w.2.1.2 w.2.2 (s w.2.1.1)).2)).2 := by
  obtain ⟨results, t, hrest⟩ := flushWrites_total ws (Function.update s w.2.1.1
    (writeShard w.1.1 w.1.2 w.2.1.2 w.2.2 (s w.2.1.1)).2)
  have hfirst : flushWrite w s = (.ok _, Function.update s w.2.1.1
    (writeShard w.1.1 w.1.2 w.2.1.2 w.2.2 (s w.2.1.1)).2) := rfl
  rw [Act.each_cons, Act.bind_ok hfirst, Act.bind_ok hrest, hrest]
  rfl

/-- **Writes with different targets leave the shards that did not fail**, and nothing else. -/
theorem flushWrites_run (hT : ∀ d, TakesWrites K (fails d) (P d))
    (ws : List (CacheKey × ((Fin n × Bytes) × ObjectMeta))) (s : Disks V n)
    (hK : ∀ w ∈ ws, w.1 ∈ K) (hnodup : (ws.map writeTarget).Nodup) (hs : ∀ d, P d (s d)) :
    FlushRun K fails ws s (Act.each flushWrite ws s).2 := by
  induction ws generalizing s with
  | nil =>
    exact ⟨fun _ _ _ => rfl, fun k _ d _ => SameContent.refl k.1 k.2 (s d), fun w hw => by cases hw⟩
  | cons w ws ih =>
    obtain ⟨k₀, ⟨d₀, data⟩, m⟩ := w
    rw [map_cons, nodup_cons] at hnodup
    obtain ⟨r, v', hcall, hP', hok, hother⟩ := (hT d₀).write (hs d₀) k₀ (hK _ mem_cons_self) data m
    set s₁ := Function.update s d₀ v' with hs₁
    have hstep : (Act.each flushWrite ((k₀, (d₀, data), m) :: ws) s).2 =
        (Act.each flushWrite ws s₁).2 := by
      rw [flushWrites_cons, hcall]
    have hself : s₁ d₀ = v' := Function.update_self d₀ v' s
    have hne : ∀ d, d ≠ d₀ → s₁ d = s d := fun d hd => Function.update_of_ne hd v' s
    have hrun : FlushRun K fails ws s₁ (Act.each flushWrite ws s₁).2 := by
      refine ih s₁ (fun w hw => hK w (.tail _ hw)) hnodup.2 fun d => ?_
      by_cases hd : d = d₀
      · subst hd
        rw [hself]
        exact hP'
      · rw [hne d hd]
        exact hs d
    rw [hstep]
    refine ⟨fun k hk d => (hrun.bucket k hk d).trans ?_, fun k hk d htarget => ?_, fun w hw hfine => ?_⟩
    · by_cases hd : d = d₀
      · subst hd
        rw [hself]
        exact (hother k hk).1
      · rw [hne d hd]
    · have hrest := hrun.untouched k hk d fun hmem => htarget (.tail _ hmem)
      by_cases hd : d = d₀
      · subst hd
        rw [hself] at hrest
        refine SameContent.trans ((hother k hk).2 ?_) hrest
        by_cases hkey : k = k₀
        · subst hkey
          exact Or.inr (htarget mem_cons_self)
        · exact Or.inl hkey
      · rw [hne d hd] at hrest
        exact hrest
    · rcases mem_cons.mp hw with rfl | hw
      · -- no later write has the same target
        obtain rfl := hok hfine
        refine ⟨s d₀, v', hcall, ?_⟩
        have hlater := hrun.untouched k₀ (hK _ mem_cons_self) d₀ fun hmem => absurd hmem hnodup.1
        rw [hself] at hlater
        exact hlater
      · exact hrun.written w hw hfine

end Writes

/-! ## A flush -/

section Main

variable {env : Env} {cfg : PoolConfig n} {K : Set CacheKey} {fails : Fin n → CacheKey → Bool}
  {P : Fin n → V → Prop} {now age : Nat} {p : Pool V n} {k : CacheKey} {g : Generation n}

/-- The targets of the writes of an entry: its key on each of its disks. -/
theorem CachedPut.targets (hg : CachedPut env cfg k g) :
    (entryWrites (k, g.entry env cfg)).map writeTarget =
      (g.entry env cfg).distribution.map fun d => (k, d) := by
  obtain ⟨hdist, hshards, hmetas⟩ : (g.entry env cfg).distribution.length = n ∧ _ ∧ _ :=
    hg.stored.entry_lengths
  have hinner : ((g.entry env cfg).distribution.zip (g.entry env cfg).shards).map Prod.fst =
      (g.entry env cfg).distribution := map_fst_zip (hdist.trans hshards.symm).le
  have hle : ((g.entry env cfg).distribution.zip (g.entry env cfg).shards).length ≤
      (g.entry env cfg).metas.length := by
    rw [length_zip, hdist, hshards, hmetas]
    exact (min_self n).le
  have hzip : (((g.entry env cfg).distribution.zip (g.entry env cfg).shards).zip
      (g.entry env cfg).metas).map (Prod.fst ∘ Prod.fst) = (g.entry env cfg).distribution := by
    rw [← map_map, map_fst_zip hle, hinner]
  unfold entryWrites
  rw [map_map]
  conv_rhs => rw [← hzip, map_map]
  rfl

/-- The write of a shard is among them. -/
theorem CachedPut.mem_entryWrites (hg : CachedPut env cfg k g) {i : Nat}
    (hi : (cfg.planner.distribution env k.1 k.2 n)[i]? = some d) :
    (k, (d, g.rows.getD i []), g.metaOf env i) ∈ entryWrites (k, g.entry env cfg) := by
  obtain ⟨hdist, hrow, hmeta⟩ := hg.stored.entry_getElem hg.plain hi
  refine mem_map.mpr ⟨((d, g.rows.getD i []), g.metaOf env i), ?_, rfl⟩
  refine mem_iff_getElem?.mpr ⟨i, ?_⟩
  exact getElem?_zip_eq_some.mpr ⟨getElem?_zip_eq_some.mpr ⟨hdist, hrow⟩, hmeta⟩

/-- A GET of a cached PUT. -/
theorem CachedPut.get (hg : CachedPut env cfg k g) {q : Pool V n}
    (hcheck : checkKey k.1 k.2 none q = .ok ())
    (hw : cachedWrite k.1 k.2 q = some (g.entry env cfg)) :
    (getObject env k.1 k.2 q).1 = .ok (g.body, g.info env k.1 k.2) := by
  have hpos : 0 < n := by
    have hdata := hg.stored.data_pos
    have htotal := hg.stored.total
    omega
  have hsize : (g.entry env cfg).originalSize = g.body.length := rfl
  rw [getObject_of_write env hcheck hw, hg.stored.entry_dataShards hpos hg.plain,
    Generation.entry_info hg.plain, hsize, hg.stored.join (Or.inl (hg.small.trans (by decide)))]

/-- What is written is the entry of a cached key. -/
theorem mem_flush_targets (h : (k, d) ∈
    ((drainedEntries cfg now age p).flatMap entryWrites).map writeTarget) :
    ∃ e, (k, e) ∈ drainedEntries cfg now age p := by
  obtain ⟨w, hw, htarget⟩ := mem_map.mp h
  obtain ⟨⟨k', e⟩, hmem, hentry⟩ := mem_flatMap.mp hw
  obtain ⟨u, -, rfl⟩ := mem_map.mp hentry
  obtain rfl : k' = k := congrArg Prod.fst htarget
  exact ⟨e, hmem⟩

variable (hcached : ∀ k e, cachedWrite k.1 k.2 p = some e →
  k ∈ K ∧ ∃ g, CachedPut env cfg k g ∧ e = g.entry env cfg)
include hcached

/-- The writes of a flush have different targets. -/
theorem flush_targets_nodup :
    (((drainedEntries cfg now age p).flatMap entryWrites).map writeTarget).Nodup := by
  rw [map_flatMap, nodup_flatMap]
  constructor
  · rintro ⟨k, e⟩ hmem
    obtain ⟨-, g, hg, rfl⟩ := hcached k e (mem_drainedEntries.mp hmem).1
    rw [hg.targets]
    exact hg.stored.entry_nodup.map fun d d' h => congrArg Prod.snd h
  · have hpair : (drainedEntries cfg now age p).Pairwise fun x y => x.1 ≠ y.1 :=
      pairwise_map.mp drainedEntries_nodup
    refine hpair.imp fun {x y} hne => ?_
    intro target hx hy
    obtain ⟨w, hw, rfl⟩ := mem_map.mp hx
    obtain ⟨w', hw', htarget⟩ := mem_map.mp hy
    obtain ⟨u, -, rfl⟩ := mem_map.mp hw
    obtain ⟨u', -, rfl⟩ := mem_map.mp hw'
    exact hne (congrArg Prod.fst htarget).symm

variable (hT : ∀ d, TakesWrites K (fails d) (P d)) (hp : ∀ d, P d (p.disks d))
include hT hp

/-- **The disks at a step of a flush.** -/
theorem midFlush_run (done : Nat) :
    FlushRun K fails (((drainedEntries cfg now age p).flatMap entryWrites).take done) p.disks
      (midFlush cfg now age done p).disks := by
  refine flushWrites_run hT _ p.disks (fun w hw => ?_) ?_ hp
  · obtain ⟨⟨k, e⟩, hmem, hentry⟩ := mem_flatMap.mp (mem_of_mem_take hw)
    obtain ⟨u, -, rfl⟩ := mem_map.mp hentry
    exact (hcached k e (mem_drainedEntries.mp hmem).1).1
  · exact (flush_targets_nodup hcached).sublist (List.Sublist.map _ (take_sublist _ _))

theorem midFlush_check (done : Nat) (hk : k ∈ K) :
    checkKey k.1 k.2 none (midFlush cfg now age done p) = checkKey k.1 k.2 none p := by
  refine checkKey_congr ?_ none
  unfold headBucket
  simp only [(midFlush_run hcached hT hp done).bucket k hk]

/-- The disks of a key that is not drained read as before. -/
theorem midFlush_untouched (done : Nat) (hk : k ∈ K) (hw : cachedWrite k.1 k.2 p = none) (d : Fin n) :
    SameContent k.1 k.2 (p.disks d) ((midFlush cfg now age done p).disks d) := by
  refine (midFlush_run hcached hT hp done).untouched k hk d fun hmem => ?_
  obtain ⟨e, he⟩ := mem_flush_targets
    (List.Sublist.subset (List.Sublist.map _ (take_sublist _ _)) hmem)
  rw [(mem_drainedEntries.mp he).1] at hw
  cases hw

/-- **A GET during a flush.** -/
theorem FlushCovered.served (hcheck : ∀ k ∈ K, checkKey k.1 k.2 none p = .ok ())
    (hcov : FlushCovered env cfg fails now age p) (done : Nat) (hk : k ∈ K)
    {r : Bytes × ObjectInfo} (hr : (getObject env k.1 k.2 p).1 = .ok r) :
    (getObject env k.1 k.2 (midFlush cfg now age done p)).1 = .ok r := by
  have hcheck' : checkKey k.1 k.2 none (midFlush cfg now age done p) = .ok () :=
    (midFlush_check hcached hT hp done hk).trans (hcheck k hk)
  have hafter : cachedWrite k.1 k.2 (midFlush cfg now age done p) =
      (cachedWrite k.1 k.2 p).filter fun e => !WriteCache.primaryOlder cfg.localNodeId now age e :=
    cachedWrite_drainPool k
  have hreads : cachedRead k.1 k.2 (midFlush cfg now age done p) = cachedRead k.1 k.2 p := rfl
  cases hw : cachedWrite k.1 k.2 p with
  | none =>
    rw [hw] at hafter
    rw [getObject_fst, hcheck k hk, hw] at hr
    rw [getObject_fst, hcheck', hafter, hreads]
    cases hread : cachedRead k.1 k.2 p with
    | some e =>
      rw [hread] at hr
      exact hr
    | none =>
      rw [hread] at hr
      refine Eq.trans ?_ hr
      exact getStored_congr (midFlush_untouched hcached hT hp done hk hw) (hafter.trans hw.symm)
  | some e =>
    obtain ⟨-, g, hg, rfl⟩ := hcached k e hw
    rw [hg.get (hcheck k hk) hw] at hr
    rw [hw, Option.filter_some] at hafter
    cases hsel : WriteCache.primaryOlder cfg.localNodeId now age (g.entry env cfg) with
    | false =>
      rw [hsel] at hafter
      exact (hg.get hcheck' hafter).trans hr
    | true =>
      -- it is out of the write cache, and the read cache has it
      rw [hsel] at hafter
      obtain ⟨hread, -⟩ := hcov k g hg (mem_drainedEntries.mpr ⟨hw, hsel⟩)
      rw [(getObject_of_read env hcheck' hafter (hreads.trans hread)).1]
      exact hr

/-- The disks when the flush is over. -/
theorem flush_run : FlushRun K fails ((drainedEntries cfg now age p).flatMap entryWrites) p.disks
    (flushOlderThan cfg now age p).2.disks := by
  have hrun : FlushRun K fails (((drainedEntries cfg now age p).flatMap entryWrites).take
      ((drainedEntries cfg now age p).flatMap entryWrites).length) p.disks _ :=
    midFlush_run hcached hT hp _
  rw [take_length] at hrun
  rw [flushOlderThan_eq]
  exact hrun

/-- **The disks that do not fail hold the drained PUT** when the flush is over. -/
theorem flush_holds [LawfulBackend V] (hg : CachedPut env cfg k g)
    (hdrained : (k, g.entry env cfg) ∈ drainedEntries cfg now age p) {i : Nat}
    (hi : (cfg.planner.distribution env k.1 k.2 n)[i]? = some d) (hfine : fails d k = false) :
    DiskHolds env k.1 k.2 g i ((flushOlderThan cfg now age p).2.disks d) := by
  obtain ⟨v, v', hcall, hsame⟩ := (flush_run hcached hT hp).written _
    (mem_flatMap.mpr ⟨_, hdrained, hg.mem_entryWrites hi⟩) hfine
  have hvid : g.req.versionId = none := by
    rw [← hg.plain]
    rfl
  exact (DiskHolds.of_writeShard hvid hcall).congr ⟨hsame.read, hsame.mmap, hsame.stat⟩

/-- A disk that fails still does not have it. -/
theorem flush_absent (hk : k ∈ K) (hfails : fails d k = true)
    (habsent : Absent k.1 k.2 (p.disks d)) {m : ObjectMeta} :
    Backend.statObject k.1 k.2 ((flushOlderThan cfg now age p).2.disks d) ≠ .ok m := by
  intro hm
  rw [((flush_run hcached hT hp).untouched k hk d fun _ => hfails).stat, habsent.stat] at hm
  cases hm

/-- **A flush keeps every acknowledged object if the read cache has the drained ones and their quorums
are met.** For objects that no disk has yet the condition is necessary. -/
theorem flush_safe_iff [LawfulBackend V] (hcheck : ∀ k ∈ K, checkKey k.1 k.2 none p = .ok ()) :
    (FlushCovered env cfg fails now age p → FlushSafe env cfg K now age p) ∧
      ((∀ k e, (k, e) ∈ drainedEntries cfg now age p → ∀ d, Absent k.1 k.2 (p.disks d)) →
        (FlushSafe env cfg K now age p ↔ FlushCovered env cfg fails now age p)) := by
  have hsplit : ∀ k, (Finset.univ.filter fun d => fails d k = true).card +
      (Finset.univ.filter fun d => ¬ fails d k = true).card = n := fun k => by
    rw [Finset.card_filter_add_card_filter_not, Finset.card_univ, Fintype.card_fin]
  have hsafe : FlushCovered env cfg fails now age p → FlushSafe env cfg K now age p := by
    intro hcov
    refine ⟨fun k g hg hdrained => Or.inl ?_, fun done k hk r hr =>
      hcov.served hcached hT hp hcheck done hk hr⟩
    obtain ⟨-, hquorum⟩ := hcov k g hg hdrained
    refine ⟨Finset.univ.filter fun d => ¬ fails d k = true, ?_, fun i d hi hd => ?_⟩
    · have := hsplit k
      omega
    · rw [Finset.mem_filter, Bool.not_eq_true] at hd
      exact flush_holds hcached hT hp hg hdrained hi hd.2
  refine ⟨hsafe, fun habsent => ⟨fun h k g hg hdrained => ⟨?_, ?_⟩, hsafe⟩⟩
  · -- right after the drain only the read cache can have it
    obtain ⟨hw, hsel⟩ := mem_drainedEntries.mp hdrained
    obtain ⟨hk, -⟩ := hcached k _ hw
    have hget := h.served 0 k hk _ (hg.get (hcheck k hk) hw)
    have hcheck' : checkKey k.1 k.2 none (midFlush cfg now age 0 p) = .ok () :=
      (midFlush_check hcached hT hp 0 hk).trans (hcheck k hk)
    have hafter : cachedWrite k.1 k.2 (midFlush cfg now age 0 p) = none := by
      refine (cachedWrite_drainPool k).trans ?_
      rw [hw, Option.filter_some, hsel]
      rfl
    have hreads : cachedRead k.1 k.2 (midFlush cfg now age 0 p) = cachedRead k.1 k.2 p := rfl
    cases hread : cachedRead k.1 k.2 p with
    | none =>
      rw [(reads_absent hcheck' hafter (hreads.trans hread) (habsent k _ hdrained)).1] at hget
      cases hget
    | some e =>
      rw [(getObject_of_read env hcheck' hafter (hreads.trans hread)).1, Except.ok.injEq,
        Prod.mk.injEq] at hget
      rw [← hget.1, ← hget.2]
  · -- nothing but a quorum of disks can have it after the flush
    obtain ⟨hw, hsel⟩ := mem_drainedEntries.mp hdrained
    obtain ⟨hk, -⟩ := hcached k _ hw
    rcases h.kept k g hg hdrained with ⟨S, hcard, hholds⟩ | hstill | ⟨e, he⟩
    · have hsub : S ⊆ Finset.univ.filter fun d => ¬ fails d k = true := by
        intro d hd
        rw [Finset.mem_filter]
        refine ⟨Finset.mem_univ d, fun hfails => ?_⟩
        obtain ⟨i, hi⟩ := hg.stored.exists_index d
        exact flush_absent hcached hT hp hk hfails (habsent k _ hdrained d) (hholds i d hi hd).stat
      have hle := Finset.card_le_card hsub
      have := hsplit k
      omega
    · rw [flushOlderThan_eq] at hstill
      have hafter : cachedWrite k.1 k.2 (drainPool cfg now age p) = some (g.entry env cfg) := hstill
      rw [cachedWrite_drainPool, hw, Option.filter_some, hsel] at hafter
      cases hafter
    · simp [flushOlderThan_eq] at he

end Main

end Flush

/-! ## Three disks -/

/-- A small PUT of `x` with one data and two parity shards. -/
def cachedGeneration : Generation 3 :=
  smallGeneration (threeRequest 1) 1 2
    ⟨1, "local-set", 1, 2, [⟨0, 1, "local", "v1"⟩, ⟨1, 2, "local", "v2"⟩, ⟨2, 0, "local", "v0"⟩]⟩
    (utf8 "x") [utf8 "x", utf8 "x", utf8 "x"]

/-- Three empty disks and both caches with that PUT. -/
def cachedPool : Pool LocalVolume 3 where
  disks := KeyRun.bufferedPool.disks
  writeCache := some ⟨AList.insert ("bkt", "k") (cachedGeneration.entry sampleEnv threeConfig) ∅, 0, 0⟩
  readCache := some ((ReadCache.new (256 * 1024 * 1024) 65536).put "bkt" "k"
    ⟨utf8 "x", cachedGeneration.info sampleEnv "bkt" "k"⟩)

theorem cachedGeneration_put : CachedPut sampleEnv threeConfig ("bkt", "k") cachedGeneration := by
  obtain ⟨hplan, hshards⟩ :
      threeConfig.planner.plan sampleEnv "bkt" "k" 1 2 = .ok cachedGeneration.record ∧
        smallShards sampleEnv 1 2 (utf8 "x") = .ok cachedGeneration.rows := by
    decide +kernel
  have hsmall : (utf8 "x").length ≤ logThreshold := by decide
  exact ⟨⟨hplan, rfl, Or.inr ⟨hsmall, hshards⟩⟩, rfl, hsmall⟩

/-- A local volume takes the writes of one key. -/
theorem takesWrites_single {bucket key : String} (ha : Accepted bucket key none) :
    TakesWrites {(bucket, key)} (fun _ => false)
      fun v : LocalVolume => v.Ready bucket key ∧ v.fs.isDir [bucket] = true := by
  have hP := LocalVolume.healthy ha
  refine ⟨fun {v} hv k hk data m => ?_⟩
  obtain rfl : k = (bucket, key) := hk
  obtain ⟨v', hcall, hv'⟩ := hv.1.writeShard ha.bucket_ok ha.key_ok data m
  refine ⟨.ok (), v', hcall, hv', fun _ => rfl, fun k' hk' => ?_⟩
  obtain rfl : k' = (bucket, key) := hk'
  refine ⟨(hP.hasBucket hv').trans (hP.hasBucket hv).symm, fun h => ?_⟩
  rcases h with hne | hfails
  · exact absurd rfl hne
  · cases hfails

/-- With the PUT in the read cache, a GET finds it right after the drain and after one write. -/
theorem flush_safe_iff_three :
    (getObject sampleEnv "bkt" "k" (midFlush threeConfig 1 0 0 cachedPool)).1 = .ok KeyRun.bufferedLast ∧
      (getObject sampleEnv "bkt" "k" (midFlush threeConfig 1 0 1 cachedPool)).1 =
        .ok KeyRun.bufferedLast := by
  have hcached : ∀ k e, cachedWrite k.1 k.2 cachedPool = some e → k ∈ ({("bkt", "k")} : Set CacheKey) ∧
      ∃ g, CachedPut sampleEnv threeConfig k g ∧ e = g.entry sampleEnv threeConfig := by
    intro k e he
    have he : (AList.insert ("bkt", "k") (cachedGeneration.entry sampleEnv threeConfig) ∅ :
      AList fun _ : CacheKey => WriteCacheEntry 3).lookup k = some e := he
    by_cases hk : k = ("bkt", "k")
    · subst hk
      rw [AList.lookup_insert] at he
      exact ⟨rfl, cachedGeneration, cachedGeneration_put, (Option.some.inj he).symm⟩
    · rw [AList.lookup_insert_ne hk] at he
      cases he
  obtain ⟨hcheck, hget, hread⟩ : checkKey "bkt" "k" none cachedPool = .ok () ∧
      (getObject sampleEnv "bkt" "k" cachedPool).1 = .ok KeyRun.bufferedLast ∧
      cachedRead "bkt" "k" cachedPool = some ⟨KeyRun.bufferedLast.1, KeyRun.bufferedLast.2⟩ := by
    decide +kernel
  have hcov : FlushCovered sampleEnv threeConfig (fun _ _ => false) 1 0 cachedPool := by
    intro k g hg hdrained
    obtain ⟨hw, -⟩ := mem_drainedEntries.mp hdrained
    obtain rfl : k = ("bkt", "k") := (hcached k _ hw).1
    have hshown := hg.get hcheck hw
    rw [show (getObject sampleEnv "bkt" "k" cachedPool).1 = _ from hget, Except.ok.injEq] at hshown
    refine ⟨?_, ?_⟩
    · rw [hread, hshown]
    · have htotal := hg.stored.total
      have hquorum : writeQuorum g.dataN g.parityN ≤ g.dataN + g.parityN := writeQuorum_le
      simp only [Bool.false_eq_true, Finset.filter_false, Finset.card_empty]
      omega
  have hsafe := (flush_safe_iff hcached (fun _ => takesWrites_single accepted_sample)
    (fun d => ⟨sampleVolume_ready _, rfl⟩) (by rintro k rfl; exact hcheck)).1 hcov
  exact ⟨hsafe.served 0 _ rfl _ hget, hsafe.served 1 _ rfl _ hget⟩

/-- **An acknowledged object that a flush loses.** `x` is in the write cache only. When the flush has
begun a GET does not find it. When the disks do not take it, the flush at shutdown still succeeds, and
`x` is gone. -/
theorem flush_loses_object :
    let put := putObjectStream sampleEnv threeConfig (threeRequest 1) true [.ok (utf8 "x")]
      KeyRun.bufferedPool
    let broken : Pool LocalVolume 3 :=
      { put.2 with disks := fun d => { put.2.disks d with faults := [some "disk error"] } }
    put.1 = .ok (putInfo sampleEnv (threeRequest 1) (utf8 "x"), []) ∧
      (getObject sampleEnv "bkt" "k" put.2).1 = .ok KeyRun.bufferedLast ∧
      (getObject sampleEnv "bkt" "k" (midFlush threeConfig 1 0 0 put.2)).1 = .error .objectNotFound ∧
      (shutdown threeConfig 1 broken).1 = .ok () ∧
      (getObject sampleEnv "bkt" "k" (shutdown threeConfig 1 broken).2).1 = .error .objectNotFound := by
  decide +kernel

end Abixio
