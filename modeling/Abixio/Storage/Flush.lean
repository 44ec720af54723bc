import Abixio.Storage.VolumePool

/-!
# Destaging the write cache

Model of the drains of the write cache (`src/storage/write_cache.rs:168-222`) and of what the pool
does with them (`src/storage/volume_pool.rs:249-288`): `flush_older_than`, `flush_write_cache` and
`shutdown`.

* A drain takes the selected entries out of the cache before anything is written. `DashMap` lists
  them in some order; here it is that of the map.
* A flush then writes the shards of every drained entry one after another and ignores the answers.
  `midFlush` is the pool after the drain and the first so many of these writes: what a request sees
  that runs while the flush does.
* Times are natural numbers. `now` is the time of the flush.
* `drain_pending_writes`, the second half of `shutdown`, waits for the log of a volume, which the
  file tier does not have.
-/

namespace Abixio

open Lib List

variable {bucket key : String}

namespace WriteCache

variable {n : Nat}

/-- The removal loop of a drain. -/
def drainKeys : List CacheKey → WriteCache n → List (CacheKey × WriteCacheEntry n) × WriteCache n
  | [], c => ([], c)
  | k :: ks, c =>
    match c.lookup k.1 k.2 with
    | some e =>
      let r := drainKeys ks (c.remove k.1 k.2)
      ((k, e) :: r.1, r.2)
    | none => drainKeys ks c

/-- A drain: the keys of the selected entries are collected, then removed. -/
def drainWhere (sel : WriteCacheEntry n → Bool) (c : WriteCache n) :
    List (CacheKey × WriteCacheEntry n) × WriteCache n :=
  drainKeys ((c.entries.entries.filter fun s => sel s.2).map Sigma.fst) c

/-- `drain_primary_older_than`. -/
def drainPrimaryOlderThan (localNodeId : String) (now age : Nat) :
    WriteCache n → List (CacheKey × WriteCacheEntry n) × WriteCache n :=
  drainWhere fun e => age ≤ now - e.cachedAt &&
    (e.primaryNodeId.isEmpty || e.primaryNodeId = localNodeId)

/-- `drain_by_primary`. -/
def drainByPrimary (primaryNodeId : String) :
    WriteCache n → List (CacheKey × WriteCacheEntry n) × WriteCache n :=
  drainWhere fun e => e.primaryNodeId = primaryNodeId

variable {c : WriteCache n} {k : CacheKey} {e : WriteCacheEntry n} {sel : WriteCacheEntry n → Bool}

theorem lookup_remove_of_ne (h : k ≠ (bucket, key)) :
    (c.remove bucket key).lookup k.1 k.2 = c.lookup k.1 k.2 := by
  unfold remove
  split
  · exact AList.lookup_erase_ne h
  · rfl

theorem insert_of_inserted {c' : WriteCache n} (h : c.inserted bucket key e = some c') :
    c.insert bucket key e = (true, c') := by
  unfold inserted at h
  split_ifs at h with htaken
  exact Prod.ext htaken (Option.some.inj h)

theorem lookup_insert (h : (c.insert bucket key e).1 = true) :
    (c.insert bucket key e).2.lookup bucket key = some e := by
  unfold insert at h ⊢
  split_ifs at h ⊢
  exact AList.lookup_insert _

theorem lookup_insert_of_ne (hk : k ≠ (bucket, key)) :
    (c.insert bucket key e).2.lookup k.1 k.2 = c.lookup k.1 k.2 := by
  unfold insert
  split_ifs
  · rfl
  · exact AList.lookup_insert_ne hk

theorem lookup_inserted {c' : WriteCache n} (h : c.inserted bucket key e = some c') :
    c'.lookup bucket key = some e := by
  have hins := insert_of_inserted h
  have hlookup := lookup_insert (congrArg Prod.fst hins)
  rwa [hins] at hlookup

theorem lookup_inserted_of_ne {c' : WriteCache n} (h : c.inserted bucket key e = some c')
    (hk : k ≠ (bucket, key)) : c'.lookup k.1 k.2 = c.lookup k.1 k.2 := by
  have hlookup : (c.insert bucket key e).2.lookup k.1 k.2 = c.lookup k.1 k.2 := lookup_insert_of_ne hk
  rwa [insert_of_inserted h] at hlookup

/-- The removal loop takes exactly the entries of its keys. -/
theorem drainKeys_spec : ∀ {ks : List CacheKey} {c : WriteCache n}, ks.Nodup →
    (∀ k e, (k, e) ∈ (drainKeys ks c).1 ↔ k ∈ ks ∧ c.lookup k.1 k.2 = some e) ∧
      (∀ k ∈ ks, (drainKeys ks c).2.lookup k.1 k.2 = none) ∧
      ∀ k, k ∉ ks → (drainKeys ks c).2.lookup k.1 k.2 = c.lookup k.1 k.2
  | [], c, _ => by
    refine ⟨fun k e => ?_, fun k hk => ?_, fun k _ => rfl⟩
    · simp [drainKeys]
    · cases hk
  | k₀ :: ks, c, hnd => by
    rw [nodup_cons] at hnd
    unfold drainKeys
    cases h₀ : c.lookup k₀.1 k₀.2 with
    | none =>
      obtain ⟨hmem, hgone, hkept⟩ := drainKeys_spec (c := c) hnd.2
      refine ⟨fun k e => ?_, fun k hk => ?_, fun k hk => hkept k fun h => hk (.tail _ h)⟩
      · rw [hmem, mem_cons]
        constructor
        · rintro ⟨hk, he⟩
          exact ⟨Or.inr hk, he⟩
        · rintro ⟨rfl | hk, he⟩
          · simp [h₀] at he
          · exact ⟨hk, he⟩
      · rcases mem_cons.mp hk with rfl | hk
        · exact (hkept k hnd.1).trans h₀
        · exact hgone k hk
    | some e₀ =>
      obtain ⟨hmem, hgone, hkept⟩ := drainKeys_spec (c := c.remove k₀.1 k₀.2) hnd.2
      refine ⟨fun k e => ?_, fun k hk => ?_, fun k hk => ?_⟩
      · simp only [mem_cons, Prod.mk.injEq, hmem]
        by_cases hk : k = k₀
        · subst hk
          rw [h₀, Option.some.injEq]
          constructor
          · rintro (⟨-, rfl⟩ | ⟨hin, -⟩)
            · exact ⟨Or.inl rfl, rfl⟩
            · exact absurd hin hnd.1
          · rintro ⟨-, rfl⟩
            exact Or.inl ⟨rfl, rfl⟩
        · simp only [hk, false_and, false_or, lookup_remove_of_ne (c := c) hk]
      · rcases mem_cons.mp hk with rfl | hk
        · exact (hkept k hnd.1).trans lookup_remove
        · exact hgone k hk
      · rw [mem_cons, not_or] at hk
        exact (hkept k hk.2).trans (lookup_remove_of_ne hk.1)

theorem mem_drainWhere_keys : k ∈ (c.entries.entries.filter fun s => sel s.2).map Sigma.fst ↔
    ∃ e, c.lookup k.1 k.2 = some e ∧ sel e = true := by
  constructor
  · intro h
    obtain ⟨⟨k', e⟩, hs, rfl⟩ := mem_map.mp h
    obtain ⟨hmem, hsel⟩ := mem_filter.mp hs
    exact ⟨e, AList.mem_lookup_iff.mpr hmem, hsel⟩
  · rintro ⟨e, he, hsel⟩
    exact mem_map.mpr ⟨⟨k, e⟩, mem_filter.mpr ⟨AList.mem_lookup_iff.mp he, hsel⟩, rfl⟩

theorem drainKeys_sublist : ∀ (ks : List CacheKey) (c : WriteCache n),
    ((drainKeys ks c).1.map Prod.fst).Sublist ks
  | [], _ => List.Sublist.slnil
  | k :: ks, c => by
    unfold drainKeys
    split
    · exact (drainKeys_sublist ks _).cons_cons k
    · exact (drainKeys_sublist ks c).cons k

/-- A drain takes an entry once. -/
theorem drainWhere_nodup : ((drainWhere sel c).1.map Prod.fst).Nodup :=
  ((filter_sublist.map Sigma.fst).nodup c.entries.nodupKeys).sublist (drainKeys_sublist _ c)

/-- **A drain takes the selected entries**, -/
theorem mem_drainWhere :
    (k, e) ∈ (drainWhere sel c).1 ↔ c.lookup k.1 k.2 = some e ∧ sel e = true := by
  have hnd : ((c.entries.entries.filter fun s => sel s.2).map Sigma.fst).Nodup :=
    List.Nodup.sublist (List.Sublist.map _ filter_sublist) c.entries.nodupKeys
  unfold drainWhere
  rw [(drainKeys_spec hnd).1, mem_drainWhere_keys]
  constructor
  · rintro ⟨⟨e', he', hsel⟩, he⟩
    rw [he, Option.some.injEq] at he'
    exact ⟨he, he' ▸ hsel⟩
  · rintro ⟨he, hsel⟩
    exact ⟨⟨e, he, hsel⟩, he⟩

/-- **and leaves the others.** -/
theorem lookup_drainWhere (k : CacheKey) : (drainWhere sel c).2.lookup k.1 k.2 =
    (c.lookup k.1 k.2).filter fun e => !sel e := by
  have hnd : ((c.entries.entries.filter fun s => sel s.2).map Sigma.fst).Nodup :=
    List.Nodup.sublist (List.Sublist.map _ filter_sublist) c.entries.nodupKeys
  obtain ⟨-, hgone, hkept⟩ := drainKeys_spec (c := c) hnd
  by_cases hk : k ∈ (c.entries.entries.filter fun s => sel s.2).map Sigma.fst
  · obtain ⟨e, he, hsel⟩ := mem_drainWhere_keys.mp hk
    rw [he, Option.filter_some, hsel]
    exact hgone k hk
  · refine (hkept k hk).trans ?_
    cases he : c.lookup k.1 k.2 with
    | none => rfl
    | some e =>
      have hsel : sel e = false := by
        rw [← Bool.not_eq_true]
        exact fun hsel => hk (mem_drainWhere_keys.mpr ⟨e, he, hsel⟩)
      rw [Option.filter_some, hsel]
      rfl

end WriteCache

section Flush

variable {V W : Type} [Backend V W] {n : Nat} (cfg : PoolConfig n)

/-- The `write_shard` calls of one drained entry. -/
def entryWrites (drained : CacheKey × WriteCacheEntry n) :
    List (CacheKey × ((Fin n × Bytes) × ObjectMeta)) :=
  ((drained.2.distribution.zip drained.2.shards).zip drained.2.metas).map fun w => (drained.1, w)

/-- One of them. Its answer is ignored. -/
def flushWrite (w : CacheKey × ((Fin n × Bytes) × ObjectMeta)) :
    PoolAct V n (Except StorageError Unit) :=
  Act.at w.2.1.1 (Act.attempt (Backend.writeShard w.1.1 w.1.2 w.2.1.2 w.2.2))

/-- What a flush drains. -/
def drainedEntries (now age : Nat) (p : Pool V n) : List (CacheKey × WriteCacheEntry n) :=
  (p.writeCache.map fun c => (c.drainPrimaryOlderThan cfg.localNodeId now age).1).getD []

/-- The pool after the drain. -/
def drainPool (now age : Nat) (p : Pool V n) : Pool V n :=
  { p with writeCache := p.writeCache.map fun c => (c.drainPrimaryOlderThan cfg.localNodeId now age).2 }

/-- `flush_older_than`. -/
def flushOlderThan (now age : Nat) : PoolOp V n Unit := do
  let drained ← Act.read (drainedEntries cfg now age)
  Act.modify (drainPool cfg now age)
  let _ ← onDisks (Act.each flushWrite (drained.flatMap entryWrites))
  pure ()

/-- `flush_write_cache`. -/
def flushWriteCache (now : Nat) : PoolOp V n Unit := flushOlderThan cfg now 0

/-- `shutdown`, which logs a failed flush. -/
def shutdown (now : Nat) : PoolOp V n Unit := do
  let _ ← Act.attempt (flushWriteCache cfg now)
  pure ()

/-- The pool after the drain of a flush and its first `done` writes. -/
def midFlush (now age done : Nat) (p : Pool V n) : Pool V n :=
  { drainPool cfg now age p with
    disks := (Act.each flushWrite
      (((drainedEntries cfg now age p).flatMap entryWrites).take done) p.disks).2 }

variable {cfg} {now age : Nat} {p : Pool V n}

/-- What a flush selects. -/
def WriteCache.primaryOlder (localNodeId : String) (now age : Nat) (e : WriteCacheEntry n) : Bool :=
  age ≤ now - e.cachedAt && (e.primaryNodeId.isEmpty || e.primaryNodeId = localNodeId)

theorem mem_drainedEntries {k : CacheKey} {e : WriteCacheEntry n} :
    (k, e) ∈ drainedEntries cfg now age p ↔
      cachedWrite k.1 k.2 p = some e ∧ WriteCache.primaryOlder cfg.localNodeId now age e = true := by
  unfold drainedEntries cachedWrite
  cases p.writeCache with
  | none => simp
  | some c => exact WriteCache.mem_drainWhere

theorem drainedEntries_nodup : ((drainedEntries cfg now age p).map Prod.fst).Nodup := by
  unfold drainedEntries
  cases p.writeCache with
  | none => exact nodup_nil
  | some c => exact WriteCache.drainWhere_nodup

/-- The entry of a key after the drain. -/
theorem cachedWrite_drainPool (k : CacheKey) : cachedWrite k.1 k.2 (drainPool cfg now age p) =
    (cachedWrite k.1 k.2 p).filter fun e => !WriteCache.primaryOlder cfg.localNodeId now age e := by
  unfold drainPool cachedWrite
  cases p.writeCache with
  | none => rfl
  | some c => exact WriteCache.lookup_drainWhere k

theorem flushWrites_total (ws : List (CacheKey × ((Fin n × Bytes) × ObjectMeta))) (s : Disks V n) :
    ∃ results t, Act.each flushWrite ws s = (.ok results, t) :=
  Act.each_total (fun _ _ => ⟨_, _, rfl⟩) ws s

/-- The writes of one entry are those of a small PUT. -/
theorem flushEntry_eq (bucket key : String) (e : WriteCacheEntry n) :
    Act.each flushWrite (entryWrites ((bucket, key), e)) =
      (writeShards bucket key e : PoolAct V n (List (Except StorageError Unit))) := by
  have hmap : ∀ l : List ((Fin n × Bytes) × ObjectMeta),
      Act.each flushWrite (l.map fun w => ((bucket, key), w)) =
        (Act.each (fun s : (Fin n × Bytes) × ObjectMeta =>
          Act.at s.1.1 (Act.attempt (Backend.writeShard bucket key s.1.2 s.2))) l :
            PoolAct V n (List (Except StorageError Unit))) := by
    intro l
    induction l with
    | nil => rfl
    | cons w l ih =>
      rw [map_cons, Act.each_cons, Act.each_cons, ih]
      rfl
  exact hmap _

/-- **A flush always succeeds**, and ends when all its writes are done. -/
theorem flushOlderThan_eq : flushOlderThan cfg now age p = (.ok (), midFlush cfg now age
    ((drainedEntries cfg now age p).flatMap entryWrites).length p) := by
  obtain ⟨results, t, hrun⟩ := flushWrites_total
    ((drainedEntries cfg now age p).flatMap entryWrites) p.disks
  unfold flushOlderThan midFlush
  rw [take_length]
  have hdisks : onDisks (Act.each flushWrite ((drainedEntries cfg now age p).flatMap entryWrites))
      (drainPool cfg now age p) = (.ok results, { drainPool cfg now age p with disks := t }) := by
    unfold onDisks
    rw [show Act.each flushWrite ((drainedEntries cfg now age p).flatMap entryWrites)
      (drainPool cfg now age p).disks = (.ok results, t) from hrun]
  simp only [Act.bind_apply, Act.read_apply, Act.modify_apply, hdisks, hrun]
  rfl

end Flush

end Abixio
