import Abixio.Lib.Weights
import Abixio.Storage.Flush

/-!
# The byte counters of the caches

Both caches keep a counter of bytes beside their map (`src/storage/write_cache.rs:109-222`,
`src/storage/read_cache.rs:93-152`). Over any sequence of calls it is the size of the entries held, at
most `max_bytes`.

* `WriteCache.run_accounts`: an insertion takes the entry or changes nothing, and a drain takes its
  entries and no others.
* `ReadCache.run_lru`: what is held is the last entry put, in the order of the last get or put of its key,
  and a put evicts from the end of this order until the rest fits. A subtraction saturates only if an entry
  is larger than the counter.

Sizes are natural numbers: 2⁶⁴ bytes are not in memory.
-/

namespace Abixio

open Lib List

open Lib (total Trims)
open ReadCacheEntry (memSize)

namespace WriteCache

variable {n : Nat} {maxBytes : Nat} {c : WriteCache n}

/-- The calls on a write cache. -/
inductive Op (n : Nat) where
  | insert (bucket key : String) (entry : WriteCacheEntry n)
  | get (bucket key : String)
  | remove (bucket key : String)
  | drainPrimaryOlderThan (localNodeId : String) (now age : Nat)
  | drainByPrimary (primaryNodeId : String)

/-- The cache after a call. -/
def Op.apply (c : WriteCache n) : Op n → WriteCache n
  | .insert bucket key entry => (c.insert bucket key entry).2
  | .get _ _ => c
  | .remove bucket key => c.remove bucket key
  | .drainPrimaryOlderThan node now age => (c.drainPrimaryOlderThan node now age).2
  | .drainByPrimary node => (c.drainByPrimary node).2

/-- **The counter is exact** and within the limit. -/
structure Exact (maxBytes : Nat) (c : WriteCache n) : Prop where
  limit : c.maxBytes = maxBytes
  size : c.sizeBytes = total WriteCacheEntry.memSize c.entries.entries
  bound : c.sizeBytes ≤ maxBytes

theorem Exact.remove (h : c.Exact maxBytes) (bucket key : String) : (c.remove bucket key).Exact maxBytes := by
  unfold WriteCache.remove
  split
  · rename_i old hold
    have hsum := weight_erase (f := WriteCacheEntry.memSize) hold
    have hsize := h.size
    have hbound := h.bound
    refine ⟨h.limit, ?_, ?_⟩ <;> simp only <;> omega
  · exact h

theorem Exact.insert (h : c.Exact maxBytes) (bucket key : String) (e : WriteCacheEntry n) :
    (c.insert bucket key e).2.Exact maxBytes := by
  unfold WriteCache.insert
  split_ifs with hfull
  · exact h
  have hlimit := h.limit
  have hsize := h.size
  refine ⟨hlimit, ?_, ?_⟩
  · rw [weight_insert]
    cases hold : c.lookup bucket key with
    | none =>
      rw [erase_of_lookup_none hold]
      simp only [Option.elim_none]
      omega
    | some old =>
      have hsum := weight_erase (f := WriteCacheEntry.memSize) hold
      simp only [Option.elim_some]
      omega
  · simp only
    omega

theorem insert_refused {bucket key : String} {e : WriteCacheEntry n} (h : (c.insert bucket key e).1 = false) :
    (c.insert bucket key e).2 = c := by
  unfold WriteCache.insert at h ⊢
  split_ifs at h ⊢
  rfl

theorem Exact.drainKeys (ks : List CacheKey) (h : c.Exact maxBytes) : (drainKeys ks c).2.Exact maxBytes := by
  induction ks generalizing c with
  | nil => exact h
  | cons k ks ih =>
    unfold WriteCache.drainKeys
    split
    · exact ih (h.remove k.1 k.2)
    · exact ih h

theorem Exact.apply (h : c.Exact maxBytes) : ∀ op : Op n, (op.apply c).Exact maxBytes
  | .insert bucket key entry => h.insert bucket key entry
  | .get _ _ => h
  | .remove bucket key => h.remove bucket key
  | .drainPrimaryOlderThan _ _ _ => h.drainKeys _
  | .drainByPrimary _ => h.drainKeys _

theorem Exact.run (h : c.Exact maxBytes) (ops : List (Op n)) : (ops.foldl Op.apply c).Exact maxBytes := by
  induction ops generalizing c with
  | nil => exact h
  | cons op ops ih => exact ih (h.apply op)

/-- **A drain returns the entries `p` holds of, each once**, and leaves the others. -/
structure Drains (p : WriteCacheEntry n → Prop) (c : WriteCache n)
    (r : List (CacheKey × WriteCacheEntry n) × WriteCache n) : Prop where
  once : (r.1.map Prod.fst).Nodup
  taken : ∀ k e, (k, e) ∈ r.1 ↔ c.lookup k.1 k.2 = some e ∧ p e
  left : ∀ (k : CacheKey) e, r.2.lookup k.1 k.2 = some e ↔ c.lookup k.1 k.2 = some e ∧ ¬ p e

theorem drains_where {sel : WriteCacheEntry n → Bool} {p : WriteCacheEntry n → Prop}
    (h : ∀ e, sel e = true ↔ p e) : Drains p c (drainWhere sel c) :=
  ⟨drainWhere_nodup, fun k e => by rw [mem_drainWhere, h], fun k e => by
    rw [lookup_drainWhere, Option.filter_eq_some_iff, ← h, Bool.not_eq_true', Bool.not_eq_true]⟩

/-- What the calls on a write cache do. -/
structure Accounts (maxBytes : Nat) (c : WriteCache n) : Prop where
  size : c.sizeBytes = total WriteCacheEntry.memSize c.entries.entries
  bound : c.sizeBytes ≤ maxBytes
  refused : ∀ bucket key e, (c.insert bucket key e).1 = false → (c.insert bucket key e).2 = c
  taken : ∀ bucket key e, (c.insert bucket key e).1 = true →
    (c.insert bucket key e).2.lookup bucket key = some e
  older : ∀ node now age, Drains
    (fun e => age ≤ now - e.cachedAt ∧ (e.primaryNodeId = "" ∨ e.primaryNodeId = node)) c
    (c.drainPrimaryOlderThan node now age)
  owned : ∀ node, Drains (fun e => e.primaryNodeId = node) c (c.drainByPrimary node)

/-- **The write cache over any sequence of calls.** -/
theorem run_accounts (maxBytes : Nat) (ops : List (Op n)) :
    Accounts maxBytes (ops.foldl Op.apply (new maxBytes)) := by
  have hexact := Exact.run (c := new maxBytes) ⟨rfl, rfl, Nat.zero_le _⟩ ops
  refine ⟨hexact.size, hexact.bound, fun bucket key e => insert_refused, fun bucket key e => lookup_insert,
    fun node now age => drains_where fun e => ?_, fun node => drains_where fun e => decide_eq_true_iff⟩
  simp

end WriteCache

variable {last : CacheKey → Option ReadCacheEntry}

namespace ReadCache

variable {maxBytes maxObjectBytes : Nat} {c : ReadCache} {bucket key : String} {e : ReadCacheEntry}

/-- The calls on a read cache. -/
inductive Op where
  | get (bucket key : String)
  | put (bucket key : String) (entry : ReadCacheEntry)
  | invalidate (bucket key : String)
  | invalidateBucket (bucket : String)

/-- The cache after a call. -/
def Op.apply (c : ReadCache) : Op → ReadCache
  | .get bucket key => c.touch bucket key
  | .put bucket key entry => c.put bucket key entry
  | .invalidate bucket key => c.invalidate bucket key
  | .invalidateBucket bucket => c.invalidateBucket bucket

/-- The last entry of `k` that was accepted, unless it was invalidated since. -/
def Op.track (maxObjectBytes : Nat) (k : CacheKey) (last : Option ReadCacheEntry) : Op → Option ReadCacheEntry
  | .get _ _ => last
  | .put bucket key e => if k = (bucket, key) ∧ e.data.length ≤ maxObjectBytes then some e else last
  | .invalidate bucket key => if k = (bucket, key) then none else last
  | .invalidateBucket bucket => if k.1 = bucket then none else last

/-- The keys in order of use, the most recent first: a get and an accepted put of a key use it. -/
def Op.recent (maxObjectBytes : Nat) (used : List CacheKey) : Op → List CacheKey
  | .get bucket key => (bucket, key) :: used.filter (· ≠ (bucket, key))
  | .put bucket key e =>
    if e.data.length ≤ maxObjectBytes then (bucket, key) :: used.filter (· ≠ (bucket, key)) else used
  | .invalidate _ _ | .invalidateBucket _ => used

/-- The cache of a put before it evicts. -/
def admitted (bucket key : String) (e : ReadCacheEntry) (c : ReadCache) : ReadCache :=
  { c.invalidate bucket key with
    map := (c.invalidate bucket key).map.insert (bucket, key) e
    sizeBytes := (c.invalidate bucket key).sizeBytes + e.memSize }

/-- **The counter is exact.** -/
structure Counted (maxBytes maxObjectBytes : Nat) (c : ReadCache) : Prop where
  limit : c.maxBytes = maxBytes
  objectLimit : c.maxObjectBytes = maxObjectBytes
  size : c.sizeBytes = total memSize c.map.entries

theorem invalidate_map : (c.invalidate bucket key).map.entries = (c.map.erase (bucket, key)).entries := by
  unfold invalidate
  split
  · rfl
  · rename_i h
    exact (erase_of_lookup_none h).symm

section Steps

variable (h : c.Counted maxBytes maxObjectBytes)
include h

/-- No subtraction saturates. -/
theorem Counted.memSize_le {k : CacheKey} (he : c.map.lookup k = some e) : e.memSize ≤ c.sizeBytes :=
  h.size ▸ weight_le he

theorem Counted.invalidate (bucket key : String) : (c.invalidate bucket key).Counted maxBytes maxObjectBytes := by
  unfold ReadCache.invalidate
  split
  · rename_i old hold
    have hsum := weight_erase (f := memSize) hold
    have hsize := h.size
    refine ⟨h.limit, h.objectLimit, ?_⟩
    simp only
    omega
  · exact h

theorem Counted.touch (bucket key : String) : (c.touch bucket key).Counted maxBytes maxObjectBytes := by
  unfold ReadCache.touch
  split
  · rename_i e he
    refine ⟨h.limit, h.objectLimit, ?_⟩
    rw [weight_insert, Nat.add_comm, weight_erase he]
    exact h.size
  · exact h

theorem Counted.admitted (bucket key : String) (e : ReadCacheEntry) :
    (c.admitted bucket key e).Counted maxBytes maxObjectBytes := by
  have hinv := h.invalidate bucket key
  refine ⟨hinv.limit, hinv.objectLimit, ?_⟩
  have hnone : (c.invalidate bucket key).map.lookup (bucket, key) = none := lookup_invalidate
  rw [ReadCache.admitted, weight_insert, erase_of_lookup_none hnone, ← hinv.size, Nat.add_comm]

theorem Counted.invalidateAll (ks : List CacheKey) :
    (ks.foldl (fun c k => c.invalidate k.1 k.2) c).Counted maxBytes maxObjectBytes := by
  induction ks generalizing c with
  | nil => exact h
  | cons k ks ih => exact ih (h.invalidate k.1 k.2)

/-- **The eviction loop** keeps the counter exact, and with enough turns it stops when the rest fits. -/
theorem Counted.evict (fuel : Nat) : (evict fuel c).Counted maxBytes maxObjectBytes ∧
    (c.map.entries.length ≤ fuel →
      Trims memSize maxBytes c.map.entries (evict fuel c).map.entries) := by
  induction fuel generalizing c with
  | zero =>
    refine ⟨h, fun hlen => Trims.refl ?_⟩
    rw [length_eq_zero_iff.mp (Nat.le_zero.mp hlen)]
    exact Nat.zero_le _
  | succ fuel ih =>
    unfold ReadCache.evict
    have hsize := h.size
    have hlimit := h.limit
    split_ifs with hover
    · split
      · rename_i hnone
        refine ⟨h, fun _ => Trims.refl ?_⟩
        rw [getLast?_eq_none_iff.mp hnone]
        exact Nat.zero_le _
      · rename_i lru hlast
        obtain ⟨l, hl⟩ := getLast?_eq_some_iff.mp hlast
        have hlru : c.map.lookup lru.1 = some lru.2 :=
          AList.mem_lookup_iff.mpr (hl ▸ mem_append_right l (mem_singleton.mpr rfl))
        have hsum := weight_erase (f := memSize) hlru
        obtain ⟨hcounted, htrims⟩ := ih (c := { c with
          map := c.map.erase lru.1, sizeBytes := c.sizeBytes - lru.2.memSize })
          ⟨hlimit, h.objectLimit, by simp only; omega⟩
        refine ⟨hcounted, fun hlen => ?_⟩
        rw [erase_getLast hl] at htrims
        rw [hl, length_append, length_singleton] at hlen
        rw [hl]
        exact (htrims (by omega)).concat (by rw [← hl]; omega)
    · exact ⟨h, fun _ => Trims.refl (by omega)⟩

end Steps

theorem total_pos {l : List (Sigma fun _ : CacheKey => ReadCacheEntry)} (h : l ≠ []) :
    0 < total memSize l := by
  cases l with
  | nil => exact absurd rfl h
  | cons s l =>
    simp only [total, map_cons, sum_cons, memSize]
    omega

/-- What an accepted put leaves: the new entry and then the others, as many as fit. -/
theorem Counted.put (h : c.Counted maxBytes maxObjectBytes) (bucket key : String) (hbound : c.sizeBytes ≤ maxBytes)
    (hdata : e.data.length ≤ maxObjectBytes) : (c.put bucket key e).Counted maxBytes maxObjectBytes ∧
      Trims memSize maxBytes (⟨(bucket, key), e⟩ :: (c.map.erase (bucket, key)).entries)
        (c.put bucket key e).map.entries := by
  unfold ReadCache.put
  rw [h.limit, h.objectLimit]
  by_cases hzero : maxBytes = 0
  · -- a cache of no bytes is empty
    have hnil : c.map.entries = [] := by
      by_contra hne
      have hpos := total_pos hne
      have hsize := h.size
      omega
    rw [if_pos (.inr hzero), hnil, hzero]
    exact ⟨hzero ▸ h, nil_prefix, Nat.le_refl _, fun l _ hlt => total_pos (length_pos_iff.mp hlt)⟩
  · rw [if_neg (by omega)]
    obtain ⟨hcounted, htrims⟩ := (h.admitted bucket key e).evict (c.admitted bucket key e).map.entries.length
    refine ⟨hcounted, ?_⟩
    have hentries : (c.admitted bucket key e).map.entries =
        ⟨(bucket, key), e⟩ :: (c.map.erase (bucket, key)).entries := by
      have hnone : (c.invalidate bucket key).map.lookup (bucket, key) = none := lookup_invalidate
      rw [← invalidate_map, ← erase_of_lookup_none hnone]
      rfl
    rw [← hentries]
    exact htrims (Nat.le_refl _)

/-- What holds between the calls, when `last` are the entries put last. -/
structure Holds (maxBytes maxObjectBytes : Nat) (last : CacheKey → Option ReadCacheEntry) (c : ReadCache) :
    Prop where
  counted : c.Counted maxBytes maxObjectBytes
  bound : c.sizeBytes ≤ maxBytes
  latest : ∀ k e, c.map.lookup k = some e → last k = some e

theorem sizeBytes_touch : (c.touch bucket key).sizeBytes = c.sizeBytes := by
  unfold touch
  split <;> rfl

theorem sizeBytes_invalidate_le : (c.invalidate bucket key).sizeBytes ≤ c.sizeBytes := by
  unfold invalidate
  split
  · exact Nat.sub_le _ _
  · exact Nat.le_refl _

theorem sizeBytes_invalidateAll_le (ks : List CacheKey) :
    (ks.foldl (fun c k => c.invalidate k.1 k.2) c).sizeBytes ≤ c.sizeBytes := by
  induction ks generalizing c with
  | nil => exact Nat.le_refl _
  | cons k ks ih => exact ih.trans sizeBytes_invalidate_le

theorem put_rejected (h : c.Counted maxBytes maxObjectBytes) (hdata : maxObjectBytes < e.data.length) :
    c.put bucket key e = c :=
  if_pos (.inl (h.objectLimit ▸ hdata))

/-! ### The order of use -/

/-- Without its key a map keeps the order of the others. -/
theorem keys_erase {used : List CacheKey} (h : c.map.keys <+ used) (k : CacheKey) :
    (c.map.erase k).keys <+ used.filter (· ≠ k) := by
  have hsub : (c.map.erase k).keys <+ used := (((kerase_sublist k _).map Sigma.fst).trans h :)
  have hout : (c.map.erase k).keys.filter (· ≠ k) = (c.map.erase k).keys :=
    filter_eq_self.mpr fun k' hk' => decide_eq_true (AList.mem_erase.mp (AList.mem_keys.mpr hk')).1
  exact hout ▸ hsub.filter (· ≠ k)

theorem keys_invalidate_sublist : (c.invalidate bucket key).map.keys <+ c.map.keys := by
  show (c.invalidate bucket key).map.entries.keys <+ _
  rw [invalidate_map]
  exact (kerase_sublist _ _).map Sigma.fst

theorem keys_invalidateAll_sublist (ks : List CacheKey) :
    (ks.foldl (fun c k => c.invalidate k.1 k.2) c).map.keys <+ c.map.keys := by
  induction ks generalizing c with
  | nil => exact Sublist.refl _
  | cons k ks ih => exact ih.trans keys_invalidate_sublist

/-- A get moves its key to the front, if the cache has it. -/
theorem keys_touch {used : List CacheKey} (h : c.map.keys <+ used) :
    (c.touch bucket key).map.keys <+ (bucket, key) :: used.filter (· ≠ (bucket, key)) := by
  unfold touch
  split
  · exact (keys_erase h (bucket, key)).cons_cons _
  · rename_i hnone
    have herase := keys_erase h (bucket, key)
    have hsame : (c.map.erase (bucket, key)).entries = c.map.entries := erase_of_lookup_none hnone
    have hkeys : (c.map.erase (bucket, key)).keys = c.map.keys := congrArg List.keys hsame
    exact (hkeys ▸ herase).cons _

/-- **The entries are in the order of use.** -/
theorem keys_apply {used : List CacheKey} (hcounted : c.Counted maxBytes maxObjectBytes)
    (hbound : c.sizeBytes ≤ maxBytes) (h : c.map.keys <+ used) (op : Op) :
    (op.apply c).map.keys <+ op.recent maxObjectBytes used := by
  cases op with
  | get bucket key => exact keys_touch h
  | put bucket key e =>
    by_cases hdata : e.data.length ≤ maxObjectBytes
    · have hkept := ((hcounted.put bucket key hbound hdata).2.kept.map Sigma.fst).sublist
      rw [Op.recent, if_pos hdata]
      refine hkept.trans ?_
      exact (keys_erase h (bucket, key)).cons_cons _
    · rw [Op.recent, if_neg hdata, Op.apply, put_rejected hcounted (by omega)]
      exact h
  | invalidate bucket key => exact keys_invalidate_sublist.trans h
  | invalidateBucket bucket => exact (keys_invalidateAll_sublist _).trans h

theorem Holds.apply (h : Holds maxBytes maxObjectBytes last c)
    (op : Op) : Holds maxBytes maxObjectBytes (fun k => op.track maxObjectBytes k (last k)) (op.apply c) := by
  obtain ⟨hcounted, hbound, hlatest⟩ := h
  cases op with
  | get bucket key =>
    refine ⟨hcounted.touch bucket key, ?_, fun k e he => hlatest k e ?_⟩
    · rwa [Op.apply, sizeBytes_touch]
    · by_cases hk : k = (bucket, key)
      · subst hk
        exact lookup_touch.symm.trans he
      · exact (lookup_touch_of_ne hk).symm.trans he
  | put bucket key e =>
    by_cases hdata : e.data.length ≤ maxObjectBytes
    · obtain ⟨hput, htrims⟩ := hcounted.put bucket key hbound hdata
      refine ⟨hput, hput.size ▸ htrims.fits, fun k e' he => ?_⟩
      rcases mem_cons.mp (htrims.kept.subset (AList.mem_lookup_iff.mp he)) with heq | hmem
      · cases heq
        exact if_pos ⟨rfl, hdata⟩
      · have herase := AList.mem_lookup_iff.mpr hmem
        have hk : k ≠ (bucket, key) := by
          rintro rfl
          rw [AList.lookup_erase] at herase
          cases herase
        rw [AList.lookup_erase_ne hk] at herase
        exact (if_neg fun h => hk h.1).trans (hlatest k e' herase)
    · have hsame : c.put bucket key e = c := put_rejected hcounted (by omega)
      simp only [Op.apply, Op.track, hsame, hdata, and_false, if_false]
      exact ⟨hcounted, hbound, hlatest⟩
  | invalidate bucket key =>
    refine ⟨hcounted.invalidate bucket key, sizeBytes_invalidate_le.trans hbound, fun k e he => ?_⟩
    by_cases hk : k = (bucket, key)
    · subst hk
      cases (lookup_invalidate (c := c)).symm.trans he
    · exact (if_neg hk).trans (hlatest k e ((lookup_invalidate_of_ne hk).symm.trans he))
  | invalidateBucket bucket =>
    refine ⟨hcounted.invalidateAll _, (sizeBytes_invalidateAll_le _).trans hbound, fun k e he => ?_⟩
    by_cases hk : k.1 = bucket
    · subst hk
      cases (lookup_invalidateBucket_self (c := c)).symm.trans he
    · have hout : (c.invalidateBucket bucket).lookup k.1 k.2 = c.lookup k.1 k.2 ∨ _ := lookup_invalidateBucket
      rcases hout with hsame | hnone
      · exact (if_neg hk).trans (hlatest k e (hsame.symm.trans he))
      · cases hnone.symm.trans he

theorem Holds.run (h : Holds maxBytes maxObjectBytes last c)
    (ops : List Op) : Holds maxBytes maxObjectBytes (fun k => ops.foldl (Op.track maxObjectBytes k) (last k))
      (ops.foldl Op.apply c) := by
  induction ops generalizing c last with
  | nil => exact h
  | cons op ops ih => exact ih (h.apply op)

/-- The order after a sequence of calls. -/
theorem Holds.keys_run {used : List CacheKey} (h : Holds maxBytes maxObjectBytes last c)
    (hkeys : c.map.keys <+ used) (ops : List Op) :
    (ops.foldl Op.apply c).map.keys <+ ops.foldl (Op.recent maxObjectBytes) used := by
  induction ops generalizing c last used with
  | nil => exact hkeys
  | cons op ops ih => exact ih (h.apply op) (keys_apply h.counted h.bound hkeys op)

/-- **A byte-bounded cache of the entries used last**, after the calls `ops`. The states inside
`invalidate_bucket` are those after calls of `invalidate`; `evict turns (c.admitted ..)` are those inside the
eviction loop. -/
structure Lru (maxBytes maxObjectBytes : Nat) (ops : List Op) (c : ReadCache) : Prop where
  size : c.sizeBytes = total memSize c.map.entries
  bound : c.sizeBytes ≤ maxBytes
  latest : ∀ k e, c.map.lookup k = some e → ops.foldl (Op.track maxObjectBytes k) none = some e
  order : c.map.keys <+ ops.foldl (Op.recent maxObjectBytes) []
  noSaturation : ∀ k e, c.map.lookup k = some e → e.memSize ≤ c.sizeBytes
  evictsExactly : ∀ bucket key e turns k e', (evict turns (c.admitted bucket key e)).map.lookup k = some e' →
    e'.memSize ≤ (evict turns (c.admitted bucket key e)).sizeBytes
  rejected : ∀ bucket key e, maxObjectBytes < e.data.length → c.put bucket key e = c
  survivors : ∀ bucket key e, e.data.length ≤ maxObjectBytes → Trims memSize maxBytes
    (⟨(bucket, key), e⟩ :: (c.map.erase (bucket, key)).entries) (c.put bucket key e).map.entries
  tooLarge : ∀ bucket key e, e.data.length ≤ maxObjectBytes → maxBytes < e.memSize →
    (c.put bucket key e).map.entries = []

/-- **The read cache over any sequence of calls.** -/
theorem run_lru (maxBytes maxObjectBytes : Nat) (ops : List Op) :
    Lru maxBytes maxObjectBytes ops (ops.foldl Op.apply (new maxBytes maxObjectBytes)) := by
  have hnew : Holds maxBytes maxObjectBytes (fun _ => none) (new maxBytes maxObjectBytes) :=
    ⟨⟨rfl, rfl, rfl⟩, Nat.zero_le _, nofun⟩
  obtain ⟨hcounted, hbound, hlatest⟩ := hnew.run ops
  refine ⟨hcounted.size, hbound, hlatest, hnew.keys_run (Sublist.refl []) ops, fun k e => hcounted.memSize_le,
    fun bucket key e turns k e' => ((hcounted.admitted bucket key e).evict turns).1.memSize_le,
    fun bucket key e => put_rejected hcounted, fun bucket key e hdata => (hcounted.put bucket key hbound hdata).2,
    fun bucket key e hdata hsize => (hcounted.put bucket key hbound hdata).2.eq_nil hsize⟩

end ReadCache

end Abixio
