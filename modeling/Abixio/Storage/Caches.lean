import Abixio.Storage.Metadata
import Mathlib.Data.List.AList

/-!
# The pool's two caches

Models of `src/storage/read_cache.rs` (decoded bodies of small objects, evicted least recently used
first) and `src/storage/write_cache.rs` (encoded small objects that are acknowledged before they
reach a disk).

* Both are maps from `(bucket, key)`. The entries of the read cache's `AList` are in order of use,
  most recent first: `insert` puts its entry in front, as `LruCache::put` does.
* The hit and miss counters, which nothing but the metrics endpoint reads, are left out.
* `String::len` is a number of bytes.
-/

namespace Abixio

/-- `CacheKey`. -/
abbrev CacheKey := String × String

/-! ## Read cache -/

/-- `read_cache::CacheEntry`. -/
structure ReadCacheEntry where
  data : Bytes
  info : ObjectInfo
  deriving DecidableEq

/-- `CacheEntry::mem_size`. -/
def ReadCacheEntry.memSize (e : ReadCacheEntry) : Nat :=
  e.data.length + (e.info.bucket.utf8ByteSize + e.info.key.utf8ByteSize +
    e.info.etag.utf8ByteSize + e.info.contentType.utf8ByteSize + e.info.versionId.utf8ByteSize +
    128)

/-- `ReadCache`. -/
structure ReadCache where
  map : AList fun _ : CacheKey => ReadCacheEntry
  sizeBytes : Nat
  maxBytes : Nat
  maxObjectBytes : Nat

namespace ReadCache

/-- `ReadCache::new`. -/
def new (maxBytes maxObjectBytes : Nat) : ReadCache := ⟨∅, 0, maxBytes, maxObjectBytes⟩

/-- The entry `ReadCache::get` returns. -/
def lookup (bucket key : String) (c : ReadCache) : Option ReadCacheEntry :=
  c.map.lookup (bucket, key)

/-- The other effect of `ReadCache::get`: an entry found becomes the most recent. -/
def touch (bucket key : String) (c : ReadCache) : ReadCache :=
  match c.lookup bucket key with
  | some e => { c with map := c.map.insert (bucket, key) e }
  | none => c

/-- `ReadCache::invalidate`. -/
def invalidate (bucket key : String) (c : ReadCache) : ReadCache :=
  match c.lookup bucket key with
  | some old =>
    { c with map := c.map.erase (bucket, key), sizeBytes := c.sizeBytes - old.memSize }
  | none => c

/-- The eviction loop; it removes an entry per turn, so there are no more turns than entries. -/
def evict : Nat → ReadCache → ReadCache
  | 0, c => c
  | fuel + 1, c =>
    if c.maxBytes < c.sizeBytes then
      match c.map.entries.getLast? with
      | none => c
      | some lru =>
        evict fuel { c with map := c.map.erase lru.1, sizeBytes := c.sizeBytes - lru.2.memSize }
    else c

/-- `ReadCache::put`. -/
def put (bucket key : String) (entry : ReadCacheEntry) (c : ReadCache) : ReadCache :=
  if c.maxObjectBytes < entry.data.length ∨ c.maxBytes = 0 then c
  else
    let c := c.invalidate bucket key
    let c := { c with
      map := c.map.insert (bucket, key) entry, sizeBytes := c.sizeBytes + entry.memSize }
    evict c.map.entries.length c

/-- `ReadCache::invalidate_bucket`. -/
def invalidateBucket (bucket : String) (c : ReadCache) : ReadCache :=
  (c.map.keys.filter fun k => k.1 = bucket).foldl (fun c k => c.invalidate k.1 k.2) c

variable {bucket key : String} {c : ReadCache} {k : CacheKey}

theorem lookup_invalidate : (c.invalidate bucket key).lookup bucket key = none := by
  unfold invalidate
  split
  · exact AList.lookup_erase _ _
  · rename_i h
    exact h

theorem lookup_touch : (c.touch bucket key).lookup bucket key = c.lookup bucket key := by
  unfold touch
  split
  · rename_i e h
    rw [h]
    exact AList.lookup_insert _
  · rfl

/-- Eviction loses entries and changes none. -/
theorem lookup_evict (fuel : Nat) : (evict fuel c).lookup bucket key = c.lookup bucket key ∨
    (evict fuel c).lookup bucket key = none := by
  induction fuel generalizing c with
  | zero => exact Or.inl rfl
  | succ fuel ih =>
    unfold evict
    split_ifs
    · split
      · exact Or.inl rfl
      · rename_i lru _
        rcases ih (c := { c with
          map := c.map.erase lru.1, sizeBytes := c.sizeBytes - lru.2.memSize }) with h | h
        · by_cases hk : (bucket, key) = lru.1
          · right
            rw [h]
            rw [← hk]
            exact AList.lookup_erase _ _
          · left
            rw [h]
            exact AList.lookup_erase_ne hk
        · exact Or.inr h
    · exact Or.inl rfl

/-- After a put the key has the new entry or none, or the cache did not take it. -/
theorem lookup_put (entry : ReadCacheEntry) :
    (c.put bucket key entry).lookup bucket key = some entry ∨
      (c.put bucket key entry).lookup bucket key = none ∨ c.put bucket key entry = c := by
  unfold put
  split_ifs
  · exact Or.inr (Or.inr rfl)
  · simp only
    set c' : ReadCache := { c.invalidate bucket key with
      map := (c.invalidate bucket key).map.insert (bucket, key) entry
      sizeBytes := (c.invalidate bucket key).sizeBytes + entry.memSize } with hc'
    have hnew : c'.lookup bucket key = some entry := AList.lookup_insert _
    have hevict : (evict c'.map.entries.length c').lookup bucket key = c'.lookup bucket key ∨
        (evict c'.map.entries.length c').lookup bucket key = none := lookup_evict _
    rcases hevict with h | h
    · exact Or.inl (h.trans hnew)
    · exact Or.inr (Or.inl h)

/-! ### Other keys -/

theorem lookup_invalidate_of_ne (h : k ≠ (bucket, key)) :
    (c.invalidate bucket key).lookup k.1 k.2 = c.lookup k.1 k.2 := by
  unfold invalidate
  split
  · exact AList.lookup_erase_ne h
  · rfl

theorem lookup_touch_of_ne (h : k ≠ (bucket, key)) :
    (c.touch bucket key).lookup k.1 k.2 = c.lookup k.1 k.2 := by
  unfold touch
  split
  · exact AList.lookup_insert_ne h
  · rfl

/-- A put can evict another entry, and changes none. -/
theorem lookup_put_of_ne (h : k ≠ (bucket, key)) (entry : ReadCacheEntry) :
    (c.put bucket key entry).lookup k.1 k.2 = c.lookup k.1 k.2 ∨
      (c.put bucket key entry).lookup k.1 k.2 = none := by
  unfold put
  split_ifs
  · exact Or.inl rfl
  · refine (lookup_evict _).imp_left fun hkept => hkept.trans ?_
    exact (AList.lookup_insert_ne h).trans (lookup_invalidate_of_ne h)

/-- The loop of `invalidate_bucket` empties the keys it goes through, -/
theorem lookup_invalidateAll (ks : List CacheKey) :
    ((ks.foldl (fun c k => c.invalidate k.1 k.2) c).lookup k.1 k.2 = c.lookup k.1 k.2 ∨
        (ks.foldl (fun c k => c.invalidate k.1 k.2) c).lookup k.1 k.2 = none) ∧
      (k ∈ ks → (ks.foldl (fun c k => c.invalidate k.1 k.2) c).lookup k.1 k.2 = none) := by
  induction ks generalizing c with
  | nil => exact ⟨Or.inl rfl, fun h => by cases h⟩
  | cons k₀ ks ih =>
    obtain ⟨hsame, hgone⟩ := ih (c := c.invalidate k₀.1 k₀.2)
    by_cases hk : k = k₀
    · subst hk
      rw [lookup_invalidate] at hsame
      have hnone := hsame.elim id id
      exact ⟨Or.inr hnone, fun _ => hnone⟩
    · rw [lookup_invalidate_of_ne hk] at hsame
      refine ⟨hsame, fun hmem => hgone ?_⟩
      rcases List.mem_cons.mp hmem with heq | hmem
      · exact absurd heq hk
      · exact hmem

theorem lookup_invalidateBucket : (c.invalidateBucket bucket).lookup k.1 k.2 = c.lookup k.1 k.2 ∨
    (c.invalidateBucket bucket).lookup k.1 k.2 = none :=
  (lookup_invalidateAll _).1

/-- and the bucket has no entry left. -/
theorem lookup_invalidateBucket_self : (c.invalidateBucket bucket).lookup bucket key = none := by
  by_cases hmem : (bucket, key) ∈ c.map.keys.filter fun k => k.1 = bucket
  · exact (lookup_invalidateAll (k := (bucket, key)) _).2 hmem
  · have hnone : c.lookup bucket key = none := by
      rw [List.mem_filter] at hmem
      refine AList.lookup_eq_none.mpr fun hin => hmem ⟨hin, ?_⟩
      exact decide_eq_true rfl
    have hsame : (c.invalidateBucket bucket).lookup bucket key = c.lookup bucket key ∨ _ :=
      lookup_invalidateBucket (k := (bucket, key))
    rcases hsame with h | h
    · exact h.trans hnone
    · exact h

end ReadCache

/-! ## Write cache -/

/-- `write_cache::CacheEntry`; `cachedAt` is the time it was inserted. -/
structure WriteCacheEntry (n : Nat) where
  shards : List Bytes
  metas : List ObjectMeta
  distribution : List (Fin n)
  originalSize : Nat
  contentType : String
  etag : String
  createdAt : Nat
  userMetadata : StringMap
  tags : StringMap
  cachedAt : Nat
  primaryNodeId : String
  deriving DecidableEq

/-- `CacheEntry::mem_size`. -/
def WriteCacheEntry.memSize {n : Nat} (e : WriteCacheEntry n) : Nat :=
  (e.shards.map List.length).sum + e.metas.length * 200 + e.etag.utf8ByteSize +
    e.contentType.utf8ByteSize + e.primaryNodeId.utf8ByteSize + 128

/-- The `ObjectInfo` of a cached object. -/
def WriteCacheEntry.info {n : Nat} (bucket key : String) (e : WriteCacheEntry n) : ObjectInfo where
  bucket := bucket
  key := key
  size := e.originalSize
  etag := e.etag
  contentType := e.contentType
  createdAt := e.createdAt
  userMetadata := e.userMetadata
  tags := e.tags
  versionId := ""
  isDeleteMarker := false

/-- The data shards of a cached object, by the layout of its first shard. -/
def WriteCacheEntry.dataShards {n : Nat} (e : WriteCacheEntry n) : List Bytes :=
  e.shards.take ((e.metas.head?.map fun m => m.erasure.data).getD 1)

/-- An entry with a new `cached_at_local`, as a node sets it on what it receives. -/
def WriteCacheEntry.arrived {n : Nat} (now : Nat) (e : WriteCacheEntry n) : WriteCacheEntry n :=
  { e with cachedAt := now }

@[simp] theorem WriteCacheEntry.dataShards_arrived {n : Nat} (now : Nat) (e : WriteCacheEntry n) :
    (e.arrived now).dataShards = e.dataShards := rfl

@[simp] theorem WriteCacheEntry.info_arrived {n : Nat} (bucket key : String) (now : Nat)
    (e : WriteCacheEntry n) : (e.arrived now).info bucket key = e.info bucket key := rfl

/-- `WriteCache`. -/
structure WriteCache (n : Nat) where
  entries : AList fun _ : CacheKey => WriteCacheEntry n
  sizeBytes : Nat
  maxBytes : Nat

namespace WriteCache

variable {n : Nat}

/-- `WriteCache::new`. -/
def new (maxBytes : Nat) : WriteCache n := ⟨∅, 0, maxBytes⟩

/-- `WriteCache::get`. -/
def lookup (bucket key : String) (c : WriteCache n) : Option (WriteCacheEntry n) :=
  c.entries.lookup (bucket, key)

/-- `WriteCache::insert`: false when the cache is full. -/
def insert (bucket key : String) (entry : WriteCacheEntry n) (c : WriteCache n) : Bool × WriteCache n :=
  if c.maxBytes < c.sizeBytes + entry.memSize then (false, c)
  else (true, { c with
    entries := c.entries.insert (bucket, key) entry
    sizeBytes := c.sizeBytes - ((c.lookup bucket key).elim 0 WriteCacheEntry.memSize) +
      entry.memSize })

/-- The cache after an insertion, if it took the entry. -/
def inserted (bucket key : String) (entry : WriteCacheEntry n) (c : WriteCache n) : Option (WriteCache n) :=
  if (c.insert bucket key entry).1 then some (c.insert bucket key entry).2 else none

/-- `WriteCache::remove`, without the entry it returns. -/
def remove (bucket key : String) (c : WriteCache n) : WriteCache n :=
  match c.lookup bucket key with
  | some old =>
    { c with entries := c.entries.erase (bucket, key), sizeBytes := c.sizeBytes - old.memSize }
  | none => c

/-- `WriteCache::list_keys`. -/
def listKeys (bucket keyPrefix : String) (c : WriteCache n) : List String :=
  (c.entries.keys.filter fun k =>
    k.1 = bucket && keyPrefix.toList.isPrefixOf k.2.toList).map Prod.snd

variable {bucket key : String} {c : WriteCache n}

theorem lookup_remove : (c.remove bucket key).lookup bucket key = none := by
  unfold remove
  split
  · exact AList.lookup_erase _ _
  · rename_i h
    exact h

/-- The keys `list_keys` returns. -/
theorem mem_listKeys {keyPrefix : String} : key ∈ c.listKeys bucket keyPrefix ↔
      (c.lookup bucket key).isSome = true ∧ keyPrefix.toList <+: key.toList := by
  unfold listKeys lookup
  rw [List.mem_map, AList.lookup_isSome]
  constructor
  · rintro ⟨⟨b, k⟩, hmem, rfl⟩
    obtain ⟨hkeys, hk⟩ := List.mem_filter.mp hmem
    rw [Bool.and_eq_true, decide_eq_true_eq, List.isPrefixOf_iff_prefix] at hk
    obtain ⟨rfl, hp⟩ := hk
    exact ⟨AList.mem_keys.mpr hkeys, hp⟩
  · rintro ⟨hmem, hp⟩
    refine ⟨(bucket, key), List.mem_filter.mpr ⟨AList.mem_keys.mp hmem, ?_⟩, rfl⟩
    rw [Bool.and_eq_true, decide_eq_true_eq, List.isPrefixOf_iff_prefix]
    exact ⟨rfl, hp⟩

end WriteCache

end Abixio
