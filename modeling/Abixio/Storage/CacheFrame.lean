import Abixio.Storage.Flush
import Abixio.Storage.Reads

/-!
# What a request on one key leaves in the caches

The requests of `src/storage/volume_pool.rs` on a key touch the caches under that key. Entries of other
keys stay in the write cache; the read cache may evict them (`KeepsOthers`). Here are the steps that
change a cache, and the GETs.
-/

namespace Abixio

open Lib
open Act (Moves)

section Caches

variable {V W : Type} [Backend V W] {n : Nat}

/-- A write cache that is off stays off. Entries of keys outside `own` stay, those of the read cache may
go. -/
structure KeepsOthers (own : CacheKey → Prop) (p p' : Pool V n) : Prop where
  write : p.writeCache = none → p'.writeCache = none
  entry : ∀ k, ¬ own k → cachedWrite k.1 k.2 p' = cachedWrite k.1 k.2 p
  read : ∀ k, ¬ own k → cachedRead k.1 k.2 p' = cachedRead k.1 k.2 p ∨ cachedRead k.1 k.2 p' = none

variable {own : CacheKey → Prop}

instance : Std.Refl (KeepsOthers own : Pool V n → Pool V n → Prop) :=
  ⟨fun _ => ⟨id, fun _ _ => rfl, fun _ _ => Or.inl rfl⟩⟩

instance : IsTrans (Pool V n) (KeepsOthers own) := by
  refine ⟨fun p p' p'' h h' => ⟨fun hw => h'.write (h.write hw),
    fun k hk => (h'.entry k hk).trans (h.entry k hk), fun k hk => ?_⟩⟩
  rcases h'.read k hk with hsame | hnone
  · rw [hsame]
    exact h.read k hk
  · exact Or.inr hnone

theorem onDisks_keeps {α : Type} (x : PoolAct V n α) :
    Moves (KeepsOthers own) (onDisks x) := fun _ => ⟨id, fun _ _ => rfl, fun _ _ => Or.inl rfl⟩

theorem onReadCache_keeps {f : ReadCache → ReadCache} (hf : ∀ (c : ReadCache) (k : CacheKey), ¬ own k →
    (f c).lookup k.1 k.2 = c.lookup k.1 k.2 ∨ (f c).lookup k.1 k.2 = none) (p : Pool V n) :
    KeepsOthers own p (onReadCache f p) := by
  refine ⟨id, fun _ _ => rfl, fun k hk => ?_⟩
  unfold cachedRead onReadCache
  cases p.readCache with
  | none => exact Or.inl rfl
  | some c => exact hf c k hk

variable {bucket key : String} {p p' : Pool V n}

theorem invalidate_keeps (p : Pool V n) :
    KeepsOthers (· = (bucket, key)) p (forgetRead bucket key p) :=
  onReadCache_keeps (fun _ _ hk => Or.inl (ReadCache.lookup_invalidate_of_ne hk)) p

theorem put_keeps (e : ReadCacheEntry) (p : Pool V n) :
    KeepsOthers (· = (bucket, key)) p (onReadCache (fun c => c.put bucket key e) p) :=
  onReadCache_keeps (fun _ _ hk => ReadCache.lookup_put_of_ne hk e) p

variable (env : Env)

theorem cacheSmall_keeps (req : PutRequest) (peerOk : Bool) (entry : WriteCacheEntry n) :
    Moves (KeepsOthers (· = (req.bucket, req.key))) (cacheSmall req peerOk entry : PoolOp V n Bool) := by
  intro p
  unfold cacheSmall
  cases hc : p.writeCache.bind fun c => if peerOk then c.inserted req.bucket req.key entry else none with
  | none => exact refl_of (KeepsOthers _) p
  | some c =>
    obtain ⟨c₀, hc₀, hins⟩ := Option.bind_eq_some_iff.mp hc
    rw [Option.ite_none_right_eq_some] at hins
    refine ⟨fun hw => ?_, fun k hk => ?_, fun _ _ => Or.inl rfl⟩
    · simp [hw] at hc₀
    · unfold cachedWrite
      rw [hc₀]
      exact WriteCache.lookup_inserted_of_ne hins.2 hk

/-- Dropping a key from both caches. -/
theorem remove_keeps (p : Pool V n) : KeepsOthers (· = (bucket, key)) p
    (forgetRead bucket key
      { p with writeCache := p.writeCache.map fun c => c.remove bucket key }) := by
  have hkeeps : KeepsOthers (· = (bucket, key)) _ _ := invalidate_keeps
    { p with writeCache := p.writeCache.map fun c => c.remove bucket key }
  refine ⟨fun hw => hkeeps.write ?_, fun k hk => ?_, hkeeps.read⟩
  · simp only [hw, Option.map_none]
  · refine (hkeeps.entry k hk).trans ?_
    unfold cachedWrite
    cases p.writeCache with
    | none => rfl
    | some c => exact WriteCache.lookup_remove_of_ne hk

end Caches

end Abixio
