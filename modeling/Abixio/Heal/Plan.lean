import Abixio.Heal.Worker
import Abixio.Storage.DecodeSlots

/-!
# What a heal decides and does

`heal_object` (`src/heal/worker.rs:38-147`) in two steps. `HealsTo.plan_eq` is the decision when the
valid shards of the consensus are shards of one encoding: healthy, unrecoverable, or exactly the missing
shards of that encoding (`missingRepairs`). `writeRepairs_spec` is the effect when no two repairs go
to one disk: every target went through its own `write_shard`, the other disks are as they were.

* `HealRead.good` is the test of the classification loop for one position.
* `Encodes` says that rows are the code words of their first rows, column by column.
* `healWrites` lists the `write_shard` calls a heal makes.
-/

namespace Abixio

open Lib List
open Backend (writeShard)

variable {env : Env} {consensus : ObjectMeta} {rows : List Bytes}

/-- The read is a shard of the consensus with index `i` that passes its checksum. -/
def HealRead.good (env : Env) (consensus : ObjectMeta) (i : Nat) (read : HealRead) : Bool :=
  match read with
  | none => false
  | some (data, m) =>
    m.erasure.index == i && m.quorumEq consensus && verifyShardChecksum env data m.checksum

/-- Some disk has shard `i` of the consensus. -/
def present (env : Env) (consensus : ObjectMeta) (reads : List HealRead) (i : Nat) : Bool :=
  reads.any (HealRead.good env consensus i)

/-- The rows are an encoding with `k` data and `m` parity rows of length `len`. -/
structure Encodes (env : Env) (k m len : Nat) (rows : List Bytes) : Prop where
  length : rows.length = k + m
  row : ∀ r ∈ rows, r.length = len
  code : rows = Lib.encodeRows (env.code k m) m len (rows.take k)

/-- The repairs of the positions that are not kept. -/
def missingRepairs (env : Env) (consensus : ObjectMeta) (keep : Nat → Bool) (rows : List Bytes) :
    List Repair :=
  ((range rows.length).filter fun i => !keep i).map fun i =>
    ⟨i, rows.getD i [], repairMeta env consensus i (rows.getD i [])⟩

section Classify

variable {total : Nat}

/-- One turn of the classification loop, when the shards are those of `rows`. -/
theorem classifyShard_keepRows {keep : Nat → Bool} {read : HealRead} (hrows : rows.length = total)
    (hown : ∀ data m, read = some (data, m) → read.good env consensus m.erasure.index = true →
      data = rows.getD m.erasure.index []) :
    classifyShard env consensus total (keepRows keep rows) read =
      keepRows (fun i => keep i || read.good env consensus i) rows := by
  cases read with
  | none =>
    unfold classifyShard HealRead.good
    simp only [Bool.or_false]
  | some p =>
    obtain ⟨data, m⟩ := p
    unfold classifyShard
    simp only
    by_cases hgood : HealRead.good env consensus m.erasure.index (some (data, m)) = true
    · have htest : m.quorumEq consensus = true ∧
          verifyShardChecksum env data m.checksum = true := by
        simpa [HealRead.good] using hgood
      have hkeep : ∀ i, HealRead.good env consensus i (some (data, m)) =
          (m.erasure.index == i) := by
        intro i
        simp [HealRead.good, htest.1, htest.2]
      simp only [hkeep]
      by_cases hlt : m.erasure.index < total
      · rw [if_pos ⟨hlt, htest⟩, hown data m rfl hgood, keepRows_set keep (hrows ▸ hlt)]
      · -- an index outside the layout: no slot changes
        rw [if_neg fun h => hlt h.1]
        refine ext_getElem (by simp) fun i h1 h2 => ?_
        have hne : m.erasure.index ≠ i := by
          have : i < rows.length := by simpa using h1
          omega
        simp [keepRows, hne]
    · have htest : ¬ (m.erasure.index < total ∧ m.quorumEq consensus = true ∧
          verifyShardChecksum env data m.checksum = true) := by
        rintro ⟨-, hq, hv⟩
        exact hgood (by simp [HealRead.good, hq, hv])
      have hkeep : ∀ i, HealRead.good env consensus i (some (data, m)) = false := by
        intro i
        by_contra h
        rw [Bool.not_eq_false] at h
        refine hgood ?_
        simp only [HealRead.good, Bool.and_eq_true, beq_iff_eq, true_and] at h ⊢
        exact ⟨h.1.2, h.2⟩
      rw [if_neg htest]
      simp only [hkeep, Bool.or_false]

/-- **The classification loop** keeps the shards that some disk has. -/
theorem classify_eq (hrows : rows.length = total) {reads : List HealRead}
    (hown : ∀ data m, some (data, m) ∈ reads → m.quorumEq consensus = true →
      verifyShardChecksum env data m.checksum = true → data = rows.getD m.erasure.index []) :
    classify env consensus total reads = keepRows (present env consensus reads) rows := by
  have hrun : ∀ (reads : List HealRead) (keep : Nat → Bool),
      (∀ data m, some (data, m) ∈ reads → m.quorumEq consensus = true →
        verifyShardChecksum env data m.checksum = true → data = rows.getD m.erasure.index []) →
      reads.foldl (classifyShard env consensus total) (keepRows keep rows) =
        keepRows (fun i => keep i || present env consensus reads i) rows := by
    intro reads
    induction reads with
    | nil =>
      intro keep _
      simp [present]
    | cons read reads ih =>
      intro keep hown
      rw [foldl_cons, classifyShard_keepRows hrows, ih _ fun data m hm =>
        hown data m (mem_cons_of_mem _ hm)]
      · simp only [present, any_cons, Bool.or_assoc]
      · rintro data m rfl hgood
        simp only [HealRead.good, Bool.and_eq_true] at hgood
        exact hown data m mem_cons_self hgood.1.2 hgood.2
  unfold classify
  rw [← hrows, ← keepRows_none, hrows, hrun reads _ hown]
  simp only [Bool.false_or]

end Classify

/-! ## The decision -/

section Decision

variable {reads : List HealRead} {k m len : Nat} {keep : Nat → Bool}

/-- Rebuilding from enough shards of an encoding gives all of it. -/
theorem Encodes.reconstruct (h : Encodes env k m len rows) (hmds : (env.code k m).Mds k m)
    (hk : 0 < k) (hlen : 0 < len) (hcount : k ≤ ((range rows.length).filter keep).length) :
    rsReconstruct env k m (keepRows keep rows) = .ok (rows.map some) := by
  have htake : (rows.take k).length = k := by
    rw [length_take, h.length]
    omega
  have hslots : (keepRows keep rows).length = k + m := by rw [keepRows_length, h.length]
  have hrec := rsReconstruct_eq hmds hk htake hlen
    (fun r hr => h.row r (mem_of_mem_take hr)) hslots
    (fun i r hi => by rw [← h.code]; exact keepRows_some hi)
    (by rw [keepRows_count]; exact hcount)
  rwa [← h.code] at hrec

/-- The repairs after a full rebuild are those of the missing positions. -/
theorem repairsOf_keepRows (env : Env) (consensus : ObjectMeta) (keep : Nat → Bool)
    (rows : List Bytes) : repairsOf env consensus (keepRows keep rows) (rows.map some) =
      missingRepairs env consensus keep rows := by
  unfold repairsOf missingRepairs
  rw [keepRows_length, ← filterMap_eq_map' (f := fun i =>
    (⟨i, rows.getD i [], repairMeta env consensus i (rows.getD i [])⟩ : Repair)),
    filterMap_filter]
  refine filterMap_congr fun i hi => ?_
  have hlt : i < rows.length := mem_range.mp hi
  rw [keepRows_getElem?, getElem?_map, getElem?_eq_getElem hlt, getD_eq_getElem _ _ hlt]
  cases hkeep : keep i with
  | true => simp
  | false => simp

/-- **What a heal starts from**: the layout of the first answer, the winner of the vote, and the rows
that the valid shards of the winner are from. -/
structure HealsTo (env : Env) (reads : List HealRead) (consensus : ObjectMeta) (k m : Nat)
    (rows : List Bytes) : Prop where
  first : ∃ data fst, reads.findSome? id = some (data, fst) ∧ fst.erasure.data = k ∧
    fst.erasure.parity = m
  vote : findConsensusMeta reads k = .ok consensus
  length : rows.length = k + m
  own : ∀ data m, some (data, m) ∈ reads → m.quorumEq consensus = true →
    verifyShardChecksum env data m.checksum = true → data = rows.getD m.erasure.index []

section

variable (h : HealsTo env reads consensus k m rows)
include h

/-- What is decided, up to the rebuild. -/
theorem HealsTo.plan : healPlan env reads =
      if ((range rows.length).filter (present env consensus reads)).length = k + m then
        .ok .healthy
      else if ((range rows.length).filter (present env consensus reads)).length < k then
        .ok .unrecoverable else
        rebuildShards env k m (keepRows (present env consensus reads) rows) >>= fun rebuilt =>
          .ok (.repair consensus
            (repairsOf env consensus (keepRows (present env consensus reads) rows) rebuilt)) := by
  obtain ⟨data, fst, hfirst, rfl, rfl⟩ := h.first
  unfold healPlan
  rw [hfirst]
  simp only [h.vote]
  simp only [bind, Except.bind, classify_eq h.length h.own, keepRows_count]

/-- Nothing is missing. -/
theorem HealsTo.plan_healthy (hall : ∀ i < rows.length, present env consensus reads i = true) :
    healPlan env reads = .ok .healthy := by
  have hcount : ((range rows.length).filter (present env consensus reads)).length = k + m := by
    rw [filter_eq_self.mpr fun i hi => hall i (mem_range.mp hi), length_range, h.length]
  rw [h.plan, if_pos hcount]

/-- **What a heal decides**, when the shards are not empty. -/
theorem HealsTo.plan_eq (henc : Encodes env k m len rows) (hmds : 0 < m → (env.code k m).Mds k m)
    (hrs : 0 < m → RsAccepts k m) (hk : 0 < k) (hlen : 0 < len) : healPlan env reads =
      if ((range rows.length).filter (present env consensus reads)).length = k + m then
        .ok .healthy
      else if ((range rows.length).filter (present env consensus reads)).length < k then
        .ok .unrecoverable
      else .ok (.repair consensus
        (missingRepairs env consensus (present env consensus reads) rows)) := by
  rw [h.plan]
  set good := ((range rows.length).filter (present env consensus reads)).length
  by_cases hall : good = k + m
  · rw [if_pos hall, if_pos hall]
  by_cases hfew : good < k
  · rw [if_pos hfew, if_pos hfew]
  have hle : good ≤ k + m := (length_filter_le _ _).trans_eq (length_range.trans h.length)
  have hm : 0 < m := by omega
  have hrec := henc.reconstruct (hmds hm) hk hlen (show k ≤ good by omega)
  have hnew : rsNew k m = .ok () := hrs hm
  unfold rebuildShards
  rw [if_pos hm, hnew, hrec]
  simp only [Except.mapError, bind, Except.bind, repairsOf_keepRows]

/-- A planned repair rebuilt the shards, with a layout that the code accepts. -/
theorem HealsTo.rebuilt {c : ObjectMeta} {repairs : List Repair}
    (hplan : healPlan env reads = .ok (.repair c repairs)) : RsAccepts k m ∧ c = consensus ∧
      k ≤ ((range rows.length).filter (present env consensus reads)).length ∧ ∃ slots,
      rsReconstruct env k m (keepRows (present env consensus reads) rows) = .ok slots ∧
      repairs = repairsOf env consensus (keepRows (present env consensus reads) rows) slots := by
  rw [h.plan] at hplan
  have hle : ((range rows.length).filter (present env consensus reads)).length ≤ k + m :=
    (length_filter_le _ _).trans_eq (length_range.trans h.length)
  split_ifs at hplan with hall hfew
  · cases hplan
  · cases hplan
  obtain ⟨slots, hrebuilt, heq⟩ := except_bind_eq_ok.mp hplan
  cases heq
  unfold rebuildShards at hrebuilt
  rw [if_pos (show 0 < m by omega)] at hrebuilt
  obtain ⟨_, hnew, hrec⟩ := except_bind_eq_ok.mp hrebuilt
  exact ⟨Act.mapError_eq_ok.mp hnew, rfl, Nat.not_lt.mp hfew, slots, Act.mapError_eq_ok.mp hrec, rfl⟩

/-- What is planned from shards of one length, without asking where they are from. -/
theorem HealsTo.plan_missing (hrow : ∀ r ∈ rows, r.length = len) (hlen : 0 < len) (hrs : RsAccepts k m)
    (hcount : k ≤ ((range rows.length).filter (present env consensus reads)).length)
    (hmissing : ((range rows.length).filter (present env consensus reads)).length ≠ k + m) :
    healPlan env reads = .ok (.repair consensus
      (repairsOf env consensus (keepRows (present env consensus reads) rows)
        ((Lib.reconstructRows (env.code k m) k m len
          (keepRows (present env consensus reads) rows)).map some))) := by
  obtain ⟨hk, hm, -⟩ := rsAccepts_iff.mp hrs
  have hnew : rsNew k m = .ok () := hrs
  have hrec : rsReconstruct env k m (keepRows (present env consensus reads) rows) =
      .ok ((Lib.reconstructRows (env.code k m) k m len
        (keepRows (present env consensus reads) rows)).map some) :=
    rsReconstruct_missing hk hlen (by rw [keepRows_length, h.length])
      (fun r hr => hrow r (mem_of_mem_keepRows hr)) (by rw [keepRows_count]; exact hcount)
      (by rw [keepRows_count]; exact hmissing)
  rw [h.plan, if_neg hmissing, if_neg (Nat.not_lt.mpr hcount)]
  unfold rebuildShards
  rw [if_pos hm, hnew, hrec]
  rfl

end

/-- A position that is not kept and was rebuilt is repaired. -/
theorem mem_repairsOf {slots rebuilt : List (Option Bytes)} {i : Nat} {data : Bytes}
    (hi : i < slots.length) (hslot : slots[i]?.join = none)
    (hrebuilt : rebuilt[i]?.join = some data) :
    (⟨i, data, repairMeta env consensus i data⟩ : Repair) ∈
      repairsOf env consensus slots rebuilt := by
  refine mem_filterMap.mpr ⟨i, mem_range.mpr hi, ?_⟩
  rw [hslot, hrebuilt]

/-- Only positions that are not kept are repaired, with the consensus metadata. -/
theorem of_mem_repairsOf {slots rebuilt : List (Option Bytes)} {r : Repair}
    (hr : r ∈ repairsOf env consensus slots rebuilt) :
    r.index < slots.length ∧ slots[r.index]?.join = none ∧
      r.objectMeta = repairMeta env consensus r.index r.data := by
  obtain ⟨i, hi, hmatch⟩ := mem_filterMap.mp hr
  split at hmatch
  · rename_i hslot _
    cases hmatch
    exact ⟨mem_range.mp hi, hslot, rfl⟩
  · cases hmatch

/-- What a planned repair is. -/
theorem HealsTo.of_plan (h : HealsTo env reads consensus k m rows) {c : ObjectMeta}
    {repairs : List Repair} (hplan : healPlan env reads = .ok (.repair c repairs)) :
    c = consensus ∧ ∀ r ∈ repairs, r.index < rows.length ∧
      present env consensus reads r.index = false := by
  obtain ⟨-, rfl, -, slots, -, rfl⟩ := h.rebuilt hplan
  refine ⟨rfl, fun r hr => ?_⟩
  obtain ⟨hlt, hslot, -⟩ := of_mem_repairsOf hr
  rw [keepRows_length] at hlt
  refine ⟨hlt, ?_⟩
  rw [keepRows_getElem?, getElem?_eq_getElem hlt] at hslot
  by_contra hpresent
  simp [hpresent] at hslot

/-- A decision was made on a first answer and a vote. -/
theorem healPlan_ok {plan : HealPlan} (h : healPlan env reads = .ok plan) :
    ∃ data fst c, reads.findSome? id = some (data, fst) ∧
      findConsensusMeta reads fst.erasure.data = .ok c := by
  unfold healPlan at h
  cases hfirst : reads.findSome? id with
  | none => simp [hfirst] at h
  | some p =>
    obtain ⟨data, fst⟩ := p
    rw [hfirst] at h
    obtain ⟨c, hc, -⟩ := except_bind_eq_ok.mp h
    exact ⟨data, fst, c, rfl, hc⟩

/-- Empty shards cannot be rebuilt: nothing is repaired. -/
theorem HealsTo.plan_empty (h : HealsTo env reads consensus k m rows)
    (hempty : ∀ r ∈ rows, r.length = 0) (hk : 0 < k) (c : ObjectMeta)
    (repairs : List Repair) : healPlan env reads ≠ .ok (.repair c repairs) := by
  intro hplan
  obtain ⟨-, -, hcount, slots, hrec, -⟩ := h.rebuilt hplan
  rw [rsReconstruct_keepRows h.length hempty (by omega)] at hrec
  cases hrec

end Decision

/-! ## The effect -/

section Effect

variable {V W : Type} [Backend V W] {n : Nat} {bucket key : String} {s : Disks V n}

/-- The `write_shard` calls of a heal. -/
def healWrites (env : Env) (bucket key : String) (disks : Disks V n) : List (Fin n × Repair) :=
  match healPlan env (healReads bucket key disks) with
  | .ok (.repair consensus repairs) => repairWrites disks consensus repairs
  | _ => []

/-- What a heal writes is planned, and goes to the target of its index. -/
theorem mem_healWrites {w : Fin n × Repair} (hw : w ∈ healWrites env bucket key s) :
    ∃ c repairs, healPlan env (healReads bucket key s) = .ok (.repair c repairs) ∧
      w.2 ∈ repairs ∧ repairTarget s c w.2.index = some w.1 := by
  unfold healWrites at hw
  split at hw
  · rename_i c repairs hplan
    simp only [repairWrites, mem_filterMap, Option.map_eq_some_iff] at hw
    obtain ⟨r, hr, d, hd, rfl⟩ := hw
    exact ⟨c, repairs, hplan, hr, hd⟩
  · cases hw

/-- A heal after its checks: the answer of the decision, or the writes. -/
theorem healObject_eq (hb : ValidBucket bucket)
    (hk : ValidKey key) (s : Disks V n) : healObject env bucket key s =
      match healPlan env (healReads bucket key s) with
      | .error e => (.error e, s)
      | .ok .healthy => (.ok .healthy, s)
      | .ok .unrecoverable => (.ok .unrecoverable, s)
      | .ok (.repair consensus repairs) =>
        (writeRepairs bucket key (repairWrites s consensus repairs) >>= fun fixed =>
          pure (.repaired (fixed.filter id).length)) s := by
  unfold healObject
  rw [hb, hk, Act.ok_bind, Act.ok_bind, Act.bind_apply, Act.query_apply]
  cases hplan : healPlan env (healReads bucket key s) with
  | error e => rfl
  | ok plan => cases plan <;> rfl

/-- Writing repairs never fails as a whole. -/
theorem writeRepairs_total (bucket key : String) (writes : List (Fin n × Repair))
    (s : Disks V n) : ∃ fixed t, writeRepairs bucket key writes s = (.ok fixed, t) :=
  Act.each_total (fun _ _ => ⟨_, _, rfl⟩) writes s

/-- The disks after some of the writes. -/
def afterWrites (bucket key : String) (disks : Disks V n) (writes : List (Fin n × Repair)) :
    Disks V n :=
  writes.foldl (fun t w => Function.update t w.1
    (Backend.writeShard bucket key w.2.data w.2.objectMeta (t w.1)).2) disks

theorem writeRepairs_snd (bucket key : String) :
    ∀ (writes : List (Fin n × Repair)) (s : Disks V n),
      (writeRepairs bucket key writes s).2 = afterWrites bucket key s writes
  | [], _ => rfl
  | w :: writes, s => by
    unfold writeRepairs
    rw [Act.each_cons]
    obtain ⟨fixed, t, hrun⟩ := writeRepairs_total bucket key writes (Function.update s w.1
      (writeShard bucket key w.2.data w.2.objectMeta (s w.1)).2)
    have hrest := writeRepairs_snd bucket key writes (Function.update s w.1
      (writeShard bucket key w.2.data w.2.objectMeta (s w.1)).2)
    rw [hrun] at hrest
    unfold writeRepairs at hrun
    rw [Act.bind_ok (show Act.at w.1 _ s = (.ok _, Function.update s w.1
      (writeShard bucket key w.2.data w.2.objectMeta (s w.1)).2) from rfl),
      Act.bind_ok hrun]
    exact hrest

/-- **A heal changes the disks by its writes alone**, one after another. -/
theorem healObject_snd (hb : ValidBucket bucket)
    (hk : ValidKey key) (s : Disks V n) : (healObject env bucket key s).2 =
      afterWrites bucket key s (healWrites env bucket key s) := by
  rw [healObject_eq hb hk s]
  unfold healWrites
  cases hplan : healPlan env (healReads bucket key s) with
  | error e => rfl
  | ok plan =>
    cases plan with
    | healthy => rfl
    | unrecoverable => rfl
    | repair consensus repairs =>
      rw [Act.bind_snd fun _ _ => rfl, writeRepairs_snd]

/-- **What the writes of a heal do**, when no two go to one disk. -/
theorem writeRepairs_spec {writes : List (Fin n × Repair)} {fixed : List Bool} {t : Disks V n}
    (hnd : (writes.map Prod.fst).Nodup) (h : writeRepairs bucket key writes s = (.ok fixed, t)) :
    fixed = writes.map (fun w =>
        (writeShard bucket key w.2.data w.2.objectMeta (s w.1)).1.isOk) ∧ (∀ w ∈ writes, t w.1 =
        (writeShard bucket key w.2.data w.2.objectMeta (s w.1)).2) ∧
      ∀ d, d ∉ writes.map Prod.fst → t d = s d := by
  obtain ⟨hall, hframe⟩ := Act.each_at_ok hnd h
  obtain ⟨hlen, hget⟩ := forall₂_iff_get.mp hall
  have hrun : ∀ i (h1 : i < writes.length) (h2 : i < fixed.length),
      fixed[i] = (writeShard bucket key writes[i].2.data writes[i].2.objectMeta
        (s writes[i].1)).1.isOk ∧
      t writes[i].1 = (writeShard bucket key writes[i].2.data writes[i].2.objectMeta
        (s writes[i].1)).2 := by
    intro i h1 h2
    have hi : ((.ok (writeShard bucket key writes[i].2.data writes[i].2.objectMeta
        (s writes[i].1)).1.isOk, (writeShard bucket key writes[i].2.data
          writes[i].2.objectMeta (s writes[i].1)).2) : Except StorageError Bool × V) =
        (.ok fixed[i], t writes[i].1) := hget i h1 h2
    rw [Prod.mk.injEq, Except.ok.injEq] at hi
    exact ⟨hi.1.symm, hi.2.symm⟩
  refine ⟨ext_getElem (by simp [hlen]) fun i h1 h2 => ?_, fun w hw => ?_, hframe⟩
  · rw [getElem_map]
    exact (hrun i (hlen ▸ h1) h1).1
  · obtain ⟨i, hi, rfl⟩ := mem_iff_getElem.mp hw
    exact (hrun i hi (hlen ▸ hi)).2

end Effect

end Abixio
