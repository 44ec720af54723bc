import Abixio.Lib.Plurality
import Abixio.Storage.Backend
import Abixio.Storage.Pathing
import Abixio.Storage.ReedSolomon

/-!
# The healer

Model of `heal_object` and `find_consensus_meta` (`src/heal/worker.rs`). A heal reads every disk, takes
the erasure parameters from the first disk that answers and the metadata from the largest group of
disks that agree (`findConsensusMeta`), keeps the shards of that group that pass their checksum, and
rebuilds the others. All that is a function of what was read (`healPlan`); the writes come after it
(`writeRepairs`).

* A position is `Good` exactly when its data was kept, so `slots` stands for `statuses` and
  `shard_data`.
* `vol_map` is a map collected from pairs: of disks with one volume id the last wins (`volIndex`).
* `groups.sort_by` is stable: on a tie the group that was seen first wins.
-/

namespace Abixio

open Lib
open ObjectMeta (quorumEq)

/-- `HealResult`. -/
inductive HealResult where
  | healthy
  | repaired (shardsFixed : Nat)
  | unrecoverable
  deriving DecidableEq

/-- What one disk returned. -/
abbrev HealRead := Option (Bytes × ObjectMeta)

/-- One shard to be written. -/
structure Repair where
  index : Nat
  data : Bytes
  objectMeta : ObjectMeta
  deriving DecidableEq

/-- What a heal decides from what it read. -/
inductive HealPlan where
  | healthy
  | unrecoverable
  | repair (consensus : ObjectMeta) (repairs : List Repair)
  deriving DecidableEq

/-- The metadata that were read. -/
def readMetas (reads : List HealRead) : List ObjectMeta := (reads.filterMap id).map Prod.snd

/-- `find_consensus_meta`. -/
def findConsensusMeta (reads : List HealRead) (dataN : Nat) : Except StorageError ObjectMeta :=
  match Lib.plurality quorumEq (readMetas reads) with
  | none => .error .objectNotFound
  | some (best, count) => if count < dataN then .error .readQuorum else .ok best

section Plan

variable (env : Env)

/-- One turn of the classification loop: a shard of the consensus that passes its checksum is kept
at its own index. -/
def classifyShard (consensus : ObjectMeta) (total : Nat) (slots : List (Option Bytes))
    (read : HealRead) : List (Option Bytes) :=
  match read with
  | none => slots
  | some (data, m) =>
    if m.erasure.index < total ∧ m.quorumEq consensus = true ∧
        verifyShardChecksum env data m.checksum = true then
      slots.set m.erasure.index (some data)
    else slots

/-- The classification loop. -/
def classify (consensus : ObjectMeta) (total : Nat) (reads : List HealRead) :
    List (Option Bytes) :=
  reads.foldl (classifyShard env consensus total) (List.replicate total none)

/-- Rebuild what is missing, if there is parity. -/
def rebuildShards (dataN parityN : Nat) (slots : List (Option Bytes)) :
    Except StorageError (List (Option Bytes)) :=
  if 0 < parityN then do
    (rsNew dataN parityN).mapError fun e => .invalidConfig ("reed-solomon: " ++ env.rsErrorText e)
    (rsReconstruct env dataN parityN slots).mapError fun _ => .readQuorum
  else .ok slots

/-- The consensus metadata with the index and the checksum of a shard. -/
def repairMeta (consensus : ObjectMeta) (index : Nat) (data : Bytes) : ObjectMeta :=
  { consensus with
    erasure := { consensus.erasure with index := index }
    checksum := env.blake3Hex data }

/-- The shards that were not good and were rebuilt. -/
def repairsOf (consensus : ObjectMeta) (slots rebuilt : List (Option Bytes)) : List Repair :=
  (List.range slots.length).filterMap fun i =>
    match slots[i]?.join, rebuilt[i]?.join with
    | none, some data => some ⟨i, data, repairMeta env consensus i data⟩
    | _, _ => none

/-- `heal_object` from its reads to its writes. -/
def healPlan (reads : List HealRead) : Except StorageError HealPlan :=
  match reads.findSome? id with
  | none => .error .objectNotFound
  | some (_, first) => do
    let dataN := first.erasure.data
    let parityN := first.erasure.parity
    let total := dataN + parityN
    let consensus ← findConsensusMeta reads dataN
    let slots := classify env consensus total reads
    let good := (slots.filter Option.isSome).length
    if good = total then .ok .healthy
    else if good < dataN then .ok .unrecoverable
    else do
      let rebuilt ← rebuildShards env dataN parityN slots
      .ok (.repair consensus (repairsOf env consensus slots rebuilt))

end Plan

section Heal

variable {V W : Type} [Backend V W] {n : Nat} (env : Env)

/-- `vol_map.get`. -/
def volIndex (disks : Disks V n) (vid : String) : Option (Fin n) :=
  (List.finRange n).reverse.find? fun d => Backend.volumeId (disks d) = vid

/-- The disk a repaired shard goes to: by its volume id, or else the one of its index. -/
def repairTarget (disks : Disks V n) (consensus : ObjectMeta) (index : Nat) : Option (Fin n) :=
  match (consensus.erasure.volumeIds[index]?).bind (volIndex disks) with
  | some d => some d
  | none => if h : index < n then some ⟨index, h⟩ else none

/-- The repairs with the disks they go to. A repair without a disk is skipped. -/
def repairWrites (disks : Disks V n) (consensus : ObjectMeta) (repairs : List Repair) :
    List (Fin n × Repair) :=
  repairs.filterMap fun r => (repairTarget disks consensus r.index).map fun d => (d, r)

/-- Write the repaired shards, and say which calls succeeded. -/
def writeRepairs (bucket key : String) (writes : List (Fin n × Repair)) :
    PoolAct V n (List Bool) :=
  Act.each
    (fun w : Fin n × Repair => Act.at w.1 (do
      let outcome ← Act.attempt (Backend.writeShard bucket key w.2.data w.2.objectMeta)
      pure outcome.isOk))
    writes

/-- What a heal reads. -/
def healReads (bucket key : String) (disks : Disks V n) : List HealRead :=
  (List.finRange n).map fun d => (Backend.readShard bucket key (disks d)).toOption

/-- `heal_object`. -/
def healObject (bucket key : String) : PoolAct V n HealResult := do
  Act.ofExcept (validateBucketName bucket)
  Act.ofExcept (validateObjectKey key)
  match ← Act.query fun disks => healPlan env (healReads bucket key disks) with
  | .healthy => pure .healthy
  | .unrecoverable => pure .unrecoverable
  | .repair consensus repairs => do
    let writes ← Act.read fun disks => repairWrites disks consensus repairs
    let fixed ← writeRepairs bucket key writes
    pure (.repaired (fixed.filter id).length)

end Heal

/-! ## The vote -/

theorem ObjectMeta.quorumEq_equivalence : Equivalence fun a b : ObjectMeta => a.quorumEq b = true where
  refl a := by simp [quorumEq]
  symm {a b} h := by
    simp only [quorumEq, Bool.and_eq_true, beq_iff_eq] at h ⊢
    obtain ⟨⟨⟨⟨⟨⟨⟨⟨h1, h2⟩, h3⟩, h4⟩, h5⟩, h6⟩, h7⟩, h8⟩, h9⟩ := h
    exact ⟨⟨⟨⟨⟨⟨⟨⟨h1.symm, h2.symm⟩, h3.symm⟩, h4.symm⟩, h5.symm⟩, h6.symm⟩, h7.symm⟩, h8.symm⟩,
      h9.symm⟩
  trans {a b c} h h' := by
    simp only [quorumEq, Bool.and_eq_true, beq_iff_eq] at h h' ⊢
    obtain ⟨⟨⟨⟨⟨⟨⟨⟨h1, h2⟩, h3⟩, h4⟩, h5⟩, h6⟩, h7⟩, h8⟩, h9⟩ := h
    obtain ⟨⟨⟨⟨⟨⟨⟨⟨k1, k2⟩, k3⟩, k4⟩, k5⟩, k6⟩, k7⟩, k8⟩, k9⟩ := h'
    exact ⟨⟨⟨⟨⟨⟨⟨⟨h1.trans k1, h2.trans k2⟩, h3.trans k3⟩, h4.trans k4⟩, h5.trans k5⟩,
      h6.trans k6⟩, h7.trans k7⟩, h8.trans k8⟩, h9.trans k9⟩

/-- **The consensus** is the winner of the vote, and has at least `data_n` votes. -/
theorem findConsensusMeta_ok {reads : List HealRead} {dataN : Nat} {m : ObjectMeta}
    (h : findConsensusMeta reads dataN = .ok m) : Lib.Wins quorumEq (readMetas reads) m ∧
      dataN ≤ (readMetas reads).countP m.quorumEq := by
  unfold findConsensusMeta at h
  cases hp : Lib.plurality quorumEq (readMetas reads) with
  | none => simp [hp] at h
  | some g =>
    obtain ⟨best, count⟩ := g
    rw [hp] at h
    obtain ⟨rfl, hwins⟩ := Lib.plurality_spec ObjectMeta.quorumEq_equivalence hp
    simp only at h
    split_ifs at h with hlt
    cases h
    exact ⟨hwins, Nat.le_of_not_lt hlt⟩

/-- When some class has `data_n` votes there is a consensus. -/
theorem findConsensusMeta_isOk {reads : List HealRead} {dataN : Nat} {x : ObjectMeta}
    (hx : x ∈ readMetas reads) (hcount : dataN ≤ (readMetas reads).countP x.quorumEq) :
    ∃ m, findConsensusMeta reads dataN = .ok m := by
  obtain ⟨⟨best, count⟩, hp⟩ := Lib.plurality_isSome ObjectMeta.quorumEq_equivalence
    (List.ne_nil_of_mem hx)
  obtain ⟨rfl, hwins⟩ := Lib.plurality_spec ObjectMeta.quorumEq_equivalence hp
  refine ⟨best, ?_⟩
  unfold findConsensusMeta
  rw [hp]
  exact if_neg (Nat.not_lt.mpr (hcount.trans (hwins.most x hx)))

end Abixio
