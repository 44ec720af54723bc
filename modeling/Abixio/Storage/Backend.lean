import Abixio.Lib.Act
import Abixio.Storage.Metadata

/-!
# The per-disk interface

Model of the traits `Backend` and `ShardWriter` (`src/storage/mod.rs:57-177`): the calls the
erasure layer, the pool and the healer make on one disk. `V` is the disk's state and `W` the state
of an open shard writer. A call that can change the disk is an action on `V`: it returns a result
and leaves a state even when it fails. A call that only reads is a function of `V`.

`Writing` is the history of one streaming writer: opened on a disk, fed chunks one after another.
`LawfulBackend` is what the erasure layer relies on: a disk returns what the last completed
write of a key stored. `Background` is what a disk does between the calls.
-/

namespace Abixio

/-- An action on one disk. -/
abbrev VolAct (V α : Type) := Lib.Act StorageError V α

/-- `Backend` and `ShardWriter`. -/
class Backend (V : Type) (W : outParam Type) where
  /-- `info().volume_id`. -/
  volumeId : V → String
  openShardWriter : (bucket key : String) → (versionId : Option String) → VolAct V W
  writeChunk : W → Bytes → VolAct V W
  finalize : W → ObjectMeta → VolAct V Unit
  writeShard : (bucket key : String) → Bytes → ObjectMeta → VolAct V Unit
  readShard : (bucket key : String) → V → Except StorageError (Bytes × ObjectMeta)
  mmapShard : (bucket key : String) → V → Except StorageError (Bytes × ObjectMeta)
  deleteObject : (bucket key : String) → VolAct V Unit
  statObject : (bucket key : String) → V → Except StorageError ObjectMeta
  readMetaVersions : (bucket key : String) → V → Except StorageError (List ObjectMeta)
  writeMetaVersions : (bucket key : String) → List ObjectMeta → VolAct V Unit
  readVersionedShard : (bucket key versionId : String) → V →
    Except StorageError (Bytes × ObjectMeta)
  deleteVersionData : (bucket key versionId : String) → VolAct V Unit
  listObjects : (bucket keyPrefix : String) → V → Except StorageError (List String)
  bucketExists : (bucket : String) → V → Bool
  readBucketSettings : (bucket : String) → V → BucketSettings
  /-- `part.N` of an object and the shard index in its `part.N.meta`, which the multipart decoder
  reads below the root of a local disk. -/
  readPart : (bucket key : String) → (number : Int) → V → Option (Nat × Bytes)

/-- The writer `w` was opened on `v₀` for this key and has been fed `chunks`, leaving the disk at
`v`. -/
inductive Writing {V W : Type} [Backend V W] (bucket key : String) (vid : Option String)
    (v₀ : V) : List Bytes → W → V → Prop
  | opened {w : W} {v : V} (h : Backend.openShardWriter bucket key vid v₀ = (.ok w, v)) :
      Writing bucket key vid v₀ [] w v
  | chunk {chunks : List Bytes} {w w' : W} {v v' : V} {data : Bytes}
      (hw : Writing bucket key vid v₀ chunks w v)
      (h : Backend.writeChunk w data v = (.ok w', v')) :
      Writing bucket key vid v₀ (chunks ++ [data]) w' v'

section Writing

variable {V W : Type} [Backend V W] {bucket key : String} {vid : Option String} {v₀ v v' : V}
  {chunks : List Bytes} {w w' : W}

theorem writing_nil : Writing bucket key vid v₀ [] w v ↔
    Backend.openShardWriter bucket key vid v₀ = (.ok w, v) := by
  constructor
  · intro h
    generalize hc : ([] : List Bytes) = chunks at h
    cases h with
    | opened h => exact h
    | chunk hw h => simp at hc
  · exact Writing.opened

theorem writing_concat {data : Bytes} : Writing bucket key vid v₀ (chunks ++ [data]) w' v' ↔
    ∃ w v, Writing bucket key vid v₀ chunks w v ∧ Backend.writeChunk w data v = (.ok w', v') := by
  constructor
  · intro h
    generalize hc : chunks ++ [data] = all at h
    cases h with
    | opened h => simp at hc
    | chunk hw h =>
      obtain ⟨rfl, hdata⟩ := List.append_inj' hc rfl
      obtain rfl := (List.cons.inj hdata).1
      exact ⟨_, _, hw, h⟩
  · rintro ⟨w, v, hw, h⟩
    exact hw.chunk h

/-- A writer's state is determined by what it was fed. -/
theorem Writing.unique (h : Writing bucket key vid v₀ chunks w v)
    (h' : Writing bucket key vid v₀ chunks w' v') : w = w' ∧ v = v' := by
  induction h generalizing w' v' with
  | opened hopen =>
    have heq := hopen.symm.trans (writing_nil.mp h')
    rw [Prod.mk.injEq, Except.ok.injEq] at heq
    exact heq
  | chunk hw hchunk ih =>
    obtain ⟨w₁, v₁, hw₁, hchunk₁⟩ := writing_concat.mp h'
    obtain ⟨rfl, rfl⟩ := ih hw₁
    have heq := hchunk.symm.trans hchunk₁
    rw [Prod.mk.injEq, Except.ok.injEq] at heq
    exact heq

/-- What was fed to a writer was fed step by step. -/
theorem Writing.of_append {more : List Bytes} (h : Writing bucket key vid v₀ (chunks ++ more) w v) :
    ∃ w' v', Writing bucket key vid v₀ chunks w' v' := by
  induction more using List.reverseRecOn generalizing w v with
  | nil => exact ⟨w, v, by rwa [List.append_nil] at h⟩
  | append_singleton more data ih =>
    rw [← List.append_assoc] at h
    obtain ⟨w₁, v₁, hw, -⟩ := writing_concat.mp h
    exact ih hw

end Writing

/-- The fields every shard of a plain PUT has: the current version, not a delete marker, nothing
inline, no parts. -/
structure ObjectMeta.Plain (m : ObjectMeta) : Prop where
  latest : m.isLatest = true
  notMarker : m.isDeleteMarker = false
  inlineNone : m.inlineData = none
  noParts : m.parts = []

/-- The reads of the current object return this shard. -/
def Returns {V W : Type} [Backend V W] (bucket key : String) (data : Bytes) (m : ObjectMeta) (v : V) : Prop :=
  Backend.readShard bucket key v = .ok (data, m) ∧ Backend.mmapShard bucket key v = .ok (data, m) ∧
    Backend.statObject bucket key v = .ok m

/-- **A disk returns what was stored**, through the streaming writer and through `write_shard`.

The file tier is lawful. A volume with a write-ahead log is not: a version in the log is not found without
its id, and a shard above the threshold of the log is hidden by an older entry of its key. -/
class LawfulBackend (V : Type) {W : outParam Type} [Backend V W] : Prop where
  /-- An object written through a writer is the current one. -/
  read_finalized : ∀ {bucket key : String} {vid : Option String} {v₀ v v' : V}
    {chunks : List Bytes} {w : W} {m : ObjectMeta}, Writing bucket key vid v₀ chunks w v →
    m.Plain → m.versionId = vid.getD "" → Backend.finalize w m v = (.ok (), v') →
    Returns bucket key chunks.flatten m v'
  /-- A version written through a writer can be read by its id. -/
  read_finalized_version : ∀ {bucket key vid : String} {v₀ v v' : V} {chunks : List Bytes} {w : W}
    {m : ObjectMeta}, Writing bucket key (some vid) v₀ chunks w v → m.Plain → m.versionId = vid →
    Backend.finalize w m v = (.ok (), v') →
    Backend.readVersionedShard bucket key vid v' = .ok (chunks.flatten, m)
  /-- An unversioned shard written at once; its mapping may expose that it is stored inline. -/
  read_written : ∀ {bucket key : String} {v v' : V} {data : Bytes} {m : ObjectMeta},
    m.Plain → m.versionId = "" → Backend.writeShard bucket key data m v = (.ok (), v') →
    Backend.readShard bucket key v' = .ok (data, m) ∧ Backend.statObject bucket key v' = .ok m ∧
      ∃ m', Backend.mmapShard bucket key v' = .ok (data, m') ∧ { m' with inlineData := none } = m

/-- **What a disk does between the calls**: `work i` is the step it takes if the task at place `i` of those
that wait is next. -/
class Background (V : Type) where
  work : Nat → V → V
  /-- No task that waits is about the object. -/
  Settled : (bucket key : String) → V → Prop

/-- A disk after some steps of its own. -/
def afterWork {V : Type} [Background V] (steps : List Nat) (v : V) : V :=
  steps.foldl (fun v i => Background.work i v) v

/-- The disks of a pool. -/
abbrev Disks (V : Type) (n : Nat) := Fin n → V

/-- An action on the disks of a pool. -/
abbrev PoolAct (V : Type) (n : Nat) (α : Type) := Lib.Act StorageError (Disks V n) α

end Abixio
