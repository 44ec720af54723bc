import Abixio.Storage.RoundTrip
import Abixio.Storage.ShardFiles

/-!
# What a PUT does to its disks while it streams

A PUT (`put_object_stream`, `put_object`, `put_object_versioned`, `src/storage/volume_pool.rs`) opens a
writer on every disk and writes the shards of the body block by block, up to the first error
(`src/storage/erasure_encode.rs`). `WriterMoves` is a relation that the calls on the writers keep.
`streamOnePlusZero_runs` and `encodeBody_runs` carry it over to the whole body, whatever its outcome.
-/

namespace Abixio

open Lib Act

variable {V W : Type} [Backend V W] {n : Nat} {R : V → V → Prop} {Q : W → Prop}

/-! ## Streaming to the disks -/

section Streaming

/-- Until they are finalized, the writers of a key move their disks along `R`; `Q` is what is known
of a writer. -/
structure WriterMoves (R : V → V → Prop) (Q : W → Prop) (bucket key : String)
    (vid : Option String) : Prop where
  open_moves : Act.Moves R (Backend.openShardWriter bucket key vid : VolAct V W)
  open_returns : Act.Returns Q (Backend.openShardWriter bucket key vid : VolAct V W)
  chunk_moves : ∀ w, Q w → ∀ data, Act.Moves R (Backend.writeChunk w data : VolAct V W)
  chunk_returns : ∀ w, Q w → ∀ data, Act.Returns Q (Backend.writeChunk w data : VolAct V W)

variable [Std.Refl R] [IsTrans V R] {req : PutRequest} (h : WriterMoves R Q req.bucket req.key req.versionId)
  (env : Env)
include h

omit [Std.Refl R] [IsTrans V R] in
theorem WriterMoves.opens : Runs R Q (Backend.openShardWriter req.bucket req.key req.versionId : VolAct V W) :=
  ⟨h.open_moves, h.open_returns⟩

omit [Std.Refl R] [IsTrans V R] in
theorem WriterMoves.chunk {w : W} (hw : Q w) (data : Bytes) :
    Runs R Q (Backend.writeChunk w data : VolAct V W) :=
  ⟨h.chunk_moves w hw data, h.chunk_returns w hw data⟩

theorem writeBodySerial_runs : ∀ (body : Body) (w : W) (received : Bytes), Q w →
    Runs R (fun r => Q r.1) (writeBodySerial body w received : VolAct V (W × Bytes))
  | [], _, _, hw => .pure hw
  | .error _ :: _, _, _, _ => .fail _
  | .ok chunk :: rest, _, _, hw => (h.chunk hw chunk).bind fun w' hw' => writeBodySerial_runs rest w' _ hw'

theorem writeBodyPipelined_runs : ∀ (body : Body) (w : W) (received : Bytes), Q w →
    Runs R (fun r => Q r.1) (writeBodyPipelined body w received : VolAct V (W × Bytes))
  | [], _, _, hw => .pure hw
  | .error _ :: _, _, _, _ => .fail _
  | .ok chunk :: rest, w, _, hw => by
    refine (h.chunk hw chunk).attempt.bind fun r hr => ?_
    cases r with
    | ok w' => exact writeBodyPipelined_runs rest w' _ (hr w' rfl)
    | error e =>
      simp only
      split
      · exact .fail _
      · exact .fail _

/-- The one-disk path moves its disk along `R`, whatever its outcome. -/
theorem streamOnePlusZero_runs (body : Body) :
    Runs R (fun r => Q r.1) (streamOnePlusZero req body : VolAct V (W × Bytes)) := by
  refine h.opens.bind fun w hw => ?_
  unfold writeBody
  split_ifs
  · exact writeBodyPipelined_runs h body w [] hw
  · exact writeBodySerial_runs h body w [] hw

theorem openWriters_runs (distribution : List (Fin n)) :
    Runs (Pointwise R) (fun ws => ∀ w ∈ ws, Q w.2)
      (openWriters req distribution : PoolAct V n (List (Fin n × W))) := by
  refine .bind (.each fun d _ => h.opens.attempt.at d) fun opened hopened => ?_
  refine .ofExcept_bind fun writers hcollect => .pure fun w hw => ?_
  rw [mapM_id_eq_ok hcollect] at hopened
  exact hopened _ (List.mem_map_of_mem (List.of_mem_zip hw).2) w.2 rfl

/-- The writers that one block leaves. -/
theorem writeBlock_runs (dataN parityN : Nat) (block : Bytes) {st : EncodeState W n}
    (hst : ∀ w ∈ st.writers, Q w.2) : Runs (Pointwise R) (fun st' => ∀ w ∈ st'.writers, Q w.2)
      (writeBlock env dataN parityN block st : PoolAct V n (EncodeState W n)) := by
  refine .ofExcept_bind fun bufs _ => .bind (Q := fun ws => ∀ w ∈ ws, Q w.2) (.each fun p hp => ?_)
    fun writers hws => .pure hws
  have hq : Q p.1.2 := hst p.1 (List.of_mem_zip hp).1
  refine Runs.at ?_ _
  exact (h.chunk hq _).bind fun w hw => .pure hw

theorem writeBlocks_runs (dataN parityN : Nat) : ∀ (blocks : List Bytes) {st : EncodeState W n},
    (∀ w ∈ st.writers, Q w.2) → Runs (Pointwise R) (fun st' => ∀ w ∈ st'.writers, Q w.2)
      (writeBlocks env dataN parityN blocks st : PoolAct V n (EncodeState W n))
  | [], _, hst => .pure hst
  | block :: rest, _, hst => (writeBlock_runs h env dataN parityN block hst).bind fun _ hst' =>
      writeBlocks_runs dataN parityN rest hst'

theorem encodeChunks_runs (dataN parityN : Nat) : ∀ (body : Body) (blockBuf : Bytes)
    {st : EncodeState W n}, (∀ w ∈ st.writers, Q w.2) →
    Runs (Pointwise R) (fun r => ∀ w ∈ r.2.writers, Q w.2)
      (encodeChunks env dataN parityN body blockBuf st : PoolAct V n (Bytes × EncodeState W n))
  | [], _, _, hst => .pure hst
  | .error _ :: _, _, _, _ => .fail _
  | .ok chunk :: rest, blockBuf, st, hst => by
    have hst' : ∀ w ∈ ({ st with received := st.received ++ chunk } : EncodeState W n).writers, Q w.2 := hst
    exact (writeBlocks_runs h env dataN parityN (cut streamBlockSize (blockBuf ++ chunk)).1 hst').bind
      fun _ hst' => encodeChunks_runs dataN parityN rest _ hst'

/-- **The erasure-coded path moves every disk along `R`** up to the end of the body, whatever its
outcome. -/
theorem encodeBody_runs (dataN parityN : Nat) (distribution : List (Fin n)) (body : Body) :
    Runs (Pointwise R) (fun st => ∀ w ∈ st.writers, Q w.2)
      (encodeBody env dataN parityN req distribution body : PoolAct V n (EncodeState W n)) := by
  refine (openWriters_runs h distribution).bind fun writers hws => ?_
  refine (encodeChunks_runs h env dataN parityN body [] hws).bind ?_
  rintro ⟨blockBuf, st⟩ hst
  unfold flushBlock
  dsimp only
  split_ifs
  · exact .pure hst
  · exact writeBlock_runs h env dataN parityN blockBuf hst

end Streaming

/-! ## PUTs on the pool -/

/-- A PUT on the pool. -/
inductive PutCall where
  /-- `put_object_stream`. -/
  | stream (req : PutRequest) (peerOk : Bool) (body : Body)
  /-- `put_object` and `put_object_versioned`. -/
  | whole (req : PutRequest) (data : Bytes)

def PutCall.req : PutCall → PutRequest
  | .stream req _ _ => req
  | .whole req _ => req

/-- The call. -/
def PutCall.run (env : Env) (cfg : PoolConfig n) : PutCall → PoolOp V n (ObjectInfo × List MrfEntry)
  | .stream req peerOk body => putObjectStream env cfg req peerOk body
  | .whole req data => putObject env cfg req data

/-! ## One disk -/

/-- The configuration `VolumePool::new` builds for one disk. -/
def oneConfig : PoolConfig 1 where
  planner := { epochId := 1, clusterId := "local-set", disks := [⟨0, "local", "v0"⟩], nodup := by decide }
  localNodeId := ""

/-- One disk with the bucket and nothing in it. -/
def onePool (faults : List (Option String)) (readCache : Option ReadCache) :
    Pool LocalVolume 1 where
  disks := fun _ => { sampleVolume "v0" with faults := faults }
  writeCache := none
  readCache := readCache

/-- A PUT of `x` as a small object. -/
def putX : PutCall := .stream { sampleRequest with contentLength := some 1 } true [.ok (utf8 "x")]

end Abixio
