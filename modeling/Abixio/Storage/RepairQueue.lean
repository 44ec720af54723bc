import Abixio.Storage.FailingDisks

/-!
# PUTs that are acknowledged without all of their shards

A PUT with parity is acknowledged with a write quorum. `encode_and_write`
(`src/storage/erasure_encode.rs:464-487`) then hands its key to the MRF queue if a shard was not stored.
The small-object path of `put_object_stream` (`src/storage/volume_pool.rs:595-621`) counts its shards in the
same way and hands over nothing.

`queues_partial_iff`: the key is queued, unless the small-object path stores between a write quorum and all
of its shards.
-/

namespace Abixio

open Lib Act

section Writes

variable {V W : Type} [Backend V W] {n : Nat} (env : Env) (cfg : PoolConfig n)

/-- The calls that store the shards of a PUT: its layout, and what `finalize`, or `write_shard` for a small
object, answered. -/
structure ShardWrites where
  dataN : Nat
  parityN : Nat
  answers : List (Except StorageError Unit)
  deriving DecidableEq

/-- The number of shards stored. -/
def ShardWrites.stored (w : ShardWrites) : Nat := (w.answers.filter Except.isOk).length

/-- The streaming path up to these calls. -/
def streamWrites (req : PutRequest) (body : Body) : PoolOp V n ShardWrites := do
  let (dataN, parityN) ← Act.query (resolveEc req.bucket req.opts)
  let record ← Act.ofExcept
    ((cfg.planner.plan env req.bucket req.key dataN parityN).mapError StorageError.invalidConfig)
  let answers ← onDisks do
    let st ← encodeBody env dataN parityN req (record.shards.map PlacementShard.backendIndex) body
    finalizeWriters env req record parityN st
  pure ⟨dataN, parityN, answers⟩

/-- The small-object path up to these calls. -/
def smallWrites (req : PutRequest) (body : Body) : PoolOp V n ShardWrites := do
  let data ← Act.ofExcept (collectBody body)
  let (dataN, parityN) ← Act.query (resolveEc req.bucket req.opts)
  let shards ← Act.ofExcept (smallShards env dataN parityN data)
  let record ← Act.ofExcept
    ((cfg.planner.plan env req.bucket req.key dataN parityN).mapError StorageError.invalidConfig)
  let answers ← onDisks (writeShards req.bucket req.key (smallEntry env cfg req record parityN data shards))
  pure ⟨dataN, parityN, answers⟩

/-- Whether a PUT takes the small-object path. -/
def PutCall.small : PutCall → Bool
  | .stream req _ _ => isSmall req
  | .whole _ _ => false

/-- A PUT up to the calls that store its shards. -/
def PutCall.writes : PutCall → PoolOp V n ShardWrites
  | .stream req _ body => if isSmall req then smallWrites env cfg req body else streamWrites env cfg req body
  | .whole req data => streamWrites env cfg { req with contentLength := some data.length } [.ok data]

/-- **A PUT with parity that is acknowledged without all of its shards queued its key.** -/
def QueuesPartial (call : PutCall) (p : Pool V n) : Prop :=
  ∀ info owed w, (call.run env cfg p).1 = .ok (info, owed) → (call.writes env cfg p).1 = .ok w →
    0 < w.parityN → w.stored < w.dataN + w.parityN → (⟨call.req.bucket, call.req.key⟩ : MrfEntry) ∈ owed

variable {env cfg} {req : PutRequest} {body : Body} {p : Pool V n} {w : ShardWrites}

/-- `encode_and_write` queues what it owes. -/
theorem encodeAndWrite_queues {dataN parityN : Nat} {info : ObjectInfo} {owed : List MrfEntry}
    (hput : (encodeAndWrite env cfg.planner dataN parityN req body p.disks).1 = .ok (info, owed))
    (hec : resolveEc req.bucket req.opts p = .ok (dataN, parityN))
    (hw : (streamWrites env cfg req body p).1 = .ok w) (hparity : 0 < w.parityN)
    (hshort : w.stored < w.dataN + w.parityN) : (⟨req.bucket, req.key⟩ : MrfEntry) ∈ owed := by
  rw [streamWrites, query_bind_ok hec] at hw
  obtain ⟨record, hplan, hw⟩ := ofExcept_bind_eq_ok.mp (Prod.ext hw rfl)
  obtain ⟨answers, p₃, hanswers, hpure⟩ := bind_eq_ok.mp hw
  cases hpure
  have hcalls : ((encodeBody env dataN parityN req record.distribution body >>=
    finalizeWriters env req record parityN) p.disks).1 = .ok answers := congrArg Prod.fst hanswers
  obtain ⟨st, s₁, hbody, hfin⟩ := bind_eq_ok.mp (Prod.ext hcalls rfl)
  unfold encodeAndWrite encodeStriped commitShards at hput
  rw [hplan, ok_bind, if_neg (show ¬ (dataN = 1 ∧ parityN = 0) from fun h => by simp [h.2] at hparity)] at hput
  obtain ⟨_, -, hput⟩ := ofExcept_bind_eq_ok.mp (Prod.ext hput rfl)
  rw [bind_ok hbody, bind_ok hfin] at hput
  split at hput
  · obtain ⟨_, _, -, hfail⟩ := bind_eq_ok.mp hput
    cases hfail
  · obtain ⟨-, rfl⟩ := Prod.mk.inj (Except.ok.inj (congrArg Prod.fst hput))
    rw [if_pos (show (answers.filter Except.isOk).length < dataN + parityN from hshort)]
    exact List.mem_singleton_self _

/-- The small-object path without a write cache acknowledges a write quorum. -/
theorem putSmall_isOk (peerOk : Bool) (hoff : p.writeCache = none)
    (hw : (smallWrites env cfg req body p).1 = .ok w) :
    (putSmall env cfg req peerOk body (forgetRead req.bucket req.key p)).1.isOk =
      true ↔ writeQuorum w.dataN w.parityN ≤ w.stored := by
  set p₀ := forgetRead req.bucket req.key p
  obtain ⟨data, hdata, hw⟩ := ofExcept_bind_eq_ok.mp (Prod.ext hw rfl)
  obtain ⟨⟨dataN, parityN⟩, hec, hw⟩ := query_bind_eq_ok.mp hw
  obtain ⟨shards, hshards, hw⟩ := ofExcept_bind_eq_ok.mp hw
  obtain ⟨record, hplan, hw⟩ := ofExcept_bind_eq_ok.mp hw
  obtain ⟨answers, p₂, hanswers, hpure⟩ := bind_eq_ok.mp hw
  cases hpure
  have hstored : (writeShards req.bucket req.key (smallEntry env cfg req record parityN data shards)
    p.disks).1 = .ok answers := congrArg Prod.fst hanswers
  rw [putSmall_prepared (p := p₀) peerOk hdata hec hshards (mapError_eq_ok.mp hplan),
    show p₀.writeCache = none from hoff]
  dsimp only [Option.bind_none]
  rw [writeSmall, bind_ok (onDisks_eq (p := onReadCache _ p₀) (Prod.ext hstored rfl))]
  show _ ↔ writeQuorum dataN parityN ≤ (answers.filter Except.isOk).length
  split
  · exact iff_of_false nofun (by omega)
  · exact iff_of_true rfl (by omega)

/-- `put_object` and `put_object_versioned` queue what they owe. -/
theorem putObject_queues (req : PutRequest) (data : Bytes) (p : Pool V n) :
    QueuesPartial env cfg (.whole req data) p := by
  intro info owed w hrun hw hparity hshort
  obtain ⟨_, -, hrun⟩ := query_bind_eq_ok.mp (Prod.ext hrun rfl)
  obtain ⟨⟨dataN, parityN⟩, hec, hrun⟩ := query_bind_eq_ok.mp hrun
  have hput : (encodeAndWrite env cfg.planner dataN parityN { req with contentLength := some data.length }
    [.ok data] p.disks).1 = .ok (info, owed) := congrArg Prod.fst hrun
  have hmem := encodeAndWrite_queues hput hec hw hparity hshort
  exact hmem

/-- **An acknowledged PUT queues the shards it owes, unless it took the small-object path**: a PUT with
parity that is acknowledged without all of its shards hands its key to the MRF queue if and only if it is
not a small object of which a write quorum is stored. -/
theorem queues_partial_iff (call : PutCall) (hoff : p.writeCache = none) :
    QueuesPartial env cfg call p ↔
      (call.small = true → checkKey call.req.bucket call.req.key call.req.versionId p = .ok () →
        ∀ w, (call.writes env cfg p).1 = .ok w → 0 < w.parityN → w.stored < w.dataN + w.parityN →
          w.stored < writeQuorum w.dataN w.parityN) := by
  cases call with
  | whole req data => exact iff_of_true (putObject_queues req data p) fun h => by cases h
  | stream req peerOk body =>
    simp only [QueuesPartial, PutCall.small, PutCall.writes, PutCall.run, PutCall.req]
    cases hcheck : checkKey req.bucket req.key req.versionId p with
    | error e =>
      rw [putObjectStream_unchecked peerOk hcheck]
      exact iff_of_true (fun _ _ _ h => by cases h) fun _ h => by cases h
    | ok _ =>
      rw [putObjectStream_checked peerOk hcheck]
      cases hsmall : isSmall req with
      | false =>
        refine iff_of_true (fun info owed w hput hw hparity hshort => ?_) fun h => by cases h
        obtain ⟨⟨dataN, parityN⟩, hec, hput⟩ := query_bind_eq_ok.mp (Prod.ext hput rfl)
        exact encodeAndWrite_queues (p := p) (congrArg Prod.fst hput) hec hw hparity hshort
      | true =>
        simp only [if_true, forall_true_left, bind_apply]
        refine ⟨fun h w hw hparity hshort => ?_, fun h info owed w hput hw hparity hshort => ?_⟩
        · by_contra hquorum
          have hok := (putSmall_isOk peerOk hoff hw).mpr (not_lt.mp hquorum)
          split at h
          · exact absurd (h _ _ w rfl hw hparity hshort) List.not_mem_nil
          · rename_i hrun
            rw [hrun] at hok
            cases hok
        · split at hput
          · rename_i hrun
            refine absurd (h w hw hparity hshort) (not_lt.mpr ((putSmall_isOk peerOk hoff hw).mp ?_))
            rw [hrun]
            rfl
          · cases hput

end Writes

/-- The PUT of a body without a content length on three disks, of which the last fails at its second
call. -/
theorem queues_partial_iff_streamed :
    QueuesPartial sampleEnv threeConfig (.stream streamedRequest true [.ok (utf8 "x")]) (failingPool 2) ∧
      ((PutCall.stream streamedRequest true [.ok (utf8 "x")]).run sampleEnv threeConfig
        (failingPool 2)).1.toOption.map Prod.snd = some [⟨"bkt", "k"⟩] :=
  ⟨(queues_partial_iff _ rfl).mpr nofun, by decide +kernel⟩

/-- **A PUT that is never repaired.** Disk 2 of three fails. The small object is acknowledged with two of
its three shards and nothing is queued. -/
theorem small_put_not_queued :
    ¬ QueuesPartial sampleEnv threeConfig (.stream (threeRequest 1) true [.ok (utf8 "x")]) (failingPool 0) := by
  intro h
  have hput : ((PutCall.stream (threeRequest 1) true [.ok (utf8 "x")]).run sampleEnv threeConfig
      (failingPool 0)).1 = .ok (putInfo sampleEnv (threeRequest 1) (utf8 "x"), []) := by decide +kernel
  have hwrites : ((PutCall.stream (threeRequest 1) true [.ok (utf8 "x")]).writes sampleEnv threeConfig
      (failingPool 0)).1 = .ok ⟨1, 2, [.ok (), .error (.io "disk failed"), .ok ()]⟩ := by decide +kernel
  exact absurd (h _ _ _ hput hwrites (by decide) (by decide)) List.not_mem_nil

end Abixio
