import Abixio.Storage.EncodeLayout

/-!
# A run of the encode path

What a successful `encode_and_write` (`src/storage/erasure_encode.rs:168-501`) did to each disk. The
invariant `Feeding` of the chunk loop says that writer `i` has been fed shard `i` of every block so
far, one chunk a block, and that the disks outside the plan are as they were. One block keeps it
(`writeBlock_feeding`), so a whole body does (`encodeChunks_feeding`), whatever its chunks. The loop
gets through the body exactly if every disk takes its chunks (`encodeBody_total`).

`encodeAndWrite_ok` is the result the round trips, the healer and the pool build on: a successful
call wrote shard `i` of `encodeObject` to the `i`-th planned disk (`ShardWritten`), up to finalize
failures that leave at least a write quorum and are owed to the MRF queue.
-/

namespace Abixio

open Lib List
open Act (attempt_apply bind_eq_ok bind_ok each_at_ok forall₂_getElem? ok_bind)
open PoolPlanner (plan_ok)

variable {V W : Type} [Backend V W] {n : Nat} {env : Env}

/-- The disk went from `v₀` to `v'` by one writer that was fed shard `index` of `body` and then
finalized, with outcome `r`. -/
def ShardWritten (env : Env) (req : PutRequest) (record : PlacementRecord n)
    (dataN parityN : Nat) (body : Bytes) (index : Nat) (v₀ v' : V) (r : Except StorageError Unit) :
    Prop :=
  ∃ (chunks : List Bytes) (w : W) (v : V),
    chunks.flatten = (encodeObject env dataN parityN body).getD index [] ∧
    Writing req.bucket req.key req.versionId v₀ chunks w v ∧
    Backend.finalize w (shardMeta env req record parityN index body
      ((encodeObject env dataN parityN body).getD index [])) v = (r, v')

/-- What a successful PUT did: the plan, the body, the outcome of every finalize, and the state of
every disk. -/
structure PutWritten (env : Env) (planner : PoolPlanner n) (dataN parityN : Nat)
    (req : PutRequest) (stream : Body) (s t : Disks V n) (info : ObjectInfo)
    (owed : List MrfEntry) (record : PlacementRecord n) (body : Bytes)
    (results : List (Except StorageError Unit)) : Prop where
  plan : planner.plan env req.bucket req.key dataN parityN = .ok record
  layout : parityN = 0 ∨ RsAccepts dataN parityN
  stream_ok : ∃ chunks : List Bytes, stream = chunks.map .ok ∧ chunks.flatten = body
  info_eq : info = putInfo env req body
  results_length : results.length = dataN + parityN
  quorum : writeQuorum dataN parityN ≤ (results.filter Except.isOk).length
  all_ok : owed = [] → ∀ r ∈ results, r = .ok ()
  written : ∀ (i : Nat) (shard : PlacementShard n) (r : Except StorageError Unit),
    record.shards[i]? = some shard → results[i]? = some r →
    ShardWritten env req record dataN parityN body i (s shard.backendIndex)
      (t shard.backendIndex) r
  frame : ∀ d, d ∉ record.shards.map PlacementShard.backendIndex → t d = s d

/-! ## The chunk loop -/

/-- Writer by writer, what was written is what the shard's hasher was fed, and the disks outside the
plan are untouched. -/
structure Encoding (req : PutRequest) (s₀ : Disks V n) (distribution : List (Fin n))
    (st : EncodeState W n) (s : Disks V n) : Prop where
  disks : st.writers.map Prod.fst = distribution
  nodup : distribution.Nodup
  wrote : List.Forall₂ (fun (p : Fin n × W) (f : Bytes) => ∃ chunks : List Bytes,
    chunks.flatten = f ∧ Writing req.bucket req.key req.versionId (s₀ p.1) chunks p.2 (s p.1))
    st.writers st.fed
  frame : ∀ d, d ∉ distribution → s d = s₀ d

/-- The chunks that shard `i` is fed for some blocks. -/
def shardChunks (env : Env) (dataN parityN : Nat) (blocks : List Bytes) (i : Nat) : List Bytes :=
  blocks.map fun block => (encodeBlock env dataN parityN block).getD i []

/-- The disk takes these chunks from a writer. -/
def Takes (req : PutRequest) (v₀ : V) (chunks : List Bytes) : Prop :=
  ∃ w v, Writing req.bucket req.key req.versionId v₀ chunks w v

/-- **The encode loop after some blocks**: every writer was fed its shards of them, one a block. -/
structure Feeding (env : Env) (dataN parityN : Nat) (req : PutRequest) (s₀ : Disks V n)
    (distribution : List (Fin n)) (blocks : List Bytes) (st : EncodeState W n) (s : Disks V n) :
    Prop where
  disks : st.writers.map Prod.fst = distribution
  bufs : st.bufs.length = dataN + parityN
  fed : st.fed = shardRows env dataN parityN blocks
  wrote : ∀ (i : Nat) (p : Fin n × W), st.writers[i]? = some p →
    Writing req.bucket req.key req.versionId (s₀ p.1) (shardChunks env dataN parityN blocks i) p.2
      (s p.1)
  frame : ∀ d, d ∉ distribution → s d = s₀ d

variable {req : PutRequest} {s₀ s t : Disks V n} {distribution : List (Fin n)}
  {dataN parityN : Nat} {blocks : List Bytes} {st st' : EncodeState W n}

theorem Feeding.writer {i : Nat} {d : Fin n} (h : Feeding env dataN parityN req s₀ distribution blocks st s)
    (hi : distribution[i]? = some d) : ∃ w, st.writers[i]? = some (d, w) := by
  rw [← h.disks, getElem?_map, Option.map_eq_some_iff] at hi
  obtain ⟨p, hp, rfl⟩ := hi
  exact ⟨p.2, hp⟩

/-- What was received is kept beside the writers. -/
theorem Feeding.receive (h : Feeding env dataN parityN req s₀ distribution blocks st s)
    (received : Bytes) :
    Feeding env dataN parityN req s₀ distribution blocks { st with received := received } s :=
  ⟨h.disks, h.bufs, h.fed, h.wrote, h.frame⟩

theorem shardChunks_flatten {i : Nat} (hi : i < dataN + parityN) :
    (shardChunks env dataN parityN blocks i).flatten =
      (shardRows env dataN parityN blocks).getD i [] := by
  unfold shardChunks shardRows
  rw [getD_eq_getElem?_getD, getElem?_map, getElem?_range hi]
  simp [flatMap]

theorem shardChunks_concat (blocks : List Bytes) (block : Bytes) (i : Nat) :
    shardChunks env dataN parityN (blocks ++ [block]) i =
      shardChunks env dataN parityN blocks i ++ [(encodeBlock env dataN parityN block).getD i []] := by
  simp [shardChunks]

variable {v₀ : V}

theorem Takes.of_append {i : Nat} {more : List Bytes}
    (h : Takes req v₀ (shardChunks env dataN parityN (blocks ++ more) i)) :
    Takes req v₀ (shardChunks env dataN parityN blocks i) := by
  obtain ⟨w, v, hw⟩ := h
  unfold shardChunks at hw
  rw [map_append] at hw
  exact hw.of_append

variable (hd : 0 < dataN) (hnd : distribution.Nodup) (hlen : distribution.length = dataN + parityN)
  (h : Feeding env dataN parityN req s₀ distribution blocks st s)

include hnd hlen h in
theorem Feeding.encoding : Encoding req s₀ distribution st s := by
  have hw : st.writers.length = dataN + parityN := by rw [← hlen, ← h.disks, length_map]
  have hf : st.fed.length = dataN + parityN := by rw [h.fed, shardRows_length]
  refine ⟨h.disks, hnd, forall₂_iff_get.mpr ⟨hw.trans hf.symm, fun i h1 h2 => ?_⟩, h.frame⟩
  refine ⟨_, ?_, h.wrote i _ (getElem?_eq_getElem h1)⟩
  rw [shardChunks_flatten (hw ▸ h1), ← h.fed]
  exact getD_eq_getElem _ _ h2

include hlen h in
/-- The disks of the writers and the shards of a block. -/
theorem Feeding.zip (block : Bytes) : st.writers.length = dataN + parityN ∧
      (st.writers.zip (encodeBlock env dataN parityN block)).map (fun p => p.1.1) =
        distribution := by
  have hw : st.writers.length = dataN + parityN := by rw [← hlen, ← h.disks, length_map]
  have hzip : (st.writers.zip (encodeBlock env dataN parityN block)).map Prod.fst = st.writers :=
    map_fst_zip (by simp [hw])
  refine ⟨hw, ?_⟩
  rw [← h.disks]
  conv_rhs => rw [← hzip, map_map]
  rfl

section Loop

include hd hnd hlen

include h in
/-- **One block** goes to every writer. -/
theorem writeBlock_feeding {block : Bytes}
    (hrun : writeBlock env dataN parityN block st s = (.ok st', t)) :
    Feeding env dataN parityN req s₀ distribution (blocks ++ [block]) st' t ∧
      st'.received = st.received := by
  obtain ⟨hw, hidx⟩ := h.zip hlen block
  unfold writeBlock at hrun
  rw [fillShards_eq hd h.bufs, ok_bind] at hrun
  obtain ⟨writers, t', heach, hpure⟩ := bind_eq_ok.mp hrun
  cases hpure
  have hlength := Act.each_length heach
  rw [length_zip, encodeBlock_length, hw, Nat.min_self] at hlength
  obtain ⟨hall, hframe⟩ := each_at_ok (by rw [hidx]; exact hnd) heach
  -- what happened to one writer
  have hstep : ∀ (i : Nat) (p' : Fin n × W), writers[i]? = some p' → ∃ p, st.writers[i]? = some p ∧
      p'.1 = p.1 ∧ Backend.writeChunk p.2 ((encodeBlock env dataN parityN block).getD i [])
        (s p.1) = (.ok p'.2, t p.1) := by
    intro i p' hp'
    have hi : i < dataN + parityN := by
      rw [← hlength]
      exact (List.getElem?_eq_some_iff.mp hp').1
    have hwi : st.writers[i]? = some st.writers[i] := getElem?_eq_getElem (by omega)
    have hbi : (encodeBlock env dataN parityN block)[i]? =
        some ((encodeBlock env dataN parityN block).getD i []) := by
      rw [getD_eq_getElem _ _ (by simpa using hi)]
      exact getElem?_eq_getElem _
    have hzip : _ = some (_, _) := getElem?_zip_eq_some.mpr ⟨hwi, hbi⟩
    have hone := forall₂_getElem? hall hzip hp'
    obtain ⟨w, v, hchunk, hpure⟩ := bind_eq_ok.mp hone
    cases hpure
    exact ⟨_, hwi, rfl, hchunk⟩
  refine ⟨⟨?_, by simp, ?_, fun i p' hp' => ?_, fun d hd' => ?_⟩, rfl⟩
  · rw [← h.disks]
    refine ext_getElem (by simp [hlength, hw]) fun i h1 h2 => ?_
    rw [length_map] at h1
    obtain ⟨p, hp, heq, -⟩ := hstep i _ (getElem?_eq_getElem h1)
    obtain ⟨hi, rfl⟩ := List.getElem?_eq_some_iff.mp hp
    rw [getElem_map, getElem_map, heq]
  · simp only
    rw [h.fed, ← shardRows_concat]
  · obtain ⟨p, hp, heq, hchunk⟩ := hstep i p' hp'
    rw [shardChunks_concat, heq]
    exact (h.wrote i p hp).chunk hchunk
  · rw [hframe d (by rw [hidx]; exact hd'), h.frame d hd']

include h in
/-- It succeeds if every disk takes it. -/
theorem writeBlock_total {block : Bytes} (htakes : ∀ i d, distribution[i]? = some d →
      Takes req (s₀ d) (shardChunks env dataN parityN (blocks ++ [block]) i)) :
    ∃ st' t, writeBlock env dataN parityN block st s = (.ok st', t) := by
  obtain ⟨hw, hidx⟩ := h.zip hlen block
  have hall : ∀ p ∈ st.writers.zip (encodeBlock env dataN parityN block), ∃ a v,
      ((do let w ← Backend.writeChunk p.1.2 p.2; pure (p.1.1, w)) : VolAct V (Fin n × W))
        (s p.1.1) = (.ok a, v) := by
    intro p hp
    obtain ⟨i, hi⟩ := mem_iff_getElem?.mp hp
    obtain ⟨hwi, hbi⟩ := getElem?_zip_eq_some.mp hi
    have hdisk : distribution[i]? = some p.1.1 := by
      rw [← h.disks, getElem?_map, hwi]
      rfl
    obtain ⟨w', v', hwriting⟩ := htakes i _ hdisk
    rw [shardChunks_concat] at hwriting
    obtain ⟨w₁, v₁, hw₁, hchunk⟩ := writing_concat.mp hwriting
    -- the writer is where the loop left it
    obtain ⟨rfl, rfl⟩ := hw₁.unique (h.wrote i _ hwi)
    rw [getD_eq_getElem?_getD, hbi, Option.getD_some] at hchunk
    exact ⟨_, _, bind_eq_ok.mpr ⟨w', v', hchunk, rfl⟩⟩
  obtain ⟨writers, t, heach⟩ := Act.each_at_total (by rw [hidx]; exact hnd) hall
  refine ⟨{ st with
    writers := writers
    fed := zipWith (· ++ ·) st.fed (encodeBlock env dataN parityN block)
    bufs := encodeBlock env dataN parityN block }, t, ?_⟩
  unfold writeBlock
  rw [fillShards_eq hd h.bufs, ok_bind, bind_ok heach]
  rfl

theorem writeBlocks_feeding : ∀ {more blocks : List Bytes} {st st' : EncodeState W n}
    {s t : Disks V n}, Feeding env dataN parityN req s₀ distribution blocks st s →
    writeBlocks env dataN parityN more st s = (.ok st', t) →
    Feeding env dataN parityN req s₀ distribution (blocks ++ more) st' t ∧
      st'.received = st.received
  | [], blocks, st, st', s, t, h, hrun => by
    cases hrun
    rw [append_nil]
    exact ⟨h, rfl⟩
  | block :: more, blocks, st, st', s, t, h, hrun => by
    obtain ⟨st₁, s₁, hblock, hrest⟩ := bind_eq_ok.mp hrun
    obtain ⟨h₁, hrec₁⟩ := writeBlock_feeding hd hnd hlen h hblock
    obtain ⟨h', hrec'⟩ := writeBlocks_feeding h₁ hrest
    rw [append_assoc] at h'
    exact ⟨h', hrec'.trans hrec₁⟩

theorem writeBlocks_total : ∀ {more blocks : List Bytes} {st : EncodeState W n} {s : Disks V n},
    Feeding env dataN parityN req s₀ distribution blocks st s →
    (∀ i d, distribution[i]? = some d →
      Takes req (s₀ d) (shardChunks env dataN parityN (blocks ++ more) i)) →
    ∃ st' t, writeBlocks env dataN parityN more st s = (.ok st', t)
  | [], _, st, s, _, _ => ⟨st, s, rfl⟩
  | block :: more, blocks, st, s, h, htakes => by
    rw [append_cons] at htakes
    obtain ⟨st₁, s₁, hblock⟩ := writeBlock_total hd hnd hlen h fun i d hi =>
      (htakes i d hi).of_append
    obtain ⟨st', t, hrest⟩ :=
      writeBlocks_total (writeBlock_feeding hd hnd hlen h hblock).1 htakes
    exact ⟨st', t, bind_eq_ok.mpr ⟨st₁, s₁, hblock, hrest⟩⟩

/-- **The whole chunk loop**: the full blocks of what was received were written, and the rest of it
is in the block buffer. -/
theorem encodeChunks_feeding : ∀ {stream : Body} {buf buf' : Bytes} {st st' : EncodeState W n}
    {s t : Disks V n}, Feeding env dataN parityN req s₀ distribution
      (cut streamBlockSize st.received).1 st s →
    buf = (cut streamBlockSize st.received).2 →
    encodeChunks env dataN parityN stream buf st s = (.ok (buf', st'), t) →
    ∃ chunks : List Bytes, stream = chunks.map .ok ∧ st'.received = st.received ++ chunks.flatten ∧
      Feeding env dataN parityN req s₀ distribution (cut streamBlockSize st'.received).1 st' t ∧
      buf' = (cut streamBlockSize st'.received).2
  | [], buf, buf', st, st', s, t, h, hbuf, hrun => by
    cases hrun
    exact ⟨[], rfl, by simp, h, hbuf⟩
  | .error e :: rest, buf, buf', st, st', s, t, _, _, hrun => by cases hrun
  | .ok chunk :: rest, buf, buf', st, st', s, t, h, hbuf, hrun => by
    have hcut := cut_append streamBlockSize_pos st.received chunk
    rw [← hbuf] at hcut
    obtain ⟨st₁, s₁, hblocks, hrest⟩ := bind_eq_ok.mp hrun
    obtain ⟨h₁, hrec₁⟩ := writeBlocks_feeding hd hnd hlen (h.receive _) hblocks
    obtain ⟨chunks, rfl, hrec, hfeed, hbuf'⟩ :=
      encodeChunks_feeding (by rw [hrec₁, hcut]; exact h₁) (by rw [hrec₁, hcut]) hrest
    exact ⟨chunk :: chunks, rfl, by rw [hrec, hrec₁]; simp, hfeed, hbuf'⟩

theorem encodeChunks_total : ∀ {chunks : List Bytes} {buf : Bytes} {st : EncodeState W n}
    {s : Disks V n}, Feeding env dataN parityN req s₀ distribution
      (cut streamBlockSize st.received).1 st s →
    buf = (cut streamBlockSize st.received).2 →
    (∀ i d, distribution[i]? = some d → Takes req (s₀ d) (shardChunks env dataN parityN
      (cut streamBlockSize (st.received ++ chunks.flatten)).1 i)) →
    ∃ r t, encodeChunks env dataN parityN (chunks.map .ok) buf st s = (.ok r, t)
  | [], buf, st, s, _, _, _ => ⟨(buf, st), s, rfl⟩
  | chunk :: chunks, buf, st, s, h, hbuf, htakes => by
    have hcut := cut_append streamBlockSize_pos st.received chunk
    rw [← hbuf] at hcut
    rw [flatten_cons, ← append_assoc] at htakes
    have hnow : ∀ i d, distribution[i]? = some d → Takes req (s₀ d) (shardChunks env dataN parityN
        ((cut streamBlockSize st.received).1 ++ (cut streamBlockSize (buf ++ chunk)).1) i) := by
      intro i d hi
      have hall := htakes i d hi
      rw [cut_append streamBlockSize_pos] at hall
      have hprefix := hall.of_append
      rw [hcut] at hprefix
      exact hprefix
    obtain ⟨st₁, s₁, hblocks⟩ := writeBlocks_total hd hnd hlen (h.receive (st.received ++ chunk)) hnow
    obtain ⟨h₁, hrec₁⟩ := writeBlocks_feeding hd hnd hlen (h.receive _) hblocks
    obtain ⟨r, t, hrest⟩ := encodeChunks_total (by rw [hrec₁, hcut]; exact h₁)
      (by rw [hrec₁, hcut]) (by rw [hrec₁]; exact htakes)
    exact ⟨r, t, bind_eq_ok.mpr ⟨st₁, s₁, hblocks, hrest⟩⟩

end Loop

/-! ## Opening and finalizing -/

theorem cut_nil : cut streamBlockSize ([] : Bytes) = ([], []) :=
  cut_of_lt streamBlockSize_pos

/-- The invariant holds once every writer is open. -/
theorem openWriters_feeding {writers : List (Fin n × W)} (hnd : distribution.Nodup)
    (h : openWriters req distribution s = (.ok writers, t)) :
    Feeding env dataN parityN req s distribution (cut streamBlockSize ([] : Bytes)).1
      ⟨writers, replicate (dataN + parityN) [], replicate (dataN + parityN) [], []⟩
      t := by
  obtain ⟨opened, s', heach, h⟩ := bind_eq_ok.mp h
  obtain ⟨ws, s'', hcollect, hpure⟩ := bind_eq_ok.mp h
  rw [Act.ofExcept_apply, Prod.mk.injEq] at hcollect
  obtain ⟨hcollect, rfl⟩ := hcollect
  cases hpure
  have hlength := Act.each_length heach
  rw [Act.mapM_id_eq_ok hcollect] at heach hlength
  obtain ⟨hall, hframe⟩ := each_at_ok (by simpa using hnd) heach
  refine ⟨map_fst_zip (by simpa using hlength.ge), by simp, shardRows_nil.symm,
    fun i p hp => ?_, fun d hd => hframe d (by simpa using hd)⟩
  obtain ⟨hdisk, hwriter⟩ := getElem?_zip_eq_some.mp hp
  have hopen := forall₂_getElem? hall hdisk
    (show (ws.map Except.ok)[i]? = some (.ok p.2) by rw [getElem?_map, hwriter]; rfl)
  rw [attempt_apply, Prod.mk.injEq, Except.ok.injEq] at hopen
  exact Writing.opened (Prod.ext hopen.1 hopen.2)

theorem openWriters_total (hnd : distribution.Nodup)
    (htakes : ∀ d ∈ distribution, Takes req (s d) []) :
    ∃ writers t, openWriters req distribution s = (.ok writers, t) := by
  obtain ⟨opened, t, heach⟩ := Act.each_total (ε := StorageError)
    (f := fun d : Fin n => Act.at d
      (Act.attempt (Backend.openShardWriter req.bucket req.key req.versionId)))
    (fun _ _ => ⟨_, _, rfl⟩) distribution s
  obtain ⟨hall, -⟩ := each_at_ok (by simpa using hnd) heach
  have hok : ∀ r ∈ opened, ∃ w, r = .ok w := by
    intro r hr
    obtain ⟨i, hi⟩ := mem_iff_getElem?.mp hr
    have hlt : i < distribution.length := by
      rw [hall.length_eq]
      exact (List.getElem?_eq_some_iff.mp hi).1
    have hopen := forall₂_getElem? hall (getElem?_eq_getElem hlt) hi
    obtain ⟨w, v, hw⟩ := htakes _ (getElem_mem hlt)
    rw [attempt_apply, writing_nil.mp hw, Prod.mk.injEq, Except.ok.injEq] at hopen
    exact ⟨w, hopen.1.symm⟩
  obtain ⟨ws, hws⟩ := Act.mapM_id_of_ok hok
  refine ⟨distribution.zip ws, t, ?_⟩
  unfold openWriters
  rw [bind_ok heach, hws]
  rfl

variable {record : PlacementRecord n} {stream : Body} {planner : PoolPlanner n}
  {chunks : List Bytes} {results : List (Except StorageError Unit)} {info : ObjectInfo}

theorem finalizeWriters_total (env : Env) (req : PutRequest) (record : PlacementRecord n) (parityN : Nat)
    (st : EncodeState W n) (s : Disks V n) :
    ∃ results t, finalizeWriters env req record parityN st s = (.ok results, t) :=
  Act.each_total (fun _ _ => ⟨_, _, rfl⟩) _ _

/-- Every finalize ran on its own disk, with the metadata of its shard. -/
theorem finalizeWriters_ok (henc : Encoding req s₀ distribution st s)
    (h : finalizeWriters env req record parityN st s = (.ok results, t)) :
    results.length = st.writers.length ∧
      (∀ (i : Nat) (p : Fin n × W) (f : Bytes) (r : Except StorageError Unit),
        st.writers[i]? = some p → st.fed[i]? = some f → results[i]? = some r →
        Backend.finalize p.2 (shardMeta env req record parityN i st.received f) (s p.1) =
          (r, t p.1)) ∧ ∀ d, d ∉ distribution → t d = s d := by
  have hfedlen : st.writers.length = st.fed.length := henc.wrote.length_eq
  have hidx : ((st.writers.zip st.fed).zipIdx).map (fun p => p.1.1.1) = distribution := by
    have hzip : (st.writers.zip st.fed).map Prod.fst = st.writers :=
      map_fst_zip hfedlen.le
    have hzi : (st.writers.zip st.fed).zipIdx.map Prod.fst = st.writers.zip st.fed :=
      zipIdx_map_fst _ _
    rw [← henc.disks]
    conv_rhs => rw [← hzip, ← hzi, map_map, map_map]
    rfl
  obtain ⟨hall, hframe⟩ := each_at_ok (by rw [hidx]; exact henc.nodup) h
  refine ⟨?_, ?_, fun d hd => hframe d (by rw [hidx]; exact hd)⟩
  · have := Act.each_length h
    rw [this, length_zipIdx, length_zip, ← hfedlen, Nat.min_self]
  · intro i p f r hp hf hr
    have hk : (st.writers.zip st.fed).zipIdx[i]? = some ((p, f), i) := by
      have hz : (st.writers.zip st.fed)[i]? = some (p, f) :=
        getElem?_zip_eq_some.mpr ⟨hp, hf⟩
      rw [getElem?_zipIdx, hz]
      simp
    have hfin := forall₂_getElem? hall hk hr
    rw [attempt_apply, Prod.mk.injEq, Except.ok.injEq] at hfin
    exact Prod.ext hfin.1 hfin.2

theorem eq_ok_of_filter_length (h : ¬ (results.filter Except.isOk).length < results.length) :
    ∀ r ∈ results, r = .ok () := by
  intro r hr
  have hall := length_filter_eq_length_iff.mp
    (Nat.le_antisymm (length_filter_le _ _) (Nat.le_of_not_lt h)) r hr
  cases r with
  | ok u => rfl
  | error e => cases hall

variable {buf : Bytes}
  (hcut : Feeding env dataN parityN req s₀ distribution (cut streamBlockSize st.received).1 st s)
  (hbuf : buf = (cut streamBlockSize st.received).2)

include hd hnd hlen hcut hbuf in
/-- The last block, when there is one, completes the blocks of the body. -/
theorem flushBlock_feeding (hrun : flushBlock env dataN parityN buf st s = (.ok st', t)) :
    Feeding env dataN parityN req s₀ distribution (Lib.blocks streamBlockSize st.received) st' t ∧
      st'.received = st.received := by
  unfold flushBlock at hrun
  unfold blocks
  simp only [← hbuf]
  split at hrun
  · rename_i hempty
    cases hrun
    rw [if_pos hempty]
    exact ⟨hcut, rfl⟩
  · rename_i hempty
    rw [if_neg hempty]
    exact writeBlock_feeding hd hnd hlen hcut hrun

include hd hnd hlen hcut hbuf in
theorem flushBlock_total (htakes : ∀ i d, distribution[i]? = some d → Takes req (s₀ d)
      (shardChunks env dataN parityN (Lib.blocks streamBlockSize st.received) i)) :
    ∃ st' t, flushBlock env dataN parityN buf st s = (.ok st', t) := by
  unfold flushBlock
  unfold Lib.blocks at htakes
  simp only [← hbuf] at htakes
  split
  · exact ⟨st, s, rfl⟩
  · rename_i hempty
    rw [if_neg hempty] at htakes
    exact writeBlock_total hd hnd hlen hcut htakes

theorem rsFor_ok (h : rsFor env dataN parityN = .ok ()) : parityN = 0 ∨ RsAccepts dataN parityN := by
  unfold rsFor at h
  split at h
  · exact Or.inr (Act.mapError_eq_ok.mp h)
  · exact Or.inl (by omega)

include hd hnd hlen in
theorem encodeBody_feeding (h : encodeBody env dataN parityN req distribution stream s = (.ok st, t)) :
    ∃ chunks : List Bytes, stream = chunks.map .ok ∧ st.received = chunks.flatten ∧
      Feeding env dataN parityN req s distribution
        (Lib.blocks streamBlockSize chunks.flatten) st t := by
  obtain ⟨writers, s₂, hopen, h⟩ := bind_eq_ok.mp h
  obtain ⟨⟨buf, st₁⟩, s₃, hchunks, hlast⟩ := bind_eq_ok.mp h
  obtain ⟨chunks, hstream, hrec, h₁, hbuf⟩ := encodeChunks_feeding hd hnd hlen
    (openWriters_feeding hnd hopen) (by rw [cut_nil]) hchunks
  obtain ⟨h', hrec'⟩ := flushBlock_feeding hd hnd hlen h₁ hbuf hlast
  have hbody : st₁.received = chunks.flatten := by rw [hrec]; rfl
  rw [hbody] at h' hrec'
  exact ⟨chunks, hstream, hrec', h'⟩

include hd hnd hlen in
/-- **The erasure-coded path gets through the body exactly if every disk takes its shard**, block by
block. -/
theorem encodeBody_total :
    (∃ st t, encodeBody env dataN parityN req distribution (chunks.map .ok) s = (.ok st, t)) ↔
      ∀ (i : Nat) d, distribution[i]? = some d → Takes req (s d) (shardChunks env dataN parityN
        (Lib.blocks streamBlockSize chunks.flatten) i) := by
  constructor
  · rintro ⟨st, t, h⟩ i d hi
    obtain ⟨chunks', hstream, -, hfeed⟩ := encodeBody_feeding hd hnd hlen h
    obtain rfl := map_ok_inj hstream
    obtain ⟨w, hw⟩ := hfeed.writer hi
    exact ⟨_, _, hfeed.wrote i _ hw⟩
  · intro htakes
    have hfull : ∀ (i : Nat) d, distribution[i]? = some d → Takes req (s d)
        (shardChunks env dataN parityN (cut streamBlockSize chunks.flatten).1 i) := by
      intro i d hi
      have hall := htakes i d hi
      unfold Lib.blocks at hall
      simp only at hall
      split at hall
      · exact hall
      · exact hall.of_append
    obtain ⟨writers, s₂, hopen⟩ := openWriters_total hnd fun d hmem => by
      obtain ⟨i, hi⟩ := mem_iff_getElem?.mp hmem
      have hall := htakes i d hi
      rw [← nil_append (blocks streamBlockSize chunks.flatten)] at hall
      exact hall.of_append
    let st₀ : EncodeState W n :=
      ⟨writers, replicate (dataN + parityN) [], replicate (dataN + parityN) [], []⟩
    have h₀ : Feeding env dataN parityN req s distribution
        (cut streamBlockSize st₀.received).1 st₀ s₂ := openWriters_feeding hnd hopen
    have hbuf₀ : ([] : Bytes) = (cut streamBlockSize st₀.received).2 :=
      (congrArg Prod.snd cut_nil).symm
    obtain ⟨⟨buf, st₁⟩, s₃, hchunks⟩ := encodeChunks_total hd hnd hlen h₀ hbuf₀ hfull
    obtain ⟨chunks', hstream, hrec, h₁, hbuf⟩ :=
      encodeChunks_feeding hd hnd hlen h₀ hbuf₀ hchunks
    obtain rfl := map_ok_inj hstream
    have hbody : st₁.received = chunks.flatten := by rw [hrec]; rfl
    obtain ⟨st, t, hlast⟩ := flushBlock_total hd hnd hlen h₁ hbuf (by rw [hbody]; exact htakes)
    exact ⟨st, t, bind_eq_ok.mpr ⟨writers, s₂, hopen,
      bind_eq_ok.mpr ⟨(buf, st₁), s₃, hchunks, hlast⟩⟩⟩

include hd hnd hlen in
/-- **The writers after the whole body**: each was fed its shard of `encodeObject`. -/
theorem encodeBody_encoding (h : encodeBody env dataN parityN req distribution stream s = (.ok st, t)) :
    ∃ chunks : List Bytes, stream = chunks.map .ok ∧ Encoding req s distribution st t ∧
      st.received = chunks.flatten ∧ st.fed = encodeObject env dataN parityN chunks.flatten := by
  obtain ⟨chunks, hstream, hrec, hfeed⟩ := encodeBody_feeding hd hnd hlen h
  exact ⟨chunks, hstream, hfeed.encoding hnd hlen, hrec, hfeed.fed⟩

variable {owed : List MrfEntry}

/-- A successful run of the erasure-coded path. -/
theorem encodeStriped_ok (hplan : planner.plan env req.bucket req.key dataN parityN = .ok record)
    (h : encodeStriped env dataN parityN req record stream s = (.ok (info, owed), t)) :
    ∃ body results,
      PutWritten env planner dataN parityN req stream s t info owed record body results := by
  have hsound := plan_ok hplan
  have hd := PlacementPlanner.plan_data_pos hplan
  have hlen := hsound.length_disks
  obtain ⟨⟨⟩, hrs, h⟩ := Act.ofExcept_bind_eq_ok.mp h
  obtain ⟨st', s₄, hencode, h⟩ := bind_eq_ok.mp h
  obtain ⟨chunks, hstream, henc', hbody, hfed'⟩ :=
    encodeBody_encoding hd hsound.nodup hlen hencode
  obtain ⟨results, s₅, hfin, h⟩ := bind_eq_ok.mp h
  obtain ⟨hrlen, hrun, hframe⟩ := finalizeWriters_ok henc' hfin
  have hwlen : st'.writers.length = dataN + parityN := by
    rw [← hlen, ← henc'.disks, length_map]
  rw [hwlen] at hrlen
  split at h
  · obtain ⟨_, _, -, hfail⟩ := bind_eq_ok.mp h
    cases hfail
  rename_i hquorum
  cases h
  refine ⟨chunks.flatten, results, hplan, rsFor_ok hrs, ⟨chunks, hstream, rfl⟩, by rw [hbody], hrlen,
    Nat.le_of_not_lt hquorum, ?_, ?_, ?_⟩
  · intro howed
    split at howed
    · cases howed
    · rename_i hall
      exact eq_ok_of_filter_length (by rw [hrlen]; exact hall)
  · intro i shard r hshard hr
    have hi : i < dataN + parityN := by
      obtain ⟨hi, -⟩ := List.getElem?_eq_some_iff.mp hr
      omega
    have hw : st'.writers[i]? = some st'.writers[i] := getElem?_eq_getElem (by omega)
    have hf : st'.fed[i]? = some ((encodeObject env dataN parityN chunks.flatten).getD i []) := by
      rw [hfed', getD_eq_getElem _ _ (by simpa using hi)]
      exact getElem?_eq_getElem _
    have hdisk : st'.writers[i].1 = shard.backendIndex := by
      have hmap : (st'.writers.map Prod.fst)[i]? = some st'.writers[i].1 := by
        rw [getElem?_map, hw]
        rfl
      rw [henc'.disks, getElem?_map, hshard] at hmap
      exact (Option.some.inj hmap).symm
    obtain ⟨pieces, hflat, hwriting⟩ := forall₂_getElem? henc'.wrote hw hf
    have hfinal := hrun i _ _ r hw hf hr
    rw [hdisk] at hwriting hfinal
    rw [hbody] at hfinal
    exact ⟨pieces, _, _, hflat, hwriting, hfinal⟩
  · intro d hd'
    rw [hframe d hd', henc'.frame d hd']

/-! ## One disk, no parity -/

/-- With one data shard the data shard is the body. -/
theorem encodeObject_one_data (body : Bytes) :
    (encodeObject env 1 parityN body).getD 0 [] = body := by
  have hrow : ∀ block ∈ blocks streamBlockSize body,
      (encodeBlock env 1 parityN block).getD 0 [] = block := by
    intro block hblock
    have hpos : 0 < block.length :=
      length_pos_iff.mpr (ne_nil_of_mem_blocks streamBlockSize_pos hblock)
    have hsize : shardSize block.length 1 = block.length := by
      unfold shardSize divCeil
      omega
    unfold encodeBlock encodeRows
    rw [hsize, getD_append _ _ _ _ (by simp), pieces_succ]
    simp [padRight]
  unfold encodeObject shardRows
  rw [getD_eq_getElem _ _ (by simp)]
  simp only [getElem_map, getElem_range]
  rw [flatMap_congr hrow, flatMap_id', blocks_flatten streamBlockSize_pos]

/-- A pipelined run that succeeds did what the serial one does. -/
theorem writeBodySerial_of_pipelined :
    ∀ {stream : Body} {w : W} {received : Bytes} {v v' : V} {r : W × Bytes},
      writeBodyPipelined stream w received v = (.ok r, v') →
      writeBodySerial stream w received v = (.ok r, v')
  | [], _, _, _, _, _, h => h
  | .error e :: rest, _, _, _, _, _, h => h
  | .ok chunk :: rest, w, received, v, v', r, h => by
    obtain ⟨a, v₁, hchunk, h⟩ := bind_eq_ok.mp h
    rw [attempt_apply, Prod.mk.injEq, Except.ok.injEq] at hchunk
    cases a with
    | ok w₁ =>
      exact bind_eq_ok.mpr
        ⟨w₁, v₁, Prod.ext hchunk.1 hchunk.2, writeBodySerial_of_pipelined h⟩
    | error e =>
      exfalso
      match rest, h with
      | [], h => cases h
      | .ok c :: rest, h => cases h
      | .error e' :: rest, h => cases h

theorem writeBodySerial_ok :
    ∀ {stream : Body} {before : List Bytes} {w w' : W} {received received' : Bytes} {v v' : V},
      Writing req.bucket req.key req.versionId v₀ before w v →
      writeBodySerial stream w received v = (.ok (w', received'), v') →
      ∃ chunks : List Bytes, stream = chunks.map .ok ∧ received' = received ++ chunks.flatten ∧
        Writing req.bucket req.key req.versionId v₀ (before ++ chunks) w' v'
  | [], before, w, w', received, received', v, v', hw, h => by
    cases h
    exact ⟨[], rfl, by simp, by rw [append_nil]; exact hw⟩
  | .error e :: rest, _, _, _, _, _, _, _, _, h => by cases h
  | .ok chunk :: rest, before, w, w', received, received', v, v', hw, h => by
    obtain ⟨w₁, v₁, hchunk, hrest⟩ := bind_eq_ok.mp h
    obtain ⟨chunks, rfl, hrec, hwriting⟩ := writeBodySerial_ok (hw.chunk hchunk) hrest
    refine ⟨chunk :: chunks, rfl, by rw [hrec]; simp, ?_⟩
    rw [append_assoc] at hwriting
    exact hwriting

/-- The writer of the `1+0` path after the whole body. -/
theorem streamOnePlusZero_writing {w : W} {received : Bytes} {v v' : V}
    (h : streamOnePlusZero req stream v = (.ok (w, received), v')) :
    ∃ chunks : List Bytes, stream = chunks.map .ok ∧ received = chunks.flatten ∧
      Writing req.bucket req.key req.versionId v chunks w v' := by
  obtain ⟨w₀, v₁, hopen, hbody⟩ := bind_eq_ok.mp h
  have hserial : writeBodySerial stream w₀ [] v₁ = (.ok (w, received), v') := by
    unfold writeBody at hbody
    split at hbody
    · exact writeBodySerial_of_pipelined hbody
    · exact hbody
  have hopened : Writing req.bucket req.key req.versionId v [] w₀ v₁ := Writing.opened hopen
  obtain ⟨chunks, hstream, hrec, hwriting⟩ := writeBodySerial_ok hopened hserial
  exact ⟨chunks, hstream, hrec, hwriting⟩

/-- A successful run of the `1+0` path. -/
theorem encodeOnePlusZero_ok {v v' : V} (h : encodeOnePlusZero env req record stream v = (.ok info, v')) :
    ∃ body : Bytes, (∃ chunks : List Bytes, stream = chunks.map .ok ∧ chunks.flatten = body) ∧
      info = putInfo env req body ∧ ShardWritten env req record 1 0 body 0 v v' (.ok ()) := by
  obtain ⟨⟨w', received⟩, v₂, hstreamed, h⟩ := bind_eq_ok.mp h
  obtain ⟨⟨⟩, v₃, hfin, hpure⟩ := bind_eq_ok.mp h
  cases hpure
  obtain ⟨chunks, hstream, hrec, hwriting⟩ := streamOnePlusZero_writing hstreamed
  refine ⟨received, ⟨chunks, hstream, hrec.symm⟩, rfl, chunks, w', v₂, ?_, hwriting, ?_⟩
  · rw [encodeObject_one_data, hrec]
  · rw [encodeObject_one_data]
    exact hfin

/-- **A successful `encode_and_write` stored the shards of `encodeObject` on the planned disks.** -/
theorem encodeAndWrite_ok
    (h : encodeAndWrite env planner dataN parityN req stream s = (.ok (info, owed), t)) :
    ∃ record body results,
      PutWritten env planner dataN parityN req stream s t info owed record body results := by
  obtain ⟨record, s₁, hplan, hrest⟩ := bind_eq_ok.mp h
  rw [Act.ofExcept_apply, Prod.mk.injEq] at hplan
  obtain ⟨hplan, rfl⟩ := hplan
  have hplan' := Act.mapError_eq_ok.mp hplan
  have hsound := plan_ok hplan'
  split at hrest
  · rename_i hone
    obtain ⟨rfl, rfl⟩ := hone
    obtain ⟨shard, hshards⟩ := length_eq_one_iff.mp hsound.length
    rw [hshards] at hrest
    obtain ⟨info', s₂, hat, hpure⟩ := bind_eq_ok.mp hrest
    cases hpure
    obtain ⟨v, hone, rfl⟩ := Act.at_eq_ok.mp hat
    obtain ⟨body, hstream, hinfo, hwritten⟩ := encodeOnePlusZero_ok hone
    refine ⟨record, body, [.ok ()], hplan', Or.inl rfl, hstream, hinfo, rfl, by decide, ?_, ?_, ?_⟩
    · intro _ r hr
      exact mem_singleton.mp hr
    · intro i shard' r hshard hr
      obtain ⟨hi, hr⟩ := List.getElem?_eq_some_iff.mp hr
      obtain rfl : i = 0 := by simpa using hi
      rw [hshards] at hshard
      cases hshard
      cases hr
      rw [Function.update_self]
      exact hwritten
    · intro d hd
      rw [hshards] at hd
      exact Function.update_of_ne (by simpa using hd) _ _
  · obtain ⟨body, results, hw⟩ := encodeStriped_ok hplan' hrest
    exact ⟨record, body, results, hw⟩

/-! ## Disks that take everything -/

/-- The disk takes any chunks from a writer, and finalizes it with any metadata of kind `F`. -/
def TakesAll (F : ObjectMeta → Prop) (req : PutRequest) (v₀ : V) : Prop :=
  ∀ chunks, ∃ w v, Writing req.bucket req.key req.versionId v₀ chunks w v ∧
    ∀ m, F m → ∃ v', Backend.finalize w m v = (.ok (), v')

variable {F : ObjectMeta → Prop}

/-- The serial loop gets through the chunks that the disk takes. -/
theorem writeBodySerial_total : ∀ {chunks before : List Bytes} {w : W} (received : Bytes) {v : V},
      Writing req.bucket req.key req.versionId v₀ before w v →
      (∃ w' v', Writing req.bucket req.key req.versionId v₀ (before ++ chunks) w' v') →
      ∃ r v', writeBodySerial (chunks.map .ok) w received v = (.ok r, v')
  | [], _, w, received, v, _, _ => ⟨(w, received), v, rfl⟩
  | chunk :: chunks, before, w, received, v, hw, ⟨w', v', hall⟩ => by
    rw [append_cons] at hall
    obtain ⟨w₁, v₁, hw₁⟩ := hall.of_append
    obtain ⟨w₀, v₀', hw₀, hchunk⟩ := writing_concat.mp hw₁
    obtain ⟨rfl, rfl⟩ := hw.unique hw₀
    obtain ⟨r, v₂, hrest⟩ := writeBodySerial_total (received ++ chunk) hw₁ ⟨w', v', hall⟩
    exact ⟨r, v₂, bind_eq_ok.mpr ⟨w₁, v₁, hchunk, hrest⟩⟩

/-- When every chunk is written, the pipelined loop does what the serial one does. -/
theorem writeBodyPipelined_of_serial :
    ∀ {stream : Body} {w : W} {received : Bytes} {v v' : V} {r : W × Bytes},
      writeBodySerial stream w received v = (.ok r, v') →
      writeBodyPipelined stream w received v = (.ok r, v')
  | [], _, _, _, _, _, h => h
  | .error e :: rest, _, _, _, _, _, h => h
  | .ok chunk :: rest, w, received, v, v', r, h => by
    obtain ⟨w₁, v₁, hchunk, hrest⟩ := bind_eq_ok.mp h
    refine bind_eq_ok.mpr ⟨.ok w₁, v₁, ?_, writeBodyPipelined_of_serial hrest⟩
    rw [attempt_apply, hchunk]

theorem encodeOnePlusZero_total {v : V} (hv : TakesAll F req v)
    (hF : F (shardMeta env req record 0 0 chunks.flatten chunks.flatten)) :
    ∃ info v', encodeOnePlusZero env req record (chunks.map .ok) v = (.ok info, v') := by
  obtain ⟨w₀, v₀, hopened, -⟩ := hv []
  obtain ⟨w', v', hall, hfin⟩ := hv chunks
  obtain ⟨⟨w, received⟩, v₁, hserial⟩ := writeBodySerial_total [] hopened ⟨w', v', hall⟩
  have hstream : streamOnePlusZero req (chunks.map .ok) v = (.ok (w, received), v₁) := by
    refine bind_eq_ok.mpr ⟨w₀, v₀, writing_nil.mp hopened, ?_⟩
    unfold writeBody
    split
    · exact writeBodyPipelined_of_serial hserial
    · exact hserial
  obtain ⟨chunks', hmap, hbody, hwriting⟩ := streamOnePlusZero_writing hstream
  obtain rfl := map_ok_inj hmap
  obtain ⟨rfl, rfl⟩ := hall.unique hwriting
  rw [← hbody] at hF
  obtain ⟨v₂, hrun⟩ := hfin _ hF
  exact ⟨_, v₂, bind_eq_ok.mpr ⟨_, _, hstream, bind_eq_ok.mpr ⟨(), v₂, hrun, rfl⟩⟩⟩

variable (env record) in
/-- **When no finalize fails** the shards are committed, and nothing is owed. -/
theorem commitShards_all (henc : Encoding req s₀ distribution st s)
    (hlen : distribution.length = dataN + parityN)
    (hfin : ∀ (i : Nat) (d : Fin n) (chunks : List Bytes) (w : W) (v : V) (f : Bytes),
      st.fed[i]? = some f → Writing req.bucket req.key req.versionId (s₀ d) chunks w v →
        (Backend.finalize w (shardMeta env req record parityN i st.received f) v).1 = .ok ()) :
    ∃ t, commitShards env dataN parityN req record st s = (.ok (putInfo env req st.received, []), t) := by
  obtain ⟨results, t, hresults⟩ := finalizeWriters_total env req record parityN st s
  obtain ⟨hrlen, hfinal, -⟩ := finalizeWriters_ok henc hresults
  have hok : ∀ r ∈ results, Except.isOk r = true := by
    intro r hr
    obtain ⟨i, hi, rfl⟩ := mem_iff_getElem.mp hr
    have hfed := henc.wrote.length_eq
    have hw : st.writers[i]? = some st.writers[i] := getElem?_eq_getElem (by omega)
    have hf : st.fed[i]? = some st.fed[i] := getElem?_eq_getElem (by omega)
    obtain ⟨pieces, -, hwriting⟩ := forall₂_getElem? henc.wrote hw hf
    have hrun := congrArg Prod.fst (hfinal i _ _ _ hw hf (getElem?_eq_getElem hi))
    rw [hfin _ _ _ _ _ _ hf hwriting] at hrun
    rw [← show Except.ok () = results[i] from hrun]
    rfl
  have hcount : (results.filter Except.isOk).length = dataN + parityN := by
    rw [filter_eq_self.mpr hok, hrlen, ← hlen, ← henc.disks, length_map]
  refine ⟨t, ?_⟩
  unfold commitShards
  rw [bind_ok hresults]
  simp only [hcount, if_neg (Nat.not_lt.mpr writeQuorum_le), if_neg (Nat.lt_irrefl _)]
  rfl

variable (hplan : planner.plan env req.bucket req.key dataN parityN = .ok record)
  (hlayout : parityN = 0 ∨ RsAccepts dataN parityN) (hs : ∀ d, TakesAll F req (s d))
  (hF : ∀ i < dataN + parityN, F (shardMeta env req record parityN i chunks.flatten
    ((encodeObject env dataN parityN chunks.flatten).getD i [])))

include hplan hlayout hs hF in
theorem encodeStriped_total :
    ∃ info t, encodeStriped env dataN parityN req record (chunks.map .ok) s = (.ok (info, []), t) := by
  have hsound := plan_ok hplan
  have hd := PlacementPlanner.plan_data_pos hplan
  have hlen := hsound.length_disks
  obtain ⟨st, s₁, henc⟩ : ∃ st s₁, encodeBody env dataN parityN req
      record.distribution (chunks.map .ok) s = (.ok st, s₁) := by
    refine (encodeBody_total hd hsound.nodup hlen).mpr fun i d _ => ?_
    obtain ⟨w, v, hw, -⟩ := hs d _
    exact ⟨w, v, hw⟩
  obtain ⟨chunks', hmap, hencoding, hreceived, hfed⟩ := encodeBody_encoding hd hsound.nodup hlen henc
  obtain rfl := map_ok_inj hmap
  obtain ⟨t, hcommit⟩ := commitShards_all env record hencoding hlen
    fun i d pieces w v f hf hw => by
      obtain ⟨w', v', hw', hfin⟩ := hs d pieces
      obtain ⟨rfl, rfl⟩ := hw'.unique hw
      have hrow : (encodeObject env dataN parityN chunks.flatten).getD i [] = f := by
        rw [← hfed, getD_eq_getElem?_getD, hf]
        rfl
      have hi : i < dataN + parityN := by
        have hlt := (List.getElem?_eq_some_iff.mp hf).1
        rwa [← hencoding.wrote.length_eq, ← length_map Prod.fst, hencoding.disks, hlen] at hlt
      obtain ⟨v'', hrun⟩ := hfin _ (hF i hi)
      rw [hreceived, ← hrow, hrun]
  have hrs : rsFor env dataN parityN = .ok () := by
    unfold rsFor
    split_ifs with hp
    · rw [show rsNew dataN parityN = .ok () from hlayout.resolve_left (by omega)]
      rfl
    · rfl
  refine ⟨putInfo env req st.received, t, ?_⟩
  unfold encodeStriped
  rw [hrs, ok_bind, bind_ok henc]
  exact hcommit

include hplan hlayout hs hF in
/-- **On disks that take everything a PUT is acknowledged**, and nothing is owed. -/
theorem encodeAndWrite_total :
    ∃ info t, encodeAndWrite env planner dataN parityN req (chunks.map .ok) s =
      (.ok (info, []), t) := by
  unfold encodeAndWrite
  rw [hplan]
  simp only [Except.mapError, ok_bind]
  split_ifs with hone
  · obtain ⟨rfl, rfl⟩ := hone
    obtain ⟨shard, hshards⟩ := length_eq_one_iff.mp (plan_ok hplan).length
    rw [hshards]
    obtain ⟨info, v', hrun⟩ : ∃ info v', encodeOnePlusZero env req record (chunks.map .ok)
        (s shard.backendIndex) = (.ok info, v') := by
      refine encodeOnePlusZero_total (hs shard.backendIndex) ?_
      have hone := hF 0 Nat.one_pos
      rwa [encodeObject_one_data] at hone
    exact ⟨info, _, bind_eq_ok.mpr
      ⟨info, _, Act.at_eq_ok.mpr ⟨v', hrun, rfl⟩, rfl⟩⟩
  · exact encodeStriped_total hplan hlayout hs hF

end Abixio
