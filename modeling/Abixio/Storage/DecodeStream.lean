import Abixio.Storage.DecodeSlots

/-!
# The streaming decoder inverts the encoder

The decode task of `read_and_decode_stream` (`src/storage/erasure_decode.rs:196-304`) on the shards
of one object, any of which may be missing as long as `data_n` are left. Both sides walk the same
blocks: the encoder appends a block's shards to what the shards hold, and the decoder's
`shard_read_offset` is the length of what it has already consumed. So the argument is one block
(`fastChunks_block` when every data shard is there, `slowBlock_block` when not), and an induction
over the blocks (`streamBlocks_object`).
-/

namespace Abixio

open Lib List

variable {env : Env} {dataN parityN : Nat} {keep : Nat → Bool} {body : Bytes}

/-- The body's first block and the rest of it. -/
theorem encodeObject_cons (env : Env) (dataN parityN : Nat) (h : body ≠ []) :
    encodeObject env dataN parityN body =
      appendRows (encodeBlock env dataN parityN (body.take streamBlockSize))
        (encodeObject env dataN parityN (body.drop streamBlockSize)) := by
  unfold encodeObject
  rw [← shardRows_cons]
  congr 1
  by_cases hlen : body.length ≤ streamBlockSize
  · rw [blocks_of_le_length streamBlockSize_pos h hlen, take_of_length_le hlen,
      drop_eq_nil_of_le hlen, blocks_nil streamBlockSize_pos]
  · exact blocks_of_lt_length streamBlockSize_pos (Nat.lt_of_not_le hlen)

/-- The data shards of a block, joined and trimmed, are the block. -/
theorem joinShards_encodeBlock (env : Env) (parityN : Nat) (hd : 0 < dataN) (block : Bytes) :
    (joinShards dataN ((encodeBlock env dataN parityN block).map some)).take block.length =
      block := by
  have htake : (encodeBlock env dataN parityN block).take dataN =
      pieces dataN (shardSize block.length dataN) block := by
    unfold encodeBlock encodeRows
    rw [take_append_of_le_length (by simp), take_of_length_le (by simp)]
  unfold joinShards
  rw [← map_take, htake, filterMap_map]
  simp only [Function.comp_def, id, filterMap_some]
  exact pieces_flatten_take (le_mul_shardSize hd _)

/-! ## One block -/

variable (hmds : 0 < parityN → (env.code dataN parityN).Mds dataN parityN)
  (hlayout : parityN = 0 ∨ RsAccepts dataN parityN) (hd : 0 < dataN)
  (hcount : dataN ≤ ((range (dataN + parityN)).filter keep).length)

section Block

variable {pre post : List Bytes} {offset : Nat} {block : Bytes}

variable (hpre : pre.length = dataN + parityN) (hoff : ∀ r ∈ pre, r.length = offset)
  (hpost : post.length = dataN + parityN)

include hpre hoff hpost in
/-- The window of a shard at the current offset is the shard of the current block. -/
theorem window_eq (env : Env) (block : Bytes) {i : Nat} (hi : i < dataN + parityN) :
    ∃ tail : Bytes, (appendRows pre
        (appendRows (encodeBlock env dataN parityN block) post)).getD i [] =
      pre.getD i [] ++ ((encodeBlock env dataN parityN block).getD i [] ++ tail) ∧
      (pre.getD i []).length = offset ∧ ((encodeBlock env dataN parityN block).getD i []).length =
        shardSize block.length dataN := by
  have hb : i < (encodeBlock env dataN parityN block).length := by simpa using hi
  refine ⟨post.getD i [], ?_, ?_, ?_⟩
  · rw [getD_eq_getElem _ _ (by simp [hpre, hpost, hi])]
    simp only [appendRows, getElem_zipWith]
    rw [getD_eq_getElem _ _ (by omega), getD_eq_getElem _ _ hb, getD_eq_getElem _ _ (by omega)]
  · rw [getD_eq_getElem _ _ (by omega)]
    exact hoff _ (getElem_mem _)
  · rw [getD_eq_getElem _ _ hb]
    exact length_of_mem_encodeBlock (getElem_mem _)

include hpre hoff hpost in
/-- The slow path reads the surviving shards of the current block. -/
theorem map_slotChunk : (keepRows keep (appendRows pre
        (appendRows (encodeBlock env dataN parityN block) post))).map
        (slotChunk offset (shardSize block.length dataN)) =
      keepRows keep (encodeBlock env dataN parityN block) := by
  refine ext_getElem (by simp [hpre, hpost]) fun i h1 h2 => ?_
  have hi : i < dataN + parityN := by simpa using h2
  obtain ⟨tail, hrow, hplen, hblen⟩ := window_eq hpre hoff hpost env block hi
  have hpos := shardSize_pos block.length dataN
  rw [getD_eq_getElem _ _ (by simp [hpre, hpost, hi])] at hrow
  simp only [keepRows, getElem_map, getElem_mapIdx, hrow]
  cases keep i with
  | false => rfl
  | true =>
    rw [if_pos rfl, if_pos rfl]
    unfold slotChunk
    simp only [Option.bind_some, length_append, hplen, hblen]
    rw [if_pos (by omega), drop_left' hplen, take_left' (by omega),
      getD_eq_getElem _ _ (by simpa using hi)]

include hpre hoff hpost in
theorem dataShardsOk_iff : dataShardsOk dataN offset (keepRows keep (appendRows pre
      (appendRows (encodeBlock env dataN parityN block) post))) = true ↔
      ∀ i < dataN, keep i = true := by
  have hpos := shardSize_pos block.length dataN
  unfold dataShardsOk
  rw [all_eq_true]
  constructor
  · intro h i hi
    by_contra hk
    have hmem : none ∈ (keepRows keep (appendRows pre
        (appendRows (encodeBlock env dataN parityN block) post))).take dataN := by
      refine mem_iff_getElem?.mpr ⟨i, ?_⟩
      rw [getElem?_take_of_lt hi, keepRows_getElem?,
        getElem?_eq_getElem (by simp [hpre, hpost]; omega)]
      simp [hk]
    exact absurd (h none hmem) (by simp)
  · intro h slot hslot
    obtain ⟨i, hi⟩ := mem_iff_getElem?.mp hslot
    have hlt : i < dataN := by
      by_contra hge
      rw [getElem?_take_eq_none (Nat.le_of_not_lt hge)] at hi
      cases hi
    obtain ⟨tail, hrow, hplen, hblen⟩ :=
      window_eq hpre hoff hpost env block (show i < dataN + parityN by omega)
    rw [getElem?_take_of_lt hlt, keepRows_getElem?,
      getElem?_eq_getElem (by simp [hpre, hpost]; omega)] at hi
    rw [getD_eq_getElem _ _ (by simp [hpre, hpost]; omega)] at hrow
    simp only [Option.map_some, h i hlt, if_true, Option.some.injEq] at hi
    subst hi
    simp only [hrow, length_append, hplen, hblen, decide_eq_true_eq]
    omega

/-- The fast path sends the windows of the data shards, up to the size of the block. -/
theorem fastChunks_flatten {chunkSize blockSize : Nat} :
    ∀ {shards : List Bytes} {sent : Nat}, (∀ r ∈ shards, offset + chunkSize ≤ r.length) →
      0 < chunkSize →
      (fastChunks offset chunkSize blockSize shards sent).flatten =
        (shards.map fun r => (r.drop offset).take chunkSize).flatten.take (blockSize - sent)
  | [], sent, _, _ => by simp [fastChunks]
  | bytes :: rest, sent, hlen, hpos => by
    have hb : offset + chunkSize ≤ bytes.length := hlen bytes mem_cons_self
    have htake : min (min (offset + chunkSize) bytes.length - offset) (blockSize - sent) =
        min chunkSize (blockSize - sent) := by omega
    have hwin : ((bytes.drop offset).take chunkSize).length = chunkSize := by
      rw [length_take, length_drop]
      omega
    unfold fastChunks
    simp only [htake]
    rw [map_cons, flatten_cons]
    split
    · rename_i h0
      rw [show blockSize - sent = 0 by omega]
      rfl
    · rw [flatten_cons, fastChunks_flatten (fun r hr => hlen r (mem_cons_of_mem _ hr))
        hpos, take_append, hwin, take_take, Nat.min_comm chunkSize,
        show blockSize - (sent + min (blockSize - sent) chunkSize) =
          blockSize - sent - chunkSize by omega]

include hpre hoff hpost in
/-- **One block, every data shard there.** -/
theorem fastChunks_block (hd : 0 < dataN) (hkeep : ∀ i < dataN, keep i = true) :
    (fastChunks offset (shardSize block.length dataN) block.length (((keepRows keep (appendRows pre
        (appendRows (encodeBlock env dataN parityN block) post))).take dataN).filterMap id)
      0).flatten = block := by
  set rows := appendRows pre (appendRows (encodeBlock env dataN parityN block) post)
    with hrows
  have hlen : rows.length = dataN + parityN := by simp [hrows, hpre, hpost]
  have hshards : ((keepRows keep rows).take dataN).filterMap id = rows.take dataN := by
    have htake : (keepRows keep rows).take dataN = (rows.take dataN).map some := by
      refine ext_getElem (by simp) fun i h1 h2 => ?_
      have hi : i < dataN := by
        rw [length_take] at h1
        omega
      simp [keepRows, hkeep i hi]
    rw [htake, filterMap_map]
    simp only [Function.comp_def, id, filterMap_some]
  have hwindow : ∀ i (hi : i < rows.length),
      offset + shardSize block.length dataN ≤ rows[i].length ∧
      (rows[i].drop offset).take (shardSize block.length dataN) =
        (encodeBlock env dataN parityN block).getD i [] := by
    intro i hi
    obtain ⟨tail, hrow, hplen, hblen⟩ := window_eq hpre hoff hpost env block (hlen ▸ hi)
    rw [← hrows, getD_eq_getElem _ _ hi] at hrow
    rw [hrow, drop_left' hplen, take_left' hblen]
    simp only [length_append, hplen, hblen]
    exact ⟨by omega, trivial⟩
  have hmap : (rows.take dataN).map
      (fun r => (r.drop offset).take (shardSize block.length dataN)) =
      (encodeBlock env dataN parityN block).take dataN := by
    refine ext_getElem (by simp [hlen]) fun i h1 h2 => ?_
    have hi : i < rows.length := by
      rw [length_map, length_take] at h1
      omega
    rw [getElem_map, getElem_take, (hwindow i hi).2, getElem_take,
      getD_eq_getElem _ _ (by simpa [hlen] using hi)]
  rw [hshards, fastChunks_flatten _ (shardSize_pos _ _), hmap, Nat.sub_zero]
  · have hjoin := joinShards_encodeBlock env parityN hd block
    unfold joinShards at hjoin
    rw [← map_take, filterMap_map] at hjoin
    simpa only [Function.comp_def, id, filterMap_some] using hjoin
  · intro r hr
    obtain ⟨i, hi, rfl⟩ := mem_iff_getElem.mp (mem_of_mem_take hr)
    exact (hwindow i hi).1

include hmds hlayout hd hcount hpre hoff hpost in
/-- **One block, reconstructed.** -/
theorem slowBlock_block :
    slowBlock env dataN parityN offset (shardSize block.length dataN) block.length
      (keepRows keep (appendRows pre
        (appendRows (encodeBlock env dataN parityN block) post))) = .ok block := by
  have hkept : ((keepRows keep (encodeBlock env dataN parityN block)).filter
      Option.isSome).length = ((range (dataN + parityN)).filter keep).length := by
    rw [keepRows_count, encodeBlock_length]
  unfold slowBlock
  simp only [map_slotChunk hpre hoff hpost, hkept]
  rw [if_neg (by omega)]
  rcases hlayout with rfl | hrs
  · have hall : ∀ i < dataN, keep i = true := by
      intro i hi
      have := length_filter_eq_length_iff.mp (Nat.le_antisymm
        (length_filter_le keep (range (dataN + 0))) (by simpa using hcount))
      exact this i (mem_range.mpr hi)
    rw [if_neg (by omega), keepRows_all _ (by simpa using hall), joinShards_encodeBlock env _ hd]
  · have hp := (rsAccepts_iff.mp hrs).2.1
    have hrec : rsReconstruct env dataN parityN
        (keepRows keep (encodeBlock env dataN parityN block)) =
        .ok ((encodeBlock env dataN parityN block).map some) :=
      rsReconstruct_eq (hmds hp) hd (pieces_length _ _ _) (shardSize_pos block.length dataN)
        (fun _ => length_of_mem_pieces) (by simp) (fun _ _ => keepRows_some)
        (by rw [hkept]; exact hcount)
    rw [if_pos ⟨hp, hrs⟩, hrec]
    exact congrArg _ (joinShards_encodeBlock env _ hd block)

end Block

/-! ## All blocks -/

/-- One turn of the decode task, with the part of the body it is at. -/
theorem streamBlocks_turn (env : Env) (dataN parityN : Nat) (slots : List (Option Bytes))
    (fuel offset : Nat) (h : body ≠ []) :
    streamBlocks env dataN parityN slots (fuel + 1) body.length offset =
      if dataShardsOk dataN offset slots then
        (fastChunks offset (shardSize (body.take streamBlockSize).length dataN)
          (body.take streamBlockSize).length ((slots.take dataN).filterMap id) 0).map .ok ++
        streamBlocks env dataN parityN slots fuel (body.drop streamBlockSize).length
          (offset + shardSize (body.take streamBlockSize).length dataN) else
        match slowBlock env dataN parityN offset
          (shardSize (body.take streamBlockSize).length dataN)
          (body.take streamBlockSize).length slots with
        | .error e => [.error e]
        | .ok block => .ok block ::
          streamBlocks env dataN parityN slots fuel (body.drop streamBlockSize).length
            (offset + shardSize (body.take streamBlockSize).length dataN) := by
  have hlen : body.length ≠ 0 := fun h0 => h (eq_nil_of_length_eq_zero h0)
  have hbs : min body.length streamBlockSize = (body.take streamBlockSize).length := by
    rw [length_take, Nat.min_comm]
  have hrem : body.length - (body.take streamBlockSize).length =
      (body.drop streamBlockSize).length := by
    rw [length_drop, ← hbs]
    omega
  rw [← hrem, ← hbs]
  exact if_neg hlen

/-- What the shards hold once the first block of the rest is consumed. -/
theorem encodeObject_advance (env : Env) (dataN parityN : Nat) (h : body ≠ []) (pre : List Bytes) :
    appendRows pre (encodeObject env dataN parityN body) = appendRows (appendRows pre
        (encodeBlock env dataN parityN (body.take streamBlockSize)))
        (encodeObject env dataN parityN (body.drop streamBlockSize)) := by
  rw [encodeObject_cons env dataN parityN h, appendRows_assoc]

theorem length_drop_block_le {fuel : Nat} (h : body ≠ [])
    (hfuel : body.length ≤ fuel + 1) : (body.drop streamBlockSize).length ≤ fuel := by
  have hpos := streamBlockSize_pos
  have hlen : 0 < body.length := length_pos_of_ne_nil h
  rw [length_drop]
  omega

/-- The turns of the decode task, over what the shards hold in front of a block and behind it. -/
theorem streamBlocks_turns {rows : List Bytes} {slots : List (Option Bytes)}
    (hturn : ∀ (block : Bytes) (pre post : List Bytes) (offset : Nat), pre.length = dataN + parityN →
      (∀ r ∈ pre, r.length = offset) → post.length = dataN + parityN →
      rows = appendRows pre (appendRows (encodeBlock env dataN parityN block) post) →
      if dataShardsOk dataN offset slots then
        (fastChunks offset (shardSize block.length dataN) block.length ((slots.take dataN).filterMap id)
          0).flatten = block
      else slowBlock env dataN parityN offset (shardSize block.length dataN) block.length slots = .ok block) :
    ∀ (fuel : Nat) (body : Bytes) (pre : List Bytes) (offset : Nat), body.length ≤ fuel →
      pre.length = dataN + parityN → (∀ r ∈ pre, r.length = offset) →
      rows = appendRows pre (encodeObject env dataN parityN body) →
      ∃ chunks : List Bytes, streamBlocks env dataN parityN slots fuel body.length offset =
        chunks.map .ok ∧ chunks.flatten = body
  | 0, body, pre, offset, hfuel, _, _, _ => by
    obtain rfl := eq_nil_of_length_eq_zero (Nat.le_zero.mp hfuel)
    exact ⟨[], rfl, rfl⟩
  | fuel + 1, body, pre, offset, hfuel, hpre, hoff, hrows => by
    by_cases hne : body = []
    · subst hne
      exact ⟨[], rfl, rfl⟩
    obtain ⟨chunks, hrun, hflat⟩ := streamBlocks_turns hturn fuel (body.drop streamBlockSize)
      (appendRows pre (encodeBlock env dataN parityN (body.take streamBlockSize)))
      (offset + shardSize (body.take streamBlockSize).length dataN)
      (length_drop_block_le hne hfuel) (by simp [hpre])
      (fun r hr => appendRows_row_length hoff (fun _ => length_of_mem_encodeBlock) hr)
      (hrows.trans (encodeObject_advance env dataN parityN hne pre))
    rw [encodeObject_cons env dataN parityN hne] at hrows
    have hblock := hturn (body.take streamBlockSize) pre _ offset hpre hoff (by simp) hrows
    have hbody : body.take streamBlockSize ++ body.drop streamBlockSize = body := take_append_drop _ _
    rw [streamBlocks_turn env dataN parityN _ fuel offset hne, hrun]
    split at hblock
    · rename_i hok
      rw [if_pos hok]
      exact ⟨_ ++ chunks, map_append.symm, by rw [flatten_append, hblock, hflat, hbody]⟩
    · rename_i hok
      rw [if_neg hok, hblock]
      exact ⟨body.take streamBlockSize :: chunks, rfl, by rw [flatten_cons, hflat, hbody]⟩

include hmds hlayout hd hcount in
/-- **The decode task gives back the body.** -/
theorem streamBlocks_object (body : Bytes) :
    ∃ chunks : List Bytes, streamBlocks env dataN parityN
      (keepRows keep (encodeObject env dataN parityN body)) body.length body.length 0 =
        chunks.map .ok ∧ chunks.flatten = body := by
  refine streamBlocks_turns (fun block pre post offset hpre hoff hpost hrows => ?_) _ body
    (replicate (dataN + parityN) []) 0 (Nat.le_refl _) (by simp)
    (fun r hr => by rw [(mem_replicate.mp hr).2]; rfl) (appendRows_empty (encodeObject_length _)).symm
  rw [hrows]
  split
  · rename_i hok
    exact fastChunks_block hpre hoff hpost hd ((dataShardsOk_iff hpre hoff hpost).mp hok)
  · exact slowBlock_block hmds hlayout hd hcount hpre hoff hpost

/-- **The data shards are enough**: with all of them in place the decode task looks at nothing
else. -/
theorem streamBlocks_data (hd : 0 < dataN) {slots : List (Option Bytes)} (body : Bytes)
    (hslots : slots.take dataN =
      (keepRows (fun _ => true) (encodeObject env dataN parityN body)).take dataN) :
    ∃ chunks : List Bytes, streamBlocks env dataN parityN slots body.length body.length 0 =
      chunks.map .ok ∧ chunks.flatten = body := by
  refine streamBlocks_turns (fun block pre post offset hpre hoff hpost hrows => ?_) _ body
    (replicate (dataN + parityN) []) 0 (Nat.le_refl _) (by simp)
    (fun r hr => by rw [(mem_replicate.mp hr).2]; rfl) (appendRows_empty (encodeObject_length _)).symm
  rw [hrows] at hslots
  have hok : dataShardsOk dataN offset (keepRows (fun _ => true) (appendRows pre
      (appendRows (encodeBlock env dataN parityN block) post))) = true :=
    (dataShardsOk_iff hpre hoff hpost).mpr fun _ _ => rfl
  unfold dataShardsOk at hok ⊢
  rw [hslots, if_pos hok]
  exact fastChunks_block hpre hoff hpost hd fun _ _ => rfl

end Abixio
