import Abixio.Storage.DecodeStream

/-!
# The buffered decoders

`read_and_decode` and `read_and_decode_versioned` (`src/storage/erasure_decode.rs:68-137`,
`381-446`) on the shards of one object. They join whole shards where the encoder cut the body into
blocks first, so what they return is `joinedBody`: the data shards end to end, trimmed to the size.

* `decodeReads_object`: they return `joinedBody` as soon as `data_n` shards survive, unless the
  shards are empty and one has to be reconstructed, which the Reed–Solomon crate refuses
  (`decodeReads_empty_lost`).
* `joinedBody_eq`: `joinedBody` is the body when it has one block or there is one data shard.
* `joinedBody_ne`: with two or more data shards and more than one block there is a body of every
  length that comes back changed: the second block starts where the second shard of the first
  block belongs.
-/

namespace Abixio

open Lib List

variable {env : Env} {dataN parityN : Nat} {body : Bytes}

/-- What the buffered decoders make of the shards of a body. -/
def joinedBody (env : Env) (dataN parityN : Nat) (body : Bytes) : Bytes :=
  (((encodeObject env dataN parityN body).take dataN).flatten).take body.length

/-! ## The shards of a body are one encoding -/

/-- **Blocks of an encoding, row by row, are an encoding of longer rows.** -/
theorem shardRows_encoding (env : Env) (dataN parityN : Nat) :
    ∀ blocks : List Bytes, ∃ data : List Bytes, data.length = dataN ∧
      (∀ r ∈ data, r.length = (blocks.map fun b => shardSize b.length dataN).sum) ∧
      shardRows env dataN parityN blocks = encodeRows (env.code dataN parityN) parityN
        (blocks.map fun b => shardSize b.length dataN).sum data
  | [] => by
    refine ⟨replicate dataN [], by simp, ?_, ?_⟩
    · intro r hr
      rw [(mem_replicate.mp hr).2]
      rfl
    · rw [shardRows_nil, replicate_add]
      unfold encodeRows parityRows
      refine congrArg _ (ext_getElem (by simp) fun i h1 h2 => ?_)
      simp
  | block :: blocks => by
    obtain ⟨data, hlen, hrow, henc⟩ := shardRows_encoding env dataN parityN blocks
    refine ⟨appendRows (pieces dataN (shardSize block.length dataN) block) data,
      by simp [hlen], ?_, ?_⟩
    · intro r hr
      exact appendRows_row_length (fun _ => length_of_mem_pieces) hrow hr
    · rw [shardRows_cons, henc, map_cons, sum_cons]
      exact (encodeRows_appendRows (by simp [hlen]) (fun _ => length_of_mem_pieces) _).symm

/-- The length of every shard of a body. -/
def shardLength (dataN : Nat) (body : Bytes) : Nat :=
  ((Lib.blocks streamBlockSize body).map fun b => shardSize b.length dataN).sum

theorem encodeObject_encoding (env : Env) (dataN parityN : Nat) (body : Bytes) :
    ∃ data : List Bytes, data.length = dataN ∧ (∀ r ∈ data, r.length = shardLength dataN body) ∧
      encodeObject env dataN parityN body =
        encodeRows (env.code dataN parityN) parityN (shardLength dataN body) data :=
  shardRows_encoding env dataN parityN _

theorem length_of_mem_encodeObject {body r : Bytes}
    (h : r ∈ encodeObject env dataN parityN body) : r.length = shardLength dataN body := by
  obtain ⟨data, -, hrow, henc⟩ := encodeObject_encoding env dataN parityN body
  rw [henc] at h
  exact encodeRows_row_length hrow h

theorem shardLength_pos (h : body ≠ []) : 0 < shardLength dataN body := by
  have hne : blocks streamBlockSize body ≠ [] := fun e =>
    h (by rw [← blocks_flatten streamBlockSize_pos body, e]; rfl)
  obtain ⟨block, rest, hb⟩ := exists_cons_of_ne_nil hne
  unfold shardLength
  rw [hb, map_cons, sum_cons]
  have := shardSize_pos block.length dataN
  omega

/-- Any `data_n` of an object's whole shards rebuild all of them. -/
theorem rsReconstruct_object {keep : Nat → Bool}
    (hmds : (env.code dataN parityN).Mds dataN parityN) (hd : 0 < dataN) (hne : body ≠ [])
    (hcount : dataN ≤ ((range (dataN + parityN)).filter keep).length) :
    rsReconstruct env dataN parityN (keepRows keep (encodeObject env dataN parityN body)) =
      .ok ((encodeObject env dataN parityN body).map some) := by
  obtain ⟨data, hlen, hrow, henc⟩ := encodeObject_encoding env dataN parityN body
  have hkept : dataN ≤ ((keepRows keep (encodeObject env dataN parityN body)).filter
      Option.isSome).length := by
    rw [keepRows_count, encodeObject_length]
    exact hcount
  rw [henc] at hkept ⊢
  exact rsReconstruct_eq hmds hd hlen (shardLength_pos hne) hrow (by simp [hlen])
    (fun _ _ => keepRows_some) hkept

/-! ## What they return -/

section Reads

variable {n : Nat} {reads : Fin n → ShardRead} {distribution : List (Fin n)}
  {metas : Nat → ObjectMeta} {lost : Finset (Fin n)} {body : Bytes}

theorem joinShards_map_some (dataN : Nat) (rows : List Bytes) :
    joinShards dataN (rows.map some) = (rows.take dataN).flatten := by
  unfold joinShards
  rw [← map_take, filterMap_map]
  simp only [Function.comp_def, id, filterMap_some]

/-- All slots filled: nothing is reconstructed. -/
theorem repairSlots_full {env : Env} {dataN parityN : Nat} {rows : List Bytes}
    (hlen : rows.length = dataN + parityN) :
    repairSlots env dataN parityN (rows.map some) = .ok (rows.map some) := by
  have hcount : ((rows.map some).filter Option.isSome).length = rows.length := by
    simp [filter_map, Function.comp_def]
  unfold repairSlots
  rw [if_neg (by omega)]

theorem rsFor_of_layout (hlayout : parityN = 0 ∨ RsAccepts dataN parityN) :
    rsFor env dataN parityN = .ok () := by
  unfold rsFor
  split
  · rcases hlayout with h | h
    · omega
    · unfold RsAccepts at h
      rw [h]
      rfl
  · rfl

/-- **The buffered decoders return `joinedBody`.** -/
theorem decodeReads_object (hmds : 0 < parityN → (env.code dataN parityN).Mds dataN parityN)
    (hlayout : parityN = 0 ∨ RsAccepts dataN parityN) (hd : 0 < dataN)
    (h : ObjectReads env reads distribution (encodeObject env dataN parityN body) metas lost)
    (hsize : ∀ i, (metas i).size = body.length) (hcount : dataN ≤
      ((range (dataN + parityN)).filter (survives distribution lost)).length)
    (hempty : body = [] → ∀ i < dataN + parityN, survives distribution lost i = true) :
    ∃ j, decodeReads env dataN parityN ((finRange n).map reads) =
      .ok (joinedBody env dataN parityN body, metas j) := by
  obtain ⟨j, hgather⟩ := gatherShards_object h (encodeObject_length body) hd
    (by rw [encodeObject_length]; exact hcount)
  refine ⟨j, ?_⟩
  have hrepair : repairSlots env dataN parityN
      (keepRows (survives distribution lost) (encodeObject env dataN parityN body)) =
      .ok ((encodeObject env dataN parityN body).map some) := by
    unfold repairSlots
    rw [keepRows_count, encodeObject_length]
    split
    · rename_i hmiss
      have hne : body ≠ [] := by
        intro e
        have hall := length_filter_eq_length_iff.mpr
          fun i hi => hempty e i (mem_range.mp hi)
        rw [hall, length_range] at hmiss
        omega
      rw [rsFor_of_layout hlayout, rsReconstruct_object (hmds hmiss.1) hd hne hcount]
      rfl
    · rename_i hfull
      rw [keepRows_all]
      intro i hi
      rw [encodeObject_length] at hi
      have hge : ((range (dataN + parityN)).filter (survives distribution lost)).length =
          (range (dataN + parityN)).length := by
        refine Nat.le_antisymm (length_filter_le _ _) ?_
        rw [length_range]
        omega
      exact length_filter_eq_length_iff.mp hge i (mem_range.mpr hi)
  unfold decodeReads
  simp only [hgather, hrepair, bind, Except.bind, joinShards_map_some, hsize]
  rfl

/-- **Empty shards cannot be reconstructed.** -/
theorem decodeReads_empty_lost (hlayout : RsAccepts dataN parityN)
    (h : ObjectReads env reads distribution (encodeObject env dataN parityN []) metas lost)
    (hcount : dataN ≤ ((range (dataN + parityN)).filter (survives distribution lost)).length)
    (hlost : ∃ i < dataN + parityN, survives distribution lost i = false) :
    decodeReads env dataN parityN ((finRange n).map reads) = .error .readQuorum := by
  obtain ⟨hd, hp, -⟩ := rsAccepts_iff.mp hlayout
  obtain ⟨j, hgather⟩ := gatherShards_object h (encodeObject_length []) hd
    (by rw [encodeObject_length]; exact hcount)
  have hmiss : ((range (dataN + parityN)).filter (survives distribution lost)).length <
      dataN + parityN := by
    obtain ⟨i, hi, hno⟩ := hlost
    have hle := length_filter_le (survives distribution lost) (range (dataN + parityN))
    rw [length_range] at hle
    refine Nat.lt_of_le_of_ne hle fun heq => ?_
    have hall := length_filter_eq_length_iff.mp (heq.trans length_range.symm) i
      (mem_range.mpr hi)
    rw [hno] at hall
    cases hall
  have hempty : ∀ r ∈ encodeObject env dataN parityN [], r.length = 0 := by
    intro r hr
    rw [encodeObject_nil] at hr
    rw [eq_of_mem_replicate hr]
    rfl
  have hrepair : repairSlots env dataN parityN (keepRows (survives distribution lost)
      (encodeObject env dataN parityN [])) = .error .readQuorum := by
    unfold repairSlots
    rw [keepRows_count, encodeObject_length, if_pos ⟨hp, hmiss⟩, rsFor_of_layout (Or.inr hlayout),
      rsReconstruct_keepRows (encodeObject_length []) hempty (by rw [encodeObject_length]; omega)]
    rfl
  unfold decodeReads
  simp only [hgather, hrepair, bind, Except.bind]

end Reads

/-! ## When that is the body -/

/-- The shards of a body of one block. -/
theorem encodeObject_one_block (env : Env) (dataN parityN : Nat) (hne : body ≠ [])
    (h : body.length ≤ streamBlockSize) :
    encodeObject env dataN parityN body = encodeBlock env dataN parityN body := by
  rw [encodeObject_cons env dataN parityN hne, take_of_length_le h,
    drop_eq_nil_of_le h, encodeObject_nil]
  refine ext_getElem (by simp) fun i h1 h2 => ?_
  simp [appendRows]

/-- One data shard, or at most one block: the data shards end to end start with the body. -/
theorem joinedBody_eq (hd : 0 < dataN) (h : body.length ≤ streamBlockSize ∨ dataN = 1) :
    joinedBody env dataN parityN body = body := by
  by_cases hne : body = []
  · subst hne
    simp [joinedBody]
  rcases h with h | rfl
  · unfold joinedBody
    rw [encodeObject_one_block env dataN parityN hne h, ← joinShards_map_some]
    exact joinShards_encodeBlock env parityN hd body
  · have hone : (encodeObject env 1 parityN body).getD 0 [] = body := encodeObject_one_data body
    have hrow : (encodeObject env 1 parityN body).take 1 = [body] := by
      refine ext_getElem (by simp) fun i h1 h2 => ?_
      obtain rfl : i = 0 := by simpa using h2
      rw [getElem_take, ← getD_eq_getElem _ [] (by simp), hone]
      rfl
    unfold joinedBody
    rw [hrow]
    simp

/-- A shard of a body is the shard of its first block and that of the rest. -/
theorem encodeObject_row (hne : body ≠ []) {i : Nat} (hi : i < dataN + parityN) :
    (encodeObject env dataN parityN body).getD i [] =
      (encodeBlock env dataN parityN (body.take streamBlockSize)).getD i [] ++
        (encodeObject env dataN parityN (body.drop streamBlockSize)).getD i [] := by
  rw [encodeObject_cons env _ _ hne, getD_eq_getElem _ _ (by simpa using hi),
    getD_eq_getElem _ _ (by simpa using hi), getD_eq_getElem _ _ (by simpa using hi)]
  simp [appendRows]

/-- The first data shard of a body starts with the body's first byte. -/
theorem encodeObject_head (env : Env) (parityN : Nat) (hd : 0 < dataN) (x : UInt8) (rest : Bytes) :
    ∃ tail : Bytes, (encodeObject env dataN parityN (x :: rest)).getD 0 [] = x :: tail := by
  have hblock : ∀ l : Bytes, ∃ tail : Bytes,
      (encodeBlock env dataN parityN (x :: l)).getD 0 [] = x :: tail := by
    intro l
    obtain ⟨k, rfl⟩ : ∃ k, dataN = k + 1 := ⟨dataN - 1, by omega⟩
    obtain ⟨size, hsize⟩ : ∃ size, shardSize (x :: l).length (k + 1) = size + 1 :=
      ⟨_, (Nat.succ_pred_eq_of_pos (shardSize_pos _ _)).symm⟩
    unfold encodeBlock encodeRows
    rw [hsize, getD_append _ _ _ _ (by simp), pieces_succ]
    exact ⟨_, rfl⟩
  obtain ⟨tail, htail⟩ := hblock (rest.take (streamBlockSize - 1))
  have htake : (x :: rest).take streamBlockSize = x :: rest.take (streamBlockSize - 1) := rfl
  rw [encodeObject_row (cons_ne_nil x rest) (by omega), htake, htail]
  exact ⟨_, rfl⟩

theorem shardSize_lt (hd : 2 ≤ dataN) : shardSize streamBlockSize dataN < streamBlockSize := by
  obtain ⟨k, rfl⟩ : ∃ k, dataN = k + 2 := ⟨dataN - 2, by omega⟩
  have hdiv : divCeil streamBlockSize (k + 2) < streamBlockSize := by
    unfold divCeil
    rw [Nat.div_lt_iff_lt_mul (by omega), Nat.mul_add]
    have hk : k ≤ streamBlockSize * k := Nat.le_mul_of_pos_left k streamBlockSize_pos
    have hbs : streamBlockSize = 1048576 := rfl
    omega
  have hbs : streamBlockSize = 1048576 := rfl
  unfold shardSize
  omega

/-- **A body that comes back changed**, of every length over one block. -/
theorem joinedBody_ne (env : Env) (parityN : Nat) (hd : 2 ≤ dataN) {len : Nat} (hlen : streamBlockSize < len) :
    ∃ body : Bytes, body.length = len ∧ joinedBody env dataN parityN body ≠ body := by
  set first : Bytes := replicate streamBlockSize 0 with hfirst
  set last : Bytes := replicate (len - streamBlockSize - 1) 0
  have hflen : first.length = streamBlockSize := by simp [hfirst]
  have hlt := shardSize_lt hd
  refine ⟨first ++ 1 :: last, ?_, fun heq => ?_⟩
  · rw [length_append, hflen, length_cons, length_replicate]
    omega
  -- position `shard_size` of the body is in the first block, and of the joined shards in the second
  have hbody : (first ++ 1 :: last)[shardSize streamBlockSize dataN]? = some 0 := by
    rw [getElem?_append_left (by omega), hfirst, getElem?_replicate, if_pos hlt]
  obtain ⟨tail, htail⟩ := encodeObject_head env parityN (show 0 < dataN by omega) 1 last
  have hrow : (encodeObject env dataN parityN (first ++ 1 :: last)).getD 0 [] =
      (encodeBlock env dataN parityN first).getD 0 [] ++ 1 :: tail := by
    rw [encodeObject_row (by simp) (by omega), take_left' hflen, drop_left' hflen, htail]
  have hblk : ((encodeBlock env dataN parityN first).getD 0 []).length =
      shardSize streamBlockSize dataN := by
    rw [getD_eq_getElem _ _ (by simp; omega), ← hflen]
    exact length_of_mem_encodeBlock (getElem_mem _)
  have hjoin : (joinedBody env dataN parityN
      (first ++ 1 :: last))[shardSize streamBlockSize dataN]? = some 1 := by
    obtain ⟨k, rfl⟩ : ∃ k, dataN = k + 1 := ⟨dataN - 1, by omega⟩
    unfold joinedBody
    cases henc : encodeObject env (k + 1) parityN (first ++ 1 :: last) with
    | nil =>
      have := congrArg length henc
      simp at this
    | cons r rs =>
      rw [henc, getD_cons_zero] at hrow
      rw [take_succ_cons, flatten_cons, hrow, append_assoc,
        getElem?_take_of_lt (by rw [length_append, hflen]; omega), ← hblk,
        getElem?_append_right (Nat.le_refl _)]
      simp
  rw [heq, hbody] at hjoin
  exact absurd hjoin (by decide)

end Abixio
