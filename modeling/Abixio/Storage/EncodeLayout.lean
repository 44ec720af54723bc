import Abixio.Storage.ErasureEncode

/-!
# What the encode loop lays out

`write_block` (`src/storage/erasure_encode.rs:534-565`) in closed form: `encodeBlock` is the list of
shards of one block, whatever the reused buffers held before (`fillShards_eq`), `shardRows` is what
the shards hold after a list of blocks, and `encodeObject` is what they hold for a whole body, cut
into blocks of `STREAM_BLOCK_SIZE`.
-/

namespace Abixio

open Lib List

/-! ## The shards of a block -/

section Layout

variable (env : Env) (dataN parityN : Nat)

/-- All shards of one block. -/
def encodeBlock (block : Bytes) : List Bytes :=
  let size := shardSize block.length dataN
  Lib.encodeRows (env.code dataN parityN) parityN size (Lib.pieces dataN size block)

/-- The shard contents after the given blocks: shard `i` is the concatenation of the blocks'
shards `i`. -/
def shardRows (blocks : List Bytes) : List Bytes :=
  (range (dataN + parityN)).map fun i =>
    blocks.flatMap fun block => (encodeBlock env dataN parityN block).getD i []

/-- The shards of a body. -/
def encodeObject (body : Bytes) : List Bytes :=
  shardRows env dataN parityN (Lib.blocks streamBlockSize body)

end Layout

section LayoutLemmas

variable {env : Env} {dataN parityN : Nat}

theorem streamBlockSize_pos : 0 < streamBlockSize := by decide

theorem shardSize_pos (len count : Nat) : 0 < shardSize len count := by
  unfold shardSize
  omega

/-- The shards of a block are long enough for it. -/
theorem le_mul_shardSize {count : Nat} (h : 0 < count) (len : Nat) :
    len ≤ count * shardSize len count := by
  have hdiv : len ≤ count * divCeil len count := by
    have := Nat.div_add_mod (len + count - 1) count
    have := Nat.mod_lt (len + count - 1) h
    unfold divCeil
    omega
  exact hdiv.trans (Nat.mul_le_mul_left count (Nat.le_max_left _ _))

theorem splitPiece_eq (data : Bytes) (size i : Nat) :
    splitPiece data size i = padRight size ((data.drop (i * size)).take size) := by
  unfold splitPiece padRight
  simp only
  split
  · rename_i h
    rw [drop_eq_nil_of_le h, take_nil]
    rfl
  · have htake : (data.drop (i * size)).take (min (i * size + size) data.length - i * size) =
        (data.drop (i * size)).take size := by
      rw [take_eq_take_iff, length_drop]
      omega
    rw [htake]
    unfold resize
    rw [take_take, Nat.min_self]
    rfl

theorem splitData_eq (data : Bytes) (count : Nat) :
    splitData data count = pieces count (shardSize data.length count) data := by
  exact map_congr_left fun i _ => splitPiece_eq data _ i

theorem splitDataInto_eq (data : Bytes) {count : Nat} {bufs : List Bytes}
    (h : count ≤ bufs.length) : splitDataInto data count bufs =
      pieces count (shardSize data.length count) data ++ bufs.drop count := by
  apply ext_getElem
  · simp [splitDataInto]
    omega
  · intro i h1 h2
    simp only [splitDataInto, getElem_mapIdx]
    split
    · rename_i hi
      rw [getElem_append_left (by simpa using hi), splitPiece_eq]
      simp [pieces]
    · rename_i hi
      rw [getElem_append_right (by simpa using hi)]
      simp only [pieces_length, getElem_drop]
      congr 1
      omega

@[simp] theorem encodeBlock_length (block : Bytes) :
    (encodeBlock env dataN parityN block).length = dataN + parityN := by
  simp [encodeBlock]

theorem length_of_mem_encodeBlock {block r : Bytes} (h : r ∈ encodeBlock env dataN parityN block) :
    r.length = shardSize block.length dataN :=
  encodeRows_row_length (fun _ => length_of_mem_pieces) h

/-- **The shard buffers of a block do not depend on what they held before.** -/
theorem fillShards_eq {bufs : List Bytes} (hd : 0 < dataN) (hb : bufs.length = dataN + parityN)
    (block : Bytes) :
    fillShards env dataN parityN bufs block = .ok (encodeBlock env dataN parityN block) := by
  set size := shardSize block.length dataN with hsize
  have hsplit := splitDataInto_eq block (show dataN ≤ bufs.length by omega)
  unfold fillShards
  simp only [hsplit]
  split
  · obtain ⟨k, rfl⟩ : ∃ k, dataN = k + 1 := ⟨dataN - 1, by omega⟩
    have hhead : ((pieces (k + 1) size block ++ bufs.drop (k + 1)).headD []).length = size := by
      rw [pieces_succ]
      simpa using padRight_length (by simp)
    rw [← hsize, hhead]
    set zeroed := mapIdx (fun i buf => if k + 1 ≤ i ∧ i < k + 1 + parityN
      then replicate size (0 : UInt8) else buf)
        (pieces (k + 1) size block ++ bufs.drop (k + 1)) with hz
    have hlen : zeroed.length = k + 1 + parityN := by
      simp [hz]
      omega
    have hrow : ∀ r ∈ zeroed, r.length = size := by
      intro r hr
      obtain ⟨i, hi, rfl⟩ := mem_iff_getElem.mp hr
      simp only [hz, getElem_mapIdx]
      split
      · simp
      · have hik : i < k + 1 := by omega
        rw [getElem_append_left (by simpa using hik)]
        exact length_of_mem_pieces (getElem_mem _)
    have htake : zeroed.take (k + 1) = pieces (k + 1) size block := by
      apply ext_getElem
      · simp [hlen]
      · intro i h1 h2
        have hik : i < k + 1 := by simpa using h2
        simp only [hz, getElem_take, getElem_mapIdx]
        rw [if_neg (by omega), getElem_append_left (by simpa using hik)]
    rw [rsEncode_ok (shardSize_pos _ _) (Nat.succ_pos k) hlen hrow, htake]
    rfl
  · rename_i hp
    have hp0 : parityN = 0 := by omega
    subst hp0
    rw [drop_eq_nil_of_le (by omega), append_nil]
    simp [encodeBlock, encodeRows, parityRows]

@[simp] theorem shardRows_length (blocks : List Bytes) :
    (shardRows env dataN parityN blocks).length = dataN + parityN := by
  simp [shardRows]

@[simp] theorem encodeObject_length (body : Bytes) :
    (encodeObject env dataN parityN body).length = dataN + parityN := by
  simp [encodeObject]

theorem shardRows_nil : shardRows env dataN parityN [] = replicate (dataN + parityN) [] := by
  simp [shardRows]

theorem shardRows_concat (blocks : List Bytes) (block : Bytes) :
    shardRows env dataN parityN (blocks ++ [block]) =
      zipWith (· ++ ·) (shardRows env dataN parityN blocks)
        (encodeBlock env dataN parityN block) := by
  apply ext_getElem
  · simp
  · intro i h1 h2
    have hi : i < dataN + parityN := by simpa using h1
    simp [shardRows, hi]

theorem shardRows_cons (block : Bytes) (blocks : List Bytes) :
    shardRows env dataN parityN (block :: blocks) = appendRows (encodeBlock env dataN parityN block)
        (shardRows env dataN parityN blocks) := by
  apply ext_getElem
  · simp
  · intro i h1 h2
    have hi : i < dataN + parityN := by simpa using h1
    simp [shardRows, appendRows, hi]

theorem encodeObject_nil : encodeObject env dataN parityN [] = replicate (dataN + parityN) [] := by
  unfold encodeObject
  rw [blocks_nil streamBlockSize_pos, shardRows_nil]

end LayoutLemmas

end Abixio
