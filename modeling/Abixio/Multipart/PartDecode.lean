import Abixio.Multipart.Parts

/-!
# Decoding the parts of an object

Model of what `read_and_decode_multipart` (`src/storage/erasure_decode.rs:311-379`) makes of the parts of
a completed upload. It asks every disk for its `part.N` and `part.N.meta`, puts each shard in the slot its
metadata names, and reconstructs when a slot is empty.

* `ShardsRead` says what the disks return for a part, whatever the contents of its shards.
* `MultipartObject` is a completed object: its metadata, and the shards of its parts.
* `MultipartObject.decode`: it reads back as its parts, one after another, as long as no part misses more
  shards than it has parity shards.
-/

namespace Abixio

open List

variable {n : Nat} {u : PartUpload}

/-! ## The disks of a part -/

section Placement

/-- The disks of a part, shard by shard. -/
def partDisks (n : Nat) (order : List Nat) : List (Fin n) :=
  order.filterMap fun d => if h : d < n then some ⟨d, h⟩ else none

/-- A permutation of the disks. -/
theorem partDisks_map {order : List Nat} (h : order.Perm (range n)) :
    (partDisks n order).map Fin.val = order := by
  have hlt : ∀ d ∈ order, d < n := fun d hd => mem_range.mp (h.mem_iff.mp hd)
  unfold partDisks
  rw [map_filterMap]
  clear h
  induction order with
  | nil => rfl
  | cons d order ih =>
    rw [filterMap_cons, dif_pos (hlt d mem_cons_self)]
    dsimp only [Option.map_some]
    rw [ih fun d' hd' => hlt d' (.tail _ hd')]

theorem partDisks_perm {order : List Nat} (h : order.Perm (range n)) :
    (partDisks n order).Nodup ∧ (partDisks n order).length = n ∧ ∀ d, d ∈ partDisks n order := by
  have hmap := partDisks_map h
  have hnodup : ((partDisks n order).map Fin.val).Nodup := by
    rw [hmap]
    exact h.nodup_iff.mpr nodup_range
  refine ⟨hnodup.of_map _, ?_, fun d => ?_⟩
  · have hlen := congrArg length hmap
    rw [length_map, h.length_eq, length_range] at hlen
    exact hlen
  · have hmem : d.val ∈ (partDisks n order).map Fin.val := by
      rw [hmap]
      exact h.mem_iff.mpr (mem_range.mpr d.isLt)
    obtain ⟨d', hd', hval⟩ := mem_map.mp hmem
    rw [← Fin.ext hval]
    exact hd'

theorem partDisks_getElem? {order : List Nat} (h : order.Perm (range n)) (i : Nat) :
    (partDisks n order)[i]?.map Fin.val = order[i]? := by
  rw [← getElem?_map, partDisks_map h]

theorem partOrder_perm (bucket key : String) (env : Env) (h : u.Fits n) :
    (partOrder bucket key env u).Perm (range n) := by
  unfold partOrder
  rw [h.2.1]
  exact hashOrder_perm _ _ _

/-- Every disk has a row. -/
theorem PartUpload.Fits.exists_row (h : u.Fits n) (bucket key : String) (env : Env) (d : Fin n) :
    ∃ i : Nat, (partDisks n (partOrder bucket key env u))[i]? = some d :=
  mem_iff_getElem?.mp ((partDisks_perm (partOrder_perm bucket key env h)).2.2 d)

end Placement

/-! ## Decoding a part -/

section Decode

variable {env : Env}

/-- Shards slotted by their own index. -/
theorem slotParts_keep {rows : List Bytes} {reads : List (Option (Nat × Bytes))}
    (h : ∀ i data, some (i, data) ∈ reads → i < rows.length ∧ data = rows.getD i []) :
    slotParts rows.length reads =
      keepRows (fun i => reads.any fun read => read.any fun r => r.1 == i) rows := by
  unfold slotParts
  have hstart : keepRows (fun i => reads.any fun read => read.any fun r => r.1 == i) rows =
      keepRows (fun i => (fun _ => false) i || reads.any fun read => read.any fun r => r.1 == i) rows := by
    simp only [Bool.false_or]
  rw [← keepRows_none rows, hstart]
  -- over what the shards read before it keep
  generalize (fun _ : Nat => false) = keep
  clear hstart
  induction reads generalizing keep with
  | nil => simp only [foldl_nil, any_nil, Bool.or_false]
  | cons read reads ih =>
    have hrest := ih fun i data hmem => h i data (mem_cons_of_mem _ hmem)
    cases read with
    | none =>
      rw [foldl_cons, hrest keep]
      simp only [any_cons, Option.any_none, Bool.false_or]
    | some r =>
      obtain ⟨hlt, hdata⟩ := h r.1 r.2 mem_cons_self
      rw [foldl_cons]
      dsimp only
      rw [hdata, keepRows_set keep hlt, hrest]
      simp only [any_cons, Option.any_some, Bool.or_assoc]

/-- **Enough shards of a part give all of it.** -/
theorem repairSlots_block {keep : Nat → Bool} (h : u.Fits n)
    (hmds : 0 < u.parityN → (env.code u.dataN u.parityN).Mds u.dataN u.parityN)
    (hcount : u.dataN ≤ ((range (u.dataN + u.parityN)).filter keep).length) :
    repairSlots env u.dataN u.parityN (keepRows keep (u.rows env)) = .ok ((u.rows env).map some) := by
  obtain ⟨hd, -, hlayout⟩ := h
  have hkept : ((keepRows keep (u.rows env)).filter Option.isSome).length =
      ((range (u.dataN + u.parityN)).filter keep).length := by
    rw [keepRows_count, PartUpload.rows_length]
  unfold repairSlots
  split_ifs with hrepair
  · rw [rsFor_of_layout hlayout]
    have hrec : rsReconstruct env u.dataN u.parityN (keepRows keep (u.rows env)) =
        .ok ((u.rows env).map some) := by
      refine rsReconstruct_eq (hmds hrepair.1) hd (Lib.pieces_length _ _ _)
        (shardSize_pos u.data.length u.dataN) (fun _ => Lib.length_of_mem_pieces)
        (by simp [keepRows]) (fun i r hr => keepRows_some hr) ?_
      rw [hkept]
      exact hcount
    rw [hrec]
    rfl
  · -- nothing is missing, or there is no parity and nothing may be
    congr 1
    refine keepRows_all _ fun i hi => ?_
    rw [PartUpload.rows_length] at hi
    have hlength : ((range (u.dataN + u.parityN)).filter keep).length = u.dataN + u.parityN := by
      have hle := length_filter_le keep (range (u.dataN + u.parityN))
      rw [length_range] at hle
      omega
    have hall := length_filter_eq_length_iff.mp (hlength.trans length_range.symm)
    exact hall i (mem_range.mpr hi)

/-- The data shards joined and cut are the part. -/
theorem joinShards_rows (h : u.Fits n) :
    (joinShards u.dataN ((u.rows env).map some)).take u.data.length = u.data := by
  rw [joinShards_map_some]
  have htake : (u.rows env).take u.dataN =
      Lib.pieces u.dataN (shardSize u.data.length u.dataN) u.data :=
    take_left' (Lib.pieces_length _ _ _)
  rw [htake]
  exact Lib.pieces_flatten_take (le_mul_shardSize h.1 _)

variable {bucket key : String} {number : Int} {rows : List Bytes} {distribution : List (Fin n)}
  {lost : Finset (Fin n)} {disks : Disks LocalVolume n}

/-- **Shards of a part as the decoder finds them**: each disk has its own, except for the lost ones. -/
structure ShardsRead (bucket key : String) (number : Int) (rows : List Bytes)
    (distribution : List (Fin n)) (lost : Finset (Fin n)) (disks : Disks LocalVolume n) : Prop where
  nodup : distribution.Nodup
  length : distribution.length = rows.length
  all : ∀ d, d ∈ distribution
  kept : ∀ (i : Nat) d, distribution[i]? = some d → d ∉ lost →
    LocalVolume.readPart bucket key number (disks d) = some (i, rows.getD i [])
  lost : ∀ d ∈ lost, LocalVolume.readPart bucket key number (disks d) = none

theorem ShardsRead.slots (h : ShardsRead bucket key number rows distribution lost disks) :
    slotParts rows.length
        ((finRange n).map fun d => Backend.readPart bucket key number (disks d)) =
      keepRows (survives distribution lost) rows := by
  have hread : ∀ d i data, LocalVolume.readPart bucket key number (disks d) = some (i, data) →
      distribution[i]? = some d ∧ d ∉ lost ∧ data = rows.getD i [] := by
    intro d i data hd
    have hkept : d ∉ lost := by
      intro hmem
      rw [h.lost d hmem] at hd
      cases hd
    obtain ⟨j, hj⟩ := mem_iff_getElem?.mp (h.all d)
    rw [h.kept j d hj hkept, Option.some.injEq, Prod.mk.injEq] at hd
    obtain ⟨rfl, rfl⟩ := hd
    exact ⟨hj, hkept, rfl⟩
  rw [slotParts_keep fun i data hmem => ?_]
  · refine keepRows_congr fun i hi => ?_
    rw [Bool.eq_iff_iff, any_eq_true]
    unfold survives
    constructor
    · rintro ⟨read, hmem, hany⟩
      obtain ⟨d, -, rfl⟩ := mem_map.mp hmem
      obtain ⟨⟨j, data⟩, hr, hj⟩ := (Option.any_eq_true _ _).mp hany
      obtain rfl : j = i := beq_iff_eq.mp hj
      obtain ⟨hd, hkept, -⟩ := hread d j data hr
      rw [hd]
      exact decide_eq_true hkept
    · intro hsurvives
      split at hsurvives
      · rename_i d hd
        refine ⟨_, mem_map.mpr ⟨d, mem_finRange d, rfl⟩, ?_⟩
        change (LocalVolume.readPart bucket key number (disks d)).any _ = true
        rw [h.kept i d hd (of_decide_eq_true hsurvives), Option.any_some]
        exact beq_self_eq_true i
      · cases hsurvives
  · obtain ⟨d, -, hd⟩ := mem_map.mp hmem
    obtain ⟨hdist, -, hdata⟩ := hread d i data hd
    refine ⟨?_, hdata⟩
    rw [← h.length]
    exact (List.getElem?_eq_some_iff.mp hdist).1

/-- The entry of a part in the object's metadata. -/
structure Describes (u : PartUpload) (part : PartEntry) : Prop where
  number : part.number = u.number
  size : part.size = u.data.length
  data : part.erasure.data = u.dataN
  parity : part.erasure.parity = u.parityN

/-- What the decoder makes of the shards it finds of a part. -/
theorem ShardsRead.decodePart_eq (h : ShardsRead bucket key u.number rows distribution lost disks)
    (hrows : rows.length = u.dataN + u.parityN) (hlost : lost.card ≤ u.parityN) {part : PartEntry}
    (hpart : Describes u part) : decodePart env disks bucket key part =
      (repairSlots env u.dataN u.parityN (keepRows (survives distribution lost) rows)).map
        fun slots => (joinShards u.dataN slots).take u.data.length := by
  have hcount := le_survives_count h.nodup (h.length.trans hrows) hlost
  rw [h.length] at hcount
  unfold decodePart
  rw [hpart.data, hpart.parity, hpart.number, hpart.size]
  dsimp only
  rw [← hrows, h.slots, if_neg]
  · rfl
  · rw [keepRows_count]
    omega

/-- **A part is decoded from enough of its shards.** -/
theorem ShardsRead.decode (h : ShardsRead bucket key u.number (u.rows env) distribution lost disks)
    (hfits : u.Fits n) (hmds : 0 < u.parityN → (env.code u.dataN u.parityN).Mds u.dataN u.parityN)
    (hlost : lost.card ≤ u.parityN) {part : PartEntry} (hpart : Describes u part) :
    decodePart env disks bucket key part = .ok u.data := by
  have hrows := PartUpload.rows_length env u
  have hcount := le_survives_count h.nodup (h.length.trans hrows) hlost
  rw [h.length, hrows] at hcount
  rw [h.decodePart_eq hrows hlost hpart, repairSlots_block hfits hmds hcount]
  exact congrArg Except.ok (joinShards_rows hfits)

/-! ### All parts -/

/-- **The decoder joins the parts**, and succeeds when all of them are decoded. -/
theorem readAndDecodeMultipart_eq_ok {m : ObjectMeta} {body : Bytes} :
    readAndDecodeMultipart env disks bucket key m = .ok body ↔
      ∃ bodies : List Bytes, m.parts.map (decodePart env disks bucket key) = bodies.map .ok ∧
        body = bodies.flatten := by
  unfold readAndDecodeMultipart
  constructor
  · intro h
    obtain ⟨bodies, hparts, h⟩ := Lib.except_bind_eq_ok.mp h
    exact ⟨bodies, Lib.Act.mapM_eq_ok hparts, (Except.ok.inj h).symm⟩
  · rintro ⟨bodies, hparts, rfl⟩
    rw [Lib.Act.mapM_of_map_eq hparts]
    rfl

/-- **A completed multipart object** on the disks. The shards of each part are where `put_part` places
them, except for at most as many as it has parity shards. -/
structure MultipartObject (env : Env) (bucket key : String) (parts : List PartUpload)
    (absent : PartUpload → Finset (Fin n)) (m : ObjectMeta) (disks : Disks LocalVolume n) : Prop where
  nodup : (parts.map PartUpload.number).Nodup
  entries : List.Forall₂ Describes parts m.parts
  fits : ∀ u ∈ parts, u.Fits n
  few : ∀ u ∈ parts, (absent u).card ≤ u.parityN
  shards : ∀ u ∈ parts, ShardsRead bucket key u.number (u.rows env)
    (partDisks n (partOrder bucket key env u)) (absent u) disks

/-- What the parts of an object are decoded to, entry by entry. -/
theorem map_decodePart {parts : List PartUpload} {entries : List PartEntry}
    (h : List.Forall₂ Describes parts entries) {data : PartUpload → Except StorageError Bytes}
    (hdecode : ∀ u ∈ parts, ∀ part, Describes u part → decodePart env disks bucket key part = data u) :
    entries.map (decodePart env disks bucket key) = parts.map data := by
  induction h with
  | nil => rfl
  | cons hpart _ ih =>
    rw [map_cons, map_cons, hdecode _ mem_cons_self _ hpart, ih fun u hu => hdecode u (.tail _ hu)]

/-- **A completed object reads back as its parts.** -/
theorem MultipartObject.decode {parts : List PartUpload} {absent : PartUpload → Finset (Fin n)} {m : ObjectMeta}
    (h : MultipartObject env bucket key parts absent m disks)
    (hmds : ∀ u ∈ parts, 0 < u.parityN → (env.code u.dataN u.parityN).Mds u.dataN u.parityN) :
    readAndDecodeMultipart env disks bucket key m = .ok (parts.map PartUpload.data).flatten := by
  refine readAndDecodeMultipart_eq_ok.mpr ⟨parts.map PartUpload.data, ?_, rfl⟩
  rw [map_map]
  exact map_decodePart h.entries fun u hu part hpart =>
    (h.shards u hu).decode (h.fits u hu) (hmds u hu) (h.few u hu) hpart

end Decode

end Abixio
