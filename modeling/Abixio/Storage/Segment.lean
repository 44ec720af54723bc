import Abixio.Lib.XxHash
import Abixio.Storage.Needle

/-!
# Segments of the write-ahead log

Model of `src/storage/segment.rs`. A segment is a file of fixed length, mapped into memory: a superblock
of 32 bytes, the needles that were appended, and the rest of the file.

* `ActiveSegment` is open for appending; its file is as long as its capacity and it never writes past it.
  `create` does not truncate. What the file held before stays behind the superblock.
* A `NeedleLocation` has 32-bit offsets. `append` computes them from a `usize` by `as u32` and wrapping
  additions (a build with overflow checks stops there instead).
* `SealedSegment::open` and `scan` run the same loop, up to the end of the file and up to the size that
  `open` found (`walk`).
* Errors of the file system are left out: a `SealedSegment` is opened on the bytes of its file.

Results:
* `walk_needles`: the loop visits the needles that stand in the file one after another, up to the first
  place where the checks of `read_header` fail.
* `walk_proper`: on every file it ends, and it reads nothing outside the file. Each needle it accepts is
  at least a header long.
* `scan_recovers`: what was appended is what a scan finds, with the locations `append` returned, and a
  torn tail costs the needles from the tear on.
-/

namespace Abixio

open Lib List
open Needle (length_serialize readHeader readHeader_total)
open Lib.Read (bind_eq_ok ok_bind)

variable {sb : Superblock} {env : NeedleEnv} {nds : List Needle} {seg : ActiveSegment}

/-- `SEGMENT_MAGIC`, `b"ABXL"`. -/
def segmentMagic : Bytes := [0x41, 0x42, 0x58, 0x4C]

/-- `SUPERBLOCK_SIZE`. -/
def superblockSize : Nat := 32

/-- `Superblock`. -/
structure Superblock where
  magic : Bytes
  version : UInt32
  segmentId : UInt32
  createdAt : UInt64
  deriving DecidableEq

namespace Superblock

/-- The superblock of a new segment. -/
def new (segmentId : UInt32) (createdAt : UInt64) : Superblock :=
  ⟨segmentMagic, 1, segmentId, createdAt⟩

/-- The bytes of the packed struct. -/
def toBytes (sb : Superblock) : Bytes :=
  sb.magic ++ (Lib.leBytes 4 sb.version.toNat ++ (Lib.leBytes 4 sb.segmentId.toNat ++
    (Lib.leBytes 8 sb.createdAt.toNat ++ Lib.leBytes 12 0)))

/-- `read_unaligned`. -/
def ofBytes (b : Bytes) : Superblock where
  magic := b.take 4
  version := UInt32.ofNat (Lib.leField b 4 4)
  segmentId := UInt32.ofNat (Lib.leField b 8 4)
  createdAt := UInt64.ofNat (Lib.leField b 12 8)

theorem length_toBytes (h : sb.magic.length = 4) : sb.toBytes.length = superblockSize := by
  simp only [toBytes, length_append, length_leBytes, h, superblockSize]

theorem ofBytes_toBytes (h : sb.magic.length = 4) : ofBytes sb.toBytes = sb := by
  unfold ofBytes toBytes
  simp (disch := decide) only [leField_skip h, leField_leBytes_skip, Nat.reduceSub, leField_head,
    take_left' h]
  simp

end Superblock

/-- `ActiveSegment`. The file has the capacity's length and the needles end in it. -/
structure ActiveSegment where
  segmentId : UInt32
  mmap : Bytes
  writeOffset : Nat
  capacity : Nat
  length_mmap : mmap.length = capacity
  writeOffset_le : writeOffset ≤ capacity
  deriving DecidableEq

/-- `SealedSegment`. -/
structure SealedSegment where
  segmentId : UInt32
  mmap : Bytes
  size : Nat
  deriving DecidableEq

namespace ActiveSegment

/-- `ActiveSegment::create`. `old` are the bytes the file had before. A capacity without room for the
superblock is a slice out of range, which panics. -/
def create (createdAt : UInt64) (segmentId : UInt32) (capacity : Nat) (old : Bytes) :
    Option ActiveSegment :=
  if h : superblockSize ≤ capacity then
    some {
      segmentId := segmentId
      mmap := Lib.overwrite 0 (Superblock.new segmentId createdAt).toBytes (Lib.resize 0 capacity old)
      writeOffset := superblockSize
      capacity := capacity
      length_mmap := by
        have hlen := Lib.length_resize (0 : UInt8) capacity old
        rw [Lib.length_overwrite, hlen]
        rw [Superblock.length_toBytes rfl, hlen]
        omega
      writeOffset_le := h }
  else none

/-- Where `append` says that a needle is. -/
def location (segmentId : UInt32) (writeOffset : Nat) (nd : Needle) : NeedleLocation :=
  let needleOffset := UInt32.ofNat writeOffset
  let metaOffset := needleOffset + UInt32.ofNat headerSize + UInt32.ofNat (utf8 nd.bucket).length +
    UInt32.ofNat (utf8 nd.key).length + UInt32.ofNat (utf8 nd.versionId).length
  { segmentId := segmentId
    offset := needleOffset
    metaOffset := metaOffset
    metaLen := UInt16.ofNat nd.metaBytes.length
    dataOffset := metaOffset + UInt32.ofNat nd.metaBytes.length
    dataLen := UInt32.ofNat nd.data.length
    createdAt := 0 }

/-- `ActiveSegment::append`. -/
def append (env : NeedleEnv) (nd : Needle) (seg : ActiveSegment) :
    Option NeedleLocation × ActiveSegment :=
  if h : seg.writeOffset + nd.serializedSize ≤ seg.capacity then
    (some (location seg.segmentId seg.writeOffset nd), { seg with
      mmap := Lib.overwrite seg.writeOffset (nd.serialize env) seg.mmap
      writeOffset := seg.writeOffset + nd.serializedSize
      length_mmap := by
        rw [Lib.length_overwrite, seg.length_mmap]
        rwa [length_serialize, seg.length_mmap]
      writeOffset_le := h })
  else (none, seg)

/-- `ActiveSegment::read_at`. -/
def readAt (seg : ActiveSegment) (offset len : Nat) : Except StorageError Bytes :=
  if offset + len ≤ seg.writeOffset then .ok ((seg.mmap.drop offset).take len)
  else .error (.internal "read beyond write offset")

/-- `ActiveSegment::seal`. -/
def «seal» (seg : ActiveSegment) : SealedSegment := ⟨seg.segmentId, seg.mmap, seg.writeOffset⟩

/-- A sequence of appends: the needles that were accepted, each with the location returned. -/
def appendAll (env : NeedleEnv) : List Needle → ActiveSegment →
    List (Needle × NeedleLocation) × ActiveSegment
  | [], seg => ([], seg)
  | nd :: nds, seg =>
    match seg.append env nd with
    | (some loc, seg') => ((nd, loc) :: (appendAll env nds seg').1, (appendAll env nds seg').2)
    | (none, seg') => appendAll env nds seg'

end ActiveSegment

/-- The loop of `open` and `scan`: the needles that `read_header` accepts from `offset` on, each with its
offset, and the offset where it stops. -/
def walk (env : NeedleEnv) (bound : Nat) (mmap : Bytes) :
    (fuel offset : Nat) → Lib.Read StorageError (List (Nat × NeedleView) × Nat)
  | 0, _ => .error .outOfFuel
  | fuel + 1, offset =>
    if offset + headerSize ≤ bound then do
      let tail ← Lib.sliceFrom mmap offset
      match ← (readHeader env tail).attempt with
      | .ok view => do
        let (found, stop) ← walk env bound mmap fuel (offset + view.total)
        .ok ((offset, view) :: found, stop)
      | .error _ => .ok ([], offset)
    else .ok ([], offset)

/-- What `scan` tells its visitor of a needle. -/
structure Visit where
  flags : UInt8
  bucket : String
  key : String
  versionId : String
  metaOffset : Nat
  metaLen : Nat
  dataOffset : Nat
  dataLen : Nat
  needleOffset : Nat
  deriving DecidableEq

/-- The offsets of a needle in the segment. -/
def Visit.ofView (offset : Nat) (view : NeedleView) : Visit where
  flags := view.flags
  bucket := view.bucket
  key := view.key
  versionId := view.versionId
  metaOffset := offset + view.metaOffset
  metaLen := view.metaLen
  dataOffset := offset + view.dataOffset
  dataLen := view.dataLen
  needleOffset := offset

namespace SealedSegment

/-- `SealedSegment::open`, on the bytes of the file. -/
def «open» (env : NeedleEnv) (file : Bytes) : Lib.Read StorageError SealedSegment :=
  if file.length < superblockSize then
    .error (.failed (.internal "segment too small for superblock"))
  else do
    let sb := Superblock.ofBytes (← Lib.slice file 0 superblockSize)
    if sb.magic ≠ segmentMagic then .error (.failed (.internal "bad segment magic"))
    else do
      let (_, offset) ← walk env file.length file file.length superblockSize
      .ok ⟨sb.segmentId, file, offset⟩

/-- `SealedSegment::slice`. -/
def slice (seg : SealedSegment) (offset len : Nat) : Option Bytes :=
  if offset + len ≤ seg.mmap.length then some ((seg.mmap.drop offset).take len) else none

/-- `SealedSegment::scan`: the calls of the visitor. -/
def scan (env : NeedleEnv) (seg : SealedSegment) : Lib.Read StorageError (List Visit) := do
  let (found, _) ← walk env seg.size seg.mmap seg.mmap.length superblockSize
  .ok (found.map fun f => Visit.ofView f.1 f.2)

end SealedSegment

/-- `open` and `scan` of a file. -/
def scanFile (env : NeedleEnv) (file : Bytes) : Lib.Read StorageError (List Visit) := do
  let seg ← SealedSegment.open env file
  seg.scan env

/-! ## The loop -/

variable {fuel offset : Nat}

section Walk

variable {bound : Nat} {mmap : Bytes}

/-- The bytes of needles that stand one after another. -/
def needleBytes (env : NeedleEnv) (nds : List Needle) : Bytes := nds.flatMap fun nd => nd.serialize env

/-- Such needles as the loop reports them. -/
def foundAt : Nat → List Needle → List (Nat × NeedleView)
  | _, [] => []
  | offset, nd :: nds => (offset, nd.view) :: foundAt (offset + nd.serializedSize) nds

theorem length_needleBytes_cons (env : NeedleEnv) (nd : Needle) (nds : List Needle) :
    (needleBytes env (nd :: nds)).length = nd.serializedSize + (needleBytes env nds).length := by
  unfold needleBytes
  rw [flatMap_cons, length_append, length_serialize]

theorem length_le_needleBytes (env : NeedleEnv) (nds : List Needle) :
    nds.length ≤ (needleBytes env nds).length := by
  induction nds with
  | nil => exact Nat.zero_le _
  | cons nd nds ih =>
    have hsize := nd.headerSize_le_serializedSize
    unfold headerSize at hsize
    rw [length_needleBytes_cons, length_cons]
    omega

/-- The step at a place where the checks pass, -/
theorem walk_ok {view : NeedleView} (hbound : offset + headerSize ≤ bound)
    (hoffset : offset ≤ mmap.length) (hview : readHeader env (mmap.drop offset) = .ok view) :
    walk env bound mmap (fuel + 1) offset = (walk env bound mmap fuel (offset + view.total) >>=
      fun r => .ok ((offset, view) :: r.1, r.2)) := by
  rw [walk, if_pos hbound, sliceFrom_eq hoffset, ok_bind, hview]
  rfl

/-- and at one where they do not. -/
theorem walk_failed {e : StorageError} (hbound : offset + headerSize ≤ bound)
    (hoffset : offset ≤ mmap.length) (he : readHeader env (mmap.drop offset) = .error (.failed e)) :
    walk env bound mmap (fuel + 1) offset = .ok ([], offset) := by
  rw [walk, if_pos hbound, sliceFrom_eq hoffset, ok_bind, he]
  rfl

theorem walk_end (hbound : bound < offset + headerSize) :
    walk env bound mmap (fuel + 1) offset = .ok ([], offset) := by
  rw [walk, if_neg (by omega)]

/-- **The loop ends in bounds**, on every file. -/
theorem walk_proper (hbound : bound ≤ mmap.length) (fuel : Nat) :
    ∀ offset, 0 < fuel → bound < offset + fuel → Lib.Proper (walk env bound mmap fuel offset) := by
  induction fuel with
  | zero => exact fun _ h => absurd h (Nat.lt_irrefl 0)
  | succ fuel ih =>
    intro offset _ hfuel
    by_cases hmore : offset + headerSize ≤ bound
    · have hoffset : offset ≤ mmap.length := by omega
      have hproper : Lib.Proper (readHeader env (mmap.drop offset)) :=
        Needle.readHeader_proper _
      cases hread : readHeader env (mmap.drop offset) with
      | ok view =>
        have hview := (readHeader_total hread).1
        unfold headerSize at hview hmore
        rw [walk_ok hmore hoffset hread]
        exact (ih _ (by omega) (by omega)).bind fun r _ => proper_ok _
      | error fault =>
        rw [hread] at hproper
        cases fault with
        | outOfBounds => exact absurd rfl hproper.1
        | outOfFuel => exact absurd rfl hproper.2
        | failed e =>
          rw [walk_failed hmore hoffset hread]
          exact proper_ok _
    · rw [walk_end (by omega)]
      exact proper_ok _

/-- It stops inside the file. -/
theorem walk_stop_le (fuel : Nat) :
    ∀ {offset : Nat} {found : List (Nat × NeedleView)} {stop : Nat}, offset ≤ mmap.length →
      walk env bound mmap fuel offset = .ok (found, stop) → stop ≤ mmap.length := by
  induction fuel with
  | zero => exact fun _ h => by cases h
  | succ fuel ih =>
    intro offset found stop hoffset h
    by_cases hmore : offset + headerSize ≤ bound
    · cases hread : readHeader env (mmap.drop offset) with
      | ok view =>
        have hview := (readHeader_total hread).2
        rw [length_drop] at hview
        rw [walk_ok hmore hoffset hread] at h
        obtain ⟨⟨rest, stop'⟩, hrest, hr⟩ := bind_eq_ok h
        cases hr
        exact ih (by omega) hrest
      | error fault =>
        cases fault with
        | failed e =>
          rw [walk_failed hmore hoffset hread] at h
          cases h
          exact hoffset
        | outOfBounds =>
          rw [walk, if_pos hmore, sliceFrom_eq hoffset, ok_bind, hread] at h
          cases h
        | outOfFuel =>
          rw [walk, if_pos hmore, sliceFrom_eq hoffset, ok_bind, hread] at h
          cases h
    · rw [walk_end (by omega)] at h
      cases h
      exact hoffset

/-- **The loop visits the needles that stand in the file** and goes on behind them. -/
theorem walk_over {rest : Bytes} (nds : List Needle) :
    ∀ {front : Bytes} (fuel : Nat), mmap = front ++ (needleBytes env nds ++ rest) →
      (∀ nd ∈ nds, nd.Fits) → front.length + (needleBytes env nds).length ≤ bound →
      walk env bound mmap (fuel + nds.length) front.length =
        (walk env bound mmap fuel (front.length + (needleBytes env nds).length) >>= fun r =>
          .ok (foundAt front.length nds ++ r.1, r.2)) := by
  induction nds with
  | nil =>
    intro front fuel _ _ _
    exact (bind_pure (walk env bound mmap fuel front.length)).symm
  | cons nd nds ih =>
    intro front fuel hmmap hfits hbound
    rw [length_needleBytes_cons] at hbound
    have hsize := nd.headerSize_le_serializedSize
    have hshift : mmap = (front ++ nd.serialize env) ++ (needleBytes env nds ++ rest) := by
      rw [hmmap, needleBytes, flatMap_cons]
      simp only [append_assoc]
      rfl
    have hlen : (front ++ nd.serialize env).length = front.length + nd.serializedSize := by
      rw [length_append, length_serialize]
    have hread : readHeader env (mmap.drop front.length) = .ok nd.view := by
      rw [hshift, append_assoc, drop_left' rfl]
      exact Needle.readHeader_serialize (hfits nd (mem_cons_self ..)) _
    have hrest := ih fuel hshift (fun nd' h => hfits nd' (mem_cons_of_mem _ h))
      (by rw [hlen]; omega)
    rw [hlen] at hrest
    have hfront : front.length ≤ mmap.length := by
      rw [hmmap, length_append]
      omega
    rw [length_cons, ← Nat.add_assoc, walk_ok (by omega) hfront hread]
    show (walk env bound mmap (fuel + nds.length) (front.length + nd.serializedSize) >>= _) = _
    rw [hrest, length_needleBytes_cons, bind_assoc, Nat.add_assoc]
    rfl

/-- It stops at its bound, or at the first place where the checks fail. -/
theorem walk_needles {front rest : Bytes} {nds : List Needle} {fuel : Nat}
    (hmmap : mmap = front ++ (needleBytes env nds ++ rest)) (hfits : ∀ nd ∈ nds, nd.Fits)
    (hfuel : nds.length < fuel) (hbound : front.length + (needleBytes env nds).length ≤ bound)
    (hend : bound < front.length + (needleBytes env nds).length + headerSize ∨
      Needle.FailsChecks env rest) : walk env bound mmap fuel front.length =
      .ok (foundAt front.length nds, front.length + (needleBytes env nds).length) := by
  obtain ⟨fuel, rfl⟩ : ∃ k, fuel = k + 1 + nds.length := ⟨fuel - nds.length - 1, by omega⟩
  have hstop : walk env bound mmap (fuel + 1) (front.length + (needleBytes env nds).length) =
      .ok ([], front.length + (needleBytes env nds).length) := by
    by_cases hmore : front.length + (needleBytes env nds).length + headerSize ≤ bound
    · have hdrop : mmap.drop (front.length + (needleBytes env nds).length) = rest := by
        rw [hmmap, ← append_assoc, drop_left' length_append]
      have hlen : front.length + (needleBytes env nds).length ≤ mmap.length := by
        rw [hmmap, length_append, length_append]
        omega
      obtain ⟨e, he⟩ := Needle.readHeader_failed (hend.resolve_left (by omega))
      exact walk_failed hmore hlen (by rw [hdrop]; exact he)
    · exact walk_end (by omega)
  rw [walk_over nds (fuel + 1) hmmap hfits hbound, hstop, ok_bind, append_nil]

end Walk

/-! ## Files -/

section Files

variable {file rest : Bytes}

/-- The visits of needles that stand one after another behind the superblock. -/
def visitsOf (nds : List Needle) : List Visit :=
  (foundAt superblockSize nds).map fun f => Visit.ofView f.1 f.2

/-- `open` on a file with a superblock. -/
theorem open_eq (hmagic : sb.magic = segmentMagic) (hfile : file = sb.toBytes ++ rest) :
    SealedSegment.open env file = (walk env file.length file file.length superblockSize >>=
      fun r => .ok ⟨sb.segmentId, file, r.2⟩) := by
  have hlen : sb.toBytes.length = superblockSize := Superblock.length_toBytes (by rw [hmagic]; rfl)
  have hfull : superblockSize ≤ file.length := by
    rw [hfile, length_append, hlen]
    omega
  have htake : file.take superblockSize = sb.toBytes := by rw [hfile, take_left' hlen]
  unfold SealedSegment.open
  rw [if_neg (by omega), slice_eq (by omega), ok_bind, drop_zero, htake,
    Superblock.ofBytes_toBytes (by rw [hmagic]; rfl)]
  exact if_neg (not_not_intro hmagic)

/-- **`open` and `scan` find the needles in a file**, up to the first place where the checks fail. -/
theorem scanFile_needles (hmagic : sb.magic = segmentMagic)
    (hfile : file = sb.toBytes ++ (needleBytes env nds ++ rest)) (hfits : ∀ nd ∈ nds, nd.Fits)
    (hrest : Needle.FailsChecks env rest) : scanFile env file = .ok (visitsOf nds) := by
  have hlen : sb.toBytes.length = superblockSize := Superblock.length_toBytes (by rw [hmagic]; rfl)
  have hlength : file.length = superblockSize + ((needleBytes env nds).length + rest.length) := by
    rw [hfile, length_append, length_append, hlen]
  have hfuel : nds.length < file.length := by
    have := length_le_needleBytes env nds
    unfold superblockSize at hlength
    omega
  have hopen : walk env file.length file file.length superblockSize =
      .ok (foundAt superblockSize nds, superblockSize + (needleBytes env nds).length) := by
    rw [← hlen]
    exact walk_needles hfile hfits hfuel (by rw [hlen]; omega) (Or.inr hrest)
  have hscan : walk env (superblockSize + (needleBytes env nds).length) file file.length superblockSize =
      .ok (foundAt superblockSize nds, superblockSize + (needleBytes env nds).length) := by
    rw [← hlen]
    exact walk_needles hfile hfits hfuel le_rfl (Or.inl (by unfold headerSize; omega))
  unfold scanFile
  rw [open_eq hmagic hfile, hopen, ok_bind, ok_bind]
  unfold SealedSegment.scan
  rw [hscan]
  rfl

/-- **No file makes `open` or `scan` read outside it or run on.** -/
theorem scanFile_proper (env : NeedleEnv) (file : Bytes) : Lib.Proper (scanFile env file) := by
  have hopen : Lib.Proper (SealedSegment.open env file) ∧
      ∀ seg, SealedSegment.open env file = .ok seg →
        superblockSize ≤ seg.mmap.length ∧ seg.size ≤ seg.mmap.length := by
    unfold SealedSegment.open
    by_cases hshort : file.length < superblockSize
    · rw [if_pos hshort]
      exact ⟨proper_failed _, fun seg h => by cases h⟩
    rw [if_neg hshort, slice_eq (by omega), ok_bind]
    by_cases hmagic : (Superblock.ofBytes ((file.drop 0).take superblockSize)).magic ≠ segmentMagic
    · rw [if_pos hmagic]
      exact ⟨proper_failed _, fun seg h => by cases h⟩
    rw [if_neg hmagic]
    constructor
    · refine Lib.Proper.bind ?_ fun r _ => proper_ok _
      unfold superblockSize at hshort ⊢
      exact walk_proper le_rfl _ _ (by omega) (by omega)
    · intro seg hseg
      obtain ⟨⟨found, stop⟩, hwalk, hr⟩ := bind_eq_ok hseg
      cases hr
      exact ⟨Nat.not_lt.mp hshort, walk_stop_le _ (Nat.not_lt.mp hshort) hwalk⟩
  refine hopen.1.bind fun seg hseg => ?_
  obtain ⟨hlen, hsize⟩ := hopen.2 seg hseg
  refine Lib.Proper.bind ?_ fun r _ => proper_ok _
  unfold superblockSize at hlen ⊢
  exact walk_proper hsize _ _ (by omega) (by omega)

end Files

/-! ## Appends -/

/-- The visit that `append`'s location promises. -/
def Visit.ofLocation (nd : Needle) (loc : NeedleLocation) : Visit where
  flags := nd.flags
  bucket := nd.bucket
  key := nd.key
  versionId := nd.versionId
  metaOffset := loc.metaOffset.toNat
  metaLen := loc.metaLen.toNat
  dataOffset := loc.dataOffset.toNat
  dataLen := loc.dataLen.toNat
  needleOffset := loc.offset.toNat

variable {nd : Needle}

namespace ActiveSegment

/-- The segment has the needles `nds` behind its superblock, and `rest` behind them. -/
structure Filled (env : NeedleEnv) (sb : Superblock) (nds : List Needle) (rest : Bytes)
    (seg : ActiveSegment) : Prop where
  magic : sb.magic = segmentMagic
  mmap : seg.mmap = sb.toBytes ++ (needleBytes env nds ++ rest)
  writeOffset : seg.writeOffset = superblockSize + (needleBytes env nds).length

variable {rest : Bytes} {capacity : Nat}

theorem exists_create (h : superblockSize ≤ capacity) (createdAt : UInt64)
    (segmentId : UInt32) (old : Bytes) : ∃ seg, create createdAt segmentId capacity old = some seg := by
  unfold create
  rw [dif_pos h]
  exact ⟨_, rfl⟩

theorem filled_create (env : NeedleEnv) {createdAt : UInt64} {segmentId : UInt32} {old : Bytes}
    (h : create createdAt segmentId capacity old = some seg) :
    Filled env (Superblock.new segmentId createdAt) []
        ((Lib.resize 0 capacity old).drop superblockSize) seg ∧ seg.capacity = capacity := by
  unfold create at h
  split_ifs at h
  cases h
  refine ⟨⟨rfl, ?_, rfl⟩, rfl⟩
  show overwrite 0 _ (Lib.resize 0 capacity old) = _
  rfl

theorem append_of_fits (env : NeedleEnv) (h : seg.writeOffset + nd.serializedSize ≤ seg.capacity) :
    (seg.append env nd).1 = some (location seg.segmentId seg.writeOffset nd) ∧
      (seg.append env nd).2.segmentId = seg.segmentId ∧
      (seg.append env nd).2.capacity = seg.capacity ∧
      (seg.append env nd).2.writeOffset = seg.writeOffset + nd.serializedSize ∧
      (seg.append env nd).2.mmap = overwrite seg.writeOffset (nd.serialize env) seg.mmap := by
  unfold append
  rw [dif_pos h]
  exact ⟨rfl, rfl, rfl, rfl, rfl⟩

theorem append_of_full (h : ¬ seg.writeOffset + nd.serializedSize ≤ seg.capacity) :
    seg.append env nd = (none, seg) := dif_neg h

theorem appendAll_of_fits {more : List Needle}
    (h : seg.writeOffset + nd.serializedSize ≤ seg.capacity) : seg.appendAll env (nd :: more) =
      ((nd, location seg.segmentId seg.writeOffset nd) :: ((seg.append env nd).2.appendAll env more).1,
        ((seg.append env nd).2.appendAll env more).2) := by
  have hpair : seg.append env nd = (some (location seg.segmentId seg.writeOffset nd),
      (seg.append env nd).2) := Prod.ext (append_of_fits env h).1 rfl
  rw [appendAll, hpair]

theorem appendAll_of_full {more : List Needle}
    (h : ¬ seg.writeOffset + nd.serializedSize ≤ seg.capacity) :
    seg.appendAll env (nd :: more) = seg.appendAll env more := by
  rw [appendAll, append_of_full h]

/-- An accepted needle stands behind the ones before it. -/
theorem Filled.append (hfilled : Filled env sb nds rest seg)
    (h : seg.writeOffset + nd.serializedSize ≤ seg.capacity) :
    Filled env sb (nds ++ [nd]) (rest.drop nd.serializedSize) (seg.append env nd).2 := by
  obtain ⟨-, -, -, hoffset, hmmap⟩ := append_of_fits env h
  have hbytes : needleBytes env (nds ++ [nd]) = needleBytes env nds ++ nd.serialize env := by
    unfold needleBytes
    rw [flatMap_append, flatMap_singleton]
  have hfront : (sb.toBytes ++ needleBytes env nds).length = seg.writeOffset := by
    rw [length_append, Superblock.length_toBytes (by rw [hfilled.magic]; rfl), hfilled.writeOffset]
  refine ⟨hfilled.magic, ?_, ?_⟩
  · rw [hmmap, hfilled.mmap, ← append_assoc, overwrite_append hfront, hbytes,
      length_serialize]
    simp only [append_assoc]
  · rw [hoffset, hfilled.writeOffset, hbytes, length_append, length_serialize, Nat.add_assoc]

/-- **A run of appends** leaves the accepted needles one after another. -/
theorem Filled.appendAll (more : List Needle) :
    ∀ {nds : List Needle} {rest : Bytes} {seg : ActiveSegment}, Filled env sb nds rest seg →
      ∃ k, Filled env sb (nds ++ (seg.appendAll env more).1.map Prod.fst) (rest.drop k)
        (seg.appendAll env more).2 := by
  induction more with
  | nil =>
    intro nds rest seg hfilled
    refine ⟨0, ?_⟩
    show Filled env sb (nds ++ []) rest seg
    rwa [append_nil]
  | cons nd more ih =>
    intro nds rest seg hfilled
    by_cases h : seg.writeOffset + nd.serializedSize ≤ seg.capacity
    · obtain ⟨k, hk⟩ := ih (hfilled.append h)
      refine ⟨nd.serializedSize + k, ?_⟩
      rw [appendAll_of_fits h]
      rw [append_assoc, drop_drop] at hk
      exact hk
    · obtain ⟨k, hk⟩ := ih hfilled
      refine ⟨k, ?_⟩
      rwa [appendAll_of_full h]

/-- Only needles of the sequence are accepted. -/
theorem mem_of_accepted (more : List Needle) :
    ∀ {seg : ActiveSegment} {a : Needle × NeedleLocation}, a ∈ (seg.appendAll env more).1 →
      a.1 ∈ more := by
  induction more with
  | nil => exact fun h => by cases h
  | cons nd more ih =>
    intro seg a ha
    by_cases h : seg.writeOffset + nd.serializedSize ≤ seg.capacity
    · rw [appendAll_of_fits h] at ha
      rcases mem_cons.mp ha with rfl | ha
      · exact mem_cons_self ..
      · exact mem_cons_of_mem _ (ih ha)
    · rw [appendAll_of_full h] at ha
      exact mem_cons_of_mem _ (ih ha)

/-- The location of a needle that ends below 4 GiB is not cut off. -/
theorem location_toNat (hdata : nd.data.length < 2 ^ 32) (hmeta : nd.metaBytes.length ≤ 65535)
    (segmentId : UInt32) {offset : Nat} (h : offset + nd.serializedSize < 2 ^ 32) :
    (location segmentId offset nd).metaOffset.toNat = offset + nd.metaStart ∧
      (location segmentId offset nd).metaLen.toNat = nd.metaBytes.length ∧
      (location segmentId offset nd).dataOffset.toNat = offset + nd.dataStart ∧
      (location segmentId offset nd).dataLen.toNat = nd.data.length := by
  have hend : nd.dataStart + nd.data.length = nd.serializedSize := rfl
  have hdataStart : offset + nd.dataStart < 2 ^ 32 := by omega
  have hmetaStart : offset + nd.metaStart < 2 ^ 32 := by
    unfold Needle.dataStart at hend
    omega
  have hmetaOffset : UInt32.ofNat offset + UInt32.ofNat headerSize + UInt32.ofNat (utf8 nd.bucket).length +
      UInt32.ofNat (utf8 nd.key).length + UInt32.ofNat (utf8 nd.versionId).length =
      UInt32.ofNat (offset + nd.metaStart) := by
    simp only [← UInt32.ofNat_add, Needle.metaStart, Nat.add_assoc]
  have hdataOffset : UInt32.ofNat (offset + nd.metaStart) + UInt32.ofNat nd.metaBytes.length =
      UInt32.ofNat (offset + nd.dataStart) := by
    rw [← UInt32.ofNat_add, Nat.add_assoc]
    rfl
  unfold location
  simp only [hmetaOffset, hdataOffset]
  exact ⟨UInt32.toNat_ofNat_of_lt' hmetaStart, UInt16.toNat_ofNat_of_lt' (Nat.lt_succ_of_le hmeta),
    UInt32.toNat_ofNat_of_lt' hdataStart, UInt32.toNat_ofNat_of_lt' hdata⟩

theorem ofLocation_location (hfits : nd.Fits) (segmentId : UInt32) {offset : Nat}
    (h : offset + nd.serializedSize < 2 ^ 32) :
    Visit.ofLocation nd (location segmentId offset nd) = Visit.ofView offset nd.view := by
  obtain ⟨hmetaOffset, hmetaLen, hdataOffset, hdataLen⟩ :=
    location_toNat hfits.data hfits.metaBytes segmentId h
  have hlt : offset < 2 ^ 32 := by omega
  have hoffset : (location segmentId offset nd).offset.toNat = offset := UInt32.toNat_ofNat_of_lt' hlt
  unfold Visit.ofLocation Visit.ofView
  rw [hmetaOffset, hmetaLen, hdataOffset, hdataLen, hoffset]
  rfl

/-- **The locations that `append` returns** are where the needles are. -/
theorem locations_eq (more : List Needle) (hfits : ∀ nd ∈ more, nd.Fits) :
    ∀ seg : ActiveSegment, seg.capacity < 2 ^ 32 →
      (seg.appendAll env more).1.map (fun a => Visit.ofLocation a.1 a.2) =
        (foundAt seg.writeOffset ((seg.appendAll env more).1.map Prod.fst)).map
          fun f => Visit.ofView f.1 f.2 := by
  induction more with
  | nil => exact fun _ _ => rfl
  | cons nd more ih =>
    intro seg hcapacity
    have hrest := ih fun nd' h => hfits nd' (mem_cons_of_mem _ h)
    by_cases h : seg.writeOffset + nd.serializedSize ≤ seg.capacity
    · obtain ⟨-, -, hcap, hoffset, -⟩ := append_of_fits env h
      have hmore := hrest (seg.append env nd).2 (hcap.trans_lt hcapacity)
      rw [hoffset] at hmore
      have hself := ofLocation_location (hfits nd (mem_cons_self ..)) seg.segmentId
        (lt_of_le_of_lt h hcapacity)
      rw [appendAll_of_fits h]
      simp only [map_cons, foundAt, hself, hmore]
    · rw [appendAll_of_full h]
      exact hrest seg hcapacity

end ActiveSegment

/-! ## What a scan recovers -/

/-- The file with everything from `cut` on replaced. -/
def tear (cut : Nat) (junk file : Bytes) : Bytes := file.take cut ++ junk

theorem tear_append {front rest junk : Bytes} {cut : Nat} (hcut : front.length = cut) (j : Nat) :
    tear (cut + j) junk (front ++ rest) = front ++ (rest.take j ++ junk) := by
  rw [tear, ← hcut, take_length_add_append, append_assoc]

namespace ActiveSegment

variable {createdAt : UInt64} {segmentId : UInt32} {capacity : Nat}

theorem accepted_fits (hfits : ∀ nd ∈ nds, nd.Fits) :
    ∀ nd ∈ (seg.appendAll env nds).1.map Prod.fst, nd.Fits := by
  intro nd hnd
  obtain ⟨a, ha, rfl⟩ := mem_map.mp hnd
  exact hfits _ (mem_of_accepted nds ha)

/-- The file of a new segment after a run of appends: the rest of it is still zero. -/
theorem filled_new (env : NeedleEnv) (hcreate : create createdAt segmentId capacity [] = some seg)
    (nds : List Needle) :
    ∃ free, Filled env (Superblock.new segmentId createdAt) ((seg.appendAll env nds).1.map Prod.fst)
      (replicate free 0) (seg.appendAll env nds).2 := by
  obtain ⟨k, hfilled⟩ := (filled_create env hcreate).1.appendAll nds
  rw [nil_append, Lib.resize, take_nil, nil_append, drop_replicate, drop_replicate] at hfilled
  exact ⟨_, hfilled⟩

variable (hcreate : create createdAt segmentId capacity [] = some seg) (hfits : ∀ nd ∈ nds, nd.Fits)

include hcreate hfits in
/-- Every capacity. -/
theorem scanFile_appendAll (env : NeedleEnv) :
    scanFile env (seg.appendAll env nds).2.mmap =
      .ok (visitsOf ((seg.appendAll env nds).1.map Prod.fst)) := by
  obtain ⟨free, hfilled⟩ := filled_new env hcreate nds
  exact scanFile_needles hfilled.magic hfilled.mmap (accepted_fits hfits)
    (Needle.failsChecks_zeros env free)

include hcreate hfits in
/-- A tear inside a needle. -/
theorem scanFile_torn {before after : List Needle}
    (hsplit : (seg.appendAll env nds).1.map Prod.fst = before ++ nd :: after) {offset j : Nat}
    (hoffset : offset = superblockSize + (needleBytes env before).length) {junk : Bytes}
    (hfails : Needle.FailsChecks env ((tear (offset + j) junk (seg.appendAll env nds).2.mmap).drop offset)) :
    scanFile env (tear (offset + j) junk (seg.appendAll env nds).2.mmap) = .ok (visitsOf before) := by
  obtain ⟨free, hfilled⟩ := filled_new env hcreate nds
  have hfront : ((Superblock.new segmentId createdAt).toBytes ++ needleBytes env before).length =
      offset := by
    rw [length_append, Superblock.length_toBytes rfl, hoffset]
  have hfile : (seg.appendAll env nds).2.mmap =
      ((Superblock.new segmentId createdAt).toBytes ++ needleBytes env before) ++
        (needleBytes env (nd :: after) ++ replicate free 0) := by
    rw [hfilled.mmap, hsplit]
    simp only [needleBytes, flatMap_append, append_assoc]
  rw [hfile, tear_append hfront] at hfails ⊢
  rw [drop_left' hfront] at hfails
  refine scanFile_needles hfilled.magic (append_assoc ..) ?_ hfails
  intro nd' hnd'
  exact accepted_fits hfits nd' (hsplit ▸ mem_append_left _ hnd')

end ActiveSegment

open ActiveSegment in
/-- **A scan recovers what was appended.** On a new segment, `open` and `scan` visit the needles that
`append` accepted, in order, one behind the other from the superblock on. Below 4 GiB those are the
locations `append` returned. If the file is torn inside a needle, which then fails its checks, they visit
the needles before it. On every file they end and stay in bounds. -/
theorem scan_recovers (env : NeedleEnv) :
    (∀ (createdAt : UInt64) (segmentId : UInt32) (capacity : Nat) (seg : ActiveSegment)
        (nds : List Needle), create createdAt segmentId capacity [] = some seg →
      (∀ nd ∈ nds, nd.Fits) → scanFile env (seg.appendAll env nds).2.mmap =
          .ok (visitsOf ((seg.appendAll env nds).1.map Prod.fst)) ∧
        (capacity < 2 ^ 32 → visitsOf ((seg.appendAll env nds).1.map Prod.fst) =
          (seg.appendAll env nds).1.map fun a => Visit.ofLocation a.1 a.2) ∧
        ∀ before nd after, (seg.appendAll env nds).1.map Prod.fst = before ++ nd :: after →
          ∀ offset, offset = superblockSize + (needleBytes env before).length →
          ∀ j < nd.serializedSize, ∀ junk,
            Needle.FailsChecks env ((tear (offset + j) junk (seg.appendAll env nds).2.mmap).drop offset) →
            scanFile env (tear (offset + j) junk (seg.appendAll env nds).2.mmap) =
              .ok (visitsOf before)) ∧ ∀ file, Lib.Proper (scanFile env file) := by
  refine ⟨?_, scanFile_proper env⟩
  intro createdAt segmentId capacity seg nds hcreate hfits
  refine ⟨scanFile_appendAll hcreate hfits env, ?_, ?_⟩
  · intro hsmall
    obtain ⟨hfresh, hcapacity⟩ := filled_create env hcreate
    rw [locations_eq nds hfits seg (hcapacity ▸ hsmall), hfresh.writeOffset]
    rfl
  · intro before nd after hsplit offset hoffset j _ junk hfails
    exact scanFile_torn hcreate hfits hsplit hoffset hfails

/-- An environment without metadata. -/
def plainNeedleEnv : NeedleEnv where
  xxh64 := Lib.xxh64
  toVec _ := []
  fromSlice _ := .error "EOF"
  utf8Error _ := ""

/-- A needle of 32 bytes, -/
def putNeedle : Needle := ⟨flagNormal, "b", "k1", "", [1, 2], [3, 4, 5]⟩

/-- a tombstone of 27 bytes, -/
def deleteNeedle : Needle := ⟨flagDelete, "b", "k1", "", [], []⟩

/-- these two and a third needle, -/
def smallNeedles : List Needle := [putNeedle, deleteNeedle, ⟨flagNormal, "b", "k2", "v", [], [6]⟩]

/-- and the new segment of 110 bytes they are appended to. The last one does not fit. -/
def smallSegment : ActiveSegment := (ActiveSegment.create 7 1 110 []).get (by decide +kernel)

/-- The tear is in the payload of the tombstone. -/
theorem scan_recovers_small :
    scanFile plainNeedleEnv (smallSegment.appendAll plainNeedleEnv smallNeedles).2.mmap =
        .ok ((smallSegment.appendAll plainNeedleEnv smallNeedles).1.map
          fun a => Visit.ofLocation a.1 a.2) ∧
      scanFile plainNeedleEnv (tear 89 [] (smallSegment.appendAll plainNeedleEnv smallNeedles).2.mmap) =
        .ok (visitsOf [putNeedle]) := by
  have hcreate : ActiveSegment.create 7 1 110 [] = some smallSegment := by
    unfold smallSegment
    rw [Option.some_get]
  have hfits : ∀ nd ∈ smallNeedles, nd.Fits := by decide +kernel
  have h := (scan_recovers plainNeedleEnv).1 7 1 110 smallSegment smallNeedles hcreate hfits
  constructor
  · rw [h.1, h.2.1 (by decide)]
  · exact h.2.2 [putNeedle] deleteNeedle [] (by decide +kernel) 64 (by decide +kernel) 25
      (by decide +kernel) [] (by decide +kernel)

/-- A needle with `n` bytes of data. -/
def longNeedle (n : Nat) : Needle := ⟨flagNormal, "b", "k", "", [], replicate n 0⟩

theorem size_longNeedle (n : Nat) : (longNeedle n).serializedSize = n + 26 := by
  have hname : (utf8 "b").length = 1 ∧ (utf8 "k").length = 1 ∧ (utf8 "").length = 0 := by
    decide +kernel
  simp only [Needle.serializedSize, longNeedle, hname, headerSize, length_nil, length_replicate]
  omega

theorem fits_longNeedle {n : Nat} (h : n < 2 ^ 32) : (longNeedle n).Fits where
  bucket := show (utf8 "b").length ≤ 255 by decide +kernel
  key := show (utf8 "k").length ≤ 65535 by decide +kernel
  versionId := show (utf8 "").length ≤ 255 by decide +kernel
  metaBytes := Nat.zero_le _
  data := length_replicate.trans_lt h

open ActiveSegment in
/-- A needle that starts behind 4 GiB is not where its location says. -/
theorem location_differs (env : NeedleEnv) {n capacity : Nat} {seg : ActiveSegment}
    (hcreate : create 7 1 capacity [] = some seg) (hn : n < 2 ^ 32) (hlong : 2 ^ 32 ≤ n + 58)
    (hroom : n + 84 ≤ capacity) :
    scanFile env (seg.appendAll env [longNeedle n, longNeedle 0]).2.mmap ≠
      .ok ((seg.appendAll env [longNeedle n, longNeedle 0]).1.map
        fun a => Visit.ofLocation a.1 a.2) := by
  have hfits : ∀ nd ∈ [longNeedle n, longNeedle 0], nd.Fits := by
    intro nd hnd
    rcases mem_pair.mp hnd with rfl | rfl
    · exact fits_longNeedle hn
    · exact fits_longNeedle (by decide)
  obtain ⟨hfresh, hcapacity⟩ := filled_create env hcreate
  have hstart : seg.writeOffset = 32 := hfresh.writeOffset
  -- both needles fit into the segment
  have hfirst : seg.writeOffset + (longNeedle n).serializedSize ≤ seg.capacity := by
    rw [hstart, hcapacity, size_longNeedle]
    omega
  obtain ⟨-, -, hcapacity', hoffset, -⟩ := append_of_fits env hfirst
  have hsecond : (seg.append env (longNeedle n)).2.writeOffset + (longNeedle 0).serializedSize ≤
      (seg.append env (longNeedle n)).2.capacity := by
    rw [hoffset, hstart, hcapacity', hcapacity, size_longNeedle, size_longNeedle]
    omega
  obtain ⟨loc, loc', haccepted⟩ : ∃ loc loc', (seg.appendAll env [longNeedle n, longNeedle 0]).1 =
      [(longNeedle n, loc), (longNeedle 0, loc')] := by
    rw [appendAll_of_fits hfirst, appendAll_of_fits hsecond]
    exact ⟨_, _, rfl⟩
  intro hscan
  rw [scanFile_appendAll hcreate hfits env, haccepted] at hscan
  have hvisits := Except.ok.inj hscan
  simp only [visitsOf, map_cons, map_nil, foundAt, cons.injEq, and_true] at hvisits
  have hneedle := congrArg Visit.needleOffset hvisits.2
  simp only [Visit.ofView, Visit.ofLocation, size_longNeedle, superblockSize] at hneedle
  have hlt := loc'.offset.toNat_lt
  omega

/-- A segment of 8 GiB, and a needle behind the longest one a header can describe. -/
theorem location_wraps : ∃ seg, ActiveSegment.create 7 1 (2 ^ 33) [] = some seg ∧
      (∀ nd ∈ [longNeedle (2 ^ 32 - 1), longNeedle 0], nd.Fits) ∧ scanFile plainNeedleEnv
          (seg.appendAll plainNeedleEnv [longNeedle (2 ^ 32 - 1), longNeedle 0]).2.mmap ≠
        .ok ((seg.appendAll plainNeedleEnv [longNeedle (2 ^ 32 - 1), longNeedle 0]).1.map
          fun a => Visit.ofLocation a.1 a.2) := by
  have hroom : superblockSize ≤ 2 ^ 33 := by decide
  obtain ⟨seg, hcreate⟩ := ActiveSegment.exists_create hroom 7 1 []
  refine ⟨seg, hcreate, ?_, location_differs plainNeedleEnv hcreate (by decide) (by decide) (by decide)⟩
  intro nd hnd
  rcases mem_pair.mp hnd with rfl | rfl
  · exact fits_longNeedle (by decide)
  · exact fits_longNeedle (by decide)

end Abixio
