import Abixio.Lib.Act
import Abixio.Storage.Segment
import Mathlib.Data.List.AList

/-!
# The write-ahead log

Model of `Wal` (`src/storage/wal.rs:57-362`), the log of one volume. An object that is appended to the
active segment is *pending* until a worker has written its files.

* `pending` maps bucket, key and version id to the place of the entry. An object without a version id has
  the empty one. The source iterates over a `HashMap`; here the order is that of the list.
* A segment that is full is sealed, and a sealed segment whose count of pending entries goes to zero is
  deleted. What was in it cannot be read any more.
* Errors of the file system are left out, as in `Segment`, and so are the time in the superblock of a new
  segment and the recovery at the start.

`append_ok`: what is appended is pending, and reads back at the place it is said to be.
-/

namespace Abixio

open List

/-- `WalEntry`. -/
structure WalEntry where
  segmentId : UInt32
  dataOffset : UInt32
  dataLen : UInt32
  metaOffset : UInt32
  metaLen : UInt16
  createdAt : UInt32
  deriving DecidableEq

/-- `loc_to_entry`. -/
def WalEntry.ofLocation (segmentId : UInt32) (loc : NeedleLocation) : WalEntry :=
  ⟨segmentId, loc.dataOffset, loc.dataLen, loc.metaOffset, loc.metaLen, loc.createdAt⟩

/-- `PendingKey`: bucket, key and version id. -/
abbrev PendingKey := String × String × String

/-- `Wal`. -/
structure Wal where
  active : ActiveSegment
  sealedSegments : List SealedSegment
  pending : AList fun _ : PendingKey => WalEntry
  segmentPendingCounts : AList fun _ : UInt32 => Nat
  nextSegmentId : UInt32
  segmentCapacity : Nat
  capacity_le : superblockSize ≤ segmentCapacity
  active_capacity : active.capacity = segmentCapacity

namespace Wal

variable (env : NeedleEnv)

/-- A new segment. -/
def newSegment (segmentId : UInt32) (capacity : Nat) (h : superblockSize ≤ capacity) : ActiveSegment :=
  (ActiveSegment.create 0 segmentId capacity []).get
    (Option.isSome_iff_exists.mpr (ActiveSegment.exists_create h 0 segmentId []))

theorem newSegment_eq {segmentId : UInt32} {capacity : Nat} (h : superblockSize ≤ capacity) :
    ActiveSegment.create 0 segmentId capacity [] = some (newSegment segmentId capacity h) :=
  (Option.some_get _).symm

/-- `rotate_active`. -/
def rotateActive (w : Wal) : Wal where
  active := newSegment w.nextSegmentId w.segmentCapacity w.capacity_le
  sealedSegments := w.sealedSegments ++ [w.active.seal]
  pending := w.pending
  segmentPendingCounts := w.segmentPendingCounts
  nextSegmentId := w.nextSegmentId + 1
  segmentCapacity := w.segmentCapacity
  capacity_le := w.capacity_le
  active_capacity := (ActiveSegment.filled_create ⟨fun _ => 0, fun _ => [], fun _ => .error "", fun _ => ""⟩
    (newSegment_eq w.capacity_le)).2

/-- The map key of a needle. -/
def keyOf (nd : Needle) : PendingKey := (nd.bucket, nd.key, nd.versionId)

/-- An append to the active segment, if it has room. -/
def appendActive (nd : Needle) (w : Wal) : Option (WalEntry × Wal) :=
  if h : w.active.writeOffset + nd.serializedSize ≤ w.active.capacity then
    let id := w.active.segmentId
    let entry := WalEntry.ofLocation id (ActiveSegment.location id w.active.writeOffset nd)
    some (entry, { w with
      active := (w.active.append env nd).2
      pending := w.pending.insert (keyOf nd) entry
      segmentPendingCounts :=
        w.segmentPendingCounts.insert id ((w.segmentPendingCounts.lookup id).getD 0 + 1)
      active_capacity := (ActiveSegment.append_of_fits env h).2.2.1.trans w.active_capacity })
  else none

/-- `append`: a full segment is sealed, and the needle goes to the next one. -/
def append (nd : Needle) : Lib.Act StorageError Wal WalEntry := fun w =>
  match w.appendActive env nd with
  | some (entry, w') => (.ok entry, w')
  | none =>
    match w.rotateActive.appendActive env nd with
    | some (entry, w') => (.ok entry, w')
    | none => (.error (.internal "needle too large for WAL segment"), w.rotateActive)

/-- `get_versioned`. -/
def getVersioned (bucket key versionId : String) (w : Wal) : Option WalEntry :=
  w.pending.lookup (bucket, key, versionId)

/-- `versions_for`. -/
def versionsFor (bucket key : String) (w : Wal) : List String :=
  (w.pending.keys.filter fun k => k.1 = bucket ∧ k.2.1 = key).map fun k => k.2.2

/-- Bytes of an entry: in the active segment, or in a sealed one that is still there. -/
def readBytes (segmentId : UInt32) (offset len : Nat) (w : Wal) : Option Bytes :=
  if segmentId = w.active.segmentId then (w.active.readAt offset len).toOption
  else (w.sealedSegments.find? fun s => s.segmentId = segmentId).bind fun s => s.slice offset len

/-- `read_data`. -/
def readData (e : WalEntry) (w : Wal) : Option Bytes :=
  w.readBytes e.segmentId e.dataOffset.toNat e.dataLen.toNat

/-- `read_meta`. -/
def readMeta (e : WalEntry) (w : Wal) : Except StorageError ObjectMeta :=
  match w.readBytes e.segmentId e.metaOffset.toNat e.metaLen.toNat with
  | some bytes => Needle.decodeMeta env bytes
  | none => .error .objectNotFound

/-- `try_delete_segment`: the active segment stays. -/
def tryDeleteSegment (segmentId : UInt32) (w : Wal) : Wal :=
  if segmentId = w.active.segmentId then w
  else { w with sealedSegments := w.sealedSegments.eraseP fun s => s.segmentId = segmentId }

/-- `mark_materialized_versioned`. -/
def markMaterializedVersioned (bucket key versionId : String) (w : Wal) : Wal :=
  match w.pending.lookup (bucket, key, versionId) with
  | none => w
  | some e =>
    let w := { w with pending := w.pending.erase (bucket, key, versionId) }
    match w.segmentPendingCounts.lookup e.segmentId with
    | none => w
    | some count =>
      if count - 1 = 0 then
        tryDeleteSegment e.segmentId
          { w with segmentPendingCounts := w.segmentPendingCounts.erase e.segmentId }
      else { w with segmentPendingCounts := w.segmentPendingCounts.insert e.segmentId (count - 1) }

/-- `list_keys`. -/
def listKeys (bucket keyPrefix : String) (w : Wal) : List String :=
  ((w.pending.keys.filter fun k => k.1 = bucket ∧ keyPrefix.toList.isPrefixOf k.2.1.toList).map
    fun k => k.2.1).dedup

/-! ## What is pending -/

variable {env} {nd : Needle} {w w' : Wal} {entry : WalEntry} {bucket key versionId : String}

theorem pending_markMaterialized (h : w.pending.lookup (bucket, key, versionId) = some entry) :
    (w.markMaterializedVersioned bucket key versionId).pending =
      w.pending.erase (bucket, key, versionId) := by
  unfold markMaterializedVersioned
  rw [h]
  dsimp only
  split
  · rfl
  · split
    · unfold tryDeleteSegment
      split <;> rfl
    · rfl

theorem capacity_markMaterialized :
    (w.markMaterializedVersioned bucket key versionId).segmentCapacity = w.segmentCapacity := by
  unfold markMaterializedVersioned tryDeleteSegment
  split
  · rfl
  · dsimp only
    split
    · rfl
    · split_ifs <;> rfl

/-- A materialized entry is not pending, and no other entry changes. -/
theorem lookup_markMaterialized (k : PendingKey) :
    (w.markMaterializedVersioned bucket key versionId).pending.lookup k =
      if k = (bucket, key, versionId) then none else w.pending.lookup k := by
  cases hold : w.pending.lookup (bucket, key, versionId) with
  | none =>
    unfold markMaterializedVersioned
    rw [hold]
    split_ifs with hk
    · rw [hk, hold]
    · rfl
  | some e =>
    rw [pending_markMaterialized hold]
    split_ifs with hk
    · rw [hk]
      exact AList.lookup_erase _ _
    · exact AList.lookup_erase_ne hk

/-! ## What was appended -/

/-- **A needle is in the log**: it is the pending entry of its key, and reads back. -/
structure Appended (nd : Needle) (entry : WalEntry) (w w' : Wal) : Prop where
  pending : w'.pending = w.pending.insert (keyOf nd) entry
  data : w'.readData entry = some nd.data
  metaBytes : w'.readBytes entry.segmentId entry.metaOffset.toNat entry.metaLen.toNat =
    some nd.metaBytes
  capacity : w'.segmentCapacity = w.segmentCapacity

/-- The bytes of a needle that was just appended. -/
theorem readAt_append {seg : ActiveSegment} {front piece rest : Bytes}
    (hfits : seg.writeOffset + nd.serializedSize ≤ seg.capacity)
    (hpieces : nd.serialize env = front ++ (piece ++ rest)) :
    (seg.append env nd).2.readAt (seg.writeOffset + front.length) piece.length = .ok piece := by
  obtain ⟨-, -, -, hoffset, hmmap⟩ := ActiveSegment.append_of_fits env hfits
  have hlen : nd.serializedSize = front.length + (piece.length + rest.length) := by
    have hsize : (nd.serialize env).length = nd.serializedSize := Needle.length_serialize nd
    rw [← hsize, hpieces, length_append, length_append]
  have hfront : (seg.mmap.take seg.writeOffset).length = seg.writeOffset := by
    rw [length_take, seg.length_mmap]
    exact Nat.min_eq_left seg.writeOffset_le
  unfold ActiveSegment.readAt
  rw [hoffset, if_pos (by omega), hmmap, Lib.overwrite, hpieces, ← drop_drop, drop_left' hfront,
    append_assoc, drop_left' rfl, append_assoc, take_left' rfl]

theorem appendActive_ok (hfits : w.active.writeOffset + nd.serializedSize ≤ w.segmentCapacity)
    (hcap : w.segmentCapacity < 2 ^ 32) (hmeta : nd.metaBytes.length ≤ 65535) :
    ∃ entry w', w.appendActive env nd = some (entry, w') ∧ Appended nd entry w w' := by
  rw [← w.active_capacity] at hfits hcap
  obtain ⟨-, hid, -⟩ := ActiveSegment.append_of_fits env hfits
  have hdata : nd.data.length < 2 ^ 32 := by
    unfold Needle.serializedSize at hfits
    omega
  obtain ⟨hmetaOffset, hmetaLen, hdataOffset, hdataLen⟩ := ActiveSegment.location_toNat hdata hmeta
    w.active.segmentId (lt_of_le_of_lt hfits hcap)
  obtain ⟨front, hfront, hsplit⟩ := nd.serialize_split env
  have hsplit' : nd.serialize env = (front ++ nd.metaBytes) ++ (nd.data ++ []) := by
    rw [hsplit, append_nil, append_assoc]
  have hmetaRead := readAt_append hfits hsplit
  have hdataRead := readAt_append hfits hsplit'
  rw [hfront] at hmetaRead
  rw [length_append, hfront] at hdataRead
  unfold appendActive
  rw [dif_pos hfits]
  refine ⟨_, _, rfl, rfl, ?_, ?_, rfl⟩
  · refine (if_pos hid.symm).trans ?_
    rw [WalEntry.ofLocation, hdataOffset, hdataLen, Needle.dataStart, hdataRead]
    rfl
  · refine (if_pos hid.symm).trans ?_
    rw [WalEntry.ofLocation, hmetaOffset, hmetaLen, hmetaRead]
    rfl

/-- **What is appended is pending and reads back**, if it has room in an empty segment. -/
theorem append_ok (hfits : superblockSize + nd.serializedSize ≤ w.segmentCapacity)
    (hcap : w.segmentCapacity < 2 ^ 32) (hmeta : nd.metaBytes.length ≤ 65535) :
    ∃ entry w', w.append env nd = (.ok entry, w') ∧ Appended nd entry w w' := by
  unfold append
  by_cases hactive : w.active.writeOffset + nd.serializedSize ≤ w.segmentCapacity
  · obtain ⟨entry, w', hrun, happended⟩ := appendActive_ok hactive hcap hmeta
    rw [hrun]
    exact ⟨entry, w', rfl, happended⟩
  · have hfull : w.appendActive env nd = none := by
      exact dif_neg (by rwa [w.active_capacity])
    have hnew : w.rotateActive.active.writeOffset = superblockSize :=
      (ActiveSegment.filled_create env (newSegment_eq w.capacity_le)).1.writeOffset
    rw [← hnew] at hfits
    obtain ⟨entry, w', hrun, happended⟩ : ∃ entry w', w.rotateActive.appendActive env nd =
        some (entry, w') ∧ Appended nd entry w.rotateActive w' := appendActive_ok hfits hcap hmeta
    rw [hfull]
    rw [hrun]
    exact ⟨entry, w', rfl, ⟨happended.pending, happended.data, happended.metaBytes,
      happended.capacity⟩⟩

end Wal

end Abixio
