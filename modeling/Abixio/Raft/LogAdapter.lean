import Abixio.Raft.Codec
import Abixio.Raft.LogStore

/-!
# The log adapter against openraft's contract

Model of `RaftLogReader` and `RaftLogStorage` for `AbixioLogAdapter` (`src/raft/adapter/log.rs`), without
the vote. The adapter keeps openraft entries in the log store: an `Entry` is written with bincode, and the
record has its index and term beside it.

* The bounds of a range become inclusive numbers with saturating arithmetic. `truncate` and `purge` do the
  same with their index.
* `get_log_state` builds log ids from what the record has, the term and the index. The node id is 0.
* `RaftLog` is the log that the contract talks about: the entries, and the id of the last purge.

Result: `conforms_iff`. A sequence of calls conforms, each with the reply that the contract asks for and
exactly the records that it asks for in the store, exactly if every call meets the conditions `Meets`.
-/

namespace Abixio.Raft

open List

open Lib (Codec Decoder)
open Lib.Codec (uint vec str u64)
open UInt64 (le_iff_toNat_le lt_iff_toNat_lt ofNat_toNat toNat_inj)

/-! ## Entries -/

namespace Bincode

/-- `LogId`, with its `CommittedLeaderId`. -/
def logId : Codec LogId :=
  (u64.pair (u64.pair u64)).imap (fun f => ⟨⟨f.1, f.2.1⟩, f.2.2⟩)
    (fun id => (id.leaderId.term, id.leaderId.nodeId, id.index)) fun _ => rfl

/-- `AbixioNode`. -/
def abixioNode : Codec AbixioNode :=
  (str.pair (str.pair voterKind)).imap (fun f => ⟨f.1, f.2.1, f.2.2⟩)
    (fun n => (n.advertiseS3, n.advertiseCluster, n.voterKind)) fun _ => rfl

/-- `Membership`. -/
def membership : Codec Membership :=
  ((vec (vec u64)).pair (vec (u64.pair abixioNode))).imap (fun f => ⟨f.1, f.2⟩)
    (fun m => (m.configs, m.nodes)) fun _ => rfl

/-- `Entry::serialize`. -/
def encodeEntry (e : Entry) : List UInt8 :=
  logId.encode e.logId ++ match e.payload with
    | .blank => (uint 4).encode 0
    | .normal op => (uint 4).encode 1 ++ encodeOp op
    | .membership m => (uint 4).encode 2 ++ membership.encode m

/-- `EntryPayload::deserialize`. -/
def decodePayload : Decoder EntryPayload := fun bs =>
  ((uint 4).decode bs).bind fun variant =>
    match variant.1 with
    | 0 => some (.blank, variant.2)
    | 1 => (decodeOp variant.2).map fun op => (.normal op.1, op.2)
    | 2 => (membership.decode variant.2).map fun m => (.membership m.1, m.2)
    | _ => none

/-- `Entry::deserialize`. -/
def decodeEntry : Decoder Entry := fun bs =>
  (logId.decode bs).bind fun id => (decodePayload id.2).map fun p => (⟨id.1, p.1⟩, p.2)

/-- The lengths in an entry are 64-bit words. -/
def SizedPayload : EntryPayload → Prop
  | .blank => True
  | .normal op => Sized op
  | .membership m => membership.Fits m

/-- The entry sets bucket settings. -/
def EntrySetsSettings (e : Entry) : Prop := ∃ op, e.payload = .normal op ∧ SetsSettings op

end Bincode

/-- `bincode::deserialize` of an entry. -/
def deserializeEntry (bytes : List UInt8) : Option Entry := (Bincode.decodeEntry bytes).map Prod.fst

/-- **An entry is read back** exactly if it does not set bucket settings. -/
theorem deserializeEntry_iff {e : Entry} (hsized : Bincode.SizedPayload e.payload) :
    deserializeEntry (Bincode.encodeEntry e) = some e ↔ ¬ Bincode.EntrySetsSettings e := by
  obtain ⟨id, payload⟩ := e
  have hid (rest : List UInt8) : Bincode.logId.decode (Bincode.logId.encode id ++ rest) = some (id, rest) :=
    Bincode.logId.decode_encode id ⟨trivial, trivial, trivial⟩ rest
  have hvariant (k : Nat) (hk : k < 256 ^ 4) (bs : List UInt8) :
      (uint 4).decode ((uint 4).encode k ++ bs) = some (k, bs) := (uint 4).decode_encode k hk bs
  unfold deserializeEntry Bincode.decodeEntry Bincode.encodeEntry Bincode.decodePayload
  cases payload with
  | blank =>
    refine iff_of_true ?_ fun ⟨_, h, _⟩ => by cases h
    have hblank := hvariant 0 (by decide) []
    rw [append_nil] at hblank
    rw [hid, Option.bind_some]
    rfl
  | membership m =>
    refine iff_of_true ?_ fun ⟨_, h, _⟩ => by cases h
    have hm := Bincode.membership.decode_encode m hsized []
    rw [append_nil] at hm
    rw [hid, Option.bind_some]
    rw [hvariant 2 (by decide), Option.bind_some]
    rw [hm]
    rfl
  | normal op =>
    rw [hid, Option.bind_some]
    rw [hvariant 1 (by decide), Option.bind_some]
    have hsets : Bincode.EntrySetsSettings ⟨id, .normal op⟩ ↔ Bincode.SetsSettings op :=
      ⟨fun ⟨_, h, hop⟩ => EntryPayload.normal.inj h ▸ hop, fun h => ⟨op, rfl, h⟩⟩
    rw [hsets, ← deserializeOp_iff hsized, deserializeOp]
    simp only [Option.map_eq_some_iff]
    constructor
    · rintro ⟨_, ⟨_, ⟨a, ha, rfl⟩, rfl⟩, heq⟩
      exact ⟨a, ha, EntryPayload.normal.inj (congrArg Entry.payload heq)⟩
    · rintro ⟨a, ha, rfl⟩
      exact ⟨_, ⟨_, ⟨a, ha, rfl⟩, rfl⟩, rfl⟩

/-! ## The adapter -/

/-- `std::ops::Bound<u64>`. -/
inductive Bound where
  | included (i : UInt64)
  | excluded (i : UInt64)
  | unbounded
  deriving DecidableEq

/-- `u64::MAX`. -/
def u64Max : UInt64 := 0xffffffffffffffff

/-- `i.saturating_add(1)`. -/
def saturatingSucc (i : UInt64) : UInt64 := if i = u64Max then u64Max else i + 1

/-- `i.saturating_sub(1)`. -/
def saturatingPred (i : UInt64) : UInt64 := if i = 0 then 0 else i - 1

/-- The start of a range. -/
def Bound.start : Bound → UInt64
  | .included i => i
  | .excluded i => saturatingSucc i
  | .unbounded => 0

/-- The end of a range. -/
def Bound.last : Bound → UInt64
  | .included i => i
  | .excluded i => saturatingPred i
  | .unbounded => u64Max

/-- What the adapter makes a `StorageError` of. -/
inductive AdapterError where
  | log (e : LogError)
  | bincode
  deriving DecidableEq

/-- openraft's `LogState`. -/
structure LogState where
  lastPurgedLogId : Option LogId
  lastLogId : Option LogId
  deriving DecidableEq

/-- The record of an entry. -/
def toRaw (e : Entry) : LogEntry := ⟨e.logId.index, e.logId.leaderId.term, Bincode.encodeEntry e⟩

/-- The loop of `try_get_log_entries`. -/
def decodeAll : List LogEntry → Except AdapterError (List Entry)
  | [] => .ok []
  | r :: rs =>
    match deserializeEntry r.opBytes with
    | none => .error .bincode
    | some e => (decodeAll rs).map (e :: ·)

namespace LogStore

/-- `try_get_log_entries`. `none` is the end of the process. -/
def tryGetLogEntries (limit : Nat) (lo hi : Bound) (s : LogStore) :
    Option (Except AdapterError (List Entry)) :=
  let effectiveEnd := min (UInt64.ofNat (s.lastLogIndex.getD 0)) hi.last
  if effectiveEnd < lo.start then some (.ok [])
  else
    (s.readRange limit lo.start effectiveEnd).map fun raw =>
      match raw with
      | .error e => .error (.log e)
      | .ok raw => decodeAll raw

/-- `get_log_state`. -/
def getLogState (s : LogStore) : LogState :=
  match s.lastLogIndex with
  | none => ⟨none, none⟩
  | some last =>
    let lastTerm := s.lastLogTerm.getD 0
    let first := s.firstLogIndex.getD last
    let lastPurged : Option LogId :=
      if 0 < first then some ⟨⟨lastTerm, 0⟩, UInt64.ofNat (first - 1)⟩ else none
    ⟨lastPurged, some ⟨⟨lastTerm, 0⟩, UInt64.ofNat last⟩⟩

end LogStore

/-- The calls of openraft, and a restart. -/
inductive LogCall where
  | append (entries : List Entry)
  | truncate (id : LogId)
  | purge (id : LogId)
  | tryGetLogEntries (lo hi : Bound)
  | getLogState
  | reopen

/-- A reply. -/
inductive LogReply where
  | done (r : Except AdapterError Unit)
  | entries (r : Except AdapterError (List Entry))
  | state (s : LogState)

/-- An error of the store as one of the adapter. -/
def logErr (r : Except LogError Unit) : Except AdapterError Unit :=
  match r with
  | .ok () => .ok ()
  | .error e => .error (.log e)

/-- The adapter's answer to a call, or the end of the process. -/
def LogStore.call (limit : Nat) (c : LogCall) (s : LogStore) : Option LogReply × LogStore :=
  match c with
  | .append entries =>
    (some (.done (logErr (s.append (entries.map toRaw)).1)), (s.append (entries.map toRaw)).2)
  | .truncate id =>
    (some (.done (logErr (s.truncateAfter (saturatingPred id.index)).1)),
      (s.truncateAfter (saturatingPred id.index)).2)
  | .purge id =>
    (some (.done (logErr (s.purgeBefore (saturatingSucc id.index)).1)),
      (s.purgeBefore (saturatingSucc id.index)).2)
  | .tryGetLogEntries lo hi => ((s.tryGetLogEntries limit lo hi).map LogReply.entries, s)
  | .getLogState => (some (.state s.getLogState), s)
  | .reopen => (some (.done (.ok ())), LogStore.open s.file)

/-! ## The contract -/

/-- An index is not before a range with this start. -/
def Bound.Starts (i : UInt64) : Bound → Prop
  | .included a => a ≤ i
  | .excluded a => a < i
  | .unbounded => True

/-- An index is not behind a range with this end. -/
def Bound.Ends (i : UInt64) : Bound → Prop
  | .included b => i ≤ b
  | .excluded b => i < b
  | .unbounded => True

/-- An index lies in a range. -/
def InRange (lo hi : Bound) (i : UInt64) : Prop := lo.Starts i ∧ hi.Ends i

instance (lo hi : Bound) (i : UInt64) : Decidable (InRange lo hi i) :=
  have : Decidable (lo.Starts i) := match lo with
    | .included _ => inferInstanceAs (Decidable (_ ≤ _))
    | .excluded _ => inferInstanceAs (Decidable (_ < _))
    | .unbounded => isTrue trivial
  have : Decidable (hi.Ends i) := match hi with
    | .included _ => inferInstanceAs (Decidable (_ ≤ _))
    | .excluded _ => inferInstanceAs (Decidable (_ < _))
    | .unbounded => isTrue trivial
  inferInstanceAs (Decidable (_ ∧ _))

/-- The log of the contract. -/
structure RaftLog where
  entries : List Entry
  lastPurged : Option LogId

namespace RaftLog

variable {i : UInt64} {lo hi : Bound}

/-- A new log. -/
def empty : RaftLog := ⟨[], none⟩

/-- What a call is to do and to reply. -/
def call (c : LogCall) (m : RaftLog) : LogReply × RaftLog :=
  match c with
  | .append entries => (.done (.ok ()), { m with entries := m.entries ++ entries })
  | .truncate id =>
    (.done (.ok ()), { m with entries := m.entries.filter fun e => e.logId.index < id.index })
  | .purge id =>
    (.done (.ok ()), ⟨m.entries.filter fun e => id.index < e.logId.index, some id⟩)
  | .tryGetLogEntries lo hi => (.entries (.ok (m.entries.filter fun e => InRange lo hi e.logId.index)), m)
  | .getLogState =>
    (.state ⟨m.lastPurged, (m.entries.getLast?.map Entry.logId).or m.lastPurged⟩, m)
  | .reopen => (.done (.ok ()), m)

/-- An append goes on where the log ends, with entries that have room in a record. -/
def Admits (m : RaftLog) : LogCall → Prop
  | .append es => EntryMap.Contiguous ((m.entries ++ es).map toRaw) ∧ Sized (es.map toRaw) ∧
      ∀ e ∈ es, Bincode.SizedPayload e.payload
  | _ => True

/-- Every append of a sequence does. -/
def Admissible : RaftLog → List LogCall → Prop
  | _, [] => True
  | m, c :: cs => m.Admits c ∧ Admissible (m.call c).2 cs

/-- **The calls conform**: each has the reply of the contract, and leaves exactly its entries. -/
def Conforms (limit : Nat) : RaftLog → LogStore → List LogCall → Prop
  | _, _, [] => True
  | m, s, c :: cs =>
    ((s.call limit c).1 = some (m.call c).1 ∧ Holds ((m.call c).2.entries.map toRaw) (s.call limit c).2) ∧
      Conforms limit (m.call c).2 (s.call limit c).2 cs

/-! ## The conditions -/

/-- Saturation puts an index into a range that is empty: before 0, or after the greatest index. -/
def Saturates (lo hi : Bound) (i : UInt64) : Prop :=
  (hi = .excluded 0 ∧ lo.start = 0 ∧ i = 0) ∨ (lo = .excluded u64Max ∧ hi.last = u64Max ∧ i = u64Max)

/-- The greatest index that is read. -/
def effectiveEnd (m : RaftLog) (hi : Bound) : UInt64 :=
  min ((m.entries.getLast?.map fun e => e.logId.index).getD 0) hi.last

/-- What `get_log_state` makes of the first entry and the last one: the id before the first entry, in the
term of the last, by node 0. -/
def impliedPurge (m : RaftLog) (last : Entry) : Option LogId :=
  m.entries.head?.bind fun first =>
    if 0 < first.logId.index then some ⟨⟨last.logId.leaderId.term, 0⟩, first.logId.index - 1⟩ else none

/-- **The condition on a call** in a log, where the allocator serves `limit` bytes. -/
def Meets (limit : Nat) (m : RaftLog) : LogCall → Prop
  | .append _ | .reopen => True
  -- an entry at index 0 is not truncated
  | .truncate id => id.index = 0 → ∀ e ∈ m.entries, e.logId.index ≠ 0
  | .purge id => id.index = u64Max → ∀ e ∈ m.entries, e.logId.index ≠ u64Max
  | .tryGetLogEntries lo hi =>
    (∀ e ∈ m.entries, ¬ Saturates lo hi e.logId.index) ∧
    (lo.start ≤ m.effectiveEnd hi → LogStore.Reservable limit lo.start (m.effectiveEnd hi)) ∧
    ∀ e ∈ m.entries, InRange lo hi e.logId.index → ¬ Bincode.EntrySetsSettings e
  -- an empty log does not remember its purge, and the node of an id is not stored
  | .getLogState =>
    match m.entries.getLast? with
    | none => m.lastPurged = none
    | some last => last.logId.leaderId.nodeId = 0 ∧ m.lastPurged = m.impliedPurge last

/-- Every call of a sequence meets it. -/
def AllMeet (limit : Nat) : RaftLog → List LogCall → Prop
  | _, [] => True
  | m, c :: cs => m.Meets limit c ∧ AllMeet limit (m.call c).2 cs

/-! ## Saturating bounds -/

theorem le_u64Max (i : UInt64) : i ≤ u64Max := by
  have := i.toNat_lt
  exact le_iff_toNat_le.2 (show i.toNat ≤ 2 ^ 64 - 1 by omega)

theorem not_u64Max_lt (i : UInt64) : ¬ u64Max < i := fun h =>
  Nat.not_lt.2 (le_iff_toNat_le.1 (le_u64Max i)) (lt_iff_toNat_lt.1 h)

theorem saturatingSucc_le {a : UInt64} : saturatingSucc a ≤ i ↔ a < i ∨ (a = u64Max ∧ i = u64Max) := by
  by_cases h : a = u64Max
  · subst h
    rw [or_iff_right (not_u64Max_lt i), and_iff_right rfl]
    exact ⟨UInt64.le_antisymm (le_u64Max i), fun hi => by rw [hi]; exact UInt64.le_refl u64Max⟩
  · have hmax : a.toNat ≠ 2 ^ 64 - 1 := fun hnat => h (toNat_inj.1 hnat)
    have hsucc : (a + 1).toNat = a.toNat + 1 := by
      have := a.toNat_lt
      exact Nat.mod_eq_of_lt (show a.toNat + 1 < 2 ^ 64 by omega)
    rw [or_iff_left fun hi => h hi.1, saturatingSucc, if_neg h, le_iff_toNat_le,
      lt_iff_toNat_lt, hsucc]
    rfl

theorem le_saturatingPred {b : UInt64} : i ≤ saturatingPred b ↔ i < b ∨ (b = 0 ∧ i = 0) := by
  by_cases h : b = 0
  · subst h
    rw [or_iff_right UInt64.not_lt_zero, and_iff_right rfl]
    exact ⟨fun hi => UInt64.le_antisymm hi UInt64.zero_le, fun hi => by rw [hi]; exact UInt64.le_refl 0⟩
  · have hpos : 1 ≤ b.toNat := Nat.one_le_iff_ne_zero.2 fun hnat => h (toNat_inj.1 hnat)
    have hpred : (b - 1).toNat = b.toNat - 1 :=
      UInt64.toNat_sub_of_le b 1 (le_iff_toNat_le.2 hpos)
    rw [or_iff_left fun hi => h hi.1, saturatingPred, if_neg h, le_iff_toNat_le,
      lt_iff_toNat_lt, hpred]
    omega

theorem le_start : lo.start ≤ i ↔ lo.Starts i ∨ (lo = .excluded u64Max ∧ i = u64Max) := by
  cases lo with
  | included a => exact (or_iff_left nofun).symm
  | excluded a => exact saturatingSucc_le.trans (by rw [Bound.excluded.injEq]; exact Iff.rfl)
  | unbounded => exact iff_of_true UInt64.zero_le (.inl trivial)

theorem le_last : i ≤ hi.last ↔ hi.Ends i ∨ (hi = .excluded 0 ∧ i = 0) := by
  cases hi with
  | included b => exact (or_iff_left nofun).symm
  | excluded b => exact le_saturatingPred.trans (by rw [Bound.excluded.injEq]; exact Iff.rfl)
  | unbounded => exact iff_of_true (le_u64Max i) (.inl trivial)

/-- **The range that is read** is the range, and an index that saturation adds to an empty one. -/
theorem inRange_or_saturates : (lo.start ≤ i ∧ i ≤ hi.last) ↔ InRange lo hi i ∨ Saturates lo hi i := by
  constructor
  · rintro ⟨hstart, hlast⟩
    rcases le_start.1 hstart with hs | ⟨hlo, rfl⟩
    · rcases le_last.1 hlast with he | ⟨hhi, rfl⟩
      · exact .inl ⟨hs, he⟩
      · exact .inr (.inl ⟨hhi, UInt64.le_antisymm hstart UInt64.zero_le, rfl⟩)
    · exact .inr (.inr ⟨hlo, UInt64.le_antisymm (le_u64Max _) hlast, rfl⟩)
  · rintro (⟨hs, he⟩ | ⟨rfl, hstart, rfl⟩ | ⟨rfl, hlast, rfl⟩)
    · exact ⟨le_start.2 (.inl hs), le_last.2 (.inl he)⟩
    · exact ⟨hstart ▸ UInt64.le_refl _, UInt64.le_refl _⟩
    · exact ⟨UInt64.le_refl _, hlast ▸ UInt64.le_refl _⟩

theorem Saturates.not_inRange (h : Saturates lo hi i) : ¬ InRange lo hi i := by
  rcases h with ⟨rfl, -, -⟩ | ⟨rfl, -, -⟩
  · exact fun h => UInt64.not_lt_zero h.2
  · exact fun h => not_u64Max_lt i h.1

/-! ## One call -/

variable {limit : Nat} {m : RaftLog} {s : LogStore} {es : List Entry}

theorem filter_map_toRaw (p : LogEntry → Bool) (es : List Entry) :
    (es.map toRaw).filter p = (es.filter fun e => p (toRaw e)).map toRaw := filter_map

/-- A store holds the entries of a narrower filter too exactly if both filters agree. -/
theorem holds_filter_iff {p q : Entry → Bool} (hqp : ∀ e ∈ es, q e = true → p e = true)
    (h : Holds ((es.filter p).map toRaw) s) :
    Holds ((es.filter q).map toRaw) s ↔ ∀ e ∈ es, p e = true → q e = true := by
  have hq : es.filter q = (es.filter p).filter q := by
    rw [filter_filter]
    refine filter_congr fun e he => ?_
    cases hqe : q e with
    | false => rfl
    | true => rw [hqp e he hqe]; rfl
  constructor
  · intro h'
    have hlength := congrArg List.length (h.index.symm.trans h'.index)
    rw [length_offsets, length_offsets, length_map, length_map, hq] at hlength
    have hall := length_filter_eq_length_iff.1 hlength.symm
    exact fun e he hp => hall e (mem_filter.2 ⟨he, hp⟩)
  · intro hall
    have hpq : es.filter q = es.filter p := filter_congr fun e he => by
      rw [Bool.eq_iff_iff]
      exact ⟨hqp e he, hall e he⟩
    rw [hpq]
    exact h

/-- A cut that keeps one index too many leaves the right entries exactly if no entry has that index. -/
theorem holds_cut_iff {p q : Entry → Bool} {saturated : Prop} {edge : UInt64}
    (hp : ∀ e, p e = true ↔ q e = true ∨ (saturated ∧ e.logId.index = edge))
    (hq : ∀ e, q e = true → saturated → e.logId.index ≠ edge) (h : Holds ((es.filter p).map toRaw) s) :
    Holds ((es.filter q).map toRaw) s ↔ (saturated → ∀ e ∈ es, e.logId.index ≠ edge) := by
  rw [holds_filter_iff (fun e _ hqe => (hp e).2 (.inl hqe)) h]
  constructor
  · intro hall hsat e he hedge
    exact hq e (hall e he ((hp e).2 (.inr ⟨hsat, hedge⟩))) hsat hedge
  · intro hnone e he hpe
    exact ((hp e).1 hpe).resolve_right fun hedge => hnone hedge.1 e he hedge.2

variable (h : Holds (m.entries.map toRaw) s)

include h in
/-- `truncate`. -/
theorem truncate_iff (hgaps : LogStore.NoGaps (m.entries.map toRaw)) (id : LogId) :
    ((s.call limit (.truncate id)).1 = some (m.call (.truncate id)).1 ∧
      Holds ((m.call (.truncate id)).2.entries.map toRaw) (s.call limit (.truncate id)).2) ↔
    m.Meets limit (.truncate id) := by
  obtain ⟨hok, hholds⟩ := LogStore.holds_truncateAfter h hgaps (saturatingPred id.index)
  rw [filter_map_toRaw] at hholds
  have hreply : (s.call limit (.truncate id)).1 = some (m.call (.truncate id)).1 := by
    show some (LogReply.done (logErr _)) = _
    rw [hok]
    rfl
  rw [and_iff_right hreply]
  refine holds_cut_iff (fun e => ?_) (fun e hlt hzero _ => ?_) hholds
  · rw [decide_eq_true_iff, decide_eq_true_iff]
    exact le_iff_toNat_le.symm.trans le_saturatingPred
  · exact UInt64.not_lt_zero (hzero ▸ of_decide_eq_true hlt)

include h in
/-- `purge`. -/
theorem purge_iff (id : LogId) : ((s.call limit (.purge id)).1 = some (m.call (.purge id)).1 ∧
      Holds ((m.call (.purge id)).2.entries.map toRaw) (s.call limit (.purge id)).2) ↔
    m.Meets limit (.purge id) := by
  obtain ⟨hok, hholds⟩ := LogStore.holds_purgeBefore h (saturatingSucc id.index)
  rw [filter_map_toRaw] at hholds
  have hreply : (s.call limit (.purge id)).1 = some (m.call (.purge id)).1 := by
    show some (LogReply.done (logErr _)) = _
    rw [hok]
    rfl
  rw [and_iff_right hreply]
  refine holds_cut_iff (fun e => ?_) (fun e hlt hmax _ => ?_) hholds
  · rw [decide_eq_true_iff, decide_eq_true_iff]
    exact le_iff_toNat_le.symm.trans saturatingSucc_le
  · exact not_u64Max_lt _ (hmax ▸ of_decide_eq_true hlt)

theorem decodeAll_length (es : List Entry) : ∀ {out : List Entry},
    decodeAll (es.map toRaw) = .ok out → out.length = es.length := by
  induction es with
  | nil =>
    intro out h
    cases h
    rfl
  | cons e es ih =>
    intro out h
    rw [map_cons, decodeAll] at h
    cases he : deserializeEntry (toRaw e).opBytes with
    | none => rw [he] at h; cases h
    | some e' =>
      rw [he] at h
      cases hrest : decodeAll (es.map toRaw) with
      | error err => rw [hrest] at h; cases h
      | ok rest =>
        rw [hrest] at h
        cases h
        rw [length_cons, length_cons, ih hrest]

/-- **The entries are read back** exactly if none sets bucket settings. -/
theorem decodeAll_iff (hsized : ∀ e ∈ es, Bincode.SizedPayload e.payload) :
    decodeAll (es.map toRaw) = .ok es ↔ ∀ e ∈ es, ¬ Bincode.EntrySetsSettings e := by
  induction es with
  | nil => exact iff_of_true rfl nofun
  | cons e es ih =>
    rw [forall_mem_cons] at hsized
    rw [map_cons, decodeAll, forall_mem_cons, ← ih hsized.2, ← deserializeEntry_iff hsized.1]
    show (match deserializeEntry (Bincode.encodeEntry e) with
      | none => Except.error AdapterError.bincode
      | some e => (decodeAll (es.map toRaw)).map (e :: ·)) = _ ↔ _
    cases deserializeEntry (Bincode.encodeEntry e) with
    | none => exact iff_of_false nofun fun h => nomatch h.1
    | some e' =>
      cases decodeAll (es.map toRaw) with
      | error err => exact iff_of_false nofun fun h => nomatch h.2
      | ok rest =>
        show Except.ok (e' :: rest) = Except.ok (e :: es) ↔ some e' = some e ∧ Except.ok rest = Except.ok es
        rw [Except.ok.injEq, Except.ok.injEq, Option.some_inj, List.cons.injEq]

include h in
theorem lastIndex_eq :
    UInt64.ofNat (s.lastLogIndex.getD 0) = (m.entries.getLast?.map fun e => e.logId.index).getD 0 := by
  rw [LogStore.lastLogIndex_eq h, getLast?_map]
  cases m.entries.getLast? with
  | none => rfl
  | some e => exact ofNat_toNat

include h in
/-- No entry is behind the last one. -/
theorem index_le_last {e : Entry} (he : e ∈ m.entries) :
    e.logId.index ≤ (m.entries.getLast?.map fun e => e.logId.index).getD 0 := by
  have hle := LogStore.le_lastLogIndex h (mem_map_of_mem he)
  have hlt : s.lastLogIndex.getD 0 < 2 ^ 64 := by
    rw [LogStore.lastLogIndex_eq h]
    cases (m.entries.map toRaw).getLast? with
    | none => decide
    | some e => exact e.index.toNat_lt
  rw [← lastIndex_eq h, le_iff_toNat_le, UInt64.toNat_ofNat_of_lt' hlt]
  exact hle

/-- What is read and decoded are the entries of the range exactly if saturation adds none and none sets
bucket settings. -/
theorem decodeAll_filter_iff {p q sat : Entry → Prop} [DecidablePred p] [DecidablePred q]
    (hsized : ∀ e ∈ es, Bincode.SizedPayload e.payload) (hp : ∀ e ∈ es, p e ↔ q e ∨ sat e)
    (hexcl : ∀ e, sat e → ¬ q e) :
    decodeAll ((es.filter fun e => p e).map toRaw) = .ok (es.filter fun e => q e) ↔
      (∀ e ∈ es, ¬ sat e) ∧ ∀ e ∈ es, q e → ¬ Bincode.EntrySetsSettings e := by
  constructor
  · intro hdecode
    -- a shorter list is not the result
    have hlength := decodeAll_length _ hdecode
    have hq : es.filter (fun e => q e) = (es.filter fun e => p e).filter fun e => q e := by
      rw [filter_filter]
      refine filter_congr fun e he => ?_
      by_cases hqe : q e
      · rw [decide_eq_true hqe, decide_eq_true ((hp e he).2 (.inl hqe))]
        rfl
      · rw [decide_eq_false hqe]
        rfl
    rw [hq] at hlength
    have hall := length_filter_eq_length_iff.1 hlength
    have hpq : es.filter (fun e => q e) = es.filter fun e => p e := by
      rw [hq, filter_eq_self.2 hall]
    rw [hpq, decodeAll_iff fun e he => hsized e (mem_of_mem_filter he)] at hdecode
    refine ⟨fun e he hsat => ?_, fun e he hqe => ?_⟩
    · exact hexcl e hsat (of_decide_eq_true
        (hall e (mem_filter.2 ⟨he, decide_eq_true ((hp e he).2 (.inr hsat))⟩)))
    · exact hdecode e (mem_filter.2 ⟨he, decide_eq_true ((hp e he).2 (.inl hqe))⟩)
  · rintro ⟨hsat, hdecodable⟩
    have hpq : es.filter (fun e => p e) = es.filter fun e => q e := by
      refine filter_congr fun e he => ?_
      rw [decide_eq_decide, hp e he, or_iff_left (hsat e he)]
    rw [hpq, decodeAll_iff fun e he => hsized e (mem_of_mem_filter he)]
    exact fun e he => hdecodable e (mem_of_mem_filter he) (of_decide_eq_true (mem_filter.1 he).2)

include h in
/-- `try_get_log_entries`. -/
theorem tryGetLogEntries_iff (hsized : ∀ e ∈ m.entries, Bincode.SizedPayload e.payload) (lo hi : Bound) :
    s.tryGetLogEntries limit lo hi =
        some (.ok (m.entries.filter fun e => InRange lo hi e.logId.index)) ↔
      m.Meets limit (.tryGetLogEntries lo hi) := by
  -- an entry is in the range that is read if it is in the range or saturation adds it
  have hread : ∀ e ∈ m.entries, (lo.start ≤ e.logId.index ∧ e.logId.index ≤ m.effectiveEnd hi) ↔
      InRange lo hi e.logId.index ∨ Saturates lo hi e.logId.index := by
    intro e he
    rw [← inRange_or_saturates, effectiveEnd, Std.le_min_iff, and_iff_right (index_le_last h he)]
  unfold LogStore.tryGetLogEntries
  rw [lastIndex_eq h]
  show (if m.effectiveEnd hi < lo.start then _
    else (s.readRange limit lo.start (m.effectiveEnd hi)).map _) = _ ↔ _
  by_cases hempty : m.effectiveEnd hi < lo.start
  · have hnone : ∀ e ∈ m.entries, ¬ (InRange lo hi e.logId.index ∨ Saturates lo hi e.logId.index) := by
      intro e he hin
      obtain ⟨hlow, hhigh⟩ := (hread e he).2 hin
      exact UInt64.not_le.2 hempty (UInt64.le_trans hlow hhigh)
    rw [if_pos hempty]
    refine iff_of_true ?_ ⟨fun e he hsat => hnone e he (.inr hsat),
      fun hle => absurd hle (UInt64.not_le.2 hempty), fun e he hin => absurd (.inl hin) (hnone e he)⟩
    rw [filter_eq_nil_iff.2 fun e he hin => hnone e he (.inl (of_decide_eq_true hin))]
  rw [if_neg hempty, LogStore.readRange_eq h]
  by_cases hfits : LogStore.Reservable limit lo.start (m.effectiveEnd hi)
  · rw [if_pos (.inr hfits), filter_map_toRaw, Option.map_some, Option.some_inj]
    refine (decodeAll_filter_iff hsized hread fun _ => Saturates.not_inRange).trans ?_
    exact and_congr_right fun _ => (and_iff_right fun _ => hfits).symm
  · rw [if_neg (not_or_intro hempty hfits)]
    exact iff_of_false nofun fun hmeets => hfits (hmeets.2.1 (UInt64.not_lt.1 hempty))

include h in
/-- `get_log_state`. -/
theorem getLogState_iff :
    s.getLogState = ⟨m.lastPurged, (m.entries.getLast?.map Entry.logId).or m.lastPurged⟩ ↔
      m.Meets limit .getLogState := by
  unfold LogStore.getLogState
  rw [LogStore.lastLogIndex_eq h, LogStore.lastLogTerm_eq h, LogStore.firstLogIndex_eq h,
    getLast?_map, head?_map]
  unfold Meets
  cases hlast : m.entries.getLast? with
  | none =>
    show (⟨none, none⟩ : LogState) = ⟨m.lastPurged, m.lastPurged⟩ ↔ m.lastPurged = none
    rw [LogState.mk.injEq, and_self]
    exact eq_comm
  | some last =>
    obtain ⟨first, hfirst⟩ : ∃ first, m.entries.head? = some first := by
      cases hes : m.entries with
      | nil => rw [hes] at hlast; cases hlast
      | cons first rest => exact ⟨first, rfl⟩
    rw [hfirst]
    show (⟨if 0 < first.logId.index.toNat then
        some ⟨⟨last.logId.leaderId.term, 0⟩, UInt64.ofNat (first.logId.index.toNat - 1)⟩ else none,
        some ⟨⟨last.logId.leaderId.term, 0⟩, UInt64.ofNat last.logId.index.toNat⟩⟩ : LogState) =
      ⟨m.lastPurged, some last.logId⟩ ↔
      last.logId.leaderId.nodeId = 0 ∧ m.lastPurged = m.impliedPurge last
    have himplied : m.impliedPurge last = if 0 < first.logId.index.toNat then
        some ⟨⟨last.logId.leaderId.term, 0⟩, UInt64.ofNat (first.logId.index.toNat - 1)⟩ else none := by
      rw [impliedPurge, hfirst, Option.bind_some]
      by_cases hpos : 0 < first.logId.index
      · have hnat : 0 < first.logId.index.toNat := lt_iff_toNat_lt.1 hpos
        have hlt : first.logId.index.toNat - 1 < 2 ^ 64 :=
          Nat.lt_of_le_of_lt (Nat.sub_le _ 1) first.logId.index.toNat_lt
        have hpred : first.logId.index - 1 = UInt64.ofNat (first.logId.index.toNat - 1) := by
          rw [← toNat_inj, UInt64.toNat_ofNat_of_lt' hlt]
          exact UInt64.toNat_sub_of_le _ 1 (le_iff_toNat_le.2 hnat)
        rw [if_pos hpos, if_pos hnat, hpred]
      · have hnat : ¬ 0 < first.logId.index.toNat := fun hnat => hpos (lt_iff_toNat_lt.2 hnat)
        rw [if_neg hpos, if_neg hnat]
    have hid : (⟨⟨last.logId.leaderId.term, 0⟩, last.logId.index⟩ : LogId) = last.logId ↔
        last.logId.leaderId.nodeId = 0 := by
      obtain ⟨⟨⟨term, nodeId⟩, index⟩, payload⟩ := last
      simp only [LogId.mk.injEq, LeaderId.mk.injEq, true_and, and_true]
      exact eq_comm
    rw [← himplied, LogState.mk.injEq, ofNat_toNat, Option.some_inj, hid, and_comm]
    exact and_congr_right fun _ => eq_comm

variable {c : LogCall} (hgaps : LogStore.NoGaps (m.entries.map toRaw))
  (hsized : ∀ e ∈ m.entries, Bincode.SizedPayload e.payload) (hadm : m.Admits c)

include hgaps hsized hadm h in
/-- **One call** conforms exactly if it meets its condition. -/
theorem call_iff :
    ((s.call limit c).1 = some (m.call c).1 ∧ Holds ((m.call c).2.entries.map toRaw) (s.call limit c).2) ↔
      m.Meets limit c := by
  cases c with
  | append entries =>
    refine iff_of_true ?_ trivial
    obtain ⟨hcont, hraw, -⟩ := hadm
    rw [map_append] at hcont
    obtain ⟨hok, hholds⟩ := LogStore.holds_append h hcont.increasing hraw
    refine ⟨?_, ?_⟩
    · show some (LogReply.done (logErr _)) = _
      rw [hok]
      rfl
    · show Holds ((m.entries ++ entries).map toRaw) _
      rw [map_append]
      exact hholds
  | truncate id => exact truncate_iff h hgaps id
  | purge id => exact purge_iff h id
  | tryGetLogEntries lo hi =>
    rw [← tryGetLogEntries_iff h hsized]
    show ((s.tryGetLogEntries limit lo hi).map LogReply.entries = some (LogReply.entries _) ∧
      Holds (m.entries.map toRaw) s) ↔ _
    rw [and_iff_left h, Option.map_eq_some_iff]
    exact ⟨fun ⟨_, hr, heq⟩ => LogReply.entries.inj heq ▸ hr, fun hr => ⟨_, hr, rfl⟩⟩
  | getLogState =>
    rw [← getLogState_iff h]
    show (some (LogReply.state s.getLogState) = some (LogReply.state _) ∧
      Holds (m.entries.map toRaw) s) ↔ _
    rw [and_iff_left h, Option.some_inj, LogReply.state.injEq]
  | reopen =>
    refine iff_of_true ⟨rfl, ?_⟩ trivial
    show Holds (m.entries.map toRaw) (LogStore.open s.file)
    rw [h.file]
    exact LogStore.holds_open h.increasing h.sized

include hgaps hsized hadm in
/-- What the entries keep. -/
theorem call_keeps :
    LogStore.NoGaps ((m.call c).2.entries.map toRaw) ∧
      ∀ e ∈ (m.call c).2.entries, Bincode.SizedPayload e.payload := by
  cases c with
  | append entries =>
    refine ⟨hadm.1.noGaps, fun e he => ?_⟩
    rcases mem_append.1 he with he | he
    · exact hsized e he
    · exact hadm.2.2 e he
  | truncate id =>
    refine ⟨?_, fun e he => hsized e (mem_of_mem_filter he)⟩
    have hfilter := hgaps.filter (p := fun k => decide (k < id.index.toNat)) fun a b k _ hb _ hkb => by
      rw [decide_eq_true_eq] at hb ⊢
      omega
    rw [filter_map_toRaw] at hfilter
    exact hfilter
  | purge id =>
    refine ⟨?_, fun e he => hsized e (mem_of_mem_filter he)⟩
    have hfilter := hgaps.filter (p := fun k => decide (id.index.toNat < k)) fun a b k ha _ hak _ => by
      rw [decide_eq_true_eq] at ha ⊢
      omega
    rw [filter_map_toRaw] at hfilter
    exact hfilter
  | tryGetLogEntries lo hi => exact ⟨hgaps, hsized⟩
  | getLogState => exact ⟨hgaps, hsized⟩
  | reopen => exact ⟨hgaps, hsized⟩

/-- A sequence of calls, from a store that holds the log. -/
theorem conforms_from (cs : List LogCall) : ∀ {m : RaftLog} {s : LogStore},
    Holds (m.entries.map toRaw) s → LogStore.NoGaps (m.entries.map toRaw) →
    (∀ e ∈ m.entries, Bincode.SizedPayload e.payload) → Admissible m cs →
    (Conforms limit m s cs ↔ AllMeet limit m cs) := by
  induction cs with
  | nil => exact fun _ _ _ _ => Iff.rfl
  | cons c cs ih =>
    intro m s h hgaps hsized hadm
    obtain ⟨hgaps', hsized'⟩ := call_keeps hgaps hsized hadm.1
    constructor
    · rintro ⟨hcall, hrest⟩
      exact ⟨(call_iff h hgaps hsized hadm.1).1 hcall, (ih hcall.2 hgaps' hsized' hadm.2).1 hrest⟩
    · rintro ⟨hmeets, hrest⟩
      have hcall := (call_iff h hgaps hsized hadm.1).2 hmeets
      exact ⟨hcall, (ih hcall.2 hgaps' hsized' hadm.2).2 hrest⟩

/-- **The log adapter and the contract.** A sequence of calls on a new log conforms exactly if every call
meets its condition. -/
theorem conforms_iff (limit : Nat) (cs : List LogCall) (hadm : Admissible empty cs) :
    Conforms limit empty (LogStore.open []) cs ↔ AllMeet limit empty cs :=
  conforms_from cs EntryMap.holds_nil (fun _ h => nomatch h) (fun _ h => nomatch h) hadm

/-- A blank entry at the start of the log. -/
def firstEntry (nodeId : UInt64) : Entry := ⟨⟨⟨1, nodeId⟩, 0⟩, .blank⟩

/-- An entry of node 0 and the questions about it. -/
theorem conforms_iff_first :
    Admissible empty [.append [firstEntry 0], .tryGetLogEntries .unbounded .unbounded, .reopen,
        .getLogState] ∧
      (Conforms (2 ^ 32) empty (LogStore.open []) [.append [firstEntry 0], .tryGetLogEntries .unbounded .unbounded,
          .reopen, .getLogState] ↔
        AllMeet (2 ^ 32) empty [.append [firstEntry 0], .tryGetLogEntries .unbounded .unbounded, .reopen,
          .getLogState]) := by
  have hadm : Admissible empty [.append [firstEntry 0], .tryGetLogEntries .unbounded .unbounded, .reopen,
      .getLogState] :=
    ⟨⟨by decide, by decide +kernel, by
      intro e he
      rw [mem_singleton] at he
      subst he
      trivial⟩, trivial, trivial, trivial, trivial⟩
  exact ⟨hadm, conforms_iff (2 ^ 32) _ hadm⟩

/-- An entry of node 1, at index 0: the reported id is that of node 0, a truncation at its index leaves it
there, and after a purge nothing is reported. -/
theorem first_entry_misreported :
    ¬ Conforms (2 ^ 32) empty (LogStore.open []) [.append [firstEntry 1], .getLogState] ∧
      ((LogStore.open []).append [toRaw (firstEntry 1)]).2.getLogState = ⟨none, some ⟨⟨1, 0⟩, 0⟩⟩ ∧
      (firstEntry 1).logId = ⟨⟨1, 1⟩, 0⟩ ∧
      (((LogStore.open []).append [toRaw (firstEntry 1)]).2.call (2 ^ 32)
        (.truncate (firstEntry 1).logId)).2.entryCount = 1 ∧
      (((LogStore.open []).append [toRaw (firstEntry 1)]).2.call (2 ^ 32)
        (.purge (firstEntry 1).logId)).2.getLogState = ⟨none, none⟩ := by
  refine ⟨?_, by decide +kernel⟩
  rintro ⟨-, ⟨hreply, -⟩, -⟩
  have hstate : ((LogStore.open []).append [toRaw (firstEntry 1)]).2.getLogState =
      ⟨none, some ⟨⟨1, 1⟩, 0⟩⟩ := LogReply.state.inj (Option.some.inj hreply)
  exact absurd hstate (by decide +kernel)

end RaftLog

end Abixio.Raft
