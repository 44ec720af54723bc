import Abixio.Lib.Buffer
import Abixio.Lib.SortedMap
import Abixio.Storage.Metadata
import Mathlib.Data.UInt

/-!
# The raft log store

Model of `src/raft/storage/log.rs`. The log is one file of records without gaps, a header of 20 bytes
(index, term, length of the payload) and the payload. A `LogStore` has an index from log index to byte
offset and term, and the length up to which it knows the file.

* The file is the list of its bytes. `u64` arguments are `UInt64`, offsets are natural numbers.
* `append` writes at the physical end of the file and computes offsets from `file_len`. It writes an entry
  and puts it into the index before it looks at the next one, and sets `file_len` after the last.
* A record is read with `read_exact`, which fails at the end of the file. The scan of `open` skips a
  payload by a seek, which does not.
* `read_range` reserves space for the width of the range. `Vec::with_capacity` panics if that is more than
  `isize::MAX` bytes (`none`).
* Errors of the file system other than the end of a file are left out.

Results:
* `Holds m s`: the store `s` has the entries `m`, one record after the other. `open` gives such a store
  (`holds_open`), and every operation keeps it (`Holds.append`, `Holds.truncateAfter`,
  `Holds.purgeBefore`).
* `answer_iff`: along every run the queries answer as the finite map of the entries does, except for
  ranges too wide to reserve.
-/

namespace Abixio.Raft

open List

variable {e : LogEntry} {s : LogStore}

open Lib (leBytes leField)
open Lib.SortedMap (firstKey insert_of_gt lastKey lookup_eq_none)

/-- `HEADER_LEN`. -/
def headerLen : Nat := 8 + 8 + 4

/-- `LogEntry`. -/
structure LogEntry where
  index : UInt64
  term : UInt64
  opBytes : Bytes
  deriving DecidableEq

/-- `LogError`. -/
inductive LogError where
  | io (msg : String)
  | corruption (msg : String)
  | notFound (index : UInt64)
  | nonMonotonic (prev got : Nat)
  deriving DecidableEq

/-- `read_exact` at the end of the file. -/
def unexpectedEof : LogError := .io "failed to fill whole buffer"

/-- `LogStore`, with the bytes of its file. -/
structure LogStore where
  file : Bytes
  /-- By log index, the byte offset and the term. -/
  index : List (Nat × Nat × UInt64)
  fileLen : Nat
  deriving DecidableEq

/-- The record of an entry. -/
def record (e : LogEntry) : Bytes :=
  leBytes 8 e.index.toNat ++ (leBytes 8 e.term.toNat ++ (leBytes 4 e.opBytes.length ++ e.opBytes))

/-- The records of entries, one after the other. -/
def logBytes (m : List LogEntry) : Bytes := m.flatMap record

namespace LogStore

/-- The loop of `rebuild_index`, on the bytes from `offset` on. Every turn reads a header, so the length
of the file is fuel enough. -/
def rebuildFrom : (fuel : Nat) → Bytes → (offset : Nat) → List (Nat × Nat × UInt64) →
    List (Nat × Nat × UInt64) × Nat
  | 0, _, offset, index => (index, offset)
  | fuel + 1, rest, offset, index =>
    if rest.length < headerLen then (index, offset)
    else
      let len := leField rest 16 4
      rebuildFrom fuel (rest.drop (headerLen + len)) (offset + (headerLen + len))
        (Lib.SortedMap.insert (leField rest 0 8) (offset, UInt64.ofNat (leField rest 8 8)) index)

/-- `LogStore::open`. -/
def «open» (file : Bytes) : LogStore :=
  ⟨file, (rebuildFrom file.length file 0 []).1, (rebuildFrom file.length file 0 []).2⟩

/-- `last_log_index`. -/
def lastLogIndex (s : LogStore) : Option Nat := lastKey s.index

/-- `last_log_term`. -/
def lastLogTerm (s : LogStore) : Option UInt64 := s.index.getLast?.map fun e => e.2.2

/-- `first_log_index`. -/
def firstLogIndex (s : LogStore) : Option Nat := firstKey s.index

/-- `entry_count`. -/
def entryCount (s : LogStore) : Nat := s.index.length

/-- The loop of `append`. -/
def appendFrom : List LogEntry → (prev offset : Nat) → LogStore → Except LogError Unit × LogStore
  | [], _, offset, s => (.ok (), { s with fileLen := offset })
  | e :: es, prev, offset, s =>
    if prev ≠ 0 ∧ e.index.toNat ≤ prev then (.error (.nonMonotonic prev e.index.toNat), s)
    else if 2 ^ 32 - 1 < e.opBytes.length then (.error (.corruption "entry too large"), s)
    else
      appendFrom es e.index.toNat (offset + (headerLen + e.opBytes.length)) { s with
        file := s.file ++ record e
        index := Lib.SortedMap.insert e.index.toNat (offset, e.term) s.index }

/-- `append`. -/
def append (entries : List LogEntry) (s : LogStore) : Except LogError Unit × LogStore :=
  appendFrom entries (s.lastLogIndex.getD 0) s.fileLen s

/-- `read`. -/
def read (index : UInt64) (s : LogStore) : Except LogError LogEntry :=
  match Lib.SortedMap.lookup index.toNat s.index with
  | none => .error (.notFound index)
  | some (offset, _) =>
    if s.file.length < offset + headerLen then .error unexpectedEof
    else
      let header := (s.file.drop offset).take headerLen
      let gotIndex := leField header 0 8
      let len := leField header 16 4
      if gotIndex ≠ index.toNat then
        .error (.corruption ("index mismatch at offset " ++ toString offset ++ ": wanted " ++
          toString index.toNat ++ ", got " ++ toString gotIndex))
      else if s.file.length < offset + headerLen + len then .error unexpectedEof
      else .ok ⟨index, UInt64.ofNat (leField header 8 8), (s.file.drop (offset + headerLen)).take len⟩

/-- `size_of::<LogEntry>()`. -/
def entrySize : Nat := 40

/-- The bytes of `Vec::with_capacity((end - start + 1) as usize)`. -/
def reservation (start last : UInt64) : Nat := (last - start + 1).toNat * entrySize

/-- The reservation returns: it panics above `isize::MAX`, and the process aborts when the allocator refuses
it. `limit` is what the allocator serves. -/
def Reservable (limit : Nat) (start last : UInt64) : Prop :=
  reservation start last < 2 ^ 63 ∧ reservation start last ≤ limit

instance (limit : Nat) (start last : UInt64) : Decidable (Reservable limit start last) :=
  inferInstanceAs (Decidable (_ ∧ _))

/-- The loop of `read_range` and of `purge_before`: the entries at these indexes. -/
def readEach (s : LogStore) : List UInt64 → Except LogError (List LogEntry)
  | [] => .ok []
  | i :: is =>
    match s.read i with
    | .ok e => (s.readEach is).map (e :: ·)
    | .error e => .error e

/-- `read_range`, where the end is included. `none` is the end of the process. -/
def readRange (limit : Nat) (start last : UInt64) (s : LogStore) :
    Option (Except LogError (List LogEntry)) :=
  if last < start then some (.ok [])
  else if Reservable limit start last then
    some (s.readEach (((List.range' start.toNat (last.toNat + 1 - start.toNat)).filter fun i =>
      (Lib.SortedMap.lookup i s.index).isSome).map UInt64.ofNat))
  else none

/-- The state after `set_len` and the filter on the index. -/
def cutTo (cutOffset lastKept : Nat) (s : LogStore) : LogStore where
  file := Lib.resize 0 cutOffset s.file
  fileLen := cutOffset
  index := s.index.filter fun e => e.1 ≤ lastKept

/-- `truncate_after`. -/
def truncateAfter (lastKept : UInt64) (s : LogStore) : Except LogError Unit × LogStore :=
  match Lib.SortedMap.lookup lastKept.toNat s.index with
  | some (off, _) =>
    match s.read lastKept with
    | .error e => (.error e, s)
    | .ok entry => (.ok (), s.cutTo (off + headerLen + entry.opBytes.length) lastKept.toNat)
  | none =>
    if s.lastLogIndex.getD 0 ≤ lastKept.toNat then (.ok (), s) else (.ok (), s.cutTo 0 lastKept.toNat)

/-- One record of the new file. -/
def copyRecord (s : LogStore) (e : LogEntry) : LogStore where
  file := s.file ++ record e
  index := Lib.SortedMap.insert e.index.toNat (s.fileLen, e.term) s.index
  fileLen := s.fileLen + (headerLen + e.opBytes.length)

/-- The new file of `purge_before` and its index. -/
def copyRecords (entries : List LogEntry) : LogStore := entries.foldl copyRecord ⟨[], [], 0⟩

/-- `purge_before`. -/
def purgeBefore (firstKept : UInt64) (s : LogStore) : Except LogError Unit × LogStore :=
  let keptIndexes := (s.index.filter fun e => firstKept.toNat ≤ e.1).map fun e => UInt64.ofNat e.1
  if keptIndexes.length = s.index.length then (.ok (), s)
  else
    match s.readEach keptIndexes with
    | .error e => (.error e, s)
    | .ok entries => (.ok (), copyRecords entries)

end LogStore

/-! ## Records -/

section Records

variable {m : List LogEntry} {offset : Nat}

/-- The header of a record. -/
def header (e : LogEntry) : Bytes :=
  leBytes 8 e.index.toNat ++ (leBytes 8 e.term.toNat ++ leBytes 4 e.opBytes.length)

theorem record_eq (e : LogEntry) : record e = header e ++ e.opBytes := by
  simp only [record, header, append_assoc]

theorem length_header (e : LogEntry) : (header e).length = headerLen := by
  simp only [header, length_append, Lib.length_leBytes, headerLen]

theorem length_record (e : LogEntry) : (record e).length = headerLen + e.opBytes.length := by
  rw [record_eq, length_append, length_header]

/-- The fields of a header, whatever follows it. -/
theorem leField_header (hsize : e.opBytes.length < 2 ^ 32) (rest : Bytes) :
    leField (header e ++ rest) 0 8 = e.index.toNat ∧ leField (header e ++ rest) 8 8 = e.term.toNat ∧
      leField (header e ++ rest) 16 4 = e.opBytes.length := by
  have hindex := e.index.toNat_lt
  have hterm := e.term.toNat_lt
  unfold header
  simp only [append_assoc]
  simp (disch := decide) only [Lib.leField_leBytes_skip, Nat.reduceSub, Lib.leField_head]
  exact ⟨Nat.mod_eq_of_lt hindex, Nat.mod_eq_of_lt hterm, Nat.mod_eq_of_lt hsize⟩

theorem logBytes_cons (e : LogEntry) (m : List LogEntry) :
    logBytes (e :: m) = record e ++ logBytes m := flatMap_cons

theorem logBytes_append (m m' : List LogEntry) : logBytes (m ++ m') = logBytes m ++ logBytes m' :=
  flatMap_append

/-- The index of entries whose records start at `offset`. -/
def offsets : Nat → List LogEntry → List (Nat × Nat × UInt64)
  | _, [] => []
  | offset, e :: m => (e.index.toNat, offset, e.term) :: offsets (offset + (record e).length) m

theorem offsets_append (offset : Nat) (m m' : List LogEntry) :
    offsets offset (m ++ m') = offsets offset m ++ offsets (offset + (logBytes m).length) m' := by
  induction m generalizing offset with
  | nil => rfl
  | cons e m ih =>
    rw [cons_append, offsets, offsets, ih, logBytes_cons, length_append, Nat.add_assoc, cons_append]

theorem keys_offsets (offset : Nat) (m : List LogEntry) :
    (offsets offset m).map Prod.fst = m.map fun e => e.index.toNat := by
  induction m generalizing offset with
  | nil => rfl
  | cons e m ih => rw [offsets, map_cons, map_cons, ih]

theorem terms_offsets (offset : Nat) (m : List LogEntry) :
    (offsets offset m).map (fun e => e.2.2) = m.map LogEntry.term := by
  induction m generalizing offset with
  | nil => rfl
  | cons e m ih => rw [offsets, map_cons, map_cons, ih]

theorem length_offsets (offset : Nat) (m : List LogEntry) : (offsets offset m).length = m.length := by
  rw [← length_map Prod.fst, keys_offsets, length_map]

theorem mem_offsets {k : Nat × Nat × UInt64} (h : k ∈ offsets offset m) :
    ∃ e ∈ m, e.index.toNat = k.1 := by
  have hkey : k.1 ∈ (offsets offset m).map Prod.fst := mem_map_of_mem h
  rw [keys_offsets] at hkey
  obtain ⟨e, he, hk⟩ := mem_map.mp hkey
  exact ⟨e, he, hk⟩

/-- The indexes ascend. -/
def Increasing (m : List LogEntry) : Prop := m.Pairwise fun a b => a.index.toNat < b.index.toNat

/-- The payloads have a length that fits its field. -/
def Sized (m : List LogEntry) : Prop := ∀ e ∈ m, e.opBytes.length < 2 ^ 32

instance (m : List LogEntry) : Decidable (Sized m) := inferInstanceAs (Decidable (∀ e ∈ m, _))

/-- The place of an entry. -/
theorem lookup_offsets {front rest : List LogEntry} (hinc : Increasing (front ++ e :: rest)) :
    Lib.SortedMap.lookup e.index.toNat (offsets 0 (front ++ e :: rest)) =
      some ((logBytes front).length, e.term) := by
  rw [offsets_append, Lib.SortedMap.lookup_append, offsets, Lib.SortedMap.lookup, if_pos rfl,
    Nat.zero_add]
  intro k hk heq
  obtain ⟨e', he', hkey⟩ := mem_offsets hk
  have hlt := (pairwise_append.mp hinc).2.2 e' he' e (mem_cons_self ..)
  omega

theorem lookup_offsets_none {k : Nat} (h : ∀ e ∈ m, e.index.toNat ≠ k) :
    Lib.SortedMap.lookup k (offsets offset m) = none := by
  rw [lookup_eq_none]
  intro p hp heq
  obtain ⟨e, he, hkey⟩ := mem_offsets hp
  exact h e he (hkey.trans heq)

end Records

/-! ## Stores that hold entries -/

/-- The store has the entries `m`, one record after the other. -/
structure Holds (m : List LogEntry) (s : LogStore) : Prop where
  file : s.file = logBytes m
  index : s.index = offsets 0 m
  fileLen : s.fileLen = (logBytes m).length
  increasing : Increasing m
  sized : Sized m

namespace LogStore

variable {m es : List LogEntry}

/-- **The scan finds the records** and goes on behind them. -/
theorem rebuildFrom_records (rest : Bytes) (m : List LogEntry) :
    ∀ (fuel offset : Nat) (index : List (Nat × Nat × UInt64)), Increasing m → Sized m →
      (∀ k ∈ index, ∀ e ∈ m, k.1 < e.index.toNat) →
      rebuildFrom (fuel + m.length) (logBytes m ++ rest) offset index =
        rebuildFrom fuel rest (offset + (logBytes m).length) (index ++ offsets offset m) := by
  induction m with
  | nil =>
    intro fuel offset index _ _ _
    rw [offsets, append_nil]
    rfl
  | cons e m ih =>
    intro fuel offset index hinc hsized hkeys
    have hsize : e.opBytes.length < 2 ^ 32 := hsized e (mem_cons_self ..)
    have hbytes : logBytes (e :: m) ++ rest = header e ++ (e.opBytes ++ (logBytes m ++ rest)) := by
      rw [logBytes_cons, record_eq, append_assoc, append_assoc]
    obtain ⟨hindex, hterm, hlen⟩ := leField_header hsize (e.opBytes ++ (logBytes m ++ rest))
    have hdrop : (header e ++ (e.opBytes ++ (logBytes m ++ rest))).drop (headerLen + e.opBytes.length) =
        logBytes m ++ rest := by
      rw [← append_assoc, ← record_eq, drop_left' (length_record e)]
    have hlast : ∀ k ∈ index, k.1 < e.index.toNat := fun k hk => hkeys k hk e (mem_cons_self ..)
    have hnext : ∀ k ∈ index ++ [(e.index.toNat, offset, e.term)], ∀ e' ∈ m, k.1 < e'.index.toNat := by
      intro k hk e' he'
      rcases mem_append.mp hk with hk | hk
      · exact hkeys k hk e' (mem_cons_of_mem _ he')
      · rw [mem_singleton.mp hk]
        exact rel_of_pairwise_cons hinc he'
    rw [hbytes, length_cons, ← Nat.add_assoc, rebuildFrom,
      if_neg (by rw [length_append, length_header]; omega)]
    simp only [hindex, hterm, hlen, hdrop, UInt64.ofNat_toNat]
    rw [insert_of_gt hlast, ih _ _ _ hinc.of_cons (fun e' he' =>
      hsized e' (mem_cons_of_mem _ he')) hnext, offsets, append_assoc, logBytes_cons,
      length_append, length_record, Nat.add_assoc]
    rfl

/-- A rest without a header ends the scan. -/
theorem rebuildFrom_end {fuel offset : Nat} {rest : Bytes} {index : List (Nat × Nat × UInt64)}
    (h : rest.length < headerLen) : rebuildFrom fuel rest offset index = (index, offset) := by
  cases fuel with
  | zero => rfl
  | succ fuel => rw [rebuildFrom, if_pos h]

theorem length_le_logBytes (m : List LogEntry) : m.length ≤ (logBytes m).length := by
  induction m with
  | nil => exact Nat.zero_le _
  | cons e m ih =>
    rw [logBytes_cons, length_append, length_record, length_cons]
    unfold headerLen
    omega

/-- The scan of a file of records with something behind them. -/
theorem rebuild_file (hinc : Increasing m) (hsized : Sized m) (rest : Bytes) :
    rebuildFrom (logBytes m ++ rest).length (logBytes m ++ rest) 0 [] =
      rebuildFrom ((logBytes m ++ rest).length - m.length) rest (logBytes m).length (offsets 0 m) := by
  have hle := length_le_logBytes m
  have hfuel : (logBytes m ++ rest).length = (logBytes m ++ rest).length - m.length + m.length := by
    rw [length_append]
    omega
  have hscan := rebuildFrom_records rest m ((logBytes m ++ rest).length - m.length) 0 [] hinc hsized
    fun k hk => by cases hk
  rw [← hfuel, Nat.zero_add, nil_append] at hscan
  exact hscan

/-- **`open` finds the entries of a log file.** -/
theorem holds_open (hinc : Increasing m) (hsized : Sized m) :
    Holds m (LogStore.open (logBytes m)) := by
  have hscan := rebuild_file hinc hsized []
  rw [append_nil] at hscan
  replace hscan := hscan.trans (rebuildFrom_end (by decide))
  refine ⟨rfl, ?_, ?_, hinc, hsized⟩
  · show (rebuildFrom _ _ _ _).1 = _
    rw [hscan]
  · show (rebuildFrom _ _ _ _).2 = _
    rw [hscan]

/-- The loop of `append` on entries it takes. -/
theorem appendFrom_ok (es : List LogEntry) :
    ∀ (prev offset : Nat) (s : LogStore), Increasing es → Sized es →
      (∀ e ∈ es, prev ≠ 0 → prev < e.index.toNat) → (∀ k ∈ s.index, ∀ e ∈ es, k.1 < e.index.toNat) →
      appendFrom es prev offset s = (.ok (), ⟨s.file ++ logBytes es, s.index ++ offsets offset es,
        offset + (logBytes es).length⟩) := by
  induction es with
  | nil =>
    intro prev offset s _ _ _ _
    simp only [appendFrom, logBytes, flatMap_nil, offsets, append_nil, length_nil, Nat.add_zero]
  | cons e es ih =>
    intro prev offset s hinc hsized hprev hkeys
    have hsize := hsized e (mem_cons_self ..)
    have hlast : ∀ k ∈ s.index, k.1 < e.index.toNat := fun k hk => hkeys k hk e (mem_cons_self ..)
    have hgt : ∀ e' ∈ es, e.index.toNat < e'.index.toNat := fun e' he' =>
      rel_of_pairwise_cons hinc he'
    rw [appendFrom, if_neg (fun h => by have := hprev e (mem_cons_self ..) h.1; omega),
      if_neg (by omega), insert_of_gt hlast, ih _ _ _ hinc.of_cons
        (fun e' he' => hsized e' (mem_cons_of_mem _ he')) (fun e' he' _ => hgt e' he') ?_]
    · simp only [logBytes_cons, append_assoc, offsets, length_append, length_record,
        Nat.add_assoc, singleton_append]
    · intro k hk e' he'
      rcases mem_append.mp hk with hk | hk
      · exact hkeys k hk e' (mem_cons_of_mem _ he')
      · rw [mem_singleton.mp hk]
        exact hgt e' he'

theorem keys_index (h : Holds m s) : s.index.map Prod.fst = m.map fun e => e.index.toNat := by
  rw [h.index, keys_offsets]

theorem lastLogIndex_of_index (h : s.index = offsets 0 m) :
    s.lastLogIndex = m.getLast?.map fun e => e.index.toNat := by
  unfold lastLogIndex lastKey
  rw [← getLast?_map, h, keys_offsets, getLast?_map]

theorem lastLogIndex_eq (h : Holds m s) : s.lastLogIndex = m.getLast?.map fun e => e.index.toNat :=
  lastLogIndex_of_index h.index

theorem firstLogIndex_eq (h : Holds m s) : s.firstLogIndex = m.head?.map fun e => e.index.toNat := by
  unfold firstLogIndex firstKey
  rw [← head?_map, keys_index h, head?_map]

theorem lastLogTerm_eq (h : Holds m s) : s.lastLogTerm = m.getLast?.map LogEntry.term := by
  unfold lastLogTerm
  rw [← getLast?_map, h.index, terms_offsets, getLast?_map]

theorem entryCount_eq (h : Holds m s) : s.entryCount = m.length := by
  unfold entryCount
  rw [h.index, length_offsets]

/-- The last index is at least every other. -/
theorem le_lastLogIndex (h : Holds m s) (he : e ∈ m) : e.index.toNat ≤ s.lastLogIndex.getD 0 := by
  rw [lastLogIndex_eq h]
  obtain ⟨front, last, rfl⟩ := eq_nil_or_concat' m |>.resolve_left (ne_nil_of_mem he)
  rw [getLast?_concat]
  rcases mem_append.mp he with hfront | hlast
  · exact Nat.le_of_lt ((pairwise_append.mp h.increasing).2.2 e hfront last
      (mem_singleton_self _))
  · rw [mem_singleton.mp hlast]
    exact le_rfl

/-- The effect of an append of entries that go on behind the last one. -/
theorem append_eq (h : s.index = offsets 0 m) (hinc : Increasing (m ++ es)) (hsized : Sized es) :
    s.append es = (.ok (), ⟨s.file ++ logBytes es, s.index ++ offsets s.fileLen es,
      s.fileLen + (logBytes es).length⟩) := by
  obtain ⟨-, hes, hcross⟩ := pairwise_append.mp hinc
  have hprev : ∀ e ∈ es, s.lastLogIndex.getD 0 ≠ 0 → s.lastLogIndex.getD 0 < e.index.toNat := by
    intro e he hne
    rw [lastLogIndex_of_index h] at hne ⊢
    cases hlast : m.getLast? with
    | none =>
      rw [hlast] at hne
      exact absurd rfl hne
    | some last => exact hcross last (mem_of_getLast? hlast) e he
  have hkeys : ∀ k ∈ s.index, ∀ e ∈ es, k.1 < e.index.toNat := by
    intro k hk e he
    rw [h] at hk
    obtain ⟨e', he', hkey⟩ := mem_offsets hk
    rw [← hkey]
    exact hcross e' he' e he
  exact appendFrom_ok es _ _ s hes hsized hprev hkeys

/-- **Appending** keeps the records in step with the index. -/
theorem holds_append (h : Holds m s) (hinc : Increasing (m ++ es)) (hsized : Sized es) :
    (s.append es).1 = .ok () ∧ Holds (m ++ es) (s.append es).2 := by
  rw [append_eq h.index hinc hsized]
  refine ⟨rfl, ?_, ?_, ?_, hinc, ?_⟩
  · show s.file ++ logBytes es = _
    rw [h.file, logBytes_append]
  · show s.index ++ offsets s.fileLen es = _
    rw [h.index, h.fileLen, offsets_append, Nat.zero_add]
  · show s.fileLen + (logBytes es).length = _
    rw [h.fileLen, logBytes_append, length_append]
  · intro e he
    exact (mem_append.mp he).elim (h.sized e) (hsized e)

/-- **Reading** an entry of the log, -/
theorem read_of_mem (h : Holds m s) (he : e ∈ m) : s.read e.index = .ok e := by
  obtain ⟨front, rest, rfl⟩ := append_of_mem he
  have hsize : e.opBytes.length < 2 ^ 32 := h.sized e he
  have hdrop : s.file.drop (logBytes front).length = header e ++ (e.opBytes ++ logBytes rest) := by
    rw [h.file, logBytes_append, drop_left' rfl, logBytes_cons, record_eq, append_assoc]
  have hlen : s.file.length =
      (logBytes front).length + (headerLen + e.opBytes.length + (logBytes rest).length) := by
    rw [h.file, logBytes_append, length_append, logBytes_cons, length_append, length_record]
  have hheader : (s.file.drop (logBytes front).length).take headerLen = header e := by
    rw [hdrop, take_left' (length_header e)]
  have hpayload : (s.file.drop ((logBytes front).length + headerLen)).take e.opBytes.length =
      e.opBytes := by
    rw [← drop_drop, hdrop, drop_left' (length_header e), take_left' rfl]
  obtain ⟨hindex, hterm, hfield⟩ := leField_header hsize []
  rw [append_nil] at hindex hterm hfield
  unfold read
  rw [h.index, lookup_offsets h.increasing]
  dsimp only
  rw [hheader, hindex, hterm, hfield, if_neg (by omega), if_neg (not_not_intro rfl),
    if_neg (by omega), hpayload, UInt64.ofNat_toNat]

/-- and one that is not in it. -/
theorem read_of_absent (h : Holds m s) {i : UInt64} (hi : ∀ e ∈ m, e.index ≠ i) :
    s.read i = .error (.notFound i) := by
  have hnone : Lib.SortedMap.lookup i.toNat s.index = none := by
    rw [h.index]
    exact lookup_offsets_none fun e he heq => hi e he (UInt64.toNat_inj.mp heq)
  unfold read
  rw [hnone]

theorem readEach_entries (es : List LogEntry) (hes : ∀ e ∈ es, s.read e.index = .ok e) :
    s.readEach (es.map LogEntry.index) = .ok es := by
  induction es with
  | nil => rfl
  | cons e es ih =>
    rw [map_cons, readEach, hes e (mem_cons_self ..),
      ih fun e' he' => hes e' (mem_cons_of_mem _ he')]
    rfl

/-- The indexes in the store that pass a test, in order. -/
theorem indexes_filter (m : List LogEntry) (p : Nat → Bool) :
    ((m.map fun e => e.index.toNat).filter p).map UInt64.ofNat =
      (m.filter fun e => p e.index.toNat).map LogEntry.index := by
  rw [filter_map, map_map]
  refine map_congr_left fun e _ => ?_
  exact UInt64.ofNat_toNat

/-- **`read_range` returns the entries of the range**, where it returns. -/
theorem readRange_eq (h : Holds m s) (limit : Nat) (start last : UInt64) :
    s.readRange limit start last = (if last < start ∨ Reservable limit start last then
      some (.ok (m.filter fun e => start ≤ e.index ∧ e.index ≤ last)) else none) := by
  unfold readRange
  by_cases hempty : last < start
  · rw [if_pos hempty, if_pos (Or.inl hempty)]
    congr 2
    symm
    rw [filter_eq_nil_iff]
    intro e _ he
    rw [decide_eq_true_eq, UInt64.le_iff_toNat_le, UInt64.le_iff_toNat_le] at he
    rw [UInt64.lt_iff_toNat_lt] at hempty
    omega
  rw [if_neg hempty]
  by_cases hfits : Reservable limit start last
  · rw [if_pos hfits, if_pos (Or.inr hfits)]
    -- both are the ascending list of the stored indexes in the range
    have hindexes : (List.range' start.toNat (last.toNat + 1 - start.toNat)).filter
        (fun i => (Lib.SortedMap.lookup i s.index).isSome) =
        (m.map fun e => e.index.toNat).filter fun i => start.toNat ≤ i ∧ i ≤ last.toNat := by
      refine (List.Pairwise.filter _ pairwise_lt_range').eq_of_mem_iff
        (List.Pairwise.filter _ (pairwise_map.mpr h.increasing)) fun i => ?_
      have hstored : (Lib.SortedMap.lookup i s.index).isSome = true ↔
          i ∈ m.map fun e => e.index.toNat := by
        rw [← keys_index h, Option.isSome_iff_ne_none, Ne, lookup_eq_none, mem_map]
        push Not
        rfl
      rw [mem_filter, mem_filter, hstored, mem_range'_1, decide_eq_true_eq]
      constructor
      · rintro ⟨hrange, hmem⟩
        exact ⟨hmem, by omega, by omega⟩
      · rintro ⟨hmem, hlow, hhigh⟩
        exact ⟨by omega, hmem⟩
    rw [hindexes, indexes_filter, readEach_entries]
    · congr 2
    · intro e he
      exact read_of_mem h (mem_of_mem_filter he)
  · rw [if_neg hfits, if_neg (not_or_intro hempty hfits)]

/-- Every index between two stored ones is stored. -/
def NoGaps (m : List LogEntry) : Prop :=
  ∀ a ∈ m, ∀ b ∈ m, ∀ k, a.index.toNat ≤ k → k ≤ b.index.toNat → ∃ e ∈ m, e.index.toNat = k

theorem NoGaps.filter {p : Nat → Bool} (h : NoGaps m)
    (hp : ∀ a b k, p a = true → p b = true → a ≤ k → k ≤ b → p k = true) :
    NoGaps (m.filter fun e => p e.index.toNat) := by
  intro a ha b hb k hak hkb
  rw [mem_filter] at ha hb
  obtain ⟨e, he, rfl⟩ := h a ha.1 b hb.1 k hak hkb
  exact ⟨e, mem_filter.mpr ⟨he, hp _ _ _ ha.2 hb.2 hak hkb⟩, rfl⟩

theorem holds_filter_self (h : Holds m s) {p : LogEntry → Bool} (hp : ∀ e ∈ m, p e = true) :
    Holds (m.filter p) s := by
  rwa [filter_eq_self.mpr hp]

/-- The cut behind the entries of the front. -/
theorem holds_cutTo {front rest : List LogEntry} {k : Nat} (h : Holds (front ++ rest) s)
    (hfront : ∀ e ∈ front, e.index.toNat ≤ k) (hrest : ∀ e ∈ rest, k < e.index.toNat) :
    Holds ((front ++ rest).filter fun e => e.index.toNat ≤ k)
      (s.cutTo (logBytes front).length k) := by
  have hfilter : (front ++ rest).filter (fun e => e.index.toNat ≤ k) = front := by
    rw [filter_append, filter_eq_self.mpr fun e he => decide_eq_true (hfront e he),
      filter_eq_nil_iff.mpr fun e he => by
        rw [decide_eq_true_eq]
        exact Nat.not_le.mpr (hrest e he), append_nil]
  rw [hfilter]
  refine ⟨?_, ?_, rfl, (pairwise_append.mp h.increasing).1,
    fun e he => h.sized e (mem_append_left _ he)⟩
  · show Lib.resize 0 (logBytes front).length s.file = logBytes front
    rw [h.file, logBytes_append, Lib.resize, take_left' rfl, length_append,
      Nat.sub_eq_zero_of_le (Nat.le_add_right _ _), replicate_zero, append_nil]
  · show s.index.filter (fun e => e.1 ≤ k) = offsets 0 front
    rw [h.index, offsets_append, filter_append, filter_eq_self.mpr fun p hp => ?_,
      filter_eq_nil_iff.mpr fun p hp => ?_, append_nil]
    · obtain ⟨e, he, hkey⟩ := mem_offsets hp
      rw [decide_eq_true_eq, ← hkey]
      exact Nat.not_le.mpr (hrest e he)
    · obtain ⟨e, he, hkey⟩ := mem_offsets hp
      rw [← hkey]
      exact decide_eq_true (hfront e he)

/-- **Truncation** drops the entries above the last one kept. -/
theorem holds_truncateAfter (h : Holds m s) (hgaps : NoGaps m) (lastKept : UInt64) :
    (s.truncateAfter lastKept).1 = .ok () ∧
      Holds (m.filter fun e => e.index.toNat ≤ lastKept.toNat) (s.truncateAfter lastKept).2 := by
  by_cases hstored : ∃ e ∈ m, e.index = lastKept
  · -- the cut is behind the record of the last entry kept
    obtain ⟨e, he, rfl⟩ := hstored
    have hread := read_of_mem h he
    obtain ⟨front, rest, rfl⟩ := append_of_mem he
    have hcut : (logBytes front).length + headerLen + e.opBytes.length =
        (logBytes (front ++ [e])).length := by
      rw [logBytes_append, length_append, logBytes_cons, length_append, length_record]
      simp only [logBytes, flatMap_nil, length_nil]
      omega
    have hsplit : front ++ e :: rest = (front ++ [e]) ++ rest := by
      rw [append_assoc, singleton_append]
    have hlookup : Lib.SortedMap.lookup e.index.toNat s.index =
        some ((logBytes front).length, e.term) := by
      rw [h.index, lookup_offsets h.increasing]
    obtain ⟨-, htail, hcross⟩ := pairwise_append.mp h.increasing
    unfold truncateAfter
    rw [hlookup]
    rw [hread]
    dsimp only
    rw [hcut]
    rw [hsplit] at h ⊢
    refine ⟨rfl, holds_cutTo h (fun e' he' => ?_) fun e' he' => rel_of_pairwise_cons htail he'⟩
    rcases mem_append.mp he' with hfront | hlast
    · exact Nat.le_of_lt (hcross e' hfront e (mem_cons_self ..))
    · rw [mem_singleton.mp hlast]
  · have hnone : Lib.SortedMap.lookup lastKept.toNat s.index = none := by
      rw [h.index]
      exact lookup_offsets_none fun e he heq => hstored ⟨e, he, UInt64.toNat_inj.mp heq⟩
    unfold truncateAfter
    rw [hnone]
    by_cases hlast : s.lastLogIndex.getD 0 ≤ lastKept.toNat
    · rw [if_pos hlast]
      exact ⟨rfl, holds_filter_self h fun e he =>
        decide_eq_true ((le_lastLogIndex h he).trans hlast)⟩
    · -- some entry is above, and without gaps every entry is
      rw [if_neg hlast]
      have habove : ∀ e ∈ m, lastKept.toNat < e.index.toNat := by
        intro e he
        by_contra hle
        rw [lastLogIndex_eq h] at hlast
        cases hm : m.getLast? with
        | none => simp [getLast?_eq_none_iff.mp hm] at he
        | some last =>
          rw [hm] at hlast
          obtain ⟨e', he', hk⟩ := hgaps e he last (mem_of_getLast? hm) lastKept.toNat
            (Nat.not_lt.mp hle) (Nat.le_of_lt (Nat.not_le.mp hlast))
          exact hstored ⟨e', he', UInt64.toNat_inj.mp hk⟩
      have hnil : Holds ([] ++ m) s := h
      exact ⟨rfl, holds_cutTo hnil (fun e he => by cases he) habove⟩

/-- The copy that `purge_before` makes. -/
theorem holds_copyRecords (hinc : Increasing m) (hsized : Sized m) : Holds m (copyRecords m) := by
  have hfold : ∀ (m front : List LogEntry), Increasing (front ++ m) →
      m.foldl copyRecord ⟨logBytes front, offsets 0 front, (logBytes front).length⟩ =
        ⟨logBytes (front ++ m), offsets 0 (front ++ m), (logBytes (front ++ m)).length⟩ := by
    intro m
    induction m with
    | nil =>
      intro front _
      rw [append_nil]
      rfl
    | cons e m ih =>
      intro front hinc
      have hsnoc : front ++ e :: m = (front ++ [e]) ++ m := by
        rw [append_assoc, singleton_append]
      have hkeys : ∀ k ∈ offsets 0 front, k.1 < e.index.toNat := by
        intro k hk
        obtain ⟨e', he', hkey⟩ := mem_offsets hk
        rw [← hkey]
        exact (pairwise_append.mp hinc).2.2 e' he' e (mem_cons_self ..)
      have hone : logBytes (front ++ [e]) = logBytes front ++ record e := by
        rw [logBytes_append, logBytes_cons]
        simp only [logBytes, flatMap_nil, append_nil]
      rw [hsnoc] at hinc ⊢
      rw [← ih (front ++ [e]) hinc, foldl_cons, copyRecord, insert_of_gt hkeys, offsets_append,
        hone, length_append, length_record, Nat.zero_add]
      rfl
  have hcopy : copyRecords m = ⟨logBytes m, offsets 0 m, (logBytes m).length⟩ := hfold m [] hinc
  rw [hcopy]
  exact ⟨rfl, rfl, rfl, hinc, hsized⟩

/-- **A purge** drops the entries below the first one kept. -/
theorem holds_purgeBefore (h : Holds m s) (firstKept : UInt64) :
    (s.purgeBefore firstKept).1 = .ok () ∧
      Holds (m.filter fun e => firstKept.toNat ≤ e.index.toNat) (s.purgeBefore firstKept).2 := by
  have hkept : (s.index.filter fun e => firstKept.toNat ≤ e.1).map (fun e => UInt64.ofNat e.1) =
      (m.filter fun e => firstKept.toNat ≤ e.index.toNat).map LogEntry.index := by
    rw [← indexes_filter m fun i => firstKept.toNat ≤ i, ← keys_index h, filter_map, map_map]
    rfl
  unfold purgeBefore
  dsimp only
  rw [hkept, length_map]
  by_cases hall : (m.filter fun e => firstKept.toNat ≤ e.index.toNat).length = s.index.length
  · rw [if_pos hall]
    rw [h.index, length_offsets, length_filter_eq_length_iff] at hall
    exact ⟨rfl, holds_filter_self h hall⟩
  · rw [if_neg hall, readEach_entries _ fun e he => read_of_mem h (mem_of_mem_filter he)]
    exact ⟨rfl, holds_copyRecords (h.increasing.filter _)
      fun e he => h.sized e (mem_of_mem_filter he)⟩

end LogStore

/-! ## The finite map -/

/-- The operations on a log. -/
inductive LogOp where
  | append (entries : List LogEntry)
  | truncateAfter (lastKept : UInt64)
  | purgeBefore (firstKept : UInt64)
  | reopen

/-- What can be asked of a log. -/
inductive Query where
  | read (index : UInt64)
  | readRange (start last : UInt64)
  | firstLogIndex
  | lastLogIndex
  | lastLogTerm
  | entryCount

/-- An answer. -/
inductive Answer where
  | entry (e : Except LogError LogEntry)
  | entries (es : Except LogError (List LogEntry))
  | index (i : Option Nat)
  | term (t : Option UInt64)
  | count (n : Nat)

namespace LogStore

/-- One operation. -/
def step (op : LogOp) (s : LogStore) : Except LogError Unit × LogStore :=
  match op with
  | .append entries => s.append entries
  | .truncateAfter lastKept => s.truncateAfter lastKept
  | .purgeBefore firstKept => s.purgeBefore firstKept
  | .reopen => (.ok (), LogStore.open s.file)

/-- A sequence of operations, up to the first error. -/
def run : List LogOp → LogStore → Except LogError LogStore
  | [], s => .ok s
  | op :: ops, s =>
    match s.step op with
    | (.ok (), s') => run ops s'
    | (.error e, _) => .error e

/-- The answer of the store, or the end of the process. -/
def answer (limit : Nat) (q : Query) (s : LogStore) : Option Answer :=
  match q with
  | .read i => some (.entry (s.read i))
  | .readRange start last => (s.readRange limit start last).map Answer.entries
  | .firstLogIndex => some (.index s.firstLogIndex)
  | .lastLogIndex => some (.index s.lastLogIndex)
  | .lastLogTerm => some (.term s.lastLogTerm)
  | .entryCount => some (.count s.entryCount)

end LogStore

/-- A finite map from log indexes to entries, by ascending index. -/
abbrev EntryMap := List LogEntry

namespace EntryMap

/-- What an operation means. -/
def step (op : LogOp) (m : EntryMap) : EntryMap :=
  match op with
  | .append entries => m ++ entries
  | .truncateAfter lastKept => m.filter fun e => e.index.toNat ≤ lastKept.toNat
  | .purgeBefore firstKept => m.filter fun e => firstKept.toNat ≤ e.index.toNat
  | .reopen => m

/-- What a sequence of operations means. -/
def run (ops : List LogOp) (m : EntryMap) : EntryMap := ops.foldl (fun m op => step op m) m

/-- What a query asks for. -/
def answer (q : Query) (m : EntryMap) : Answer :=
  match q with
  | .read i => .entry (match m.find? fun e => e.index = i with
    | some e => .ok e
    | none => .error (.notFound i))
  | .readRange start last => .entries (.ok (m.filter fun e => start ≤ e.index ∧ e.index ≤ last))
  | .firstLogIndex => .index (m.head?.map fun e => e.index.toNat)
  | .lastLogIndex => .index (m.getLast?.map fun e => e.index.toNat)
  | .lastLogTerm => .term (m.getLast?.map LogEntry.term)
  | .entryCount => .count m.length

/-- Each entry has the index after the one before it. -/
def Contiguous (m : EntryMap) : Prop := m.IsChain fun a b => b.index.toNat = a.index.toNat + 1

instance (m : EntryMap) : Decidable (Contiguous m) := inferInstanceAs (Decidable (List.IsChain _ _))

/-- An append goes on where the map ends. -/
def Admits (m : EntryMap) : LogOp → Prop
  | .append es => Contiguous (m ++ es) ∧ Sized es
  | _ => True

instance (m : EntryMap) (op : LogOp) : Decidable (m.Admits op) :=
  match op with
  | .append _ => inferInstanceAs (Decidable (_ ∧ _))
  | .truncateAfter _ | .purgeBefore _ | .reopen => isTrue trivial

/-- Every append of a sequence does. -/
def Admissible : EntryMap → List LogOp → Prop
  | _, [] => True
  | m, op :: ops => m.Admits op ∧ Admissible (step op m) ops

end EntryMap

/-- A range that can be reserved, or another query. -/
def Query.Answerable (limit : Nat) : Query → Prop
  | .readRange start last => last < start ∨ LogStore.Reservable limit start last
  | _ => True

namespace EntryMap

variable {m es : EntryMap}

theorem Contiguous.increasing (h : Contiguous m) : Increasing m := by
  have hlt : m.IsChain fun a b => a.index.toNat < b.index.toNat :=
    h.imp fun a b hab => by omega
  have : IsTrans LogEntry fun a b => a.index.toNat < b.index.toNat := ⟨fun _ _ _ => Nat.lt_trans⟩
  exact isChain_iff_pairwise.mp hlt

theorem Contiguous.noGaps (h : Contiguous m) : LogStore.NoGaps m := by
  induction m with
  | nil => exact fun _ ha => by cases ha
  | cons x m ih =>
    have hinc := h.increasing
    have hgaps := ih h.tail
    intro a ha b hb k hak hkb
    by_cases hx : x.index.toNat = k
    · exact ⟨x, mem_cons_self .., hx⟩
    -- below `k` there is the head, and then its successor
    have hxk : x.index.toNat < k := by
      rcases mem_cons.mp ha with rfl | ha
      · omega
      · have := rel_of_pairwise_cons hinc ha
        omega
    have hbm : b ∈ m := by
      rcases mem_cons.mp hb with rfl | hb
      · omega
      · exact hb
    cases m with
    | nil => cases hbm
    | cons y m =>
      have hy : y.index.toNat = x.index.toNat + 1 := (isChain_cons_cons.mp h).1
      obtain ⟨e, he, hk⟩ := hgaps y (mem_cons_self ..) b hbm k (by omega) hkb
      exact ⟨e, mem_cons_of_mem _ he, hk⟩

/-- **One operation** on a store that holds the map. -/
theorem holds_step {op : LogOp} (h : Holds m s) (hgaps : LogStore.NoGaps m) (hop : m.Admits op) :
    (s.step op).1 = .ok () ∧ Holds (step op m) (s.step op).2 ∧ LogStore.NoGaps (step op m) := by
  cases op with
  | append es =>
    obtain ⟨hcont, hsized⟩ := hop
    obtain ⟨hok, hholds⟩ := LogStore.holds_append h hcont.increasing hsized
    exact ⟨hok, hholds, hcont.noGaps⟩
  | truncateAfter lastKept =>
    obtain ⟨hok, hholds⟩ := LogStore.holds_truncateAfter h hgaps lastKept
    refine ⟨hok, hholds, hgaps.filter (p := fun i => i ≤ lastKept.toNat) ?_⟩
    intro a b k _ hb _ hkb
    rw [decide_eq_true_eq] at hb ⊢
    omega
  | purgeBefore firstKept =>
    obtain ⟨hok, hholds⟩ := LogStore.holds_purgeBefore h firstKept
    refine ⟨hok, hholds, hgaps.filter (p := fun i => firstKept.toNat ≤ i) ?_⟩
    intro a b k ha _ hak _
    rw [decide_eq_true_eq] at ha ⊢
    omega
  | reopen =>
    refine ⟨rfl, ?_, hgaps⟩
    show Holds m (LogStore.open s.file)
    rw [h.file]
    exact LogStore.holds_open h.increasing h.sized

/-- **A run.** -/
theorem holds_run (ops : List LogOp) :
    ∀ {m : EntryMap} {s : LogStore}, Holds m s → LogStore.NoGaps m → Admissible m ops →
      ∃ s', s.run ops = .ok s' ∧ Holds (run ops m) s' := by
  induction ops with
  | nil => exact fun h _ _ => ⟨_, rfl, h⟩
  | cons op ops ih =>
    intro m s h hgaps hadm
    obtain ⟨hok, hholds, hgaps'⟩ := holds_step h hgaps hadm.1
    obtain ⟨s', hrun, hs'⟩ := ih hholds hgaps' hadm.2
    refine ⟨s', ?_, hs'⟩
    rw [LogStore.run, show s.step op = (.ok (), (s.step op).2) from Prod.ext hok rfl]
    exact hrun

/-- The queries on a store that holds the map. -/
theorem answer_holds (h : Holds m s) (limit : Nat) (q : Query) :
    s.answer limit q = some (answer q m) ↔ q.Answerable limit := by
  cases q with
  | read i =>
    refine iff_of_true ?_ trivial
    show some (Answer.entry (s.read i)) = some (Answer.entry _)
    congr 2
    cases hfind : m.find? fun e => e.index = i with
    | some e =>
      obtain rfl : e.index = i := by simpa using find?_some hfind
      exact LogStore.read_of_mem h (mem_of_find?_eq_some hfind)
    | none =>
      refine LogStore.read_of_absent h fun e he heq => ?_
      exact find?_eq_none.mp hfind e he (decide_eq_true heq)
  | readRange start last =>
    show (s.readRange limit start last).map Answer.entries = some (Answer.entries _) ↔ _
    rw [LogStore.readRange_eq h]
    by_cases hfits : last < start ∨ LogStore.Reservable limit start last
    · rw [if_pos hfits]
      exact iff_of_true rfl hfits
    · rw [if_neg hfits]
      exact iff_of_false (fun h => by cases h) hfits
  | firstLogIndex =>
    refine iff_of_true ?_ trivial
    show some (Answer.index s.firstLogIndex) = _
    rw [LogStore.firstLogIndex_eq h]
    rfl
  | lastLogIndex =>
    refine iff_of_true ?_ trivial
    show some (Answer.index s.lastLogIndex) = _
    rw [LogStore.lastLogIndex_eq h]
    rfl
  | lastLogTerm =>
    refine iff_of_true ?_ trivial
    show some (Answer.term s.lastLogTerm) = _
    rw [LogStore.lastLogTerm_eq h]
    rfl
  | entryCount =>
    refine iff_of_true ?_ trivial
    show some (Answer.count s.entryCount) = _
    rw [LogStore.entryCount_eq h]
    rfl

theorem holds_nil : Holds [] (LogStore.open []) :=
  LogStore.holds_open List.Pairwise.nil fun _ h => by cases h

/-- **The log store is a finite map.** Along every sequence of operations whose appends go on where the
log ends, every operation succeeds and every query answers as on the map, except for ranges too wide to
reserve on this machine. -/
theorem answer_iff (limit : Nat) (ops : List LogOp) (hops : Admissible [] ops) :
    ∃ s, (LogStore.open []).run ops = .ok s ∧
      ∀ q : Query, s.answer limit q = some (answer q (run ops [])) ↔ q.Answerable limit := by
  obtain ⟨s, hrun, hholds⟩ := holds_run ops holds_nil (fun _ h => by cases h) hops
  exact ⟨s, hrun, answer_holds hholds limit⟩

/-- A run with every operation. -/
def sampleOps : List LogOp :=
  [.append [⟨0, 1, [1]⟩, ⟨1, 1, []⟩, ⟨2, 2, [2, 3]⟩], .truncateAfter 1, .append [⟨2, 3, [4]⟩],
    .purgeBefore 1, .reopen]

/-- On a machine with 4 GiB. -/
theorem answer_iff_sample : Admissible [] sampleOps ∧
      ((LogStore.open []).run sampleOps).toOption.map (fun s => s.entryCount) = some 2 ∧
      ∃ s, (LogStore.open []).run sampleOps = .ok s ∧
        s.answer (2 ^ 32) (.readRange 0 2) = some (.entries (.ok [⟨1, 1, []⟩, ⟨2, 3, [4]⟩])) := by
  have hadm : Admissible [] sampleOps := by
    exact ⟨by decide, trivial, by decide, trivial, trivial, trivial⟩
  obtain ⟨s, hrun, hanswer⟩ := answer_iff (2 ^ 32) sampleOps hadm
  exact ⟨hadm, by decide +kernel, s, hrun, (hanswer (.readRange 0 2)).mpr (Or.inr (by decide))⟩

/-- One entry, at the index 2^62: the range up to it is reserved on no machine. -/
theorem range_panics : Admissible [] [.append [⟨2 ^ 62, 1, []⟩]] ∧
      ((LogStore.open []).append [⟨2 ^ 62, 1, []⟩]).1 = .ok () ∧
      ((LogStore.open []).append [⟨2 ^ 62, 1, []⟩]).2.lastLogIndex = some (2 ^ 62) ∧
      ∀ limit, ((LogStore.open []).append [⟨2 ^ 62, 1, []⟩]).2.readRange limit 0 (2 ^ 62) = none := by
  refine ⟨⟨⟨by decide, by decide⟩, trivial⟩, by decide +kernel, by decide +kernel, fun limit => ?_⟩
  have hwide : ¬ LogStore.Reservable limit 0 (2 ^ 62) := fun h => absurd h.1 (by decide +kernel)
  rw [LogStore.readRange, if_neg (by decide +kernel), if_neg hwide]

end EntryMap

end Abixio.Raft
