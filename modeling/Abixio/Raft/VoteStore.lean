import Abixio.Lib.Decimal
import Abixio.Raft.Fsm
import Abixio.Storage.Needle

/-!
# The persisted vote

Model of `VoteStore` (`src/raft/storage/meta.rs`) and of `save_vote` and `read_vote` of the log adapter
(`src/raft/adapter/log.rs:126-152`).

* openraft's `Vote` has a leader id (term and node) and a flag for a granted leadership. The stored
  `Vote` has the term and the decimal text of the node. `read_vote` makes a vote with `Vote::new`, whose
  flag is false.
* `serde_json` is a parameter (`VoteFormat`): it reads back what it wrote of a vote whose name has digits
  only. `prettyFormat` is such a format, with the text that `to_vec_pretty` writes.
* `save` writes a temporary file, syncs it and renames it. It does not sync the directory, although its
  comment says so: after a power loss the entry can be that of an earlier rename. `unsynced` has the
  contents that can come back.

Result: `vote_kept_iff`. What is read is the last saved vote exactly if that vote is not committed and a
crash has not lost its rename.
-/

namespace Abixio.Raft

/-- openraft's `Vote`. -/
structure Vote where
  leaderId : LeaderId
  committed : Bool
  deriving DecidableEq

/-- `Vote::new`. -/
def Vote.new (term nodeId : UInt64) : Vote := ⟨⟨term, nodeId⟩, false⟩

/-- `Vote` of the store. -/
structure VoteData where
  term : UInt64
  votedFor : String
  deriving DecidableEq

/-- `VoteData::default`. -/
def VoteData.default : VoteData := ⟨0, ""⟩

/-- `serde_json` for a `VoteData`. -/
structure VoteFormat where
  toVecPretty : VoteData → Bytes
  fromSlice : Bytes → Option VoteData
  fromSlice_toVecPretty : ∀ v : VoteData, (∀ c ∈ v.votedFor.toList, c.isDigit = true) →
    fromSlice (toVecPretty v) = some v

/-- `VoteStore`, as its directory is. -/
structure VoteStore where
  /-- `vote.json`. -/
  file : Option Bytes
  /-- `vote.json.tmp`. -/
  tmp : Option Bytes
  /-- What `vote.json` was before each rename since the last start, the latest first. -/
  unsynced : List (Option Bytes)

namespace VoteStore

/-- An empty directory. -/
def empty : VoteStore := ⟨none, none, []⟩

/-- `VoteStore::save`, after the bytes were written to the temporary file. -/
def save (bytes : Bytes) (s : VoteStore) : VoteStore := ⟨some bytes, none, s.file :: s.unsynced⟩

/-- `VoteStore::load`. `none` is a parse error. -/
def load (fmt : VoteFormat) (s : VoteStore) : Option VoteData :=
  match s.file with
  | some bytes => fmt.fromSlice bytes
  | none => some VoteData.default

/-- `save_vote`. -/
def saveVote (fmt : VoteFormat) (v : Vote) (s : VoteStore) : VoteStore :=
  s.save (fmt.toVecPretty ⟨v.leaderId.term, Lib.decimal v.leaderId.nodeId.toNat⟩)

/-- `read_vote`. The outer `none` is an error. -/
def readVote (fmt : VoteFormat) (s : VoteStore) : Option (Option Vote) :=
  (s.load fmt).map fun (data : VoteData) =>
    if data.term = 0 ∧ data.votedFor = "" then none
    else
      match Lib.parseDecimal (2 ^ 64) data.votedFor with
      | some n => some (Vote.new data.term (UInt64.ofNat n))
      | none => none

/-- The process or the machine stops, and the store is opened again. A save that was under way leaves
what it has `written` of the temporary file, if it got so far. The last `lost` renames are not on disk. -/
def crash (written : Option Bytes) (lost : Nat) (s : VoteStore) : VoteStore :=
  ⟨((s.unsynced.take lost).getLast?).getD s.file, written.or s.tmp, []⟩

end VoteStore

/-- What happens to a vote store. -/
inductive VoteEvent where
  | save (v : Vote)
  | crash (written : Option Bytes) (lost : Nat)

/-- One event. -/
def VoteStore.step (fmt : VoteFormat) (s : VoteStore) : VoteEvent → VoteStore
  | .save v => s.saveVote fmt v
  | .crash written lost => s.crash written lost

/-- A history, from an empty directory. -/
def VoteStore.run (fmt : VoteFormat) (es : List VoteEvent) : VoteStore := es.foldl (step fmt) empty

/-! ## What is saved and what is kept -/

/-- The votes of a history: the last saved one, the one on disk, and those before each rename. -/
structure Votes where
  last : Option Vote
  onDisk : Option Vote
  older : List (Option Vote)

/-- One event. -/
def Votes.step (s : Votes) : VoteEvent → Votes
  | .save v => ⟨some v, some v, s.onDisk :: s.older⟩
  | .crash _ lost => ⟨s.last, ((s.older.take lost).getLast?).getD s.onDisk, []⟩

/-- A history. -/
def Votes.run (es : List VoteEvent) : Votes := es.foldl Votes.step ⟨none, none, []⟩

/-- The bytes of a vote. -/
def VoteFormat.bytes (fmt : VoteFormat) (v : Vote) : Bytes :=
  fmt.toVecPretty ⟨v.leaderId.term, Lib.decimal v.leaderId.nodeId.toNat⟩

variable {fmt : VoteFormat}

/-- The directory has the votes of the history. -/
structure VoteStore.Holds (fmt : VoteFormat) (vs : Votes) (s : VoteStore) : Prop where
  file : s.file = vs.onDisk.map fmt.bytes
  unsynced : s.unsynced = vs.older.map fun v => v.map fmt.bytes
  /-- Without a saved vote there is none to come back. -/
  saved : vs.last = none → vs.onDisk = none ∧ ∀ v ∈ vs.older, v = none

theorem VoteStore.Holds.step {vs : Votes} {s : VoteStore} (h : s.Holds fmt vs) (e : VoteEvent) :
    (s.step fmt e).Holds fmt (vs.step e) := by
  cases e with
  | save v =>
    refine ⟨rfl, ?_, nofun⟩
    show s.file :: s.unsynced = _
    rw [h.file, h.unsynced]
    rfl
  | crash written lost =>
    refine ⟨?_, rfl, fun hlast => ⟨?_, nofun⟩⟩
    · show ((s.unsynced.take lost).getLast?).getD s.file = _
      rw [h.file, h.unsynced, ← List.map_take, List.getLast?_map]
      show _ = (((vs.older.take lost).getLast?).getD vs.onDisk).map fmt.bytes
      cases (vs.older.take lost).getLast? <;> rfl
    · obtain ⟨hdisk, holder⟩ := h.saved hlast
      show ((vs.older.take lost).getLast?).getD vs.onDisk = none
      cases hold : (vs.older.take lost).getLast? with
      | none => exact hdisk
      | some v => exact holder v (List.mem_of_mem_take (List.mem_of_getLast? hold))

/-- **Along a history** the directory has its votes. -/
theorem VoteStore.holds_run (fmt : VoteFormat) (es : List VoteEvent) :
    (VoteStore.run fmt es).Holds fmt (Votes.run es) := by
  induction es using List.reverseRecOn with
  | nil => exact ⟨rfl, rfl, fun _ => ⟨rfl, nofun⟩⟩
  | append_singleton es e ih =>
    unfold VoteStore.run Votes.run at ih ⊢
    rw [List.foldl_concat, List.foldl_concat]
    exact ih.step e

theorem decimal_ne_empty (n : Nat) : Lib.decimal n ≠ "" := by
  intro h
  have hlist := congrArg String.toList h
  rw [Lib.decimal, String.toList_ofList] at hlist
  exact Nat.toDigits_ne_nil hlist

/-- **What is read**: the vote on disk, without its flag. -/
theorem VoteStore.readVote_eq {vs : Votes} {s : VoteStore} (h : s.Holds fmt vs) :
    s.readVote fmt = some (vs.onDisk.map fun v => Vote.new v.leaderId.term v.leaderId.nodeId) := by
  unfold VoteStore.readVote VoteStore.load
  rw [h.file]
  cases vs.onDisk with
  | none => rfl
  | some v =>
    have hparse : fmt.fromSlice (fmt.bytes v) =
        some ⟨v.leaderId.term, Lib.decimal v.leaderId.nodeId.toNat⟩ :=
      fmt.fromSlice_toVecPretty _ fun _ hc => Lib.isDigit_of_mem_decimal hc
    rw [Option.map_some]
    dsimp only
    rw [hparse, Option.map_some, if_neg fun hempty => decimal_ne_empty _ hempty.2,
      Lib.parseDecimal_decimal v.leaderId.nodeId.toNat_lt]
    dsimp only
    rw [UInt64.ofNat_toNat]
    rfl

/-- **The vote that is read** is the last saved one exactly if that one is not committed and no crash has
lost its rename. -/
theorem vote_kept_iff (fmt : VoteFormat) (es : List VoteEvent) :
    (VoteStore.run fmt es).readVote fmt = some (Votes.run es).last ↔
      ∀ v, (Votes.run es).last = some v →
        v.committed = false ∧ (Votes.run es).onDisk.map Vote.leaderId = some v.leaderId := by
  have hholds := VoteStore.holds_run fmt es
  rw [VoteStore.readVote_eq hholds, Option.some_inj]
  generalize Votes.run es = vs at hholds ⊢
  cases hlast : vs.last with
  | none =>
    rw [(hholds.saved hlast).1]
    exact iff_of_true rfl nofun
  | some v =>
    constructor
    · intro h w hw
      obtain rfl := Option.some.inj hw
      obtain ⟨w, hdisk, rfl⟩ := Option.map_eq_some_iff.1 h
      rw [hdisk]
      exact ⟨rfl, rfl⟩
    · intro h
      obtain ⟨hcommitted, hdisk⟩ := h v rfl
      obtain ⟨w, hw, hleader⟩ := Option.map_eq_some_iff.1 hdisk
      obtain ⟨leaderId, committed⟩ := v
      obtain rfl : committed = false := hcommitted
      obtain rfl : w.leaderId = leaderId := hleader
      rw [hw]
      rfl

/-! ## A format, and a committed vote -/

/-- `to_vec_pretty`, for a name without characters to escape. -/
def prettyText (v : VoteData) : String :=
  "\x7b\n  \"term\": " ++ Lib.decimal v.term.toNat ++ ",\n  \"voted_for\": \"" ++ v.votedFor ++ "\"\n\x7d"

/-- The rest behind a literal. -/
def stripText (lit : String) (cs : List Char) : Option (List Char) :=
  if cs.take lit.toList.length = lit.toList then some (cs.drop lit.toList.length) else none

/-- Reads the layout of `prettyText`. -/
def readPretty (cs : List Char) : Option VoteData :=
  (stripText "\x7b\n  \"term\": " cs).bind fun cs =>
  (stripText ",\n  \"voted_for\": \"" (cs.dropWhile Char.isDigit)).bind fun name =>
  if name.dropWhile (fun c => c ≠ '"') = "\"\n\x7d".toList then
    some ⟨UInt64.ofNat (Nat.ofDigitChars 10 (cs.takeWhile Char.isDigit) 0),
      String.ofList (name.takeWhile fun c => c ≠ '"')⟩
  else none

theorem stripText_append (lit : String) (cs : List Char) : stripText lit (lit.toList ++ cs) = some cs := by
  unfold stripText
  rw [List.take_left, List.drop_left, if_pos rfl]

theorem readPretty_prettyText {v : VoteData} (h : ∀ c ∈ v.votedFor.toList, c.isDigit = true) :
    readPretty (prettyText v).toList = some v := by
  have hterm : ∀ c ∈ (Lib.decimal v.term.toNat).toList, c.isDigit = true := fun c =>
    Lib.isDigit_of_mem_decimal
  have hname : ∀ c ∈ v.votedFor.toList, decide (c ≠ '"') = true := by
    intro c hc
    have hdigit := h c hc
    rw [decide_eq_true_iff]
    rintro rfl
    cases hdigit
  unfold readPretty prettyText
  simp only [String.toList_append, List.append_assoc, stripText_append, Option.bind_some]
  rw [List.dropWhile_append_of_pos hterm, List.takeWhile_append_of_pos hterm]
  have hcomma : ∀ rest, List.dropWhile Char.isDigit (",\n  \"voted_for\": \"".toList ++ rest) =
      ",\n  \"voted_for\": \"".toList ++ rest := fun _ => rfl
  have hcomma' : ∀ rest, List.takeWhile Char.isDigit (",\n  \"voted_for\": \"".toList ++ rest) = [] :=
    fun _ => rfl
  rw [hcomma, hcomma', stripText_append, Option.bind_some, List.dropWhile_append_of_pos hname,
    List.takeWhile_append_of_pos hname]
  have hquote : List.dropWhile (fun c => decide (c ≠ '"')) "\"\n\x7d".toList = "\"\n\x7d".toList := rfl
  have hquote' : List.takeWhile (fun c => decide (c ≠ '"')) "\"\n\x7d".toList = [] := rfl
  have hvalue : Nat.ofDigitChars 10 (Lib.decimal v.term.toNat).toList 0 = v.term.toNat := by
    rw [Lib.decimal, String.toList_ofList, Nat.ofDigitChars_ten_toDigits]
  rw [hquote, hquote', if_pos rfl, List.append_nil, List.append_nil, hvalue, UInt64.ofNat_toNat,
    String.ofList_toList]

/-- The format of the files. -/
def prettyFormat : VoteFormat where
  toVecPretty v := utf8 (prettyText v)
  fromSlice bytes := (fromUtf8 bytes).bind fun s => readPretty s.toList
  fromSlice_toVecPretty v h := by
    rw [fromUtf8_utf8, Option.bind_some, readPretty_prettyText h]

/-- A committed vote loses its flag, without any crash. -/
theorem committed_vote_lost :
    (VoteStore.run prettyFormat [.save ⟨⟨3, 1⟩, true⟩]).readVote prettyFormat = some (some ⟨⟨3, 1⟩, false⟩) ∧
      (Votes.run [.save ⟨⟨3, 1⟩, true⟩]).last = some ⟨⟨3, 1⟩, true⟩ :=
  ⟨VoteStore.readVote_eq (VoteStore.holds_run prettyFormat [.save ⟨⟨3, 1⟩, true⟩]), rfl⟩

end Abixio.Raft
