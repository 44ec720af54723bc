import Abixio.Raft.LogAdapter
import Abixio.Raft.Snapshots

/-!
# Restarting a raft node

`AbixioRaft::open` (`src/raft/runtime.rs:29-62`) opens the log, the vote and the snapshot store of a directory
and starts with a new state machine: `AbixioFsmAdapter::new` (`src/raft/adapter/fsm.rs:45-59`) has no last
applied id and does not look at the snapshot files. openraft then applies the entries of the log after the
last applied id, which are all that are left in it.

`Node` is what a node has: the log, the state machine with its ids, and the snapshot files. Its history are
batches of committed entries (appended, then applied), builds, installed snapshots and purges of the log.

Result: `recovers`. A node whose log has lost nothing, by a purge or by an installed snapshot, recovers the
state it had, if the entries read back. `purged_entry_lost` is the history that a snapshot is for.
-/

namespace Abixio.Raft

open List

/-- A raft node and its directory. -/
structure Node where
  log : LogStore
  applied : Applied
  store : SnapshotStore

/-- The events of a node. -/
inductive NodeEvent where
  | commit (entries : List Entry)
  | build
  | install (snap : Snapshot)
  | purge (id : LogId)

namespace Node

/-- `AbixioRaft::open` over the files of a directory. -/
def «open» (file : Bytes) (store : SnapshotStore) : Node := ⟨LogStore.open file, Applied.new, store⟩

/-- One event. -/
def step (levels : Nat) (n : Node) : NodeEvent → Node
  | .commit entries => { n with
      log := (n.log.append (entries.map toRaw)).2
      applied := (n.applied.apply entries).2 }
  | .build => { n with
      store := n.store.store n.applied.fsm.appliedIndex
        ((n.applied.lastApplied.map fun l => l.leaderId.term).getD 0) n.applied.fsm.state }
  | .install snap => { n with applied := (n.applied.install levels snap).getD n.applied }
  | .purge id => { n with log := (n.log.purgeBefore (saturatingSucc id.index)).2 }

/-- A history, from an empty directory. -/
def run (levels : Nat) (events : List NodeEvent) : Node := events.foldl (step levels) (Node.open [] [])

/-- A crash, and a start on the same directory. -/
def restart (n : Node) : Node := Node.open n.log.file n.store

/-- The range of the log behind the last applied id. -/
def behind : Option LogId → Bound
  | none => .unbounded
  | some id => .excluded id.index

/-- The entries that are applied at the start, or an error, or the end of the process where the allocator
does not serve the range. -/
def remaining (limit : Nat) (n : Node) : Option (Except AdapterError (List Entry)) :=
  n.log.tryGetLogEntries limit (behind n.applied.lastApplied) .unbounded

/-- **A restarted node recovers**: the entries that remain read back and can be applied, they include every
entry applied before, and the state machine is as it was. -/
structure Recovers (limit : Nat) (history : List Entry) (n : Node) : Prop where
  recovered : ∃ es, n.restart.remaining limit = some (.ok es) ∧
    (n.restart.applied.apply es).1 = .ok (es.map fun e => ⟨e.logId.index⟩) ∧
    (n.restart.applied.apply es).2 = n.applied ∧ ∀ e ∈ history, e ∈ es

/-- The committed entries of a history. -/
def history (events : List NodeEvent) : List Entry :=
  events.flatMap fun
    | .commit entries => entries
    | _ => []

/-- openraft's part, after the entries `es`: a batch goes on in the log and can be applied. -/
def Admits (es : List Entry) : NodeEvent → Prop
  | .commit entries => RaftLog.Admits ⟨es, none⟩ (.append entries) ∧
      Applied.AllApplicable (replay es) entries
  | _ => True

/-- **The condition on an event**: no batch sets bucket settings, no snapshot is installed, and a purge finds
nothing to remove. -/
def Keeps (es : List Entry) : NodeEvent → Prop
  | .commit entries => ∀ e ∈ entries, ¬ Bincode.EntrySetsSettings e
  | .build => True
  | .install _ => False
  | .purge id => ∀ e ∈ es, id.index < e.logId.index

/-- Every event is admitted and meets the condition, after the entries `es`. -/
def Kept : List Entry → List NodeEvent → Prop
  | _, [] => True
  | es, ev :: events => Admits es ev ∧ Keeps es ev ∧ Kept (es ++ history [ev]) events

/-- The node has the entries `es` in its log, and has applied them. -/
structure Holds (es : List Entry) (n : Node) : Prop where
  log : Raft.Holds (es.map toRaw) n.log
  gaps : LogStore.NoGaps (es.map toRaw)
  sized : ∀ e ∈ es, Bincode.SizedPayload e.payload
  applied : n.applied = replay es
  applicable : Applied.AllApplicable Applied.new es
  readable : ∀ e ∈ es, ¬ Bincode.EntrySetsSettings e

theorem holds_open : Holds [] (Node.open [] []) where
  log := EntryMap.holds_nil
  gaps := fun _ h => nomatch h
  sized := fun _ h => nomatch h
  applied := rfl
  applicable := trivial
  readable := fun _ h => nomatch h

variable {levels : Nat} {es : List Entry} {n : Node}

/-- **One event.** -/
theorem holds_step (h : Holds es n) {ev : NodeEvent} (hadmits : Admits es ev) (hkeeps : Keeps es ev) :
    Holds (es ++ history [ev]) (n.step levels ev) := by
  cases ev with
  | commit entries =>
    have hlog : _ ∧ Raft.Holds _ (n.log.call 0 (.append entries)).2 :=
      (RaftLog.call_iff (m := ⟨es, none⟩) h.log h.gaps h.sized hadmits.1).2 trivial
    have hkept := RaftLog.call_keeps (m := ⟨es, none⟩) h.gaps h.sized hadmits.1
    have happly : n.applied.apply entries = _ := Applied.apply_ok entries (h.applied ▸ hadmits.2)
    show Holds (es ++ (entries ++ [])) _
    rw [append_nil]
    refine ⟨hlog.2, hkept.1, hkept.2, ?_, ?_, ?_⟩
    · show (n.applied.apply entries).2 = replay (es ++ entries)
      rw [happly, h.applied, replay, replay, foldl_append]
    · exact (Applied.allApplicable_append es).2 ⟨h.applicable, hadmits.2⟩
    · intro e he
      rcases mem_append.1 he with he | he
      · exact h.readable e he
      · exact hkeeps e he
  | build =>
    show Holds (es ++ []) _
    rw [append_nil]
    exact ⟨h.log, h.gaps, h.sized, h.applied, h.applicable, h.readable⟩
  | install snap => exact hkeeps.elim
  | purge id =>
    show Holds (es ++ []) _
    rw [append_nil]
    have hmeets : RaftLog.Meets 0 ⟨es, none⟩ (.purge id) := by
      intro hmax e he _
      have hlt := hkeeps e he
      rw [hmax] at hlt
      exact RaftLog.not_u64Max_lt _ hlt
    have hlog := (RaftLog.purge_iff (m := ⟨es, none⟩) h.log id).2 hmeets
    have hall : es.filter (fun e => id.index < e.logId.index) = es :=
      filter_eq_self.2 fun e he => decide_eq_true (hkeeps e he)
    refine ⟨?_, h.gaps, h.sized, h.applied, h.applicable, h.readable⟩
    have hholds : Raft.Holds ((es.filter fun e => id.index < e.logId.index).map toRaw)
        (n.log.call 0 (.purge id)).2 := hlog.2
    rw [hall] at hholds
    exact hholds

/-- **A history.** -/
theorem holds_run (events : List NodeEvent) : ∀ {es : List Entry} {n : Node}, Holds es n → Kept es events →
    Holds (es ++ history events) (events.foldl (step levels) n) := by
  induction events with
  | nil =>
    intro es n h _
    rw [show history [] = [] from rfl, append_nil]
    exact h
  | cons ev events ih =>
    intro es n h hkept
    have hstep : Holds (es ++ history [ev] ++ history events)
        (events.foldl (step levels) (n.step levels ev)) :=
      ih (holds_step h hkept.1 hkept.2.1) hkept.2.2
    rw [append_assoc] at hstep
    have hhistory : history (ev :: events) = history [ev] ++ history events := by
      unfold history
      rw [flatMap_cons, flatMap_cons, flatMap_nil, append_nil]
    rw [hhistory]
    exact hstep

/-- **A restarted node recovers its state** after every history that kept its log: no batch sets bucket
settings, no snapshot is installed, no purge removes an entry, and the log can be read in one range. -/
theorem recovers (limit levels : Nat) (events : List NodeEvent) (hkept : Kept [] events)
    (hwidth : LogStore.Reservable limit 0 (RaftLog.effectiveEnd ⟨history events, none⟩ .unbounded)) :
    Recovers limit (history events) (run levels events) := by
  have h : Holds (history events) (run levels events) := holds_run events holds_open hkept
  have hreopened : Raft.Holds ((history events).map toRaw) (LogStore.open (run levels events).log.file) := by
    rw [h.log.file]
    exact LogStore.holds_open h.log.increasing h.log.sized
  have hmeets : RaftLog.Meets limit ⟨history events, none⟩ (.tryGetLogEntries .unbounded .unbounded) := by
    refine ⟨?_, fun _ => hwidth, fun e he _ => h.readable e he⟩
    rintro e _ (⟨hbound, -, -⟩ | ⟨hbound, -, -⟩)
    · cases hbound
    · cases hbound
  have hread := (RaftLog.tryGetLogEntries_iff (m := ⟨history events, none⟩) hreopened h.sized
    .unbounded .unbounded).2 hmeets
  have hall : (history events).filter (fun e => InRange .unbounded .unbounded e.logId.index) =
      history events := filter_eq_self.2 fun e _ => decide_eq_true ⟨trivial, trivial⟩
  have happly : Applied.new.apply (history events) = _ := Applied.apply_ok _ h.applicable
  refine ⟨history events, ?_, ?_, ?_, fun e he => he⟩
  · rw [hall] at hread
    exact hread
  · show (Applied.new.apply (history events)).1 = _
    rw [happly]
  · show (Applied.new.apply (history events)).2 = _
    rw [happly, h.applied]
    rfl

/-- One entry, a build and a purge below the log. -/
theorem recovers_build : Kept [] [.commit [System.addEntry 1 "a"], .build, .purge ⟨⟨1, 1⟩, 0⟩] ∧
      Recovers (2 ^ 32) [System.addEntry 1 "a"]
        (run 1023 [.commit [System.addEntry 1 "a"], .build, .purge ⟨⟨1, 1⟩, 0⟩]) := by
  have hkept : Kept [] [.commit [System.addEntry 1 "a"], .build, .purge ⟨⟨1, 1⟩, 0⟩] := by
    refine ⟨⟨⟨by decide, by decide +kernel, ?_⟩, ?_, trivial⟩, ?_, trivial, trivial, trivial, ?_, trivial⟩
    · intro e he
      rw [mem_singleton] at he
      subst he
      exact ⟨show (1 : Nat) < 256 ^ 8 by decide, show (0 : Nat) < 256 ^ 8 by decide,
        show (0 : Nat) < 256 ^ 8 by decide, trivial, trivial⟩
    · intro op hop
      cases hop
      trivial
    · intro e he
      rw [mem_singleton] at he
      subst he
      rintro ⟨op, hop, hsets⟩
      cases hop
      exact hsets
    · intro e he
      have he' : e ∈ [System.addEntry 1 "a"] := he
      rw [mem_singleton] at he'
      subst he'
      decide
  exact ⟨hkept, recovers (2 ^ 32) 1023 _ hkept (by decide)⟩

/-- An entry, a build, and the purge that the build allows. -/
def purgedHistory : List NodeEvent :=
  [.commit [System.addEntry 1 "a"], .build, .purge ⟨⟨1, 1⟩, 1⟩]

/-- The entry is in the snapshot of the directory and no longer in the log: the restarted node has an empty
membership table. -/
theorem purged_entry_lost : ¬ Recovers (2 ^ 32) (history purgedHistory) (run 1023 purgedHistory) ∧
      (run 1023 purgedHistory).applied.fsm.state.members.map Prod.fst = ["a"] ∧
      (run 1023 purgedHistory).store.length = 1 ∧
      (run 1023 purgedHistory).restart.remaining (2 ^ 32) = some (.ok []) ∧
      (run 1023 purgedHistory).restart.applied = Applied.new := by
  have hremaining : (run 1023 purgedHistory).restart.remaining (2 ^ 32) = some (.ok []) := by decide +kernel
  refine ⟨?_, by decide +kernel, by decide +kernel, hremaining, rfl⟩
  rintro ⟨es, hes, -, -, hall⟩
  obtain rfl : [] = es := Except.ok.inj (Option.some.inj (hremaining.symm.trans hes))
  exact nomatch hall (System.addEntry 1 "a") (mem_singleton_self _)

end Node

end Abixio.Raft
