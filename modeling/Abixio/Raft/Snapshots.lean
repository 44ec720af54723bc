import Abixio.Lib.Decimal
import Abixio.Raft.Codec

/-!
# Snapshots of the state machine

Model of the snapshot store (`src/raft/storage/snapshot.rs`) and of `build_snapshot`, `install_snapshot` and
`get_current_snapshot` of the FSM adapter (`src/raft/adapter/fsm.rs:65-197`).

* The tables, the applied index, the last applied id and the membership are each behind a lock of their
  own. openraft's worker calls `apply`, `install_snapshot` and `get_current_snapshot` one after the other;
  a call writes one of them at a time (`Write`). A snapshot builder is a clone of the adapter that runs in
  a task of its own: it reads the four one after the other, between any two writes (`Builder`).
* A snapshot file is named by the applied index. Its header reads back always, so a file is its fields and
  the message of the state. The time of creation is left out: nothing reads it.
* `get_current_snapshot` takes the state of the newest file and the id and membership of now.

Result: `snapshots_faithful`. In every run in which builders read undisturbed, `get_current_snapshot` is
called while the newest file has the current state, and the settings of the buckets are storable, every
snapshot that is returned has the state and the membership of its log id, and can be installed.
-/

namespace Abixio.Raft

/-- `SnapshotBody`. -/
structure SnapshotBody where
  state : State
  lastApplied : Option LogId
  lastMembership : StoredMembership

/-! ## The encoding of a body -/

namespace Msgpack

open Lib.Msg (Form)
open Lib.Msg.Form (option seq assoc)

/-- `CommittedLeaderId`. -/
def leaderId : Form LeaderId :=
  (Form.record (.cons word (.cons word .nil))).equiv
    { toFun := fun f => ⟨f.1, f.2.1⟩
      invFun := fun id => (id.term, id.nodeId, ()) }

/-- `LogId`. -/
def logId : Form LogId :=
  (Form.record (.cons leaderId (.cons word .nil))).equiv
    { toFun := fun f => ⟨f.1, f.2.1⟩
      invFun := fun id => (id.leaderId, id.index, ()) }

/-- `AbixioNode`. -/
def abixioNode : Form AbixioNode :=
  (Form.record (.cons Form.str (.cons Form.str (.cons voterKind .nil)))).equiv
    { toFun := fun f => ⟨f.1, f.2.1, f.2.2.1⟩
      invFun := fun n => (n.advertiseS3, n.advertiseCluster, n.voterKind, ()) }

/-- `Membership`. -/
def membership : Form Membership :=
  (Form.record (.cons (seq (seq word)) (.cons (assoc word abixioNode) .nil))).equiv
    { toFun := fun f => ⟨f.1, f.2.1⟩
      invFun := fun m => (m.configs, m.nodes, ()) }

/-- `StoredMembership`. -/
def storedMembership : Form StoredMembership :=
  (Form.record (.cons (option logId) (.cons membership .nil))).equiv
    { toFun := fun f => ⟨f.1, f.2.1⟩
      invFun := fun m => (m.logId, m.membership, ()) }

/-- `SnapshotBody`. -/
def snapshotBody : Form SnapshotBody :=
  (Form.record (.cons state (.cons (option logId) (.cons storedMembership .nil)))).equiv
    { toFun := fun f => ⟨f.1, f.2.1, f.2.2.1⟩
      invFun := fun b => (b.state, b.lastApplied, b.lastMembership, ()) }

theorem fits_logId {n : Nat} (id : Option LogId) : (option logId).Fits (n + 2) id := by
  cases id with
  | none => trivial
  | some id => exact ⟨rfl, ⟨trivial, trivial, trivial⟩, trivial, trivial⟩

/-- A body is read back if its state is. -/
theorem fits_snapshotBody {n : Nat} {body : SnapshotBody}
    (h : ∀ e ∈ body.state.buckets, Storable (n + 1) e.2) : snapshotBody.Fits (n + 5) body :=
  ⟨fits_state.2 h, fits_logId _,
    ⟨fits_logId _, ⟨fun _ _ _ _ => trivial, fun _ _ => ⟨trivial, trivial, trivial, trivial, trivial⟩,
      trivial⟩, trivial⟩, trivial⟩

end Msgpack

/-! ## The store -/

/-- A snapshot file. -/
structure SnapshotFile where
  lastAppliedIndex : UInt64
  lastAppliedTerm : UInt64
  body : Lib.Msg

/-- `SnapshotStore`: the files by ascending index. -/
abbrev SnapshotStore := List (Nat × SnapshotFile)

namespace SnapshotStore

/-- `max_kept`. -/
def maxKept : Nat := 2

/-- `prune_older_than`. -/
def pruneOlderThan (latest : Nat) (files : SnapshotStore) : SnapshotStore :=
  if files.length ≤ maxKept then files
  else
    let dropUntil := files.length - maxKept
    (files.take dropUntil).filter (fun f => latest ≤ f.1) ++ files.drop dropUntil

/-- `SnapshotStore::store`. -/
def store (lastAppliedIndex lastAppliedTerm : UInt64) (state : State) (files : SnapshotStore) :
    SnapshotStore :=
  pruneOlderThan lastAppliedIndex.toNat (Lib.SortedMap.insert lastAppliedIndex.toNat
    ⟨lastAppliedIndex, lastAppliedTerm, Msgpack.state.toMsg state⟩ files)

/-- `load_latest`. The outer `none` is an error. -/
def loadLatest (levels : Nat) (files : SnapshotStore) : Option (Option (SnapshotFile × State)) :=
  match files.getLast? with
  | none => some none
  | some (_, file) => (Msgpack.state.ofMsg levels file.body).map fun state => some (file, state)

end SnapshotStore

/-! ## The adapter -/

/-- openraft's `Snapshot`, with its `SnapshotMeta`. -/
structure Snapshot where
  lastLogId : Option LogId
  lastMembership : StoredMembership
  snapshotId : String
  data : Lib.Msg

/-- A write to one of the locked parts. -/
inductive Write where
  | state (s : State)
  | appliedIndex (i : UInt64)
  | lastApplied (id : Option LogId)
  | lastMembership (m : StoredMembership)

/-- The write. -/
def Write.run (a : Applied) : Write → Applied
  | .state s => { a with fsm := { a.fsm with state := s } }
  | .appliedIndex i => { a with fsm := { a.fsm with appliedIndex := i } }
  | .lastApplied id => { a with lastApplied := id }
  | .lastMembership m => { a with lastMembership := m }

/-- The writes of `apply` for one entry, or none at an error. -/
def applyWrites (e : Entry) (a : Applied) : Option (List Write) :=
  match e.payload with
  | .blank => some [.lastApplied (some e.logId)]
  | .normal op =>
    match op.apply a.fsm.state with
    | .error _ => none
    | .ok state => some [.state state,
        .appliedIndex (if a.fsm.appliedIndex < e.logId.index then e.logId.index else a.fsm.appliedIndex),
        .lastApplied (some e.logId)]
  | .membership m => some [.lastMembership ⟨some e.logId, m⟩, .lastApplied (some e.logId)]

/-- The writes of `install_snapshot`. -/
def installWrites (snap : Snapshot) (state : State) : List Write :=
  [.appliedIndex ((snap.lastLogId.map LogId.index).getD 0), .state state, .lastApplied snap.lastLogId,
    .lastMembership snap.lastMembership]

/-- `install_snapshot`, undisturbed. -/
def Applied.install (levels : Nat) (snap : Snapshot) (a : Applied) : Option Applied :=
  (Msgpack.snapshotBody.ofMsg levels snap.data).map fun body =>
    (installWrites snap body.state).foldl Write.run a

/-- `build_snapshot`, up to each of its reads. -/
inductive Builder where
  | start
  | gotApplied (lastApplied : Option LogId)
  | gotMembership (lastApplied : Option LogId) (lastMembership : StoredMembership)
  | gotIndex (lastApplied : Option LogId) (lastMembership : StoredMembership) (appliedIdx : UInt64)
  | gotState (lastApplied : Option LogId) (lastMembership : StoredMembership) (appliedIdx : UInt64)
      (state : State)
  | done

/-- A node's FSM adapter, its worker and its builders. -/
structure System where
  applied : Applied
  /-- The writes left of the worker's call. -/
  pending : List Write
  builders : List Builder
  store : SnapshotStore
  lastSnapshotId : Nat
  /-- The snapshots returned so far, the last one first. -/
  returned : List Snapshot

/-- What can happen next. -/
inductive Action where
  | apply (e : Entry)
  | install (snap : Snapshot)
  | write
  | spawn
  | build (i : Nat)
  | getCurrent

namespace System

/-- `AbixioFsmAdapter::new` over a directory. -/
def new (store : SnapshotStore) : System := ⟨Applied.new, [], [], store, 0, []⟩

/-- `build_snapshot` returns. -/
def finishBuild (i : Nat) (lastApplied : Option LogId) (lastMembership : StoredMembership)
    (appliedIdx : UInt64) (state : State) (s : System) : System :=
  let appliedTerm := (lastApplied.map fun l => l.leaderId.term).getD 0
  let snapId := s.lastSnapshotId + 1
  { s with
    builders := s.builders.set i .done
    store := s.store.store appliedIdx appliedTerm state
    lastSnapshotId := snapId
    returned := ⟨lastApplied, lastMembership,
      "snap-" ++ Lib.decimal appliedIdx.toNat ++ "-" ++ Lib.decimal snapId,
      Msgpack.snapshotBody.toMsg ⟨state, lastApplied, lastMembership⟩⟩ :: s.returned }

/-- The next step of `build_snapshot`. -/
def advance (i : Nat) (b : Builder) (s : System) : System :=
  match b with
  | .start => { s with builders := s.builders.set i (.gotApplied s.applied.lastApplied) }
  | .gotApplied la =>
    { s with builders := s.builders.set i (.gotMembership la s.applied.lastMembership) }
  | .gotMembership la lm =>
    { s with builders := s.builders.set i (.gotIndex la lm s.applied.fsm.appliedIndex) }
  | .gotIndex la lm idx =>
    { s with builders := s.builders.set i (.gotState la lm idx s.applied.fsm.state) }
  | .gotState la lm idx state => s.finishBuild i la lm idx state
  | .done => s

/-- `get_current_snapshot`. -/
def getCurrent (levels : Nat) (s : System) : System :=
  match s.store.loadLatest levels with
  | some (some (file, state)) =>
    { s with returned := ⟨s.applied.lastApplied, s.applied.lastMembership,
        "snap-" ++ Lib.decimal file.lastAppliedIndex.toNat ++ "-replay",
        Msgpack.snapshotBody.toMsg ⟨state, s.applied.lastApplied, s.applied.lastMembership⟩⟩ ::
          s.returned }
  | _ => s

/-- A call of the worker starts when the one before it has ended. -/
def startCall (writes : List Write) (s : System) : System :=
  match s.pending with
  | [] => { s with pending := writes }
  | _ :: _ => s

/-- One step. -/
def step (levels : Nat) (s : System) : Action → System
  | .apply e => s.startCall ((applyWrites e s.applied).getD [])
  | .install snap => s.startCall (((Msgpack.snapshotBody.ofMsg levels snap.data).map fun body =>
      installWrites snap body.state).getD [])
  | .write =>
    match s.pending with
    | [] => s
    | w :: ws => { s with applied := w.run s.applied, pending := ws }
  | .spawn => { s with builders := s.builders ++ [.start] }
  | .build i =>
    match s.builders[i]? with
    | some b => s.advance i b
    | none => s
  | .getCurrent =>
    match s.pending with
    | [] => s.getCurrent levels
    | _ :: _ => s

/-- A run. -/
def run (levels : Nat) (acts : List Action) (s : System) : System := acts.foldl (step levels) s

end System

/-! ## What a snapshot owes -/

/-- The committed entries up to a log id. -/
def upTo (committed : List Entry) : Option LogId → List Entry
  | none => []
  | some id => committed.filter fun e => e.logId.index ≤ id.index

/-- The state after entries. -/
def replay (es : List Entry) : Applied := es.foldl Applied.commit Applied.new

/-- The same tables and membership. -/
structure Same (a b : Applied) : Prop where
  state : a.fsm.state = b.fsm.state
  lastMembership : a.lastMembership = b.lastMembership

/-- **A snapshot carries what it claims**: it reads back with the state and the membership of the committed
entries up to its log id, and a new node that installs it goes on with the entries after it as the
original node does. -/
structure Faithful (levels : Nat) (committed : List Entry) (snap : Snapshot) : Prop where
  body : Msgpack.snapshotBody.ofMsg levels snap.data =
    some ⟨(replay (upTo committed snap.lastLogId)).fsm.state, snap.lastLogId, snap.lastMembership⟩
  membership : snap.lastMembership = (replay (upTo committed snap.lastLogId)).lastMembership
  installs : ∃ a, Applied.new.install levels snap = some a ∧ ∀ after : List Entry,
    (a.apply after).1 = ((replay (upTo committed snap.lastLogId)).apply after).1 ∧
    Same (a.apply after).2 ((replay (upTo committed snap.lastLogId)).apply after).2

/-- The settings of every bucket are storable inside a snapshot body. -/
def Kept (levels : Nat) (state : State) : Prop := ∀ e ∈ state.buckets, Msgpack.Storable (levels - 4) e.2

/-- The builder is between its first and its last read. -/
def Builder.Reading : Builder → Prop
  | .gotApplied _ | .gotMembership _ _ | .gotIndex _ _ _ => True
  | .start | .gotState _ _ _ _ | .done => False

namespace System

/-- openraft's part: the next committed entry is applied, and a snapshot of another node is faithful. -/
def Admits (levels : Nat) (committed : List Entry) (s : System) : Action → Prop
  | .apply e => upTo committed (some e.logId) = upTo committed s.applied.lastApplied ++ [e]
  | .install snap => Faithful levels committed snap
  | _ => True

/-- **The condition on a step.** No write falls into the reads of a builder, and no builder starts inside a
call of the worker. The newest file has the current state when the current snapshot is asked for. -/
def Undisturbed (levels : Nat) (s : System) : Action → Prop
  | .write => ∀ b ∈ s.builders, ¬ b.Reading
  | .build i => (s.builders[i]? = some .start → s.pending = []) ∧
      ∀ la lm idx, s.builders[i]? = some (.gotIndex la lm idx) → Kept levels s.applied.fsm.state
  | .getCurrent => ∀ file state, s.store.loadLatest levels = some (some (file, state)) →
      state = s.applied.fsm.state ∧ Kept levels state
  | .apply _ | .install _ | .spawn => True

/-- Every step of a run is admitted and undisturbed. -/
def Quiet (levels : Nat) (committed : List Entry) : System → List Action → Prop
  | _, [] => True
  | s, act :: acts => s.Admits levels committed act ∧ s.Undisturbed levels act ∧
      Quiet levels committed (s.step levels act) acts

end System

/-! ## Applying to the same tables -/

namespace Same

variable {a b : Applied}

theorem commit (h : Same a b) (e : Entry) : Same (a.commit e) (b.commit e) := by
  obtain ⟨logId, payload⟩ := e
  cases payload with
  | blank => exact ⟨h.state, h.lastMembership⟩
  | membership m => exact ⟨h.state, rfl⟩
  | normal op =>
    simp only [Applied.commit, StateMachine.apply, h.state]
    cases op.apply b.fsm.state with
    | ok state => exact ⟨rfl, h.lastMembership⟩
    | error err => exact ⟨h.state, h.lastMembership⟩

theorem applyEntry (h : Same a b) (e : Entry) :
    (a.applyEntry e).1 = (b.applyEntry e).1 ∧ Same (a.applyEntry e).2 (b.applyEntry e).2 := by
  obtain ⟨logId, payload⟩ := e
  cases payload with
  | blank => exact ⟨rfl, h.state, h.lastMembership⟩
  | membership m => exact ⟨rfl, h.state, rfl⟩
  | normal op =>
    simp only [Applied.applyEntry, StateMachine.apply, h.state]
    cases op.apply b.fsm.state with
    | ok state => exact ⟨rfl, rfl, h.lastMembership⟩
    | error err => exact ⟨rfl, h.state, h.lastMembership⟩

/-- **Two nodes with the same tables** apply a batch alike. -/
theorem apply (es : List Entry) : ∀ {a b : Applied}, Same a b →
    (a.apply es).1 = (b.apply es).1 ∧ Same (a.apply es).2 (b.apply es).2 := by
  induction es with
  | nil => exact fun h => ⟨rfl, h⟩
  | cons e es ih =>
    intro a b h
    obtain ⟨hreply, hsame⟩ := h.applyEntry e
    rw [Applied.apply, Applied.apply]
    cases ha : a.applyEntry e with
    | mk ra a' =>
      cases hb : b.applyEntry e with
      | mk rb b' =>
        rw [ha, hb] at hreply hsame
        obtain rfl : ra = rb := hreply
        cases ra with
        | error err => exact ⟨rfl, hsame⟩
        | ok r =>
          obtain ⟨hreply', hsame'⟩ := ih hsame
          dsimp only
          cases ha' : a'.apply es with
          | mk ra' a'' =>
            cases hb' : b'.apply es with
            | mk rb' b'' =>
              rw [ha', hb'] at hreply' hsame'
              obtain rfl : ra' = rb' := hreply'
              cases ra' with
              | error err => exact ⟨rfl, hsame'⟩
              | ok rs => exact ⟨rfl, hsame'⟩

end Same

/-- The writes of an entry are `apply` of the entry. -/
theorem applyWrites_run {e : Entry} {a : Applied} {ws : List Write} (h : applyWrites e a = some ws) :
    a.Applicable e ∧ ws.foldl Write.run a = a.commit e := by
  obtain ⟨logId, payload⟩ := e
  cases payload with
  | blank =>
    cases h
    exact ⟨nofun, rfl⟩
  | membership m =>
    cases h
    exact ⟨nofun, rfl⟩
  | normal op =>
    rw [applyWrites] at h
    dsimp only at h
    cases hop : op.apply a.fsm.state with
    | error err => rw [hop] at h; cases h
    | ok state =>
      rw [hop] at h
      cases h
      refine ⟨fun op' hop' => ?_, ?_⟩
      · obtain rfl : op = op' := EntryPayload.normal.inj hop'
        rcases Registry.apply_cases op a.fsm.state with ⟨_, -, hadmits, -⟩ | ⟨⟨err, herr⟩, -⟩
        · exact hadmits
        · cases hop.symm.trans herr
      · simp only [Applied.commit, StateMachine.apply, hop]
        rfl

theorem lastApplied_commit (a : Applied) (e : Entry) : (a.commit e).lastApplied = some e.logId :=
  Applied.lastApplied_foldl_commit (show [e].getLast? = some e from rfl)

/-! ## The invariant of quiet runs -/

variable {levels : Nat} {committed : List Entry}

/-- The tables and the membership are those of the last applied id. -/
def Matches (committed : List Entry) (a : Applied) : Prop :=
  Same a (replay (upTo committed a.lastApplied))

/-- Entry after entry. -/
theorem Matches.commit {a : Applied} {e : Entry} (h : Matches committed a)
    (hnext : upTo committed (some e.logId) = upTo committed a.lastApplied ++ [e]) :
    Matches committed (a.commit e) := by
  unfold Matches
  rw [lastApplied_commit, hnext, replay, List.foldl_concat]
  exact Same.commit h e

theorem Faithful.of_body {L : Option LogId} {m : StoredMembership} {state : State} (id : String)
    (hlevels : 5 ≤ levels) (hstate : state = (replay (upTo committed L)).fsm.state)
    (hmembership : m = (replay (upTo committed L)).lastMembership) (hkept : Kept levels state) :
    Faithful levels committed ⟨L, m, id, Msgpack.snapshotBody.toMsg ⟨state, L, m⟩⟩ := by
  have hread : Msgpack.snapshotBody.ofMsg levels (Msgpack.snapshotBody.toMsg ⟨state, L, m⟩) =
      some ⟨state, L, m⟩ := by
    obtain ⟨n, rfl⟩ := Nat.exists_eq_add_of_le' hlevels
    exact (Msgpack.snapshotBody.ofMsg_toMsg _ _).2 (Msgpack.fits_snapshotBody hkept)
  refine ⟨hstate ▸ hread, hmembership, ?_⟩
  refine ⟨_, congrArg (Option.map _) hread, fun after => ?_⟩
  exact Same.apply after ⟨hstate, hmembership⟩

/-- What a builder has read belongs together. -/
def Builder.Sound (levels : Nat) (committed : List Entry) (a : Applied) : Builder → Prop
  | .start | .done => True
  | .gotApplied la => la = a.lastApplied
  | .gotMembership la lm | .gotIndex la lm _ => la = a.lastApplied ∧ lm = a.lastMembership
  | .gotState la lm _ state => state = (replay (upTo committed la)).fsm.state ∧
      lm = (replay (upTo committed la)).lastMembership ∧ Kept levels state

/-- A builder that is not reading does not look at the node. -/
theorem Builder.Sound.of_not_reading {b : Builder} {a a' : Applied} (h : b.Sound levels committed a)
    (hidle : ¬ b.Reading) : b.Sound levels committed a' := by
  cases b with
  | start => trivial
  | done => trivial
  | gotState la lm idx state => exact h
  | gotApplied | gotMembership | gotIndex => exact absurd trivial hidle

/-- **The invariant.** -/
structure System.Inv (levels : Nat) (committed : List Entry) (s : System) : Prop where
  /-- At the end of the worker's call the node matches. -/
  worker : Matches committed (s.pending.foldl Write.run s.applied)
  /-- While a builder reads, it does so now. -/
  reading : (∃ b ∈ s.builders, b.Reading) → Matches committed s.applied
  builders : ∀ b ∈ s.builders, b.Sound levels committed s.applied
  returned : ∀ snap ∈ s.returned, Faithful levels committed snap

namespace System

variable {s : System}

variable {b : Builder} {i : Nat}

theorem inv_new (store : SnapshotStore) : (new store).Inv levels committed where
  worker := ⟨rfl, rfl⟩
  reading := fun ⟨_, hb, _⟩ => nomatch hb
  builders := fun _ hb => nomatch hb
  returned := fun _ hsnap => nomatch hsnap

/-- A call of the worker. -/
theorem Inv.startCall (h : s.Inv levels committed) {ws : List Write}
    (hws : s.pending = [] → Matches committed (ws.foldl Write.run s.applied)) :
    (s.startCall ws).Inv levels committed := by
  unfold System.startCall
  split
  · next hpending => exact ⟨hws hpending, h.reading, h.builders, h.returned⟩
  · exact h

/-- A builder's step that only changes the builder. -/
theorem Inv.set (h : s.Inv levels committed)
    (hreading : b.Reading → Matches committed s.applied) (hsound : b.Sound levels committed s.applied) :
    Inv levels committed { s with builders := s.builders.set i b } := by
  refine ⟨h.worker, ?_, ?_, h.returned⟩
  · rintro ⟨b', hb', hread⟩
    rcases List.mem_or_eq_of_mem_set hb' with hb' | rfl
    · exact h.reading ⟨b', hb', hread⟩
    · exact hreading hread
  · intro b' hb'
    rcases List.mem_or_eq_of_mem_set hb' with hb' | rfl
    · exact h.builders b' hb'
    · exact hsound

variable (hlevels : 5 ≤ levels) (h : s.Inv levels committed)

include hlevels h in
theorem inv_advance (hb : s.builders[i]? = some b)
    (hquiet : s.Undisturbed levels (.build i)) : (s.advance i b).Inv levels committed := by
  have hmem : b ∈ s.builders := List.mem_of_getElem? hb
  have hsound := h.builders b hmem
  cases b with
  | start =>
    have hmatches := h.worker
    rw [hquiet.1 hb] at hmatches
    exact h.set (fun _ => hmatches) rfl
  | gotApplied la =>
    exact h.set (fun _ => h.reading ⟨_, hmem, trivial⟩) ⟨hsound, rfl⟩
  | gotMembership la lm =>
    exact h.set (fun _ => h.reading ⟨_, hmem, trivial⟩) hsound
  | gotIndex la lm idx =>
    have hmatches := h.reading ⟨_, hmem, trivial⟩
    obtain ⟨rfl, rfl⟩ := hsound
    exact h.set nofun ⟨hmatches.state, hmatches.lastMembership, hquiet.2 _ _ _ hb⟩
  | gotState la lm idx state =>
    obtain ⟨hstate, hmembership, hkept⟩ := hsound
    have hset := h.set (i := i) (b := .done) nofun trivial
    refine ⟨hset.worker, hset.reading, hset.builders, ?_⟩
    intro snap hsnap
    rcases List.mem_cons.1 hsnap with rfl | hsnap
    · exact Faithful.of_body _ hlevels hstate hmembership hkept
    · exact h.returned snap hsnap
  | done => exact h

include hlevels h in
theorem inv_getCurrent (hpending : s.pending = []) (hquiet : s.Undisturbed levels .getCurrent) :
    (s.getCurrent levels).Inv levels committed := by
  have hmatches := h.worker
  rw [hpending] at hmatches
  unfold getCurrent
  split
  · next file state hload =>
    obtain ⟨rfl, hkept⟩ := hquiet file state hload
    refine ⟨h.worker, h.reading, h.builders, ?_⟩
    intro snap hsnap
    rcases List.mem_cons.1 hsnap with rfl | hsnap
    · exact Faithful.of_body _ hlevels hmatches.state hmatches.lastMembership hkept
    · exact h.returned snap hsnap
  · exact h

include hlevels h in
/-- **A quiet step** keeps the invariant. -/
theorem inv_step {act : Action} (hadmits : s.Admits levels committed act)
    (hquiet : s.Undisturbed levels act) : (s.step levels act).Inv levels committed := by
  cases act with
  | apply e =>
    refine h.startCall fun hpending => ?_
    have hmatches := h.worker
    rw [hpending] at hmatches
    cases hwrites : applyWrites e s.applied with
    | none => exact hmatches
    | some ws =>
      rw [Option.getD_some, (applyWrites_run hwrites).2]
      exact Matches.commit hmatches hadmits
  | install snap =>
    refine h.startCall fun _ => ?_
    have hfaithful : Faithful levels committed snap := hadmits
    rw [hfaithful.body, Option.map_some, Option.getD_some]
    exact ⟨rfl, hfaithful.membership⟩
  | write =>
    rw [step]
    split
    · exact h
    · next w ws hpending =>
      have hworker := h.worker
      rw [hpending] at hworker
      exact ⟨hworker, fun ⟨b, hb, hread⟩ => absurd hread (hquiet b hb),
        fun b hb => (h.builders b hb).of_not_reading (hquiet b hb), h.returned⟩
  | spawn =>
    refine ⟨h.worker, ?_, ?_, h.returned⟩
    · rintro ⟨b, hb, hread⟩
      rcases List.mem_append.1 hb with hb | hb
      · exact h.reading ⟨b, hb, hread⟩
      · rw [List.mem_singleton] at hb
        subst hb
        exact hread.elim
    · intro b hb
      rcases List.mem_append.1 hb with hb | hb
      · exact h.builders b hb
      · rw [List.mem_singleton] at hb
        subst hb
        trivial
  | build i =>
    rw [step]
    split
    · next b hb => exact inv_advance hlevels h hb hquiet
    · exact h
  | getCurrent =>
    rw [step]
    split
    · next hpending => exact inv_getCurrent hlevels h hpending hquiet
    · exact h

/-- **A quiet run** keeps it. -/
theorem inv_run (hlevels : 5 ≤ levels) (acts : List Action) : ∀ {s : System},
    s.Inv levels committed → Quiet levels committed s acts → (s.run levels acts).Inv levels committed := by
  induction acts with
  | nil => exact fun h _ => h
  | cons act acts ih =>
    intro s h hquiet
    exact ih (inv_step hlevels h hquiet.1 hquiet.2.1) hquiet.2.2

/-- **Snapshots carry the state they claim** in every quiet run of a node. -/
theorem snapshots_faithful (levels : Nat) (hlevels : 5 ≤ levels) (committed : List Entry)
    (store : SnapshotStore) (acts : List Action) (hquiet : Quiet levels committed (new store) acts) :
    ∀ snap ∈ ((new store).run levels acts).returned, Faithful levels committed snap :=
  (inv_run hlevels acts (inv_new store) hquiet).returned

/-! ## Two entries and a build between them -/

/-- A node is added. -/
def addEntry (index : UInt64) (nodeId : String) : Entry :=
  ⟨⟨⟨1, 1⟩, index⟩, .normal (.addNode nodeId "" "" .voter 0)⟩

/-- The worker applies an entry that adds a node. -/
def applyAdd (index : UInt64) (nodeId : String) : List Action :=
  [.apply (addEntry index nodeId), .write, .write, .write]

/-- A whole build. -/
def buildAll : List Action := [.spawn, .build 0, .build 0, .build 0, .build 0, .build 0]

/-- A build after one entry is faithful. -/
theorem snapshots_faithful_one : Quiet 1023 [addEntry 1 "a"] (new []) (applyAdd 1 "a" ++ buildAll) ∧
      ((new []).run 1023 (applyAdd 1 "a" ++ buildAll)).returned.map Snapshot.lastLogId =
        [some ⟨⟨1, 1⟩, 1⟩] ∧ ∀ snap ∈ ((new []).run 1023 (applyAdd 1 "a" ++ buildAll)).returned,
        Faithful 1023 [addEntry 1 "a"] snap := by
  have hkept : Kept 1023 (replay [addEntry 1 "a"]).fsm.state := fun _ he => nomatch he
  have hnone : ∀ b ∈ ([] : List Builder), ¬ b.Reading := fun _ hb => nomatch hb
  have hquiet : Quiet 1023 [addEntry 1 "a"] (new []) (applyAdd 1 "a" ++ buildAll) :=
    ⟨rfl, trivial, trivial, hnone, trivial, hnone, trivial, hnone, trivial, trivial,
      trivial, ⟨fun _ => rfl, nofun⟩, trivial, ⟨nofun, nofun⟩, trivial, ⟨nofun, nofun⟩,
      trivial, ⟨nofun, fun _ _ _ _ => hkept⟩, trivial, ⟨nofun, nofun⟩, trivial⟩
  exact ⟨hquiet, rfl, snapshots_faithful 1023 (by decide) _ _ _ hquiet⟩

/-- After a second entry the current snapshot has the id of the second and the tables of the first. -/
theorem current_snapshot_stale :
    ((new []).run 1023 (applyAdd 1 "a" ++ buildAll ++ applyAdd 2 "b" ++ [.getCurrent])).returned.head?.map
        Snapshot.lastLogId = some (some ⟨⟨1, 1⟩, 2⟩) ∧
      (((new []).run 1023 (applyAdd 1 "a" ++ buildAll ++ applyAdd 2 "b" ++
          [.getCurrent])).returned.head?.bind fun snap =>
        (Msgpack.snapshotBody.ofMsg 1023 snap.data).map fun body => body.state.members.map Prod.fst) =
        some ["a"] ∧
      ((replay [addEntry 1 "a", addEntry 2 "b"]).fsm.state.members.map Prod.fst) = ["a", "b"] := by
  decide +kernel

end System

end Abixio.Raft
