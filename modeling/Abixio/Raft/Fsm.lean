import Abixio.Lib.SortedMap
import Abixio.Storage.Metadata
import Mathlib.Data.String.Basic

/-!
# The raft state machine

Model of `src/raft/fsm/ops.rs`, of `AbixioStateMachine` (`src/raft/fsm/mod.rs:21-85`) and of `apply` in the
adapter to openraft (`src/raft/adapter/fsm.rs:117-147`), with the openraft types they use.

* A `HashMap` with string keys is the list of its entries by ascending key (`Lib.SortedMap`).
* `RaftStateMachine::apply` works through a batch and returns from inside the loop at the first operation
  that the state machine refuses. openraft calls it with the committed entries in any batches, and shuts
  down at an error.
* `submit` passes every `Op` on to openraft. Nothing checks an operation against the state before it is
  committed, so a log can hold every sequence of operations.

Result: `committed_iff`. A sequence of entries is applied whole, to the same end for every batching,
exactly if it is `Orderly`: a node that is removed is a member at that point, a bucket whose settings are
deleted has settings, and a placement epoch is greater than the last one or follows epoch 0.
-/

namespace Abixio.Raft

/-! ## Operations -/

/-- `VoterKind`. -/
inductive VoterKind where
  | voter
  | observer
  deriving DecidableEq

/-- `PlacementVolume`. -/
structure PlacementVolume where
  backendIndex : UInt64
  nodeId : String
  volumeId : String
  deriving DecidableEq

/-- `Op`. -/
inductive Op where
  | addNode (nodeId advertiseS3 advertiseCluster : String) (voterKind : VoterKind)
      (addedAtUnixSecs : UInt64)
  | removeNode (nodeId : String)
  | setPlacementEpoch (epochId : UInt64) (clusterId : String) (volumes : List PlacementVolume)
  | setBucketSettings (bucket : String) (settings : BucketSettings)
  | deleteBucketSettings (bucket : String)
  deriving DecidableEq

/-- `Member`. -/
structure Member where
  nodeId : String
  advertiseS3 : String
  advertiseCluster : String
  voterKind : VoterKind
  addedAtUnixSecs : UInt64
  deriving DecidableEq

/-- `Placement`. -/
structure Placement where
  epochId : UInt64
  clusterId : String
  volumes : List PlacementVolume
  deriving DecidableEq

/-- `State`. -/
structure State where
  members : List (String × Member)
  placement : Placement
  buckets : List (String × BucketSettings)
  deriving DecidableEq

/-- `State::default`. -/
def State.default : State := ⟨[], ⟨0, "", []⟩, []⟩

/-- `ApplyError`. -/
inductive ApplyError where
  | epochRegression (have_ got : UInt64)
  | unknownNode (nodeId : String)
  | unknownBucket (bucket : String)
  deriving DecidableEq

open Lib.SortedMap (lookup erase) in
/-- `Op::apply`. -/
def Op.apply (op : Op) (state : State) : Except ApplyError State :=
  match op with
  | .addNode nodeId advertiseS3 advertiseCluster voterKind addedAtUnixSecs =>
    let member : Member := ⟨nodeId, advertiseS3, advertiseCluster, voterKind, addedAtUnixSecs⟩
    .ok { state with members := Lib.SortedMap.insert nodeId member state.members }
  | .removeNode nodeId =>
    if (lookup nodeId state.members).isNone then .error (.unknownNode nodeId)
    else .ok { state with members := erase nodeId state.members }
  | .setPlacementEpoch epochId clusterId volumes =>
    if epochId ≤ state.placement.epochId ∧ state.placement.epochId ≠ 0 then
      .error (.epochRegression state.placement.epochId epochId)
    else .ok { state with placement := ⟨epochId, clusterId, volumes⟩ }
  | .setBucketSettings bucket settings =>
    .ok { state with buckets := Lib.SortedMap.insert bucket settings state.buckets }
  | .deleteBucketSettings bucket =>
    if (lookup bucket state.buckets).isNone then .error (.unknownBucket bucket)
    else .ok { state with buckets := erase bucket state.buckets }

/-- What decides whether an operation is valid: who is a member, which buckets have settings, and the
placement epoch. -/
structure Registry where
  member : String → Prop
  bucket : String → Prop
  epoch : UInt64

namespace Registry

/-- The registry of a state. -/
def of (state : State) : Registry where
  member id := ∃ m, Lib.SortedMap.lookup id state.members = some m
  bucket name := ∃ settings, Lib.SortedMap.lookup name state.buckets = some settings
  epoch := state.placement.epochId

/-- **The operation is valid.** -/
def Admits (r : Registry) : Op → Prop
  | .addNode .. | .setBucketSettings .. => True
  | .removeNode nodeId => r.member nodeId
  | .setPlacementEpoch epochId _ _ => r.epoch = 0 ∨ r.epoch < epochId
  | .deleteBucketSettings bucket => r.bucket bucket

/-- The registry after a valid operation. -/
def after (r : Registry) : Op → Registry
  | .addNode nodeId _ _ _ _ => { r with member := fun id => id = nodeId ∨ r.member id }
  | .removeNode nodeId => { r with member := fun id => id ≠ nodeId ∧ r.member id }
  | .setPlacementEpoch epochId _ _ => { r with epoch := epochId }
  | .setBucketSettings bucket _ => { r with bucket := fun name => name = bucket ∨ r.bucket name }
  | .deleteBucketSettings bucket => { r with bucket := fun name => name ≠ bucket ∧ r.bucket name }

section Tables

variable {β : Type} {m : List (String × β)} {k k' : String}

theorem exists_lookup_insert (v : β) : (∃ w, Lib.SortedMap.lookup k (Lib.SortedMap.insert k' v m) = some w) ↔
    k = k' ∨ ∃ w, Lib.SortedMap.lookup k m = some w := by
  by_cases h : k = k'
  · subst h
    exact iff_of_true ⟨v, Lib.SortedMap.lookup_insert_self k v m⟩ (.inl rfl)
  · rw [Lib.SortedMap.lookup_insert_of_ne h, or_iff_right h]

theorem exists_lookup_erase : (∃ w, Lib.SortedMap.lookup k (Lib.SortedMap.erase k' m) = some w) ↔
    k ≠ k' ∧ ∃ w, Lib.SortedMap.lookup k m = some w := by
  rw [Lib.SortedMap.lookup_erase]
  by_cases h : k = k'
  · rw [if_pos h]
    exact iff_of_false nofun fun hne => hne.1 h
  · rw [if_neg h, and_iff_right h]

end Tables

/-- **`Op::apply` is Ok exactly if the registry admits the operation**, and leaves its registry. -/
theorem apply_cases (op : Op) (state : State) :
    (∃ state', op.apply state = .ok state' ∧ (of state).Admits op ∧ of state' = (of state).after op) ∨
      (∃ e, op.apply state = .error e) ∧ ¬ (of state).Admits op := by
  cases op with
  | addNode nodeId s3 cluster kind secs =>
    refine .inl ⟨_, rfl, trivial, ?_⟩
    simp only [of, after, exists_lookup_insert]
  | removeNode nodeId =>
    cases hfound : Lib.SortedMap.lookup nodeId state.members with
    | none =>
      refine .inr ⟨⟨.unknownNode nodeId, ?_⟩, fun ⟨m, hm⟩ => nomatch hfound.symm.trans hm⟩
      rw [Op.apply, hfound]
      rfl
    | some m =>
      refine .inl ⟨{ state with members := Lib.SortedMap.erase nodeId state.members }, ?_, ⟨m, hfound⟩, ?_⟩
      · rw [Op.apply, hfound]
        rfl
      · simp only [of, after, exists_lookup_erase]
  | setPlacementEpoch epochId cluster volumes =>
    by_cases hback : epochId ≤ state.placement.epochId ∧ state.placement.epochId ≠ 0
    · refine .inr ⟨⟨_, if_pos hback⟩, ?_⟩
      rintro (hzero | hless)
      · exact hback.2 hzero
      · exact UInt64.not_le.mpr hless hback.1
    · refine .inl ⟨_, if_neg hback, ?_, rfl⟩
      by_cases hzero : state.placement.epochId = 0
      · exact .inl hzero
      · exact .inr (UInt64.not_le.mp fun hle => hback ⟨hle, hzero⟩)
  | setBucketSettings bucket settings =>
    refine .inl ⟨_, rfl, trivial, ?_⟩
    simp only [of, after, exists_lookup_insert]
  | deleteBucketSettings bucket =>
    cases hfound : Lib.SortedMap.lookup bucket state.buckets with
    | none =>
      refine .inr ⟨⟨.unknownBucket bucket, ?_⟩, fun ⟨m, hm⟩ => nomatch hfound.symm.trans hm⟩
      rw [Op.apply, hfound]
      rfl
    | some settings =>
      refine .inl ⟨{ state with buckets := Lib.SortedMap.erase bucket state.buckets }, ?_, ⟨settings, hfound⟩, ?_⟩
      · rw [Op.apply, hfound]
        rfl
      · simp only [of, after, exists_lookup_erase]

end Registry

/-- `AbixioStateMachine`. -/
structure StateMachine where
  state : State
  appliedIndex : UInt64
  deriving DecidableEq

namespace StateMachine

/-- `AbixioStateMachine::new`. -/
def new : StateMachine := ⟨State.default, 0⟩

/-- `AbixioStateMachine::apply`. -/
def apply (index : UInt64) (op : Op) (fsm : StateMachine) : Except ApplyError UInt64 × StateMachine :=
  match op.apply fsm.state with
  | .error e => (.error e, fsm)
  | .ok state =>
    let cursor := if fsm.appliedIndex < index then index else fsm.appliedIndex
    (.ok cursor, ⟨state, cursor⟩)

end StateMachine

/-! ## openraft's entries -/

/-- `CommittedLeaderId`: the term, and the node that led in it. -/
structure LeaderId where
  term : UInt64
  nodeId : UInt64
  deriving DecidableEq

/-- `LogId`. -/
structure LogId where
  leaderId : LeaderId
  index : UInt64
  deriving DecidableEq

/-- `AbixioNode`. -/
structure AbixioNode where
  advertiseS3 : String
  advertiseCluster : String
  voterKind : VoterKind
  deriving DecidableEq

/-- `Membership`. -/
structure Membership where
  configs : List (List UInt64)
  nodes : List (UInt64 × AbixioNode)
  deriving DecidableEq

/-- `StoredMembership`. -/
structure StoredMembership where
  logId : Option LogId
  membership : Membership
  deriving DecidableEq

/-- `StoredMembership::default`. -/
def StoredMembership.default : StoredMembership := ⟨none, [], []⟩

/-- `EntryPayload`. -/
inductive EntryPayload where
  | blank
  | normal (op : Op)
  | membership (m : Membership)
  deriving DecidableEq

/-- `Entry`. -/
structure Entry where
  logId : LogId
  payload : EntryPayload
  deriving DecidableEq

/-- `AppResponse`. -/
structure AppResponse where
  appliedIndex : UInt64
  deriving DecidableEq

/-! ## The adapter's part of the state -/

/-- What `apply` of the adapter changes: the state machine, `last_applied` and `last_membership`. -/
structure Applied where
  fsm : StateMachine
  lastApplied : Option LogId
  lastMembership : StoredMembership
  deriving DecidableEq

namespace Applied

/-- The part of `AbixioFsmAdapter::new`. -/
def new : Applied := ⟨StateMachine.new, none, StoredMembership.default⟩

/-- One entry of the loop of `apply`. -/
def applyEntry (e : Entry) (a : Applied) : Except ApplyError AppResponse × Applied :=
  match e.payload with
  | .blank => (.ok ⟨e.logId.index⟩, { a with lastApplied := some e.logId })
  | .normal op =>
    match a.fsm.apply e.logId.index op with
    | (.error err, fsm) => (.error err, { a with fsm := fsm })
    | (.ok _, fsm) => (.ok ⟨e.logId.index⟩, { a with fsm := fsm, lastApplied := some e.logId })
  | .membership m => (.ok ⟨e.logId.index⟩, { a with
      lastMembership := ⟨some e.logId, m⟩, lastApplied := some e.logId })

/-- `RaftStateMachine::apply`. -/
def apply : List Entry → Applied → Except ApplyError (List AppResponse) × Applied
  | [], a => (.ok [], a)
  | e :: es, a =>
    match a.applyEntry e with
    | (.error err, a') => (.error err, a')
    | (.ok r, a') =>
      match a'.apply es with
      | (.error err, a'') => (.error err, a'')
      | (.ok rs, a'') => (.ok (r :: rs), a'')

/-- Batch after batch, up to the first error. -/
def applyBatches : List (List Entry) → Applied → Except ApplyError (List AppResponse) × Applied
  | [], a => (.ok [], a)
  | batch :: batches, a =>
    match a.apply batch with
    | (.error err, a') => (.error err, a')
    | (.ok rs, a') =>
      match a'.applyBatches batches with
      | (.error err, a'') => (.error err, a'')
      | (.ok rs', a'') => (.ok (rs ++ rs'), a'')

/-! ## What applying is for -/

/-- An entry is committed: an operation that is not valid in the state is passed over. -/
def commit (a : Applied) (e : Entry) : Applied :=
  match e.payload with
  | .blank => { a with lastApplied := some e.logId }
  | .normal op =>
    match a.fsm.apply e.logId.index op with
    | (.error _, _) => { a with lastApplied := some e.logId }
    | (.ok _, fsm) => { a with fsm := fsm, lastApplied := some e.logId }
  | .membership m => { a with lastMembership := ⟨some e.logId, m⟩, lastApplied := some e.logId }

/-- The operation of an entry is valid in the state. -/
def Applicable (a : Applied) (e : Entry) : Prop :=
  ∀ op, e.payload = .normal op → (Registry.of a.fsm.state).Admits op

/-- Every operation is, when its turn comes. -/
def AllApplicable : Applied → List Entry → Prop
  | _, [] => True
  | a, e :: es => a.Applicable e ∧ AllApplicable (a.commit e) es

/-- **The condition on a log**: every operation is admitted by what the operations before it leave. It is on
the entries alone, and on the names and the epoch of the state they start from. -/
def Orderly : Registry → List Entry → Prop
  | _, [] => True
  | r, e :: es =>
    match e.payload with
    | .normal op => r.Admits op ∧ Orderly (r.after op) es
    | _ => Orderly r es

/-- **What a committed log owes**: for every way of cutting it into batches, `apply` returns Ok, with a
response for each entry, the last entry is the last one applied, and the state is that of all entries in
order. -/
def AppliesWhole (a : Applied) (es : List Entry) : Prop :=
  ∀ batches : List (List Entry), batches.flatten = es →
    (a.applyBatches batches).1 = .ok (es.map fun e => ⟨e.logId.index⟩) ∧
    (∀ e, es.getLast? = some e → (a.applyBatches batches).2.lastApplied = some e.logId) ∧
    (a.applyBatches batches).2 = es.foldl commit a

variable {a : Applied} {e : Entry} {es : List Entry}

theorem applyEntry_ok (h : a.Applicable e) : a.applyEntry e = (.ok ⟨e.logId.index⟩, a.commit e) := by
  obtain ⟨logId, payload⟩ := e
  cases payload with
  | blank => rfl
  | membership m => rfl
  | normal op =>
    rcases Registry.apply_cases op a.fsm.state with ⟨state, hstate, -⟩ | ⟨-, hnot⟩
    · simp only [applyEntry, commit, StateMachine.apply, hstate]
    · exact absurd (h op rfl) hnot

theorem applyEntry_error (h : ¬ a.Applicable e) : ∃ err, (a.applyEntry e).1 = .error err := by
  unfold Applicable at h
  push Not at h
  obtain ⟨op, hop, hnone⟩ := h
  unfold applyEntry
  rw [hop]
  rcases Registry.apply_cases op a.fsm.state with ⟨state, -, hadmits, -⟩ | ⟨⟨err, herr⟩, -⟩
  · exact absurd hadmits hnone
  · refine ⟨err, ?_⟩
    simp only [StateMachine.apply, herr]

/-- **A batch** of applicable entries. -/
theorem apply_ok (es : List Entry) : ∀ {a : Applied}, AllApplicable a es →
    a.apply es = (.ok (es.map fun e => ⟨e.logId.index⟩), es.foldl commit a) := by
  induction es with
  | nil => exact fun _ => rfl
  | cons e es ih =>
    intro a h
    rw [apply, applyEntry_ok h.1]
    dsimp only
    rw [ih h.2]
    rfl

/-- A batch with another entry stops. -/
theorem allApplicable_of_apply (es : List Entry) : ∀ {a : Applied} {rs : List AppResponse},
    (a.apply es).1 = .ok rs → AllApplicable a es := by
  induction es with
  | nil => exact fun _ => trivial
  | cons e es ih =>
    intro a rs h
    by_cases he : a.Applicable e
    · rw [apply, applyEntry_ok he] at h
      refine ⟨he, ?_⟩
      cases hrest : (a.commit e).apply es with
      | mk r a' =>
        cases r with
        | ok rs' => exact ih (by rw [hrest])
        | error err => simp [hrest] at h
    · obtain ⟨err, herr⟩ := applyEntry_error he
      rw [apply, show a.applyEntry e = (.error err, (a.applyEntry e).2) from Prod.ext herr rfl] at h
      cases h

theorem allApplicable_append (front : List Entry) : ∀ {a : Applied},
    AllApplicable a (front ++ es) ↔ AllApplicable a front ∧ AllApplicable (front.foldl commit a) es := by
  induction front with
  | nil => exact fun {a} => ⟨fun h => ⟨trivial, h⟩, fun h => h.2⟩
  | cons e front ih =>
    intro a
    rw [List.cons_append, AllApplicable, AllApplicable, ih, and_assoc]
    rfl

/-- **Every batching** of applicable entries ends in the same state. -/
theorem applyBatches_ok (batches : List (List Entry)) : ∀ {a : Applied},
    AllApplicable a batches.flatten → a.applyBatches batches =
      (.ok (batches.flatten.map fun e => ⟨e.logId.index⟩), batches.flatten.foldl commit a) := by
  induction batches with
  | nil => exact fun _ => rfl
  | cons batch batches ih =>
    intro a h
    rw [List.flatten_cons, allApplicable_append] at h
    rw [applyBatches, apply_ok batch h.1]
    dsimp only
    rw [ih h.2, List.flatten_cons, List.map_append, List.foldl_append]

/-- The last entry is the last one applied. -/
theorem lastApplied_foldl_commit (h : es.getLast? = some e) :
    (es.foldl commit a).lastApplied = some e.logId := by
  obtain ⟨front, rfl⟩ := List.getLast?_eq_some_iff.1 h
  rw [List.foldl_concat, commit]
  split
  · rfl
  · split <;> rfl
  · rfl

/-- The registry of the committed entries is that of the entries. -/
theorem allApplicable_iff (es : List Entry) : ∀ {a : Applied},
    AllApplicable a es ↔ Orderly (Registry.of a.fsm.state) es := by
  induction es with
  | nil => exact Iff.rfl
  | cons e es ih =>
    intro a
    obtain ⟨logId, payload⟩ := e
    rw [AllApplicable, ih]
    cases payload with
    | blank => exact and_iff_right nofun
    | membership m => exact and_iff_right nofun
    | normal op =>
      have happlicable : a.Applicable ⟨logId, .normal op⟩ ↔ (Registry.of a.fsm.state).Admits op :=
        ⟨fun h => h op rfl, fun h op' hop => EntryPayload.normal.inj hop ▸ h⟩
      rw [happlicable, Orderly]
      refine and_congr_right fun hadmits => ?_
      rcases Registry.apply_cases op a.fsm.state with ⟨state, hstate, -, hafter⟩ | ⟨-, hnot⟩
      · simp only [commit, StateMachine.apply, hstate, ← hafter]
      · exact absurd hadmits hnot

/-- **A committed log is applied whole** exactly if it is orderly. -/
theorem committed_iff (a : Applied) (es : List Entry) :
    AppliesWhole a es ↔ Orderly (Registry.of a.fsm.state) es := by
  rw [← allApplicable_iff]
  constructor
  · intro h
    have hone := (h [es] List.flatten_singleton).1
    cases hbatch : a.apply es with
    | mk r a' =>
      cases r with
      | ok rs => exact allApplicable_of_apply es (by rw [hbatch])
      | error err => simp [applyBatches, hbatch] at hone
  · rintro h batches rfl
    rw [applyBatches_ok batches h]
    exact ⟨rfl, fun e he => lastApplied_foldl_commit he, rfl⟩

/-- A log of three entries, by one leader. -/
def removeThenAdd : List Entry :=
  [⟨⟨⟨1, 1⟩, 0⟩, .blank⟩, ⟨⟨⟨1, 1⟩, 1⟩, .normal (.removeNode "a")⟩,
    ⟨⟨⟨1, 1⟩, 2⟩, .normal (.addNode "b" "" "" .voter 0)⟩]

/-- On a new node an unknown node stops the batch: the entry after it is not applied, and `last_applied`
stays before it. -/
theorem invalid_op_stops : ¬ AppliesWhole Applied.new removeThenAdd ∧
      (Applied.new.apply removeThenAdd).1 = .error (.unknownNode "a") ∧
      (Applied.new.apply removeThenAdd).2.fsm.state.members = [] ∧
      (Applied.new.apply removeThenAdd).2.lastApplied = some ⟨⟨1, 1⟩, 0⟩ := by
  refine ⟨fun h => ?_, rfl, rfl, rfl⟩
  have hone := (h [removeThenAdd] List.flatten_singleton).1
  cases hone

end Applied

end Abixio.Raft
