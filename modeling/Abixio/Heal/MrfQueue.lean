import Abixio.Storage.ErasureEncode

/-!
# The repair queue and its worker

Model of `MrfQueue` (`src/heal/mrf.rs:20-82`) and `mrf_drain_worker` (`src/heal/worker.rs:180-226`). A run
interleaves `enqueue` calls of any number of writers with the steps of the worker. `enqueue` is one step,
since it holds the lock of `seen` over its `try_send`.

* The worker receives an entry, `heal_object` reads the disks and writes the repairs, and `mark_done` forgets
  the entry. The writes do not touch the queue, so they are part of the time between the last two.
* `seen` covers the entry in the worker's hands, so an `enqueue` of it is answered with `Ok` and does
  nothing, also after the disks were read.

`books_kept`: what `seen` and the channel hold in every state. `remembers_iff`: which runs forget damage.
-/

namespace Abixio

open List

/-- `MrfQueue`, with the entries that wait in its channel. -/
structure MrfQueue where
  channel : List MrfEntry
  seen : Finset MrfEntry
  capacity : Nat
  /-- The receiver is gone. -/
  closed : Bool

/-- `enqueue`. -/
def MrfQueue.enqueue (q : MrfQueue) (entry : MrfEntry) : Except String Unit × MrfQueue :=
  if entry ∈ q.seen then (.ok (), q)
  -- `try_send`
  else if q.closed then (.error "queue closed", q)
  else if q.channel.length < q.capacity then
    (.ok (), { q with channel := q.channel ++ [entry], seen := insert entry q.seen })
  else (.error "queue full", q)

/-- The queue and its worker: the entry in its hands, and whether its heal has begun to read. `reported` is no
state of the source: the entries for which an `enqueue` returned `Ok` since their last heal began. -/
structure MrfState where
  queue : MrfQueue
  worker : Option (MrfEntry × Bool)
  reported : Finset MrfEntry

inductive MrfAction where
  | enqueue (entry : MrfEntry)
  | work

namespace MrfState

/-- `MrfQueue::new`, and a worker that waits. -/
def new (capacity : Nat) : MrfState := ⟨⟨[], ∅, capacity, false⟩, none, ∅⟩

def step (s : MrfState) : MrfAction → MrfState
  | .enqueue entry =>
    let (result, queue) := s.queue.enqueue entry
    { s with queue := queue, reported := if result.isOk then insert entry s.reported else s.reported }
  | .work =>
    match s.worker with
    | none =>
      match s.queue.channel with
      | [] => s
      | entry :: rest => { s with queue := { s.queue with channel := rest }, worker := some (entry, false) }
    | some (entry, false) => { s with worker := some (entry, true), reported := s.reported.erase entry }
    -- `mark_done`
    | some (entry, true) =>
      { s with queue := { s.queue with seen := s.queue.seen.erase entry }, worker := none }

def run (s : MrfState) (actions : List MrfAction) : MrfState := actions.foldl step s

def held (s : MrfState) : List MrfEntry := (s.worker.map Prod.fst).toList

/-- **The books of the queue.** -/
structure Books (capacity : Nat) (s : MrfState) : Prop where
  seen : s.queue.seen = (s.queue.channel ++ s.held).toFinset
  nodup : (s.queue.channel ++ s.held).Nodup
  waiting : s.queue.channel.length ≤ capacity
  opened : s.queue.closed = false ∧ s.queue.capacity = capacity

/-- Reported damage is still in the channel, or its heal has not begun. -/
def Remembers (s : MrfState) : Prop :=
  ∀ entry ∈ s.reported, entry ∈ s.queue.channel ∨ s.worker = some (entry, false)

variable {s : MrfState} {entry : MrfEntry} {capacity : Nat}

section Step

variable (h : s.Books capacity)
include h

theorem Books.mem_seen : entry ∈ s.queue.seen ↔ entry ∈ s.queue.channel ∨ entry ∈ s.held := by
  rw [h.seen, mem_toFinset, mem_append]

/-- What `enqueue` does: nothing, for an entry that was seen, or it sends the entry, or it fails. -/
theorem Books.enqueue (entry : MrfEntry) :
    entry ∈ s.queue.seen ∧ s.queue.enqueue entry = (.ok (), s.queue) ∨
      entry ∉ s.queue.seen ∧ (s.queue.channel.length < capacity ∧ s.queue.enqueue entry = (.ok (),
        { s.queue with channel := s.queue.channel ++ [entry], seen := insert entry s.queue.seen }) ∨
      ¬ s.queue.channel.length < capacity ∧ s.queue.enqueue entry = (.error "queue full", s.queue)) := by
  unfold MrfQueue.enqueue
  simp only [h.opened, Bool.false_eq_true, if_false]
  split_ifs with hseen hroom
  · exact Or.inl ⟨hseen, rfl⟩
  · exact Or.inr ⟨hseen, Or.inl ⟨hroom, rfl⟩⟩
  · exact Or.inr ⟨hseen, Or.inr ⟨hroom, rfl⟩⟩

/-- An entry in the worker's hands does not wait. -/
theorem Books.not_waiting {begun : Bool} (hworker : s.worker = some (entry, begun)) :
    entry ∉ s.queue.channel := by
  intro hmem
  have hnodup := h.nodup
  rw [held, hworker, nodup_append] at hnodup
  exact hnodup.2.2 _ hmem _ (mem_singleton_self _) rfl

theorem Books.step (action : MrfAction) : (s.step action).Books capacity := by
  cases action with
  | enqueue entry =>
    obtain ⟨-, hrun⟩ | ⟨hseen, ⟨hroom, hrun⟩ | ⟨-, hrun⟩⟩ := h.enqueue entry
    · simp only [MrfState.step, hrun]
      exact ⟨h.seen, h.nodup, h.waiting, h.opened⟩
    · simp only [MrfState.step, hrun]
      have hperm : (s.queue.channel ++ [entry] ++ s.held).Perm (entry :: (s.queue.channel ++ s.held)) := by
        rw [append_assoc]
        exact perm_middle
      rw [h.mem_seen, ← mem_append] at hseen
      refine ⟨?_, hperm.nodup_iff.mpr (nodup_cons.mpr ⟨hseen, h.nodup⟩), ?_, h.opened⟩
      · rw [h.seen, ← toFinset_cons]
        exact (toFinset_eq_of_perm _ _ hperm).symm
      · rw [length_append]
        exact hroom
    · simp only [MrfState.step, hrun]
      exact ⟨h.seen, h.nodup, h.waiting, h.opened⟩
  | work =>
    obtain ⟨⟨channel, seen, limit, closed⟩, worker, reported⟩ := s
    obtain ⟨hseen, hnodup, hwaiting, hopened⟩ := h
    match worker, channel with
    | none, [] => exact ⟨hseen, hnodup, hwaiting, hopened⟩
    | none, entry :: rest =>
      have hperm : (rest ++ [entry]).Perm (entry :: rest ++ []) := by simp [perm_append_singleton]
      exact ⟨hseen.trans (toFinset_eq_of_perm _ _ hperm).symm, hperm.nodup_iff.mpr hnodup,
        Nat.le_of_succ_le hwaiting, hopened⟩
    | some (entry, false), _ => exact ⟨hseen, hnodup, hwaiting, hopened⟩
    | some (entry, true), channel =>
      have hnot : entry ∉ channel := Books.not_waiting ⟨hseen, hnodup, hwaiting, hopened⟩ rfl
      refine ⟨?_, ?_, hwaiting, hopened⟩
      · change seen.erase entry = (channel ++ []).toFinset
        rw [show seen = _ from hseen]
        ext other
        simp [held]
        grind
      · change (channel ++ []).Nodup
        rw [append_nil]
        exact hnodup.of_append_left

end Step

theorem books_run (capacity : Nat) (actions : List MrfAction) : ((new capacity).run actions).Books capacity := by
  induction actions using List.reverseRecOn with
  | nil => exact ⟨rfl, nodup_nil, Nat.zero_le _, rfl, rfl⟩
  | append_singleton actions action ih =>
    rw [run, foldl_append]
    exact ih.step action

/-- **In every state of every run** `seen` is what waits or is held, nothing is there twice, and at most
`capacity` entries wait. An `enqueue` that fails changes nothing, and where there is room it does not fail. -/
theorem books_kept (capacity : Nat) (actions : List MrfAction) :
    let s := (new capacity).run actions
    s.Books capacity ∧ ∀ entry,
      ((s.queue.enqueue entry).1.isOk = false → (s.queue.enqueue entry).2 = s.queue ∧ entry ∉ s.queue.seen) ∧
      (s.queue.channel.length < capacity → (s.queue.enqueue entry).1 = .ok () ∧
        entry ∈ (s.queue.enqueue entry).2.channel ++ s.held) := by
  have h := books_run capacity actions
  refine ⟨h, fun entry => ?_⟩
  obtain ⟨hseen, hrun⟩ | ⟨hseen, ⟨-, hrun⟩ | ⟨hfull, hrun⟩⟩ := h.enqueue entry
  · rw [hrun]
    exact ⟨nofun, fun _ => ⟨rfl, mem_append.mpr (h.mem_seen.mp hseen)⟩⟩
  · rw [hrun]
    exact ⟨nofun, fun _ => ⟨rfl, by simp⟩⟩
  · rw [hrun]
    exact ⟨fun _ => ⟨rfl, hseen⟩, fun hroom => absurd hroom hfull⟩

/-- A step that does not report an entry while it is healed forgets nothing. -/
theorem Remembers.step (hrem : s.Remembers) (h : s.Books capacity) {action : MrfAction}
    (hfree : ∀ entry, action = .enqueue entry → s.worker ≠ some (entry, true)) :
    (s.step action).Remembers := by
  cases action with
  | enqueue entry =>
    intro other hother
    obtain ⟨hseen, hrun⟩ | ⟨-, ⟨-, hrun⟩ | ⟨-, hrun⟩⟩ := h.enqueue entry
    · simp only [MrfState.step, hrun] at hother ⊢
      rcases Finset.mem_insert.mp hother with rfl | hother
      · refine (h.mem_seen.mp hseen).imp_right fun hheld => ?_
        obtain ⟨⟨_, begun⟩, hworker, rfl⟩ := Option.map_eq_some_iff.mp (Option.mem_toList.mp hheld)
        cases begun with
        | false => exact hworker
        | true => exact absurd hworker (hfree _ rfl)
      · exact hrem other hother
    · simp only [MrfState.step, hrun] at hother ⊢
      rcases Finset.mem_insert.mp hother with rfl | hother
      · exact Or.inl (by simp)
      · exact (hrem other hother).imp_left (mem_append_left _)
    · simp only [MrfState.step, hrun] at hother ⊢
      exact hrem other hother
  | work =>
    obtain ⟨⟨channel, seen, limit, closed⟩, worker, reported⟩ := s
    intro other hother
    match worker, channel with
    | none, [] => exact hrem other hother
    | none, entry :: rest =>
      rcases hrem other hother with hmem | hmem
      · exact (mem_cons.mp hmem).symm.imp_right fun he => by rw [he]; rfl
      · cases hmem
    | some (entry, false), _ =>
      obtain ⟨hne, hother⟩ := Finset.mem_erase.mp hother
      refine (hrem other hother).imp_right fun hmem => ?_
      cases hmem
      exact absurd rfl hne
    | some (entry, true), _ => exact (hrem other hother).imp_right nofun

/-- An entry that is reported while it is healed is forgotten at once. -/
theorem Books.forgets (h : s.Books capacity) (hworker : s.worker = some (entry, true)) :
    ¬ (s.step (.enqueue entry)).Remembers := by
  have hseen : entry ∈ s.queue.seen := h.mem_seen.mpr (Or.inr (by simp [held, hworker]))
  obtain ⟨-, hrun⟩ | ⟨hnot, -⟩ := h.enqueue entry
  · intro hrem
    simp only [Remembers, MrfState.step, hrun] at hrem
    rcases hrem entry (Finset.mem_insert_self _ _) with hmem | hmem
    · exact h.not_waiting hworker hmem
    · simp [hworker] at hmem
  · exact absurd hseen hnot

/-- **Which runs remember reported damage**: those that do not report an entry between the read of its
heal and `mark_done`. -/
theorem remembers_iff (capacity : Nat) (actions : List MrfAction) :
    (∀ done, done <+: actions → ((new capacity).run done).Remembers) ↔
      ∀ done entry, done ++ [.enqueue entry] <+: actions →
        ((new capacity).run done).worker ≠ some (entry, true) := by
  constructor
  · intro hrem done entry hpre hworker
    refine (books_run capacity done).forgets hworker ?_
    have hstep := hrem _ hpre
    rwa [run, foldl_append] at hstep
  · intro hfree done
    induction done using List.reverseRecOn with
    | nil => exact fun _ entry hentry => by cases hentry
    | append_singleton done action ih =>
      intro hpre
      rw [run, foldl_append]
      refine (ih ((prefix_append _ _).trans hpre)).step (books_run capacity done) ?_
      rintro entry rfl
      exact hfree done entry hpre

/-- **Damage is forgotten.** A writer reports an object whose heal has read the disks. The worker finishes,
and nothing is left to heal. -/
theorem damage_forgotten :
    let entry : MrfEntry := ⟨"bkt", "k"⟩
    let s := (new 1000).run [.enqueue entry, .work, .work]
    let s' := s.run [.enqueue entry, .work]
    s.worker = some (entry, true) ∧ (s.queue.enqueue entry).1 = .ok () ∧ entry ∈ s'.reported ∧
      s'.queue.channel = [] ∧ s'.worker = none := by
  refine ⟨rfl, rfl, by decide, rfl, rfl⟩

end MrfState

end Abixio
