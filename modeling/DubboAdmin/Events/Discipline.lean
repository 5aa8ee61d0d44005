import DubboAdmin.Events.Bus

/-!
# The lock discipline of the event bus

What the callers of the bus keep to at every operation, as a protocol for the threads of a pool. The
directory and the `closed` flags change only under the write lock, so that a thread that holds the
lock finds them as it left them (`Rely`). While nobody writes, the flag of a channel says whether it
is closed, each state of the directory whose drainer should run by now has one, and a state that has
left the directory leaves nothing behind in its channel (`Settled`).

Two results rest on the protocol, each under a condition of its own. `Assumed` says which of the
conditions are assumed, so that the methods are gone through only once.
-/

namespace DubboAdmin.Events

open Controller (ResourceChangedEvent)
open Prog (perform)

variable {σ ι : Type}

/-! ## Conditions -/

/-- A drainer empties the channel, or there is nothing in it. -/
def SubscriberState.Drains (c : SubscriberState σ) : Prop := c.drainerStarted = true ∨ c.ch = []

/-- `Unsubscribe` finds a state whose channel no call has closed. -/
def UnsubscribesOpen (_ : ι) (s : EventBus σ ι) : BusOp σ → Prop
  | .storeClosed .unsubscribe st => (s.cells st.id).closed = false
  | _ => True

/-- `WaitForDone` is called after `Start` has succeeded. -/
def StartsFirst (_ : ι) (s : EventBus σ ι) : BusOp σ → Prop
  | .storeStopped => s.startSucceeded = true
  | _ => True

/-- `Unsubscribe` finds a state whose channel is drained or empty, and `Send`, once `stopped` is
set, one whose channel is drained. -/
def LeavesDrained (_ : ι) (s : EventBus σ ι) : BusOp σ → Prop
  | .storeClosed .unsubscribe st => (s.cells st.id).Drains
  | .trySend st _ => s.stopped = true → (s.cells st.id).drainerStarted = true
  | _ => True

/-- The conditions that a result assumes. -/
structure Assumed where
  opened : Prop
  drained : Prop

/-- What is assumed of an operation. -/
def Assumed.Good (A : Assumed) (i : ι) (s : EventBus σ ι) (o : BusOp σ) : Prop :=
  (A.opened → UnsubscribesOpen i s o) ∧
    (A.drained → StartsFirst i s o ∧ LeavesDrained i s o)

/-! ## Invariant -/

/-- The event that a drainer is processing. -/
def Drainer.inFlight : Drainer σ → List (ResourceChangedEvent σ)
  | .processing e => [e]
  | _ => []

/-- The drainer has left its loop. -/
def Drainer.hasReturned : Drainer σ → Bool
  | .returned => true
  | .ended => true
  | _ => false

/-- The events that were placed are accounted for. -/
structure SubscriberState.Accounted (c : SubscriberState σ) : Prop where
  /-- They are processed, being processed, or still in the channel, in this order. -/
  events : c.placed = c.processed ++ c.drainer.inFlight ++ c.ch
  absent : c.drainerStarted = false → c.drainer = .absent
  /-- A drainer leaves its loop when the channel is closed and empty. -/
  returned : c.drainer.hasReturned = true → c.ch = [] ∧ c.chClosed = true

/-- The flag of a channel says whether it is closed. -/
def Synced (s : EventBus σ ι) : Prop := ∀ id, (s.cells id).closed = (s.cells id).chClosed

/-- Once `Start` has succeeded, the asynchronous states of the directory have their drainers, as far
as they came before `stopped`. -/
def Launched (s : EventBus σ ι) : Prop :=
  s.startSucceeded = true → ∀ st ∈ s.refs, st.async = true →
    s.stopped = true ∨ (s.cells st.id).drainerStarted = true

/-- A state that is not in the directory leaves nothing behind. -/
def Removed (s : EventBus σ ι) : Prop :=
  ∀ id, (∀ st ∈ s.refs, st.async = true → st.id ≠ id) → (s.cells id).Drains

/-- What holds while nobody writes. -/
structure Settled (A : Assumed) (s : EventBus σ ι) : Prop where
  synced : Synced s
  launched : A.drained → Launched s
  removed : A.drained → Removed s

/-- How the shutdown is ordered. -/
structure Ordered (s : EventBus σ ι) : Prop where
  stopped : s.stopped = true → s.startSucceeded = true
  started : s.startSucceeded = true → s.started = true
  /-- Once `Start` has succeeded, every channel is drained or empty. -/
  drains : s.startSucceeded = true → ∀ id, (s.cells id).Drains

/-- The invariant of the bus. -/
structure Inv (A : Assumed) (s : EventBus σ ι) : Prop where
  exclusive : s.writer ≠ none → s.readers = []
  valid : ∀ st ∈ s.refs, st.id < s.allocated
  settled : s.writer = none → Settled A s
  sound : A.opened → s.misuse = none
  accounted : ∀ id, (s.cells id).Accounted
  waits : ∀ id, (s.cells id).drainerStarted = true → (s.cells id).drainer.hasEnded = false →
    id ∈ s.wg
  /-- Without a `Start` no thread has set `started`. -/
  begun : s.started = false → s.starter = none
  ordered : A.drained → Ordered s

/-- What the thread `i` relies on, at each step of another thread or of a drainer. -/
structure Rely (i : ι) (s s' : EventBus σ ι) : Prop where
  misuse : s'.misuse = none → s.misuse = none
  /-- No other thread takes or releases the lock for `i`. -/
  writer : s'.writer = some i ↔ s.writer = some i
  reader : i ∈ s'.readers ↔ i ∈ s.readers
  stopped : s.stopped = true → s'.stopped = true
  allocated : s.allocated ≤ s'.allocated
  started : ∀ id, id < s.allocated → (s.cells id).drainerStarted = true →
    (s'.cells id).drainerStarted = true
  /-- Only the thread that has set `started` goes on to succeed. -/
  starter : s.starter = some i →
    s'.starter = some i ∧ s'.startSucceeded = s.startSucceeded
  /-- Under the lock, the directory and the flags stay. -/
  held : s.writer = some i ∨ i ∈ s.readers →
    s'.kinds = s.kinds ∧ s'.subscriberDir = s.subscriberDir ∧
      ∀ id, (s'.cells id).closed = (s.cells id).closed ∧
        (s'.cells id).chClosed = (s.cells id).chClosed
  /-- Under the write lock nothing is launched or sent. -/
  written : s.writer = some i →
    s'.startSucceeded = s.startSucceeded ∧
      ∀ id, (s'.cells id).drainerStarted = (s.cells id).drainerStarted ∧
        ((s.cells id).ch = [] → (s'.cells id).ch = [])

/-- A thread may find the bus as it was. -/
theorem Rely.refl (i : ι) (s : EventBus σ ι) : Rely i s s :=
  ⟨id, Iff.rfl, Iff.rfl, id, le_rfl, fun _ _ => id, fun h => ⟨h, rfl⟩,
    fun _ => ⟨rfl, rfl, fun _ => ⟨rfl, rfl⟩⟩, fun _ => ⟨rfl, fun _ => ⟨rfl, id⟩⟩⟩

/-- The states of the directory are those of its kinds. -/
theorem refs_congr {s s' : EventBus σ ι} (hkinds : s'.kinds = s.kinds)
    (hdir : s'.subscriberDir = s.subscriberDir) : s'.refs = s.refs := by
  unfold EventBus.refs
  rw [hkinds, hdir]

/-- The protocol of the callers. -/
def protocol (A : Assumed) : Protocol (EventBus σ ι) ι where
  inv := Inv A
  rely := Rely

/-! ## Holding the lock -/

section Holding

variable {A : Assumed} {s s' : EventBus σ ι} {i j : ι}

/-- Nobody writes while a thread reads. -/
theorem Inv.writer_eq_none (h : Inv A s) (hi : i ∈ s.readers) : s.writer = none := by
  by_contra hwriter
  rw [h.exclusive hwriter] at hi
  exact List.not_mem_nil hi

/-- No other thread has the lock that nobody else has. -/
theorem not_held (hj : j ≠ i) (hwriter : s.writer = none ∨ s.writer = some i)
    (hreaders : s.readers = []) : ¬ (s.writer = some j ∨ j ∈ s.readers) := by
  rw [hreaders]
  rcases hwriter with hnone | hsome
  · simp [hnone]
  · rw [hsome]
    simp [Ne.symm hj]

/-- The lock, `stopped` and the progress of `Start` stay as they are. -/
structure SameLock (s s' : EventBus σ ι) : Prop where
  writer : s'.writer = s.writer
  readers : s'.readers = s.readers
  stopped : s'.stopped = s.stopped
  starter : s'.starter = s.starter
  succeeded : s'.startSucceeded = s.startSucceeded

/-- What a writer does to the directory and the states is seen by no thread that holds the lock. -/
theorem rely_of_writer (hinv : Inv A s) (hi : s.writer = some i) (hmisuse : s.misuse = none)
    (hsame : SameLock s s') (hallocated : s.allocated ≤ s'.allocated)
    (hstarted : ∀ id, id < s.allocated → (s.cells id).drainerStarted = true →
      (s'.cells id).drainerStarted = true) (hj : j ≠ i) : Rely j s s' := by
  have hreaders : s.readers = [] := hinv.exclusive (by simp [hi])
  have hnot := not_held hj (.inr hi) hreaders
  exact ⟨fun _ => hmisuse, by rw [hsame.writer], by rw [hsame.readers],
    fun h => by rw [hsame.stopped, h], hallocated, hstarted,
    fun h => ⟨by rw [hsame.starter, h], hsame.succeeded⟩, fun h => absurd h hnot,
    fun h => absurd (.inl h) hnot⟩

/-- What a reader does to the channels is seen by no thread that writes. -/
theorem rely_of_reader (hinv : Inv A s) (hi : i ∈ s.readers) (hmisuse : s.misuse = none)
    (hsame : SameLock s s') (hallocated : s'.allocated = s.allocated)
    (hkinds : s'.kinds = s.kinds) (hdir : s'.subscriberDir = s.subscriberDir)
    (hstarted : ∀ id, (s.cells id).drainerStarted = true → (s'.cells id).drainerStarted = true)
    (hflags : ∀ id, (s'.cells id).closed = (s.cells id).closed ∧
      (s'.cells id).chClosed = (s.cells id).chClosed) : Rely j s s' := by
  have hwriter := hinv.writer_eq_none hi
  exact ⟨fun _ => hmisuse, by rw [hsame.writer], by rw [hsame.readers],
    fun h => by rw [hsame.stopped, h], hallocated.ge, fun id _ => hstarted id,
    fun h => ⟨by rw [hsame.starter, h], hsame.succeeded⟩,
    fun _ => ⟨hkinds, hdir, hflags⟩, fun h => by rw [hwriter] at h; cases h⟩

end Holding

/-! ## What a thread knows between its operations -/

section Kept

variable {A : Assumed} {i : ι}

/-- What the thread `i` knows is kept by the others. -/
def Kept (A : Assumed) (i : ι) (Q : EventBus σ ι → Prop) : Prop :=
  ∀ s s', Inv A s → Inv A s' → Rely i s s' → Q s → Q s'

/-- The claim that a thread makes of a state in which the process runs. -/
def Live (Q : EventBus σ ι → Prop) (s : EventBus σ ι) : Prop := s.misuse = none → Q s

/-- What is kept is stable in the protocol. -/
theorem Kept.live {Q : EventBus σ ι → Prop} (hQ : Kept A i Q) : (protocol A).Stable i (Live Q) :=
  fun s s' hinv hinv' hrely h hmisuse => hQ s s' hinv hinv' hrely (h (hrely.misuse hmisuse))

/-- The thread does not hold the lock. -/
def Idle (i : ι) (s : EventBus σ ι) : Prop := s.writer ≠ some i ∧ i ∉ s.readers

/-- The thread holds the lock for writing, and could release it. -/
structure Writing (A : Assumed) (i : ι) (s : EventBus σ ι) : Prop where
  writer : s.writer = some i
  settled : Settled A s

/-- The thread has put a state into the directory, whose drainer may still have to be launched. -/
structure Inserting (A : Assumed) (i : ι) (st : StateRef) (s : EventBus σ ι) : Prop where
  writer : s.writer = some i
  valid : st.id < s.allocated
  synced : Synced s
  launched : A.drained → s.startSucceeded = true → ∀ st' ∈ s.refs, st'.async = true → st' ≠ st →
    s.stopped = true ∨ (s.cells st'.id).drainerStarted = true
  removed : A.drained → Removed s

/-- The thread is about to close the channel of a state, which `Unsubscribe` has taken out of the
directory before, and which `WaitForDone` has found open. -/
structure Closable (A : Assumed) (i : ι) (closer : Closer) (st : StateRef) (s : EventBus σ ι) :
    Prop where
  writer : s.writer = some i
  synced : Synced s
  launched : A.drained → Launched s
  removed : A.drained → ∀ id, (∀ st' ∈ s.refs, st'.async = true → st'.id ≠ id) →
    (closer = .unsubscribe ∧ st.async = true ∧ id = st.id) ∨ (s.cells id).Drains
  opened : closer = .waitForDone → (s.cells st.id).closed = false

/-- The thread has set the flag of a state, whose channel is still to be closed. -/
structure Closing (A : Assumed) (i : ι) (st : StateRef) (s : EventBus σ ι) : Prop where
  writer : s.writer = some i
  synced : ∀ id, id ≠ st.id → (s.cells id).closed = (s.cells id).chClosed
  closed : (s.cells st.id).closed = true
  opened : A.opened → (s.cells st.id).chClosed = false
  launched : A.drained → Launched s
  removed : A.drained → Removed s

/-- Two facts are kept together. -/
theorem Kept.and {Q R : EventBus σ ι → Prop} (hQ : Kept A i Q) (hR : Kept A i R) :
    Kept A i fun s => Q s ∧ R s :=
  fun s s' hinv hinv' hrely h => ⟨hQ s s' hinv hinv' hrely h.1, hR s s' hinv hinv' hrely h.2⟩

/-- A thread does not get the lock by itself. -/
theorem kept_idle : Kept A i (Idle i : EventBus σ ι → Prop) :=
  fun _ _ _ _ hrely h => ⟨fun hw => h.1 (hrely.writer.mp hw), fun hr => h.2 (hrely.reader.mp hr)⟩

/-- A thread does not lose its read lock. -/
theorem kept_reading : Kept A i fun s : EventBus σ ι => i ∈ s.readers :=
  fun _ _ _ _ hrely h => hrely.reader.mpr h

variable {s s' : EventBus σ ι}

/-- A writer finds a drainer running on. -/
theorem Rely.drains (hrely : Rely i s s') (hi : s.writer = some i) {id : ℕ}
    (h : (s.cells id).Drains) : (s'.cells id).Drains := by
  obtain ⟨hstarted, hempty⟩ := (hrely.written hi).2 id
  exact h.imp hstarted.trans hempty

/-- Whoever has the lock finds the same states. -/
theorem Rely.refs (hrely : Rely i s s') (hi : s.writer = some i ∨ i ∈ s.readers) :
    s'.refs = s.refs :=
  refs_congr (hrely.held hi).1 (hrely.held hi).2.1

/-- A writer finds the flags right. -/
theorem Rely.flag (hrely : Rely i s s') (hi : s.writer = some i) {id : ℕ}
    (h : (s.cells id).closed = (s.cells id).chClosed) :
    (s'.cells id).closed = (s'.cells id).chClosed := by
  obtain ⟨hclosed, hchClosed⟩ := (hrely.held (.inl hi)).2.2 id
  rw [hclosed, hchClosed, h]

/-- `stopped` and the flags of the drainers stay set. -/
theorem Rely.stopped_or_started (hrely : Rely i s s') (hi : s.writer = some i) {id : ℕ}
    (h : s.stopped = true ∨ (s.cells id).drainerStarted = true) :
    s'.stopped = true ∨ (s'.cells id).drainerStarted = true :=
  h.imp hrely.stopped (((hrely.written hi).2 id).1.trans)

/-- A writer finds the drainers launched. -/
theorem Rely.launched (hrely : Rely i s s') (hi : s.writer = some i) (h : Launched s) :
    Launched s' := by
  intro hsucceeded st hst hasync
  rw [(hrely.written hi).1] at hsucceeded
  rw [hrely.refs (.inl hi)] at hst
  exact hrely.stopped_or_started hi (h hsucceeded st hst hasync)

/-- A writer finds the removed states left alone. -/
theorem Rely.removed (hrely : Rely i s s') (hi : s.writer = some i) (h : Removed s) :
    Removed s' := by
  intro id hid
  rw [hrely.refs (.inl hi)] at hid
  exact hrely.drains hi (h id hid)

/-- A reader relies on the states that it has read. -/
theorem kept_reading_refs (P : List StateRef → Prop) :
    Kept A i fun s : EventBus σ ι => i ∈ s.readers ∧ P s.refs := by
  intro s s' _ _ hrely h
  rw [hrely.refs (.inr h.1)]
  exact ⟨hrely.reader.mpr h.1, h.2⟩

/-- A writer relies on what it started from. -/
theorem kept_writing : Kept A i (Writing A i : EventBus σ ι → Prop) := by
  intro s s' _ _ hrely h
  exact ⟨hrely.writer.mpr h.writer, fun id => hrely.flag h.writer (h.settled.synced id),
    fun hA => hrely.launched h.writer (h.settled.launched hA),
    fun hA => hrely.removed h.writer (h.settled.removed hA)⟩

/-- A writer relies on the directory. -/
theorem kept_writing_dir (P : List String → (String → List StateRef) → Prop) :
    Kept A i fun s : EventBus σ ι => Writing A i s ∧ P s.kinds s.subscriberDir := by
  intro s s' hinv hinv' hrely h
  obtain ⟨hkinds, hdir, -⟩ := hrely.held (.inl h.1.writer)
  refine ⟨kept_writing s s' hinv hinv' hrely h.1, ?_⟩
  rw [hkinds, hdir]
  exact h.2

variable {st : StateRef}

/-- A writer relies on the state that it inserts. -/
theorem kept_inserting :
    Kept A i (Inserting A i st : EventBus σ ι → Prop) := by
  intro s s' _ _ hrely h
  refine ⟨hrely.writer.mpr h.writer, lt_of_lt_of_le h.valid hrely.allocated,
    fun id => hrely.flag h.writer (h.synced id), fun hA hsucceeded st' hst' hasync hne => ?_,
    fun hA => hrely.removed h.writer (h.removed hA)⟩
  rw [(hrely.written h.writer).1] at hsucceeded
  rw [hrely.refs (.inl h.writer)] at hst'
  exact hrely.stopped_or_started h.writer (h.launched hA hsucceeded st' hst' hasync hne)

/-- A writer relies on the state that it may close. -/
theorem kept_closable {closer : Closer} :
    Kept A i (Closable A i closer st : EventBus σ ι → Prop) := by
  intro s s' _ _ hrely h
  refine ⟨hrely.writer.mpr h.writer, fun id => hrely.flag h.writer (h.synced id),
    fun hA => hrely.launched h.writer (h.launched hA), fun hA id hid => ?_, fun hcloser => ?_⟩
  · rw [hrely.refs (.inl h.writer)] at hid
    exact (h.removed hA id hid).imp_right (hrely.drains h.writer)
  · rw [((hrely.held (.inl h.writer)).2.2 st.id).1]
    exact h.opened hcloser

/-- A writer relies on the state that it closes. -/
theorem kept_closing : Kept A i (Closing A i st : EventBus σ ι → Prop) := by
  intro s s' _ _ hrely h
  obtain ⟨hclosed, hchClosed⟩ := (hrely.held (.inl h.writer)).2.2 st.id
  exact ⟨hrely.writer.mpr h.writer, fun id hid => hrely.flag h.writer (h.synced id hid),
    hclosed.trans h.closed, fun hA => hchClosed.trans (h.opened hA),
    fun hA => hrely.launched h.writer (h.launched hA),
    fun hA => hrely.removed h.writer (h.removed hA)⟩

end Kept

end DubboAdmin.Events
