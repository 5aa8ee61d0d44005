import DubboAdmin.Controller.Informer

/-!
# The event bus

`eventBus` of `pkg/core/events`: a directory of subscribers per resource kind under a read-write
lock, two atomic flags `started` and `stopped`, and for each asynchronous subscriber a buffered
channel with a goroutine that drains it. Every access to a flag, the lock, the directory or a
channel is one operation (`BusOp`), and the methods are programs over them. A thread that waits for
the lock, for a drainer or for the wait group has no step until it may go on.

A channel that is closed twice, or sent on after it was closed, makes the process panic (`misuse`).
-/

namespace DubboAdmin.Events

open Controller (ResourceChangedEvent)
open Prog (perform)

/-! ## State -/

/-- What the bus asks of a `Subscriber`. -/
structure Subscriber where
  resourceKind : String
  name : String
  asyncEnabled : Bool
deriving DecidableEq, Repr

/-- A `*subscriberState`, with the fields that are set only when it is made. The channels `ch` and
`done` are made with it if and only if it is asynchronous. -/
structure StateRef where
  id : ℕ
  subscriber : Subscriber
  async : Bool
deriving DecidableEq, Repr

/-- Where the goroutine that drains a channel is. -/
inductive Drainer (σ : Type) where
  /-- It was not started. -/
  | absent
  /-- It waits for the next event of the channel. -/
  | waiting
  /-- It is in `ProcessEvent`. -/
  | processing (e : ResourceChangedEvent σ)
  /-- Its loop has ended and `done` is closed. -/
  | returned
  /-- It has left the wait group. -/
  | ended
deriving DecidableEq, Repr

/-- What a `subscriberState` holds, and what has gone through its channel. -/
structure SubscriberState (σ : Type) where
  /-- The events in the buffer of `ch`, the oldest first. -/
  ch : List (ResourceChangedEvent σ) := []
  chClosed : Bool := false
  closed : Bool := false
  drainerStarted : Bool := false
  drainer : Drainer σ := .absent
  placed : List (ResourceChangedEvent σ) := []
  processed : List (ResourceChangedEvent σ) := []
deriving DecidableEq, Repr

/-- A use of a channel that panics. -/
inductive Misuse where
  /-- `close` of a channel that is closed. -/
  | closeOfClosed (id : ℕ)
  /-- A send on a channel that is closed. -/
  | sendOnClosed (id : ℕ)
deriving DecidableEq, Repr

/-- The bus, as the threads `ι` share it. -/
structure EventBus (σ ι : Type) where
  bufferSize : ℤ
  writer : Option ι := none
  readers : List ι := []
  /-- The kinds that `subscriberDir` has an entry for. -/
  kinds : List String := []
  subscriberDir : String → List StateRef := fun _ => []
  cells : ℕ → SubscriberState σ := fun _ => {}
  /-- The number of states made so far, which have the addresses below it. -/
  allocated : ℕ := 0
  started : Bool := false
  stopped : Bool := false
  wg : List ℕ := []
  starter : Option ι := none
  /-- `Start` has launched its drainers and goes on to return `nil`. -/
  startSucceeded : Bool := false
  misuse : Option Misuse := none

variable {σ ι : Type}

namespace EventBus

/-- The states in the directory. -/
def refs (s : EventBus σ ι) : List StateRef := s.kinds.flatMap s.subscriberDir

/-- One state is replaced. -/
def setCell (s : EventBus σ ι) (id : ℕ) (c : SubscriberState σ) : EventBus σ ι :=
  { s with cells := Function.update s.cells id c }

/-- The directory gets another entry for a kind. -/
def setStates (s : EventBus σ ι) (rk : String) (states : List StateRef) : EventBus σ ι :=
  { s with
    kinds := if rk ∈ s.kinds then s.kinds else s.kinds ++ [rk]
    subscriberDir := Function.update s.subscriberDir rk states }

/-- A new state. -/
def alloc (s : EventBus σ ι) : EventBus σ ι :=
  { s with allocated := s.allocated + 1, cells := Function.update s.cells s.allocated {} }

/-- The drainer of a state is started, unless it was before. -/
def launch (s : EventBus σ ι) (id : ℕ) : EventBus σ ι :=
  if (s.cells id).drainerStarted then s
  else
    { s with
      cells := Function.update s.cells id
        { s.cells id with drainerStarted := true, drainer := .waiting }
      wg := id :: s.wg }

end EventBus

/-- A drainer's next step: it receives the oldest event, processes the one that it has received,
leaves its loop when the channel is closed and empty, and leaves the wait group. -/
def SubscriberState.drain (c : SubscriberState σ) : Option (SubscriberState σ) :=
  match c.drainer with
  | .absent => none
  | .waiting =>
    match c.ch with
    | e :: rest => some { c with ch := rest, drainer := .processing e }
    | [] => if c.chClosed then some { c with drainer := .returned } else none
  | .processing e => some { c with drainer := .waiting, processed := c.processed ++ [e] }
  | .returned => some { c with drainer := .ended }
  | .ended => none

/-- The drainer has left the wait group. -/
def Drainer.hasEnded : Drainer σ → Bool
  | .ended => true
  | _ => false

/-- The bus after a drainer's step to `c`. -/
def EventBus.drained (s : EventBus σ ι) (id : ℕ) (c : SubscriberState σ) : EventBus σ ι :=
  { s with
    cells := Function.update s.cells id c
    wg := if c.drainer.hasEnded then s.wg.filter (· ≠ id) else s.wg }

/-! ## Operations -/

/-- The call that closes a channel. -/
inductive Closer where
  | unsubscribe
  | waitForDone
deriving DecidableEq, Repr

/-- The atomic steps of the methods. -/
inductive BusOp (σ : Type) where
  /-- `started.CompareAndSwap(false, true)`. -/
  | casStarted
  /-- `started.Load()`. -/
  | loadStarted
  /-- `stopped.Load()`. -/
  | loadStopped
  /-- `stopped.Store(true)`. -/
  | storeStopped
  | lock
  | unlock
  | rLock
  | rUnlock
  /-- The entry of `subscriberDir` for a kind, if it exists. -/
  | loadStates (rk : String)
  /-- The states that a `range` over `subscriberDir` visits, in the order in which it does. -/
  | rangeStates
  /-- An assignment of an entry of `subscriberDir`. -/
  | storeStates (rk : String) (states : List StateRef)
  /-- `&subscriberState{…}`, with its channels. -/
  | newState (subscriber : Subscriber) (async : Bool)
  /-- `drainerStarted.CompareAndSwap(false, true)`, and if it succeeds `wg.Add(1)` and `go`. The
  caller holds `rwMutex` from before to after. -/
  | startDrainer (st : StateRef)
  /-- `drainerStarted.Load()`. -/
  | loadDrainerStarted (st : StateRef)
  /-- `closed.Load()`. -/
  | loadClosed (st : StateRef)
  /-- `closed.Store(true)`. -/
  | storeClosed (closer : Closer) (st : StateRef)
  /-- `close(st.ch)`. -/
  | closeChannel (st : StateRef)
  /-- The `select` that sends on `st.ch`, or drops the event if the buffer is full. -/
  | trySend (st : StateRef) (event : ResourceChangedEvent σ)
  /-- `ProcessEvent` of a synchronous subscriber, whose error is only logged. -/
  | processEvent (st : StateRef) (event : ResourceChangedEvent σ)
  /-- `<-st.done`. -/
  | waitDone (st : StateRef)
  /-- `wg.Wait()`. -/
  | waitGroup
  /-- `Start` has passed its loop. No statement of the source, only a mark in the history. -/
  | markSucceeded

/-- What a step answers. -/
def BusOp.Res : BusOp σ → Type
  | .casStarted => Bool
  | .loadStarted => Bool
  | .loadStopped => Bool
  | .loadStates _ => Option (List StateRef)
  | .rangeStates => List StateRef
  | .newState _ _ => StateRef
  | .loadDrainerStarted _ => Bool
  | .loadClosed _ => Bool
  | _ => Unit

section Steps

variable [DecidableEq ι]

/-- A step of the thread `i`, where a `range` over the directory visits `order`; `none` where the
thread has to wait. -/
def EventBus.exec (i : ι) (order : List StateRef) (s : EventBus σ ι) :
    (o : BusOp σ) → Option (o.Res × EventBus σ ι)
  | .casStarted =>
    some (!s.started, if s.started then s else { s with started := true, starter := some i })
  | .loadStarted => some (s.started, s)
  | .loadStopped => some (s.stopped, s)
  | .storeStopped => some ((), { s with stopped := true })
  | .lock =>
    if s.writer = none ∧ s.readers = [] then some ((), { s with writer := some i }) else none
  | .unlock => some ((), { s with writer := none })
  | .rLock => if s.writer = none then some ((), { s with readers := i :: s.readers }) else none
  | .rUnlock => some ((), { s with readers := s.readers.filter (· ≠ i) })
  | .loadStates rk => some (if rk ∈ s.kinds then some (s.subscriberDir rk) else none, s)
  | .rangeStates => some (order, s)
  | .storeStates rk states => some ((), s.setStates rk states)
  | .newState subscriber async => some (⟨s.allocated, subscriber, async⟩, s.alloc)
  | .startDrainer st => some ((), s.launch st.id)
  | .loadDrainerStarted st => some ((s.cells st.id).drainerStarted, s)
  | .loadClosed st => some ((s.cells st.id).closed, s)
  | .storeClosed _ st => some ((), s.setCell st.id { s.cells st.id with closed := true })
  | .closeChannel st =>
    some ((), if (s.cells st.id).chClosed then { s with misuse := some (.closeOfClosed st.id) }
      else s.setCell st.id { s.cells st.id with chClosed := true })
  | .trySend st event =>
    some ((), if (s.cells st.id).chClosed then { s with misuse := some (.sendOnClosed st.id) }
      else if ((s.cells st.id).ch.length : ℤ) < s.bufferSize then
        s.setCell st.id
          { s.cells st.id with
            ch := (s.cells st.id).ch ++ [event], placed := (s.cells st.id).placed ++ [event] }
      else s)
  | .processEvent _ _ => some ((), s)
  | .waitDone st =>
    match (s.cells st.id).drainer with
    | .returned => some ((), s)
    | .ended => some ((), s)
    | _ => none
  | .waitGroup => if s.wg = [] then some ((), s) else none
  | .markSucceeded => some ((), { s with startSucceeded := true })

/-- What a step of the thread `i` may do: a `range` visits the states in any order. -/
def BusSem (i : ι) (s : EventBus σ ι) (o : BusOp σ) (r : o.Res) (s' : EventBus σ ι) : Prop :=
  s.misuse = none ∧ ∃ order, order.Perm s.refs ∧ s.exec i order o = some (r, s')

end Steps

/-- A step of one of the drainers. -/
def DrainStep (s s' : EventBus σ ι) : Prop :=
  s.misuse = none ∧ ∃ id c, (s.cells id).drain = some c ∧ s' = s.drained id c

/-! ## The methods -/

/-- A program of a thread that calls the bus. -/
abbrev BusProg (σ α : Type) := Prog (BusOp σ) BusOp.Res α

/-! Each operation, as a program with its answer. -/

def casStarted : BusProg σ Bool := perform BusOp.casStarted

def loadStarted : BusProg σ Bool := perform BusOp.loadStarted

def loadStopped : BusProg σ Bool := perform BusOp.loadStopped

def storeStopped : BusProg σ Unit := perform BusOp.storeStopped

def lock : BusProg σ Unit := perform BusOp.lock

def unlock : BusProg σ Unit := perform BusOp.unlock

def rLock : BusProg σ Unit := perform BusOp.rLock

def rUnlock : BusProg σ Unit := perform BusOp.rUnlock

def loadStates (rk : String) : BusProg σ (Option (List StateRef)) := perform (BusOp.loadStates rk)

def rangeStates : BusProg σ (List StateRef) := perform BusOp.rangeStates

def storeStates (rk : String) (states : List StateRef) : BusProg σ Unit :=
  perform (BusOp.storeStates rk states)

def newState (subscriber : Subscriber) (async : Bool) : BusProg σ StateRef :=
  perform (BusOp.newState subscriber async)

def startDrainer (st : StateRef) : BusProg σ Unit := perform (BusOp.startDrainer st)

def loadDrainerStarted (st : StateRef) : BusProg σ Bool := perform (BusOp.loadDrainerStarted st)

def loadClosed (st : StateRef) : BusProg σ Bool := perform (BusOp.loadClosed st)

def storeClosed (closer : Closer) (st : StateRef) : BusProg σ Unit :=
  perform (BusOp.storeClosed closer st)

def closeChannel (st : StateRef) : BusProg σ Unit := perform (BusOp.closeChannel st)

def trySend (st : StateRef) (event : ResourceChangedEvent σ) : BusProg σ Unit :=
  perform (BusOp.trySend st event)

def processEvent (st : StateRef) (event : ResourceChangedEvent σ) : BusProg σ Unit :=
  perform (BusOp.processEvent st event)

def waitDone (st : StateRef) : BusProg σ Unit := perform (BusOp.waitDone st)

def waitGroup : BusProg σ Unit := perform BusOp.waitGroup

def markSucceeded : BusProg σ Unit := perform BusOp.markSucceeded

def launchDrainer (st : StateRef) : BusProg σ Unit := do
  let stopped ← loadStopped
  if stopped then return () else startDrainer st

/-- `Start` at one state. -/
def launchIfAsync (st : StateRef) : BusProg σ Unit :=
  if st.async then launchDrainer st else return ()

/-- The loop of `Start`. -/
def launchDrainers : List StateRef → BusProg σ Unit
  | [] => return ()
  | st :: states => do
    launchIfAsync st
    launchDrainers states

def start : BusProg σ (Except Failure Unit) := do
  let swapped ← casStarted
  if swapped then do
    rLock
    let states ← rangeStates
    launchDrainers states
    markSucceeded
    rUnlock
    return .ok ()
  else return .error (.err "eventBus already started")

/-- The end of `Subscribe`: a drainer is launched at once if the bus has started. -/
def launchIfStarted (state : StateRef) : BusProg σ Unit :=
  if state.async then do
    let started ← loadStarted
    if started then launchDrainer state else return ()
  else return ()

/-- `Subscribe`, between `Lock` and the deferred `Unlock`. -/
def subscribeLocked (bufferSize : ℤ) (subscriber : Subscriber) :
    BusProg σ (Except Failure Unit) := do
  let stopped ← loadStopped
  if stopped then return .error (.err "eventBus already stopped")
  else do
    let entry ← loadStates subscriber.resourceKind
    let states := entry.getD []
    if states.any fun st => st.subscriber.name == subscriber.name then
      return .error (.err ("duplicated subscriber name " ++ subscriber.name ++
        ", skipped subscribing"))
    else do
      let isAsync := decide (0 < bufferSize) && subscriber.asyncEnabled
      let state ← newState subscriber isAsync
      storeStates subscriber.resourceKind (states ++ [state])
      launchIfStarted state
      return .ok ()

def subscribe (bufferSize : ℤ) (subscriber : Subscriber) : BusProg σ (Except Failure Unit) := do
  lock
  let result ← subscribeLocked bufferSize subscriber
  unlock
  return result

/-- A channel is closed, after its flag is set. -/
def closeState (closer : Closer) (st : StateRef) : BusProg σ Unit := do
  storeClosed closer st
  closeChannel st

/-- `Unsubscribe` closes the state that it has removed, if it is asynchronous. The result is whether
its drainer runs. -/
def closeRemoved (st : StateRef) : BusProg σ Bool :=
  if st.async then do
    closeState .unsubscribe st
    loadDrainerStarted st
  else return false

/-- `Unsubscribe` at the state that it has found. -/
def removeState (subscriber : Subscriber) (states : List StateRef) (st : StateRef) :
    BusProg σ Bool := do
  storeStates subscriber.resourceKind
    (states.eraseP fun st => st.subscriber.name == subscriber.name)
  closeRemoved st

/-- `Unsubscribe`, between `Lock` and `Unlock`: the state that was removed if its drainer runs. -/
def unsubscribeLocked (subscriber : Subscriber) :
    BusProg σ (Except Failure (Option StateRef)) := do
  let entry ← loadStates subscriber.resourceKind
  match entry with
  | none =>
    return .error (.err ("no subscriber for resource " ++ subscriber.resourceKind ++
      ", skipped unsubscribing"))
  | some states =>
    match states.find? fun st => st.subscriber.name == subscriber.name with
    | none =>
      return .error (.err ("no subscriber named " ++ subscriber.name ++ " for resource " ++
        subscriber.resourceKind ++ ", skipped unsubscribing"))
    | some st => do
      let drainerRunning ← removeState subscriber states st
      return .ok (if drainerRunning then some st else none)

def unsubscribe (subscriber : Subscriber) : BusProg σ (Except Failure Unit) := do
  lock
  let result ← unsubscribeLocked subscriber
  unlock
  match result with
  | .error e => return .error e
  | .ok none => return .ok ()
  | .ok (some st) => do
    waitDone st
    return .ok ()

/-- The kind whose subscribers an event is for: that of the new object, or else of the old one. -/
def eventKind (event : ResourceChangedEvent σ) : String :=
  match event.newObj, event.oldObj with
  | some new, _ => new.kind
  | none, some old => old.kind
  | none, none => ""

/-- `Send` at one state: an asynchronous one gets the event if it is not closed and its buffer has
room, a synchronous one processes it. -/
def sendTo (event : ResourceChangedEvent σ) (st : StateRef) : BusProg σ Unit :=
  if st.async then do
    let closed ← loadClosed st
    if closed then return () else trySend st event
  else processEvent st event

/-- The loop of `Send`. -/
def sendToAll (event : ResourceChangedEvent σ) : List StateRef → BusProg σ Unit
  | [] => return ()
  | st :: states => do
    sendTo event st
    sendToAll event states

def send (event : ResourceChangedEvent σ) : BusProg σ Unit := do
  let stopped ← loadStopped
  if stopped then return ()
  else do
    rLock
    let entry ← loadStates (eventKind event)
    sendToAll event (entry.getD [])
    rUnlock

/-- `WaitForDone` at one state. -/
def closeIfOpen (st : StateRef) : BusProg σ Unit :=
  if st.async then do
    let closed ← loadClosed st
    if closed then return () else closeState .waitForDone st
  else return ()

/-- The loop of `WaitForDone`. -/
def closeAll : List StateRef → BusProg σ Unit
  | [] => return ()
  | st :: states => do
    closeIfOpen st
    closeAll states

def waitForDone : BusProg σ Unit := do
  storeStopped
  lock
  let states ← rangeStates
  closeAll states
  unlock
  waitGroup

/-! ## Any number of callers -/

/-- What a call has returned. -/
inductive Outcome where
  /-- The error of `Start`, `Subscribe` or `Unsubscribe`. -/
  | result (r : Except Failure Unit)
  | sent
  | done

/-- The calls that a thread may make. -/
inductive IsCall (bufferSize : ℤ) : BusProg σ Outcome → Prop
  | start : IsCall bufferSize (start >>= fun r => return .result r)
  | subscribe (subscriber : Subscriber) :
      IsCall bufferSize (subscribe bufferSize subscriber >>= fun r => return .result r)
  | unsubscribe (subscriber : Subscriber) :
      IsCall bufferSize (unsubscribe subscriber >>= fun r => return .result r)
  | send (event : ResourceChangedEvent σ) :
      IsCall bufferSize (send event >>= fun _ => return .sent)
  | waitForDone : IsCall bufferSize (waitForDone >>= fun _ => return .done)

/-- Threads that call the bus, one call after the other, while the drainers run. -/
def callers (σ ι : Type) [DecidableEq ι] (bufferSize : ℤ) :
    PoolSystem (BusOp σ) BusOp.Res Outcome (EventBus σ ι) ι where
  sem := BusSem
  env := DrainStep
  start _ := IsCall bufferSize

/-- A bus and its callers. -/
abbrev BusPool (σ ι : Type) := Pool (BusOp σ) BusOp.Res Outcome (EventBus σ ι) ι

/-- The bus after `Init`, before any call. -/
def initialBus (σ ι : Type) (bufferSize : ℤ) : BusPool σ ι :=
  ⟨{ bufferSize := bufferSize }, fun _ => .ret .sent⟩

end DubboAdmin.Events
