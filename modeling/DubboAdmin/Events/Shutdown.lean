import DubboAdmin.Events.Methods

/-!
# Channels and events at the shutdown of the bus

`WaitForDone` closes the channels of the directory and leaves their states in it, and `Unsubscribe`
closes the channel of the state that it removes without a look at its flag. So no channel is misused
as long as `Unsubscribe` finds a state that was not closed before (`channels_not_misused`).

An event that `Send` has placed in a channel is processed before `WaitForDone` returns as long as a
drainer comes to the channel (`placed_events_processed`). None comes where `Unsubscribe` takes the
state out of the directory before `Start`, or where `stopped` is set while `Subscribe` adds it.
-/

namespace DubboAdmin.Events

open Controller (ResourceChangedEvent)

/-! ## Results -/

section Results

variable {σ ι : Type} [DecidableEq ι] {n : ℤ} {acts : List (PoolAct ι)} {P P' : BusPool σ ι}

/-- In every interleaving of calls in which `Unsubscribe` finds only states whose channels no call
has closed, no channel is closed twice, and nothing is sent on a closed channel. -/
theorem channels_not_misused
    (h : Run (Guarded (OpGuard UnsubscribesOpen) (PoolStep (callers σ ι n))) (initialBus σ ι n)
      acts P) : P.state.misuse = none := by
  have hassumed : Run (Guarded (OpGuard (Assumed.Good ⟨True, False⟩)) (PoolStep (callers σ ι n)))
      (initialBus σ ι n) acts P := by
    refine h.imp fun _ _ _ hstep => ⟨fun i o k hact hthread => ?_, hstep.2⟩
    exact ⟨fun _ => hstep.1 i o k hact hthread, False.elim⟩
  exact (run_safe hassumed).1.sound trivial

omit [DecidableEq ι] in
/-- With an empty wait group after `Start`, the events of every channel are processed. -/
theorem processed_of_wg {A : Assumed} {s : EventBus σ ι} (hinv : Inv A s) (hwg : s.wg = [])
    {id : ℕ} (hdrains : (s.cells id).Drains) : (s.cells id).processed = (s.cells id).placed := by
  obtain ⟨hevents, habsent, hreturned⟩ := hinv.accounted id
  have hrest : (s.cells id).drainer.inFlight = [] ∧ (s.cells id).ch = [] := by
    cases hstarted : (s.cells id).drainerStarted with
    | false =>
      have hempty := hdrains.resolve_left (by simp [hstarted])
      rw [habsent hstarted]
      exact ⟨rfl, hempty⟩
    | true =>
      -- The drainer has left the wait group, so it has emptied the channel before.
      have hended : (s.cells id).drainer = .ended := by
        cases hdrainer : (s.cells id).drainer with
        | ended => rfl
        | _ =>
          have hmem := hinv.waits id hstarted (by rw [hdrainer]; rfl)
          rw [hwg] at hmem
          cases hmem
      rw [hended] at hreturned ⊢
      exact ⟨rfl, (hreturned rfl).1⟩
  rw [hevents, hrest.1, hrest.2, List.append_nil, List.append_nil]

/-- In every interleaving of calls in which `Start` has succeeded before `WaitForDone` is called,
`Unsubscribe` finds only states whose channels are drained or empty, and `Send`, once `stopped` is
set, only states whose channels are drained: when `WaitForDone` returns from its wait, the events
that were placed in a channel are processed, each one once and in order. -/
theorem placed_events_processed
    (h : Run (Guarded (OpGuard fun i s o => StartsFirst i s o ∧ LeavesDrained i s o)
      (PoolStep (callers σ ι n))) (initialBus σ ι n) acts P) {i : ι}
    (hwait : P.threads i = .op .waitGroup fun _ => .ret .done)
    (hreturn : PoolStep (callers σ ι n) P (.thread i) P') :
    P'.threads i = .ret .done ∧
      ∀ id, (P'.state.cells id).processed = (P'.state.cells id).placed := by
  have hassumed : Run (Guarded (OpGuard (Assumed.Good ⟨False, True⟩)) (PoolStep (callers σ ι n)))
      (initialBus σ ι n) acts P := by
    refine h.imp fun _ _ _ hstep => ⟨fun i o k hact hthread => ?_, hstep.2⟩
    exact ⟨False.elim, fun _ => hstep.1 i o k hact hthread⟩
  obtain ⟨hinv, hsafe⟩ := run_safe hassumed
  have hi := hsafe i
  rw [hwait] at hi
  cases hreturn with
  | @thread _ o k r s hthread hsem =>
    cases hthread.symm.trans hwait
    obtain ⟨hmisuse, order, -, hexec⟩ := hsem
    -- The wait ends with an empty wait group, and the state stays as it is.
    have hwg : P.state.wg = [] ∧ s = P.state := by
      simp only [EventBus.exec] at hexec
      split_ifs at hexec with hwg
      exact ⟨hwg, (Prod.mk.inj (Option.some.inj hexec)).2.symm⟩
    obtain ⟨hwg, rfl⟩ := hwg
    have hgood : Assumed.Good ⟨False, True⟩ i P.state (.waitGroup : BusOp σ) :=
      ⟨False.elim, fun _ => ⟨trivial, trivial⟩⟩
    obtain ⟨-, -, hdone⟩ := hi P.state .refl hinv hgood r P.state
      ⟨hmisuse, P.state.refs, .refl _, hexec⟩
    have hstopped : P.state.stopped = true := (hdone.post hmisuse).2 rfl
    have hordered := hinv.ordered trivial
    refine ⟨Function.update_self .., fun id => processed_of_wg hinv hwg ?_⟩
    exact hordered.drains (hordered.stopped hstopped) id

end Results

/-! ## Calls on one subscriber -/

/-- A subscriber that asks for a channel. -/
def sampleSubscriber : Subscriber := ⟨"Instance", "counter", true⟩

/-- An event for it. -/
def sampleEvent : ResourceChangedEvent String :=
  ⟨.added, none, some ⟨"Instance", "mesh", "i", ""⟩⟩

/-- The calls of five threads, on a bus with buffers of one event. -/
def sampleCall : ℕ → Option (BusProg String Outcome)
  | 0 => some (start >>= fun r => return .result r)
  | 1 => some (subscribe 1 sampleSubscriber >>= fun r => return .result r)
  | 2 => some (send sampleEvent >>= fun _ => return .sent)
  | 3 => some (unsubscribe sampleSubscriber >>= fun r => return .result r)
  | 4 => some (waitForDone >>= fun _ => return .done)
  | _ => none

/-- One step of them, with the drainer of the first state. -/
def sampleNext (P : BusPool String ℕ) (act : PoolAct ℕ) : Option (BusPool String ℕ) :=
  P.tryNext (fun i s o => if s.misuse = none then s.exec i s.refs o else none) sampleCall
    (fun s => if s.misuse = none then (s.cells 0).drain.map (s.drained 0) else none) act

theorem poolStep_of_sampleNext (P : BusPool String ℕ) (act : PoolAct ℕ) (P' : BusPool String ℕ)
    (h : sampleNext P act = some P') : PoolStep (callers String ℕ 1) P act P' := by
  refine Pool.step_of_tryNext ?_ ?_ ?_ P act P' h
  · intro i s o r s' hstep
    split_ifs at hstep with hmisuse
    exact ⟨hmisuse, s.refs, .refl _, hstep⟩
  · intro i p hp
    match i with
    | 0 => exact Option.some.inj hp ▸ .start
    | 1 => exact Option.some.inj hp ▸ .subscribe sampleSubscriber
    | 2 => exact Option.some.inj hp ▸ .send sampleEvent
    | 3 => exact Option.some.inj hp ▸ .unsubscribe sampleSubscriber
    | 4 => exact Option.some.inj hp ▸ .waitForDone
    | _ + 5 => cases hp
  · intro s s' htick
    split_ifs at htick with hmisuse
    obtain ⟨c, hc, rfl⟩ := Option.map_eq_some_iff.mp htick
    exact ⟨hmisuse, 0, c, hc, rfl⟩

/-- The thread `i` takes `k` operations. -/
def sampleOps (i k : ℕ) : List (PoolAct ℕ) := List.replicate k (.thread i)

/-- The thread `i` starts its call and takes `k` operations. -/
def sampleSteps (i k : ℕ) : List (PoolAct ℕ) := .start i :: sampleOps i k

/-- `Subscribe`, `Send`, `Start`, the drainer processes the event, `WaitForDone` up to its wait, and
the drainer ends. -/
def sampleOrder : List (PoolAct ℕ) :=
  sampleSteps 1 7 ++ sampleSteps 2 6 ++ sampleSteps 0 7 ++ [.env, .env] ++ sampleSteps 4 7 ++
    [.env, .env]

/-- `Subscribe`, `Send`, `Unsubscribe`, `Start`, `WaitForDone`. -/
def unsubscribedOrder : List (PoolAct ℕ) :=
  sampleSteps 1 7 ++ sampleSteps 2 6 ++ sampleSteps 3 7 ++ sampleSteps 0 5 ++ sampleSteps 4 5

/-- `Start`; `Subscribe` up to its second look at `stopped`; the look of `Send` at it; `WaitForDone`
sets it; the rest of `Subscribe`, of `Send` and of `WaitForDone`. -/
def raceOrder : List (PoolAct ℕ) :=
  sampleSteps 0 5 ++ sampleSteps 1 6 ++ sampleSteps 2 1 ++ sampleSteps 4 1 ++ sampleOps 1 2 ++
    sampleOps 2 5 ++ sampleOps 4 7

/-- `UnsubscribesOpen`, computed. -/
def openCheck (_ : ℕ) (s : EventBus String ℕ) : BusOp String → Bool
  | .storeClosed .unsubscribe st => !(s.cells st.id).closed
  | _ => true

theorem unsubscribesOpen_of_check (i : ℕ) (s : EventBus String ℕ) (o : BusOp String)
    (h : openCheck i s o = true) : UnsubscribesOpen i s o := by
  unfold UnsubscribesOpen
  split
  · simpa [openCheck] using h
  · trivial

/-- `StartsFirst`, computed. -/
def firstCheck (_ : ℕ) (s : EventBus String ℕ) : BusOp String → Bool
  | .storeStopped => s.startSucceeded
  | _ => true

theorem startsFirst_of_check (i : ℕ) (s : EventBus String ℕ) (o : BusOp String)
    (h : firstCheck i s o = true) : StartsFirst i s o := by
  unfold StartsFirst
  split
  · exact h
  · trivial

/-- `LeavesDrained`, computed. -/
def drainedCheck (_ : ℕ) (s : EventBus String ℕ) : BusOp String → Bool
  | .storeClosed .unsubscribe st =>
    (s.cells st.id).drainerStarted || (s.cells st.id).ch.isEmpty
  | .trySend st _ => !s.stopped || (s.cells st.id).drainerStarted
  | _ => true

theorem leavesDrained_of_check (i : ℕ) (s : EventBus String ℕ) (o : BusOp String)
    (h : drainedCheck i s o = true) : LeavesDrained i s o := by
  unfold LeavesDrained
  split
  · simpa [drainedCheck, SubscriberState.Drains] using h
  · intro hstopped
    simpa [drainedCheck, hstopped] using h
  · trivial

/-- A subscriber comes and goes before the bus is shut down. -/
theorem channels_not_misused_in_order :
    ∃ P, Run (Guarded (OpGuard UnsubscribesOpen) (PoolStep (callers String ℕ 1)))
        (initialBus String ℕ 1) (sampleSteps 1 7 ++ sampleSteps 3 7 ++ sampleSteps 4 5) P ∧
      (P.state.cells 0).chClosed = true ∧ P.state.misuse = none := by
  obtain ⟨P, hP, hclosed⟩ : ∃ P, (sampleSteps 1 7 ++ sampleSteps 3 7 ++ sampleSteps 4 5).foldlM
        (fun P act => if P.opCheck openCheck act then sampleNext P act else none)
        (initialBus String ℕ 1) = some P ∧ (P.state.cells 0).chClosed = true := ⟨_, rfl, rfl⟩
  have hrun := Run.of_foldlM
    (Pool.guarded_of_next unsubscribesOpen_of_check poolStep_of_sampleNext) hP
  exact ⟨P, hrun, hclosed, channels_not_misused hrun⟩

/-- A subscriber subscribes, the bus is shut down, and the subscriber unsubscribes: its channel is
closed for the second time. -/
theorem unsubscribe_after_shutdown_panics :
    ∃ P, Run (PoolStep (callers String ℕ 1)) (initialBus String ℕ 1)
        (sampleSteps 1 7 ++ sampleSteps 4 8 ++ sampleSteps 3 5) P ∧
      P.state.misuse = some (.closeOfClosed 0) := by
  obtain ⟨P, hP, hmisuse⟩ : ∃ P, (sampleSteps 1 7 ++ sampleSteps 4 8 ++ sampleSteps 3 5).foldlM
        sampleNext (initialBus String ℕ 1) = some P ∧
      P.state.misuse = some (.closeOfClosed 0) := ⟨_, rfl, rfl⟩
  exact ⟨P, Run.of_foldlM poolStep_of_sampleNext hP, hmisuse⟩

/-- An event is placed before `Start`, and processed when `WaitForDone` returns. -/
theorem placed_event_processed_in_order :
    ∃ P P', Run (Guarded (OpGuard fun i s o => StartsFirst i s o ∧ LeavesDrained i s o)
          (PoolStep (callers String ℕ 1))) (initialBus String ℕ 1)
        sampleOrder P ∧
      PoolStep (callers String ℕ 1) P (.thread 4) P' ∧
      (P'.state.cells 0).placed = [sampleEvent] ∧
      (P'.state.cells 0).processed = (P'.state.cells 0).placed := by
  obtain ⟨P, hP, hwait, P', hP', hplaced⟩ : ∃ P, sampleOrder.foldlM
          (fun P act => if P.opCheck (fun i s o => firstCheck i s o && drainedCheck i s o) act
            then sampleNext P act else none) (initialBus String ℕ 1) = some P ∧
      P.threads 4 = .op .waitGroup (fun _ => .ret .done) ∧
      ∃ P', sampleNext P (.thread 4) = some P' ∧ (P'.state.cells 0).placed = [sampleEvent] :=
    ⟨_, rfl, rfl, _, rfl, rfl⟩
  have hcheck : ∀ i s o, (firstCheck i s o && drainedCheck i s o) = true →
      StartsFirst i s o ∧ LeavesDrained i s o := fun i s o h =>
    ⟨startsFirst_of_check i s o (Bool.and_elim_left h),
      leavesDrained_of_check i s o (Bool.and_elim_right h)⟩
  have hrun := Run.of_foldlM (Pool.guarded_of_next hcheck poolStep_of_sampleNext) hP
  have hreturn := poolStep_of_sampleNext P (.thread 4) P' hP'
  exact ⟨P, P', hrun, hreturn, hplaced, (placed_events_processed hrun hwait hreturn).2 0⟩

/-- What is at the end of a run that is checked as it is computed. -/
theorem exists_run_of_check {acts : List (PoolAct ℕ)} {Q : _ → Prop}
    (h : ∃ P, acts.foldlM (fun P act => if P.opCheck firstCheck act then sampleNext P act else none)
      (initialBus String ℕ 1) = some P ∧ Q P) :
    ∃ P, Run (Guarded (OpGuard StartsFirst) (PoolStep (callers String ℕ 1)))
      (initialBus String ℕ 1) acts P ∧ Q P := by
  obtain ⟨P, hP, hQ⟩ := h
  exact ⟨P, Run.of_foldlM (Pool.guarded_of_next startsFirst_of_check poolStep_of_sampleNext) hP, hQ⟩

/-- Two ways in which `WaitForDone` returns while an event that was placed is not processed. In the
first the subscriber unsubscribes before `Start`. In the second `stopped` is set after `Subscribe`
has looked at it for the first time, and a `Send` that has looked at it before places its event in
the channel that got no drainer. -/
theorem placed_event_lost :
    (∃ P, Run (Guarded (OpGuard StartsFirst) (PoolStep (callers String ℕ 1)))
        (initialBus String ℕ 1) unsubscribedOrder P ∧
      P.threads 4 = .ret .done ∧ (P.state.cells 0).placed = [sampleEvent] ∧
      (P.state.cells 0).processed = []) ∧
    ∃ P, Run (Guarded (OpGuard StartsFirst) (PoolStep (callers String ℕ 1)))
        (initialBus String ℕ 1) raceOrder P ∧
      P.threads 4 = .ret .done ∧ (P.state.cells 0).placed = [sampleEvent] ∧
      (P.state.cells 0).processed = [] :=
  ⟨exists_run_of_check ⟨_, rfl, rfl, rfl, rfl⟩, exists_run_of_check ⟨_, rfl, rfl, rfl, rfl⟩⟩

end DubboAdmin.Events
