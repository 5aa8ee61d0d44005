import DubboAdmin.Lib.Runs

/-!
# Watching ZooKeeper again

`ListerWatcher` of `pkg/discovery/zk/listerwatcher` makes its channels and its connection once, and
each `Stop` closes them; a `Watch` whose `StartAsync` fails calls `Stop` itself, and on a closed
connection `StartAsync` always fails. The runs are the interleavings of the reflector's calls, a
`Watch` and then a `Stop` in turn, with the steps of the goroutines. To close a channel twice, or to
send on a closed one, panics.

After the first `Stop`, the next `Watch` therefore panics (`rewatch_panics`). `watching_is_safe`
says which runs are safe.
-/

namespace DubboAdmin.Zk.Lister

/-! ## State -/

/-- Where a goroutine in `watchDataChanges` is. -/
inductive Sender where
  /-- Before it looks at `stopChan`. -/
  | checking
  /-- In `GetW`. -/
  | reading
  /-- It has `NodeCreated` to send. -/
  | created
  /-- In the `select` over the watch and `stopChan`. -/
  | waiting
  /-- It has `NodeDeleted` to send. -/
  | deleting
deriving DecidableEq

/-- Where the goroutine that `Watch` starts is. -/
inductive Forwarder where
  | receiving
  | handling
  | returned
deriving DecidableEq

/-- `RecursiveWatcher`, with its goroutines and the one that forwards its events. -/
structure RecursiveWatcher where
  stopClosed : Bool := false
  eventClosed : Bool := false
  /-- The events in the channel. -/
  events : ℕ := 0
  /-- `StartAsync` begins with the goroutine of the base path. -/
  senders : List Sender := [.checking]
  forwarder : Forwarder := .receiving

/-- The operations of `Stop`. -/
inductive CloseOp where
  | watcherStop
  | watcherEvents
  | listerStop
  | results
  | conn
deriving DecidableEq

/-- Where the reflector is. -/
inductive Caller where
  | idle
  /-- In `Watch`, while `StartAsync` runs. -/
  | starting
  /-- After a `Watch` that has succeeded. -/
  | watching
  /-- In `Stop`, before these operations. -/
  | stopping (rest : List CloseOp)

/-- `ListerWatcher`. -/
structure ListerWatcher where
  stopClosed : Bool := false
  resultClosed : Bool := false
  connClosed : Bool := false
  /-- The watchers that were made, by number. `lw.watcher` is the last one. -/
  watchers : ℕ → RecursiveWatcher := fun _ => {}
  made : ℕ := 0
  caller : Caller := .idle
  /-- Whether the result channel was closed, for each `Watch` that has succeeded. -/
  returned : List Bool := []
  panicked : Bool := false

/-- What a goroutine in `watchDataChanges` meets. -/
inductive SenderAct where
  | check
  | read
  | fail
  | send
  /-- The data has changed: another goroutine goes on. -/
  | changed
  | deleted
  /-- The watch ends in another event. -/
  | other
  /-- The `select` takes `stopChan`. -/
  | stop
deriving DecidableEq

/-- The steps of the caller and of the goroutines. -/
inductive Act where
  | watch
  /-- `StartAsync` ends. -/
  | started (ok : Bool)
  | stop
  | close
  /-- A further goroutine of a watcher starts. -/
  | spawn (i : ℕ)
  | sender (i j : ℕ) (a : SenderAct)
  /-- The goroutine that forwards receives an event, or sees a closed channel. -/
  | receive (i : ℕ)
  | stopForwarding (i : ℕ)
  /-- `handleEvent` sends, or skips the event. -/
  | forward (i : ℕ) (sends : Bool)
deriving DecidableEq

/-! ## Steps -/

/-- `Stop` closes these, in this order. -/
def closeOps : List CloseOp := [.watcherStop, .watcherEvents, .listerStop, .results, .conn]

/-- A step of a goroutine: whether it sends, and what is left of it. -/
def Sender.next (stopClosed connClosed : Bool) :
    Sender → SenderAct → Option (Bool × List Sender)
  | .checking, .check => some (false, if stopClosed then [] else [.reading])
  | .reading, .read => if connClosed then none else some (false, [.created])
  | .reading, .fail => some (false, [.checking])
  | .created, .send => some (true, [.waiting])
  | .waiting, .changed => some (false, [.checking])
  | .waiting, .deleted => some (false, [.deleting])
  | .waiting, .other => some (false, [.checking])
  | .waiting, .stop => if stopClosed then some (false, []) else none
  | .deleting, .send => some (true, [])
  | _, _ => none

namespace ListerWatcher

/-- A watcher is changed. -/
def set (s : ListerWatcher) (i : ℕ) (w : RecursiveWatcher) : ListerWatcher :=
  { s with watchers := Function.update s.watchers i w }

/-- The next operation of `Stop`; closing a closed channel panics, closing the connection again does
not. -/
def closeChannel (s : ListerWatcher) (op : CloseOp) : ListerWatcher :=
  let i := s.made - 1
  let w := s.watchers i
  match op with
  | .watcherStop =>
    if w.stopClosed then { s with panicked := true } else s.set i { w with stopClosed := true }
  | .watcherEvents =>
    if w.eventClosed then { s with panicked := true } else s.set i { w with eventClosed := true }
  | .listerStop =>
    if s.stopClosed then { s with panicked := true } else { s with stopClosed := true }
  | .results =>
    if s.resultClosed then { s with panicked := true } else { s with resultClosed := true }
  | .conn => { s with connClosed := true }

/-- What an action leads to, where it is possible. -/
def next (s : ListerWatcher) : Act → Option ListerWatcher
  | .watch =>
    match s.caller with
    | .idle => some { s.set s.made {} with made := s.made + 1, caller := .starting }
    | _ => none
  | .started ok =>
    match s.caller with
    | .starting =>
      -- On a closed connection `StartAsync` fails at its first `Children`.
      if ok then
        if s.connClosed then none
        else some { s with caller := .watching, returned := s.returned ++ [s.resultClosed] }
      else some { s with caller := .stopping closeOps }
    | _ => none
  | .stop =>
    match s.caller with
    | .watching => some { s with caller := .stopping closeOps }
    | _ => none
  | .close =>
    match s.caller with
    | .stopping (op :: rest) =>
      some { s.closeChannel op with caller := if rest = [] then .idle else .stopping rest }
    | _ => none
  | .spawn i =>
    if i < s.made then
      some (s.set i { s.watchers i with senders := (s.watchers i).senders ++ [.checking] })
    else none
  | .sender i j a =>
    let w := s.watchers i
    match w.senders[j]? with
    | none => none
    | some sender =>
      match sender.next w.stopClosed s.connClosed a with
      | none => none
      | some (sends, left) =>
        let w' := { w with senders := w.senders.take j ++ left ++ w.senders.drop (j + 1) }
        if i < s.made then
          if sends then
            if w.eventClosed then some { s with panicked := true }
            else some (s.set i { w' with events := w.events + 1 })
          else some (s.set i w')
        else none
  | .receive i =>
    let w := s.watchers i
    if i < s.made ∧ w.forwarder = .receiving then
      if w.events ≠ 0 then
        some (s.set i { w with events := w.events - 1, forwarder := .handling })
      else if w.eventClosed then some (s.set i { w with forwarder := .returned })
      else none
    else none
  | .stopForwarding i =>
    let w := s.watchers i
    if i < s.made ∧ w.forwarder = .receiving ∧ s.stopClosed = true then
      some (s.set i { w with forwarder := .returned })
    else none
  | .forward i sends =>
    let w := s.watchers i
    if i < s.made ∧ w.forwarder = .handling then
      if sends = true ∧ s.resultClosed = true then some { s with panicked := true }
      else some (s.set i { w with forwarder := .receiving })
    else none

/-- What an action leads to, while the process has not panicked. -/
def step (s : ListerWatcher) (a : Act) : Option ListerWatcher :=
  if s.panicked then none else s.next a

end ListerWatcher

def Step (s : ListerWatcher) (a : Act) (s' : ListerWatcher) : Prop := s.step a = some s'

/-! ## Safe runs -/

/-- The goroutine has nothing that it is about to send. -/
def Sender.Quiet (sender : Sender) : Prop := sender = .checking ∨ sender = .waiting

/-- What keeps a step safe: no `Watch` after a `Stop`; an event channel is closed when no goroutine
of the watcher is about to send, and the result channel when no event is handled; a `select` takes
the stop channel when it is closed. -/
def Good (s : ListerWatcher) : Act → Prop
  | .watch => s.resultClosed = false
  | .close =>
    match s.caller with
    | .stopping (.watcherEvents :: _) =>
      ∀ sender ∈ (s.watchers (s.made - 1)).senders, sender.Quiet
    | .stopping (.results :: _) => ∀ i, (s.watchers i).forwarder ≠ .handling
    | _ => True
  | .sender i _ .deleted => (s.watchers i).stopClosed = false
  | .receive i => (s.watchers i).events ≠ 0 → s.stopClosed = false
  | _ => True

/-- How far the last watcher and the lister are closed: `k` operations of `Stop` are done. -/
structure Stage (s : ListerWatcher) (k : ℕ) : Prop where
  watcherStop : (s.watchers (s.made - 1)).stopClosed = decide (1 ≤ k)
  watcherEvents : (s.watchers (s.made - 1)).eventClosed = decide (2 ≤ k)
  listerStop : s.stopClosed = decide (3 ≤ k)
  results : s.resultClosed = decide (4 ≤ k)

/-- Where the reflector is says how far the channels are closed. -/
def Staged (s : ListerWatcher) : Prop :=
  match s.caller with
  | .idle => s.stopClosed = s.resultClosed
  | .starting => Stage s 0
  | .watching => Stage s 0
  | .stopping rest => ∃ k < 5, Stage s k ∧ rest = closeOps.drop k

/-- What holds along a safe run. -/
structure Inv (s : ListerWatcher) : Prop where
  running : s.panicked = false
  returned : ∀ closed ∈ s.returned, closed = false
  /-- Nothing is about to be sent on a closed event channel. -/
  senders : ∀ i, (s.watchers i).eventClosed = true → (s.watchers i).stopClosed = true ∧
    ∀ sender ∈ (s.watchers i).senders, sender.Quiet
  /-- Nothing is about to be sent on a closed result channel. -/
  forwarders : s.resultClosed = true → s.stopClosed = true ∧
    ∀ i, (s.watchers i).forwarder ≠ .handling
  staged : Staged s

variable {s s' : ListerWatcher} {i : ℕ} {w : RecursiveWatcher}

theorem stage_set (hstop : w.stopClosed = (s.watchers i).stopClosed)
    (hevent : w.eventClosed = (s.watchers i).eventClosed) {k : ℕ} (h : Stage s k) :
    Stage (s.set i w) k := by
  have hflags : ((s.set i w).watchers (s.made - 1)).stopClosed =
      (s.watchers (s.made - 1)).stopClosed ∧ ((s.set i w).watchers (s.made - 1)).eventClosed =
      (s.watchers (s.made - 1)).eventClosed := by
    unfold ListerWatcher.set
    by_cases hi : s.made - 1 = i
    · subst hi
      simp [hstop, hevent]
    · simp [Function.update_of_ne hi]
  exact ⟨hflags.1.trans h.watcherStop, hflags.2.trans h.watcherEvents, h.listerStop, h.results⟩

theorem staged_set (hstop : w.stopClosed = (s.watchers i).stopClosed)
    (hevent : w.eventClosed = (s.watchers i).eventClosed) (h : Staged s) : Staged (s.set i w) := by
  have hstage : ∀ k, Stage s k → Stage (s.set i w) k := fun k => stage_set hstop hevent
  unfold Staged at h ⊢
  rw [show (s.set i w).caller = s.caller from rfl]
  cases hcaller : s.caller with
  | idle =>
    rw [hcaller] at h
    exact h
  | starting | watching =>
    rw [hcaller] at h
    exact hstage 0 h
  | stopping rest =>
    rw [hcaller] at h
    obtain ⟨k, hk, h, hrest⟩ := h
    exact ⟨k, hk, hstage k h, hrest⟩

theorem Inv.setWith (h : Inv s) {n : ℕ} {c : Caller}
    (hsenders : w.eventClosed = true → w.stopClosed = true ∧ ∀ sender ∈ w.senders, sender.Quiet)
    (hforwarder : s.resultClosed = true → w.forwarder ≠ .handling)
    (hstaged : Staged { s.set i w with made := n, caller := c }) :
    Inv { s.set i w with made := n, caller := c } where
  running := h.running
  returned := h.returned
  senders := by
    refine (Function.forall_update_iff s.watchers (p := fun _ w => w.eventClosed = true →
      w.stopClosed = true ∧ ∀ sender ∈ w.senders, sender.Quiet)).mpr ⟨hsenders, fun j _ => ?_⟩
    exact h.senders j
  forwarders hclosed := by
    refine ⟨(h.forwarders hclosed).1, ?_⟩
    refine (Function.forall_update_iff s.watchers (p := fun _ w => w.forwarder ≠ .handling)).mpr
      ⟨hforwarder hclosed, fun j _ => ?_⟩
    exact (h.forwarders hclosed).2 j
  staged := hstaged

/-- A goroutine changes nothing but what it is about to send. -/
theorem Inv.set (h : Inv s) (hstop : w.stopClosed = (s.watchers i).stopClosed)
    (hevent : w.eventClosed = (s.watchers i).eventClosed)
    (hsenders : (s.watchers i).eventClosed = true → ∀ sender ∈ w.senders, sender.Quiet)
    (hforwarder : s.resultClosed = true → w.forwarder ≠ .handling) : Inv (s.set i w) := by
  refine h.setWith (fun hclosed => ?_) hforwarder (staged_set hstop hevent h.staged)
  rw [hevent] at hclosed
  exact ⟨hstop.trans (h.senders i hclosed).1, hsenders hclosed⟩

/-- A goroutine that has nothing to send does not come to send when the watcher is stopped. -/
theorem Sender.Quiet.next {sender : Sender} {a : SenderAct} {connClosed sends : Bool}
    {left : List Sender} (hquiet : sender.Quiet) (ha : a ≠ .deleted)
    (hnext : sender.next true connClosed a = some (sends, left)) :
    sends = false ∧ ∀ x ∈ left, x.Quiet := by
  rcases hquiet with rfl | rfl <;> cases a <;> simp_all [Sender.next]
  all_goals
    obtain ⟨rfl, rfl⟩ := hnext
    simp [Sender.Quiet]

theorem inv_sender (h : Inv s) {j : ℕ} {a : SenderAct} (hgood : Good s (.sender i j a))
    (hstep : s.next (.sender i j a) = some s') : Inv s' := by
  unfold ListerWatcher.next at hstep
  cases hsender : (s.watchers i).senders[j]? with
  | none => simp [hsender] at hstep
  | some sender =>
  have hmem : sender ∈ (s.watchers i).senders := List.mem_of_getElem? hsender
  cases hnext : sender.next (s.watchers i).stopClosed s.connClosed a with
  | none => simp [hsender, hnext] at hstep
  | some result =>
  obtain ⟨sends, left⟩ := result
  simp only [hsender, hnext] at hstep
  -- On a closed event channel nothing is sent, and nothing comes to be sent.
  have hquiet (hclosed : (s.watchers i).eventClosed = true) :
      sends = false ∧ ∀ x ∈ left, x.Quiet := by
    obtain ⟨hstopped, hsenders⟩ := h.senders i hclosed
    rw [hstopped] at hnext
    refine (hsenders sender hmem).next ?_ hnext
    rintro rfl
    simp [Good, hstopped] at hgood
  have hleft (hclosed : (s.watchers i).eventClosed = true) :
      ∀ x ∈ (s.watchers i).senders.take j ++ left ++ (s.watchers i).senders.drop (j + 1),
        x.Quiet := by
    intro x hx
    rw [List.mem_append, List.mem_append] at hx
    rcases hx with (hx | hx) | hx
    · exact (h.senders i hclosed).2 x (List.mem_of_mem_take hx)
    · exact (hquiet hclosed).2 x hx
    · exact (h.senders i hclosed).2 x (List.mem_of_mem_drop hx)
  have hforwarder (hclosed : s.resultClosed = true) := (h.forwarders hclosed).2 i
  by_cases hi : i < s.made
  swap
  · simp [hi] at hstep
  rw [if_pos hi] at hstep
  cases sends with
  | false =>
    cases hstep
    exact h.set rfl rfl hleft hforwarder
  | true =>
    have hopen : (s.watchers i).eventClosed ≠ true := fun hclosed => by
      cases (hquiet hclosed).1
    rw [if_pos rfl, if_neg hopen] at hstep
    cases hstep
    exact h.set rfl rfl hleft hforwarder

/-- An operation of `Stop` closes an open channel. -/
theorem inv_close (h : Inv s) (hgood : Good s .close) (hstep : s.next .close = some s') :
    Inv s' := by
  unfold ListerWatcher.next at hstep
  have hstaged := h.staged
  unfold Staged at hstaged
  cases hcaller : s.caller with
  | idle | starting | watching => simp [hcaller] at hstep
  | stopping rest =>
  simp only [hcaller] at hstaged
  obtain ⟨k, hk, hstage, rfl⟩ := hstaged
  have hforwarder (hclosed : s.resultClosed = true) := (h.forwarders hclosed).2 (s.made - 1)
  have hwatcher (w : RecursiveWatcher) : (s.set (s.made - 1) w).watchers (s.made - 1) = w :=
    Function.update_self ..
  simp only [Good, hcaller] at hgood
  simp only [hcaller] at hstep
  obtain rfl | rfl | rfl | rfl | rfl : k = 0 ∨ k = 1 ∨ k = 2 ∨ k = 3 ∨ k = 4 := by omega
  · have hs' : s' = { s.set (s.made - 1) { s.watchers (s.made - 1) with stopClosed := true } with
        caller := .stopping (closeOps.drop 1) } := by
      simpa [closeOps, ListerWatcher.closeChannel, hstage.watcherStop] using hstep.symm
    subst hs'
    refine h.setWith (fun hclosed => ⟨rfl, (h.senders _ hclosed).2⟩) hforwarder ?_
    refine ⟨1, by omega, ⟨?_, ?_, hstage.listerStop, hstage.results⟩, rfl⟩
    · exact congrArg RecursiveWatcher.stopClosed (hwatcher _)
    · exact (congrArg RecursiveWatcher.eventClosed (hwatcher _)).trans hstage.watcherEvents
  · have hs' : s' = { s.set (s.made - 1) { s.watchers (s.made - 1) with eventClosed := true } with
        caller := .stopping (closeOps.drop 2) } := by
      simpa [closeOps, ListerWatcher.closeChannel, hstage.watcherEvents] using hstep.symm
    subst hs'
    refine h.setWith (fun _ => ⟨hstage.watcherStop, hgood⟩) hforwarder ?_
    refine ⟨2, by omega, ⟨?_, ?_, hstage.listerStop, hstage.results⟩, rfl⟩
    · exact (congrArg RecursiveWatcher.stopClosed (hwatcher _)).trans hstage.watcherStop
    · exact congrArg RecursiveWatcher.eventClosed (hwatcher _)
  · have hs' : s' = { s with stopClosed := true, caller := .stopping (closeOps.drop 3) } := by
      simpa [closeOps, ListerWatcher.closeChannel, hstage.listerStop] using hstep.symm
    subst hs'
    exact ⟨h.running, h.returned, h.senders, fun hclosed => ⟨rfl, (h.forwarders hclosed).2⟩,
      3, by omega, ⟨hstage.watcherStop, hstage.watcherEvents, rfl, hstage.results⟩, rfl⟩
  · have hs' : s' = { s with resultClosed := true, caller := .stopping (closeOps.drop 4) } := by
      simpa [closeOps, ListerWatcher.closeChannel, hstage.results] using hstep.symm
    subst hs'
    exact ⟨h.running, h.returned, h.senders, fun _ => ⟨hstage.listerStop, hgood⟩,
      4, by omega, ⟨hstage.watcherStop, hstage.watcherEvents, hstage.listerStop, rfl⟩, rfl⟩
  · have hs' : s' = { s with connClosed := true, caller := .idle } := by
      simpa [closeOps, ListerWatcher.closeChannel] using hstep.symm
    subst hs'
    exact ⟨h.running, h.returned, h.senders, h.forwarders,
      hstage.listerStop.trans hstage.results.symm⟩

theorem inv_step {a : Act} (h : Inv s) (hgood : Good s a) (hstep : s.next a = some s') :
    Inv s' := by
  have hsenders (i : ℕ) (hclosed : (s.watchers i).eventClosed = true) := (h.senders i hclosed).2
  have hforwarder (i : ℕ) (hclosed : s.resultClosed = true) := (h.forwarders hclosed).2 i
  have hstaged := h.staged
  unfold Staged at hstaged
  cases a with
  | watch =>
    cases hcaller : s.caller <;> simp only [ListerWatcher.next, hcaller, reduceCtorEq] at hstep
    cases hstep
    rw [hcaller] at hstaged
    refine h.setWith (by simp) (by simp) ⟨?_, ?_, hstaged.trans hgood, hgood⟩ <;>
      simp [ListerWatcher.set]
  | started ok =>
    cases hcaller : s.caller <;> simp only [ListerWatcher.next, hcaller, reduceCtorEq] at hstep
    rw [hcaller] at hstaged
    obtain ⟨hstop, hevents, hlister, hresults⟩ := hstaged
    cases ok with
    | true =>
      obtain rfl := Option.some.inj (Option.ite_none_left_eq_some.mp hstep).2
      refine ⟨h.running, ?_, h.senders, h.forwarders,
        ⟨hstop, hevents, hlister, hresults⟩⟩
      intro closed hclosed
      rcases List.mem_append.mp hclosed with hclosed | hclosed
      · exact h.returned closed hclosed
      · exact (List.mem_singleton.mp hclosed).trans hresults
    | false =>
      cases hstep
      exact ⟨h.running, h.returned, h.senders, h.forwarders,
        0, by omega, ⟨hstop, hevents, hlister, hresults⟩, rfl⟩
  | stop =>
    cases hcaller : s.caller <;> simp only [ListerWatcher.next, hcaller, reduceCtorEq] at hstep
    cases hstep
    rw [hcaller] at hstaged
    obtain ⟨hstop, hevents, hlister, hresults⟩ := hstaged
    exact ⟨h.running, h.returned, h.senders, h.forwarders,
      0, by omega, ⟨hstop, hevents, hlister, hresults⟩, rfl⟩
  | close => exact inv_close h hgood hstep
  | spawn i =>
    simp only [ListerWatcher.next, Option.ite_none_right_eq_some, Option.some.injEq] at hstep
    obtain ⟨-, rfl⟩ := hstep
    refine h.set rfl rfl (fun hclosed x hx => ?_) (hforwarder i)
    rcases List.mem_append.mp hx with hx | hx
    · exact hsenders i hclosed x hx
    · exact .inl (List.mem_singleton.mp hx)
  | sender i j a => exact inv_sender h hgood hstep
  | receive i =>
    simp only [ListerWatcher.next, Option.ite_none_right_eq_some] at hstep
    obtain ⟨-, hstep⟩ := hstep
    by_cases hevents : (s.watchers i).events ≠ 0
    · rw [if_pos hevents] at hstep
      cases hstep
      refine h.set rfl rfl (hsenders i) fun hclosed => ?_
      exact absurd (h.forwarders hclosed).1 (by simp [hgood hevents])
    · rw [if_neg hevents] at hstep
      simp only [Option.ite_none_right_eq_some, Option.some.injEq] at hstep
      obtain ⟨-, rfl⟩ := hstep
      exact h.set rfl rfl (hsenders i) (by simp)
  | stopForwarding i =>
    simp only [ListerWatcher.next, Option.ite_none_right_eq_some, Option.some.injEq] at hstep
    obtain ⟨-, rfl⟩ := hstep
    exact h.set rfl rfl (hsenders i) (by simp)
  | forward i sends =>
    simp only [ListerWatcher.next, Option.ite_none_right_eq_some] at hstep
    obtain ⟨⟨-, hhandling⟩, hstep⟩ := hstep
    rw [if_neg fun hclosed => hforwarder i hclosed.2 hhandling] at hstep
    cases hstep
    exact h.set rfl rfl (hsenders i) (by simp)

/-- In every run whose steps are good, no channel is closed twice, nothing is sent on a closed
channel, and every `Watch` that succeeds returns an open channel. -/
theorem watching_is_safe {acts : List Act} (h : Run (Guarded Good Step) {} acts s) :
    s.panicked = false ∧ ∀ closed ∈ s.returned, closed = false := by
  have hinv : Inv s := by
    refine Run.invariant Inv ⟨rfl, fun _ h => (by cases h), fun _ h => (by cases h),
      fun h => (by cases h), by simp [Staged]⟩ (fun s a s' hs hstep => ?_) h
    exact inv_step hs hstep.1 (Option.ite_none_left_eq_some.mp hstep.2).2
  exact ⟨hinv.running, hinv.returned⟩

/-- The actions of a `Watch` that succeeds and its `Stop`. -/
def watchAndStop : List Act :=
  [.watch, .started true, .stop, .close, .close, .close, .close, .close]

theorem watching_is_safe_once : ∃ s, Run (Guarded Good Step) {} watchAndStop s ∧
    s.panicked = false ∧ ∀ closed ∈ s.returned, closed = false := by
  classical
  obtain ⟨s, hs⟩ : ∃ s, watchAndStop.foldlM (fun s a => if Good s a then s.step a else none) {} =
      some s := by
    simp [watchAndStop, ListerWatcher.step, Good, ListerWatcher.next, ListerWatcher.closeChannel,
      ListerWatcher.set, closeOps, Sender.Quiet, Function.update_apply,
      apply_ite RecursiveWatcher.forwarder]
  have hrun := Run.of_foldlM (Guarded.of_next fun _ _ _ h => h) hs
  exact ⟨s, hrun, watching_is_safe hrun⟩

/-- After a `Stop` the connection is closed, so the next `Watch` fails, and its own `Stop` closes
the stop channel of the lister again. -/
theorem rewatch_panics :
    ∃ s, Run Step {} (watchAndStop ++ [.watch, .started false, .close, .close, .close]) s ∧
      s.panicked = true ∧ s.returned = [false] :=
  ⟨_, Run.of_foldlM (fun _ _ _ h => h) rfl, rfl, rfl⟩

end DubboAdmin.Zk.Lister
