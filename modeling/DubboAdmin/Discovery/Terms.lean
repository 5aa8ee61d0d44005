import DubboAdmin.Lib.Runs
import DubboAdmin.Resource

/-!
# Informers over leadership terms

`discoveryComponent.Start` runs the election loop `RunLeaderElection` with two callbacks. When the
replica becomes leader, the first one makes a stop channel for the term and starts each configured
informer on it; when it loses the lead, the second one closes the channel.

`informer.Run` returns at once if the informer has started before, and nothing ever takes `started`
back. So the informers run in a first term (`term_informers_run`), and not in a second one
(`second_term_runs_nothing`).
-/

namespace DubboAdmin.Discovery

/-! ## State -/

/-- Where a goroutine is in `informer.Run(stopCh)`. -/
inductive Phase where
  /-- Before `HasStarted`. -/
  | checking
  /-- Behind it, before the controller is made. -/
  | starting
  /-- The controller is made and `started` is set. -/
  | launching
  /-- In `controller.Run(stopCh)`. -/
  | running
deriving DecidableEq, Repr

/-- A goroutine `go informer.Run(stopCh)`. -/
structure Goroutine (I : Type) where
  informer : I
  stopCh : ℕ
  phase : Phase
deriving DecidableEq, Repr

/-- The flags of an informer. -/
structure Flags where
  started : Bool := false
  stopped : Bool := false
deriving DecidableEq, Repr

/-- A replica in `discoveryComponent.Start`, with the informers `I`. -/
structure Replica (I : Type) where
  isLeader : Bool := false
  returned : Bool := false
  leaderStopCh : Option ℕ := none
  /-- The number of channels made so far, which are the numbers below it. -/
  made : ℕ := 0
  closed : ℕ → Bool := fun _ => false
  subscribed : Bool := false
  flags : I → Flags := fun _ => {}
  goroutines : List (Goroutine I) := []

/-- What happens next. -/
inductive Action where
  /-- The ticker of the election loop, with what `TryAcquire` returns, and what the subscriptions of
  `startBusinessLogic` come to, if they are made. -/
  | ticker (acquired : Bool) (subscription : Except Failure Unit)
  /-- The ticker of the renewal, with what `Renew` returns. -/
  | renewTicker (renewed : Bool)
  /-- The context is done, or `stopCh` is closed. -/
  | stop
  /-- The goroutine at this position takes its next step. -/
  | goroutine (n : ℕ)

/-! ## Steps -/

section Steps

variable {I : Type}

/-- `startBusinessLogic`, with the configured informers. -/
def startBusinessLogic (informers : List I) (subscription : Except Failure Unit) (stopCh : ℕ)
    (s : Replica I) : Except Failure Unit × Replica I :=
  let run (s : Replica I) : Replica I :=
    { s with goroutines := s.goroutines ++ informers.map fun i => ⟨i, stopCh, .checking⟩ }
  if s.subscribed then (.ok (), run s)
  else
    match subscription with
    | .error e => (.error e, s)
    | .ok () => (.ok (), run { s with subscribed := true })

/-- `onStartLeading`: a new channel, and the informers on it; an error is only logged. -/
def onStartLeading (informers : List I) (subscription : Except Failure Unit) (s : Replica I) :
    Replica I :=
  (startBusinessLogic informers subscription s.made
    { s with leaderStopCh := some s.made, made := s.made + 1 }).2

def onStopLeading (s : Replica I) : Replica I :=
  match s.leaderStopCh with
  | some ch => { s with closed := Function.update s.closed ch true, leaderStopCh := none }
  | none => s

variable [DecidableEq I]

/-- A goroutine returns from `Run`, whose deferred call sets `stopped`. -/
def finish (s : Replica I) (n : ℕ) (g : Goroutine I) : Replica I :=
  { s with
    flags := Function.update s.flags g.informer { s.flags g.informer with stopped := true }
    goroutines := s.goroutines.eraseIdx n }

/-- A goroutine goes on to its next phase. -/
def advance (s : Replica I) (n : ℕ) (g : Goroutine I) (phase : Phase) : Replica I :=
  { s with goroutines := s.goroutines.set n { g with phase } }

/-- The next step of `informer.Run`, where it does not wait for the channel. -/
def runStep (s : Replica I) (n : ℕ) (g : Goroutine I) : Option (Replica I) :=
  match g.phase with
  | .checking =>
    if (s.flags g.informer).started then some (finish s n g) else some (advance s n g .starting)
  | .starting =>
    let flags := Function.update s.flags g.informer { s.flags g.informer with started := true }
    some (advance { s with flags := flags } n g .launching)
  | .launching => some (advance s n g .running)
  | .running => if s.closed g.stopCh then some (finish s n g) else none

/-- One round of the election loop, or one step of a goroutine. -/
def step (informers : List I) (s : Replica I) : Action → Option (Replica I)
  | .ticker acquired subscription =>
    if s.returned then none
    else if !s.isLeader && acquired then
      some (onStartLeading informers subscription { s with isLeader := true })
    else some s
  | .renewTicker renewed =>
    if s.returned then none
    else if s.isLeader && !renewed then some (onStopLeading { s with isLeader := false })
    else some s
  | .stop =>
    if s.returned then none
    else if s.isLeader then some (onStopLeading { s with returned := true })
    else some { s with returned := true }
  | .goroutine n => s.goroutines[n]?.bind (runStep s n)

/-- A step of a replica. -/
def Step (informers : List I) (s : Replica I) (a : Action) (s' : Replica I) : Prop :=
  step informers s a = some s'

end Steps

/-! ## Terms -/

section Terms

variable {I : Type} {informers : List I}

/-- The subscriptions succeed, or are made already, and each `Run` finds its informer not
started. -/
def StartsOnce (s : Replica I) : Action → Prop
  | .ticker _ subscription => s.subscribed = true ∨ subscription = .ok ()
  | .goroutine n => ∀ g, s.goroutines[n]? = some g → g.phase = .checking →
      (s.flags g.informer).started = false
  | _ => True

/-- Every informer has a goroutine on the open channel of the term. -/
structure InTerm (informers : List I) (s : Replica I) (ch : ℕ) : Prop where
  leaderStopCh : s.leaderStopCh = some ch
  opened : s.closed ch = false
  running : ∀ i ∈ informers, ∃ g ∈ s.goroutines, g.informer = i ∧ g.stopCh = ch

/-- The invariant of a replica: channels are closed only after they were made, and while it leads
the informers have their goroutines. -/
structure Inv (informers : List I) (s : Replica I) : Prop where
  fresh : ∀ ch, s.made ≤ ch → s.closed ch = false
  leads : s.isLeader = true → s.returned = false → ∃ ch, InTerm informers s ch
  valid : ∀ ch, s.leaderStopCh = some ch → ch < s.made

variable {s : Replica I}

theorem onStartLeading_eq {subscription : Except Failure Unit}
    (h : s.subscribed = true ∨ subscription = .ok ()) :
    onStartLeading informers subscription s =
      { s with
        leaderStopCh := some s.made
        made := s.made + 1
        subscribed := true
        goroutines := s.goroutines ++ informers.map fun i => ⟨i, s.made, .checking⟩ } := by
  unfold onStartLeading startBusinessLogic
  cases hsubscribed : s.subscribed with
  | true => simp
  | false =>
    have hok := h.resolve_left (by simp [hsubscribed])
    simp [hok]

/-- Becoming leader starts a term. -/
theorem inv_onStartLeading {subscription : Except Failure Unit} (h : Inv informers s)
    (hok : s.subscribed = true ∨ subscription = .ok ()) :
    Inv informers (onStartLeading informers subscription { s with isLeader := true }) := by
  rw [onStartLeading_eq (s := { s with isLeader := true }) hok]
  refine ⟨fun ch hch => h.fresh ch (by dsimp only at hch; omega), fun _ _ =>
    ⟨s.made, rfl, h.fresh s.made le_rfl, fun i hi => ?_⟩, fun ch hch => ?_⟩
  · refine ⟨⟨i, s.made, .checking⟩, ?_, rfl, rfl⟩
    exact List.mem_append_right _ (List.mem_map.mpr ⟨i, hi, rfl⟩)
  · cases hch
    exact Nat.lt_succ_self _

/-- Losing the lead, or returning, ends the term. -/
theorem inv_onStopLeading (hfresh : ∀ ch, s.made ≤ ch → s.closed ch = false)
    (hvalid : ∀ ch, s.leaderStopCh = some ch → ch < s.made)
    (hends : s.isLeader = false ∨ s.returned = true) : Inv informers (onStopLeading s) := by
  have hleads : ∀ {P : Prop}, s.isLeader = true → s.returned = false → P := by
    intro P hleader hreturned
    rcases hends with hnot | hdone
    · cases hnot.symm.trans hleader
    · cases hdone.symm.trans hreturned
  unfold onStopLeading
  cases hch : s.leaderStopCh with
  | none =>
    exact ⟨hfresh, fun hleader hreturned => hleads hleader hreturned, hvalid⟩
  | some ch =>
    refine ⟨fun ch' hch' => ?_, fun hleader hreturned => hleads hleader hreturned,
      fun _ hnone => by cases hnone⟩
    have hne : ch' ≠ ch := by
      have hlt := hvalid ch hch
      dsimp only at hch'
      omega
    exact (Function.update_of_ne hne _ _).trans (hfresh ch' hch')

variable {n : ℕ} {g g' : Goroutine I}

/-- A goroutine that goes on keeps its informer and channel. -/
theorem mem_advance {phase : Phase} (hg : s.goroutines[n]? = some g) (hg' : g' ∈ s.goroutines) :
    ∃ g'' ∈ (advance s n g phase).goroutines,
      g''.informer = g'.informer ∧ g''.stopCh = g'.stopCh := by
  obtain ⟨m, hm⟩ := List.mem_iff_getElem?.mp hg'
  unfold advance
  by_cases heq : m = n
  · subst heq
    obtain rfl := Option.some.inj (hg.symm.trans hm)
    have hlt := (List.getElem?_eq_some_iff.mp hg).1
    exact ⟨{ g with phase }, List.mem_set hlt _, rfl, rfl⟩
  · refine ⟨g', List.mem_iff_getElem?.mpr ⟨m, ?_⟩, rfl, rfl⟩
    rw [List.getElem?_set_ne (Ne.symm heq)]
    exact hm

variable [DecidableEq I]

theorem mem_finish (hg : s.goroutines[n]? = some g) (hg' : g' ∈ s.goroutines) (hne : g' ≠ g) :
    g' ∈ (finish s n g).goroutines := by
  obtain ⟨m, hm⟩ := List.mem_iff_getElem?.mp hg'
  refine List.mem_eraseIdx_iff_getElem?.mpr ⟨m, ?_, hm⟩
  rintro rfl
  exact hne (Option.some.inj (hm.symm.trans hg))

variable {s' : Replica I}

/-- What a step of a goroutine keeps. -/
theorem runStep_keeps (h : runStep s n g = some s') :
    s'.isLeader = s.isLeader ∧ s'.returned = s.returned ∧ s'.leaderStopCh = s.leaderStopCh ∧
      s'.made = s.made ∧ s'.closed = s.closed := by
  unfold runStep at h
  cases hphase : g.phase with
  | checking =>
    simp only [hphase] at h
    split_ifs at h <;> (obtain rfl := Option.some.inj h; exact ⟨rfl, rfl, rfl, rfl, rfl⟩)
  | starting | launching =>
    simp only [hphase] at h
    cases h
    exact ⟨rfl, rfl, rfl, rfl, rfl⟩
  | running =>
    simp only [hphase] at h
    split_ifs at h
    cases h
    exact ⟨rfl, rfl, rfl, rfl, rfl⟩

/-- A step of a goroutine keeps the goroutines on an open channel, when its `Run` finds the informer
not started. -/
theorem runStep_mem (hg : s.goroutines[n]? = some g) (h : runStep s n g = some s')
    (honce : g.phase = .checking → (s.flags g.informer).started = false) (hg' : g' ∈ s.goroutines)
    (hopen : s.closed g'.stopCh = false) :
    ∃ g'' ∈ s'.goroutines, g''.informer = g'.informer ∧ g''.stopCh = g'.stopCh := by
  unfold runStep at h
  cases hphase : g.phase with
  | checking =>
    simp only [hphase, honce hphase] at h
    cases h
    exact mem_advance hg hg'
  | starting | launching =>
    simp only [hphase] at h
    cases h
    exact mem_advance hg hg'
  | running =>
    simp only [hphase] at h
    split_ifs at h with hclosed
    cases h
    -- A controller returns only when its channel is closed.
    have hne : g' ≠ g := by
      rintro rfl
      cases hclosed.symm.trans hopen
    exact ⟨g', mem_finish hg hg' hne, rfl, rfl⟩

/-- A step that meets the condition keeps the invariant. -/
theorem inv_step {a : Action} (h : Inv informers s)
    (hstep : Guarded StartsOnce (Step informers) s a s') : Inv informers s' := by
  obtain ⟨honce, hstep⟩ := hstep
  unfold Step step at hstep
  cases a with
  | ticker acquired subscription =>
    dsimp only at hstep
    split_ifs at hstep
    · cases hstep
      exact inv_onStartLeading h honce
    · cases hstep
      exact h
  | renewTicker renewed =>
    dsimp only at hstep
    split_ifs at hstep
    · cases hstep
      exact inv_onStopLeading h.fresh h.valid (.inl rfl)
    · cases hstep
      exact h
  | stop =>
    split_ifs at hstep
    · cases hstep
      exact inv_onStopLeading h.fresh h.valid (.inr rfl)
    · cases hstep
      exact ⟨h.fresh, fun _ hreturned => (by cases hreturned), h.valid⟩
  | goroutine n =>
    obtain ⟨g, hg, hrun⟩ := Option.bind_eq_some_iff.mp hstep
    obtain ⟨hleader, hreturned, hch, hmade, hclosed⟩ := runStep_keeps hrun
    refine ⟨?_, ?_, ?_⟩
    · rw [hmade, hclosed]
      exact h.fresh
    · rw [hleader, hreturned]
      intro hlead hnot
      obtain ⟨ch, hterm⟩ := h.leads hlead hnot
      refine ⟨ch, hch.trans hterm.leaderStopCh, by rw [hclosed]; exact hterm.opened, ?_⟩
      intro i hi
      obtain ⟨g', hg', hinformer, hstopCh⟩ := hterm.running i hi
      have hopen : s.closed g'.stopCh = false := hstopCh ▸ hterm.opened
      obtain ⟨g'', hg'', hsame, hsameCh⟩ := runStep_mem hg hrun (honce g hg) hg' hopen
      exact ⟨g'', hg'', hsame.trans hinformer, hsameCh.trans hstopCh⟩
    · rw [hch, hmade]
      exact h.valid

/-- In every run of the election loop in which the subscriptions succeed and each `Run` finds its
informer not started, with any acquisitions, lost renewals and re-acquisitions: while the replica
leads, the term has an open channel, and once the goroutines have got to their controllers, every
configured informer runs its controller on that channel. -/
theorem term_informers_run {as : List Action} {s : Replica I}
    (h : Run (Guarded StartsOnce (Step informers)) {} as s) (hleader : s.isLeader = true)
    (hreturned : s.returned = false) :
    ∃ ch, s.leaderStopCh = some ch ∧ s.closed ch = false ∧
      ((∀ g ∈ s.goroutines, g.phase = .running) →
        ∀ i ∈ informers, ⟨i, ch, .running⟩ ∈ s.goroutines) := by
  have hinit : Inv informers ({} : Replica I) :=
    ⟨fun _ _ => rfl, fun hnot => (by cases hnot), fun _ hnone => by cases hnone⟩
  have hinv : Inv informers s := h.invariant (Inv informers) hinit fun _ _ _ => inv_step
  obtain ⟨ch, hterm⟩ := hinv.leads hleader hreturned
  refine ⟨ch, hterm.leaderStopCh, hterm.opened, fun hrunning i hi => ?_⟩
  obtain ⟨g, hg, rfl, rfl⟩ := hterm.running i hi
  have hphase := hrunning g hg
  rw [← hphase]
  exact hg

end Terms

/-! ## One informer -/

/-- The replica becomes leader, and its informer gets to its controller. -/
def firstTerm : List Action :=
  [.ticker true (.ok ()), .goroutine 0, .goroutine 0, .goroutine 0]

/-- It loses the lead, the controller returns, and it becomes leader again. -/
def secondTerm : List Action :=
  [.renewTicker false, .goroutine 0, .ticker true (.ok ()), .goroutine 0]

/-- `StartsOnce`, computed. -/
def startsOnceCheck (s : Replica Unit) : Action → Bool
  | .ticker _ subscription => s.subscribed || subscription.isOk
  | .goroutine n => s.goroutines[n]?.all fun g =>
      g.phase != .checking || !(s.flags g.informer).started
  | _ => true

theorem startsOnce_of_check (s : Replica Unit) (a : Action) (h : startsOnceCheck s a = true) :
    StartsOnce s a := by
  cases a with
  | ticker acquired subscription =>
    cases subscription with
    | ok u => exact .inr rfl
    | error e => exact .inl (by simpa [startsOnceCheck, Except.isOk, Except.toBool] using h)
  | goroutine n =>
    intro g hg hphase
    simpa [startsOnceCheck, hg, hphase] using h
  | _ => trivial

/-- In the first term the informer runs on the term's channel. -/
theorem term_informers_run_first :
    ∃ s, Run (Guarded StartsOnce (Step [()])) {} firstTerm s ∧
      ∃ ch, s.leaderStopCh = some ch ∧ s.closed ch = false ∧
        ⟨(), ch, .running⟩ ∈ s.goroutines := by
  obtain ⟨s, hs, hleader, hreturned, hrunning⟩ : ∃ s, firstTerm.foldlM
        (fun s a => if startsOnceCheck s a then step [()] s a else none) {} = some s ∧
      s.isLeader = true ∧ s.returned = false ∧ s.goroutines = [⟨(), 0, .running⟩] :=
    ⟨_, rfl, rfl, rfl, rfl⟩
  have hnext : ∀ s a s', (if startsOnceCheck s a then step [()] s a else none) = some s' →
      Guarded StartsOnce (Step [()]) s a s' := by
    intro s a s' h
    split_ifs at h with hcheck
    exact ⟨startsOnce_of_check s a hcheck, h⟩
  have hrun := Run.of_foldlM hnext hs
  obtain ⟨ch, hch, hopen, hterm⟩ := term_informers_run hrun hleader hreturned
  have hsettled : ∀ g ∈ s.goroutines, g.phase = .running := by
    rw [hrunning]
    decide
  exact ⟨s, hrun, ch, hch, hopen, hterm hsettled () (List.mem_singleton.mpr rfl)⟩

/-- In the second term the replica leads, and no informer runs: the goroutine of the new term finds
the informer started, and returns. -/
theorem second_term_runs_nothing :
    ∃ s, Run (Step [()]) {} (firstTerm ++ secondTerm) s ∧ s.isLeader = true ∧
      s.returned = false ∧ s.leaderStopCh = some 1 ∧ s.goroutines = [] :=
  ⟨_, Run.of_foldlM (fun _ _ _ h => h) rfl, rfl, rfl, rfl, rfl⟩

end DubboAdmin.Discovery
