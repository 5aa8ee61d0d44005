import DubboAdmin.Events.Discipline

/-!
# How the operations of the event bus change its state

The changes that the operations make, each with what it keeps of the invariant: a new state, a flag
or a channel of a state, an entry of the directory, an event in a channel, the lock, a drainer that
is launched, and a drainer's own step.
-/

namespace DubboAdmin.Events

open Controller (ResourceChangedEvent)

variable {σ ι : Type} {A : Assumed} {s s' : EventBus σ ι} {i : ι}

/-! ## States -/

variable {c : SubscriberState σ}

theorem forall_update {P : ℕ → SubscriberState σ → Prop} {cells : ℕ → SubscriberState σ} {id : ℕ}
    (hc : P id c) (h : ∀ id, P id (cells id)) (id' : ℕ) :
    P id' (Function.update cells id c id') :=
  (Function.forall_update_iff cells P).mpr ⟨hc, fun id' _ => h id'⟩ id'

theorem setCell_rel {R : SubscriberState σ → SubscriberState σ → Prop} (hrefl : ∀ c, R c c) {id : ℕ}
    (hc : R (s.cells id) c) (id' : ℕ) :
    R (s.cells id') ((s.setCell id c).cells id') :=
  forall_update (P := fun id' c => R (s.cells id') c) hc (fun _ => hrefl _) id'

theorem started_setCell {id : ℕ}
    (hc : (s.cells id).drainerStarted = true → c.drainerStarted = true) (id' : ℕ) :
    (s.cells id').drainerStarted = true → ((s.setCell id c).cells id').drainerStarted = true :=
  setCell_rel (R := fun c c' => c.drainerStarted = true → c'.drainerStarted = true) (fun _ h => h)
    hc id'

theorem accounted_new : ({} : SubscriberState σ).Accounted :=
  ⟨rfl, fun _ => rfl, fun h => by cases h⟩

theorem Launched.mono (h : Launched s) (hrefs : s'.refs = s.refs)
    (hsucceeded : s'.startSucceeded = s.startSucceeded)
    (hstopped : s.stopped = true → s'.stopped = true)
    (hstarted : ∀ id, (s.cells id).drainerStarted = true → (s'.cells id).drainerStarted = true) :
    Launched s' := by
  intro hsucc st hst hasync
  rw [hsucceeded] at hsucc
  rw [hrefs] at hst
  exact (h hsucc st hst hasync).imp hstopped (hstarted st.id)

theorem Removed.mono (h : Removed s) (hrefs : s'.refs = s.refs)
    (hdrains : ∀ id, (s.cells id).Drains → (s'.cells id).Drains) : Removed s' := by
  intro id hid
  rw [hrefs] at hid
  exact hdrains id (h id hid)

/-- A writer makes a new state. -/
theorem inv_alloc (hinv : Inv A s) (hwriter : s.writer = some i) : Inv A s.alloc :=
  { hinv with
    valid := fun st hst => Nat.lt_succ_of_lt (hinv.valid st hst)
    settled := fun hnone => by cases hwriter.symm.trans hnone
    accounted := forall_update (P := fun _ c => c.Accounted) accounted_new hinv.accounted
    waits := forall_update (P := fun id c => c.drainerStarted = true →
      c.drainer.hasEnded = false → id ∈ s.wg) (fun h => by cases h) hinv.waits
    ordered := fun hA => { hinv.ordered hA with
      drains := fun hsucceeded => forall_update (P := fun _ c => c.Drains) (.inr rfl)
        ((hinv.ordered hA).drains hsucceeded) } }

/-- A writer sets a flag of a state or closes its channel. -/
theorem inv_setCell (hinv : Inv A s) (hwriter : s.writer = some i) {id : ℕ}
    (hch : c.ch = (s.cells id).ch) (hstarted : c.drainerStarted = (s.cells id).drainerStarted)
    (hdrainer : c.drainer = (s.cells id).drainer) (haccounted : c.Accounted) :
    Inv A (s.setCell id c) := by
  have hwaits : ∀ id', ((s.setCell id c).cells id').drainerStarted = true →
      ((s.setCell id c).cells id').drainer.hasEnded = false → id' ∈ s.wg := by
    refine forall_update (P := fun id c => c.drainerStarted = true → c.drainer.hasEnded = false →
      id ∈ s.wg) ?_ hinv.waits
    rw [hstarted, hdrainer]
    exact hinv.waits id
  refine { hinv with
    settled := fun hnone => by cases hwriter.symm.trans hnone
    accounted := forall_update (P := fun _ c => c.Accounted) haccounted hinv.accounted
    waits := hwaits
    ordered := fun hA => { hinv.ordered hA with drains := fun hsucceeded => ?_ } }
  refine forall_update (P := fun _ c => c.Drains) ?_ ((hinv.ordered hA).drains hsucceeded)
  unfold SubscriberState.Drains
  rw [hstarted, hch]
  exact (hinv.ordered hA).drains hsucceeded id

/-! ## The lock -/

theorem inv_relock (hinv : Inv A s) (writer : Option ι) (readers : List ι)
    (hexclusive : writer ≠ none → readers = []) (hsettled : writer = none → Settled A s) :
    Inv A { s with writer := writer, readers := readers } :=
  { hinv with
    exclusive := hexclusive
    settled := fun hnone => { hsettled hnone with }
    ordered := fun hA => { hinv.ordered hA with } }

theorem rely_relock {j : ι} (hmisuse : s.misuse = none) (writer : Option ι) (readers : List ι)
    (hwriter : writer = some j ↔ s.writer = some j) (hreader : j ∈ readers ↔ j ∈ s.readers) :
    Rely j s { s with writer := writer, readers := readers } :=
  { Rely.refl j s with misuse := fun _ => hmisuse, writer := hwriter, reader := hreader }

/-! ## Drainers -/

theorem launch_started (s : EventBus σ ι) (id : ℕ) :
    ((s.launch id).cells id).drainerStarted = true := by
  unfold EventBus.launch
  split_ifs with h
  · exact h
  · simp

theorem launch_cells (s : EventBus σ ι) (id id' : ℕ) :
    ((s.launch id).cells id').closed = (s.cells id').closed ∧
      ((s.launch id).cells id').chClosed = (s.cells id').chClosed ∧
      ((s.launch id).cells id').ch = (s.cells id').ch ∧
      ((s.cells id').drainerStarted = true →
        ((s.launch id).cells id').drainerStarted = true) := by
  unfold EventBus.launch
  split_ifs with h
  · exact ⟨rfl, rfl, rfl, fun hstarted => hstarted⟩
  · by_cases hid : id' = id
    · subst hid
      simp
    · simp [Function.update_of_ne hid]

theorem launch_frame (s : EventBus σ ι) (id : ℕ) :
    SameLock s (s.launch id) ∧ (s.launch id).allocated = s.allocated ∧
      (s.launch id).kinds = s.kinds ∧ (s.launch id).subscriberDir = s.subscriberDir ∧
      (s.launch id).misuse = s.misuse ∧ (s.launch id).started = s.started := by
  unfold EventBus.launch
  split_ifs <;> exact ⟨⟨rfl, rfl, rfl, rfl, rfl⟩, rfl, rfl, rfl, rfl, rfl⟩

theorem launch_drains {id id' : ℕ} (h : (s.cells id').Drains) :
    ((s.launch id).cells id').Drains := by
  obtain ⟨-, -, hch, hstarted⟩ := launch_cells s id id'
  exact h.imp hstarted hch.trans

theorem launched_launch {id : ℕ} (h : Launched s) : Launched (s.launch id) := by
  obtain ⟨hsame, -, hkinds, hdir, -⟩ := launch_frame s id
  exact h.mono (refs_congr hkinds hdir) hsame.succeeded hsame.stopped.trans
    fun id' => (launch_cells s id id').2.2.2

theorem removed_launch {id : ℕ} (h : Removed s) : Removed (s.launch id) := by
  obtain ⟨-, -, hkinds, hdir, -⟩ := launch_frame s id
  exact h.mono (refs_congr hkinds hdir) fun id' => launch_drains

theorem synced_launch {id : ℕ} (h : Synced s) : Synced (s.launch id) := by
  intro id'
  obtain ⟨hclosed, hchClosed, -⟩ := launch_cells s id id'
  rw [hclosed, hchClosed]
  exact h id'

theorem settled_launch {id : ℕ} (h : Settled A s) : Settled A (s.launch id) :=
  ⟨synced_launch h.synced, fun hA => launched_launch (h.launched hA),
    fun hA => removed_launch (h.removed hA)⟩

/-- The drainer that is launched has everything in the channel before it, and the wait group has
it. -/
theorem launch_accounted (hinv : Inv A s) (id : ℕ) :
    (∀ id', ((s.launch id).cells id').Accounted) ∧
      ∀ id', ((s.launch id).cells id').drainerStarted = true →
        ((s.launch id).cells id').drainer.hasEnded = false → id' ∈ (s.launch id).wg := by
  unfold EventBus.launch
  split_ifs with h
  · exact ⟨hinv.accounted, hinv.waits⟩
  · obtain ⟨hevents, habsent, -⟩ := hinv.accounted id
    have hdrainer : (s.cells id).drainer = .absent := habsent (by simpa using h)
    rw [hdrainer] at hevents
    constructor
    · exact forall_update (P := fun _ c => c.Accounted)
        ⟨hevents, fun hstarted => (by cases hstarted), fun hreturned => by cases hreturned⟩
        hinv.accounted
    · exact forall_update (P := fun id' c => c.drainerStarted = true →
        c.drainer.hasEnded = false → id' ∈ id :: s.wg) (fun _ _ => List.mem_cons_self ..)
        fun id' hstarted hended => List.mem_cons_of_mem _ (hinv.waits id' hstarted hended)

theorem inv_launch (hinv : Inv A s) (id : ℕ) : Inv A (s.launch id) := by
  obtain ⟨hsame, hallocated, hkinds, hdir, hmisuse, hstarted⟩ := launch_frame s id
  obtain ⟨haccounted, hwaits⟩ := launch_accounted hinv id
  refine ⟨?_, ?_, ?_, ?_, haccounted, hwaits, ?_, fun hA => ⟨?_, ?_, ?_⟩⟩
  · rw [hsame.writer, hsame.readers]
    exact hinv.exclusive
  · rw [refs_congr hkinds hdir, hallocated]
    exact hinv.valid
  · rw [hsame.writer]
    exact fun hnone => settled_launch (hinv.settled hnone)
  · rw [hmisuse]
    exact hinv.sound
  · rw [hstarted, hsame.starter]
    exact hinv.begun
  · rw [hsame.stopped, hsame.succeeded]
    exact (hinv.ordered hA).stopped
  · rw [hsame.succeeded, hstarted]
    exact (hinv.ordered hA).started
  · rw [hsame.succeeded]
    exact fun hsucceeded id' => launch_drains ((hinv.ordered hA).drains hsucceeded id')

/-- What a drainer's step keeps of its state. -/
theorem drain_keeps {c' : SubscriberState σ} (h : c.drain = some c') :
    (c'.closed = c.closed ∧ c'.chClosed = c.chClosed ∧ c'.drainerStarted = c.drainerStarted) ∧
      (c.ch = [] → c'.ch = []) ∧ c.drainer.hasEnded = false ∧ (c.Accounted → c'.Accounted) := by
  unfold SubscriberState.drain at h
  cases hdrainer : c.drainer with
  | absent | ended => simp [hdrainer] at h
  | processing e =>
    simp only [hdrainer, Option.some.injEq] at h
    subst h
    refine ⟨⟨rfl, rfl, rfl⟩, id, rfl, fun hacc => ⟨?_, fun hstarted => ?_, fun h => by cases h⟩⟩
    · -- The event moves from being processed to processed.
      have hevents := hacc.events
      rw [hdrainer] at hevents
      simpa [Drainer.inFlight] using hevents
    · cases hdrainer.symm.trans (hacc.absent hstarted)
  | returned =>
    simp only [hdrainer, Option.some.injEq] at h
    subst h
    refine ⟨⟨rfl, rfl, rfl⟩, id, rfl, fun hacc => ⟨?_, fun hstarted => ?_, fun _ => ?_⟩⟩
    · have hevents := hacc.events
      rw [hdrainer] at hevents
      exact hevents
    · cases hdrainer.symm.trans (hacc.absent hstarted)
    · exact hacc.returned (by rw [hdrainer]; rfl)
  | waiting =>
    simp only [hdrainer] at h
    cases hch : c.ch with
    | cons e rest =>
      simp only [hch, Option.some.injEq] at h
      subst h
      refine ⟨⟨rfl, rfl, rfl⟩, fun h => (by cases h), rfl,
        fun hacc => ⟨?_, fun hstarted => ?_, fun h => by cases h⟩⟩
      · -- The event moves from the channel to being processed.
        have hevents := hacc.events
        rw [hdrainer, hch] at hevents
        simpa [Drainer.inFlight] using hevents
      · cases hdrainer.symm.trans (hacc.absent hstarted)
    | nil =>
      simp only [hch] at h
      split_ifs at h with hclosed
      cases h
      refine ⟨⟨rfl, rfl, rfl⟩, fun _ => rfl, rfl,
        fun hacc => ⟨?_, fun hstarted => ?_, fun _ => ⟨rfl, hclosed⟩⟩⟩
      · have hevents := hacc.events
        rw [hdrainer, hch] at hevents
        exact hevents
      · cases hdrainer.symm.trans (hacc.absent hstarted)

/-- What the drainers' steps keep of each state. -/
theorem drained_cells {id : ℕ} (h : (s.cells id).drain = some c) (id' : ℕ) :
    ((s.drained id c).cells id').closed = (s.cells id').closed ∧
      ((s.drained id c).cells id').chClosed = (s.cells id').chClosed ∧
      ((s.drained id c).cells id').drainerStarted = (s.cells id').drainerStarted ∧
      ((s.cells id').ch = [] → ((s.drained id c).cells id').ch = []) := by
  by_cases hid : id' = id
  · subst hid
    obtain ⟨⟨hclosed, hchClosed, hstarted⟩, hch, -⟩ := drain_keeps h
    simp only [EventBus.drained, Function.update_self]
    exact ⟨hclosed, hchClosed, hstarted, hch⟩
  · simp [EventBus.drained, Function.update_of_ne hid]

/-- A drainer's step keeps the invariant. -/
theorem inv_drained (hinv : Inv A s) {id : ℕ} (h : (s.cells id).drain = some c) :
    Inv A (s.drained id c) := by
  obtain ⟨⟨-, -, hstarted⟩, -, hnotEnded, haccounted⟩ := drain_keeps h
  have hdrains : ∀ id', (s.cells id').Drains → ((s.drained id c).cells id').Drains := by
    intro id' hdrains
    obtain ⟨-, -, hstarted', hch⟩ := drained_cells h id'
    exact hdrains.imp hstarted'.trans hch
  refine { hinv with
    settled := fun hnone => ?_, accounted := ?_, waits := ?_
    ordered := fun hA => { hinv.ordered hA with
      drains := fun hsucceeded id' => hdrains id' ((hinv.ordered hA).drains hsucceeded id') } }
  · have hsettled := hinv.settled hnone
    refine ⟨fun id' => ?_, fun hA => ?_, fun hA => ?_⟩
    · obtain ⟨hclosed, hchClosed, -⟩ := drained_cells h id'
      rw [hclosed, hchClosed]
      exact hsettled.synced id'
    · exact (hsettled.launched hA).mono rfl rfl (fun h => h) fun id' =>
        (drained_cells h id').2.2.1.trans
    · exact (hsettled.removed hA).mono rfl hdrains
  · exact forall_update (P := fun _ c => c.Accounted) (haccounted (hinv.accounted id))
      hinv.accounted
  · -- The drainer leaves the wait group when it has ended, and no other one does.
    have hin : ∀ id', id' ∈ s.wg → (id' = id → c.drainer.hasEnded = false) →
        id' ∈ (s.drained id c).wg := by
      intro id' hmem hnot
      unfold EventBus.drained
      split_ifs with hended
      · refine List.mem_filter.mpr ⟨hmem, ?_⟩
        simp only [decide_eq_true_eq]
        rintro rfl
        cases hended.symm.trans (hnot rfl)
      · exact hmem
    intro id' hstarted' hended'
    by_cases hid : id' = id
    · subst hid
      simp only [EventBus.drained, Function.update_self] at hstarted' hended'
      exact hin id' (hinv.waits id' (hstarted.symm.trans hstarted') hnotEnded) fun _ => hended'
    · simp only [EventBus.drained, Function.update_of_ne hid] at hstarted' hended'
      exact hin id' (hinv.waits id' hstarted' hended') fun heq => absurd heq hid

/-- A drainer's step is nothing that a thread relies on not to happen. -/
theorem rely_drained (j : ι) (hmisuse : s.misuse = none) {id : ℕ}
    (h : (s.cells id).drain = some c) : Rely j s (s.drained id c) :=
  { Rely.refl j s with
    misuse := fun _ => hmisuse
    started := fun id' _ => (drained_cells h id').2.2.1.trans
    held := fun _ => ⟨rfl, rfl, fun id' => ⟨(drained_cells h id').1, (drained_cells h id').2.1⟩⟩
    written := fun _ => ⟨rfl, fun id' => (drained_cells h id').2.2⟩ }

/-! ## Events -/

/-- The state with one more event in its channel. -/
def SubscriberState.place (c : SubscriberState σ) (event : ResourceChangedEvent σ) :
    SubscriberState σ :=
  { c with ch := c.ch ++ [event], placed := c.placed ++ [event] }

variable {st : StateRef}

/-- A reader places an event in an open channel of the directory. -/
theorem inv_place (hinv : Inv A s) (hreader : i ∈ s.readers) (hst : st ∈ s.refs)
    (hasync : st.async = true) (hopen : (s.cells st.id).chClosed = false)
    (hgood : A.drained → s.stopped = true → (s.cells st.id).drainerStarted = true)
    (event : ResourceChangedEvent σ) :
    Inv A (s.setCell st.id ((s.cells st.id).place event)) := by
  have hwriter := hinv.writer_eq_none hreader
  have hsettled := hinv.settled hwriter
  refine { hinv with
    settled := fun _ => ⟨?_, fun hA => ?_, fun hA id hid => ?_⟩, accounted := ?_, waits := ?_
    ordered := fun hA => { hinv.ordered hA with drains := fun hsucceeded => ?_ } }
  · exact forall_update (P := fun _ c => c.closed = c.chClosed) (hsettled.synced st.id)
      hsettled.synced
  · exact (hsettled.launched hA).mono rfl rfl id (started_setCell id)
  · -- The state is in the directory, so it is not one that has left it.
    have hne : id ≠ st.id := fun heq => hid st hst hasync heq.symm
    simp only [EventBus.setCell, Function.update_of_ne hne]
    exact hsettled.removed hA id hid
  · refine forall_update (P := fun _ c => c.Accounted) ?_ hinv.accounted
    obtain ⟨hevents, habsent, hreturned⟩ := hinv.accounted st.id
    refine ⟨?_, habsent, fun h => ?_⟩
    · simp only [SubscriberState.place]
      rw [hevents, List.append_assoc]
    · cases hopen.symm.trans (hreturned h).2
  · exact forall_update (P := fun id c => c.drainerStarted = true → c.drainer.hasEnded = false →
      id ∈ s.wg) (hinv.waits st.id) hinv.waits
  · refine forall_update (P := fun _ c => c.Drains) (.inl ?_)
      ((hinv.ordered hA).drains hsucceeded)
    -- `Start` has launched the drainer, unless the state came after `stopped`.
    exact (hsettled.launched hA hsucceeded st hst hasync).elim (hgood hA) fun h => h

/-! ## The directory -/

variable {rk : String} {states : List StateRef}

/-- The states of the directory after an entry was set. -/
theorem mem_refs_setStates :
    st ∈ (s.setStates rk states).refs ↔
      st ∈ states ∨ ∃ rk' ∈ s.kinds, rk' ≠ rk ∧ st ∈ s.subscriberDir rk' := by
  have hmem : rk ∈ (s.setStates rk states).kinds := by
    unfold EventBus.setStates
    split_ifs with h
    · exact h
    · simp
  have hkinds : ∀ rk', rk' ≠ rk → (rk' ∈ (s.setStates rk states).kinds ↔ rk' ∈ s.kinds) := by
    intro rk' hne
    unfold EventBus.setStates
    split_ifs with h
    · exact Iff.rfl
    · simp [hne]
  unfold EventBus.refs
  rw [List.mem_flatMap]
  constructor
  · rintro ⟨rk', hrk', hst⟩
    by_cases hne : rk' = rk
    · subst hne
      simp only [EventBus.setStates, Function.update_self] at hst
      exact .inl hst
    · simp only [EventBus.setStates, Function.update_of_ne hne] at hst
      exact .inr ⟨rk', (hkinds rk' hne).mp hrk', hne, hst⟩
  · rintro (hst | ⟨rk', hrk', hne, hst⟩)
    · refine ⟨rk, hmem, ?_⟩
      simp only [EventBus.setStates, Function.update_self]
      exact hst
    · refine ⟨rk', (hkinds rk' hne).mpr hrk', ?_⟩
      simp only [EventBus.setStates, Function.update_of_ne hne]
      exact hst

/-- The entry of the directory for a kind. -/
def entry (kinds : List String) (dir : String → List StateRef) (rk : String) :
    Option (List StateRef) :=
  if rk ∈ kinds then some (dir rk) else none

theorem mem_refs_entry (rk : String) :
    st ∈ s.refs ↔ st ∈ (entry s.kinds s.subscriberDir rk).getD [] ∨
      ∃ rk' ∈ s.kinds, rk' ≠ rk ∧ st ∈ s.subscriberDir rk' := by
  unfold EventBus.refs entry
  rw [List.mem_flatMap]
  constructor
  · rintro ⟨rk', hrk', hst⟩
    by_cases hne : rk' = rk
    · subst hne
      rw [if_pos hrk']
      exact .inl hst
    · exact .inr ⟨rk', hrk', hne, hst⟩
  · rintro (hst | ⟨rk', hrk', -, hst⟩)
    · split_ifs at hst with hrk
      · exact ⟨rk, hrk, hst⟩
      · cases hst
    · exact ⟨rk', hrk', hst⟩

theorem mem_refs_insert {new : StateRef}
    (hentry : (entry s.kinds s.subscriberDir rk).getD [] = states) :
    st ∈ (s.setStates rk (states ++ [new])).refs ↔ st ∈ s.refs ∨ st = new := by
  rw [mem_refs_setStates, mem_refs_entry rk, hentry, List.mem_append, List.mem_singleton]
  exact or_right_comm

/-- What a removal takes out of a list is what it has found. -/
theorem mem_eraseP_or_eq {p : StateRef → Bool} {found : StateRef}
    (hfound : states.find? p = some found) (hst : st ∈ states) :
    st ∈ states.eraseP p ∨ st = found := by
  induction states with
  | nil => cases hst
  | cons a states ih =>
    by_cases ha : p a = true
    · rw [List.find?_cons_of_pos ha] at hfound
      rw [List.eraseP_cons_of_pos ha]
      cases hfound
      exact (List.mem_cons.mp hst).symm
    · rw [List.find?_cons_of_neg ha] at hfound
      rw [List.eraseP_cons_of_neg ha]
      rcases List.mem_cons.mp hst with rfl | hst
      · exact .inl (List.mem_cons_self ..)
      · exact (ih hfound hst).imp_left (List.mem_cons_of_mem a)

theorem mem_refs_remove {p : StateRef → Bool} {found : StateRef}
    (hentry : entry s.kinds s.subscriberDir rk = some states) (hfound : states.find? p = some found)
    :
    (st ∈ (s.setStates rk (states.eraseP p)).refs → st ∈ s.refs) ∧
      (st ∈ s.refs → st ∈ (s.setStates rk (states.eraseP p)).refs ∨ st = found) := by
  rw [mem_refs_setStates, mem_refs_entry rk, hentry, Option.getD_some]
  refine ⟨fun h => h.imp_left List.mem_of_mem_eraseP, fun h => ?_⟩
  rcases h with h | h
  · exact (mem_eraseP_or_eq hfound h).imp_left .inl
  · exact .inl (.inr h)

theorem inv_setStates (hinv : Inv A s) (hwriter : s.writer = some i)
    (hvalid : ∀ st ∈ (s.setStates rk states).refs, st.id < s.allocated) :
    Inv A (s.setStates rk states) :=
  { hinv with
    valid := hvalid
    settled := fun hnone => by cases hwriter.symm.trans hnone
    ordered := fun hA => { hinv.ordered hA with } }

end DubboAdmin.Events
