import DubboAdmin.Events.Changes

/-!
# The methods of the event bus keep the discipline

Each method, operation by operation: the operation keeps the invariant, does nothing that another
thread relies on not to happen, and the method knows afterwards what its next operation needs. The
drainers, which run without a thread of the pool, keep the invariant, too.
-/

namespace DubboAdmin.Events

open Controller (ResourceChangedEvent)
open Prog (perform)

variable {σ ι : Type}

/-! ## Operations -/

section Operations

variable [DecidableEq ι] {A : Assumed} {n : ℤ} {i : ι} {s : EventBus σ ι}

/-- A thread that calls the bus keeps the discipline from here on, and knows `post` at the end. -/
abbrev SafeBus (A : Assumed) (n : ℤ) (i : ι) {α : Type} (post : α → EventBus σ ι → Prop)
    (p : BusProg σ α) (s : EventBus σ ι) : Prop :=
  Safe (callers σ ι n) A.Good (protocol A) i (fun a => Live (post a)) p s

theorem safe_ret {α : Type} {post : α → EventBus σ ι → Prop} {a : α} (hpost : Kept A i (post a))
    (hs : Live (post a) s) : SafeBus A n i post (.ret a) s :=
  Safe.ret hpost.live hs

variable {o : BusOp σ} {Q : EventBus σ ι → Prop}

/-- One operation. -/
theorem safe_perform {post : o.Res → EventBus σ ι → Prop} (hQ : Kept A i Q)
    (hpost : ∀ r, Kept A i (post r))
    (h : ∀ s, Q s → Inv A s → A.Good i s o → s.misuse = none → ∀ order r s',
      order.Perm s.refs → s.exec i order o = some (r, s') →
      Inv A s' ∧ (∀ j, j ≠ i → Rely j s s') ∧ (s'.misuse = none → post r s')) (hs : Live Q s) :
    SafeBus A n i post (perform o) s := by
  refine Safe.perform (Live Q) hQ.live (fun r => (hpost r).live) hs ?_
  rintro s₁ hQ₁ hinv hgood r s₂ ⟨hmisuse, order, horder, hexec⟩
  exact h s₁ (hQ₁ hmisuse) hinv hgood hmisuse order r s₂ horder hexec

theorem safe_read {post : o.Res → EventBus σ ι → Prop} (hQ : Kept A i Q)
    (hpost : ∀ r, Kept A i (post r))
    (h : ∀ s, Q s → Inv A s → A.Good i s o → ∀ order r s', order.Perm s.refs →
      s.exec i order o = some (r, s') → s' = s ∧ post r s) (hs : Live Q s) :
    SafeBus A n i post (perform o) s := by
  refine safe_perform hQ hpost ?_ hs
  intro s hQs hinv hgood hmisuse order r s' horder hexec
  obtain ⟨rfl, hr⟩ := h s hQs hinv hgood order r s' horder hexec
  exact ⟨hinv, fun j _ => Rely.refl j s', fun _ => hr⟩

theorem safe_look (hQ : Kept A i Q)
    (hread : ∀ (s : EventBus σ ι) order r s', s.exec i order o = some (r, s') → s' = s)
    (hs : Live Q s) : SafeBus A n i (fun _ => Q) (perform o) s :=
  safe_read hQ (fun _ => hQ) (fun s h _ _ order r s' _ hexec => ⟨hread s order r s' hexec, h⟩) hs

theorem safe_lock (hs : Live (Idle i) s) :
    SafeBus A n i (fun _ => Writing A i) lock s := by
  refine safe_perform kept_idle (fun _ => kept_writing) ?_ hs
  intro s hidle hinv hgood hmisuse order r s' _ hexec
  simp only [EventBus.exec] at hexec
  split_ifs at hexec with hfree
  cases hexec
  have hsettled := hinv.settled hfree.1
  refine ⟨inv_relock hinv (some i) s.readers (fun _ => hfree.2) (fun h => by cases h),
    fun j hj => rely_relock hmisuse (some i) s.readers ?_ Iff.rfl,
    fun _ => ⟨rfl, { hsettled with }⟩⟩
  rw [hfree.1]
  simp [Ne.symm hj]

/-- The thread releases the lock. -/
theorem safe_unlock (hs : Live (Writing A i) s) :
    SafeBus A n i (fun _ => Idle i) unlock s := by
  refine safe_perform kept_writing (fun _ => kept_idle) ?_ hs
  intro s hwriting hinv hgood hmisuse order r s' _ hexec
  cases hexec
  have hreaders : s.readers = [] := hinv.exclusive (by simp [hwriting.writer])
  have hidle : Idle i ({ s with writer := none } : EventBus σ ι) := by
    simp [Idle, hreaders]
  refine ⟨inv_relock hinv none s.readers (fun h => absurd rfl h) (fun _ => hwriting.settled),
    fun j hj => rely_relock hmisuse none s.readers ?_ Iff.rfl, fun _ => hidle⟩
  rw [hwriting.writer]
  simp [Ne.symm hj]

/-- The thread takes the lock for reading. It still knows what does not depend on the lock. -/
theorem safe_rLock {F : EventBus σ ι → Prop} (hF : Kept A i F)
    (hrelock : ∀ s readers, F s → F { s with readers := readers })
    (hs : Live (fun s => Idle i s ∧ F s) s) :
    SafeBus A n i (fun _ s => i ∈ s.readers ∧ F s) rLock s := by
  refine safe_perform (kept_idle.and hF) (fun _ => kept_reading.and hF) ?_ hs
  intro s h hinv hgood hmisuse order r s' _ hexec
  simp only [EventBus.exec] at hexec
  split_ifs at hexec with hfree
  cases hexec
  refine ⟨inv_relock hinv s.writer (i :: s.readers) (fun h => absurd hfree h) hinv.settled,
    fun j hj => rely_relock hmisuse s.writer (i :: s.readers) Iff.rfl ?_,
    fun _ => ⟨List.mem_cons_self .., hrelock s (i :: s.readers) h.2⟩⟩
  simp [hj]

/-- The thread stops reading. -/
theorem safe_rUnlock (hs : Live (fun s => i ∈ s.readers) s) :
    SafeBus A n i (fun _ => Idle i) rUnlock s := by
  refine safe_perform kept_reading (fun _ => kept_idle) ?_ hs
  intro s hreading hinv hgood hmisuse order r s' _ hexec
  cases hexec
  have hnone := hinv.writer_eq_none hreading
  have hidle : Idle i ({ s with readers := s.readers.filter (· ≠ i) } : EventBus σ ι) := by
    simp [Idle, hnone]
  refine ⟨inv_relock hinv s.writer (s.readers.filter (· ≠ i)) (fun h => absurd hnone h)
      hinv.settled,
    fun j hj => rely_relock hmisuse s.writer (s.readers.filter (· ≠ i)) Iff.rfl ?_, fun _ => hidle⟩
  simp [hj]

/-! ### Starting drainers -/

variable {st : StateRef}

/-- `launchDrainer` by a thread that holds the lock: the drainer is launched, unless `stopped` was
set. -/
theorem safe_launchDrainer (hQ : Kept A i Q) (hheld : ∀ s, Q s → s.writer = some i ∨ i ∈ s.readers)
    (hvalid : ∀ s, Inv A s → Q s → st.id < s.allocated) (hlaunch : ∀ s, Q s → Q (s.launch st.id))
    (hs : Live Q s) :
    SafeBus A n i
      (fun _ s => Q s ∧ (s.stopped = true ∨ (s.cells st.id).drainerStarted = true))
      (launchDrainer st) s := by
  have hkept : Kept A i fun s : EventBus σ ι =>
      Q s ∧ (s.stopped = true ∨ (s.cells st.id).drainerStarted = true) := by
    intro s s' hinv hinv' hrely h
    exact ⟨hQ s s' hinv hinv' hrely h.1,
      h.2.imp hrely.stopped (hrely.started st.id (hvalid s hinv h.1))⟩
  -- What was read of `stopped` is kept only if it was set.
  have hload : SafeBus A n i (fun (r : Bool) s => Q s ∧ (r = true → s.stopped = true))
      loadStopped s := by
    refine safe_read hQ (fun r => hQ.and fun _ _ _ _ hrely h hr => hrely.stopped (h hr)) ?_ hs
    intro s hQs _ _ order (r : Bool) s' _ hexec
    cases hexec
    exact ⟨rfl, hQs, fun h => h⟩
  refine Safe.bind hload fun (stopped : Bool) s₁ h₁ => ?_
  cases stopped with
  | true =>
    exact safe_ret hkept fun hmisuse => ⟨(h₁ hmisuse).1, .inl ((h₁ hmisuse).2 rfl)⟩
  | false =>
    refine safe_perform hQ (fun _ => hkept) ?_ fun hmisuse => (h₁ hmisuse).1
    intro s hQs hinv _ hmisuse order r s' _ hexec
    cases hexec
    refine ⟨inv_launch hinv st.id, fun j hj => ?_, fun _ => ⟨hlaunch s hQs, .inr ?_⟩⟩
    · obtain ⟨hsame, hallocated, hkinds, hdir, -⟩ := launch_frame s st.id
      have hcells := launch_cells s st.id
      rcases hheld s hQs with hwriter | hreader
      · exact rely_of_writer hinv hwriter hmisuse hsame hallocated.ge
          (fun id _ => (hcells id).2.2.2) hj
      · exact rely_of_reader hinv hreader hmisuse hsame hallocated hkinds hdir
          (fun id => (hcells id).2.2.2) fun id => ⟨(hcells id).1, (hcells id).2.1⟩
    · exact launch_started s st.id

/-- `Start` has still to launch the drainers of `rest`. -/
structure Starting (A : Assumed) (i : ι) (rest : List StateRef) (s : EventBus σ ι) : Prop where
  reader : i ∈ s.readers
  starter : s.starter = some i
  pending : A.drained → s.startSucceeded = false
  rest_mem : ∀ st ∈ rest, st ∈ s.refs
  launched : ∀ st ∈ s.refs, st.async = true → st ∈ rest ∨ s.stopped = true ∨
    (s.cells st.id).drainerStarted = true

omit [DecidableEq ι] in
theorem kept_starting {rest : List StateRef} :
    Kept A i (Starting A i rest : EventBus σ ι → Prop) := by
  intro s s' hinv _ hrely h
  have hrefs := hrely.refs (.inr h.reader)
  refine ⟨hrely.reader.mpr h.reader, (hrely.starter h.starter).1, fun hA => ?_, ?_, ?_⟩
  · rw [(hrely.starter h.starter).2]
    exact h.pending hA
  · rw [hrefs]
    exact h.rest_mem
  · intro st hst hasync
    rw [hrefs] at hst
    have hstarted := hrely.started st.id (hinv.valid st hst)
    exact (h.launched st hst hasync).imp_right (Or.imp hrely.stopped hstarted)

omit [DecidableEq ι] in
theorem starting_launch {rest : List StateRef} {id : ℕ} (h : Starting A i rest s) :
    Starting A i rest (s.launch id) := by
  obtain ⟨hsame, -, hkinds, hdir, -⟩ := launch_frame s id
  have hrefs := refs_congr hkinds hdir
  refine ⟨?_, hsame.starter.trans h.starter, fun hA => ?_, ?_, ?_⟩
  · rw [hsame.readers]
    exact h.reader
  · rw [hsame.succeeded]
    exact h.pending hA
  · rw [hrefs]
    exact h.rest_mem
  · intro st hst hasync
    rw [hrefs] at hst
    exact (h.launched st hst hasync).imp_right
      (Or.imp hsame.stopped.trans (launch_cells s id st.id).2.2.2)

/-- `Start` at one state. -/
theorem safe_launchIfAsync {rest : List StateRef} (hs : Live (Starting A i (st :: rest)) s) :
    SafeBus A n i (fun _ => Starting A i rest) (launchIfAsync st) s := by
  -- The state is done when it is launched, and when it needs no drainer.
  have hdone : ∀ s : EventBus σ ι, Starting A i (st :: rest) s →
      (st.async = true → s.stopped = true ∨ (s.cells st.id).drainerStarted = true) →
      Starting A i rest s := by
    intro s h hst
    refine { h with
      rest_mem := fun st' hst' => h.rest_mem st' (List.mem_cons_of_mem _ hst')
      launched := fun st' hst' hasync => ?_ }
    rcases h.launched st' hst' hasync with hrest | hlaunched
    · rcases List.mem_cons.mp hrest with rfl | hrest
      · exact .inr (hst hasync)
      · exact .inl hrest
    · exact .inr hlaunched
  unfold launchIfAsync
  split_ifs with hasync
  · have hvalid : ∀ s : EventBus σ ι, Inv A s → Starting A i (st :: rest) s →
        st.id < s.allocated :=
      fun s hinv h => hinv.valid st (h.rest_mem st (List.mem_cons_self ..))
    have hlaunch := safe_launchDrainer (n := n) kept_starting (fun _ h => .inr h.reader) hvalid
      (fun _ => starting_launch) hs
    exact hlaunch.imp fun _ s h hmisuse => hdone s (h hmisuse).1 fun _ => (h hmisuse).2
  · exact safe_ret kept_starting fun hmisuse =>
      hdone s (hs hmisuse) fun h => absurd h hasync

variable {states : List StateRef}

theorem safe_launchDrainers (hs : Live (Starting A i states) s) :
    SafeBus A n i (fun _ => Starting A i []) (launchDrainers states) s := by
  induction states generalizing s with
  | nil => exact safe_ret kept_starting hs
  | cons st states ih => exact Safe.bind (safe_launchIfAsync hs) fun _ s₁ h₁ => ih h₁

/-- `Start` has launched what it had to: every channel is drained or empty. -/
theorem safe_markSucceeded (hs : Live (Starting A i []) s) :
    SafeBus A n i (fun _ s => i ∈ s.readers) markSucceeded s := by
  refine safe_perform kept_starting (fun _ => kept_reading) ?_ hs
  intro s h hinv _ hmisuse order r s' _ hexec
  cases hexec
  have hnone := hinv.writer_eq_none h.reader
  have hsettled := hinv.settled hnone
  have hlaunched : ∀ st ∈ s.refs, st.async = true →
      s.stopped = true ∨ (s.cells st.id).drainerStarted = true := by
    intro st hst hasync
    exact (h.launched st hst hasync).resolve_left (List.not_mem_nil)
  have hstarted : s.started = true := by
    by_contra hnot
    have hstarter := hinv.begun (by simpa using hnot)
    cases h.starter.symm.trans hstarter
  refine ⟨{ hinv with
    settled := fun _ => { hsettled with launched := fun _ _ => hlaunched }
    ordered := fun hA => ⟨fun _ => rfl, fun _ => hstarted, fun _ id => ?_⟩ },
    fun j hj => ?_, fun _ => h.reader⟩
  · -- A state of the directory was launched, since `stopped` comes only after `Start`.
    by_cases hin : ∃ st ∈ s.refs, st.async = true ∧ st.id = id
    · obtain ⟨st, hst, hasync, rfl⟩ := hin
      refine .inl ((hlaunched st hst hasync).resolve_left fun hstopped => ?_)
      cases (h.pending hA).symm.trans ((hinv.ordered hA).stopped hstopped)
    · exact hsettled.removed hA id fun st hst hasync heq => hin ⟨st, hst, hasync, heq⟩
  · refine { Rely.refl j s with
      misuse := fun _ => hmisuse, starter := fun hj' => ?_, written := fun hj' => ?_ }
    · exact absurd (Option.some.inj (h.starter.symm.trans hj')) (Ne.symm hj)
    · cases hnone.symm.trans hj'

/-- `started.CompareAndSwap`. -/
theorem safe_casStarted (hs : Live (Idle i) s) :
    SafeBus A n i (fun (swapped : Bool) s => Idle i s ∧
      (swapped = true → s.starter = some i ∧ (A.drained → s.startSucceeded = false)))
      casStarted s := by
  refine safe_perform kept_idle (fun r => kept_idle.and ?_) ?_ hs
  · intro s s' _ _ hrely h hr
    obtain ⟨hstarter, hsucceeded⟩ := hrely.starter (h hr).1
    exact ⟨hstarter, fun hA => hsucceeded.trans ((h hr).2 hA)⟩
  · intro s hidle hinv _ hmisuse order (r : Bool) s' _ hexec
    obtain ⟨hr, hs'⟩ := Prod.mk.inj (Option.some.inj hexec)
    cases hstarted : s.started with
    | true =>
      rw [hstarted] at hr hs'
      subst hr hs'
      exact ⟨hinv, fun j _ => Rely.refl j s, fun _ => ⟨hidle, fun h => by cases h⟩⟩
    | false =>
      rw [hstarted] at hr hs'
      subst hr hs'
      have hsucceeded : A.drained → s.startSucceeded = false := by
        intro hA
        by_contra hnot
        have := (hinv.ordered hA).started (by simpa using hnot)
        cases hstarted.symm.trans this
      refine ⟨{ hinv with
        settled := fun hnone => { hinv.settled hnone with }
        begun := fun h => by cases h
        ordered := fun hA => { hinv.ordered hA with started := fun _ => rfl } },
        fun j hj => ?_, fun _ => ⟨hidle, fun _ => ⟨rfl, hsucceeded⟩⟩⟩
      -- No other thread has set `started` before.
      refine { Rely.refl j s with misuse := fun _ => hmisuse, starter := fun hj' => ?_ }
      cases (hinv.begun hstarted).symm.trans hj'

/-! ### Changing the directory -/

variable {rk : String}

theorem safe_loadStates_writing (hs : Live (Writing A i) s) :
    SafeBus A n i (fun (r : Option (List StateRef)) s => Writing A i s ∧
      entry s.kinds s.subscriberDir rk = r) (loadStates rk) s := by
  refine safe_read kept_writing (fun r => kept_writing_dir fun kinds dir => entry kinds dir rk = r)
    ?_ hs
  intro s h _ _ order r s' _ hexec
  obtain ⟨hr, rfl⟩ := Prod.mk.inj (Option.some.inj hexec)
  exact ⟨rfl, h, hr⟩

/-- A writer makes a new state. -/
theorem safe_newState {subscriber : Subscriber} {async : Bool}
    (P : List String → (String → List StateRef) → Prop)
    (hs : Live (fun s => Writing A i s ∧ P s.kinds s.subscriberDir) s) :
    SafeBus A n i (fun (st : StateRef) s => (Writing A i s ∧ P s.kinds s.subscriberDir) ∧
      st.id < s.allocated) (newState subscriber async) s := by
  refine safe_perform (kept_writing_dir P) (fun st => (kept_writing_dir P).and ?_) ?_ hs
  · exact fun _ _ _ _ hrely h => lt_of_lt_of_le h hrely.allocated
  · intro s h hinv _ hmisuse order (st : StateRef) s' _ hexec
    cases hexec
    have hsettled := h.1.settled
    have hold : ∀ id, id < s.allocated → (s.alloc.cells id) = s.cells id :=
      fun id hid => Function.update_of_ne (Nat.ne_of_lt hid) _ _
    refine ⟨inv_alloc hinv h.1.writer, fun j hj => ?_, fun _ => ⟨⟨⟨h.1.writer, ?_, ?_, ?_⟩, h.2⟩,
      Nat.lt_succ_self _⟩⟩
    · refine rely_of_writer hinv h.1.writer hmisuse ⟨rfl, rfl, rfl, rfl, rfl⟩ (Nat.le_succ _) ?_ hj
      intro id hid hstarted
      rw [hold id hid]
      exact hstarted
    · exact forall_update (P := fun _ c => c.closed = c.chClosed) rfl hsettled.synced
    · intro hA hsucceeded st hst hasync
      rw [hold st.id (hinv.valid st hst)]
      exact hsettled.launched hA hsucceeded st hst hasync
    · exact fun hA id hid => forall_update
        (P := fun id c => (∀ st ∈ s.refs, st.async = true → st.id ≠ id) → c.Drains)
        (fun _ => .inr rfl) (hsettled.removed hA) id hid

/-- `Subscribe` puts the new state into the directory. -/
theorem safe_insert {new : StateRef}
    (hs : Live (fun s => (Writing A i s ∧ (entry s.kinds s.subscriberDir rk).getD [] = states) ∧
      new.id < s.allocated) s) :
    SafeBus A n i (fun _ => Inserting A i new)
      (storeStates rk (states ++ [new])) s := by
  have hkept : Kept A i fun s : EventBus σ ι =>
      (Writing A i s ∧ (entry s.kinds s.subscriberDir rk).getD [] = states) ∧
        new.id < s.allocated :=
    (kept_writing_dir fun kinds dir => (entry kinds dir rk).getD [] = states).and
      fun _ _ _ _ hrely h => lt_of_lt_of_le h hrely.allocated
  refine safe_perform hkept (fun _ => kept_inserting) ?_ hs
  intro s h hinv _ hmisuse order r s' _ hexec
  cases hexec
  have hmem : ∀ st, st ∈ (s.setStates rk (states ++ [new])).refs ↔ st ∈ s.refs ∨ st = new :=
    fun st => mem_refs_insert h.1.2
  have hsettled := h.1.1.settled
  refine ⟨inv_setStates hinv h.1.1.writer fun st hst => ?_, fun j hj => ?_,
    fun _ => ⟨h.1.1.writer, h.2, hsettled.synced, ?_, ?_⟩⟩
  · rcases (hmem st).mp hst with hst | rfl
    · exact hinv.valid st hst
    · exact h.2
  · exact rely_of_writer hinv h.1.1.writer hmisuse ⟨rfl, rfl, rfl, rfl, rfl⟩ le_rfl
      (fun _ _ h => h) hj
  · intro hA hsucceeded st hst hasync hne
    exact hsettled.launched hA hsucceeded st (((hmem st).mp hst).resolve_right hne) hasync
  · intro hA id hid
    exact hsettled.removed hA id fun st hst => hid st ((hmem st).mpr (.inl hst))

omit [DecidableEq ι] in
theorem inserting_launch {st : StateRef} {id : ℕ} (h : Inserting A i st s) :
    Inserting A i st (s.launch id) := by
  obtain ⟨hsame, hallocated, hkinds, hdir, -⟩ := launch_frame s id
  refine ⟨hsame.writer.trans h.writer, hallocated ▸ h.valid, synced_launch h.synced, ?_,
    fun hA => removed_launch (h.removed hA)⟩
  intro hA hsucceeded st' hst' hasync hne
  rw [hsame.succeeded] at hsucceeded
  rw [refs_congr hkinds hdir] at hst'
  exact (h.launched hA hsucceeded st' hst' hasync hne).imp hsame.stopped.trans
    (launch_cells s id st'.id).2.2.2

omit [DecidableEq ι] in
theorem Inserting.writing {st : StateRef} (h : Inserting A i st s)
    (hst : A.drained → s.startSucceeded = true → st.async = true →
      s.stopped = true ∨ (s.cells st.id).drainerStarted = true) : Writing A i s := by
  refine ⟨h.writer, h.synced, fun hA hsucceeded st' hst' hasync => ?_, h.removed⟩
  by_cases heq : st' = st
  · subst heq
    exact hst hA hsucceeded hasync
  · exact h.launched hA hsucceeded st' hst' hasync heq

/-- The end of `Subscribe`. -/
theorem safe_launchIfStarted (hs : Live (Inserting A i st) s) :
    SafeBus A n i (fun _ => Writing A i) (launchIfStarted st) s := by
  unfold launchIfStarted
  split_ifs with hasync
  · -- While the thread writes, `Start` cannot pass its loop.
    have hkept : ∀ started : Bool, Kept A i fun s : EventBus σ ι => Inserting A i st s ∧
        (A.drained → started = false → s.startSucceeded = false) := by
      intro started s s' hinv hinv' hrely h
      refine ⟨kept_inserting s s' hinv hinv' hrely h.1, fun hA hnot => ?_⟩
      rw [(hrely.written h.1.writer).1]
      exact h.2 hA hnot
    have hload : SafeBus A n i (fun (started : Bool) s => Inserting A i st s ∧
        (A.drained → started = false → s.startSucceeded = false))
        loadStarted s := by
      refine safe_read kept_inserting hkept ?_ hs
      intro s h hinv _ order (r : Bool) s' _ hexec
      cases hexec
      refine ⟨rfl, h, fun hA hnot => ?_⟩
      by_contra hsucceeded
      have := (hinv.ordered hA).started (by simpa using hsucceeded)
      cases hnot.symm.trans this
    refine Safe.bind hload fun (started : Bool) s₁ h₁ => ?_
    cases started with
    | true =>
      have hlaunch := safe_launchDrainer (n := n) kept_inserting (fun _ h => .inl h.writer)
        (fun _ _ h => h.valid) (fun _ => inserting_launch) fun hmisuse => (h₁ hmisuse).1
      exact hlaunch.imp fun _ s h hmisuse => (h hmisuse).1.writing fun _ _ _ => (h hmisuse).2
    | false =>
      refine safe_ret kept_writing fun hmisuse => (h₁ hmisuse).1.writing fun hA hsucceeded => ?_
      cases hsucceeded.symm.trans ((h₁ hmisuse).2 hA rfl)
  · exact safe_ret kept_writing fun hmisuse =>
      (hs hmisuse).writing fun _ _ h => absurd h hasync

/-- `Unsubscribe` takes the state that it has found out of the directory. -/
theorem safe_remove {p : StateRef → Bool} (hfound : states.find? p = some st)
    (hs : Live (fun s => Writing A i s ∧ entry s.kinds s.subscriberDir rk = some states) s) :
    SafeBus A n i (fun _ => Closable A i .unsubscribe st)
      (storeStates rk (states.eraseP p)) s := by
  refine safe_perform (kept_writing_dir fun kinds dir => entry kinds dir rk = some states)
    (fun _ => kept_closable) ?_ hs
  intro s h hinv _ hmisuse order r s' _ hexec
  cases hexec
  have hsettled := h.1.settled
  have hmem : ∀ st', (st' ∈ (s.setStates rk (states.eraseP p)).refs → st' ∈ s.refs) ∧
      (st' ∈ s.refs → st' ∈ (s.setStates rk (states.eraseP p)).refs ∨ st' = st) :=
    fun st' => mem_refs_remove h.2 hfound
  refine ⟨inv_setStates hinv h.1.writer fun st' hst' => hinv.valid st' ((hmem st').1 hst'),
    fun j hj => ?_, fun _ => ⟨h.1.writer, hsettled.synced, ?_, ?_, fun hcloser => by cases hcloser⟩⟩
  · exact rely_of_writer hinv h.1.writer hmisuse ⟨rfl, rfl, rfl, rfl, rfl⟩ le_rfl
      (fun _ _ h => h) hj
  · exact fun hA hsucceeded st' hst' => hsettled.launched hA hsucceeded st' ((hmem st').1 hst')
  · intro hA id hid
    by_cases heq : st.async = true ∧ id = st.id
    · exact .inl ⟨rfl, heq⟩
    · refine .inr (hsettled.removed hA id fun st' hst' hasync => ?_)
      rcases (hmem st').2 hst' with hst' | rfl
      · exact hid st' hst' hasync
      · exact fun hid' => heq ⟨hasync, hid'.symm⟩

/-! ### Closing channels -/

/-- The flag of a state is set. Where `Unsubscribe` does it, the conditions say that the channel is
open, and that it is drained or empty. -/
theorem safe_storeClosed {closer : Closer} (hs : Live (Closable A i closer st) s) :
    SafeBus A n i (fun _ => Closing A i st) (storeClosed closer st) s := by
  refine safe_perform kept_closable (fun _ => kept_closing) ?_ hs
  intro s h hinv hgood hmisuse order r s' _ hexec
  cases hexec
  obtain ⟨hevents, habsent, hreturned⟩ := hinv.accounted st.id
  have hother : ∀ id, id ≠ st.id →
      (s.setCell st.id { s.cells st.id with closed := true }).cells id = s.cells id :=
    fun id hid => Function.update_of_ne hid _ _
  have hself : (s.setCell st.id { s.cells st.id with closed := true }).cells st.id =
      { s.cells st.id with closed := true } := Function.update_self ..
  refine ⟨inv_setCell hinv h.writer rfl rfl rfl ⟨hevents, habsent, hreturned⟩, fun j hj => ?_,
    fun _ => ⟨h.writer, fun id hid => ?_, ?_, fun hA => ?_, fun hA => ?_, fun hA id hid => ?_⟩⟩
  · exact rely_of_writer hinv h.writer hmisuse ⟨rfl, rfl, rfl, rfl, rfl⟩ le_rfl
      (fun _ _ => started_setCell (by exact id) _) hj
  · rw [hother id hid]
    exact h.synced id
  · rw [hself]
  · -- The flag was not set, so the channel is not closed.
    have hopen : (s.cells st.id).closed = false := by
      cases closer with
      | unsubscribe => exact hgood.1 hA
      | waitForDone => exact h.opened rfl
    rw [hself]
    exact (h.synced st.id).symm.trans hopen
  · exact (h.launched hA).mono rfl rfl id (started_setCell id)
  · have hdrains : (s.cells id).Drains := by
      rcases h.removed hA id hid with ⟨rfl, -, rfl⟩ | hdrains
      · exact (hgood.2 hA).2
      · exact hdrains
    have hkept : ∀ id, (s.cells id).Drains →
        ((s.setCell st.id { s.cells st.id with closed := true }).cells id).Drains :=
      setCell_rel (R := fun c c' => c.Drains → c'.Drains) (fun _ h => h) fun h => h
    exact hkept id hdrains

/-- The channel is closed. -/
theorem safe_closeChannel (hs : Live (Closing A i st) s) :
    SafeBus A n i (fun _ => Writing A i) (closeChannel st) s := by
  refine safe_perform kept_closing (fun _ => kept_writing) ?_ hs
  intro s h hinv _ hmisuse order r s' _ hexec
  have hs' := (Prod.mk.inj (Option.some.inj hexec)).2
  split_ifs at hs' with hclosed
  · -- The process panics, which the condition on `Unsubscribe` excludes.
    subst hs'
    refine ⟨{ hinv with
      settled := fun hnone => by cases h.writer.symm.trans hnone
      sound := fun hA => ?_
      ordered := fun hA => { hinv.ordered hA with } }, fun j hj => ?_, fun hnone => by cases hnone⟩
    · cases hclosed.symm.trans (h.opened hA)
    · exact rely_of_writer hinv h.writer hmisuse ⟨rfl, rfl, rfl, rfl, rfl⟩ le_rfl
        (fun _ _ h => h) hj
  · subst hs'
    obtain ⟨hevents, habsent, hreturned⟩ := hinv.accounted st.id
    have hdrains : ∀ id, (s.cells id).Drains →
        ((s.setCell st.id { s.cells st.id with chClosed := true }).cells id).Drains :=
      setCell_rel (R := fun c c' => c.Drains → c'.Drains) (fun _ h => h) fun h => h
    refine ⟨inv_setCell hinv h.writer rfl rfl rfl
        ⟨hevents, habsent, fun hret => ⟨(hreturned hret).1, rfl⟩⟩,
      fun j hj => ?_, fun _ => ⟨h.writer, fun id => ?_, fun hA => ?_, fun hA => ?_⟩⟩
    · exact rely_of_writer hinv h.writer hmisuse ⟨rfl, rfl, rfl, rfl, rfl⟩ le_rfl
        (fun _ _ => started_setCell (by exact id) _) hj
    · by_cases hid : id = st.id
      · subst hid
        simp only [EventBus.setCell, Function.update_self]
        exact h.closed
      · simp only [EventBus.setCell, Function.update_of_ne hid]
        exact h.synced id hid
    · exact (h.launched hA).mono rfl rfl id (started_setCell id)
    · exact (h.removed hA).mono rfl hdrains

theorem safe_closeState {closer : Closer} (hs : Live (Closable A i closer st) s) :
    SafeBus A n i (fun _ => Writing A i) (closeState closer st) s :=
  Safe.bind (safe_storeClosed hs) fun _ _ h => safe_closeChannel h

/-- `WaitForDone` at one state. -/
theorem safe_closeIfOpen (hs : Live (Writing A i) s) :
    SafeBus A n i (fun _ => Writing A i) (closeIfOpen st) s := by
  unfold closeIfOpen
  split_ifs
  · have hload : SafeBus A n i (fun (closed : Bool) s => Writing A i s ∧
        (s.cells st.id).closed = closed) (loadClosed st) s := by
      refine safe_read kept_writing (fun closed => ?_) ?_ hs
      · intro s s' hinv hinv' hrely h
        refine ⟨kept_writing s s' hinv hinv' hrely h.1, ?_⟩
        rw [((hrely.held (.inl h.1.writer)).2.2 st.id).1]
        exact h.2
      · intro s h _ _ order (r : Bool) s' _ hexec
        obtain ⟨hr, rfl⟩ := Prod.mk.inj (Option.some.inj hexec)
        exact ⟨rfl, h, hr⟩
    refine Safe.bind hload fun (closed : Bool) s₁ h₁ => ?_
    cases closed with
    | true => exact safe_ret kept_writing fun hmisuse => (h₁ hmisuse).1
    | false =>
      refine safe_closeState fun hmisuse => ?_
      obtain ⟨hwriting, hopen⟩ := h₁ hmisuse
      exact ⟨hwriting.writer, hwriting.settled.synced, hwriting.settled.launched,
        fun hA id hid => .inr (hwriting.settled.removed hA id hid), fun _ => hopen⟩
  · exact safe_ret kept_writing hs

theorem safe_closeAll (hs : Live (Writing A i) s) :
    SafeBus A n i (fun _ => Writing A i) (closeAll states) s := by
  induction states generalizing s with
  | nil => exact safe_ret kept_writing hs
  | cons st states ih => exact Safe.bind (safe_closeIfOpen hs) fun _ _ h => ih h

/-- `Unsubscribe` closes the state that it has removed. -/
theorem safe_closeRemoved (hs : Live (Closable A i .unsubscribe st) s) :
    SafeBus A n i (fun _ => Writing A i) (closeRemoved st) s := by
  unfold closeRemoved
  split_ifs with hasync
  · refine Safe.bind (safe_closeState hs) fun _ s₁ h₁ => ?_
    have hload : SafeBus A n i (fun _ => Writing A i) (loadDrainerStarted st) s₁ :=
      safe_look kept_writing (fun _ _ _ _ hexec => by cases hexec; rfl) h₁
    exact hload
  · refine safe_ret kept_writing fun hmisuse => ?_
    have h := hs hmisuse
    refine ⟨h.writer, h.synced, h.launched, fun hA id hid => ?_⟩
    exact (h.removed hA id hid).resolve_left fun hsync => hasync hsync.2.1

end Operations

/-! ## Methods -/

section Methods

variable [DecidableEq ι] {A : Assumed} {n : ℤ} {i : ι} {s : EventBus σ ι}

theorem safe_loadStopped {Q : EventBus σ ι → Prop} (hQ : Kept A i Q) (hs : Live Q s) :
    SafeBus A n i (fun _ => Q) loadStopped s :=
  safe_look hQ (fun _ _ _ _ hexec => by cases hexec; rfl) hs

/-- `Start`. -/
theorem safe_start (hs : Live (Idle i) s) : SafeBus A n i (fun _ => Idle i) start s := by
  refine Safe.bind (safe_casStarted hs) fun (swapped : Bool) s₁ h₁ => ?_
  cases swapped with
  | false => exact safe_ret kept_idle fun hmisuse => (h₁ hmisuse).1
  | true =>
    have hkept : Kept A i fun s : EventBus σ ι =>
        s.starter = some i ∧ (A.drained → s.startSucceeded = false) := by
      intro s s' _ _ hrely h
      obtain ⟨hstarter, hsucceeded⟩ := hrely.starter h.1
      exact ⟨hstarter, fun hA => hsucceeded.trans (h.2 hA)⟩
    have hlock : SafeBus A n i (fun _ s => i ∈ s.readers ∧ s.starter = some i ∧
        (A.drained → s.startSucceeded = false)) rLock s₁ :=
      safe_rLock hkept (fun _ _ h => h) fun hmisuse => ⟨(h₁ hmisuse).1, (h₁ hmisuse).2 rfl⟩
    refine Safe.bind hlock fun _ s₂ h₂ => ?_
    have hrange : SafeBus A n i (fun (states : List StateRef) => Starting A i states)
        rangeStates s₂ := by
      refine safe_read (kept_reading.and hkept) (fun _ => kept_starting) ?_ h₂
      intro s h _ _ order (states : List StateRef) s' horder hexec
      cases hexec
      exact ⟨rfl, h.1, h.2.1, h.2.2, fun st hst => horder.mem_iff.mp hst,
        fun st hst _ => .inl (horder.mem_iff.mpr hst)⟩
    refine Safe.bind hrange fun states s₃ h₃ => ?_
    refine Safe.bind (safe_launchDrainers h₃) fun _ s₄ h₄ => ?_
    refine Safe.bind (safe_markSucceeded h₄) fun _ s₅ h₅ => ?_
    exact Safe.bind (safe_rUnlock h₅) fun _ s₆ h₆ => safe_ret kept_idle h₆

variable {subscriber : Subscriber}

/-- `Subscribe`, between `Lock` and `Unlock`. -/
theorem safe_subscribeLocked {bufferSize : ℤ} (hs : Live (Writing A i) s) :
    SafeBus A n i (fun _ => Writing A i) (subscribeLocked bufferSize subscriber) s := by
  refine Safe.bind (safe_loadStopped kept_writing hs) fun (stopped : Bool) s₁ h₁ => ?_
  cases stopped with
  | true => exact safe_ret kept_writing h₁
  | false =>
    refine Safe.bind (safe_loadStates_writing h₁) fun (entry : Option (List StateRef)) s₂ h₂ => ?_
    dsimp only [Bool.false_eq_true, if_false]
    split_ifs
    · exact safe_ret kept_writing fun hmisuse => (h₂ hmisuse).1
    · have hentry : Live (fun s => Writing A i s ∧
          (Events.entry s.kinds s.subscriberDir subscriber.resourceKind).getD [] =
            entry.getD []) s₂ := by
        intro hmisuse
        obtain ⟨hwriting, hentry⟩ := h₂ hmisuse
        exact ⟨hwriting, by rw [hentry]⟩
      refine Safe.bind (safe_newState (fun kinds dir =>
        (Events.entry kinds dir subscriber.resourceKind).getD [] = entry.getD []) hentry)
        fun (state : StateRef) s₃ h₃ => ?_
      refine Safe.bind (safe_insert h₃) fun _ s₄ h₄ => ?_
      exact Safe.bind (safe_launchIfStarted h₄) fun _ s₅ h₅ => safe_ret kept_writing h₅

theorem safe_subscribe {bufferSize : ℤ} (hs : Live (Idle i) s) :
    SafeBus A n i (fun _ => Idle i) (subscribe bufferSize subscriber) s := by
  refine Safe.bind (safe_lock hs) fun _ s₁ h₁ => ?_
  refine Safe.bind (safe_subscribeLocked h₁) fun _ s₂ h₂ => ?_
  exact Safe.bind (safe_unlock h₂) fun _ s₃ h₃ => safe_ret kept_idle h₃

/-- `Unsubscribe`, between `Lock` and `Unlock`. -/
theorem safe_unsubscribeLocked (hs : Live (Writing A i) s) :
    SafeBus A n i (fun _ => Writing A i) (unsubscribeLocked subscriber) s := by
  refine Safe.bind (safe_loadStates_writing hs) fun (entry : Option (List StateRef)) s₁ h₁ => ?_
  cases entry with
  | none => exact safe_ret kept_writing fun hmisuse => (h₁ hmisuse).1
  | some states =>
    cases hfound : states.find? fun st => st.subscriber.name == subscriber.name with
    | none =>
      simp only [hfound]
      exact safe_ret kept_writing fun hmisuse => (h₁ hmisuse).1
    | some st =>
      simp only [hfound]
      have hremove : SafeBus A n i (fun _ => Writing A i) (removeState subscriber states st) s₁ :=
        Safe.bind (safe_remove hfound h₁) fun _ s₂ h₂ => safe_closeRemoved h₂
      exact Safe.bind hremove fun _ s₂ h₂ => safe_ret kept_writing h₂

/-- `Unsubscribe`. -/
theorem safe_unsubscribe (hs : Live (Idle i) s) :
    SafeBus A n i (fun _ => Idle i) (unsubscribe subscriber) s := by
  refine Safe.bind (safe_lock hs) fun _ s₁ h₁ => ?_
  refine Safe.bind (safe_unsubscribeLocked h₁) fun result s₂ h₂ => ?_
  refine Safe.bind (safe_unlock h₂) fun _ s₃ h₃ => ?_
  match result with
  | .error _ | .ok none => exact safe_ret kept_idle h₃
  | .ok (some st) =>
    have hwait : SafeBus A n i (fun _ => Idle i) (waitDone st) s₃ := by
      refine safe_look kept_idle (fun s order r s' hexec => ?_) h₃
      simp only [EventBus.exec] at hexec
      split at hexec <;> cases hexec <;> rfl
    exact Safe.bind hwait fun _ s₄ h₄ => safe_ret kept_idle h₄

variable {event : ResourceChangedEvent σ}

/-- `Send` at one state of the directory. -/
theorem safe_sendTo {st : StateRef} {P : List StateRef → Prop} (hP : ∀ refs, P refs → st ∈ refs)
    (hs : Live (fun s => i ∈ s.readers ∧ P s.refs) s) :
    SafeBus A n i (fun _ s => i ∈ s.readers ∧ P s.refs) (sendTo event st) s := by
  have hreading : Kept A i fun s : EventBus σ ι => i ∈ s.readers ∧ P s.refs := kept_reading_refs P
  unfold sendTo
  split_ifs with hasync
  · -- The flag is right, since nobody writes, and stays so while the thread reads.
    have hkept : ∀ closed : Bool, Kept A i fun s : EventBus σ ι =>
        (i ∈ s.readers ∧ P s.refs) ∧ (s.cells st.id).closed = closed := by
      intro closed s s' hinv hinv' hrely h
      refine ⟨hreading s s' hinv hinv' hrely h.1, ?_⟩
      rw [((hrely.held (.inr h.1.1)).2.2 st.id).1]
      exact h.2
    have hload : SafeBus A n i (fun closed s => (i ∈ s.readers ∧ P s.refs) ∧
        (s.cells st.id).closed = closed) (loadClosed st) s := by
      refine safe_read hreading hkept ?_ hs
      intro s h _ _ order (r : Bool) s' _ hexec
      obtain ⟨hr, rfl⟩ := Prod.mk.inj (Option.some.inj hexec)
      exact ⟨rfl, h, hr⟩
    refine Safe.bind hload fun closed s₁ h₁ => ?_
    cases closed with
    | true => exact safe_ret hreading fun hmisuse => (h₁ hmisuse).1
    | false =>
      refine safe_perform (hkept false) (fun _ => hreading) ?_ h₁
      intro s h hinv hgood hmisuse order r s' _ hexec
      have hs' := (Prod.mk.inj (Option.some.inj hexec)).2
      have hopen : (s.cells st.id).chClosed = false :=
        ((hinv.settled (hinv.writer_eq_none h.1.1)).synced st.id).symm.trans h.2
      rw [hopen, if_neg Bool.false_ne_true] at hs'
      split_ifs at hs' with hroom
      · subst hs'
        refine ⟨inv_place hinv h.1.1 (hP _ h.1.2) hasync hopen (fun hA => (hgood.2 hA).2) event,
          fun j _ => ?_, fun _ => h.1⟩
        refine rely_of_reader hinv h.1.1 hmisuse ⟨rfl, rfl, rfl, rfl, rfl⟩ rfl rfl rfl ?_ ?_
        · exact started_setCell id
        · exact setCell_rel (R := fun c c' => c'.closed = c.closed ∧ c'.chClosed = c.chClosed)
            (fun _ => ⟨rfl, rfl⟩) ⟨rfl, rfl⟩
      · subst hs'
        exact ⟨hinv, fun j _ => Rely.refl j s, fun _ => h.1⟩
  · exact safe_look hreading (fun _ _ _ _ hexec => by cases hexec; rfl) hs

/-- The loop of `Send`. -/
theorem safe_sendToAll {states : List StateRef}
    (hs : Live (fun s => i ∈ s.readers ∧ ∀ st ∈ states, st ∈ s.refs) s) :
    SafeBus A n i (fun _ s => i ∈ s.readers) (sendToAll event states) s := by
  induction states generalizing s with
  | nil => exact safe_ret kept_reading fun hmisuse => (hs hmisuse).1
  | cons st states ih =>
    have hone : SafeBus A n i (fun _ s => i ∈ s.readers ∧ ∀ st' ∈ st :: states, st' ∈ s.refs)
        (sendTo event st) s :=
      safe_sendTo (P := fun refs => ∀ st' ∈ st :: states, st' ∈ refs)
        (fun refs h => h st (List.mem_cons_self ..)) hs
    refine Safe.bind hone fun _ s₁ h₁ => ih fun hmisuse => ?_
    exact ⟨(h₁ hmisuse).1, fun st' hst' => (h₁ hmisuse).2 st' (List.mem_cons_of_mem _ hst')⟩

/-- `Send`. -/
theorem safe_send (hs : Live (Idle i) s) :
    SafeBus A n i (fun _ => Idle i) (send event) s := by
  refine Safe.bind (safe_loadStopped kept_idle hs) fun stopped s₁ h₁ => ?_
  cases stopped with
  | true => exact safe_ret kept_idle h₁
  | false =>
    have hlock : SafeBus A n i (fun _ s => i ∈ s.readers ∧ True) rLock s₁ :=
      safe_rLock (fun _ _ _ _ _ h => h) (fun _ _ h => h) fun hmisuse => ⟨h₁ hmisuse, trivial⟩
    refine Safe.bind hlock fun _ s₂ h₂ => ?_
    have hload : SafeBus A n i (fun entry s => i ∈ s.readers ∧ ∀ st ∈ entry.getD [], st ∈ s.refs)
        (loadStates (eventKind event)) s₂ := by
      refine safe_read kept_reading
        (fun entry => kept_reading_refs fun refs => ∀ st ∈ entry.getD [], st ∈ refs) ?_
        fun hmisuse => (h₂ hmisuse).1
      intro s h _ _ order r s' _ hexec
      cases hexec
      exact ⟨rfl, h, fun st hst => (mem_refs_entry (eventKind event)).mpr (.inl hst)⟩
    refine Safe.bind hload fun entry s₃ h₃ => ?_
    exact Safe.bind (safe_sendToAll h₃) fun _ s₄ h₄ => safe_rUnlock h₄

/-- `stopped` is set. -/
theorem safe_storeStopped (hs : Live (Idle i) s) :
    SafeBus A n i (fun _ s => Idle i s ∧ s.stopped = true) storeStopped s := by
  refine safe_perform kept_idle
    (fun _ => kept_idle.and fun _ _ _ _ hrely h => hrely.stopped h) ?_ hs
  intro s hidle hinv hgood hmisuse order r s' _ hexec
  cases hexec
  refine ⟨{ hinv with
    settled := fun hnone => { hinv.settled hnone with
      launched := fun hA => ((hinv.settled hnone).launched hA).mono rfl rfl (fun _ => rfl)
        fun _ h => h }
    ordered := fun hA => { hinv.ordered hA with stopped := fun _ => (hgood.2 hA).1 } },
    fun j _ => { Rely.refl j s with misuse := fun _ => hmisuse, stopped := fun _ => rfl },
    fun _ => ⟨hidle, rfl⟩⟩

theorem exec_stopped {order : List StateRef} {o : BusOp σ} {r : o.Res} {s' : EventBus σ ι}
    (hexec : s.exec i order o = some (r, s')) (hstopped : s.stopped = true) :
    s'.stopped = true := by
  cases o <;> grind [EventBus.exec, EventBus.launch, EventBus.alloc, EventBus.setStates,
    EventBus.setCell]

/-- `WaitForDone`, after which `stopped` is set. -/
theorem safe_waitForDone (hs : Live (Idle i) s) :
    SafeBus A n i (fun _ s => Idle i s ∧ s.stopped = true) waitForDone s := by
  refine Safe.bind (safe_storeStopped hs) fun _ s₁ h₁ => ?_
  have hrest : SafeBus A n i (fun _ => Idle i) (do
      lock
      let states ← rangeStates
      closeAll states
      unlock
      waitGroup) s₁ := by
    refine Safe.bind (safe_lock fun hmisuse => (h₁ hmisuse).1) fun _ s₂ h₂ => ?_
    have hrange : SafeBus A n i (fun _ => Writing A i) rangeStates s₂ :=
      safe_look kept_writing (fun _ _ _ _ hexec => by cases hexec; rfl) h₂
    refine Safe.bind hrange fun states s₃ h₃ => ?_
    refine Safe.bind (safe_closeAll h₃) fun _ s₄ h₄ => ?_
    refine Safe.bind (safe_unlock h₄) fun _ s₅ h₅ => ?_
    refine safe_look kept_idle (fun s order r s' hexec => ?_) h₅
    simp only [EventBus.exec] at hexec
    split_ifs at hexec
    cases hexec
    rfl
  -- `stopped` stays set through the rest of the method.
  have hframe := Safe.frame (Live fun s => s.stopped = true)
    (Kept.live fun _ _ _ _ hrely h => hrely.stopped h) ?_ hrest fun hmisuse => (h₁ hmisuse).2
  · exact hframe.imp fun _ s h hmisuse => ⟨h.1 hmisuse, h.2 hmisuse⟩
  · rintro s₁ o r s₂ hstopped ⟨hmisuse, order, -, hexec⟩ -
    exact exec_stopped hexec (hstopped hmisuse)

/-- What a thread knows when its call has returned. -/
def Returned (i : ι) (outcome : Outcome) (s : EventBus σ ι) : Prop :=
  Idle i s ∧ (outcome = .done → s.stopped = true)

omit [DecidableEq ι] in
theorem kept_returned {outcome : Outcome} :
    Kept A i (Returned i outcome : EventBus σ ι → Prop) :=
  kept_idle.and fun _ _ _ _ hrely h ho => hrely.stopped (h ho)

/-- Every call keeps the discipline. -/
theorem safe_call {p : BusProg σ Outcome} (hp : IsCall n p) (hs : Live (Idle i) s) :
    SafeBus A n i (Returned i) p s := by
  have hend : ∀ (outcome : Outcome) (s : EventBus σ ι), outcome ≠ .done → Live (Idle i) s →
      SafeBus A n i (Returned i) (.ret outcome) s :=
    fun outcome s hne hidle => safe_ret kept_returned fun hmisuse =>
      ⟨hidle hmisuse, fun ho => absurd ho hne⟩
  cases hp with
  | start => exact Safe.bind (safe_start hs) fun _ s h => hend _ s (by simp) h
  | subscribe subscriber =>
    exact Safe.bind (safe_subscribe hs) fun _ s h => hend _ s (by simp) h
  | unsubscribe subscriber =>
    exact Safe.bind (safe_unsubscribe hs) fun _ s h => hend _ s (by simp) h
  | send event => exact Safe.bind (safe_send hs) fun _ s h => hend _ s (by simp) h
  | waitForDone =>
    exact Safe.bind (safe_waitForDone hs) fun _ s h => safe_ret kept_returned fun hmisuse =>
      ⟨(h hmisuse).1, fun _ => (h hmisuse).2⟩

end Methods

/-! ## Runs -/

/-- In every interleaving of calls that meet what is assumed, the callers keep the discipline. -/
theorem run_safe [DecidableEq ι] {A : Assumed} {n : ℤ} {acts : List (PoolAct ι)} {P : BusPool σ ι}
    (h : Run (Guarded (OpGuard A.Good) (PoolStep (callers σ ι n))) (initialBus σ ι n) acts P) :
    P.Safe (callers σ ι n) A.Good (protocol A) fun i outcome => Live (Returned i outcome) := by
  have hinit : Inv A (initialBus σ ι n).state := by
    refine ⟨fun _ => rfl, fun st hst => (by cases hst), fun _ => ⟨fun _ => rfl, fun _ _ => ?_,
      fun _ _ _ => .inr rfl⟩, fun _ => rfl, fun _ => accounted_new, fun _ h => (by cases h),
      fun _ => rfl, fun _ => ⟨fun h => (by cases h), fun h => (by cases h), fun h => by cases h⟩⟩
    intro st hst
    cases hst
  refine pool_safe ?_ ?_ ⟨hinit, fun i => ?_⟩ h
  · rintro s s' hinv ⟨hmisuse, id, c, hdrain, rfl⟩
    exact ⟨inv_drained hinv hdrain, fun j => rely_drained j hmisuse hdrain⟩
  · exact fun i p a s _ hp hreturned => safe_call hp fun hmisuse => (hreturned hmisuse).1
  · have hidle : Idle i (initialBus σ ι n).state := ⟨fun h => (by cases h), List.not_mem_nil⟩
    exact safe_ret kept_returned fun _ => ⟨hidle, fun ho => by cases ho⟩

end DubboAdmin.Events
