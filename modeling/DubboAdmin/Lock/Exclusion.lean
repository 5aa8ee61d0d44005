import DubboAdmin.Lock.Gorm

/-!
# When the database lock excludes

A call of `WithLock` whose lease has not expired still has its row in the table, as long as every
`Unlock` and `Renew` that changes a row changes the one that its own call has inserted, and every
`TryLock` and `Renew` that succeeds does so at the time that it has read (`OwnRow`). Two such calls
on one key then have the same row, so they are the same call (`lock_exclusive`).

The row carries the lock instance and not the call, so that a call that outlives its lease deletes
the row of a later call on the same instance (`late_unlock_admits_second_holder`). A row expires at
the time that was read before its statement plus the ttl, which is before the lease ends where the
statement is delayed.
-/

namespace DubboAdmin.Lock

variable {C : Type}

/-- The lease of the call has not expired. -/
def Unexpired (s : World C) (c : C) : Prop := ∃ e, s.lease c = some e ∧ s.now ≤ e

/-- The row of a call whose lease has not expired is the one that it has written. -/
def RowKept (cfg : C → Call) (s : World C) : Prop :=
  ∀ c e, s.lease c = some e → s.now ≤ e → s.locks (cfg c).key = some ⟨(cfg c).g.owner, e, c⟩

/-- The row that `Unlock` or `Renew` finds under the key and owner of its call was inserted by that
call, and where `TryLock` inserts or `Renew` extends a row, the clock has not gone on since it was
read. -/
def OwnRow (t : Thread C) (s : World C) : LockOp → Prop
  | .insertLock key _ now expireAt ttl => s.unexpired now key = none → expireAt = s.now + ttl
  | .deleteOwned key owner => ∀ w, s.locks key = some w → w.owner = owner → w.holder = t.of
  | .updateOwned key owner expireAt ttl => ∀ w, s.locks key = some w → w.owner = owner →
      w.holder = t.of ∧ expireAt = s.now + ttl
  | _ => True

/-- The operation is on the key and for the owner of its call, and with a time that has been
reached. -/
def Fits (cfg : C → Call) (c : C) (s : World C) : LockOp → Prop
  | .insertLock key owner now _ _ => (key = (cfg c).key ∧ owner = (cfg c).g.owner) ∧ now ≤ s.now
  | .deleteOwned key owner => key = (cfg c).key ∧ owner = (cfg c).g.owner
  | .updateOwned key owner _ _ => key = (cfg c).key ∧ owner = (cfg c).g.owner
  | .deleteExpired now => now ≤ s.now
  | _ => True

/-! ## Steps -/

section Steps

variable {cfg : C → Call} {s : World C} {c : C}

theorem Fits.later {o : LockOp} {s' : World C} (h : Fits cfg c s o) (hnow : s.now ≤ s'.now) :
    Fits cfg c s' o := by
  cases o with
  | insertLock key owner now expireAt ttl => exact ⟨h.1, h.2.trans hnow⟩
  | deleteExpired now => exact le_trans (b := s.now) h hnow
  | _ => exact h

theorem not_unexpired_of_free (h : RowKept cfg s) {key : String}
    (hfree : ∀ w, s.locks key = some w → w.expireAt < s.now) {c' : C}
    (hkey : (cfg c').key = key) : ¬ Unexpired s c' := by
  rintro ⟨e, hlease, hnow⟩
  have hrow := h c' e hlease hnow
  rw [hkey] at hrow
  have := hfree _ hrow
  dsimp only at this
  omega

theorem not_unexpired_of_holder (h : RowKept cfg s) {key : String} {w : LockRecord C}
    (hrow : s.locks key = some w) (hholder : w.holder = c) {c' : C} (hne : c' ≠ c)
    (hkey : (cfg c').key = key) : ¬ Unexpired s c' := by
  rintro ⟨e, hlease, hnow⟩
  have hrow' := h c' e hlease hnow
  rw [hkey, hrow] at hrow'
  have hholder' : w.holder = c' := congrArg LockRecord.holder (Option.some.inj hrow')
  exact hne (hholder'.symm.trans hholder)

variable [DecidableEq C]

/-- A call may write the row of its key, or delete it, while no other call has a lease on the key
that has not expired. -/
theorem rowKept_write (h : RowKept cfg s) (hfree : ∀ c', c' ≠ c → (cfg c').key = (cfg c).key →
      ¬ Unexpired s c') (row : Option (LockRecord C)) (lease : Option ℤ)
    (hown : ∀ e, lease = some e → row = some ⟨(cfg c).g.owner, e, c⟩) :
    RowKept cfg { s with
      locks := Function.update s.locks (cfg c).key row
      lease := Function.update s.lease c lease } := by
  intro c' e hlease hnow
  dsimp only at hlease hnow ⊢
  by_cases hc : c' = c
  · subst hc
    rw [Function.update_self] at hlease ⊢
    exact hown e hlease
  · rw [Function.update_of_ne hc] at hlease
    by_cases hkey : (cfg c').key = (cfg c).key
    · exact absurd ⟨e, hlease, hnow⟩ (hfree c' hc hkey)
    · rw [Function.update_of_ne hkey]
      exact h c' e hlease hnow

/-- A step that fits, and meets the condition on the row, keeps the rows. -/
theorem effect_rowKept {t : Thread C} {o : LockOp} {s' : World C} (h : RowKept cfg s)
    (hfits : Fits cfg t.of s o) (hown : OwnRow t s o) (heffect : RowEffect t.of s o s') :
    RowKept cfg s' := by
  cases heffect with
  | unchanged hnow hlocks hlease =>
    intro c e hc he
    rw [hlease] at hc
    rw [hnow] at he
    rw [hlocks]
    exact h c e hc he
  | @acquire key owner now expireAt ttl ho hfree =>
    subst ho
    obtain ⟨⟨rfl, rfl⟩, hnow⟩ := hfits
    have hnone : s.unexpired now (cfg t.of).key = none := by
      refine Option.filter_eq_none_iff.mpr fun w hw => ?_
      simpa using hfree w hw
    obtain rfl := hown hnone
    refine rowKept_write h (fun c' _ hkey => ?_) _ _ fun e he => by rw [Option.some.inj he]
    exact not_unexpired_of_free h (fun w hw => lt_of_lt_of_le (hfree w hw) hnow) hkey
  | @release key owner w ho hrow howner =>
    subst ho
    obtain ⟨rfl, rfl⟩ := hfits
    refine rowKept_write h (fun c' hne hkey => ?_) _ _ fun e he => by cases he
    exact not_unexpired_of_holder h hrow (hown w hrow howner) hne hkey
  | @extend key owner expireAt ttl w ho hrow howner =>
    subst ho
    obtain ⟨rfl, rfl⟩ := hfits
    obtain ⟨hholder, rfl⟩ := hown w hrow howner
    refine rowKept_write h (fun c' hne hkey => ?_) _ _ fun e he => ?_
    · exact not_unexpired_of_holder h hrow hholder hne hkey
    · rw [← Option.some.inj he, ← howner, ← hholder]
  | @expire now ho =>
    -- The cleanup compares with a time that has been reached.
    subst ho
    intro c e hlease hnow
    have hrow := h c e hlease hnow
    have hreached : now ≤ e := le_trans (b := s.now) hfits hnow
    simp only [World.unexpired, hrow, Option.filter_some, hreached, decide_true, if_true]

end Steps

/-! ## Threads -/

section Threads

variable [DecidableEq C] {cfg : C → Call} {t : Thread C} {s : World C}

/-- The rows are kept, while the clock goes on. -/
def lockProtocol (cfg : C → Call) : Protocol (World C) (Thread C) where
  inv := RowKept cfg
  rely _ s s' := s.now ≤ s'.now

/-- A thread keeps the rows from here on. -/
abbrev SafeLock (cfg : C → Call) (t : Thread C) {α : Type} (post : α → World C → Prop)
    (p : LockProg α) (s : World C) : Prop :=
  Safe (lockThreads C) OwnRow (lockProtocol cfg) t post p s

/-- A thread keeps the rows, whatever it returns. -/
abbrev KeepsRows (cfg : C → Call) (t : Thread C) {α : Type} (p : LockProg α) (s : World C) : Prop :=
  SafeLock cfg t (fun _ _ => True) p s

theorem safeLock_perform {o : LockOp} (hfits : Fits cfg t.of s o) :
    KeepsRows cfg t (Prog.perform o) s := by
  refine Safe.perform (fun s => Fits cfg t.of s o) (fun _ _ _ _ hnow h => h.later hnow)
    (fun _ => Protocol.stable_true _ _) hfits ?_
  intro s₁ hfits₁ hinv hown r s₂ hsem
  have heffect := lockSem_effect hsem
  exact ⟨effect_rowKept hinv hfits₁ hown heffect, fun _ _ => (effect_now heffect).ge, trivial⟩

theorem safeLock_timeNow : SafeLock cfg t (fun now s => now ≤ s.now) timeNow s := by
  refine Safe.perform (fun _ => True) (Protocol.stable_true _ _)
    (fun _ _ _ _ _ hclock hle => le_trans hle hclock) trivial ?_
  intro s₁ _ hinv hown (now : ℤ) s₂ hsem
  have heffect := lockSem_effect hsem
  have hread : now ≤ s₂.now := by
    cases hsem with
    | run h =>
      cases h
      exact le_rfl
  have hfits : Fits cfg t.of s₁ .timeNow := trivial
  exact ⟨effect_rowKept hinv hfits hown heffect, fun _ _ => (effect_now heffect).ge, hread⟩

theorem safeLock_stall {α : Type} : KeepsRows cfg t (stall : LockProg α) s :=
  fun _ _ _ _ r => nomatch r

theorem safeLock_tryLock {ttl : ℤ} :
    KeepsRows cfg t ((cfg t.of).g.tryLock (cfg t.of).key ttl) s := by
  refine Safe.bind safeLock_timeNow fun begun s₁ _ => ?_
  refine Safe.bind safeLock_timeNow fun now s₂ hnow => ?_
  have hfits : Fits cfg t.of s₂ (.insertLock (cfg t.of).key (cfg t.of).g.owner now (begun + ttl)
      ttl) := ⟨⟨rfl, rfl⟩, hnow⟩
  refine Safe.bind (safeLock_perform hfits) fun rowsAffected s₃ _ => ?_
  split <;> exact Safe.done

theorem safeLock_lock {ttl : ℤ} (attempts : ℕ) :
    KeepsRows cfg t ((cfg t.of).g.lock (cfg t.of).key ttl attempts) s := by
  induction attempts generalizing s with
  | zero => exact safeLock_stall
  | succ attempts ih =>
    refine Safe.bind safeLock_tryLock fun acquired s₁ _ => ?_
    match acquired with
    | .error _ | .ok true => exact Safe.done
    | .ok false =>
      refine Safe.bind (safeLock_perform (o := .awaitTick) trivial) fun ticked s₂ _ => ?_
      match ticked with
      | .error e => exact Safe.done
      | .ok () => exact ih

theorem safeLock_unlock :
    KeepsRows cfg t ((cfg t.of).g.unlock (cfg t.of).key) s := by
  have hfits : Fits cfg t.of s (.deleteOwned (cfg t.of).key (cfg t.of).g.owner) := ⟨rfl, rfl⟩
  refine Safe.bind (safeLock_perform hfits) fun rowsAffected s₁ _ => ?_
  split <;> exact Safe.done

theorem safeLock_renew {ttl : ℤ} :
    KeepsRows cfg t ((cfg t.of).g.renew (cfg t.of).key ttl) s := by
  refine Safe.bind safeLock_timeNow fun now s₁ _ => ?_
  have hfits : Fits cfg t.of s₁ (.updateOwned (cfg t.of).key (cfg t.of).g.owner (now + ttl) ttl) :=
    ⟨rfl, rfl⟩
  refine Safe.bind (safeLock_perform hfits) fun rowsAffected s₂ _ => ?_
  split <;> exact Safe.done

theorem safeLock_autoRenew {ttl : ℤ} (rounds : ℕ) :
    KeepsRows cfg t ((cfg t.of).g.autoRenew (cfg t.of).key ttl rounds) s := by
  induction rounds generalizing s with
  | zero => exact safeLock_stall
  | succ rounds ih =>
    refine Safe.bind (safeLock_perform (o := .awaitSignal) trivial) fun signal s₁ _ => ?_
    match signal with
    | .done | .cancelled => exact Safe.done
    | .tick =>
      refine Safe.bind (safeLock_perform (o := .loadDone) trivial) fun done s₂ _ => ?_
      match done with
      | true => exact Safe.done
      | false =>
        refine Safe.bind safeLock_renew fun renewed s₃ _ => ?_
        match renewed with
        | .error e => exact Safe.done
        | .ok () => exact ih

theorem safeLock_runLocked {ttl : ℤ} :
    KeepsRows cfg t ((cfg t.of).g.runLocked (cfg t.of).key ttl) s := by
  unfold GormLock.runLocked
  split_ifs
  · refine Safe.bind (safeLock_perform (o := .goRenew) trivial) fun _ s₁ _ => ?_
    refine Safe.bind (safeLock_perform (o := .enterFn) trivial) fun _ s₂ _ => ?_
    refine Safe.bind (safeLock_perform (o := .leaveFn) trivial) fun result s₃ _ => ?_
    refine Safe.bind (safeLock_perform (o := .closeDone) trivial) fun _ s₄ _ => ?_
    exact Safe.bind safeLock_unlock fun _ _ _ => Safe.done
  · refine Safe.bind (safeLock_perform (o := .enterFn) trivial) fun _ s₁ _ => ?_
    refine Safe.bind (safeLock_perform (o := .leaveFn) trivial) fun result s₂ _ => ?_
    exact Safe.bind safeLock_unlock fun _ _ _ => Safe.done

theorem safeLock_cleanup (g : GormLock) :
    KeepsRows cfg t g.cleanupExpiredLocks s := by
  refine Safe.bind safeLock_timeNow fun now s₁ hnow => ?_
  have hfits : Fits cfg t.of s₁ (.deleteExpired now) := hnow
  refine Safe.bind (safeLock_perform hfits) fun deleted s₂ _ => ?_
  split <;> exact Safe.done

/-- Every thread keeps the rows. -/
theorem safeLock_program (rounds : Thread C → ℕ) :
    KeepsRows cfg t (t.program cfg rounds) s := by
  cases t with
  | call c =>
    refine Safe.bind (safeLock_lock (t := .call c) _) fun locked s₁ _ => ?_
    match locked with
    | .error e => exact Safe.done
    | .ok () => exact safeLock_runLocked (t := .call c)
  | renewer c =>
    refine Safe.bind (safeLock_perform (o := .awaitStart) trivial) fun _ s₁ _ => ?_
    exact Safe.bind (safeLock_autoRenew (t := .renewer c) _) fun _ _ _ => Safe.done
  | cleaner c => exact safeLock_cleanup (cfg c).g

end Threads

/-! ## Runs -/

/-- At every moment of every interleaving in which each `Unlock` and `Renew` that finds a row of its
key and owner finds the row that its own call has inserted, and no time passes between the reading
of the clock and the statement of a `TryLock` or `Renew` that succeeds, at most one call of
`WithLock` on a key runs its function while its own lease has not expired. -/
theorem lock_exclusive [DecidableEq C] {cfg : C → Call} {P₀ P : LockPool C}
    (hnew : NewCalls cfg P₀) {acts : List (PoolAct (Thread C))}
    (h : Run (Guarded (OpGuard OwnRow) (PoolStep (lockThreads C))) P₀ acts P) {c c' : C}
    (hkey : (cfg c).key = (cfg c').key)
    (hc : P.state.running c = true ∧ Unexpired P.state c)
    (hc' : P.state.running c' = true ∧ Unexpired P.state c') : c = c' := by
  have hinit : RowKept cfg P₀.state := by
    intro c e hlease
    rw [hnew.lease c] at hlease
    cases hlease
  have hsafe : Pool.Safe (lockThreads C) OwnRow (lockProtocol cfg) (fun _ _ _ => True) P := by
    refine pool_safe ?_ ?_ ⟨hinit, fun t => ?_⟩ h
    · -- When time passes, fewer leases have not expired.
      rintro s s' hinv ⟨now, hnow, rfl⟩
      exact ⟨fun c e hlease he => hinv c e hlease (hnow.trans he), fun _ => hnow⟩
    · exact fun _ _ _ _ _ hstart _ => hstart.elim
    · obtain ⟨rounds, hthreads⟩ := hnew.threads
      rw [hthreads]
      exact safeLock_program rounds
  obtain ⟨-, e, hlease, hnow⟩ := hc
  obtain ⟨-, e', hlease', hnow'⟩ := hc'
  have hrow := hsafe.1 c e hlease hnow
  have hrow' := hsafe.1 c' e' hlease' hnow'
  rw [hkey, hrow'] at hrow
  exact (congrArg LockRecord.holder (Option.some.inj hrow)).symm

/-! ## Two instances and three calls -/

/-- Two calls on one instance and one on another, on the same key. -/
def sampleCalls : Fin 3 → Call
  | 0 => ⟨⟨"g"⟩, "k", 10⟩
  | 1 => ⟨⟨"g"⟩, "k", 10⟩
  | 2 => ⟨⟨"g'"⟩, "k", 10⟩

/-- The calls at their beginning, with an empty table. -/
def samplePool : LockPool (Fin 3) :=
  ⟨⟨0, fun _ => none, fun _ => false, fun _ => none, fun _ => false, fun _ => false⟩,
    Thread.program sampleCalls fun _ => 1⟩

theorem newCalls_samplePool : NewCalls sampleCalls samplePool := ⟨⟨_, rfl⟩, fun _ => rfl⟩

/-- One step, where the clock goes on by twenty. -/
def sampleNext (P : LockPool (Fin 3)) (act : PoolAct (Thread (Fin 3))) :
    Option (LockPool (Fin 3)) :=
  P.tryNext (fun t s o => exec t.of s o) (fun _ => none)
    (fun s => some { s with now := s.now + 20 }) act

theorem poolStep_of_sampleNext (P : LockPool (Fin 3)) (act : PoolAct (Thread (Fin 3)))
    (P' : LockPool (Fin 3)) (h : sampleNext P act = some P') :
    PoolStep (lockThreads (Fin 3)) P act P' := by
  refine Pool.step_of_tryNext ?_ ?_ ?_ P act P' h
  · intro t s o r s' hstep
    exact LockSem.run hstep
  · intro t p hp
    cases hp
  · intro s s' htick
    cases htick
    exact ⟨s.now + 20, by omega, rfl⟩

/-- `OwnRow`, computed. -/
def ownCheck (t : Thread (Fin 3)) (s : World (Fin 3)) : LockOp → Bool
  | .insertLock key _ now expireAt ttl =>
    decide (s.unexpired now key = none → expireAt = s.now + ttl)
  | .deleteOwned key owner =>
    (s.locks key).all fun w => decide (w.owner = owner → w.holder = t.of)
  | .updateOwned key owner expireAt ttl =>
    (s.locks key).all fun w => decide (w.owner = owner → w.holder = t.of ∧ expireAt = s.now + ttl)
  | _ => true

theorem ownRow_of_check (t : Thread (Fin 3)) (s : World (Fin 3)) (o : LockOp)
    (h : ownCheck t s o = true) : OwnRow t s o := by
  unfold OwnRow
  split
  · exact of_decide_eq_true h
  · intro w hw howner
    simpa [ownCheck, hw, howner] using h
  · intro w hw howner
    simpa [ownCheck, hw, howner] using h
  · trivial

/-- The call takes `k` operations. -/
def sampleSteps (c : Fin 3) (k : ℕ) : List (PoolAct (Thread (Fin 3))) :=
  List.replicate k (.thread (.call c))

/-- The first call takes the lock, its lease expires, it comes to its end, and the second call takes
the lock. -/
def expiryOrder : List (PoolAct (Thread (Fin 3))) :=
  sampleSteps 0 4 ++ [.env] ++ sampleSteps 0 2 ++ sampleSteps 1 4

/-- The second call takes the lock before the first one comes to its end, and the third call
afterwards. -/
def lateOrder : List (PoolAct (Thread (Fin 3))) :=
  sampleSteps 0 4 ++ [.env] ++ sampleSteps 1 4 ++ sampleSteps 0 2 ++ sampleSteps 2 4

/-- The first call reads the clock, its lease begins late, and the third call takes the lock. -/
def delayedOrder : List (PoolAct (Thread (Fin 3))) :=
  sampleSteps 0 1 ++ [.env] ++ sampleSteps 0 3 ++ sampleSteps 2 4

/-- The first call outlives its lease and releases its own row, and the second one takes the lock:
no other call runs with a lease that has not expired. -/
theorem lock_exclusive_after_expiry :
    ∃ P, Run (Guarded (OpGuard OwnRow) (PoolStep (lockThreads (Fin 3)))) samplePool expiryOrder P ∧
      (P.state.running 1 = true ∧ Unexpired P.state 1) ∧
      ∀ c, P.state.running c = true ∧ Unexpired P.state c → 1 = c := by
  obtain ⟨P, hP, hrunning, hlease, hnow⟩ : ∃ P, expiryOrder.foldlM
        (fun P act => if P.opCheck ownCheck act then sampleNext P act else none) samplePool =
          some P ∧
      P.state.running 1 = true ∧ P.state.lease 1 = some 30 ∧ P.state.now = 20 :=
    ⟨_, rfl, rfl, rfl, rfl⟩
  have hrun := Run.of_foldlM (Pool.guarded_of_next ownRow_of_check poolStep_of_sampleNext) hP
  have hone : P.state.running 1 = true ∧ Unexpired P.state 1 :=
    ⟨hrunning, 30, hlease, by rw [hnow]; decide⟩
  have hkey : ∀ c, (sampleCalls 1).key = (sampleCalls c).key := by decide
  exact ⟨P, hrun, hone, fun c hc => lock_exclusive newCalls_samplePool hrun (hkey c) hone hc⟩

/-- Both calls run their functions with leases that have not expired. -/
def BothHold (P : LockPool (Fin 3)) (c c' : Fin 3) : Prop :=
  (P.state.running c = true ∧ Unexpired P.state c) ∧
    P.state.running c' = true ∧ Unexpired P.state c'

/-- A computed run at whose end two calls run with leases that end at thirty. -/
theorem bothHold_of_foldlM {acts : List (PoolAct (Thread (Fin 3)))} {c c' : Fin 3}
    (h : ∃ P, acts.foldlM sampleNext samplePool = some P ∧ P.state.now = 20 ∧
      (P.state.running c = true ∧ P.state.lease c = some 30) ∧
      P.state.running c' = true ∧ P.state.lease c' = some 30) :
    ∃ P, Run (PoolStep (lockThreads (Fin 3))) samplePool acts P ∧ BothHold P c c' := by
  obtain ⟨P, hP, hnow, ⟨hrunning, hlease⟩, hrunning', hlease'⟩ := h
  have hunexpired : P.state.now ≤ 30 := by
    rw [hnow]
    decide
  exact ⟨P, Run.of_foldlM poolStep_of_sampleNext hP, ⟨hrunning, 30, hlease, hunexpired⟩, hrunning',
    30, hlease', hunexpired⟩

/-- The first call outlives its lease, and the second one, on the same instance, takes the lock.
When the first call comes to its `Unlock`, it deletes the row of the second one, and the third call,
on another instance, takes the lock. The second and the third call run their functions at the same
time, each with a lease that has not expired. So do the first and the third one where the first
inserts its row long after it has read the clock, so that the row has expired when it is written. -/
theorem late_unlock_admits_second_holder :
    NewCalls sampleCalls samplePool ∧
    (∃ P, Run (PoolStep (lockThreads (Fin 3))) samplePool lateOrder P ∧ BothHold P 1 2) ∧
    ∃ P, Run (PoolStep (lockThreads (Fin 3))) samplePool delayedOrder P ∧ BothHold P 0 2 :=
  ⟨newCalls_samplePool, bothHold_of_foldlM ⟨_, rfl, rfl, ⟨rfl, rfl⟩, rfl, rfl⟩,
    bothHold_of_foldlM ⟨_, rfl, rfl, ⟨rfl, rfl⟩, rfl, rfl⟩⟩

end DubboAdmin.Lock
