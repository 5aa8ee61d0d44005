import DubboAdmin.Lib.Prog
import DubboAdmin.Resource

/-!
# The database lock

`GormLock` of `pkg/lock/gorm`: a table with one row per lock key, which holds the owner and the time
at which the lock expires. An owner is a lock instance, so all calls of `WithLock` on one instance
write the same owner.

A call of `WithLock` is a thread, and so is the goroutine that renews its lock and each round of
`CleanupExpiredLocks`. The state also records, for each row, the call that has inserted it, and for
each call whether its function runs and when its lease ends: at the time of its last successful
acquisition or renewal plus the ttl.
-/

namespace DubboAdmin.Lock

open Prog (perform)

/-! ## State -/

/-- `LockRecord`: a row of the table, with the call `C` that has inserted it. -/
structure LockRecord (C : Type) where
  owner : String
  expireAt : ℤ
  /-- The call of `WithLock` that has inserted the row. -/
  holder : C
deriving DecidableEq, Repr

/-- `GormLock`, by its owner. -/
structure GormLock where
  owner : String
deriving DecidableEq, Repr

/-- A call of `WithLock`. -/
structure Call where
  g : GormLock
  key : String
  ttl : ℤ
deriving DecidableEq, Repr

/-- The threads: the calls, the goroutines that renew their locks, and rounds of the cleanup. -/
inductive Thread (C : Type) where
  | call (c : C)
  /-- `autoRenew` of the call. -/
  | renewer (c : C)
  /-- `CleanupExpiredLocks` on the instance of the call. -/
  | cleaner (c : C)
deriving DecidableEq, Repr

/-- The call that a thread belongs to. -/
def Thread.of {C : Type} : Thread C → C
  | .call c => c
  | .renewer c => c
  | .cleaner c => c

/-- The table, the clock, and what the calls do. -/
structure World (C : Type) where
  now : ℤ
  locks : String → Option (LockRecord C)
  running : C → Bool
  /-- The time of the last successful acquisition or renewal of the call plus its ttl, until it
  releases its lock. -/
  lease : C → Option ℤ
  /-- The goroutine that renews the lock of the call was started. -/
  renewing : C → Bool
  renewDone : C → Bool

/-! ## Operations -/

/-- What wakes `autoRenew` up. -/
inductive Signal where
  /-- `renewDone` is closed. -/
  | done
  | cancelled
  | tick
deriving DecidableEq, Repr

/-- The atomic steps of a lock. -/
inductive LockOp where
  /-- `time.Now()`. -/
  | timeNow
  /-- The transaction of `TryLock`: `DELETE` of the row if it expires before `now`, and `INSERT`
  unless there is a row. -/
  | insertLock (key owner : String) (now expireAt ttl : ℤ)
  /-- The `DELETE` of `Unlock`. -/
  | deleteOwned (key owner : String)
  /-- The `UPDATE` of `Renew`. -/
  | updateOwned (key owner : String) (expireAt ttl : ℤ)
  /-- The `DELETE` of `CleanupExpiredLocks`. -/
  | deleteExpired (now : ℤ)
  /-- The `select` of `Lock`: the next tick, or the error of the context. -/
  | awaitTick
  /-- `go g.autoRenew(…)`. -/
  | goRenew
  /-- `close(renewDone)`. -/
  | closeDone
  /-- The start of the goroutine. -/
  | awaitStart
  /-- The `select` of `autoRenew`. -/
  | awaitSignal
  /-- The second look of `autoRenew` at `renewDone`. -/
  | loadDone
  | enterFn
  /-- `fn()` ends with its result. -/
  | leaveFn
  /-- Nothing more happens. -/
  | stall

/-- What a step answers: an SQL statement the number of rows that it has changed. -/
def LockOp.Res : LockOp → Type
  | .timeNow => ℤ
  | .insertLock _ _ _ _ _ => Except Failure ℕ
  | .deleteOwned _ _ => Except Failure ℕ
  | .updateOwned _ _ _ _ => Except Failure ℕ
  | .deleteExpired _ => Except Failure Unit
  | .awaitTick => Except Failure Unit
  | .awaitSignal => Signal
  | .loadDone => Bool
  | .leaveFn => Except Failure Unit
  | .stall => Empty
  | _ => Unit

section Steps

variable {C : Type}

/-- The row of a key after a `DELETE` of what expires before `now`. -/
def World.unexpired (s : World C) (now : ℤ) (key : String) : Option (LockRecord C) :=
  (s.locks key).filter fun w => now ≤ w.expireAt

variable [DecidableEq C]

/-- The call inserts its row. -/
def World.acquire (s : World C) (c : C) (key owner : String) (expireAt ttl : ℤ) : World C :=
  { s with
    locks := Function.update s.locks key (some ⟨owner, expireAt, c⟩)
    lease := Function.update s.lease c (some (s.now + ttl)) }

/-- The call deletes the row. -/
def World.release (s : World C) (c : C) (key : String) : World C :=
  { s with
    locks := Function.update s.locks key none
    lease := Function.update s.lease c none }

/-- The call extends the row `w`. -/
def World.extend (s : World C) (c : C) (key : String) (w : LockRecord C) (expireAt ttl : ℤ) :
    World C :=
  { s with
    locks := Function.update s.locks key (some { w with expireAt })
    lease := Function.update s.lease c (some (s.now + ttl)) }

/-- A step for the call `c`, where the database does not fail, the contexts are not cancelled, and
the function returns `nil`; `none` where the thread has to wait. -/
def exec (c : C) (s : World C) : (o : LockOp) → Option (o.Res × World C)
  | .timeNow => some (s.now, s)
  | .insertLock key owner now expireAt ttl =>
    match s.unexpired now key with
    | some _ => some (.ok 0, s)
    | none => some (.ok 1, s.acquire c key owner expireAt ttl)
  | .deleteOwned key owner =>
    match s.locks key with
    | some w => if w.owner = owner then some (.ok 1, s.release c key) else some (.ok 0, s)
    | none => some (.ok 0, s)
  | .updateOwned key owner expireAt ttl =>
    match s.locks key with
    | some w =>
      if w.owner = owner then some (.ok 1, s.extend c key w expireAt ttl) else some (.ok 0, s)
    | none => some (.ok 0, s)
  | .deleteExpired now => some (.ok (), { s with locks := s.unexpired now })
  | .awaitTick => some (.ok (), s)
  | .goRenew => some ((), { s with renewing := Function.update s.renewing c true })
  | .closeDone => some ((), { s with renewDone := Function.update s.renewDone c true })
  | .awaitStart => if s.renewing c then some ((), s) else none
  | .awaitSignal => some (.tick, s)
  | .loadDone => some (s.renewDone c, s)
  | .enterFn => some ((), { s with running := Function.update s.running c true })
  | .leaveFn => some (.ok (), { s with running := Function.update s.running c false })
  | .stall => none

/-- What a step of a thread may do: an SQL statement may also fail and change nothing, a context may
be cancelled, and the function may return an error. -/
inductive LockSem (t : Thread C) (s : World C) : (o : LockOp) → o.Res → World C → Prop
  /-- The step as computed. -/
  | run {o : LockOp} {r : o.Res} {s' : World C} (h : exec t.of s o = some (r, s')) :
      LockSem t s o r s'
  | failInsert (key owner : String) (now expireAt ttl : ℤ) (e : Failure) :
      LockSem t s (.insertLock key owner now expireAt ttl) (.error e) s
  | failDelete (key owner : String) (e : Failure) :
      LockSem t s (.deleteOwned key owner) (.error e) s
  | failUpdate (key owner : String) (expireAt ttl : ℤ) (e : Failure) :
      LockSem t s (.updateOwned key owner expireAt ttl) (.error e) s
  | failExpired (now : ℤ) (e : Failure) : LockSem t s (.deleteExpired now) (.error e) s
  /-- The context of `Lock` is done. -/
  | cancelTick (e : Failure) : LockSem t s .awaitTick (.error e) s
  /-- The context of `autoRenew` is done. -/
  | cancelSignal : LockSem t s .awaitSignal .cancelled s
  /-- `renewDone` is closed. -/
  | doneSignal (h : s.renewDone t.of = true) : LockSem t s .awaitSignal .done s
  | failFn (e : Failure) :
      LockSem t s .leaveFn (.error e) { s with running := Function.update s.running t.of false }

/-- What a step of a thread does to the rows and the leases. -/
inductive RowEffect (c : C) (s : World C) (o : LockOp) : World C → Prop
  /-- They stay as they are. -/
  | unchanged {s' : World C} (hnow : s'.now = s.now) (hlocks : s'.locks = s.locks)
      (hlease : s'.lease = s.lease) : RowEffect c s o s'
  /-- A row is inserted where there is none, or an expired one. -/
  | acquire {key owner : String} {now expireAt ttl : ℤ}
      (ho : o = .insertLock key owner now expireAt ttl)
      (hfree : ∀ w, s.locks key = some w → w.expireAt < now) :
      RowEffect c s o (s.acquire c key owner expireAt ttl)
  /-- A row of the owner is deleted. -/
  | release {key owner : String} {w : LockRecord C} (ho : o = .deleteOwned key owner)
      (hrow : s.locks key = some w) (howner : w.owner = owner) : RowEffect c s o (s.release c key)
  /-- A row of the owner is extended. -/
  | extend {key owner : String} {expireAt ttl : ℤ} {w : LockRecord C}
      (ho : o = .updateOwned key owner expireAt ttl) (hrow : s.locks key = some w)
      (howner : w.owner = owner) : RowEffect c s o (s.extend c key w expireAt ttl)
  /-- The expired rows are deleted. -/
  | expire {now : ℤ} (ho : o = .deleteExpired now) :
      RowEffect c s o { s with locks := s.unexpired now }

/-- Every computed step has one of these effects. -/
theorem exec_effect {c : C} {s s' : World C} {o : LockOp} {r : o.Res}
    (h : exec c s o = some (r, s')) : RowEffect c s o s' := by
  have hnothing : s = s' → RowEffect c s o s' := fun heq => heq ▸ .unchanged rfl rfl rfl
  cases o with
  | insertLock key owner now expireAt ttl =>
    simp only [exec] at h
    cases hrow : s.unexpired now key with
    | some w =>
      simp only [hrow] at h
      exact hnothing (Prod.mk.inj (Option.some.inj h)).2
    | none =>
      simp only [hrow] at h
      cases h
      refine .acquire rfl fun w hw => ?_
      unfold World.unexpired at hrow
      rw [hw, Option.filter_eq_none_iff] at hrow
      simpa using hrow
  | deleteOwned key owner =>
    simp only [exec] at h
    cases hrow : s.locks key with
    | none =>
      simp only [hrow] at h
      exact hnothing (Prod.mk.inj (Option.some.inj h)).2
    | some w =>
      simp only [hrow] at h
      split_ifs at h with howner
      · cases h
        exact .release rfl hrow howner
      · exact hnothing (Prod.mk.inj (Option.some.inj h)).2
  | updateOwned key owner expireAt ttl =>
    simp only [exec] at h
    cases hrow : s.locks key with
    | none =>
      simp only [hrow] at h
      exact hnothing (Prod.mk.inj (Option.some.inj h)).2
    | some w =>
      simp only [hrow] at h
      split_ifs at h with howner
      · cases h
        exact .extend rfl hrow howner
      · exact hnothing (Prod.mk.inj (Option.some.inj h)).2
  | deleteExpired now =>
    cases h
    exact .expire rfl
  | awaitStart =>
    simp only [exec] at h
    split_ifs at h
    exact hnothing (Prod.mk.inj (Option.some.inj h)).2
  | stall => cases h
  | _ =>
    cases h
    exact .unchanged rfl rfl rfl

theorem lockSem_effect {t : Thread C} {s s' : World C} {o : LockOp} {r : o.Res}
    (h : LockSem t s o r s') : RowEffect t.of s o s' := by
  cases h with
  | run h => exact exec_effect h
  | _ => exact .unchanged rfl rfl rfl

theorem effect_now {c : C} {s s' : World C} {o : LockOp} (h : RowEffect c s o s') :
    s'.now = s.now := by
  cases h with
  | unchanged hnow _ _ => exact hnow
  | _ => rfl

end Steps

/-! ## The calls -/

/-- A program over the table. -/
abbrev LockProg (α : Type) := Prog LockOp LockOp.Res α

/-! Each operation, as a program with its answer. -/

def timeNow : LockProg ℤ := perform LockOp.timeNow

def insertLock (key owner : String) (now expireAt ttl : ℤ) : LockProg (Except Failure ℕ) :=
  perform (LockOp.insertLock key owner now expireAt ttl)

def deleteOwned (key owner : String) : LockProg (Except Failure ℕ) :=
  perform (LockOp.deleteOwned key owner)

def updateOwned (key owner : String) (expireAt ttl : ℤ) : LockProg (Except Failure ℕ) :=
  perform (LockOp.updateOwned key owner expireAt ttl)

def deleteExpired (now : ℤ) : LockProg (Except Failure Unit) := perform (LockOp.deleteExpired now)

def awaitTick : LockProg (Except Failure Unit) := perform LockOp.awaitTick

def goRenew : LockProg Unit := perform LockOp.goRenew

def closeDone : LockProg Unit := perform LockOp.closeDone

def awaitStart : LockProg Unit := perform LockOp.awaitStart

def awaitSignal : LockProg Signal := perform LockOp.awaitSignal

def loadDone : LockProg Bool := perform LockOp.loadDone

def enterFn : LockProg Unit := perform LockOp.enterFn

def leaveFn : LockProg (Except Failure Unit) := perform LockOp.leaveFn

/-- A thread that does not come back. -/
def stall {α : Type} : LockProg α := .op LockOp.stall fun r => nomatch r

/-- An error, wrapped with a text. -/
def wrapped (text : String) : Failure → Failure
  | .err msg => .err (text ++ ": " ++ msg)
  | .panic msg => .panic msg

/-- The error of `Unlock` and `Renew` where the row is not the owner's. -/
def lockNotHeld : Failure := .err "[LockNotHeld], lock not held by this owner"

namespace GormLock

def tryLock (g : GormLock) (key : String) (ttl : ℤ) : LockProg (Except Failure Bool) := do
  let begun ← timeNow
  let expireAt := begun + ttl
  let now ← timeNow
  let rowsAffected ← insertLock key g.owner now expireAt ttl
  match rowsAffected with
  | .error e => return .error e
  | .ok 0 => return .ok false
  | .ok _ => return .ok true

/-- `Lock`, in a run in which it tries at most `attempts` times. -/
def lock (g : GormLock) (key : String) (ttl : ℤ) : ℕ → LockProg (Except Failure Unit)
  | 0 => stall
  | attempts + 1 => do
    let acquired ← g.tryLock key ttl
    match acquired with
    | .error e => return .error (wrapped "failed to try lock" e)
    | .ok true => return .ok ()
    | .ok false => do
      let ticked ← awaitTick
      match ticked with
      | .error e => return .error e
      | .ok () => g.lock key ttl attempts

def unlock (g : GormLock) (key : String) : LockProg (Except Failure Unit) := do
  let rowsAffected ← deleteOwned key g.owner
  match rowsAffected with
  | .error e => return .error (wrapped "failed to release lock" e)
  | .ok 0 => return .error lockNotHeld
  | .ok _ => return .ok ()

def renew (g : GormLock) (key : String) (ttl : ℤ) : LockProg (Except Failure Unit) := do
  let now ← timeNow
  let rowsAffected ← updateOwned key g.owner (now + ttl) ttl
  match rowsAffected with
  | .error e => return .error (wrapped "failed to renew lock" e)
  | .ok 0 => return .error lockNotHeld
  | .ok _ => return .ok ()

/-- `autoRenew`, in a run in which its loop is entered at most `rounds` times. -/
def autoRenew (g : GormLock) (key : String) (ttl : ℤ) : ℕ → LockProg Unit
  | 0 => stall
  | rounds + 1 => do
    let signal ← awaitSignal
    match signal with
    | .done => return ()
    | .cancelled => return ()
    | .tick => do
      let done ← loadDone
      if done then return ()
      else do
        let renewed ← g.renew key ttl
        match renewed with
        | .error _ => return ()
        | .ok () => g.autoRenew key ttl rounds

/-- `DefaultAutoRenewThreshold`: ten seconds. -/
def autoRenewThreshold : ℤ := 10000000000

/-- `WithLock` behind `Lock`: the function, and the deferred calls in their order. -/
def runLocked (g : GormLock) (key : String) (ttl : ℤ) : LockProg (Except Failure Unit) := do
  if autoRenewThreshold < ttl then do
    goRenew
    enterFn
    let result ← leaveFn
    closeDone
    let _ ← g.unlock key
    return result
  else do
    enterFn
    let result ← leaveFn
    let _ ← g.unlock key
    return result

def withLock (g : GormLock) (key : String) (ttl : ℤ) (attempts : ℕ) :
    LockProg (Except Failure Unit) := do
  let locked ← g.lock key ttl attempts
  match locked with
  | .error e => return .error (wrapped "failed to acquire lock" e)
  | .ok () => g.runLocked key ttl

def cleanupExpiredLocks (_ : GormLock) : LockProg (Except Failure Unit) := do
  let now ← timeNow
  let deleted ← deleteExpired now
  match deleted with
  | .error e => return .error (wrapped "failed to cleanup expired locks" e)
  | .ok () => return .ok ()

end GormLock

/-! ## Any number of calls -/

section System

variable {C : Type} [DecidableEq C]

/-- What a thread runs; its loops are entered at most `rounds` times. -/
def Thread.program (cfg : C → Call) (rounds : Thread C → ℕ) (t : Thread C) :
    LockProg (Except Failure Unit) :=
  match t with
  | .call c => (cfg c).g.withLock (cfg c).key (cfg c).ttl (rounds t)
  | .renewer c => do
    awaitStart
    (cfg c).g.autoRenew (cfg c).key (cfg c).ttl (rounds t)
    return .ok ()
  | .cleaner c => (cfg c).g.cleanupExpiredLocks

/-- The clock goes on. -/
def Tick (s s' : World C) : Prop := ∃ t, s.now ≤ t ∧ s' = { s with now := t }

/-- The threads over the table. Each one runs once. -/
def lockThreads (C : Type) [DecidableEq C] :
    PoolSystem LockOp LockOp.Res (Except Failure Unit) (World C) (Thread C) where
  sem := LockSem
  env := Tick
  start _ _ := False

/-- A table and the threads that use it. -/
abbrev LockPool (C : Type) := Pool LockOp LockOp.Res (Except Failure Unit) (World C) (Thread C)

/-- No thread has taken a step, whatever the table holds. -/
structure NewCalls (cfg : C → Call) (P : LockPool C) : Prop where
  /-- The threads are at the beginning of their programs. -/
  threads : ∃ rounds, P.threads = Thread.program cfg rounds
  lease : ∀ c, P.state.lease c = none

end System

end DubboAdmin.Lock
