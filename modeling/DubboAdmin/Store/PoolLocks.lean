import DubboAdmin.Store.ConnectionPool
import Mathlib.Data.Fintype.Defs

/-!
# The locks of the connection pools

Threads call the functions of `pkg/store/dbcommon/connection_pool.go` in any order, on any pools.
The registry has a readers-writer mutex, and each pool has one. The phase of a thread says which
locks it has and which lock it is about to take.

`GetGlobalDB` takes the mutex of a pool while it reads the registry, and `Close` takes the mutex of
the registry while it has the one of its pool, so they can wait for each other (`close_deadlocks`),
and nothing else can (`no_deadlock`).
-/

namespace DubboAdmin.Dbcommon.Locks

/-- What is read and written of a `ConnectionPool`. -/
structure Pool where
  storeType : StoreType
  address : String
  refCount : ℤ := 1
  closeOnce : Bool := false
  closed : Bool := false

/-- The pools that were created, by number, and the registry. -/
structure Registry where
  all : List Pool := []
  pools : List (String × ℕ) := []

/-- The count of a pool is written. -/
def Registry.setCount (r : Registry) (id : ℕ) (n : ℤ) : Registry :=
  { r with all := r.all.modify id ({ · with refCount := n }) }

/-- The mutexes. -/
inductive Lock where
  | poolsMutex
  | mu (id : ℕ)
deriving DecidableEq

/-- How a mutex is taken. -/
inductive Mode where
  | read
  | write
deriving DecidableEq

/-- The calls of the threads. -/
inductive Call where
  /-- The flag says that the database can be opened. -/
  | getOrCreatePool (storeType : StoreType) (address : String) (opens : Bool)
  | getGlobalDB (storeType : StoreType)
  | getDB (id : ℕ)
  | incrementRef (id : ℕ)
  | close (id : ℕ)
deriving DecidableEq

/-- Where a thread is. -/
inductive Phase where
  | idle
  /-- Before the first lock of the call. -/
  | calling (c : Call)
  | getting (storeType : StoreType) (address : String) (opens : Bool)
  /-- `GetOrCreatePool` has read the count of the pool that it found. -/
  | got (id : ℕ) (n : ℤ)
  | incrementing (id : ℕ)
  | incremented (id : ℕ) (n : ℤ)
  | closing (id : ℕ)
  /-- `Close` has read the count. -/
  | decrementing (id : ℕ) (n : ℤ)
  | comparing (id : ℕ)
  /-- `Close` is about to lock the registry in `RemovePool`. -/
  | removing (id : ℕ)
  | deleting (id : ℕ)
  | closeReturns (id : ℕ)
  | reading (id : ℕ)
  | scanning (storeType : StoreType)
  /-- `GetGlobalDB` is about to lock the pool in `GetDB`. -/
  | found (id : ℕ)
  | readingGlobal (id : ℕ)
  | globalReturns
deriving DecidableEq

namespace Phase

/-- The locks that the thread has. -/
def held : Phase → List (Lock × Mode)
  | idle | calling _ => []
  | getting _ _ _ | got _ _ => [(.poolsMutex, .write)]
  | incrementing id | incremented id _ | closing id | decrementing id _ | comparing id
  | removing id | closeReturns id => [(.mu id, .write)]
  | deleting id => [(.mu id, .write), (.poolsMutex, .write)]
  | reading id => [(.mu id, .read)]
  | scanning _ | found _ | globalReturns => [(.poolsMutex, .read)]
  | readingGlobal id => [(.poolsMutex, .read), (.mu id, .read)]

/-- The lock that the thread is about to take. `GetOrCreatePool` refuses the memory type first. -/
def wants : Phase → Option (Lock × Mode)
  | calling (.getOrCreatePool storeType _ _) =>
    if storeType = .memory then none else some (.poolsMutex, .write)
  | calling (.getGlobalDB _) => some (.poolsMutex, .read)
  | calling (.getDB id) | found id => some (.mu id, .read)
  | calling (.incrementRef id) | calling (.close id) => some (.mu id, .write)
  | removing _ => some (.poolsMutex, .write)
  | _ => none

/-- The pool whose count the thread is about to compare in `Close`. -/
def compares : Phase → Option ℕ
  | comparing id => some id
  | _ => none

end Phase

/-- `poolKey` begins with the type and a colon. -/
def ofType (storeType : StoreType) (poolKey : String) : Bool :=
  (storeType.text ++ ":").toList.isPrefixOf poolKey.toList

/-- The next step of a thread. The loop of `GetGlobalDB` comes to the pools in any order: `pick` is
the one it finds. Where the connections of a pool are closed, the pool is closed, also if that
fails. -/
def Phase.next (r : Registry) (pick : Option ℕ) : Phase → Option (Registry × Phase)
  | .idle => none
  | .calling (.getOrCreatePool storeType address opens) =>
    some (r, if storeType = .memory then .idle else .getting storeType address opens)
  | .getting storeType address opens =>
    match r.pools.lookup (poolKeyOf storeType address) with
    | some id => (r.all[id]?).map fun p => (r, .got id p.refCount)
    | none =>
      if opens then
        some (⟨r.all ++ [{ storeType, address }],
          (poolKeyOf storeType address, r.all.length) :: r.pools⟩, .idle)
      else some (r, .idle)
  | .got id n => some (r.setCount id (n + 1), .idle)
  | .calling (.getGlobalDB storeType) => some (r, .scanning storeType)
  | .scanning storeType =>
    match pick with
    | some id =>
      if ∃ entry ∈ r.pools, entry.2 = id ∧ ofType storeType entry.1 then some (r, .found id)
      else none
    | none =>
      if ∃ entry ∈ r.pools, ofType storeType entry.1 then none else some (r, .globalReturns)
  | .found id => some (r, .readingGlobal id)
  | .readingGlobal _ => some (r, .globalReturns)
  | .globalReturns => some (r, .idle)
  | .calling (.getDB id) => (r.all[id]?).map fun _ => (r, .reading id)
  | .reading _ => some (r, .idle)
  | .calling (.incrementRef id) => (r.all[id]?).map fun _ => (r, .incrementing id)
  | .incrementing id => (r.all[id]?).map fun p => (r, .incremented id p.refCount)
  | .incremented id n => some (r.setCount id (n + 1), .idle)
  | .calling (.close id) => (r.all[id]?).map fun _ => (r, .closing id)
  | .closing id => (r.all[id]?).map fun p =>
    (r, if p.closed then .closeReturns id else .decrementing id p.refCount)
  | .decrementing id n => some (r.setCount id (n - 1), .comparing id)
  | .comparing id => (r.all[id]?).map fun p =>
    if p.refCount ≤ 0 ∧ p.closeOnce = false then
      ({ r with all := r.all.modify id ({ · with closeOnce := true, closed := true }) },
        .removing id)
    else (r, .closeReturns id)
  | .removing id => some (r, .deleting id)
  | .deleting id => (r.all[id]?).map fun p =>
    ({ r with pools := r.pools.filter (·.1 ≠ poolKeyOf p.storeType p.address) }, .closeReturns id)
  | .closeReturns _ => some (r, .idle)

/-- The threads `T`, with what they share. -/
structure State (T : Type) where
  registry : Registry := {}
  phase : T → Phase := fun _ => .idle

/-- A thread calls or goes on. -/
inductive Act (T : Type) where
  | call (t : T) (c : Call)
  /-- The thread goes on with its call. -/
  | go (t : T) (pick : Option ℕ)

namespace State

variable {T : Type} [Fintype T] [DecidableEq T]

/-- No other thread has the lock, or all have it to read. -/
def Free (s : State T) (t : T) (want : Lock × Mode) : Prop :=
  ∀ u, u ≠ t → ∀ has ∈ (s.phase u).held, has.1 = want.1 → want.2 = .read ∧ has.2 = .read

/-- Whether a lock is free can be computed. -/
instance (s : State T) (t : T) (want : Lock × Mode) : Decidable (s.Free t want) :=
  inferInstanceAs (Decidable (∀ u, u ≠ t → ∀ has ∈ (s.phase u).held, _))

/-- The state after a step, where it can be taken. -/
def next (s : State T) : Act T → Option (State T)
  | .call t c =>
    if s.phase t = .idle then some { s with phase := Function.update s.phase t (.calling c) }
    else none
  | .go t pick =>
    if ∀ want ∈ (s.phase t).wants, s.Free t want then
      ((s.phase t).next s.registry pick).map fun (registry, phase) =>
        ⟨registry, Function.update s.phase t phase⟩
    else none

def Step (s : State T) (a : Act T) (s' : State T) : Prop := s.next a = some s'

/-- Some threads wait, each for a lock that another one of them has. A thread waits from where it is
about to take a lock, so that a reader behind a waiting writer is among them. -/
def Deadlock (s : State T) : Prop :=
  ∃ D : Set T, D.Nonempty ∧ ∀ t ∈ D, ∃ want ∈ (s.phase t).wants,
    ∃ u ∈ D, u ≠ t ∧ ∃ has ∈ (s.phase u).held, has.1 = want.1

/-- `Close` compares the count of a pool that `GetGlobalDB` is not about to read, and `GetGlobalDB`
finds a pool that is not about to be removed. -/
def Apart (s : State T) : Act T → Prop
  | .call _ _ => True
  | .go t pick => ∀ u, (∀ id ∈ (s.phase t).compares, s.phase u ≠ .found id) ∧
    ∀ id ∈ pick, s.phase u ≠ .removing id

/-- A run can be checked. -/
instance (s : State T) : (a : Act T) → Decidable (s.Apart a)
  | .call _ _ => inferInstanceAs (Decidable True)
  | .go t pick => inferInstanceAs (Decidable (∀ u, (∀ id ∈ (s.phase t).compares, _) ∧
      ∀ id ∈ pick, s.phase u ≠ .removing id))

end State

/-! ## Threads that wait -/

/-- A thread that waits while it has a lock is in `GetGlobalDB` or in `RemovePool`. -/
theorem Phase.waits_holding {phase : Phase} {has want : Lock × Mode} (hhas : has ∈ phase.held)
    (hwant : want ∈ phase.wants) :
    (∃ id, phase = .found id ∧ has.1 = .poolsMutex ∧ want.1 = .mu id) ∨
      ∃ id, phase = .removing id ∧ has.1 = .mu id ∧ want.1 = .poolsMutex := by
  cases phase <;> simp_all [Phase.held, Phase.wants]
  all_goals subst hwant; trivial

/-- The step to a wait for a pool picks the pool, and that to a wait for the registry comes from the
comparison of the count. -/
theorem Phase.next_waits {phase phase' : Phase} {r r' : Registry} {pick : Option ℕ} {id : ℕ}
    (h : phase.next r pick = some (r', phase')) :
    (phase' = .found id → id ∈ pick) ∧ (phase' = .removing id → phase = .comparing id) := by
  cases phase with
  | scanning storeType =>
    cases pick with
    | none =>
      cases (Option.ite_none_left_eq_some.mp h).2
      simp
    | some id' =>
      cases (Option.ite_none_right_eq_some.mp h).2
      simp
  | calling c => cases c <;> grind [Phase.next]
  | _ => grind [Phase.next]

variable {T : Type} {s s' : State T}

/-- No pool is about to be removed that `GetGlobalDB` is about to read. -/
def State.Inv (s : State T) : Prop := ∀ t u id, s.phase t = .found id → s.phase u ≠ .removing id

/-- A pool is about to be removed that `GetGlobalDB` is about to read: the two threads wait for each
other. -/
theorem State.deadlock_of_waits {t u : T} {id : ℕ} (ht : s.phase t = .found id)
    (hu : s.phase u = .removing id) : s.Deadlock := by
  have hne : u ≠ t := by
    rintro rfl
    cases ht.symm.trans hu
  refine ⟨{t, u}, ⟨t, .inl rfl⟩, ?_⟩
  rintro v (rfl | rfl)
  · refine ⟨(.mu id, .read), by rw [ht]; rfl, u, .inr rfl, hne, (.mu id, .write), ?_, rfl⟩
    rw [hu]
    exact List.mem_singleton_self _
  · refine ⟨(.poolsMutex, .write), by rw [hu]; rfl, t, .inl rfl, hne.symm, (.poolsMutex, .read), ?_,
      rfl⟩
    rw [ht]
    exact List.mem_singleton_self _

/-- Otherwise no threads wait for each other. -/
theorem State.Inv.not_deadlock (h : s.Inv) : ¬ s.Deadlock := by
  rintro ⟨D, ⟨t, ht⟩, hD⟩
  -- Who waits for the registry waits for `GetGlobalDB`, and who waits for a pool for `RemovePool`.
  have hnext (t : T) (ht : t ∈ D) : ∃ u ∈ D,
      (∃ id, s.phase u = .found id ∧ ∃ want ∈ (s.phase t).wants, want.1 = .poolsMutex) ∨
        ∃ id, s.phase u = .removing id ∧ ∃ want ∈ (s.phase t).wants, want.1 = .mu id := by
    obtain ⟨want, hwant, u, hu, -, has, hhas, hlock⟩ := hD t ht
    obtain ⟨want', hwant', -⟩ := hD u hu
    obtain ⟨id, hphase, hlock', -⟩ | ⟨id, hphase, hlock', -⟩ := Phase.waits_holding hhas hwant'
    · exact ⟨u, hu, .inl ⟨id, hphase, want, hwant, hlock.symm.trans hlock'⟩⟩
    · exact ⟨u, hu, .inr ⟨id, hphase, want, hwant, hlock.symm.trans hlock'⟩⟩
  have hfound : ∃ u ∈ D, ∃ id, s.phase u = .found id := by
    obtain ⟨u, hu, ⟨id, hphase, -⟩ | ⟨id, hphase, -⟩⟩ := hnext t ht
    · exact ⟨u, hu, id, hphase⟩
    obtain ⟨v, hv, ⟨id', hphase', -⟩ | ⟨id', -, want, hwant, hlock⟩⟩ := hnext u hu
    · exact ⟨v, hv, id', hphase'⟩
    · rw [hphase, Phase.wants, Option.mem_some_iff] at hwant
      simp [← hwant] at hlock
  obtain ⟨u, hu, id, hphase⟩ := hfound
  obtain ⟨v, -, ⟨id', -, want, hwant, hlock⟩ | ⟨id', hphase', want, hwant, hlock⟩⟩ := hnext u hu
  all_goals
    rw [hphase, Phase.wants, Option.mem_some_iff] at hwant
    subst hwant
  · cases hlock
  · obtain rfl := Lock.mu.inj hlock
    exact h u v id hphase hphase'

/-- A thread comes to a phase, and waits for no one who waits for it. -/
theorem State.Inv.set [DecidableEq T] (h : s.Inv) {t : T} {phase : Phase} {r : Registry}
    (hfound : ∀ id, phase = .found id → ∀ u, s.phase u ≠ .removing id)
    (hremoving : ∀ id, phase = .removing id → ∀ u, s.phase u ≠ .found id) :
    State.Inv ⟨r, Function.update s.phase t phase⟩ := by
  intro v u id hv hu
  dsimp only at hv hu
  rw [Function.update_apply] at hv hu
  split_ifs at hv hu
  · cases hv.symm.trans hu
  · exact hfound id hv u hu
  · exact hremoving id hu v hv
  · exact h v u id hv hu

variable [Fintype T] [DecidableEq T]

/-- One step of any thread. -/
theorem State.Inv.step {a : Act T} (h : s.Inv) (hgood : s.Apart a) (hstep : s.next a = some s') :
    s'.Inv := by
  cases a with
  | call t c =>
    obtain ⟨-, hs'⟩ := Option.ite_none_right_eq_some.mp hstep
    cases hs'
    exact h.set (fun _ hid => (by cases hid)) fun _ hid => (by cases hid)
  | go t pick =>
    obtain ⟨-, hs'⟩ := Option.ite_none_right_eq_some.mp hstep
    obtain ⟨⟨r, phase⟩, hnext, rfl⟩ := Option.map_eq_some_iff.mp hs'
    refine h.set (fun id hid u => ?_) fun id hid u => ?_
    · subst hid
      exact (hgood u).2 id ((Phase.next_waits hnext).1 rfl)
    · subst hid
      exact (hgood u).1 id (congrArg Phase.compares ((Phase.next_waits hnext).2 rfl))

/-- Threads wait for each other if and only if `GetGlobalDB` is about to read a pool that `Close` is
about to remove. In every run in which the two keep apart, no threads wait for each other. -/
theorem no_deadlock (s : State T) :
    (s.Deadlock ↔ ∃ t u id, s.phase t = .found id ∧ s.phase u = .removing id) ∧
      ∀ acts, Run (Guarded State.Apart State.Step) {} acts s → ¬ s.Deadlock := by
  constructor
  · refine ⟨fun h => ?_, fun ⟨t, u, id, ht, hu⟩ => State.deadlock_of_waits ht hu⟩
    by_contra hapart
    exact State.Inv.not_deadlock (fun t u id ht hu => hapart ⟨t, u, id, ht, hu⟩) h
  · intro acts hrun
    have hinv : s.Inv := by
      refine hrun.invariant State.Inv (fun t u id ht => (by cases ht)) fun s a s' hs hstep => ?_
      exact hs.step hstep.1 hstep.2
    exact hinv.not_deadlock

/-- A thread creates a pool. -/
def create : List (Act Bool) :=
  [.call true (.getOrCreatePool .mysql "db" true), .go true none, .go true none]

/-- The other thread reads the database of the pool, and the first one then closes the pool. -/
def inTurn : List (Act Bool) :=
  create ++ [.call false (.getGlobalDB .mysql), .go false none, .go false (some 0),
    .go false none, .go false none, .go false none, .call true (.close 0)] ++
    List.replicate 7 (.go true none)

/-- The two threads take turns. -/
theorem no_deadlock_in_turn :
    ∃ s, Run (Guarded State.Apart State.Step) {} inTurn s ∧ ¬ s.Deadlock := by
  obtain ⟨s, hs⟩ : ∃ s, inTurn.foldlM (fun s a => if State.Apart s a then s.next a else none) {} =
      some s := ⟨_, rfl⟩
  have hrun := Run.of_foldlM (Guarded.of_next fun _ _ _ h => h) hs
  exact ⟨s, hrun, (no_deadlock s).2 _ hrun⟩

/-- `GetGlobalDB` waits for the pool that `Close` has locked, and `Close` for the registry. -/
theorem close_deadlocks : ∃ s : State Bool, Run State.Step {}
    (create ++ [.call false (.getGlobalDB .mysql), .go false none, .go false (some 0),
      .call true (.close 0)] ++ List.replicate 4 (.go true none)) s ∧ s.Deadlock ∧
      ∀ t pick, s.next (.go t pick) = none := by
  refine ⟨_, Run.of_foldlM (fun _ _ _ h => h) rfl, ?_, ?_⟩
  · exact State.deadlock_of_waits (t := false) (u := true) rfl rfl
  · rintro (_ | _) pick <;> rfl

end DubboAdmin.Dbcommon.Locks
