import DubboAdmin.Lib.Runs
import Mathlib.Logic.Relation

/-!
# Programs over atomic operations

A program asks for atomic operations one after the other and goes on with their answers (`Prog`). A
`Pool` holds one program per thread over a shared state, and its runs are all interleavings of its
threads (`PoolStep`).

`Safe` is the rule for one thread of a pool: whatever the others do between its operations, within
what the thread relies on, each of its operations keeps the invariant and what the other threads
rely on, and where it ends its postcondition holds. A pool of safe threads keeps the invariant in
every interleaving (`pool_safe`).
-/

namespace DubboAdmin

/-- A program over the operations `Op`, with an answer of type `Res o` to the operation `o`. -/
inductive Prog (Op : Type) (Res : Op → Type) (α : Type) : Type where
  /-- The program has ended with a result. -/
  | ret (a : α)
  /-- The next operation, and how the program goes on with its answer. -/
  | op (o : Op) (k : Res o → Prog Op Res α)

namespace Prog

variable {Op : Type} {Res : Op → Type} {α β S : Type}

/-- The program `p`, and then the program that its result selects. -/
protected def bind : Prog Op Res α → (α → Prog Op Res β) → Prog Op Res β
  | .ret a, f => f a
  | .op o k, f => .op o fun r => (k r).bind f

/-- A program goes on with the result of another. -/
instance : Monad (Prog Op Res) where
  pure := .ret
  bind := Prog.bind

/-- One operation, as a program that returns its answer. -/
def perform (o : Op) : Prog Op Res (Res o) := .op o .ret

/-- The program run alone, from a state, over operations that answer and change the state. -/
def exec (step : S → (o : Op) → Res o × S) : Prog Op Res α → S → α × S
  | .ret a, s => (a, s)
  | .op o k, s => exec step (k (step s o).1) (step s o).2

theorem exec_bind (step : S → (o : Op) → Res o × S) (p : Prog Op Res α) (f : α → Prog Op Res β)
    (s : S) : exec step (p >>= f) s = exec step (f (exec step p s).1) (exec step p s).2 := by
  induction p generalizing s with
  | ret a => rfl
  | op o k ih => exact ih _ _

section ExceptT

variable {ε : Type} {step : S → (o : Op) → Res o × S} {p : ExceptT ε (Prog Op Res) α} {s s' : S}

theorem exec_bind_ok {a : α} (h : exec step p.run s = (.ok a, s'))
    (k : α → ExceptT ε (Prog Op Res) β) :
    exec step (p >>= k).run s = exec step (k a).run s' := by
  have hbind : (p >>= k).run = p.run >>= ExceptT.bindCont k := rfl
  rw [hbind, exec_bind, h]
  rfl

theorem exec_bind_error {e : ε} (h : exec step p.run s = (.error e, s'))
    (k : α → ExceptT ε (Prog Op Res) β) :
    exec step (p >>= k).run s = (.error e, s') := by
  have hbind : (p >>= k).run = p.run >>= ExceptT.bindCont k := rfl
  rw [hbind, exec_bind, h]
  rfl

end ExceptT

end Prog

/-! ## Pools of threads -/

variable {Op : Type} {Res : Op → Type} {α β S ι : Type}

/-- What the threads of a pool run on. -/
structure PoolSystem (Op : Type) (Res : Op → Type) (α S ι : Type) where
  /-- The thread's operation, in a state, may give the answer and leave the other state. -/
  sem : ι → S → (o : Op) → Res o → S → Prop
  env : S → S → Prop
  /-- The thread, when its program has ended, may start another one. -/
  start : ι → Prog Op Res α → Prop

/-- A shared state, and a program for each thread. -/
structure Pool (Op : Type) (Res : Op → Type) (α S ι : Type) where
  state : S
  threads : ι → Prog Op Res α

/-- Who takes a step. -/
inductive PoolAct (ι : Type) where
  /-- A thread takes its next operation. -/
  | thread (i : ι)
  /-- A thread starts its next program. -/
  | start (i : ι)
  /-- The state changes without a thread. -/
  | env

/-- One step of a pool. -/
inductive PoolStep [DecidableEq ι] (sys : PoolSystem Op Res α S ι) :
    Pool Op Res α S ι → PoolAct ι → Pool Op Res α S ι → Prop
  /-- A thread takes its next operation. -/
  | thread {P : Pool Op Res α S ι} {i : ι} {o : Op} {k : Res o → Prog Op Res α} {r : Res o} {s : S}
      (hthread : P.threads i = .op o k) (hsem : sys.sem i P.state o r s) :
      PoolStep sys P (.thread i) ⟨s, Function.update P.threads i (k r)⟩
  /-- A thread that has ended starts its next program. -/
  | start {P : Pool Op Res α S ι} {i : ι} {a : α} {p : Prog Op Res α}
      (hthread : P.threads i = .ret a) (hstart : sys.start i p) :
      PoolStep sys P (.start i) ⟨P.state, Function.update P.threads i p⟩
  | env {P : Pool Op Res α S ι} {s : S} (henv : sys.env P.state s) :
      PoolStep sys P .env ⟨s, P.threads⟩

/-- The condition on a step of a pool that the operation taken, if there is one, meets `good` in
the state before it. -/
def OpGuard (good : ι → S → Op → Prop) (P : Pool Op Res α S ι) (act : PoolAct ι) : Prop :=
  ∀ i o k, act = .thread i → P.threads i = .op o k → good i P.state o

/-- One step of a pool, computed: the operations by `step`, where an operation may have to wait, a
thread's next program by `begin`, and the change of the state without a thread by `tick`. -/
def Pool.tryNext [DecidableEq ι] (step : ι → S → (o : Op) → Option (Res o × S))
    (begin : ι → Option (Prog Op Res α)) (tick : S → Option S) (P : Pool Op Res α S ι) :
    PoolAct ι → Option (Pool Op Res α S ι)
  | .thread i =>
    match P.threads i with
    | .ret _ => none
    | .op o k =>
      (step i P.state o).map fun answer => ⟨answer.2, Function.update P.threads i (k answer.1)⟩
  | .start i =>
    match P.threads i, begin i with
    | .ret _, some p => some ⟨P.state, Function.update P.threads i p⟩
    | _, _ => none
  | .env => (tick P.state).map fun s => ⟨s, P.threads⟩

/-- A computed step is a step. -/
theorem Pool.step_of_tryNext [DecidableEq ι] {sys : PoolSystem Op Res α S ι}
    {step : ι → S → (o : Op) → Option (Res o × S)} {begin : ι → Option (Prog Op Res α)}
    {tick : S → Option S} (hstep : ∀ i s o r s', step i s o = some (r, s') → sys.sem i s o r s')
    (hbegin : ∀ i p, begin i = some p → sys.start i p)
    (htick : ∀ s s', tick s = some s' → sys.env s s')
    (P : Pool Op Res α S ι) (act : PoolAct ι) (P' : Pool Op Res α S ι)
    (h : P.tryNext step begin tick act = some P') : PoolStep sys P act P' := by
  unfold Pool.tryNext at h
  cases act with
  | thread i =>
    cases hthread : P.threads i with
    | ret a => simp [hthread] at h
    | op o k =>
      simp only [hthread] at h
      obtain ⟨answer, hanswer, rfl⟩ := Option.map_eq_some_iff.mp h
      exact .thread hthread (hstep i P.state o answer.1 answer.2 hanswer)
  | start i =>
    cases hthread : P.threads i with
    | op o k => simp [hthread] at h
    | ret a =>
      cases hi : begin i with
      | none => simp [hthread, hi] at h
      | some p =>
        simp only [hthread, hi, Option.some.injEq] at h
        subst h
        exact .start hthread (hbegin i p hi)
  | env =>
    obtain ⟨s, hs, rfl⟩ := Option.map_eq_some_iff.mp h
    exact .env (htick P.state s hs)

/-- One step of a pool, computed as by `Pool.tryNext`, where no operation has to wait. -/
def Pool.next [DecidableEq ι] (step : ι → S → (o : Op) → Res o × S)
    (begin : ι → Option (Prog Op Res α)) (tick : S → Option S) (P : Pool Op Res α S ι) :
    PoolAct ι → Option (Pool Op Res α S ι) :=
  P.tryNext (fun i s o => some (step i s o)) begin tick

/-- A computed step of operations that do not wait is a step. -/
theorem Pool.step_of_next [DecidableEq ι] {sys : PoolSystem Op Res α S ι}
    {step : ι → S → (o : Op) → Res o × S} {begin : ι → Option (Prog Op Res α)}
    {tick : S → Option S} (hstep : ∀ i s o, sys.sem i s o (step i s o).1 (step i s o).2)
    (hbegin : ∀ i p, begin i = some p → sys.start i p)
    (htick : ∀ s s', tick s = some s' → sys.env s s') (P : Pool Op Res α S ι) :
    ∀ act P', P.next step begin tick act = some P' → PoolStep sys P act P' := by
  refine Pool.step_of_tryNext (fun i s o r s' h => ?_) hbegin htick P
  have hsem := hstep i s o
  rwa [Option.some.inj h] at hsem

/-- Whether the operation of a step, if it takes one, passes a check. -/
def Pool.opCheck (check : ι → S → Op → Bool) (P : Pool Op Res α S ι) : PoolAct ι → Bool
  | .thread i =>
    match P.threads i with
    | .ret _ => true
    | .op o _ => check i P.state o
  | _ => true

/-- A step computed under a check is a step that meets what the check implies. -/
theorem Pool.guarded_of_next [DecidableEq ι] {sys : PoolSystem Op Res α S ι}
    {good : ι → S → Op → Prop} {next : Pool Op Res α S ι → PoolAct ι → Option (Pool Op Res α S ι)}
    {check : ι → S → Op → Bool} (hcheck : ∀ i s o, check i s o = true → good i s o)
    (hnext : ∀ P act P', next P act = some P' → PoolStep sys P act P') (P : Pool Op Res α S ι)
    (act : PoolAct ι) (P' : Pool Op Res α S ι)
    (h : (if P.opCheck check act then next P act else none) = some P') :
    Guarded (OpGuard good) (PoolStep sys) P act P' := by
  split_ifs at h with hpass
  refine ⟨?_, hnext P act P' h⟩
  rintro i o k rfl hthread
  simp only [Pool.opCheck, hthread] at hpass
  exact hcheck i P.state o hpass

/-! ## History variables -/

/-- The system with a variable beside the state, in which the operations are noted. -/
def PoolSystem.noting {H : Type} (sys : PoolSystem Op Res α S ι) (note : ι → H → Op → H) :
    PoolSystem Op Res α (S × H) ι where
  sem i s o r s' := sys.sem i s.1 o r s'.1 ∧ s'.2 = note i s.2 o
  env s s' := sys.env s.1 s'.1 ∧ s'.2 = s.2
  start := sys.start

/-- The pool with a value of the variable. -/
def Pool.noted {H : Type} (P : Pool Op Res α S ι) (noted : H) : Pool Op Res α (S × H) ι :=
  ⟨(P.state, noted), P.threads⟩

/-! ## Safe threads -/

/-- What the threads of a pool agree on: an invariant of the shared state, and for each thread what
the steps of the others do to it. -/
structure Protocol (S ι : Type) where
  inv : S → Prop
  /-- What the thread relies on at each step of another thread. -/
  rely : ι → S → S → Prop

/-- The state `s'` may follow `s` while the thread `i` waits. -/
def Protocol.Interference (pr : Protocol S ι) (i : ι) : S → S → Prop :=
  Relation.ReflTransGen fun s s' => pr.inv s ∧ pr.inv s' ∧ pr.rely i s s'

/-- What holds of a state is kept while the thread `i` waits. -/
def Protocol.Stable (pr : Protocol S ι) (i : ι) (Q : S → Prop) : Prop :=
  ∀ s s', pr.inv s → pr.inv s' → pr.rely i s s' → Q s → Q s'

theorem Protocol.Stable.interference {pr : Protocol S ι} {i : ι} {Q : S → Prop}
    (hQ : pr.Stable i Q) {s s' : S} (h : pr.Interference i s s') (hs : Q s) : Q s' := by
  induction h with
  | refl => exact hs
  | tail _ hstep ih => exact hQ _ _ hstep.1 hstep.2.1 hstep.2.2 ih

theorem Protocol.stable_true (pr : Protocol S ι) (i : ι) : pr.Stable i fun _ => True :=
  fun _ _ _ _ _ h => h

/-- The thread `i`, with this program left to run from this state, keeps the protocol at each of its
operations, and its postcondition holds from its end on. Only operations that meet `good` are taken
into account. -/
def Safe (sys : PoolSystem Op Res α S ι) (good : ι → S → Op → Prop) (pr : Protocol S ι) (i : ι)
    (post : β → S → Prop) : Prog Op Res β → S → Prop
  | .ret a, s => ∀ s', pr.Interference i s s' → post a s'
  | .op o k, s => ∀ s₁, pr.Interference i s s₁ → pr.inv s₁ → good i s₁ o →
      ∀ r s₂, sys.sem i s₁ o r s₂ →
        pr.inv s₂ ∧ (∀ j, j ≠ i → pr.rely j s₁ s₂) ∧ Safe sys good pr i post (k r) s₂

section Safe

variable {sys : PoolSystem Op Res α S ι} {good : ι → S → Op → Prop} {pr : Protocol S ι} {i : ι}

variable {s : S}

theorem Safe.ret {post : β → S → Prop} {a : β} (hstable : pr.Stable i (post a)) (h : post a s) :
    Safe sys good pr i post (.ret a) s :=
  fun _ hs' => hstable.interference hs' h

/-- A program that ends is safe, where nothing is asked of its end. -/
theorem Safe.done {a : β} : Safe sys good pr i (fun _ _ => True) (.ret a) s :=
  fun _ _ => trivial

theorem Safe.op {post : β → S → Prop} {o : Op} {k : Res o → Prog Op Res β} (Q : S → Prop)
    (hstable : pr.Stable i Q) (hs : Q s)
    (h : ∀ s₁, Q s₁ → pr.inv s₁ → good i s₁ o → ∀ r s₂, sys.sem i s₁ o r s₂ →
      pr.inv s₂ ∧ (∀ j, j ≠ i → pr.rely j s₁ s₂) ∧ Safe sys good pr i post (k r) s₂) :
    Safe sys good pr i post (.op o k) s :=
  fun s₁ hs₁ hinv hgood => h s₁ (hstable.interference hs₁ hs) hinv hgood

/-- One operation is safe where a condition holds and is kept, under which it keeps the protocol and
its postcondition holds and is kept. -/
theorem Safe.perform {o : Op} {post : Res o → S → Prop} (Q : S → Prop) (hstable : pr.Stable i Q)
    (hpost : ∀ r, pr.Stable i (post r)) (hs : Q s)
    (h : ∀ s₁, Q s₁ → pr.inv s₁ → good i s₁ o → ∀ r s₂, sys.sem i s₁ o r s₂ →
      pr.inv s₂ ∧ (∀ j, j ≠ i → pr.rely j s₁ s₂) ∧ post r s₂) :
    Safe sys good pr i post (Prog.perform o) s := by
  refine Safe.op Q hstable hs fun s₁ hQ hinv hgood r s₂ hsem => ?_
  obtain ⟨hinv₂, hrely, hr⟩ := h s₁ hQ hinv hgood r s₂ hsem
  exact ⟨hinv₂, hrely, Safe.ret (hpost r) hr⟩

variable {p : Prog Op Res β}

theorem Safe.bind {γ : Type} {mid : β → S → Prop} {post : γ → S → Prop} {f : β → Prog Op Res γ}
    (hp : Safe sys good pr i mid p s) (hf : ∀ a s', mid a s' → Safe sys good pr i post (f a) s') :
    Safe sys good pr i post (p >>= f) s := by
  induction p generalizing s with
  | ret a => exact hf a s (hp s .refl)
  | op o k ih =>
    intro s₁ hs₁ hinv hgood r s₂ hsem
    obtain ⟨hinv₂, hrely, hk⟩ := hp s₁ hs₁ hinv hgood r s₂ hsem
    exact ⟨hinv₂, hrely, ih r hk⟩

theorem Safe.imp {post post' : β → S → Prop} (h : Safe sys good pr i post p s)
    (hpost : ∀ a s, post a s → post' a s) : Safe sys good pr i post' p s := by
  induction p generalizing s with
  | ret a => exact fun s' hs' => hpost a s' (h s' hs')
  | op o k ih =>
    intro s₁ hs₁ hinv hgood r s₂ hsem
    obtain ⟨hinv₂, hrely, hk⟩ := h s₁ hs₁ hinv hgood r s₂ hsem
    exact ⟨hinv₂, hrely, ih r hk⟩

/-- What no operation of the thread and no step of the others undoes holds at its end, too. -/
theorem Safe.frame {post : β → S → Prop} (F : S → Prop) (hstable : pr.Stable i F)
    (hsem : ∀ s₁ o r s₂, F s₁ → sys.sem i s₁ o r s₂ → F s₂) (h : Safe sys good pr i post p s)
    (hs : F s) :
    Safe sys good pr i (fun a s => post a s ∧ F s) p s := by
  induction p generalizing s with
  | ret a => exact fun s' hs' => ⟨h s' hs', hstable.interference hs' hs⟩
  | op o k ih =>
    intro s₁ hs₁ hinv hgood r s₂ hstep
    obtain ⟨hinv₂, hrely, hk⟩ := h s₁ hs₁ hinv hgood r s₂ hstep
    exact ⟨hinv₂, hrely, ih r hk (hsem s₁ o r s₂ (hstable.interference hs₁ hs) hstep)⟩

theorem Safe.interfere {post : β → S → Prop} {s' : S} (h : Safe sys good pr i post p s)
    (hinv : pr.inv s) (hinv' : pr.inv s') (hrely : pr.rely i s s') :
    Safe sys good pr i post p s' := by
  have hstep : pr.Interference i s s' := .single ⟨hinv, hinv', hrely⟩
  cases p with
  | ret _ | op _ _ => exact fun s₁ hs₁ => h s₁ (hstep.trans hs₁)

theorem Safe.post {post : β → S → Prop} {a : β} {s : S}
    (h : Safe sys good pr i post (.ret a) s) : post a s :=
  h s .refl

end Safe

/-- The invariant holds, and every thread is safe. -/
def Pool.Safe (sys : PoolSystem Op Res α S ι) (good : ι → S → Op → Prop) (pr : Protocol S ι)
    (post : ι → α → S → Prop) (P : Pool Op Res α S ι) : Prop :=
  pr.inv P.state ∧ ∀ i, DubboAdmin.Safe sys good pr i (post i) (P.threads i) P.state

section Pools

variable [DecidableEq ι] {sys : PoolSystem Op Res α S ι} {good : ι → S → Op → Prop}
  {pr : Protocol S ι} {post : ι → α → S → Prop}

/-- A step whose operation meets `good` keeps a pool of safe threads safe. -/
theorem poolStep_safe (henv : ∀ s s', pr.inv s → sys.env s s' → pr.inv s' ∧ ∀ i, pr.rely i s s')
    (hstart : ∀ i p a s, pr.inv s → sys.start i p → post i a s → Safe sys good pr i (post i) p s)
    {P P' : Pool Op Res α S ι} {act : PoolAct ι} (h : P.Safe sys good pr post)
    (hstep : Guarded (OpGuard good) (PoolStep sys) P act P') : P'.Safe sys good pr post := by
  obtain ⟨hgood, hstep⟩ := hstep
  obtain ⟨hinv, hsafe⟩ := h
  cases hstep with
  | @thread i o k r s hthread hsem =>
    have hi := hsafe i
    rw [hthread] at hi
    -- The thread itself goes on safely, and the others see a step that they rely on.
    obtain ⟨hinv', hrely, hk⟩ := hi _ .refl hinv (hgood i o k rfl hthread) r s hsem
    refine ⟨hinv', fun j => ?_⟩
    dsimp only
    by_cases hj : j = i
    · subst hj
      rw [Function.update_self]
      exact hk
    · rw [Function.update_of_ne hj]
      exact (hsafe j).interfere hinv hinv' (hrely j hj)
  | @start i a p hthread hp =>
    have hi := hsafe i
    rw [hthread] at hi
    refine ⟨hinv, fun j => ?_⟩
    dsimp only
    by_cases hj : j = i
    · subst hj
      rw [Function.update_self]
      exact hstart j p a _ hinv hp hi.post
    · rw [Function.update_of_ne hj]
      exact hsafe j
  | @env s hs =>
    obtain ⟨hinv', hrely⟩ := henv _ s hinv hs
    exact ⟨hinv', fun j => (hsafe j).interfere hinv hinv' (hrely j)⟩

theorem pool_safe (henv : ∀ s s', pr.inv s → sys.env s s' → pr.inv s' ∧ ∀ i, pr.rely i s s')
    (hstart : ∀ i p a s, pr.inv s → sys.start i p → post i a s → Safe sys good pr i (post i) p s)
    {P₀ P : Pool Op Res α S ι} {acts : List (PoolAct ι)} (h₀ : P₀.Safe sys good pr post)
    (h : Run (Guarded (OpGuard good) (PoolStep sys)) P₀ acts P) : P.Safe sys good pr post :=
  h.invariant (Pool.Safe sys good pr post) h₀ fun _ _ _ => poolStep_safe henv hstart

end Pools

end DubboAdmin
