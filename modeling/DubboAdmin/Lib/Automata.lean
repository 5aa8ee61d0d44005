import DubboAdmin.Lib.Outcomes

/-!
# Programs that follow an automaton

An automaton over the operations of a program and their answers says in which order a program may
take them. `Obeys` says that a program takes only steps of the automaton, whatever it is answered,
and that its result agrees with the phase it ends in. No state is involved, so that a program is
examined once and the fact is used wherever it runs: alone (`Obeys.runs`) and among other threads
(`pool_obeying`), with an invariant that relates the phases to the state.
-/

namespace DubboAdmin

variable {Op : Type} {Res : Op → Type} {Ph S ι ε α β : Type}

/-- An order in which operations may be taken. -/
structure Automaton (Op : Type) (Res : Op → Type) (Ph : Type) where
  possible : (o : Op) → Res o → Prop
  /-- The operation may be taken in a phase, and its answer leads to another one. -/
  step : Ph → (o : Op) → Res o → Ph → Prop

/-- From the phase on, the program takes only steps of the automaton, and where it ends its result
agrees with the phase. -/
def Obeys (A : Automaton Op Res Ph) (post : Ph → α → Prop) : Prog Op Res α → Ph → Prop
  | .ret a, ph => post ph a
  | .op o k, ph => ∀ r, A.possible o r → ∃ ph', A.step ph o r ph' ∧ Obeys A post (k r) ph'

section Obeys

variable {A : Automaton Op Res Ph} {ph : Ph}

theorem Obeys.perform {o : Op} {post : Ph → Res o → Prop}
    (h : ∀ r, A.possible o r → ∃ ph', A.step ph o r ph' ∧ post ph' r) :
    Obeys A post (Prog.perform o) ph :=
  h

theorem Obeys.imp {post post' : Ph → α → Prop} {p : Prog Op Res α} (h : Obeys A post p ph)
    (hpost : ∀ ph a, post ph a → post' ph a) : Obeys A post' p ph := by
  induction p generalizing ph with
  | ret a => exact hpost ph a h
  | op o k ih =>
    intro r hr
    obtain ⟨ph', hstep, hk⟩ := h r hr
    exact ⟨ph', hstep, ih r hk⟩

theorem Obeys.bind {mid : Ph → α → Prop} {post : Ph → β → Prop} {p : Prog Op Res α}
    {f : α → Prog Op Res β} (hp : Obeys A mid p ph)
    (hf : ∀ a ph', mid ph' a → Obeys A post (f a) ph') : Obeys A post (p >>= f) ph := by
  induction p generalizing ph with
  | ret a => exact hf a ph hp
  | op o k ih =>
    intro r hr
    obtain ⟨ph', hstep, hk⟩ := hp r hr
    exact ⟨ph', hstep, ih r hk⟩

/-- A program that may return an error follows the automaton, and its result agrees with the phase
where it is not an error. -/
def ObeysOk (A : Automaton Op Res Ph) (post : Ph → α → Prop) (p : ExceptT ε (Prog Op Res) α)
    (ph : Ph) : Prop :=
  Obeys A (fun ph r => ∀ a, r = .ok a → post ph a) p.run ph

theorem ObeysOk.pure {post : Ph → α → Prop} {a : α} (h : post ph a) :
    ObeysOk (ε := ε) A post (Pure.pure a) ph := by
  intro a' ha'
  cases ha'
  exact h

theorem ObeysOk.throw {post : Ph → α → Prop} (e : ε) :
    ObeysOk A post (MonadExcept.throw e : ExceptT ε (Prog Op Res) α) ph := by
  intro a ha
  cases ha

theorem ObeysOk.bind {mid : Ph → α → Prop} {post : Ph → β → Prop} {p : ExceptT ε (Prog Op Res) α}
    {f : α → ExceptT ε (Prog Op Res) β} (hp : ObeysOk A mid p ph)
    (hf : ∀ a ph', mid ph' a → ObeysOk A post (f a) ph') : ObeysOk A post (p >>= f) ph := by
  refine Obeys.bind hp fun r ph' hr => ?_
  cases r with
  | ok a => exact hf a ph' (hr a rfl)
  | error e => exact ObeysOk.throw e

end Obeys

/-! ## Running such programs -/

/-- What holds of the phase and the state at the start, and is kept by every step, holds at each end
of the program. -/
theorem Obeys.runs {A : Automaton Op Res Ph} {post : Ph → α → Prop}
    {sem : S → (o : Op) → Res o → S → Prop} (Inv : Ph → S → Prop)
    (hpossible : ∀ s o r s', sem s o r s' → A.possible o r)
    (hstep : ∀ ph s o r s' ph', Inv ph s → sem s o r s' → A.step ph o r ph' → Inv ph' s')
    {p : Prog Op Res α} {ph : Ph} (hp : Obeys A post p ph) {s s' : S} {a : α}
    (hruns : p.Runs sem s a s') (hinv : Inv ph s) : ∃ ph', post ph' a ∧ Inv ph' s' := by
  induction hruns generalizing ph with
  | ret a s => exact ⟨ph, hp, hinv⟩
  | op hsem _ ih =>
    obtain ⟨ph', hph', hk⟩ := hp _ (hpossible _ _ _ _ hsem)
    exact ih hk (hstep _ _ _ _ _ _ hinv hsem hph')

/-- Each thread of the pool follows the automaton from a phase of its own, and the phases and the
state are related. -/
def Pool.Obeying (A : Automaton Op Res Ph) (post : Ph → α → Prop) (Inv : (ι → Ph) → S → Prop)
    (P : Pool Op Res α S ι) : Prop :=
  ∃ phases : ι → Ph, Inv phases P.state ∧ ∀ i, Obeys A post (P.threads i) (phases i)

/-- In every interleaving whose operations meet `good`, the threads go on to follow the automaton,
with the invariant, where each of their steps and each change of the environment keeps it, and a
program that is started follows the automaton from a phase of its own. -/
theorem pool_obeying [DecidableEq ι] {A : Automaton Op Res Ph} {post : Ph → α → Prop}
    {sys : PoolSystem Op Res α S ι} {good : ι → S → Op → Prop} (Inv : (ι → Ph) → S → Prop)
    (henv : ∀ phases s s', Inv phases s → sys.env s s' → Inv phases s')
    (hstart : ∀ phases s i a p, Inv phases s → post (phases i) a → sys.start i p →
      ∃ ph, Obeys A post p ph ∧ Inv (Function.update phases i ph) s)
    (hpossible : ∀ i s o r s', sys.sem i s o r s' → A.possible o r)
    (hstep : ∀ phases s i o r s' ph', Inv phases s → good i s o → sys.sem i s o r s' →
      A.step (phases i) o r ph' → Inv (Function.update phases i ph') s')
    {P₀ P : Pool Op Res α S ι} {acts : List (PoolAct ι)} (h₀ : P₀.Obeying A post Inv)
    (hrun : Run (Guarded (OpGuard good) (PoolStep sys)) P₀ acts P) : P.Obeying A post Inv := by
  refine hrun.invariant (Pool.Obeying A post Inv) h₀ fun P act P' hP hact => ?_
  obtain ⟨phases, hinv, hobeys⟩ := hP
  obtain ⟨hgood, hact⟩ := hact
  -- The phases of the threads after one of them has gone to another phase.
  have hothers : ∀ {i : ι} {p : Prog Op Res α} {ph : Ph}, Obeys A post p ph → ∀ j,
      Obeys A post (Function.update P.threads i p j) (Function.update phases i ph j) := by
    intro i p ph hp j
    by_cases hj : j = i
    · subst hj
      rw [Function.update_self, Function.update_self]
      exact hp
    · rw [Function.update_of_ne hj, Function.update_of_ne hj]
      exact hobeys j
  cases hact with
  | @thread i o k r s hthread hsem =>
    have hi := hobeys i
    rw [hthread] at hi
    obtain ⟨ph', hph', hk⟩ := hi r (hpossible i _ o r s hsem)
    exact ⟨Function.update phases i ph',
      hstep phases _ i o r s ph' hinv (hgood i o k rfl hthread) hsem hph', hothers hk⟩
  | @start i a p hthread hp =>
    have hi := hobeys i
    rw [hthread] at hi
    obtain ⟨ph, hobeys', hinv'⟩ := hstart phases _ i a p hinv hi hp
    exact ⟨Function.update phases i ph, hinv', hothers hobeys'⟩
  | @env s henv' => exact ⟨phases, henv phases _ s hinv henv', hobeys⟩

end DubboAdmin
