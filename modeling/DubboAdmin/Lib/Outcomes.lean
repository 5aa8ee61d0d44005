import DubboAdmin.Lib.Prog

/-!
# Outcomes of a program run alone

Where the operations may answer in several ways, a program that runs alone may end in several ways
(`Prog.Runs`). `Prog.Ensures` asks that every one of its ends meets a postcondition. It is proved
along the program (`Ensures.perform`, `Ensures.bind`), so that each program needs one lemma about
what it ensures, which the programs that call it cite. `Prog.EnsuresOk` is the same for a program
that may end with an error, where the postcondition is asked for its other ends only. `Prog.logged`
keeps a log of the operations and their answers beside the state.
-/

namespace DubboAdmin.Prog

variable {Op : Type} {Res : Op → Type} {α β S : Type}

/-- The program, run alone from the first state, may end with the result in the last state. -/
inductive Runs (sem : S → (o : Op) → Res o → S → Prop) : Prog Op Res α → S → α → S → Prop
  /-- The program has ended. -/
  | ret (a : α) (s : S) : Runs sem (.ret a) s a s
  /-- The next operation gives an answer, and the program goes on with it. -/
  | op {o : Op} {k : Res o → Prog Op Res α} {s s₁ s₂ : S} {r : Res o} {a : α}
      (hsem : sem s o r s₁) (hrest : Runs sem (k r) s₁ a s₂) : Runs sem (.op o k) s a s₂

/-- However the program, run alone from the state, ends, the postcondition holds. -/
def Ensures (sem : S → (o : Op) → Res o → S → Prop) (post : α → S → Prop) :
    Prog Op Res α → S → Prop
  | .ret a, s => post a s
  | .op o k, s => ∀ r s₁, sem s o r s₁ → Ensures sem post (k r) s₁

/-- An execution by a step function is a run, where the steps are. -/
theorem runs_exec {sem : S → (o : Op) → Res o → S → Prop} {step : S → (o : Op) → Res o × S}
    (hstep : ∀ s o, sem s o (step s o).1 (step s o).2) (p : Prog Op Res α) (s : S) :
    Runs sem p s (exec step p s).1 (exec step p s).2 := by
  induction p generalizing s with
  | ret a => exact .ret a s
  | op o k ih => exact .op (hstep s o) (ih _ _)

/-- Operations with their answers, in the order in which they were taken. -/
abbrev Log (Op : Type) (Res : Op → Type) := List ((o : Op) × Res o)

/-- The operations, where each is logged with its answer. -/
def logged (sem : S → (o : Op) → Res o → S → Prop) (x : S × Log Op Res) (o : Op) (r : Res o)
    (x' : S × Log Op Res) : Prop :=
  sem x.1 o r x'.1 ∧ x'.2 = x.2 ++ [⟨o, r⟩]

/-- The operations, computed and logged. -/
def loggedStep (step : S → (o : Op) → Res o × S) (x : S × Log Op Res) (o : Op) :
    Res o × (S × Log Op Res) :=
  ((step x.1 o).1, (step x.1 o).2, x.2 ++ [⟨o, (step x.1 o).1⟩])

/-- Every run has a log. -/
theorem Runs.logged {sem : S → (o : Op) → Res o → S → Prop} {p : Prog Op Res α} {s s' : S} {a : α}
    (h : Runs sem p s a s') (log : Log Op Res) :
    ∃ log', Runs (logged sem) p (s, log) a (s', log') := by
  induction h generalizing log with
  | ret a s => exact ⟨log, .ret a (s, log)⟩
  | @op o k s s₁ s₂ r a hsem _ ih =>
    obtain ⟨log', hrest⟩ := ih (log ++ [⟨o, r⟩])
    exact ⟨log', .op ⟨hsem, rfl⟩ hrest⟩

section Ensures

variable {sem : S → (o : Op) → Res o → S → Prop} {p : Prog Op Res α} {s : S}

/-- What is ensured holds at the end of a run. -/
theorem Ensures.of_runs {post : α → S → Prop} (h : Ensures sem post p s) {a : α} {s' : S}
    (hruns : Runs sem p s a s') : post a s' := by
  induction hruns with
  | ret a s => exact h
  | op hsem _ ih => exact ih (h _ _ hsem)

/-- The rule for a single operation. -/
theorem Ensures.perform {o : Op} {post : Res o → S → Prop}
    (h : ∀ r s₁, sem s o r s₁ → post r s₁) : Ensures sem post (Prog.perform o) s :=
  fun r s₁ hsem => h r s₁ hsem

/-- The rule for two programs in sequence. -/
theorem Ensures.bind {mid : α → S → Prop} {post : β → S → Prop} {f : α → Prog Op Res β}
    (hp : Ensures sem mid p s) (hf : ∀ a s₁, mid a s₁ → Ensures sem post (f a) s₁) :
    Ensures sem post (p >>= f) s := by
  induction p generalizing s with
  | ret a => exact hf a s hp
  | op o k ih => exact fun r s₁ hsem => ih r (hp r s₁ hsem)

end Ensures

/-! ## Programs that may end with an error -/

section EnsuresOk

variable {ε : Type} {sem : S → (o : Op) → Res o → S → Prop} {p : ExceptT ε (Prog Op Res) α} {s : S}

/-- However the program, run alone from the state, ends without an error, the postcondition
holds. -/
def EnsuresOk (sem : S → (o : Op) → Res o → S → Prop) (post : α → S → Prop)
    (p : ExceptT ε (Prog Op Res) α) (s : S) : Prop :=
  Ensures sem (fun result s' => ∀ a, result = .ok a → post a s') p.run s

/-- What is ensured holds at an end without an error. -/
theorem EnsuresOk.of_runs {post : α → S → Prop} (h : EnsuresOk sem post p s) {a : α} {s' : S}
    (hruns : Runs sem p.run s (.ok a) s') : post a s' :=
  Ensures.of_runs h hruns a rfl

/-- The rule for a result. -/
theorem EnsuresOk.pure {post : α → S → Prop} {a : α} (h : post a s) :
    EnsuresOk (ε := ε) sem post (pure a) s := by
  intro b hb
  cases hb
  exact h

/-- The rule for an error. -/
theorem EnsuresOk.throw {post : α → S → Prop} (e : ε) :
    EnsuresOk sem post (throw e : ExceptT ε (Prog Op Res) α) s := by
  intro b hb
  cases hb

/-- The postcondition may be weakened. -/
theorem EnsuresOk.mono {post post' : α → S → Prop} (h : EnsuresOk sem post p s)
    (hpost : ∀ a s', post a s' → post' a s') : EnsuresOk sem post' p s := by
  unfold EnsuresOk at h ⊢
  generalize p.run = q at h ⊢
  induction q generalizing s with
  | ret result => exact fun a ha => hpost a s (h a ha)
  | op o k ih => exact fun r s₁ hsem => ih r (h r s₁ hsem)

/-- The rule for two programs in sequence, the second of which an error skips. -/
theorem EnsuresOk.bind {mid : α → S → Prop} {post : β → S → Prop}
    {f : α → ExceptT ε (Prog Op Res) β} (hp : EnsuresOk sem mid p s)
    (hf : ∀ a s₁, mid a s₁ → EnsuresOk sem post (f a) s₁) : EnsuresOk sem post (p >>= f) s := by
  have hbind : (p >>= f).run = p.run >>= ExceptT.bindCont f := rfl
  unfold EnsuresOk
  rw [hbind]
  refine Ensures.bind hp fun result s₁ hmid => ?_
  cases result with
  | ok a => exact hf a s₁ (hmid a rfl)
  | error e => exact fun b hb => nomatch hb

end EnsuresOk

end DubboAdmin.Prog
