import Mathlib.Data.List.Induction

/-!
# Runs of a transition system

A transition system is a relation `step s a s'`: taking the action `a` in the state `s` may end in
`s'`. `Run step s₀ as s` says that the actions `as`, in order, lead from `s₀` to `s`, and
`Run.invariant` is the induction over runs. `Guarded good step` keeps the steps whose state and
action meet a condition.

Concurrent processes are a list. A step of the one at `i` replaces it by the processes it leaves
behind, itself in its next phase and those it starts (`replaceAt`).
-/

namespace DubboAdmin

variable {S A : Type}

/-- The actions `as`, taken in order from `s₀`, end in the given state. -/
inductive Run (step : S → A → S → Prop) (s₀ : S) : List A → S → Prop
  | nil : Run step s₀ [] s₀
  /-- One more action at the end. -/
  | snoc {as : List A} {s s' : S} {a : A} (hrun : Run step s₀ as s) (hstep : step s a s') :
      Run step s₀ (as ++ [a]) s'

variable {step : S → A → S → Prop} {s₀ s : S} {as : List A}

theorem Run.invariant (Inv : S → Prop) (h₀ : Inv s₀)
    (hstep : ∀ s a s', Inv s → step s a s' → Inv s') (h : Run step s₀ as s) :
    Inv s := by
  induction h with
  | nil => exact h₀
  | snoc _ hs ih => exact hstep _ _ _ ih hs

theorem Run.invariant_of_mem (Inv : S → Prop) (h₀ : Inv s₀)
    (hstep : ∀ s, ∀ a ∈ as, ∀ s', Inv s → step s a s' → Inv s') (h : Run step s₀ as s) : Inv s := by
  induction h with
  | nil => exact h₀
  | snoc _ hs ih =>
    have hbefore := ih fun s a ha => hstep s a (List.mem_append_left _ ha)
    exact hstep _ _ (List.mem_append_right _ (List.mem_singleton_self _)) _ hbefore hs

/-- A run computed step by step. -/
theorem Run.of_foldlM {next : S → A → Option S} (hnext : ∀ s a s', next s a = some s' → step s a s')
    (h : as.foldlM next s₀ = some s) : Run step s₀ as s := by
  induction as using List.reverseRecOn generalizing s with
  | nil =>
    cases h
    exact .nil
  | append_singleton as a ih =>
    rw [List.foldlM_append] at h
    obtain ⟨s', hs', ha⟩ := Option.bind_eq_some_iff.mp h
    rw [List.foldlM_cons] at ha
    obtain ⟨s'', hs'', hnil⟩ := Option.bind_eq_some_iff.mp ha
    cases hnil
    exact .snoc (ih hs') (hnext _ _ _ hs'')

/-- The steps of a system whose state before and action meet the condition `good`. -/
def Guarded (good : S → A → Prop) (step : S → A → S → Prop) (s : S) (a : A) (s' : S) : Prop :=
  good s a ∧ step s a s'

theorem Run.imp {step' : S → A → S → Prop} (hstep : ∀ s a s', step s a s' → step' s a s')
    (h : Run step s₀ as s) : Run step' s₀ as s := by
  induction h with
  | nil => exact .nil
  | snoc _ hs ih => exact .snoc ih (hstep _ _ _ hs)

theorem Run.of_guarded {good : S → A → Prop} (h : Run (Guarded good step) s₀ as s) :
    Run step s₀ as s :=
  h.imp fun _ _ _ hstep => hstep.2

theorem Guarded.of_next {good : S → A → Prop} [∀ s a, Decidable (good s a)]
    {next : S → A → Option S} (hnext : ∀ s a s', next s a = some s' → step s a s') :
    ∀ s a s', (if good s a then next s a else none) = some s' → Guarded good step s a s' := by
  intro s a s' h
  split_ifs at h with hgood
  exact ⟨hgood, hnext s a s' h⟩

/-- The processes after a step of the one at `i`, which leaves `left` behind. -/
def replaceAt (ps : List A) (i : ℕ) (left : List A) : List A :=
  ps.eraseIdx i ++ left

theorem exists_mem_replaceAt {P : A → Prop} {ps left : List A} {i : ℕ} {p : A}
    (hi : ps[i]? = some p) (h : ∃ q ∈ ps, P q) (hleft : P p → ∃ q ∈ left, P q) :
    ∃ q ∈ replaceAt ps i left, P q := by
  obtain ⟨q, hq, hP⟩ := h
  obtain ⟨j, hj⟩ := List.mem_iff_getElem?.mp hq
  by_cases hji : j = i
  · obtain rfl : p = q := Option.some.inj (hi.symm.trans (hji ▸ hj))
    obtain ⟨r, hr, hPr⟩ := hleft hP
    exact ⟨r, List.mem_append_right _ hr, hPr⟩
  · have hq' : q ∈ ps.eraseIdx i := List.mem_eraseIdx_iff_getElem?.mpr ⟨j, hji, hj⟩
    exact ⟨q, List.mem_append_left _ hq', hP⟩

end DubboAdmin
