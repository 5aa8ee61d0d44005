import Mathlib.Data.List.Lex
import Mathlib.Data.Set.Finite.Basic
import Mathlib.Order.WellFounded

/-!
# Topological orders

Some nodes have to be put into an order in which each comes after the nodes that it requires. A node
is ready where all that it requires is done (`Ready`), and an order is admissible where each node is
ready when its turn comes (`Admissible`). The greedy order takes the least ready node as long as
there is one (`Greedy`).

The greedy order is admissible, and lexicographically no admissible order of all nodes comes before
it (`Greedy.least`). It takes all nodes just where no node requires itself through others
(`Greedy.covers`, `Admissible.acyclic`).
-/

namespace DubboAdmin

variable {α : Type}

/-- All that the node requires is done, and the node is not. -/
structure Ready (nodes : List α) (requires : α → List α) (done : List α) (a : α) : Prop where
  mem : a ∈ nodes
  not_done : a ∉ done
  required : ∀ d ∈ requires a, d ∈ done

/-- Each node of the order comes after those it requires, some of which are done already. -/
def Admissible (requires : α → List α) : List α → List α → Prop
  | _, [] => True
  | done, a :: order => (∀ d ∈ requires a, d ∈ done) ∧ Admissible requires (done ++ [a]) order

/-- One node requires another. -/
def Requires (nodes : List α) (requires : α → List α) (a d : α) : Prop :=
  a ∈ nodes ∧ d ∈ requires a

/-- No node requires itself, directly or through others. -/
def Acyclic (nodes : List α) (requires : α → List α) : Prop :=
  ∀ a, ¬ Relation.TransGen (Requires nodes requires) a a

section Admissible

variable {requires : α → List α}

/-- The nodes in front of a node include those it requires. -/
theorem admissible_iff {done order : List α} : Admissible requires done order ↔
    ∀ front a back, order = front ++ a :: back → ∀ d ∈ requires a, d ∈ done ++ front := by
  induction order generalizing done with
  | nil =>
    refine ⟨fun _ front a back h => ?_, fun _ => trivial⟩
    exact absurd h.symm (List.append_ne_nil_of_right_ne_nil front (List.cons_ne_nil a back))
  | cons b order ih =>
    unfold Admissible
    rw [ih]
    constructor
    · rintro ⟨hhead, hrest⟩ front a back h d hd
      cases front with
      | nil =>
        obtain ⟨rfl, rfl⟩ := List.cons.inj h
        rw [List.append_nil]
        exact hhead d hd
      | cons c front =>
        obtain ⟨rfl, rfl⟩ := List.cons.inj h
        have hfront := hrest front a back rfl d hd
        rwa [List.append_assoc] at hfront
    · intro h
      refine ⟨fun d hd => ?_, fun front a back hsplit d hd => ?_⟩
      · have hfront := h [] b order rfl d hd
        rwa [List.append_nil] at hfront
      · have hfront := h (b :: front) a back (by rw [hsplit, List.cons_append]) d hd
        rwa [List.append_assoc]

/-- The nodes of an admissible order have finite chains of requirements. -/
theorem Admissible.acc {done order : List α} (h : Admissible requires done order)
    (hdone : ∀ a ∈ done, Acc (fun d a => d ∈ requires a) a) :
    ∀ a ∈ order, Acc (fun d a => d ∈ requires a) a := by
  induction order generalizing done with
  | nil => exact fun a ha => absurd ha List.not_mem_nil
  | cons b order ih =>
    have hb : Acc (fun d a => d ∈ requires a) b := ⟨b, fun d hd => hdone d (h.1 d hd)⟩
    have hrest := ih h.2 fun a ha => by
      rcases List.mem_append.mp ha with ha | ha
      · exact hdone a ha
      · exact List.mem_singleton.mp ha ▸ hb
    intro a ha
    rcases List.mem_cons.mp ha with rfl | ha
    · exact hb
    · exact hrest a ha

theorem not_transGen_of_acc {nodes : List α} {a : α}
    (h : Acc (fun d a => d ∈ requires a) a) :
    ¬ Relation.TransGen (Requires nodes requires) a a := by
  induction h with
  | intro a _ ih =>
    intro hcycle
    -- The first node on the way back to `a` is on a cycle of its own.
    obtain ⟨d, hstep, hback⟩ := Relation.TransGen.head'_iff.mp hcycle
    exact ih d hstep.2 (.tail' hback hstep)

theorem Admissible.acyclic {nodes order : List α} (h : Admissible requires [] order)
    (hall : ∀ a ∈ nodes, a ∈ order) : Acyclic nodes requires := by
  intro a hcycle
  have ha : a ∈ nodes := by
    obtain ⟨d, hstep, -⟩ := Relation.TransGen.head'_iff.mp hcycle
    exact hstep.1
  exact not_transGen_of_acc (h.acc (fun a ha => absurd ha List.not_mem_nil) a (hall a ha)) hcycle

/-- Among nodes without cycles that are not all done, one is ready. -/
theorem Acyclic.exists_ready {nodes done : List α} (h : Acyclic nodes requires)
    (hclosed : ∀ a ∈ nodes, ∀ d ∈ requires a, d ∈ nodes) {a : α} (ha : a ∈ nodes)
    (hdone : a ∉ done) : ∃ b, Ready nodes requires done b := by
  let below : {b // b ∈ nodes} → {b // b ∈ nodes} → Prop :=
    fun d b => Relation.TransGen (Requires nodes requires) b d
  have htrans : IsTrans _ below := ⟨fun _ _ _ h h' => h'.trans h⟩
  have hirrefl : Std.Irrefl below := ⟨fun b => h b⟩
  have hfinite : Finite {b // b ∈ nodes} := (List.finite_toSet nodes).to_subtype
  have hwf : WellFounded below := Finite.wellFounded_of_trans_of_irrefl below
  -- A node that is not done and has none such below it.
  obtain ⟨⟨b, hb⟩, hleft, hmin⟩ := hwf.has_min {b | b.1 ∉ done} ⟨⟨a, ha⟩, hdone⟩
  refine ⟨b, hb, hleft, fun d hd => ?_⟩
  by_contra hnot
  exact hmin ⟨d, hclosed b hb d hd⟩ hnot (.single ⟨hb, hd⟩)

end Admissible

section Waiting

variable [DecidableEq α]

/-- The number of entries of a list that are not done. -/
def waiting (done l : List α) : ℕ := l.countP fun d => d ∉ done

theorem waiting_nil (l : List α) : waiting [] l = l.length := by
  unfold waiting
  simp

theorem waiting_eq_zero {done l : List α} : waiting done l = 0 ↔ ∀ d ∈ l, d ∈ done := by
  unfold waiting
  simp

theorem waiting_concat {done : List α} {a : α} (h : a ∉ done) (l : List α) :
    waiting done l = waiting (done ++ [a]) l + l.count a := by
  unfold waiting
  induction l with
  | nil => rfl
  | cons b l ih =>
    rw [List.countP_cons, List.countP_cons, List.count_cons, ih]
    by_cases hb : b = a
    · simp [hb, h]
      omega
    · simp [hb]
      omega

end Waiting

section Greedy

variable [LinearOrder α]

/-- Each node of the order is the least that is ready, and after the last one none is. -/
inductive Greedy (nodes : List α) (requires : α → List α) : List α → List α → Prop
  /-- No node is ready. -/
  | stop {done : List α} (h : ∀ a, ¬ Ready nodes requires done a) : Greedy nodes requires done []
  /-- The least ready node comes next. -/
  | take {done order : List α} {a : α} (hready : Ready nodes requires done a)
      (hleast : ∀ b, Ready nodes requires done b → a ≤ b)
      (hrest : Greedy nodes requires (done ++ [a]) order) : Greedy nodes requires done (a :: order)

namespace Greedy

variable {nodes done order : List α} {requires : α → List α}

theorem admissible (h : Greedy nodes requires done order) : Admissible requires done order := by
  induction h with
  | stop => trivial
  | take hready _ _ ih => exact ⟨hready.required, ih⟩

theorem mem_nodes (h : Greedy nodes requires done order) : ∀ a ∈ order, a ∈ nodes := by
  induction h with
  | stop => exact fun a ha => absurd ha List.not_mem_nil
  | take hready _ _ ih => exact List.forall_mem_cons.mpr ⟨hready.mem, ih⟩

theorem nodup (h : Greedy nodes requires done order) (hdone : done.Nodup) :
    (done ++ order).Nodup := by
  induction h with
  | stop => rwa [List.append_nil]
  | take hready _ _ ih =>
    have hnext := ih (List.concat_eq_append ▸ hdone.concat hready.not_done)
    rwa [List.append_assoc] at hnext

theorem not_ready (h : Greedy nodes requires done order) (a : α) :
    ¬ Ready nodes requires (done ++ order) a := by
  induction h with
  | stop h =>
    rw [List.append_nil]
    exact h a
  | take _ _ _ ih => rwa [List.append_assoc] at ih

theorem covers (h : Greedy nodes requires [] order) (hacyclic : Acyclic nodes requires)
    (hclosed : ∀ a ∈ nodes, ∀ d ∈ requires a, d ∈ nodes) : ∀ a ∈ nodes, a ∈ order := by
  intro a ha
  by_contra hnot
  obtain ⟨b, hready⟩ := hacyclic.exists_ready hclosed ha hnot
  exact h.not_ready b hready

/-- Every admissible order of the nodes comes after the greedy one, or is the same. -/
theorem least (h : Greedy nodes requires done order) {other : List α}
    (hother : Admissible requires done other) (hnodup : (done ++ other).Nodup)
    (hmem : ∀ a ∈ other, a ∈ nodes) (hall : ∀ a ∈ nodes, a ∈ done ++ other) :
    order = other ∨ List.Lex (· < ·) order other := by
  -- The head of the other order is ready as well.
  have hhead : ∀ {done : List α} {b : α} {rest : List α}, Admissible requires done (b :: rest) →
      (done ++ b :: rest).Nodup → (∀ a ∈ b :: rest, a ∈ nodes) → Ready nodes requires done b :=
    fun hadm hnodup hmem => ⟨hmem _ List.mem_cons_self,
      fun hb => List.disjoint_of_nodup_append hnodup hb List.mem_cons_self, hadm.1⟩
  induction h generalizing other with
  | stop hstop =>
    cases other with
    | nil => exact .inl rfl
    | cons b rest => exact absurd (hhead hother hnodup hmem) (hstop b)
  | take hready hleast _ ih =>
    cases other with
    | nil =>
      rw [List.append_nil] at hall
      exact absurd (hall _ hready.mem) hready.not_done
    | cons b rest =>
      rcases (hleast b (hhead hother hnodup hmem)).lt_or_eq with hlt | rfl
      · exact .inr (.rel hlt)
      · rw [List.append_cons] at hnodup hall
        have hrest := ih hother.2 hnodup (fun a ha => hmem a (List.mem_cons_of_mem _ ha)) hall
        exact hrest.imp (congrArg _) .cons

end Greedy

end Greedy

end DubboAdmin
