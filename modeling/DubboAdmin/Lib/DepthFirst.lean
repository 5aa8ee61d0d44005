import Mathlib.Data.Finset.Card

/-!
# Depth-first collection

`collect` marks a node and then collects its successors, with a list of the nodes that were visited,
so that cycles do no harm. `next` gives the successors of a node, and nothing for what is not one.
Each call within another one has marked a further node: with more fuel than there are nodes, the
nodes that can be reached are collected (`exists_collectAll`).
-/

namespace DubboAdmin.DepthFirst

variable {α : Type} (next : α → Option (List α))

/-- A node can be reached from the roots. -/
inductive Reaches (roots : List α) : α → Prop
  | root {x : α} (hx : x ∈ roots) (hnode : (next x).isSome) : Reaches roots x
  | step {x y : α} {successors : List α} (hx : Reaches roots x) (hnext : next x = some successors)
      (hy : y ∈ successors) (hnode : (next y).isSome) : Reaches roots y

/-- What collecting from the roots adds to what was visited. -/
structure Collects (roots visited visited' : List α) : Prop where
  subset : ∀ x ∈ visited, x ∈ visited'
  nodup : visited.Nodup → visited'.Nodup
  covers : ∀ x ∈ roots, (next x).isSome → x ∈ visited'
  closed : ∀ x ∈ visited', x ∉ visited → ∀ successors, next x = some successors →
    ∀ y ∈ successors, (next y).isSome → y ∈ visited'
  reaches : ∀ x ∈ visited', x ∉ visited → Reaches next roots x

variable {next}

variable {x : α}

theorem Reaches.mono {next' : α → Option (List α)} {roots roots' : List α}
    (hroots : ∀ x ∈ roots, x ∈ roots')
    (hnext : ∀ x l, next x = some l → ∃ l', next' x = some l' ∧ ∀ y ∈ l, y ∈ l')
    (h : Reaches next roots x) : Reaches next' roots' x := by
  have hnode : ∀ x, (next x).isSome → (next' x).isSome := by
    intro x hx
    obtain ⟨l, hl⟩ := Option.isSome_iff_exists.mp hx
    obtain ⟨l', hl', -⟩ := hnext x l hl
    exact Option.isSome_iff_exists.mpr ⟨l', hl'⟩
  induction h with
  | root hx hx' => exact .root (hroots _ hx) (hnode _ hx')
  | step _ hl hy hy' ih =>
    obtain ⟨l', hl', hsub⟩ := hnext _ _ hl
    exact .step ih hl' (hsub _ hy) (hnode _ hy')

/-- From the successors of a root, no more can be reached. -/
theorem Reaches.of_successors {y : α} {successors : List α} (hnext : next x = some successors)
    (h : Reaches next successors y) : Reaches next [x] y := by
  induction h with
  | root hy hnode =>
    exact .step (.root List.mem_cons_self (Option.isSome_iff_exists.mpr ⟨_, hnext⟩)) hnext hy hnode
  | step _ hl hy hnode ih => exact .step ih hl hy hnode

theorem Collects.refl (visited : List α) : Collects next [] visited visited :=
  ⟨fun _ h => h, fun h => h, fun _ h => absurd h List.not_mem_nil, fun _ h h' => absurd h h',
    fun _ h h' => absurd h h'⟩

variable {visited : List α}

theorem Collects.cons {roots visited₁ visited₂ : List α} (h : Collects next [x] visited visited₁)
    (h' : Collects next roots visited₁ visited₂) :
    Collects next (x :: roots) visited visited₂ where
  subset y hy := h'.subset y (h.subset y hy)
  nodup hnodup := h'.nodup (h.nodup hnodup)
  covers y hy hnode := by
    rcases List.mem_cons.mp hy with rfl | hy
    · exact h'.subset y (h.covers y List.mem_cons_self hnode)
    · exact h'.covers y hy hnode
  closed y hy hnew l hl z hz hnode := by
    by_cases hfirst : y ∈ visited₁
    · exact h'.subset z (h.closed y hfirst hnew l hl z hz hnode)
    · exact h'.closed y hy hfirst l hl z hz hnode
  reaches y hy hnew := by
    by_cases hfirst : y ∈ visited₁
    · exact (h.reaches y hfirst hnew).mono (by simp) fun _ l hl => ⟨l, hl, fun _ hz => hz⟩
    · exact (h'.reaches y hy hfirst).mono (fun _ => List.mem_cons_of_mem x)
        fun _ l hl => ⟨l, hl, fun _ hz => hz⟩

/-- The node itself is marked before its successors are collected. -/
theorem Collects.mark {successors visited' : List α} (hnext : next x = some successors)
    (hnew : x ∉ visited) (h : Collects next successors (x :: visited) visited') :
    Collects next [x] visited visited' where
  subset y hy := h.subset y (List.mem_cons_of_mem x hy)
  nodup hnodup := h.nodup (List.nodup_cons.mpr ⟨hnew, hnodup⟩)
  covers y hy _ := h.subset y (List.mem_singleton.mp hy ▸ List.mem_cons_self)
  closed y hy hynew l hl := by
    by_cases heq : y = x
    · subst heq
      obtain rfl := Option.some.inj (hnext.symm.trans hl)
      exact h.covers
    · exact h.closed y hy (List.not_mem_cons_of_ne_of_not_mem heq hynew) l hl
  reaches y hy hynew := by
    by_cases heq : y = x
    · subst heq
      exact .root List.mem_cons_self (Option.isSome_iff_exists.mpr ⟨_, hnext⟩)
    · exact (h.reaches y hy (List.not_mem_cons_of_ne_of_not_mem heq hynew)).of_successors hnext

variable [DecidableEq α]

/-- What was visited, after the nodes that can be reached from `x` were added to it. There is no
result if there is not enough fuel for the depth of the recursion. -/
def collect (next : α → Option (List α)) : ℕ → α → List α → Option (List α)
  | 0, _, _ => none
  | fuel + 1, x, visited =>
    match next x with
    | none => some visited
    | some successors =>
      if x ∈ visited then some visited
      else successors.foldlM (fun visited y => collect next fuel y visited) (x :: visited)

/-- The nodes that were not visited yet. -/
def unvisited (nodes : Finset α) (visited : List α) : ℕ := (nodes \ visited.toFinset).card

variable {nodes : Finset α}

theorem unvisited_le {visited' : List α} (h : ∀ x ∈ visited, x ∈ visited') :
    unvisited nodes visited' ≤ unvisited nodes visited :=
  Finset.card_le_card (Finset.sdiff_subset_sdiff le_rfl fun x hx =>
    List.mem_toFinset.mpr (h x (List.mem_toFinset.mp hx)))

theorem unvisited_cons_lt (hx : x ∈ nodes) (hnew : x ∉ visited) :
    unvisited nodes (x :: visited) < unvisited nodes visited := by
  refine Finset.card_lt_card (Finset.ssubset_iff_of_subset ?_ |>.mpr ⟨x, ?_, ?_⟩)
  · exact Finset.sdiff_subset_sdiff le_rfl fun y hy => by simp_all
  · simp [hx, hnew]
  · simp

variable {fuel : ℕ}

theorem exists_foldlM (hone : ∀ x visited, unvisited nodes visited < fuel →
      ∃ visited', collect next fuel x visited = some visited' ∧ Collects next [x] visited visited')
    (roots : List α) (hfuel : unvisited nodes visited < fuel) :
    ∃ visited', roots.foldlM (fun visited x => collect next fuel x visited) visited =
      some visited' ∧ Collects next roots visited visited' := by
  induction roots generalizing visited with
  | nil => exact ⟨visited, rfl, .refl visited⟩
  | cons x roots ih =>
    obtain ⟨visited₁, hfirst, h₁⟩ := hone x visited hfuel
    obtain ⟨visited₂, hrest, h₂⟩ := ih ((unvisited_le h₁.subset).trans_lt hfuel)
    exact ⟨visited₂, by rw [List.foldlM_cons, hfirst]; exact hrest, h₁.cons h₂⟩

theorem exists_collect (hnodes : ∀ x, (next x).isSome → x ∈ nodes) (x : α) (visited : List α)
    (hfuel : unvisited nodes visited < fuel) :
    ∃ visited', collect next fuel x visited = some visited' ∧
      Collects next [x] visited visited' := by
  -- Each call within another one has marked one more node.
  induction fuel generalizing x visited with
  | zero => exact absurd hfuel (Nat.not_lt_zero _)
  | succ fuel ih =>
    unfold collect
    cases hnext : next x with
    | none =>
      refine ⟨visited, rfl, fun _ h => h, fun h => h, fun y hy hnode => ?_,
        fun _ h h' => absurd h h', fun _ h h' => absurd h h'⟩
      rw [List.mem_singleton.mp hy, hnext] at hnode
      cases hnode
    | some successors =>
      split_ifs with hx
      · exact ⟨visited, rfl, fun _ h => h, fun h => h,
          fun y hy _ => List.mem_singleton.mp hy ▸ hx, fun _ h h' => absurd h h',
          fun _ h h' => absurd h h'⟩
      · have hless := unvisited_cons_lt (hnodes x (by rw [hnext]; rfl)) hx
        obtain ⟨visited', hcollect, h⟩ := exists_foldlM (fun y visited hy => ih y visited hy)
          successors (lt_of_lt_of_le hless (Nat.le_of_lt_succ hfuel))
        exact ⟨visited', hcollect, h.mark hnext hx⟩

/-- From nothing visited, just the nodes that can be reached from the roots are collected. -/
theorem exists_collectAll (hnodes : ∀ x, (next x).isSome → x ∈ nodes) (hfuel : nodes.card < fuel)
    (roots : List α) :
    ∃ visited, roots.foldlM (fun visited x => collect next fuel x visited) [] = some visited ∧
      visited.Nodup ∧ ∀ x, x ∈ visited ↔ Reaches next roots x := by
  obtain ⟨visited, hcollect, h⟩ := exists_foldlM (exists_collect hnodes) roots
    (lt_of_le_of_lt (Finset.card_le_card Finset.sdiff_subset) hfuel)
  refine ⟨visited, hcollect, h.nodup List.nodup_nil, fun x => ?_⟩
  constructor
  · exact fun hx => h.reaches x hx List.not_mem_nil
  · intro hx
    induction hx with
    | root hx hnode => exact h.covers _ hx hnode
    | step _ hl hy hnode ih => exact h.closed _ ih List.not_mem_nil _ hl _ hy hnode

end DubboAdmin.DepthFirst
