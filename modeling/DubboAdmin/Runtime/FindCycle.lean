import DubboAdmin.Runtime.DependencyGraph
import Mathlib.Data.List.Chain

/-!
# The cycle that the error names

`findCycle` of `pkg/core/runtime/dependency_graph.go` follows the dependencies of each component in
turn. The components on the way to the current one are on the stack, and `cycle` has them in order.
A component that was visited and has left the stack leads to no cycle (`SearchInv.finished`). So the
search finds a cycle where there is one, and what it returns is one (`findCycle_spec`).
-/

namespace DubboAdmin.Runtime

/-- The types of the list are distinct, each requires the next one, and the last the first. -/
def IsCycle (requires : ComponentType → List ComponentType) (cycle : List ComponentType) : Prop :=
  ∃ first rest, cycle = first :: rest ∧ cycle.Nodup ∧
    (cycle ++ [first]).IsChain fun typ dependency => dependency ∈ requires typ

/-- What holds between the steps of the search. -/
structure SearchInv (requires : ComponentType → List ComponentType) (s : Search) : Prop where
  recStack : ∀ typ, s.recStack typ = true ↔ typ ∈ s.cycle
  nodup : s.cycle.Nodup
  chain : s.cycle.IsChain fun typ dependency => dependency ∈ requires typ
  visited : ∀ typ ∈ s.cycle, s.visited typ = true
  /-- All chains from a type that has left the stack come to an end. -/
  finished : ∀ typ, s.visited typ = true → typ ∉ s.cycle →
    Acc (fun dependency typ => dependency ∈ requires typ) typ

/-- A part of the search that found nothing. -/
structure Explored (requires : ComponentType → List ComponentType) (s s' : Search) : Prop where
  inv : SearchInv requires s'
  cycle_eq : s'.cycle = s.cycle
  visited : ∀ typ, s.visited typ = true → s'.visited typ = true

/-- The number of types that have not been visited. -/
def unvisited (types : List ComponentType) (s : Search) : ℕ :=
  types.countP fun typ => s.visited typ = false

/-- A part of the search returns: it found a cycle, or nothing, and then it explored some types. -/
def Returns (requires : ComponentType → List ComponentType) (s : Search) (explored : Search → Prop)
    (found : Option (Bool × Search)) : Prop :=
  (∃ s', found = some (true, s') ∧ IsCycle requires s'.cycle) ∨
    ∃ s', found = some (false, s') ∧ Explored requires s s' ∧ explored s'

/-- What a call of `dfs` does, where at most `depth` types have not been visited. The recursion
`dfs'`, which may go deeper, does the same. -/
def Searches (types : List ComponentType) (requires : ComponentType → List ComponentType)
    (depth : ℕ) (dfs dfs' : ComponentType → Search → Option (Bool × Search)) : Prop :=
  ∀ node s, SearchInv requires s → node ∈ types → s.visited node = false →
    (∀ last ∈ s.cycle.getLast?, node ∈ requires last) → unvisited types s ≤ depth →
    dfs' node s = dfs node s ∧ Returns requires s (·.visited node = true) (dfs node s)

section Search

variable {types : List ComponentType} {requires : ComponentType → List ComponentType} {s : Search}

theorem Explored.trans {s' s'' : Search} (h : Explored requires s s')
    (h' : Explored requires s' s'') : Explored requires s s'' where
  inv := h'.inv
  cycle_eq := h'.cycle_eq.trans h.cycle_eq
  visited := fun typ htyp => h'.visited typ (h.visited typ htyp)

theorem Explored.unvisited_le {s' : Search} (h : Explored requires s s')
    (types : List ComponentType) : unvisited types s' ≤ unvisited types s := by
  refine List.countP_mono_left fun typ _ hnot => ?_
  rw [decide_eq_true_eq] at hnot ⊢
  by_contra hvisited
  rw [h.visited typ (Bool.eq_true_of_not_eq_false hvisited)] at hnot
  cases hnot

/-- A dependency on the stack closes a cycle. -/
theorem SearchInv.isCycle (h : SearchInv requires s) {node dependency : ComponentType}
    (hlast : s.cycle.getLast? = some node) (hdep : dependency ∈ requires node)
    (hmem : dependency ∈ s.cycle) :
    IsCycle requires (s.cycle.dropWhile fun typ => typ ≠ dependency) := by
  obtain ⟨front, back, hsplit, hfront⟩ := List.eq_append_cons_of_mem hmem
  have hdrop : (s.cycle.dropWhile fun typ => typ ≠ dependency) = dependency :: back := by
    rw [hsplit]
    refine (List.dropWhile_append_of_pos fun typ htyp => ?_).trans ?_
    · rw [decide_eq_true_eq]
      rintro rfl
      exact hfront htyp
    · rw [List.dropWhile_cons_of_neg (by simp)]
  rw [hdrop]
  have hnodup := h.nodup
  rw [hsplit] at hnodup
  refine ⟨dependency, back, rfl, (List.nodup_append.mp hnodup).2.1,
    List.isChain_append.mpr ⟨?_, List.isChain_singleton _, ?_⟩⟩
  · have hchain := h.chain
    rw [hsplit] at hchain
    exact (List.isChain_append.mp hchain).2.1
  · intro last hlast' first hfirst
    rw [hsplit, List.getLast?_append_of_ne_nil _ (List.cons_ne_nil _ _)] at hlast
    rw [Option.mem_def, hlast, Option.some.injEq] at hlast'
    rw [List.head?_cons, Option.mem_some_iff] at hfirst
    rw [← hlast', ← hfirst]
    exact hdep

/-- The loop over the dependencies of the node at the top of the stack. -/
theorem Searches.dependencies {depth : ℕ}
    {dfs dfs' : ComponentType → Search → Option (Bool × Search)}
    (hdfs : Searches types requires depth dfs dfs') {node : ComponentType}
    {dependencies : List ComponentType} (hdeps : ∀ d ∈ dependencies, d ∈ requires node)
    (htypes : ∀ d ∈ dependencies, d ∈ types) (h : SearchInv requires s)
    (hlast : s.cycle.getLast? = some node) (hdepth : unvisited types s ≤ depth) :
    dfsDependencies dfs' dependencies s = dfsDependencies dfs dependencies s ∧
      Returns requires s (fun s' => ∀ d ∈ dependencies, s'.visited d = true ∧ d ∉ s.cycle)
        (dfsDependencies dfs dependencies s) := by
  induction dependencies generalizing s with
  | nil =>
    exact ⟨rfl, .inr ⟨s, rfl, ⟨h, rfl, fun _ => id⟩, fun d hd => absurd hd List.not_mem_nil⟩⟩
  | cons dependency rest ih =>
    obtain ⟨hdep, hrest⟩ := List.forall_mem_cons.mp hdeps
    obtain ⟨htype, htypes'⟩ := List.forall_mem_cons.mp htypes
    unfold dfsDependencies
    by_cases hvisited : s.visited dependency = false
    · rw [if_pos hvisited, if_pos hvisited]
      have hnew : dependency ∉ s.cycle := fun hmem => by
        rw [h.visited dependency hmem] at hvisited
        cases hvisited
      obtain ⟨heq, hcases⟩ := hdfs dependency s h htype hvisited
        (fun last hl => by rw [hlast] at hl; exact Option.mem_some_iff.mp hl ▸ hdep) hdepth
      rw [heq]
      rcases hcases with ⟨s', hfound, hcycle⟩ | ⟨s', hfound, hexplored, hmark⟩
      · rw [hfound]
        exact ⟨rfl, .inl ⟨s', rfl, hcycle⟩⟩
      · rw [hfound]
        have hle := hexplored.unvisited_le types
        obtain ⟨heq', hcases'⟩ := ih hrest htypes' hexplored.inv (hexplored.cycle_eq ▸ hlast)
          (hle.trans hdepth)
        refine ⟨heq', hcases'.imp_right ?_⟩
        rintro ⟨s'', hfound', hexplored', hall⟩
        refine ⟨s'', hfound', hexplored.trans hexplored', List.forall_mem_cons.mpr ⟨?_, ?_⟩⟩
        · exact ⟨hexplored'.visited _ hmark, hnew⟩
        · exact fun d hd => hexplored.cycle_eq ▸ hall d hd
    · rw [if_neg hvisited, if_neg hvisited]
      by_cases hstack : s.recStack dependency = true ∧ dependency ∈ s.cycle
      · rw [if_pos hstack, if_pos hstack]
        exact ⟨rfl, .inl ⟨_, rfl, h.isCycle hlast hdep hstack.2⟩⟩
      · rw [if_neg hstack, if_neg hstack]
        have hleft : dependency ∉ s.cycle := fun hmem => hstack ⟨(h.recStack _).mpr hmem, hmem⟩
        obtain ⟨heq, hcases⟩ := ih hrest htypes' h hlast hdepth
        refine ⟨heq, hcases.imp_right ?_⟩
        rintro ⟨s', hfound, hexplored, hall⟩
        refine ⟨s', hfound, hexplored, List.forall_mem_cons.mpr ⟨⟨?_, hleft⟩, hall⟩⟩
        exact hexplored.visited _ (Bool.eq_true_of_not_eq_false hvisited)

theorem visited_enter {node typ : ComponentType} :
    (s.enter node).visited typ = true ↔ typ = node ∨ s.visited typ = true := by
  show Function.update s.visited node true typ = true ↔ _
  by_cases heq : typ = node
  · simp [heq]
  · simp [heq]

/-- A node is entered. -/
theorem SearchInv.enter (h : SearchInv requires s) {node : ComponentType} (hnew : node ∉ s.cycle)
    (hlast : ∀ last ∈ s.cycle.getLast?, node ∈ requires last) :
    SearchInv requires (s.enter node) where
  recStack := fun typ => by
    show Function.update s.recStack node true typ = true ↔ typ ∈ s.cycle ++ [node]
    rw [List.mem_append, List.mem_singleton, ← h.recStack]
    by_cases heq : typ = node
    · simp [heq]
    · simp [heq]
  nodup := by
    have hconcat := List.nodup_concat s.cycle node
    rw [List.concat_eq_append] at hconcat
    exact hconcat.mpr ⟨hnew, h.nodup⟩
  chain := by
    refine List.isChain_append.mpr ⟨h.chain, List.isChain_singleton _, fun last hl first hf => ?_⟩
    rw [List.head?_cons, Option.mem_some_iff] at hf
    exact hf ▸ hlast last hl
  visited := fun typ hmem => by
    rw [visited_enter]
    rcases List.mem_append.mp hmem with hmem | hmem
    · exact .inr (h.visited typ hmem)
    · exact .inl (List.mem_singleton.mp hmem)
  finished := fun typ hvisited hmem => by
    refine h.finished typ ((visited_enter.mp hvisited).resolve_left fun heq => hmem ?_)
      fun h => hmem (List.mem_append_left _ h)
    exact heq ▸ List.mem_append_right _ (List.mem_singleton_self _)

/-- A node is left, whose dependencies have all been left. -/
theorem SearchInv.leave {s' : Search} (h : SearchInv requires s') {node : ComponentType}
    {stack : List ComponentType} (hcycle : s'.cycle = stack ++ [node]) (hnew : node ∉ stack)
    (hdeps : ∀ d ∈ requires node, s'.visited d = true ∧ d ∉ s'.cycle) :
    SearchInv requires (s'.leave node) ∧ (s'.leave node).cycle = stack := by
  have hleft : (s'.leave node).cycle = stack := by
    show s'.cycle.dropLast = stack
    rw [hcycle, List.dropLast_concat]
  have hnodup := h.nodup
  have hchain := h.chain
  have hvisited := h.visited
  rw [hcycle] at hnodup hchain hvisited
  refine ⟨⟨fun typ => ?_, ?_, ?_, fun typ hmem => ?_, fun typ hmark hmem => ?_⟩, hleft⟩
  · rw [hleft]
    show Function.update s'.recStack node false typ = true ↔ _
    by_cases heq : typ = node
    · rw [heq, Function.update_self]
      exact iff_of_false Bool.false_ne_true hnew
    · rw [Function.update_of_ne heq, h.recStack, hcycle, List.mem_append, List.mem_singleton,
        or_iff_left heq]
  · rw [hleft]
    exact (List.nodup_append.mp hnodup).1
  · rw [hleft]
    exact (List.isChain_append.mp hchain).1
  · exact hvisited typ (List.mem_append_left _ (hleft ▸ hmem))
  · rw [hleft] at hmem
    by_cases heq : typ = node
    · -- The chains from the node go on from its dependencies.
      rw [heq]
      exact ⟨node, fun d hd => h.finished d (hdeps d hd).1 (hdeps d hd).2⟩
    · refine h.finished typ hmark fun hmem' => ?_
      rw [hcycle, List.mem_append, List.mem_singleton, or_iff_left heq] at hmem'
      exact hmem hmem'

/-- A type that is visited no longer counts. -/
theorem unvisited_enter {node : ComponentType} (hnode : node ∈ types)
    (hnew : s.visited node = false) : unvisited types (s.enter node) < unvisited types s := by
  have hold : types.countP (fun typ => s.visited typ = false) =
      types.countP (fun typ => (s.enter node).visited typ = false) + types.count node := by
    clear hnode
    induction types with
    | nil => rfl
    | cons typ types ih =>
      rw [List.countP_cons, List.countP_cons, List.count_cons, ih]
      by_cases h : typ = node
      · simp [h, hnew, Search.enter]
        omega
      · simp [h, Search.enter]
        omega
  have hpos : 0 < types.count node := List.count_pos_iff.mpr hnode
  unfold unvisited
  omega

end Search

section Graph

variable {β : Type} {dg : DependencyGraph β} {types : List ComponentType}

/-- The recursion is a search, where the depth is enough for the types. -/
theorem searches_dfs (hclosed : ∀ typ ∈ types, ∀ d ∈ dg.requiredDependencies typ, d ∈ types)
    (depth more : ℕ) :
    Searches types dg.requiredDependencies depth (dg.dfs depth) (dg.dfs (depth + more)) := by
  induction depth with
  | zero =>
    intro node s _ hnode hnew _ hdepth
    have hpos := unvisited_enter hnode hnew
    omega
  | succ depth ih =>
    intro node s h hnode hnew hlast hdepth
    have hfewer := unvisited_enter hnode hnew
    have hnot : node ∉ s.cycle := fun hmem => by
      rw [h.visited node hmem] at hnew
      cases hnew
    have htop : (s.enter node).cycle.getLast? = some node := List.getLast?_concat
    rw [Nat.add_right_comm]
    unfold DependencyGraph.dfs
    obtain ⟨heq, hcases⟩ := ih.dependencies (fun d hd => hd) (hclosed node hnode)
      (h.enter hnot hlast) htop (by omega)
    rw [heq]
    refine ⟨rfl, ?_⟩
    rcases hcases with ⟨s', hfound, hcycle⟩ | ⟨s', hfound, hexplored, hdeps⟩
    · exact .inl ⟨s', by rw [hfound]; rfl, hcycle⟩
    · obtain ⟨hinv, hcycle⟩ := hexplored.inv.leave hexplored.cycle_eq hnot
        (fun d hd => ⟨(hdeps d hd).1, hexplored.cycle_eq ▸ (hdeps d hd).2⟩)
      refine .inr ⟨s'.leave node, by rw [hfound]; rfl, ⟨hinv, hcycle, fun typ htyp => ?_⟩, ?_⟩
      · exact hexplored.visited typ (visited_enter.mpr (.inr htyp))
      · exact hexplored.visited node (visited_enter.mpr (.inl rfl))

/-- The loop over the components. -/
theorem dfsAll_spec {requires : ComponentType → List ComponentType} {depth : ℕ}
    {dfs dfs' : ComponentType → Search → Option (Bool × Search)}
    (hdfs : Searches types requires depth dfs dfs') {walk : List ComponentType}
    (hwalk : ∀ typ ∈ walk, typ ∈ types) {s : Search} (h : SearchInv requires s)
    (hempty : s.cycle = []) (hdepth : unvisited types s ≤ depth) :
    ∃ cycle, dfsAll dfs walk s = some cycle ∧ dfsAll dfs' walk s = some cycle ∧
      (IsCycle requires cycle ∨ (cycle = [] ∧
        ∀ typ ∈ walk, Acc (fun dependency typ => dependency ∈ requires typ) typ)) := by
  induction walk generalizing s with
  | nil => exact ⟨[], rfl, rfl, .inr ⟨rfl, fun typ htyp => absurd htyp List.not_mem_nil⟩⟩
  | cons typ rest ih =>
    obtain ⟨htyp, hrest⟩ := List.forall_mem_cons.mp hwalk
    have hacc : ∀ {s : Search}, SearchInv requires s → s.cycle = [] → s.visited typ = true →
        Acc (fun dependency typ => dependency ∈ requires typ) typ :=
      fun h hempty hmark => h.finished typ hmark (hempty ▸ List.not_mem_nil)
    unfold dfsAll
    by_cases hvisited : s.visited typ = false
    · rw [if_pos hvisited, if_pos hvisited]
      have hfirst : ∀ last ∈ s.cycle.getLast?, typ ∈ requires last := by
        rw [hempty]
        exact fun last hl => absurd hl (Option.not_mem_none last)
      obtain ⟨heq, hcases⟩ := hdfs typ s h htyp hvisited hfirst hdepth
      rw [heq]
      rcases hcases with ⟨s', hfound, hcycle⟩ | ⟨s', hfound, hexplored, hmark⟩
      · rw [hfound]
        exact ⟨s'.cycle, rfl, rfl, .inl hcycle⟩
      · rw [hfound]
        have hempty' := hexplored.cycle_eq.trans hempty
        obtain ⟨cycle, hcycle, hcycle', hcases'⟩ := ih hrest hexplored.inv hempty'
          ((hexplored.unvisited_le types).trans hdepth)
        refine ⟨cycle, hcycle, hcycle', hcases'.imp_right fun ⟨hnone, hall⟩ => ⟨hnone, ?_⟩⟩
        exact List.forall_mem_cons.mpr ⟨hacc hexplored.inv hempty' hmark, hall⟩
    · rw [if_neg hvisited, if_neg hvisited]
      have hmark := Bool.eq_true_of_not_eq_false hvisited
      obtain ⟨cycle, hcycle, hcycle', hcases⟩ := ih hrest h hempty hdepth
      refine ⟨cycle, hcycle, hcycle', hcases.imp_right fun ⟨hnone, hall⟩ => ⟨hnone, ?_⟩⟩
      exact List.forall_mem_cons.mpr ⟨hacc h hempty hmark, hall⟩

end Graph

section Error

variable {β : Type} {components : List (Component β)}

theorem IsCycle.not_acyclic {cycle : List ComponentType} (h : IsCycle (requires components) cycle) :
    ¬ Acyclic (components.map Component.type) (requires components) := by
  obtain ⟨first, rest, rfl, -, hchain⟩ := h
  intro hacyclic
  rw [Acyclic, requires_eq_dependsOn] at hacyclic
  have hchain : ((first :: rest) ++ [first]).IsChain (DependsOn components) :=
    hchain.imp fun _ _ => mem_requires.mp
  have hne : rest ++ [first] ≠ [] := List.append_ne_nil_of_right_ne_nil _ (List.cons_ne_nil _ _)
  obtain ⟨second, others, htail⟩ := List.exists_cons_of_ne_nil hne
  rw [List.cons_append, htail] at hchain
  have hlast : (second :: others).getLast (List.cons_ne_nil _ _) = first := by
    simp only [← htail, List.getLast_append_singleton]
  have hrest := List.relationReflTransGen_of_exists_isChain_cons others
    (List.isChain_cons_cons.mp hchain).2 hlast
  exact hacyclic first (.head' (List.isChain_cons_cons.mp hchain).1 hrest)

/-- What the search finds, for any depth that is enough. -/
theorem findCycle_cases {dg : DependencyGraph β} (hdg : IsGraphOf dg components)
    (hpresent : Present components) (walk : WalkOrder ComponentType) (more : ℕ) :
    dfsAll (dg.dfs (dg.components.items.length + more)) (walk.order dg.components.keys)
      ⟨fun _ => false, fun _ => false, []⟩ = some (dg.findCycle walk) ∧
    (IsCycle (requires components) (dg.findCycle walk) ∨
      dg.findCycle walk = [] ∧ Acyclic (components.map Component.type) (requires components)) := by
  have hrequires : dg.requiredDependencies = requires components :=
    funext hdg.requiredDependencies_eq
  have hsearch := @searches_dfs β dg (components.map Component.type)
    (fun typ _ d hd => hpresent typ d (mem_requires.mp (hrequires ▸ hd)))
    dg.components.items.length more
  rw [hrequires] at hsearch
  have hwalk : ∀ typ, typ ∈ walk.order dg.components.keys ↔
      typ ∈ components.map Component.type := by
    intro typ
    rw [(walk.perm _).mem_iff, hdg.keys.mem_iff]
  have hstart : SearchInv (requires components) ⟨fun _ => false, fun _ => false, []⟩ :=
    ⟨fun typ => iff_of_false Bool.false_ne_true List.not_mem_nil, List.nodup_nil,
      List.isChain_nil, fun typ hmem => absurd hmem List.not_mem_nil,
      fun typ hmark => absurd hmark Bool.false_ne_true⟩
  have hdepth : unvisited (components.map Component.type) ⟨fun _ => false, fun _ => false, []⟩ ≤
      dg.components.items.length := by
    rw [hdg.items.length_eq]
    exact List.countP_le_length.trans (List.length_map _).le
  obtain ⟨cycle, hcycle, hcycle', hcases⟩ :=
    dfsAll_spec hsearch (fun typ => (hwalk typ).mp) hstart rfl hdepth
  have hfind : dg.findCycle walk = cycle := by
    rw [DependencyGraph.findCycle, hcycle, Option.getD_some]
  rw [hfind]
  refine ⟨hcycle', hcases.imp_right fun ⟨hnone, hall⟩ => ⟨hnone, fun typ hchain => ?_⟩⟩
  obtain ⟨d, hstep, -⟩ := Relation.TransGen.head'_iff.mp hchain
  exact not_transGen_of_acc (hall typ ((hwalk typ).mpr hstep.1)) hchain

/-- The recursion of `findCycle` never goes deeper than there are components. The list is empty
exactly if the dependencies are acyclic, and otherwise distinct types each of which declares the
next one as a dependency, and the last the first. -/
theorem findCycle_spec (hdistinct : (components.map Component.type).Nodup)
    (hpresent : ∀ typ dependency, DependsOn components typ dependency →
      dependency ∈ components.map Component.type) (walk : WalkOrder ComponentType) :
    (∀ depth ≥ (newDependencyGraph components).components.items.length,
      dfsAll ((newDependencyGraph components).dfs depth)
        (walk.order (newDependencyGraph components).components.keys)
        ⟨fun _ => false, fun _ => false, []⟩ =
          some ((newDependencyGraph components).findCycle walk)) ∧
    ((newDependencyGraph components).findCycle walk = [] ↔
      ∀ typ, ¬ Relation.TransGen (DependsOn components) typ typ) ∧
    ((newDependencyGraph components).findCycle walk ≠ [] →
      ∃ first rest, (newDependencyGraph components).findCycle walk = first :: rest ∧
        (first :: rest).Nodup ∧ (first :: rest ++ [first]).IsChain (DependsOn components)) := by
  have hdg := isGraphOf_newDependencyGraph hdistinct
  have hacyclic : Acyclic (components.map Component.type) (requires components) ↔
      ∀ typ, ¬ Relation.TransGen (DependsOn components) typ typ := by
    rw [Acyclic, requires_eq_dependsOn]
  rw [← hacyclic]
  refine ⟨fun depth hdepth => ?_, ?_⟩
  · have hdeep := (findCycle_cases hdg hpresent walk (depth -
      (newDependencyGraph components).components.items.length)).1
    rwa [Nat.add_sub_cancel' hdepth] at hdeep
  · rcases (findCycle_cases hdg hpresent walk 0).2 with hcycle | ⟨hnone, hacyclic⟩
    · obtain ⟨first, rest, hcons, hnodup, hchain⟩ := id hcycle
      rw [hcons] at hnodup hchain
      refine ⟨iff_of_false ?_ hcycle.not_acyclic, fun _ => ⟨first, rest, hcons, hnodup, ?_⟩⟩
      · exact hcons ▸ List.cons_ne_nil _ _
      · exact hchain.imp fun _ _ => mem_requires.mp
    · exact ⟨iff_of_true hnone hacyclic, fun hne => absurd hnone hne⟩

/-- Two components that require each other. -/
def mutualComponents : List (Component Unit) := [⟨"a", ["b"], ()⟩, ⟨"b", ["a"], ()⟩]

/-- The cycle of two components that require each other is found. -/
theorem findCycle_mutual :
    (newDependencyGraph mutualComponents).findCycle (.given _) = ["a", "b"] ∧
      ¬ ∀ typ, ¬ Relation.TransGen (DependsOn mutualComponents) typ typ := by
  have hfind : (newDependencyGraph mutualComponents).findCycle (.given _) = ["a", "b"] := by decide
  have hpresent : ∀ typ dependency, DependsOn mutualComponents typ dependency →
      dependency ∈ mutualComponents.map Component.type := by
    rintro typ dependency ⟨comp, hcomp, -, hdep⟩
    revert hdep
    revert dependency
    revert comp
    decide
  refine ⟨hfind, fun hacyclic => ?_⟩
  have hnone := (findCycle_spec (by decide) hpresent (.given _)).2.1.mpr hacyclic
  rw [hfind] at hnone
  cases hnone

end Error

end DubboAdmin.Runtime
