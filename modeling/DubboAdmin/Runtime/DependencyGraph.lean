import DubboAdmin.Lib.TopologicalOrder
import DubboAdmin.Resource

/-!
# The start order of the components

`pkg/core/runtime/dependency_graph.go` puts the components into the order in which they are
initialized. `TopologicalSort` counts for each component the dependencies that have no place yet,
and takes the least component for which none is left until the queue is empty. Where components are
left over, a search through the dependencies finds the cycle that the error names.

The counters and the queue say at each round which components are ready (`SortInv`), so that the
result is the greedy order of the dependency relation (`process_spec`), and what holds of that order
holds of the result (`topologicalSort_order`).
-/

namespace DubboAdmin.Runtime

open Strings (quoted)

/-- Components are known by their types. -/
abbrev ComponentType := String

/-- `Component`, by what the graph reads of it. -/
structure Component (β : Type) where
  type : ComponentType
  requiredDependencies : List ComponentType
  lifecycle : β
deriving DecidableEq

/-- The dependents of each type. -/
abbrev AdjList := AList fun _ : ComponentType => List ComponentType

/-- The number of dependencies that each type waits for. -/
abbrev Indegree := AList fun _ : ComponentType => ℤ

/-- The graph: the components by type, and the dependents of each. -/
structure DependencyGraph (β : Type) where
  components : Keyed (@Component.type β)
  adjList : AdjList

/-- `adjList[dependency]`. -/
def dependents (adjList : AdjList) (dependency : ComponentType) : List ComponentType :=
  (adjList.lookup dependency).getD []

/-- A dependent is appended to `adjList[dependency]`. -/
def addDependent (dependent : ComponentType) (adjList : AdjList) (dependency : ComponentType) :
    AdjList :=
  adjList.insert dependency (dependents adjList dependency ++ [dependent])

/-- The order of the walks over the maps, of which Go promises nothing. -/
structure MapOrders where
  validate : WalkOrder ComponentType
  indegree : WalkOrder ComponentType
  queue : WalkOrder ComponentType
  findCycle : WalkOrder ComponentType

/-- The error of `validate`. -/
def missingDependencyError (typ dependency : ComponentType) : Failure :=
  .err ("[ConfigError], component " ++ quoted typ ++ " requires missing dependency " ++
    quoted dependency ++ ". Hint: Make sure " ++ quoted dependency ++
    " is registered in ComponentRegistry(), cause: missing dependency " ++ quoted dependency)

def newCircularDependencyError : List ComponentType → Failure
  | [] => .err "[ConfigError], circular dependency detected"
  | first :: rest =>
    .err ("[ConfigError], circular dependency detected: " ++
      " -> ".intercalate ((first :: rest) ++ [first]) ++
      ". Please check the RequiredDependencies() methods of these components and break the cycle")

/-- The variables of the loop of `TopologicalSort`. -/
structure Sorting (β : Type) where
  indegree : Indegree
  queue : List ComponentType
  result : List (Component β)
  visited : ComponentType → Bool

/-- `indegree[typ]`. -/
def degree (indegree : Indegree) (typ : ComponentType) : ℤ :=
  (indegree.lookup typ).getD 0

/-- The loop over the dependents of the component that was taken: one dependency less for each. -/
def release (visited : ComponentType → Bool) (indegree : Indegree) (queue : List ComponentType) :
    List ComponentType → Indegree × List ComponentType
  | [] => (indegree, queue)
  | dependent :: rest =>
    let indegree := indegree.insert dependent (degree indegree dependent - 1)
    if degree indegree dependent = 0 ∧ visited dependent = false then
      release visited indegree (queue ++ [dependent]) rest
    else release visited indegree queue rest

/-- The variables of `findCycle`. -/
structure Search where
  visited : ComponentType → Bool
  recStack : ComponentType → Bool
  cycle : List ComponentType

/-- The loop of `dfs` over the dependencies of a node, with the recursive call. -/
def dfsDependencies (dfs : ComponentType → Search → Option (Bool × Search)) :
    List ComponentType → Search → Option (Bool × Search)
  | [], s => some (false, s)
  | dependency :: rest, s =>
    if s.visited dependency = false then
      (dfs dependency s).bind fun found =>
        if found.1 then some found else dfsDependencies dfs rest found.2
    else if s.recStack dependency ∧ dependency ∈ s.cycle then
      some (true, { s with cycle := s.cycle.dropWhile fun typ => typ ≠ dependency })
    else dfsDependencies dfs rest s

/-- The start of `dfs`. -/
def Search.enter (s : Search) (node : ComponentType) : Search where
  visited := Function.update s.visited node true
  recStack := Function.update s.recStack node true
  cycle := s.cycle ++ [node]

/-- The end of `dfs`. -/
def Search.leave (s : Search) (node : ComponentType) : Search :=
  { s with recStack := Function.update s.recStack node false, cycle := s.cycle.dropLast }

/-- The loop of `findCycle` over the components. -/
def dfsAll (dfs : ComponentType → Search → Option (Bool × Search)) :
    List ComponentType → Search → Option (List ComponentType)
  | [], _ => some []
  | typ :: rest, s =>
    if s.visited typ = false then
      (dfs typ s).bind fun found =>
        if found.1 then some found.2.cycle else dfsAll dfs rest found.2
    else dfsAll dfs rest s

section Graph

variable {β : Type}

def newDependencyGraph (components : List (Component β)) : DependencyGraph β where
  components := Keyed.ofList components
  adjList := components.foldl
    (fun adjList comp => comp.requiredDependencies.foldl (addDependent comp.type) adjList)
    (components.foldl (fun adjList comp => adjList.insert comp.type []) ∅)

namespace DependencyGraph

/-- `components[typ].RequiredDependencies()`. The type is that of a component where this is read. -/
def requiredDependencies (dg : DependencyGraph β) (typ : ComponentType) : List ComponentType :=
  (dg.components.get? typ).elim [] Component.requiredDependencies

/-- The check of `validate` on one dependency of a component. -/
def checkDependency (dg : DependencyGraph β) (typ dependency : ComponentType) :
    Except Failure Unit :=
  if (dg.components.get? dependency).isSome then .ok ()
  else .error (missingDependencyError typ dependency)

def validate (dg : DependencyGraph β) (walk : WalkOrder ComponentType) : Except Failure Unit :=
  (walk.order dg.components.keys).forM fun typ =>
    (dg.requiredDependencies typ).forM (dg.checkDependency typ)

/-- `indegree`, before the first round. -/
def indegree (dg : DependencyGraph β) (walk : WalkOrder ComponentType) : Indegree :=
  (walk.order dg.components.keys).foldl
    (fun indegree typ => indegree.insert typ (dg.requiredDependencies typ).length) ∅

/-- The components without dependencies, in the order of the walk. -/
def firstQueue (indegree : Indegree) (walk : WalkOrder ComponentType) : List ComponentType :=
  (walk.order indegree.keys).filter fun typ => degree indegree typ = 0

/-- A round of the loop of `TopologicalSort`, with the first element of the sorted queue and the
others. The first element is the type of a component. -/
def round (dg : DependencyGraph β) (s : Sorting β) (current : ComponentType)
    (queue : List ComponentType) : Sorting β :=
  let visited := Function.update s.visited current true
  let released := release visited s.indegree queue (dependents dg.adjList current)
  { indegree := released.1
    queue := released.2
    result := s.result ++ (dg.components.get? current).toList
    visited := visited }

/-- The loop of `TopologicalSort`, for a number of rounds. -/
def process (dg : DependencyGraph β) : ℕ → Sorting β → Sorting β
  | 0, s => s
  | rounds + 1, s =>
    match sortBy id s.queue with
    | [] => s
    | current :: queue => dg.process rounds (dg.round s current queue)

/-- `dfs`, or nothing where the recursion would go deeper than the given depth. -/
def dfs (dg : DependencyGraph β) : ℕ → ComponentType → Search → Option (Bool × Search)
  | 0, _, _ => none
  | depth + 1, node, s =>
    (dfsDependencies (dg.dfs depth) (dg.requiredDependencies node) (s.enter node)).map fun found =>
      if found.1 then found else (false, found.2.leave node)

/-- `findCycle`. Each call of `dfs` marks a component, so that there are no more calls within each
other than components, and the search returns. -/
def findCycle (dg : DependencyGraph β) (walk : WalkOrder ComponentType) : List ComponentType :=
  (dfsAll (dg.dfs dg.components.items.length) (walk.order dg.components.keys)
    ⟨fun _ => false, fun _ => false, []⟩).getD []

/-- The variables before the first round. -/
def start (dg : DependencyGraph β) (orders : MapOrders) : Sorting β where
  indegree := dg.indegree orders.indegree
  queue := firstQueue (dg.indegree orders.indegree) orders.queue
  result := []
  visited := fun _ => false

/-- `TopologicalSort`. Each round takes a component, so that there are no more rounds than
components. -/
def topologicalSort (dg : DependencyGraph β) (orders : MapOrders) :
    Except Failure (List (Component β)) :=
  match dg.validate orders.validate with
  | .error e => .error e
  | .ok () =>
    let s := dg.process dg.components.items.length (dg.start orders)
    if s.result.length ≠ dg.components.items.length then
      .error (newCircularDependencyError (dg.findCycle orders.findCycle))
    else .ok s.result

end DependencyGraph

end Graph

/-! ## The dependency relation -/

section Dependencies

variable {β : Type} {components : List (Component β)}

/-- The dependencies that the components of a type declare. -/
def requires (components : List (Component β)) (typ : ComponentType) : List ComponentType :=
  (components.filter fun comp => comp.type = typ).flatMap Component.requiredDependencies

/-- A component of the first type declares a dependency on the second. -/
def DependsOn (components : List (Component β)) (typ dependency : ComponentType) : Prop :=
  ∃ comp ∈ components, comp.type = typ ∧ dependency ∈ comp.requiredDependencies

/-- Every dependency is the type of a component. -/
def Present (components : List (Component β)) : Prop :=
  ∀ typ dependency, DependsOn components typ dependency →
    dependency ∈ components.map Component.type

theorem DependsOn.mem {typ dependency : ComponentType} (h : DependsOn components typ dependency) :
    typ ∈ components.map Component.type := by
  obtain ⟨comp, hcomp, rfl, -⟩ := h
  exact List.mem_map_of_mem hcomp

theorem mem_requires {typ dependency : ComponentType} :
    dependency ∈ requires components typ ↔ DependsOn components typ dependency := by
  unfold requires DependsOn
  simp only [List.mem_flatMap, List.mem_filter, decide_eq_true_eq, and_assoc]

theorem requires_eq_dependsOn :
    Requires (components.map Component.type) (requires components) = DependsOn components := by
  funext typ dependency
  exact propext ((and_congr_right fun _ => mem_requires).trans (and_iff_right_of_imp (·.mem)))

theorem requires_cons {comp : Component β} {typ : ComponentType} :
    requires (comp :: components) typ =
      (if comp.type = typ then comp.requiredDependencies else []) ++ requires components typ := by
  unfold requires
  rw [List.filter_cons]
  by_cases h : comp.type = typ
  · simp [h]
  · simp [h]

/-- Where the types are distinct, the dependencies of a type are those of its component. -/
theorem requires_type (hdistinct : (components.map Component.type).Nodup) {comp : Component β}
    (hcomp : comp ∈ components) : requires components comp.type = comp.requiredDependencies := by
  have hfilter : components.filter (fun other => other.type = comp.type) = [comp] := by
    have hnodup : (components.filter fun other => other.type = comp.type).Nodup :=
      (hdistinct.of_map _).filter _
    refine List.perm_singleton.mp ((List.perm_ext_iff_of_nodup hnodup
      (List.nodup_singleton comp)).mpr fun other => ?_)
    rw [List.mem_filter, decide_eq_true_eq, List.mem_singleton]
    refine ⟨fun h => List.inj_on_of_nodup_map hdistinct h.1 hcomp h.2, ?_⟩
    rintro rfl
    exact ⟨hcomp, rfl⟩
  unfold requires
  rw [hfilter, List.flatMap_singleton]

end Dependencies

/-! ## The graph of distinct components -/

section NewGraph

variable {β : Type} {components : List (Component β)}

theorem dependents_addDependent (dependent : ComponentType) (adjList : AdjList)
    (dependency typ : ComponentType) :
    dependents (addDependent dependent adjList dependency) typ =
      dependents adjList typ ++ if typ = dependency then [dependent] else [] := by
  unfold addDependent
  by_cases h : typ = dependency
  · subst h
    rw [if_pos rfl]
    unfold dependents
    rw [AList.lookup_insert, Option.getD_some]
  · rw [if_neg h, List.append_nil]
    unfold dependents
    rw [AList.lookup_insert_ne h]

/-- A component is a dependent of each of its dependencies, as often as it declares it. -/
theorem count_dependents_foldl (dependent : ComponentType) (dependencies : List ComponentType)
    (adjList : AdjList) (dependency typ : ComponentType) :
    (dependents (dependencies.foldl (addDependent dependent) adjList) dependency).count typ =
      (dependents adjList dependency).count typ +
        (if dependent = typ then dependencies else []).count dependency := by
  induction dependencies generalizing adjList with
  | nil => simp
  | cons first rest ih =>
    rw [List.foldl_cons, ih, dependents_addDependent, List.count_append]
    by_cases htyp : dependent = typ
    · by_cases hfirst : dependency = first
      · simp [htyp, hfirst]
        omega
      · simp [htyp, hfirst, Ne.symm hfirst]
    · by_cases hfirst : dependency = first
      · simp [htyp, hfirst]
      · simp [htyp, hfirst]

theorem dependents_foldl_insert (adjList : AdjList)
    (hempty : ∀ typ, dependents adjList typ = []) (dependency : ComponentType) :
    dependents (components.foldl (fun adjList comp => adjList.insert comp.type []) adjList)
      dependency = [] := by
  induction components generalizing adjList with
  | nil => exact hempty dependency
  | cons comp components ih =>
    refine ih _ fun typ => ?_
    unfold dependents
    by_cases h : typ = comp.type
    · rw [h, AList.lookup_insert, Option.getD_some]
    · rw [AList.lookup_insert_ne h]
      exact hempty typ

/-- A type occurs among the dependents of a type as often as it requires it. -/
theorem count_dependents (components : List (Component β)) (dependency typ : ComponentType) :
    (dependents (newDependencyGraph components).adjList dependency).count typ =
      (requires components typ).count dependency := by
  have hfold : ∀ (l : List (Component β)) (adjList : AdjList),
      (dependents (l.foldl (fun adjList comp =>
        comp.requiredDependencies.foldl (addDependent comp.type) adjList) adjList)
          dependency).count typ =
        (dependents adjList dependency).count typ + (requires l typ).count dependency := by
    intro l
    induction l with
    | nil => exact fun _ => rfl
    | cons comp l ih =>
      intro adjList
      rw [List.foldl_cons, ih, count_dependents_foldl, requires_cons, List.count_append, add_assoc]
  unfold newDependencyGraph
  rw [hfold, dependents_foldl_insert ∅ (fun _ => rfl), List.count_nil, zero_add]

/-- A loop that stops at the first error. -/
theorem forM_cases {α : Type} (f : α → Except Failure Unit) (l : List α) :
    (l.forM f = .ok () ∧ ∀ a ∈ l, f a = .ok ()) ∨ ∃ a ∈ l, ∃ e, f a = .error e ∧
      l.forM f = .error e := by
  induction l with
  | nil => exact .inl ⟨rfl, fun a ha => absurd ha List.not_mem_nil⟩
  | cons a l ih =>
    show ((do f a; l.forM f) = _ ∧ _) ∨ ∃ b ∈ a :: l, ∃ e, f b = _ ∧ (do f a; l.forM f) = _
    cases ha : f a with
    | error e => exact .inr ⟨a, List.mem_cons_self, e, ha, rfl⟩
    | ok u =>
      rcases ih with ⟨hok, hall⟩ | ⟨b, hb, e, hbe, herr⟩
      · exact .inl ⟨hok, List.forall_mem_cons.mpr ⟨ha, hall⟩⟩
      · exact .inr ⟨b, List.mem_cons_of_mem a hb, e, hbe, herr⟩

/-- The graph holds the components, whose types are distinct, and their dependents. -/
structure IsGraphOf (dg : DependencyGraph β) (components : List (Component β)) : Prop where
  distinct : (components.map Component.type).Nodup
  items : dg.components.items.Perm components
  /-- A type occurs among the dependents of a type as often as it requires it. -/
  count_dependents : ∀ dependency typ,
    (dependents dg.adjList dependency).count typ = (requires components typ).count dependency

theorem isGraphOf_newDependencyGraph (hdistinct : (components.map Component.type).Nodup) :
    IsGraphOf (newDependencyGraph components) components where
  distinct := hdistinct
  items := (List.perm_ext_iff_of_nodup ((newDependencyGraph components).components.nodup.of_map _)
    (hdistinct.of_map _)).mpr fun _ =>
      Keyed.mem_ofList_of_consistent fun _ hx _ hy h => List.inj_on_of_nodup_map hdistinct hx hy h
  count_dependents := count_dependents components

variable {dg : DependencyGraph β} (hdg : IsGraphOf dg components)

include hdg

theorem IsGraphOf.get?_type {comp : Component β} (hcomp : comp ∈ components) :
    dg.components.get? comp.type = some comp :=
  Keyed.get?_key (hdg.items.mem_iff.mpr hcomp)

theorem IsGraphOf.keys : dg.components.keys.Perm (components.map Component.type) :=
  hdg.items.map _

theorem IsGraphOf.isSome_get? {typ : ComponentType} :
    (dg.components.get? typ).isSome ↔ typ ∈ components.map Component.type := by
  rw [Option.isSome_iff_exists, ← Keyed.mem_keys_iff, hdg.keys.mem_iff]

/-- What the graph finds for a type is what its component declares. -/
theorem IsGraphOf.requiredDependencies_eq (typ : ComponentType) :
    dg.requiredDependencies typ = requires components typ := by
  unfold DependencyGraph.requiredDependencies
  cases hget : dg.components.get? typ with
  | none =>
    refine (List.eq_nil_iff_forall_not_mem.mpr fun dependency hmem => ?_).symm
    obtain ⟨comp, hcomp, rfl, -⟩ := mem_requires.mp hmem
    rw [hdg.get?_type hcomp] at hget
    cases hget
  | some comp =>
    obtain ⟨hcomp, rfl⟩ := Keyed.get?_eq_some_iff.mp hget
    exact (requires_type hdg.distinct (hdg.items.mem_iff.mp hcomp)).symm

/-- `validate` passes where every dependency is there, and otherwise names one that is not. -/
theorem validate_spec (walk : WalkOrder ComponentType) :
    (dg.validate walk = .ok () ∧ Present components) ∨
    ∃ typ dependency, DependsOn components typ dependency ∧
      dependency ∉ components.map Component.type ∧
      dg.validate walk =
        .error (missingDependencyError typ dependency) := by
  have hwalk : ∀ {typ dependency}, DependsOn components typ dependency →
      typ ∈ walk.order dg.components.keys ∧ dependency ∈ dg.requiredDependencies typ := by
    intro typ dependency hdep
    rw [(walk.perm _).mem_iff, hdg.keys.mem_iff,
      hdg.requiredDependencies_eq]
    exact ⟨hdep.mem, mem_requires.mpr hdep⟩
  have hcheck : ∀ typ dependency, dependency ∈ components.map Component.type ∧
      dg.checkDependency typ dependency = .ok () ∨
      dependency ∉ components.map Component.type ∧
        dg.checkDependency typ dependency = .error (missingDependencyError typ dependency) := by
    intro typ dependency
    by_cases h : (dg.components.get? dependency).isSome
    · exact .inl ⟨hdg.isSome_get?.mp h, if_pos h⟩
    · exact .inr ⟨mt hdg.isSome_get?.mpr h, if_neg h⟩
  rcases forM_cases (fun typ => (dg.requiredDependencies typ).forM (dg.checkDependency typ))
    (walk.order dg.components.keys) with ⟨hok, hall⟩ | ⟨typ, -, e, he, herr⟩
  · refine .inl ⟨hok, fun typ dependency hdep => ?_⟩
    rcases forM_cases (dg.checkDependency typ) (dg.requiredDependencies typ) with
      ⟨-, hchecked⟩ | ⟨_, -, e, -, herr⟩
    · rcases hcheck typ dependency with ⟨hpresent, -⟩ | ⟨-, hmissing⟩
      · exact hpresent
      · cases hmissing.symm.trans (hchecked dependency (hwalk hdep).2)
    · cases herr.symm.trans (hall typ (hwalk hdep).1)
  · rcases forM_cases (dg.checkDependency typ) (dg.requiredDependencies typ) with
      ⟨hchecked, -⟩ | ⟨dependency, hmem, e', he', herr'⟩
    · cases hchecked.symm.trans he
    · rcases hcheck typ dependency with ⟨-, hpresent⟩ | ⟨habsent, hmissing⟩
      · cases hpresent.symm.trans he'
      · rw [hdg.requiredDependencies_eq] at hmem
        refine .inr ⟨typ, dependency, mem_requires.mp hmem, habsent, ?_⟩
        rw [← hmissing, he', ← herr', he]
        exact herr

end NewGraph

/-! ## The loop -/

section Loop

theorem degree_insert (indegree : Indegree) (typ typ' : ComponentType) (deg : ℤ) :
    degree (indegree.insert typ deg) typ' = if typ' = typ then deg else degree indegree typ' := by
  unfold degree
  by_cases h : typ' = typ
  · rw [if_pos h, h, AList.lookup_insert, Option.getD_some]
  · rw [if_neg h, AList.lookup_insert_ne h]

/-- The dependents that the loop puts into the queue are those that wait for nothing else. None is
put there twice, also where it occurs several times. -/
theorem release_spec {visited : ComponentType → Bool} {indegree : Indegree}
    {queue dependents : List ComponentType}
    (hcount : ∀ typ ∈ dependents, (dependents.count typ : ℤ) ≤ degree indegree typ)
    (hvisited : ∀ typ ∈ dependents, visited typ = false) (hnodup : queue.Nodup)
    (hqueue : ∀ typ ∈ queue, typ ∉ dependents) :
    (∀ typ, degree (release visited indegree queue dependents).1 typ =
      degree indegree typ - dependents.count typ) ∧
    (∀ typ, typ ∈ (release visited indegree queue dependents).2 ↔
      typ ∈ queue ∨ typ ∈ dependents ∧ degree indegree typ = dependents.count typ) ∧
    (release visited indegree queue dependents).2.Nodup := by
  induction dependents generalizing indegree queue with
  | nil => simp [release, hnodup]
  | cons dependent rest ih =>
    have hpos : ((rest.count dependent + 1 : ℕ) : ℤ) ≤ degree indegree dependent := by
      have hfirst := hcount dependent List.mem_cons_self
      rwa [List.count_cons_self] at hfirst
    -- One occurrence less, and one dependency less to wait for.
    have hrest : ∀ typ, degree (indegree.insert dependent (degree indegree dependent - 1)) typ -
        rest.count typ = degree indegree typ - (dependent :: rest).count typ := by
      intro typ
      rw [degree_insert, List.count_cons]
      by_cases h : typ = dependent
      · subst h
        simp
        omega
      · simp [h, Ne.symm h]
    have hcount' : ∀ typ ∈ rest, (rest.count typ : ℤ) ≤
        degree (indegree.insert dependent (degree indegree dependent - 1)) typ := by
      intro typ htyp
      have hle := hcount typ (List.mem_cons_of_mem _ htyp)
      have heq := hrest typ
      omega
    have hvisited' : ∀ typ ∈ rest, visited typ = false :=
      fun typ htyp => hvisited typ (List.mem_cons_of_mem _ htyp)
    have hother : ∀ typ, typ ≠ dependent → (typ ∈ rest ∧
        degree (indegree.insert dependent (degree indegree dependent - 1)) typ = rest.count typ ↔
          typ ∈ dependent :: rest ∧ degree indegree typ = (dependent :: rest).count typ) := by
      intro typ h
      rw [degree_insert, if_neg h, List.count_cons_of_ne (Ne.symm h), List.mem_cons,
        or_iff_right h]
    unfold release
    dsimp only
    rw [degree_insert, if_pos rfl]
    by_cases hzero : degree indegree dependent - 1 = 0
    · -- This was the last occurrence.
      rw [if_pos ⟨hzero, hvisited dependent List.mem_cons_self⟩]
      have hlast : dependent ∉ rest := by
        rw [← List.count_eq_zero]
        omega
      have hnew : dependent ∉ queue := fun hmem => hqueue dependent hmem List.mem_cons_self
      have hqueue' : ∀ typ ∈ queue ++ [dependent], typ ∉ rest := by
        intro typ htyp
        rcases List.mem_append.mp htyp with htyp | htyp
        · exact fun hr => hqueue typ htyp (List.mem_cons_of_mem _ hr)
        · exact List.mem_singleton.mp htyp ▸ hlast
      obtain ⟨hdegree, hmem, hnodup'⟩ := ih hcount' hvisited'
        (List.concat_eq_append ▸ hnodup.concat hnew) hqueue'
      refine ⟨fun typ => (hdegree typ).trans (hrest typ), fun typ => (hmem typ).trans ?_, hnodup'⟩
      by_cases h : typ = dependent
      · subst h
        have hdegree : degree indegree typ = ((typ :: rest).count typ : ℕ) := by
          rw [List.count_cons_self, List.count_eq_zero.mpr hlast]
          omega
        exact iff_of_true (.inl (List.mem_append_right _ (List.mem_singleton_self typ)))
          (.inr ⟨List.mem_cons_self, hdegree⟩)
      · rw [hother typ h, List.mem_append, List.mem_singleton, or_iff_left h]
    · -- Other occurrences or other dependencies are left.
      rw [if_neg fun h => hzero h.1]
      obtain ⟨hdegree, hmem, hnodup'⟩ := ih hcount' hvisited' hnodup
        fun typ htyp hr => hqueue typ htyp (List.mem_cons_of_mem _ hr)
      refine ⟨fun typ => (hdegree typ).trans (hrest typ), fun typ => (hmem typ).trans ?_, hnodup'⟩
      refine or_congr_right ?_
      by_cases h : typ = dependent
      · subst h
        rw [degree_insert, if_pos rfl, List.count_cons_self]
        refine ⟨fun hr => ⟨List.mem_cons_self, by push_cast; omega⟩, fun hr => ⟨?_, ?_⟩⟩
        · by_contra hlast
          rw [List.count_eq_zero.mpr hlast] at hr
          exact hzero (by omega)
        · have hdegree := hr.2
          push_cast at hdegree
          omega
      · exact hother typ h

variable {β : Type}

/-- The types of the components that have a place. -/
def Sorting.done (s : Sorting β) : List ComponentType := s.result.map Component.type

/-- What holds before each round. -/
structure SortInv (components : List (Component β)) (s : Sorting β) : Prop where
  result : ∀ comp ∈ s.result, comp ∈ components
  /-- The dependencies of a component with a place have one. -/
  closed : ∀ typ ∈ s.done, ∀ dependency ∈ requires components typ, dependency ∈ s.done
  /-- The counters say how many dependencies have no place yet. -/
  indegree : ∀ typ ∈ components.map Component.type,
    degree s.indegree typ = waiting s.done (requires components typ)
  queue : ∀ typ, typ ∈ s.queue ↔
    Ready (components.map Component.type) (requires components) s.done typ
  nodup : s.queue.Nodup
  visited : ∀ typ, s.visited typ = true ↔ typ ∈ s.done

variable {components : List (Component β)} {s : Sorting β}

/-- The first element of the sorted queue is the least one, and the others stay. -/
theorem SortInv.sorted (h : SortInv components s) {current : ComponentType}
    {queue : List ComponentType} (hsort : sortBy id s.queue = current :: queue) :
    Ready (components.map Component.type) (requires components) s.done current ∧
      (∀ typ, Ready (components.map Component.type) (requires components) s.done typ →
        current ≤ typ) ∧
      queue.Nodup ∧ ∀ typ, typ ∈ queue ↔ typ ∈ s.queue ∧ typ ≠ current := by
  have hperm : (current :: queue).Perm s.queue := hsort ▸ List.perm_insertionSort _ s.queue
  have hnodup : (current :: queue).Nodup := hperm.nodup_iff.mpr h.nodup
  have hascending : Ascending id (current :: queue) :=
    hsort ▸ ascending_sortBy (by rw [List.map_id]; exact h.nodup)
  obtain ⟨hnew, hnodup'⟩ := List.nodup_cons.mp hnodup
  refine ⟨(h.queue current).mp (hperm.mem_iff.mp List.mem_cons_self), fun typ htyp => ?_,
    hnodup', fun typ => ?_⟩
  · rcases List.mem_cons.mp (hperm.mem_iff.mpr ((h.queue typ).mpr htyp)) with rfl | hmem
    · exact le_rfl
    · exact le_of_lt (List.rel_of_pairwise_cons hascending hmem)
  · rw [← hperm.mem_iff, List.mem_cons]
    refine ⟨fun hmem => ⟨.inr hmem, fun heq => hnew (heq ▸ hmem)⟩, ?_⟩
    rintro ⟨rfl | hmem, hne⟩
    · exact absurd rfl hne
    · exact hmem

/-- A component is ready after another one where it was ready before, or where it waited for that
one only. -/
theorem ready_concat_iff {nodes done : List ComponentType}
    {requires : ComponentType → List ComponentType} {current typ : ComponentType}
    (hcurrent : current ∉ done) (htyp : typ ∈ nodes) :
    Ready nodes requires (done ++ [current]) typ ↔
      (Ready nodes requires done typ ∧ typ ≠ current) ∨
        (typ ∉ done ∧ typ ≠ current ∧ current ∈ requires typ ∧
          waiting done (requires typ) = (requires typ).count current) := by
  have hwaiting := waiting_concat hcurrent (requires typ)
  have hzero := @waiting_eq_zero _ _ (done ++ [current]) (requires typ)
  have hzero' := @waiting_eq_zero _ _ done (requires typ)
  have hcount := @List.count_eq_zero _ _ _ current (requires typ)
  constructor
  · rintro ⟨-, hnot, hrequired⟩
    rw [List.mem_append, List.mem_singleton, not_or] at hnot
    have h := hzero.mpr hrequired
    by_cases hmem : current ∈ requires typ
    · exact .inr ⟨hnot.1, hnot.2, hmem, by omega⟩
    · refine .inl ⟨⟨htyp, hnot.1, hzero'.mp ?_⟩, hnot.2⟩
      have := hcount.mpr hmem
      omega
  · rintro (⟨hready, hne⟩ | ⟨hnot, hne, -, hequal⟩)
    · refine ⟨htyp, ?_, fun d hd => List.mem_append_left _ (hready.required d hd)⟩
      rw [List.mem_append, List.mem_singleton, not_or]
      exact ⟨hready.not_done, hne⟩
    · refine ⟨htyp, ?_, hzero.mp (by omega)⟩
      rw [List.mem_append, List.mem_singleton, not_or]
      exact ⟨hnot, hne⟩

variable {dg : DependencyGraph β} (hdg : IsGraphOf dg components)

include hdg in
/-- A round keeps the invariant. -/
theorem SortInv.round (h : SortInv components s) {current : ComponentType}
    {queue : List ComponentType} (hsort : sortBy id s.queue = current :: queue) :
    (dg.round s current queue).done = s.done ++ [current] ∧
      SortInv components (dg.round s current queue) := by
  obtain ⟨hready, -, hnodup, hqueue⟩ := h.sorted hsort
  obtain ⟨comp, hcomp, htype⟩ := List.mem_map.mp hready.mem
  have hget : dg.components.get? current = some comp :=
    htype ▸ hdg.get?_type hcomp
  have hdone : (dg.round s current queue).done =
      s.done ++ [current] := by
    unfold DependencyGraph.round Sorting.done
    rw [hget, Option.toList_some, List.map_append, List.map_singleton, htype]
  have hcount := fun typ => hdg.count_dependents current typ
  have hwaiting := fun typ => waiting_concat hready.not_done (requires components typ)
  -- A dependent is a component that waits for the one that was taken.
  have hdependent : ∀ typ, typ ∈ dependents dg.adjList current ↔
      current ∈ requires components typ := by
    intro typ
    rw [← List.count_pos_iff, ← List.count_pos_iff, hcount]
  have hmem : ∀ typ, current ∈ requires components typ → typ ∈ components.map Component.type :=
    fun _ htyp => (mem_requires.mp htyp).mem
  have hlater : ∀ typ, current ∈ requires components typ → typ ∉ s.done ∧ typ ≠ current := by
    refine fun typ htyp => ⟨fun hdone => ?_, fun heq => ?_⟩
    · exact hready.not_done (h.closed typ hdone current htyp)
    · exact hready.not_done (hready.required current (heq ▸ htyp))
  have hvisited : ∀ typ, Function.update s.visited current true typ = true ↔
      typ ∈ s.done ++ [current] := by
    intro typ
    rw [List.mem_append, List.mem_singleton, ← h.visited]
    by_cases heq : typ = current
    · simp [heq]
    · simp [heq]
  obtain ⟨hdegree, hmemqueue, hnodup'⟩ :=
    @release_spec (Function.update s.visited current true) s.indegree queue
      (dependents dg.adjList current)
      (by
        intro typ htyp
        have hle := hwaiting typ
        rw [h.indegree typ (hmem typ ((hdependent typ).mp htyp)), hcount]
        omega)
      (by
        intro typ htyp
        obtain ⟨hnot, hne⟩ := hlater typ ((hdependent typ).mp htyp)
        rw [Bool.eq_false_iff, Ne, hvisited, List.mem_append, List.mem_singleton, not_or]
        exact ⟨hnot, hne⟩)
      hnodup
      (by
        intro typ htyp hdep
        have hready' := (h.queue typ).mp ((hqueue typ).mp htyp).1
        exact hready.not_done (hready'.required current ((hdependent typ).mp hdep)))
  refine ⟨hdone, ?_, ?_, ?_, ?_, hnodup', ?_⟩
  · intro c hc
    rcases List.mem_append.mp hc with hc | hc
    · exact h.result c hc
    · rw [hget, Option.toList_some, List.mem_singleton] at hc
      exact hc ▸ hcomp
  · rw [hdone]
    intro typ htyp dependency hdependency
    rcases List.mem_append.mp htyp with htyp | htyp
    · exact List.mem_append_left _ (h.closed typ htyp dependency hdependency)
    · rw [List.mem_singleton.mp htyp] at hdependency
      exact List.mem_append_left _ (hready.required dependency hdependency)
  · rw [hdone]
    intro typ htyp
    have heq := hwaiting typ
    refine (hdegree typ).trans ?_
    rw [h.indegree typ htyp, hcount]
    omega
  · rw [hdone]
    intro typ
    refine (hmemqueue typ).trans ?_
    by_cases htyp : typ ∈ components.map Component.type
    · rw [ready_concat_iff hready.not_done htyp, hqueue, h.queue, hdependent, hcount,
        h.indegree typ htyp, Int.natCast_inj]
      refine or_congr_right ⟨fun hwait => ?_, fun hwait => hwait.2.2⟩
      exact ⟨(hlater typ hwait.1).1, (hlater typ hwait.1).2, hwait⟩
    · refine iff_of_false ?_ fun hready' => htyp hready'.mem
      rintro (hmem' | hmem')
      · exact htyp ((h.queue typ).mp ((hqueue typ).mp hmem').1).mem
      · exact htyp (hmem typ ((hdependent typ).mp hmem'.1))
  · rw [hdone]
    exact hvisited

include hdg in
/-- The rounds take the greedy order. -/
theorem process_spec {rounds : ℕ} (h : SortInv components s)
    (hrounds : waiting s.done (components.map Component.type) ≤ rounds) :
    SortInv components (dg.process rounds s) ∧
      (dg.process rounds s).queue = [] ∧
      ∃ order, (dg.process rounds s).done = s.done ++ order ∧
        Greedy (components.map Component.type) (requires components) s.done order := by
  induction rounds generalizing s with
  | zero =>
    -- All components have a place.
    have hall := waiting_eq_zero.mp (Nat.le_zero.mp hrounds)
    have hnone : ∀ typ, ¬ Ready (components.map Component.type) (requires components) s.done typ :=
      fun typ hready => hready.not_done (hall typ hready.mem)
    refine ⟨h, List.eq_nil_iff_forall_not_mem.mpr fun typ hmem => hnone typ ((h.queue typ).mp hmem),
      [], (List.append_nil _).symm, .stop hnone⟩
  | succ rounds ih =>
    unfold DependencyGraph.process
    cases hsort : sortBy id s.queue with
    | nil =>
      have hempty : s.queue = [] :=
        List.perm_nil.mp (hsort ▸ (List.perm_insertionSort _ s.queue).symm)
      refine ⟨h, hempty, [], (List.append_nil _).symm, .stop fun typ hready => ?_⟩
      have hmem := (h.queue typ).mpr hready
      rw [hempty] at hmem
      exact absurd hmem List.not_mem_nil
    | cons current queue =>
      obtain ⟨hready, hleast, -, -⟩ := h.sorted hsort
      obtain ⟨hdone, hround⟩ := h.round hdg hsort
      have hfewer := waiting_concat hready.not_done (components.map Component.type)
      have hcurrent := List.count_pos_iff.mpr hready.mem
      obtain ⟨hinv, hqueue, order, horder, hgreedy⟩ := ih hround (by rw [hdone]; omega)
      rw [hdone] at horder hgreedy
      refine ⟨hinv, hqueue, current :: order, ?_, .take hready hleast hgreedy⟩
      rw [horder, List.append_assoc, List.singleton_append]

/-- The counters before the first round. -/
theorem degree_foldl_insert (deg : ComponentType → ℤ) (types : List ComponentType)
    (indegree : Indegree) {typ : ComponentType} (htyp : typ ∈ types) :
    degree (types.foldl (fun indegree typ => indegree.insert typ (deg typ)) indegree) typ =
      deg typ := by
  induction types using List.reverseRecOn with
  | nil => exact absurd htyp List.not_mem_nil
  | append_singleton types last ih =>
    rw [List.foldl_append, List.foldl_cons, List.foldl_nil, degree_insert]
    by_cases h : typ = last
    · rw [if_pos h, h]
    · rw [if_neg h]
      refine ih ?_
      rcases List.mem_append.mp htyp with htyp | htyp
      · exact htyp
      · exact absurd (List.mem_singleton.mp htyp) h

theorem mem_foldl_insert (deg : ComponentType → ℤ) (types : List ComponentType)
    (indegree : Indegree) (typ : ComponentType) :
    typ ∈ types.foldl (fun indegree typ => indegree.insert typ (deg typ)) indegree ↔
      typ ∈ types ∨ typ ∈ indegree := by
  induction types generalizing indegree with
  | nil => simp
  | cons first rest ih =>
    rw [List.foldl_cons, ih, AList.mem_insert, List.mem_cons]
    tauto

include hdg in
/-- The invariant holds before the first round. -/
theorem sortInv_start (orders : MapOrders) :
    SortInv components (dg.start orders) := by
  have hwalk : ∀ typ, typ ∈ orders.indegree.order dg.components.keys ↔
      typ ∈ components.map Component.type := by
    intro typ
    rw [(orders.indegree.perm _).mem_iff, hdg.keys.mem_iff]
  have hdegree : ∀ typ ∈ components.map Component.type,
      degree (dg.indegree orders.indegree) typ = (requires components typ).length := by
    intro typ htyp
    rw [← hdg.requiredDependencies_eq]
    exact degree_foldl_insert (fun typ => (dg.requiredDependencies typ).length) _ ∅
      ((hwalk typ).mpr htyp)
  have hkeys : ∀ typ, typ ∈ (dg.indegree orders.indegree).keys ↔
      typ ∈ components.map Component.type := by
    intro typ
    rw [← AList.mem_keys, ← hwalk]
    refine (mem_foldl_insert (fun typ => (dg.requiredDependencies typ).length) _ ∅ typ).trans ?_
    exact or_iff_left (AList.notMem_empty typ)
  refine ⟨fun _ hmem => absurd hmem List.not_mem_nil, fun _ hmem => absurd hmem List.not_mem_nil,
    fun typ htyp => ?_, fun typ => ?_, ?_, fun typ => ?_⟩
  · exact (hdegree typ htyp).trans (congrArg _ (waiting_nil _).symm)
  · show typ ∈ (orders.queue.order (dg.indegree orders.indegree).keys).filter _ ↔ _
    rw [List.mem_filter, (orders.queue.perm _).mem_iff, hkeys, decide_eq_true_eq]
    constructor
    · rintro ⟨htyp, hzero⟩
      rw [hdegree typ htyp, Int.natCast_eq_zero, List.length_eq_zero_iff] at hzero
      refine ⟨htyp, List.not_mem_nil, ?_⟩
      rw [hzero]
      exact fun d hd => absurd hd List.not_mem_nil
    · intro hready
      refine ⟨hready.mem, ?_⟩
      rw [hdegree typ hready.mem, Int.natCast_eq_zero, List.length_eq_zero_iff]
      exact List.eq_nil_iff_forall_not_mem.mpr fun d hd =>
        absurd (hready.required d hd) List.not_mem_nil
  · exact (((orders.queue.perm _).nodup_iff).mpr (dg.indegree orders.indegree).nodupKeys).filter _
  · exact iff_of_false Bool.false_ne_true List.not_mem_nil

end Loop

/-! ## The result -/

section Result

variable {β : Type} {components : List (Component β)}

/-- Every component comes after all its dependencies. -/
def AfterDependencies (order : List (Component β)) : Prop :=
  ∀ front comp back, order = front ++ comp :: back →
    ∀ dependency ∈ comp.requiredDependencies, dependency ∈ front.map Component.type

/-- The types are in the greedy order. -/
def GreedyOrder (components order : List (Component β)) : Prop :=
  Greedy (components.map Component.type) (requires components) [] (order.map Component.type)

variable {order : List (Component β)}

theorem perm_of_length (hmem : ∀ comp ∈ order, comp ∈ components)
    (hnodup : (order.map Component.type).Nodup) (hlength : order.length = components.length) :
    order.Perm components :=
  (List.subperm_of_subset (hnodup.of_map _) hmem).perm_of_length_le hlength.ge

theorem dependsOn_congr {components' : List (Component β)} (h : components'.Perm components) :
    DependsOn components' = DependsOn components := by
  funext typ dependency
  unfold DependsOn
  simp only [h.mem_iff]

variable {dg : DependencyGraph β} (hdg : IsGraphOf dg components)

include hdg

/-- For components of the list this is what `Admissible` says of the types. -/
theorem afterDependencies_iff (hmem : ∀ comp ∈ order, comp ∈ components) :
    AfterDependencies order ↔
      Admissible (requires components) [] (order.map Component.type) := by
  rw [admissible_iff]
  constructor
  · intro h front typ back hsplit dependency hdep
    obtain ⟨front', rest, rfl, rfl, hrest⟩ := List.map_eq_append_iff.mp hsplit
    obtain ⟨comp, back', rfl, rfl, rfl⟩ := List.map_eq_cons_iff.mp hrest
    rw [requires_type hdg.distinct (hmem comp (List.mem_append_right _ List.mem_cons_self))] at hdep
    exact h front' comp back' rfl dependency hdep
  · rintro h front comp back rfl dependency hdep
    have hcomp := hmem comp (List.mem_append_right _ List.mem_cons_self)
    exact h (front.map Component.type) comp.type (back.map Component.type)
      (by rw [List.map_append, List.map_cons]) dependency
      (by rwa [requires_type hdg.distinct hcomp])

/-- What the loop ends with. -/
theorem process_start (orders : MapOrders) :
    ∀ result, (dg.process
        dg.components.items.length
        (dg.start orders)).result = result →
      (∀ comp ∈ result, comp ∈ components) ∧ GreedyOrder components result := by
  have hrounds : waiting (dg.start orders).done
      (components.map Component.type) ≤
        dg.components.items.length := by
    rw [hdg.items.length_eq]
    exact (waiting_nil _).le.trans (List.length_map _).le
  obtain ⟨hinv, -, order, hdone, hgreedy⟩ :=
    process_spec hdg (sortInv_start hdg orders) hrounds
  rintro _ rfl
  refine ⟨hinv.result, ?_⟩
  have hresult := hdone.trans (List.nil_append order)
  unfold Sorting.done at hresult
  unfold GreedyOrder
  rw [hresult]
  exact hgreedy

/-- `TopologicalSort` by its outcomes: a dependency that is missing, components that the greedy
order does not reach, or the greedy order. -/
theorem topologicalSort_cases (orders : MapOrders) :
    (∃ typ dependency, DependsOn components typ dependency ∧
      dependency ∉ components.map Component.type ∧
      dg.topologicalSort orders =
        .error (missingDependencyError typ dependency)) ∨
    Present components ∧ ((¬ Acyclic (components.map Component.type) (requires components) ∧
      dg.topologicalSort orders =
        .error (newCircularDependencyError
          (dg.findCycle orders.findCycle))) ∨
    (∃ order, order.Perm components ∧ GreedyOrder components order ∧
      dg.topologicalSort orders = .ok order)) := by
  unfold DependencyGraph.topologicalSort
  rcases validate_spec hdg orders.validate with
    ⟨hok, hpresent⟩ | ⟨typ, dependency, hdep, habsent, herr⟩
  · rw [hok]
    refine .inr ⟨hpresent, ?_⟩
    obtain ⟨hmem, hgreedy⟩ := process_start hdg orders _ rfl
    have hnodup := hgreedy.nodup List.nodup_nil
    rw [List.nil_append] at hnodup
    have hlength := hdg.items.length_eq
    generalize (dg.process _ _) = s at *
    by_cases hall : s.result.length = dg.components.items.length
    · refine .inr ⟨s.result, perm_of_length hmem hnodup (hall.trans hlength), hgreedy, ?_⟩
      rw [if_neg (not_not.mpr hall)]
    · refine .inl ⟨fun hacyclic => hall ?_, if_pos hall⟩
      have hcovers := hgreedy.covers hacyclic fun typ _ dependency hdep =>
        hpresent typ dependency (mem_requires.mp hdep)
      have hperm : (s.result.map Component.type).Perm (components.map Component.type) :=
        (List.perm_ext_iff_of_nodup hnodup hdg.distinct).mpr fun typ =>
          ⟨hgreedy.mem_nodes typ, hcovers typ⟩
      have hlength' := hperm.length_eq
      rw [List.length_map, List.length_map] at hlength'
      rw [hlength', hlength]
  · rw [herr]
    exact .inl ⟨typ, dependency, hdep, habsent, rfl⟩

/-- A list of components without duplicate types is known by its types. -/
theorem eq_of_types_eq {other : List (Component β)}
    (horder : ∀ comp ∈ order, comp ∈ components) (hother : ∀ comp ∈ other, comp ∈ components)
    (htypes : order.map Component.type = other.map Component.type) : order = other := by
  have hget : ∀ l : List (Component β), (∀ comp ∈ l, comp ∈ components) →
      (l.map Component.type).filterMap dg.components.get? = l := by
    intro l hl
    rw [List.filterMap_map]
    refine (List.filterMap_congr fun comp hcomp => ?_).trans List.filterMap_some
    exact hdg.get?_type (hl comp hcomp)
  rw [← hget order horder, htypes, hget other hother]

/-- The order of the components is the least one. -/
theorem least_of_greedy (hgreedy : GreedyOrder components order) {other : List (Component β)}
    (hperm : other.Perm components) (hafter : AfterDependencies other) :
    order.map Component.type = other.map Component.type ∨
      List.Lex (· < ·) (order.map Component.type) (other.map Component.type) := by
  have htypes := hperm.map Component.type
  refine hgreedy.least ((afterDependencies_iff hdg fun _ => hperm.mem_iff.mp).mp hafter)
    ?_ (fun typ => htypes.mem_iff.mp) fun typ => ?_
  · rw [List.nil_append]
    exact htypes.nodup_iff.mpr hdg.distinct
  · rw [List.nil_append]
    exact htypes.mem_iff.mpr

theorem greedy_of_ok {orders : MapOrders}
    (hok : dg.topologicalSort orders = .ok order) :
    order.Perm components ∧ GreedyOrder components order := by
  rcases topologicalSort_cases hdg orders with
    ⟨_, _, -, -, herr⟩ | ⟨-, ⟨-, herr⟩ | ⟨order', hperm, hgreedy, hok'⟩⟩
  · cases herr.symm.trans hok
  · cases herr.symm.trans hok
  · cases hok'.symm.trans hok
    exact ⟨hperm, hgreedy⟩

/-- `TopologicalSort` succeeds where every dependency is there and there are no cycles. -/
theorem exists_ok_iff (orders : MapOrders) :
    (∃ order, dg.topologicalSort orders = .ok order) ↔
      Present components ∧ ∀ typ, ¬ Relation.TransGen (DependsOn components) typ typ := by
  rw [← requires_eq_dependsOn]
  rcases topologicalSort_cases hdg orders with
    ⟨typ, dependency, hdep, habsent, herr⟩ |
    ⟨hpresent, ⟨hcyclic, herr⟩ | ⟨order, hperm, hgreedy, hok⟩⟩
  · refine iff_of_false ?_ fun h => habsent (h.1 typ dependency hdep)
    rintro ⟨order, hok⟩
    cases herr.symm.trans hok
  · refine iff_of_false ?_ fun h => hcyclic h.2
    rintro ⟨order, hok⟩
    cases herr.symm.trans hok
  · refine iff_of_true ⟨order, hok⟩ ⟨hpresent, hgreedy.admissible.acyclic fun typ htyp => ?_⟩
    exact (hperm.map _).mem_iff.mpr htyp

omit hdg in
/-- For components with distinct types, and any order of the walks over the maps: `TopologicalSort`
succeeds just where every dependency is there and no component requires itself through others. It
returns the components in an order in which each comes after its dependencies, the least such order
by the types. The same order comes out for the components in any other order, and with any other
walks. -/
theorem topologicalSort_order (hdistinct : (components.map Component.type).Nodup)
    (orders : MapOrders) :
    ((∃ order, (newDependencyGraph components).topologicalSort orders = .ok order) ↔
      (∀ comp ∈ components, ∀ dependency ∈ comp.requiredDependencies,
        ∃ other ∈ components, other.type = dependency) ∧
      ∀ typ, ¬ Relation.TransGen (DependsOn components) typ typ) ∧
    ∀ order, (newDependencyGraph components).topologicalSort orders = .ok order →
      order.Perm components ∧ AfterDependencies order ∧
      (∀ other : List (Component β), other.Perm components → AfterDependencies other →
        order.map Component.type = other.map Component.type ∨
          List.Lex (· < ·) (order.map Component.type) (other.map Component.type)) ∧
      ∀ (components' : List (Component β)) (orders' : MapOrders), components'.Perm components →
        (newDependencyGraph components').topologicalSort orders' = .ok order := by
  have hdg := isGraphOf_newDependencyGraph hdistinct
  refine ⟨(exists_ok_iff hdg orders).trans (and_congr_left fun _ => ?_), fun order hok => ?_⟩
  · constructor
    · intro h comp hcomp dependency hdep
      exact List.mem_map.mp (h comp.type dependency ⟨comp, hcomp, rfl, hdep⟩)
    · rintro h typ dependency ⟨comp, hcomp, rfl, hdep⟩
      exact List.mem_map.mpr (h comp hcomp dependency hdep)
  · obtain ⟨hperm, hgreedy⟩ := greedy_of_ok hdg hok
    have hafter : AfterDependencies order :=
      (afterDependencies_iff hdg fun _ => hperm.mem_iff.mp).mpr hgreedy.admissible
    refine ⟨hperm, hafter, fun other => least_of_greedy hdg hgreedy, ?_⟩
    intro components' orders' hperm'
    have hdg' := isGraphOf_newDependencyGraph ((hperm'.map Component.type).nodup_iff.mpr hdistinct)
    -- What success depends on is the same for the components in another order.
    have hiff := exists_ok_iff hdg' orders'
    unfold Present at hiff
    rw [dependsOn_congr hperm'] at hiff
    simp only [(hperm'.map Component.type).mem_iff] at hiff
    obtain ⟨order', hok'⟩ := hiff.mpr ((exists_ok_iff hdg orders).mp ⟨order, hok⟩)
    obtain ⟨hpermo', hgreedy'⟩ := greedy_of_ok hdg' hok'
    have hafter' : AfterDependencies order' :=
      (afterDependencies_iff hdg' fun _ => hpermo'.mem_iff.mp).mpr hgreedy'.admissible
    -- Each of the two orders is least.
    have hle := least_of_greedy hdg hgreedy (hpermo'.trans hperm') hafter'
    have hle' := least_of_greedy hdg' hgreedy' (hperm.trans hperm'.symm) hafter
    have htypes : order'.map Component.type = order.map Component.type := by
      rcases hle with heq | hlt
      · exact heq.symm
      · rcases hle' with heq | hlt'
        · exact heq
        · exact absurd hlt' (List.lt_asymm hlt)
    rw [hok', eq_of_types_eq hdg (fun _ hc => (hpermo'.trans hperm').mem_iff.mp hc)
      (fun _ hc => hperm.mem_iff.mp hc) htypes]

end Result

/-- A console that declares its store twice. -/
def sampleComponents : List (Component Unit) :=
  [⟨"console", ["store", "store"], ()⟩, ⟨"event bus", [], ()⟩, ⟨"store", ["event bus"], ()⟩]

/-- The maps are walked over as they were filled. -/
def sampleOrders : MapOrders := ⟨.given _, .given _, .given _, .given _⟩

/-- The store comes before the console. -/
theorem sample_order :
    (newDependencyGraph sampleComponents.reverse).topologicalSort sampleOrders = .ok
      [⟨"event bus", [], ()⟩, ⟨"store", ["event bus"], ()⟩, ⟨"console", ["store", "store"], ()⟩] ∧
    ∀ typ, ¬ Relation.TransGen (DependsOn sampleComponents) typ typ := by
  have hok : (newDependencyGraph sampleComponents).topologicalSort sampleOrders = .ok
      [⟨"event bus", [], ()⟩, ⟨"store", ["event bus"], ()⟩,
        ⟨"console", ["store", "store"], ()⟩] := by
    rfl
  obtain ⟨hiff, hresult⟩ := topologicalSort_order (by decide : (sampleComponents.map _).Nodup)
    sampleOrders
  refine ⟨?_, (hiff.mp ⟨_, hok⟩).2⟩
  exact (hresult _ hok).2.2.2 _ _ (List.reverse_perm _)

end DubboAdmin.Runtime
