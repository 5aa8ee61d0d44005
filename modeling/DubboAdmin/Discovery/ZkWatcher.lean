import DubboAdmin.Lib.Runs
import Mathlib.Data.List.AList
import Mathlib.Data.List.Infix

/-!
# The recursive ZooKeeper watcher

`RecursiveWatcher` follows the nodes under `basePath`. A goroutine `watchDataChanges` per node reads
it with `GetW`, which arms a watch, sends the node and blocks on the watch. A goroutine
`watchChildrenChanges` lists the children with `ChildrenW`, blocks on the watch, lists them again
with `Children` and follows the names that the first listing did not have. Watches are one-shot, and
each call to the server is a step of its own.

A node has a data goroutine in every quiescent state, provided that each creation is `Heeded`. A
node that is created between `Children` and the next `ChildrenW` is in the latter's listing, which
is never compared with the one before it.
-/

namespace DubboAdmin.Zk

/-! ## The server -/

/-- A path relative to `basePath`, its last name first: `basePath` is `[]`, and the child `c` of `p`
is `c :: p`. -/
abbrev Path := List String

/-- The text of a path. -/
def pathString (basePath : String) : Path → String
  | [] => basePath
  | child :: parent => pathString basePath parent ++ "/" ++ child

/-- The nodes at and below `basePath`, with their data. -/
structure Tree where
  nodes : AList fun _ : Path => String
  /-- The parent of a node below `basePath` is a node. -/
  closed : ∀ child parent, child :: parent ∈ nodes → parent ∈ nodes

namespace Tree

/-- What `Children` and `ChildrenW` list. -/
def children (t : Tree) (p : Path) : List String :=
  t.nodes.keys.filterMap fun
    | [] => none
    | child :: parent => if parent = p then some child else none

theorem mem_children {t : Tree} {p : Path} {c : String} :
    c ∈ t.children p ↔ c :: p ∈ t.nodes := by
  unfold children
  rw [List.mem_filterMap]
  constructor
  · rintro ⟨q, hq, hc⟩
    cases q with
    | nil => cases hc
    | cons child parent =>
      obtain ⟨rfl, rfl⟩ : parent = p ∧ child = c := by simpa using hc
      exact AList.mem_keys.mpr hq
  · intro h
    exact ⟨c :: p, AList.mem_keys.mp h, by simp⟩

theorem mem_of_suffix {t : Tree} {p q : Path} (h : q <:+ p) (hp : p ∈ t.nodes) : q ∈ t.nodes := by
  induction p with
  | nil =>
    rw [List.suffix_nil.mp h]
    exact hp
  | cons child parent ih =>
    rcases List.suffix_cons_iff.mp h with rfl | h
    · exact hp
    · exact ih h (t.closed _ _ hp)

end Tree

/-- A change on the server under `basePath`. -/
inductive ServerChange where
  /-- A node is created below `parent`. -/
  | create (parent : Path) (child data : String)
  /-- A node below `parent` is deleted. -/
  | delete (parent : Path) (child : String)
  /-- The data of a node is set. -/
  | setData (path : Path) (data : String)
deriving DecidableEq, Repr

/-- The tree after a change, unless the server refuses it: a node is created below a node, once, and
only a node without children is deleted. -/
def Tree.apply (t : Tree) : ServerChange → Option Tree
  | .create parent child data =>
    if h : parent ∈ t.nodes ∧ child :: parent ∉ t.nodes then
      some {
        nodes := t.nodes.insert (child :: parent) data
        closed := by
          intro c p hp
          rcases (AList.mem_insert _).mp hp with hp | hp
          · obtain ⟨rfl, rfl⟩ := List.cons.inj hp
            exact (AList.mem_insert _).mpr (.inr h.1)
          · exact (AList.mem_insert _).mpr (.inr (t.closed c p hp)) }
    else none
  | .delete parent child =>
    if h : child :: parent ∈ t.nodes ∧ t.children (child :: parent) = [] then
      some {
        nodes := t.nodes.erase (child :: parent)
        closed := by
          intro c p hp
          obtain ⟨-, hp⟩ := AList.mem_erase.mp hp
          refine AList.mem_erase.mpr ⟨?_, t.closed c p hp⟩
          rintro rfl
          have hc : c ∈ t.children (child :: parent) := Tree.mem_children.mpr hp
          rw [h.2] at hc
          cases hc }
    else none
  | .setData path data =>
    if h : path ∈ t.nodes then
      some {
        nodes := t.nodes.insert path data
        closed := by
          intro c p hp
          have hp : c :: p ∈ t.nodes := by
            rcases (AList.mem_insert _).mp hp with rfl | hp
            · exact h
            · exact hp
          exact (AList.mem_insert _).mpr (.inr (t.closed c p hp)) }
    else none

variable {t t' : Tree} {parent : Path} {child data : String}

theorem Tree.apply_create (h : t.apply (.create parent child data) = some t') :
    child :: parent ∉ t.nodes ∧
      ∀ n, n ∈ t'.nodes ↔ n = child :: parent ∨ n ∈ t.nodes := by
  unfold apply at h
  dsimp only at h
  split_ifs at h with hc
  cases h
  exact ⟨hc.2, fun n => AList.mem_insert _⟩

theorem Tree.apply_delete (h : t.apply (.delete parent child) = some t') :
    ∀ n, n ∈ t'.nodes ↔ n ≠ child :: parent ∧ n ∈ t.nodes := by
  unfold apply at h
  dsimp only at h
  split_ifs at h with hc
  cases h
  exact fun n => AList.mem_erase

theorem Tree.apply_setData {path : Path} (h : t.apply (.setData path data) = some t') :
    ∀ n, n ∈ t'.nodes ↔ n ∈ t.nodes := by
  unfold apply at h
  dsimp only at h
  split_ifs at h with hp
  cases h
  intro n
  rw [AList.mem_insert]
  constructor
  · rintro (rfl | hn)
    · exact hp
    · exact hn
  · exact .inr

/-! ## The goroutines -/

/-- The type of the event that a watch delivers. -/
inductive Notice where
  | nodeDataChanged
  | nodeChildrenChanged
  | nodeDeleted
deriving DecidableEq, Repr

/-- `EventType`. `NodeChanged` is declared in the source and never sent. -/
inductive EventType where
  | nodeCreated
  | nodeDeleted
  | nodeChanged
deriving DecidableEq, Repr

/-- What a goroutine sends. -/
structure ZookeeperEvent where
  type : EventType
  path : String
  data : String := ""
  leafNode : Bool
deriving DecidableEq, Repr

/-- What is left to do of a call `watchPathRecursively(path)`. -/
inductive Task where
  /-- All of it. -/
  | visit (path : Path)
  /-- The data goroutine is started; `Children` is next. -/
  | list (path : Path)
deriving DecidableEq, Repr

/-- Where a goroutine is in `watchDataChanges`. `leaf` is what the last `GetW` found. -/
inductive DataPhase where
  | getW
  /-- Blocked on the armed watch. -/
  | armed (leaf : Bool)
  /-- The watch has fired; its event is not yet taken. -/
  | fired (leaf : Bool) (notice : Notice)
deriving DecidableEq, Repr

/-- Where a goroutine is in `watchChildrenChanges`. `old` is what the last `ChildrenW` listed. -/
inductive ChildrenPhase where
  | childrenW
  /-- Blocked on the armed watch. -/
  | armed (old : List String)
  /-- The watch has fired; its event is not yet taken. -/
  | fired (old : List String) (notice : Notice)
  /-- Told of a change of the children; `Children` is next. -/
  | relisting (old : List String)
deriving DecidableEq, Repr

/-- A goroutine of the watcher. -/
inductive Goroutine where
  /-- A call of `watchPathRecursively` with the calls that are still to be made in its loops. -/
  | walk (tasks : List Task)
  /-- `watchDataChanges(path)`. -/
  | data (path : Path) (phase : DataPhase)
  /-- `watchChildrenChanges(path)`. -/
  | children (path : Path) (phase : ChildrenPhase)
deriving DecidableEq, Repr

/-- What a step leaves: the goroutines in place of the one that took it, and the events sent. -/
abbrev Left := List Goroutine × List ZookeeperEvent

/-- The next step of `watchPathRecursively`. A path that cannot be listed is logged and left. -/
def watchPathRecursively (t : Tree) : List Task → Left
  | [] => ([], [])
  | .visit path :: rest => ([.walk (.list path :: rest), .data path .getW], [])
  | .list path :: rest =>
    if path ∈ t.nodes then
      let visits := (t.children path).map fun child => Task.visit (child :: path)
      ([.walk (visits ++ rest), .children path .childrenW], [])
    else ([.walk rest], [])

/-- The next step of `watchDataChanges(path)`, unless it is blocked. -/
def watchDataChanges (basePath : String) (t : Tree) (path : Path) : DataPhase → Option Left
  | .getW =>
    match t.nodes.lookup path with
    -- The call fails, and is made again after a second.
    | none => some ([.data path .getW], [])
    | some data =>
      let leaf := (t.children path).isEmpty
      some ([.data path (.armed leaf)],
        [{ type := .nodeCreated, path := pathString basePath path, data := data,
           leafNode := leaf }])
  | .armed _ => none
  | .fired _ .nodeDataChanged => some ([.data path .getW], [])
  | .fired leaf .nodeDeleted =>
    some ([], [{ type := .nodeDeleted, path := pathString basePath path, leafNode := leaf }])
  | .fired _ .nodeChildrenChanged => some ([.data path .getW], [])

/-- The next step of `watchChildrenChanges(path)`, unless it is blocked. -/
def watchChildrenChanges (t : Tree) (path : Path) : ChildrenPhase → Option Left
  | .childrenW =>
    if path ∈ t.nodes then some ([.children path (.armed (t.children path))], [])
    else some ([.children path .childrenW], [])
  | .armed _ => none
  | .fired old .nodeChildrenChanged => some ([.children path (.relisting old)], [])
  | .fired _ .nodeDeleted => some ([], [])
  | .fired _ .nodeDataChanged => some ([.children path .childrenW], [])
  | .relisting old =>
    if path ∈ t.nodes then
      let added := (t.children path).filter (· ∉ old)
      some (added.map (fun child => .walk [.visit (child :: path)]) ++
        [.children path .childrenW], [])
    else some ([.children path .childrenW], [])

/-- The next step of a goroutine, unless it is blocked on a watch. -/
def Goroutine.step (basePath : String) (t : Tree) : Goroutine → Option Left
  | .walk tasks => some (watchPathRecursively t tasks)
  | .data path phase => watchDataChanges basePath t path phase
  | .children path phase => watchChildrenChanges t path phase

/-- What a change fires at a data watch. -/
def ServerChange.dataNotice (path : Path) : ServerChange → Option Notice
  | .create _ _ _ => none
  | .delete parent child => if path = child :: parent then some .nodeDeleted else none
  | .setData changed _ => if path = changed then some .nodeDataChanged else none

/-- What a change fires at a child watch. -/
def ServerChange.childrenNotice (path : Path) : ServerChange → Option Notice
  | .create parent _ _ => if path = parent then some .nodeChildrenChanged else none
  | .delete parent child =>
    if path = child :: parent then some .nodeDeleted
    else if path = parent then some .nodeChildrenChanged
    else none
  | .setData _ _ => none

/-- A goroutine behind a change: its watch fires, if it has one that is armed and concerned. -/
def Goroutine.notify (change : ServerChange) : Goroutine → Goroutine
  | .data path (.armed leaf) =>
    match change.dataNotice path with
    | some notice => .data path (.fired leaf notice)
    | none => .data path (.armed leaf)
  | .children path (.armed old) =>
    match change.childrenNotice path with
    | some notice => .children path (.fired old notice)
    | none => .children path (.armed old)
  | g => g

/-- The server and the watcher. -/
structure State where
  tree : Tree
  goroutines : List Goroutine
  events : List ZookeeperEvent

/-- `StartAsync` on a server. -/
def State.start (tree : Tree) : State := ⟨tree, [.walk [.visit []]], []⟩

/-- What happens next. -/
inductive Action where
  /-- The goroutine at a position takes a step. -/
  | run (i : ℕ)
  | change (change : ServerChange)
deriving DecidableEq, Repr

/-- The state after a goroutine step that leaves `left`. -/
def State.leave (x : State) (i : ℕ) (left : Left) : State :=
  { x with goroutines := replaceAt x.goroutines i left.1, events := x.events ++ left.2 }

/-- The state after a change to the tree `tree`. -/
def State.changed (x : State) (change : ServerChange) (tree : Tree) : State :=
  { x with tree := tree, goroutines := x.goroutines.map (Goroutine.notify change) }

/-- The state after an action, unless the goroutine is blocked or the server refuses the change. -/
def State.next (basePath : String) (x : State) : Action → Option State
  | .run i => (x.goroutines[i]?.bind (Goroutine.step basePath x.tree)).map (x.leave i)
  | .change change => (x.tree.apply change).map (x.changed change)

/-- One action of a run. -/
def WatchStep (basePath : String) (x : State) (a : Action) (x' : State) : Prop :=
  x.next basePath a = some x'

/-- Nothing moves until the server changes: each goroutine is blocked, or repeats without effect a
call that fails. -/
def State.Quiescent (basePath : String) (x : State) : Prop :=
  ∀ g ∈ x.goroutines, g.step basePath x.tree = none ∨ g.step basePath x.tree = some ([g], [])

/-- A final state can be checked. -/
instance State.decidableQuiescent (basePath : String) (x : State) :
    Decidable (x.Quiescent basePath) :=
  inferInstanceAs (Decidable (∀ g ∈ x.goroutines,
    g.step basePath x.tree = none ∨ g.step basePath x.tree = some ([g], [])))

/-! ## Which goroutine answers for a node -/

/-- The task leads to the node `n`, if it is there when the task comes to it. -/
def Task.reaches (n : Path) : Task → Prop
  | .visit path => path <:+ n
  | .list path => ∃ child ∈ n, child :: path <:+ n

/-- The phases of a data goroutine that has or will have a watch. -/
def DataPhase.live : DataPhase → Bool
  | .fired _ .nodeDeleted => false
  | _ => true

/-- The listing that a goroutine which was told of a change is to compare with the present one. -/
def ChildrenPhase.compared : ChildrenPhase → Option (List String)
  | .fired old .nodeChildrenChanged => some old
  | .relisting old => some old
  | _ => none

/-- The goroutine has a data watch on `n`, or comes to arm or start one if it goes on and `n` stays:
it is on its way through the tree to `n`, or is the data goroutine of `n`, or is to compare a
listing without `n`, or without an ancestor of `n`, with the present one. -/
def Goroutine.covers (n : Path) : Goroutine → Prop
  | .walk tasks => ∃ task ∈ tasks, task.reaches n
  | .data path phase => path = n ∧ phase.live
  | .children path phase =>
    ∃ old ∈ phase.compared, ∃ child ∈ n, child :: path <:+ n ∧ child ∉ old

/-- The goroutine is blocked on an armed child watch of `path`. -/
def Goroutine.awaitsChildren (path : Path) : Goroutine → Bool
  | .children p (.armed _) => p = path
  | _ => false

/-- When a node is created, a goroutine covers it or the child watch of its parent is armed. -/
def Heeded (x : State) : Action → Prop
  | .change (.create parent child _) =>
    ∃ g ∈ x.goroutines, g.covers (child :: parent) ∨ g.awaitsChildren parent
  | _ => True

/-- Decided by the paths. -/
instance Task.decidableReaches (n : Path) : (task : Task) → Decidable (task.reaches n)
  | .visit path => inferInstanceAs (Decidable (path <:+ n))
  | .list path => inferInstanceAs (Decidable (∃ child ∈ n, child :: path <:+ n))

/-- Decided by the phase of the goroutine. -/
instance Goroutine.decidableCovers (n : Path) : (g : Goroutine) → Decidable (g.covers n)
  | .walk tasks => inferInstanceAs (Decidable (∃ task ∈ tasks, task.reaches n))
  | .data path phase => inferInstanceAs (Decidable (path = n ∧ phase.live))
  | .children path phase =>
    inferInstanceAs
      (Decidable (∃ old ∈ phase.compared, ∃ child ∈ n, child :: path <:+ n ∧ child ∉ old))

/-- A run can be checked. -/
instance decidableHeeded (x : State) : (a : Action) → Decidable (Heeded x a)
  | .change (.create parent child _) =>
    inferInstanceAs
      (Decidable (∃ g ∈ x.goroutines, g.covers (child :: parent) ∨ g.awaitsChildren parent))
  | .change (.delete _ _)
  | .change (.setData _ _)
  | .run _ => inferInstanceAs (Decidable True)

/-! ## Goroutine steps -/

section Step

variable {basePath : String} {t : Tree} {n path : Path}

theorem eq_or_below (h : path <:+ n) : path = n ∨ ∃ child ∈ n, child :: path <:+ n := by
  obtain ⟨s, rfl⟩ := h
  cases s using List.reverseRecOn with
  | nil => exact .inl rfl
  | append_singleton s child => exact .inr ⟨child, by simp, s, by simp⟩

theorem Tree.mem_children_of_suffix {child : String} (hn : n ∈ t.nodes)
    (h : child :: path <:+ n) : path ∈ t.nodes ∧ child ∈ t.children path := by
  have hchild : child :: path ∈ t.nodes := mem_of_suffix h hn
  exact ⟨t.closed _ _ hchild, mem_children.mpr hchild⟩

theorem watchPathRecursively_rest {first task : Task} {rest : List Task} (h : task ∈ rest)
    (hreach : task.reaches n) :
    ∃ g ∈ (watchPathRecursively t (first :: rest)).1, g.covers n := by
  cases first with
  | visit path =>
    exact ⟨.walk (.list path :: rest), by simp [watchPathRecursively], task,
      List.mem_cons_of_mem _ h, hreach⟩
  | list path =>
    unfold watchPathRecursively
    dsimp only
    split_ifs with hp
    · exact ⟨_, List.mem_cons_self, task, List.mem_append_right _ h, hreach⟩
    · exact ⟨_, List.mem_cons_self, task, h, hreach⟩

/-- A walk on its way to a node stays on its way, or starts the data goroutine of the node. -/
theorem watchPathRecursively_covers {tasks : List Task} (hn : n ∈ t.nodes)
    (h : (Goroutine.walk tasks).covers n) :
    ∃ g ∈ (watchPathRecursively t tasks).1, g.covers n := by
  obtain ⟨task, htask, hreach⟩ := h
  cases tasks with
  | nil => cases htask
  | cons first rest =>
    rcases List.mem_cons.mp htask with rfl | hrest
    · cases task with
      | visit path =>
        rcases eq_or_below hreach with rfl | hbelow
        · exact ⟨.data path .getW, by simp [watchPathRecursively], rfl, rfl⟩
        · exact ⟨.walk (.list path :: rest), by simp [watchPathRecursively],
            .list path, List.mem_cons_self, hbelow⟩
      | list path =>
        obtain ⟨child, -, hchild⟩ := hreach
        obtain ⟨hp, hc⟩ := Tree.mem_children_of_suffix hn hchild
        unfold watchPathRecursively
        dsimp only
        rw [if_pos hp]
        have hvisit : Task.visit (child :: path) ∈
            (t.children path).map fun child => Task.visit (child :: path) :=
          List.mem_map_of_mem hc
        exact ⟨_, List.mem_cons_self, _, List.mem_append_left _ hvisit, hchild⟩
    · exact watchPathRecursively_rest hrest hreach

theorem watchDataChanges_covers {phase : DataPhase} {left : Left} (hlive : phase.live)
    (hstep : watchDataChanges basePath t n phase = some left) : ∃ g ∈ left.1, g.covers n := by
  cases phase with
  | getW =>
    unfold watchDataChanges at hstep
    dsimp only at hstep
    split at hstep <;> obtain rfl := Option.some.inj hstep <;>
      exact ⟨_, List.mem_cons_self, rfl, rfl⟩
  | armed leaf => cases hstep
  | fired leaf notice =>
    cases notice with
    | nodeDataChanged | nodeChildrenChanged =>
      cases hstep
      exact ⟨_, List.mem_cons_self, rfl, rfl⟩
    | nodeDeleted => cases hlive

/-- A goroutine that is to compare a listing without the way to a node follows that way. -/
theorem watchChildrenChanges_covers {phase : ChildrenPhase} {left : Left} (hn : n ∈ t.nodes)
    (h : (Goroutine.children path phase).covers n)
    (hstep : watchChildrenChanges t path phase = some left) : ∃ g ∈ left.1, g.covers n := by
  obtain ⟨old, hold, child, hmem, hchild, hnew⟩ := h
  cases phase with
  | childrenW | armed => cases hold
  | fired _ notice =>
    cases notice with
    | nodeDataChanged | nodeDeleted => cases hold
    | nodeChildrenChanged =>
      cases hold
      cases hstep
      exact ⟨_, List.mem_cons_self, _, rfl, child, hmem, hchild, hnew⟩
  | relisting listed =>
    obtain rfl : listed = old := Option.some.inj hold
    obtain ⟨hp, hc⟩ := Tree.mem_children_of_suffix hn hchild
    unfold watchChildrenChanges at hstep
    dsimp only at hstep
    rw [if_pos hp] at hstep
    cases hstep
    -- The name is in the new listing and not in the old one.
    have hadded : child ∈ (t.children path).filter (fun c => decide (c ∉ listed)) :=
      List.mem_filter.mpr ⟨hc, by simpa using hnew⟩
    exact ⟨_, List.mem_append_left _ (List.mem_map_of_mem hadded), _, List.mem_cons_self, hchild⟩

theorem Goroutine.step_covers {g : Goroutine} {left : Left} (hn : n ∈ t.nodes) (h : g.covers n)
    (hstep : g.step basePath t = some left) : ∃ g' ∈ left.1, g'.covers n := by
  cases g with
  | walk tasks =>
    cases hstep
    exact watchPathRecursively_covers hn h
  | data path phase =>
    obtain ⟨rfl, hlive⟩ := h
    exact watchDataChanges_covers hlive hstep
  | children path phase => exact watchChildrenChanges_covers hn h hstep

/-- Only `ChildrenW` arms a child watch, with the present listing. -/
theorem Goroutine.step_armed {g : Goroutine} {left : Left} {old : List String}
    (hstep : g.step basePath t = some left) (h : .children path (.armed old) ∈ left.1) :
    old = t.children path := by
  cases g with
  | walk tasks =>
    cases hstep
    unfold watchPathRecursively at h
    split at h
    · simp at h
    · simp at h
    · split_ifs at h <;> simp at h
  | data p phase =>
    unfold step watchDataChanges at hstep
    dsimp only at hstep
    split at hstep
    · split at hstep <;> obtain rfl := Option.some.inj hstep <;> simp at h
    · cases hstep
    all_goals
      cases hstep
      simp at h
  | children p phase =>
    unfold step watchChildrenChanges at hstep
    dsimp only at hstep
    split at hstep
    · split_ifs at hstep <;> obtain rfl := Option.some.inj hstep
      · obtain ⟨rfl, rfl⟩ : path = p ∧ old = t.children p := by simpa using h
        rfl
      · simp at h
    · cases hstep
    · cases hstep
      simp at h
    · cases hstep
      simp at h
    · cases hstep
      simp at h
    · split_ifs at hstep <;> obtain rfl := Option.some.inj hstep <;> simp at h

theorem watchPathRecursively_ne {task : Task} {rest : List Task} :
    watchPathRecursively t (task :: rest) ≠ ([.walk (task :: rest)], []) := by
  cases task with
  | visit path => simp [watchPathRecursively]
  | list path =>
    unfold watchPathRecursively
    dsimp only
    split_ifs <;> simp

/-- In a quiescent state the goroutine that covers a node is blocked on a data watch of it. -/
theorem Goroutine.armed_of_settled {g : Goroutine} (hn : n ∈ t.nodes) (h : g.covers n)
    (hg : g.step basePath t = none ∨ g.step basePath t = some ([g], [])) :
    ∃ leaf, g = .data n (.armed leaf) := by
  cases g with
  | walk tasks =>
    obtain ⟨task, htask, -⟩ := h
    cases tasks with
    | nil => cases htask
    | cons first rest =>
      rcases hg with hblocked | hrepeats
      · cases hblocked
      · exact absurd (Option.some.inj hrepeats) watchPathRecursively_ne
  | data path phase =>
    obtain ⟨rfl, hlive⟩ := h
    cases phase with
    | armed leaf => exact ⟨leaf, rfl⟩
    | getW =>
      obtain ⟨data, hdata⟩ := Option.isSome_iff_exists.mp (AList.lookup_isSome.mpr hn)
      simp [step, watchDataChanges, hdata] at hg
    | fired leaf notice => cases notice <;> simp [step, watchDataChanges] at hg
  | children path phase =>
    obtain ⟨old, hold, child, -, hchild, -⟩ := h
    obtain ⟨hp, -⟩ := Tree.mem_children_of_suffix hn hchild
    cases phase with
    | childrenW | armed => cases hold
    | fired _ notice =>
      cases notice with
      | nodeDataChanged | nodeDeleted => cases hold
      | nodeChildrenChanged => simp [step, watchChildrenChanges] at hg
    | relisting listed =>
      simp only [step, watchChildrenChanges, if_pos hp, reduceCtorEq, Option.some.injEq,
        Prod.mk.injEq, and_true, false_or] at hg
      -- One of the goroutines left is at `ChildrenW`, and so is none before.
      have hstart := congrArg (Goroutine.children path .childrenW ∈ ·) hg
      simp at hstart

end Step

/-! ## Changes on the server -/

section Change

variable {t t' : Tree} {change : ServerChange} {n path : Path}

theorem ServerChange.dataNotice_ne_deleted (happly : t.apply change = some t')
    (hn : n ∈ t'.nodes) : change.dataNotice n ≠ some .nodeDeleted := by
  cases change with
  | create parent child data => simp [dataNotice]
  | delete parent child =>
    have hne : n ≠ child :: parent := ((Tree.apply_delete happly n).mp hn).1
    simp [dataNotice, hne]
  | setData changed data =>
    unfold dataNotice
    dsimp only
    split_ifs <;> simp

theorem Tree.apply_keeps_child {child : String} (happly : t.apply change = some t')
    (hquiet : change.childrenNotice path = none) (h : child :: path ∈ t.nodes) :
    child :: path ∈ t'.nodes := by
  cases change with
  | create parent c data => exact ((apply_create happly).2 _).mpr (.inr h)
  | delete parent c =>
    refine (apply_delete happly _).mpr ⟨?_, h⟩
    intro heq
    obtain ⟨rfl, rfl⟩ := List.cons.inj heq
    unfold ServerChange.childrenNotice at hquiet
    dsimp only at hquiet
    split_ifs at hquiet with hself hparent
    exact hparent rfl
  | setData changed data => exact (apply_setData happly _).mpr h

/-- What a goroutine covers and a change leaves is covered by the goroutine behind the change. -/
theorem Goroutine.notify_covers {g : Goroutine} (happly : t.apply change = some t')
    (hn : n ∈ t'.nodes) (h : g.covers n) : (g.notify change).covers n := by
  cases g with
  | walk tasks => exact h
  | data path phase =>
    cases phase with
    | getW | fired => exact h
    | armed leaf =>
      obtain ⟨rfl, -⟩ := h
      have hne := ServerChange.dataNotice_ne_deleted happly hn
      unfold notify
      dsimp only
      split
      · next notice hnotice =>
        cases notice with
        | nodeDeleted => exact absurd hnotice hne
        | nodeDataChanged | nodeChildrenChanged => exact ⟨rfl, rfl⟩
      · exact ⟨rfl, rfl⟩
  | children path phase =>
    cases phase with
    | armed old =>
      obtain ⟨old, hold, -⟩ := h
      cases hold
    | childrenW | fired | relisting => exact h

/-- A child watch is armed behind a change if it was before and the change does not concern it. -/
theorem Goroutine.eq_of_notify_eq_armed {g : Goroutine} {old : List String}
    (h : g.notify change = .children path (.armed old)) :
    g = .children path (.armed old) ∧ change.childrenNotice path = none := by
  cases g with
  | walk tasks => cases h
  | data p phase =>
    cases phase with
    | getW | fired => cases h
    | armed leaf =>
      unfold notify at h
      dsimp only at h
      split at h <;> cases h
  | children p phase =>
    cases phase with
    | childrenW | fired | relisting => cases h
    | armed old =>
      unfold notify at h
      dsimp only at h
      split at h
      · cases h
      · next hquiet =>
        cases h
        exact ⟨rfl, hquiet⟩

end Change

/-! ## Runs -/

/-- What holds in every state of a run whose creations are heeded. -/
structure Invariant (x : State) : Prop where
  covered : ∀ n ∈ x.tree.nodes, ∃ g ∈ x.goroutines, g.covers n
  /-- The listing that came with an armed child watch has only names of nodes: the watch fires when
  one of them is deleted. -/
  listed : ∀ path old, .children path (.armed old) ∈ x.goroutines →
    ∀ child ∈ old, child :: path ∈ x.tree.nodes

theorem Invariant.start (tree : Tree) : Invariant (State.start tree) where
  covered := by
    intro n _
    exact ⟨_, List.mem_cons_self, _, List.mem_cons_self, List.nil_suffix⟩
  listed := by
    intro path old h
    simp [State.start] at h

variable {x : State}

theorem Invariant.run {basePath : String} {i : ℕ} {g : Goroutine} {left : Left} (h : Invariant x)
    (hi : x.goroutines[i]? = some g) (hstep : g.step basePath x.tree = some left) :
    Invariant (x.leave i left) where
  covered := by
    intro n hn
    exact exists_mem_replaceAt hi (h.covered n hn) fun hg => g.step_covers hn hg hstep
  listed := by
    intro path old harmed child hchild
    rcases List.mem_append.mp harmed with hold | hnew
    · exact h.listed path old (List.mem_of_mem_eraseIdx hold) child hchild
    · rw [Goroutine.step_armed hstep hnew] at hchild
      exact Tree.mem_children.mp hchild

/-- Behind a heeded creation some goroutine covers the new node: the armed child watch of the parent
fires, and its listing is without the node. -/
theorem Invariant.covers_created (h : Invariant x) (hnew : child :: parent ∉ x.tree.nodes)
    {g : Goroutine} (hg : g ∈ x.goroutines) (hawaits : g.awaitsChildren parent) :
    (g.notify (.create parent child data)).covers (child :: parent) := by
  cases g with
  | walk _ | data _ _ => cases hawaits
  | children path phase =>
    cases phase with
    | childrenW | fired | relisting => cases hawaits
    | armed old =>
      obtain rfl : path = parent := by simpa [Goroutine.awaitsChildren] using hawaits
      have hold : child ∉ old := fun hchild => hnew (h.listed path old hg child hchild)
      have hfires : Goroutine.notify (.create path child data) (.children path (.armed old)) =
          .children path (.fired old .nodeChildrenChanged) := by
        simp [Goroutine.notify, ServerChange.childrenNotice]
      rw [hfires]
      exact ⟨old, rfl, child, List.mem_cons_self, List.suffix_rfl, hold⟩

/-- A heeded change keeps the invariant. -/
theorem Invariant.change {x : State} {change : ServerChange} {tree : Tree} (h : Invariant x)
    (hheeded : Heeded x (.change change)) (happly : x.tree.apply change = some tree) :
    Invariant (x.changed change tree) where
  covered := by
    intro n hn
    suffices hcover : ∃ g ∈ x.goroutines, (g.notify change).covers n by
      obtain ⟨g, hg, hcover⟩ := hcover
      exact ⟨_, List.mem_map_of_mem hg, hcover⟩
    by_cases hold : n ∈ x.tree.nodes
    · obtain ⟨g, hg, hcover⟩ := h.covered n hold
      exact ⟨g, hg, g.notify_covers happly hn hcover⟩
    · -- Only a creation brings a new node.
      cases change with
      | create parent child data =>
        obtain ⟨hnew, hmem⟩ := Tree.apply_create happly
        obtain rfl : n = child :: parent := ((hmem n).mp hn).resolve_right hold
        obtain ⟨g, hg, hcover | hawaits⟩ := hheeded
        · exact ⟨g, hg, g.notify_covers happly hn hcover⟩
        · exact ⟨g, hg, h.covers_created hnew hg hawaits⟩
      | delete parent child => exact absurd ((Tree.apply_delete happly n).mp hn).2 hold
      | setData path data => exact absurd ((Tree.apply_setData happly n).mp hn) hold
  listed := by
    intro path old harmed child hchild
    obtain ⟨g, hg, hnotify⟩ := List.mem_map.mp harmed
    obtain ⟨rfl, hquiet⟩ := Goroutine.eq_of_notify_eq_armed hnotify
    exact Tree.apply_keeps_child happly hquiet (h.listed path old hg child hchild)

theorem Invariant.step {basePath : String} {x' : State} {a : Action} (h : Invariant x)
    (hstep : Guarded Heeded (WatchStep basePath) x a x') : Invariant x' := by
  obtain ⟨hheeded, hnext⟩ := hstep
  cases a with
  | run i =>
    obtain ⟨left, hleft, rfl⟩ := Option.map_eq_some_iff.mp hnext
    obtain ⟨g, hi, hg⟩ := Option.bind_eq_some_iff.mp hleft
    exact h.run hi hg
  | change change =>
    obtain ⟨tree, happly, rfl⟩ := Option.map_eq_some_iff.mp hnext
    exact h.change hheeded happly

/-- In every run whose creations are heeded, each node has a goroutine blocked on an armed data
watch for it whenever the run comes to rest. -/
theorem every_node_watched {basePath : String} {tree : Tree} {acts : List Action} {x : State}
    (hrun : Run (Guarded Heeded (WatchStep basePath)) (.start tree) acts x)
    (hquiet : x.Quiescent basePath) :
    ∀ path ∈ x.tree.nodes, ∃ leaf, .data path (.armed leaf) ∈ x.goroutines := by
  intro path hpath
  have hinv : Invariant x := hrun.invariant Invariant (.start tree) fun _ _ _ => Invariant.step
  obtain ⟨g, hg, hcover⟩ := hinv.covered path hpath
  obtain ⟨leaf, rfl⟩ := g.armed_of_settled hpath hcover (hquiet g hg)
  exact ⟨leaf, hg⟩

/-- A server with the node `basePath` only. -/
def bareTree : Tree where
  nodes := AList.singleton [] ""
  closed := by
    intro child parent h
    simp [AList.mem_keys] at h

/-- The watcher starts and comes to rest; then a node is created, and it comes to rest again. -/
def createdAtRest : List Action :=
  [.run 0, .run 0, .run 0, .run 0, .run 0, .change (.create [] "a" "x"),
    .run 1, .run 1, .run 1, .run 1, .run 1, .run 1, .run 2, .run 2]

/-- A node that is created while the child watch of `basePath` is armed gets its data watch. -/
theorem every_node_watched_at_rest :
    ∃ x, Run (Guarded Heeded (WatchStep "/dubbo")) (.start bareTree) createdAtRest x ∧
      x.Quiescent "/dubbo" ∧ ["a"] ∈ x.tree.nodes ∧
      ∃ leaf, .data ["a"] (.armed leaf) ∈ x.goroutines := by
  obtain ⟨x, hx, hquiet, hnode⟩ : ∃ x, createdAtRest.foldlM
        (fun x a => if Heeded x a then x.next "/dubbo" a else none) (.start bareTree) = some x ∧
      x.Quiescent "/dubbo" ∧ ["a"] ∈ x.tree.nodes := ⟨_, rfl, by decide, by decide⟩
  have hrun := Run.of_foldlM (Guarded.of_next fun _ _ _ h => h) hx
  exact ⟨x, hrun, hquiet, hnode, every_node_watched hrun hquiet ["a"] hnode⟩

/-- The node is created between the `Children` of `watchPathRecursively` and the first
`ChildrenW`. -/
def createdBeforeWatch : List Action :=
  [.run 0, .run 0, .change (.create [] "a" "x"), .run 0, .run 0, .run 0]

/-- A node that is created after the listing of `basePath` and before its child watch is armed is
never followed: the watcher comes to rest without a data watch on it. -/
theorem created_before_watch_missed :
    ∃ x, Run (WatchStep "/dubbo") (.start bareTree) createdBeforeWatch x ∧
      x.Quiescent "/dubbo" ∧ ["a"] ∈ x.tree.nodes ∧
      ∀ leaf, .data ["a"] (.armed leaf) ∉ x.goroutines := by
  obtain ⟨x, hx, hfacts⟩ : ∃ x, createdBeforeWatch.foldlM (State.next "/dubbo") (.start bareTree) =
        some x ∧ x.Quiescent "/dubbo" ∧ ["a"] ∈ x.tree.nodes ∧
      ∀ leaf, .data ["a"] (.armed leaf) ∉ x.goroutines :=
    ⟨_, rfl, by decide, by decide, by decide⟩
  exact ⟨x, Run.of_foldlM (fun _ _ _ h => h) hx, hfacts⟩

end DubboAdmin.Zk
