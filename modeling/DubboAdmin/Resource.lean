import DubboAdmin.Lib.Keyed
import DubboAdmin.Lib.Strings
import Mathlib.Data.List.Dedup

/-!
# Resources, index conditions, and pages

The data model that every store shares: the resources of `pkg/core/resource/model`, the index
functions and conditions of `pkg/core/store/index`, and the pages that a store returns. A resource
is known by its mesh and name, from which `resourceKey` builds its key; everything else that a kind
defines is its `spec`.

`Listing` says what a query over conditions has to return: the stored resources that qualify, each
once, by ascending key. `Pages` walks the pages of a query up to the first empty one.
-/

namespace DubboAdmin

open Strings

/-- An error that a Go call returns, or the panic that it ends in. -/
inductive Failure where
  /-- An `error` value, by its text. -/
  | err (msg : String)
  /-- A panic, by its text. -/
  | panic (msg : String)
deriving DecidableEq, Repr

/-- The panic of an access through a `nil` pointer. -/
def nilDereference : Failure :=
  .panic "runtime error: invalid memory address or nil pointer dereference"

theorem mapM_eq_ok {α β : Type} {f : α → Except Failure β} {g : α → β} {l : List α}
    (h : ∀ a ∈ l, f a = .ok (g a)) : l.mapM f = .ok (l.map g) := by
  induction l with
  | nil => rfl
  | cons a l ih =>
    rw [List.mapM_cons, h a List.mem_cons_self, ih fun b hb => h b (List.mem_cons_of_mem _ hb)]
    rfl

/-- A resource: its kind, the mesh it belongs to, its name, and the rest of it. -/
structure Resource (σ : Type) where
  kind : String
  mesh : String
  name : String
  /-- `ResourceSpec()`, with what else a resource of the kind carries. -/
  spec : σ
deriving DecidableEq, Repr

/-- `BuildResourceKey`: the key `mesh/name`. -/
def buildResourceKey (mesh name : String) : String := mesh ++ "/" ++ name

/-- `ParseResourceKey`: the mesh and name of a key `mesh/name`, split at its first `/`, or of a key
that is only a name. -/
def parseResourceKey (resourceKey : String) : String × String :=
  match cut '/' resourceKey with
  | some (mesh, name) => (mesh, name)
  | none => ("", resourceKey)

theorem parseResourceKey_buildResourceKey {mesh : String} (h : '/' ∉ mesh.toList) (name : String) :
    parseResourceKey (buildResourceKey mesh name) = (mesh, name) := by
  have hcut : cut '/' (buildResourceKey mesh name) = some (mesh, name) := cut_join h name
  unfold parseResourceKey
  rw [hcut]

theorem buildResourceKey_inj {mesh mesh' name name' : String} (h : '/' ∉ mesh.toList)
    (h' : '/' ∉ mesh'.toList) (heq : buildResourceKey mesh name = buildResourceKey mesh' name') :
    mesh = mesh' ∧ name = name' :=
  join_inj h h' heq

/-- `ResourceKey()`, which every kind of resource builds in the same way. -/
def Resource.resourceKey {σ : Type} (r : Resource σ) : String := buildResourceKey r.mesh r.name

theorem Resource.resourceKey_ne_empty {σ : Type} (r : Resource σ) : r.resourceKey ≠ "" := by
  intro h
  have := congrArg String.toList h
  simp [Resource.resourceKey, buildResourceKey] at this

def errorResourceAlreadyExists (rt name mesh : String) : Failure :=
  .err ("resource already exists: type=" ++ quoted rt ++ " name=" ++ quoted name ++ " mesh=" ++
    quoted mesh)

def errorResourceNotFound (rt name mesh : String) : Failure :=
  .err ("resource not found: type=" ++ quoted rt ++ " name=" ++ quoted name ++ " mesh=" ++
    quoted mesh)

/-- The contents of a store: at most one resource per key. -/
abbrev Contents (σ : Type) := Keyed (Resource.resourceKey (σ := σ))

/-! ## Index functions and conditions -/

/-- `cache.IndexFunc`: the values of a resource under an index, or `none` where the function
returns an error. -/
abbrev IndexFunc (σ : Type) := Resource σ → Option (List String)

/-- `cache.Indexers`: the index functions by the name of their index. -/
abbrev Indexers (σ : Type) := AList fun _ : String => IndexFunc σ

/-- The values that the index `indexName` produces for a resource: none for an unknown index or
where the index function fails. -/
def Indexers.values {σ : Type} (indexers : Indexers σ) (indexName : String) (r : Resource σ) :
    List String :=
  match indexers.lookup indexName with
  | none => []
  | some indexFunc => (indexFunc r).getD []

theorem Indexers.values_of_lookup {σ : Type} {indexers : Indexers σ} {indexName : String}
    {indexFunc : IndexFunc σ} (h : indexers.lookup indexName = some indexFunc) (r : Resource σ) :
    indexers.values indexName r = (indexFunc r).getD [] := by
  unfold Indexers.values
  rw [h]

def byMeshIndex : String := "idx_mesh"

/-- `ByMesh`, which is registered for every kind. -/
def byMesh {σ : Type} : IndexFunc σ := fun r => some [r.mesh]

/-- `IndexOperator`: the two supported operators, and any other string. -/
inductive IndexOperator where
  | equals
  | hasPrefix
  /-- Any other operator, which no store supports. -/
  | other (op : String)
deriving DecidableEq, Repr

/-- `IndexCondition`: one condition of a query. -/
structure IndexCondition where
  indexName : String
  value : String
  operator : IndexOperator
deriving DecidableEq, Repr

/-- A condition that a store supports: over a registered index, with one of the two operators. -/
def IndexCondition.Supported {σ : Type} (indexers : Indexers σ) (c : IndexCondition) : Prop :=
  c.indexName ∈ indexers ∧ ∀ op, c.operator ≠ .other op

/-- `out` lists exactly the stored resources with the property `P`, each once, by ascending key. -/
structure Listing {σ : Type} (stored : Contents σ) (P : Resource σ → Prop)
    (out : List (Resource σ)) : Prop where
  mem_iff : ∀ r, r ∈ out ↔ r ∈ stored.items ∧ P r
  ascending : Ascending Resource.resourceKey out

theorem Listing.unique {σ : Type} {stored stored' : Contents σ} {P P' : Resource σ → Prop}
    {out out' : List (Resource σ)} (h : Listing stored P out) (h' : Listing stored' P' out')
    (hiff : ∀ r, r ∈ stored.items ∧ P r ↔ r ∈ stored'.items ∧ P' r) : out = out' :=
  eq_of_ascending h.ascending h'.ascending fun r => by rw [h.mem_iff, h'.mem_iff, hiff]

theorem Listing.key_mem_iff {σ : Type} {stored : Contents σ} {P : Resource σ → Prop}
    {out : List (Resource σ)} (h : Listing stored P out) {r : Resource σ} (hr : r ∈ stored.items) :
    r.resourceKey ∈ out.map Resource.resourceKey ↔ P r := by
  rw [List.mem_map]
  constructor
  · rintro ⟨r', hr', hkey⟩
    obtain ⟨hstored, hP⟩ := (h.mem_iff r').mp hr'
    rwa [Keyed.eq_of_key_eq hstored hr hkey] at hP
  · exact fun hP => ⟨r, (h.mem_iff r).mpr ⟨hr, hP⟩, rfl⟩

/-! ## The intersection of the conditions' keys -/

/-- One round of the loop that both stores' `getKeysByIndexes` run: the first condition's keys start
the key set, and each later condition keeps what its own keys have in common with it. -/
def intersectRound (query : IndexCondition → Except Failure (List String))
    (keySet : Option (List String)) (condition : IndexCondition) :
    Except Failure (Option (List String)) := do
  let keys ← query condition
  match keySet with
  | none => pure (some keys.dedup)
  | some keySet => pure (some (keySet.filter (· ∈ keys)))

/-- Both stores' `getKeysByIndexes`, over the query of one condition: the keys that every condition
returns, each once, and no key for no condition. The set's own order is not specified; every caller
sorts. -/
def keysByIndexes (query : IndexCondition → Except Failure (List String))
    (indexes : List IndexCondition) : Except Failure (List String) := do
  let keySet ← indexes.foldlM (intersectRound query) none
  pure (keySet.getD [])

/-- The rounds after the first only remove the keys that a later condition does not return. -/
theorem foldlM_intersectRound {query : IndexCondition → Except Failure (List String)}
    {q : IndexCondition → List String} {indexes : List IndexCondition}
    (h : ∀ c ∈ indexes, query c = .ok (q c)) {ks : List String} (hks : ks.Nodup) :
    ∃ ks', indexes.foldlM (intersectRound query) (some ks) = .ok (some ks') ∧
      ks'.Nodup ∧ ∀ k, k ∈ ks' ↔ k ∈ ks ∧ ∀ c ∈ indexes, k ∈ q c := by
  induction indexes generalizing ks with
  | nil => exact ⟨ks, rfl, hks, by simp⟩
  | cons c indexes ih =>
    obtain ⟨ks', hfold, hnodup, hmem⟩ :=
      ih (fun c hc => h c (List.mem_cons_of_mem _ hc)) (hks.filter (· ∈ q c))
    refine ⟨ks', ?_, hnodup, fun k => ?_⟩
    · rw [List.foldlM_cons, intersectRound, h c List.mem_cons_self]
      exact hfold
    · rw [hmem, List.mem_filter, List.forall_mem_cons]
      simp [and_assoc]

/-- Where every query succeeds, `keysByIndexes` returns the keys common to all of them. -/
theorem keysByIndexes_spec {query : IndexCondition → Except Failure (List String)}
    {q : IndexCondition → List String} {indexes : List IndexCondition}
    (h : ∀ c ∈ indexes, query c = .ok (q c)) :
    ∃ ks, keysByIndexes query indexes = .ok ks ∧ ks.Nodup ∧
      ∀ k, k ∈ ks ↔ indexes ≠ [] ∧ ∀ c ∈ indexes, k ∈ q c := by
  unfold keysByIndexes
  cases indexes with
  | nil => exact ⟨[], rfl, List.nodup_nil, by simp⟩
  | cons c indexes =>
    obtain ⟨ks, hfold, hnodup, hmem⟩ := foldlM_intersectRound
      (fun c hc => h c (List.mem_cons_of_mem _ hc)) (List.nodup_dedup (q c))
    have hround : intersectRound query none c = .ok (some (q c).dedup) := by
      rw [intersectRound, h c List.mem_cons_self]
      rfl
    refine ⟨ks, ?_, hnodup, fun k => ?_⟩
    · rw [List.foldlM_cons, hround]
      show (do let keySet ← List.foldlM (intersectRound query) (some (q c).dedup) indexes
               pure (keySet.getD [])) = .ok ks
      rw [hfold]
      rfl
    · rw [hmem, List.mem_dedup, List.forall_mem_cons]
      simp

/-! ## Pages -/

/-- The page that is asked for. -/
structure PageReq where
  pageOffset : ℕ
  pageSize : ℕ
deriving DecidableEq, Repr

/-- `PageData`, with its `Pagination`. -/
structure PageData (α : Type) where
  total : ℕ
  pageOffset : ℕ
  pageSize : ℕ
  data : List α
deriving DecidableEq, Repr

/-- The pages that a walk from offset `off` in steps of `n` sees, up to and including the first
empty one. -/
inductive Pages {α : Type} (page : ℕ → Except Failure (PageData α)) (n : ℕ) :
    ℕ → List (PageData α) → Prop
  /-- An empty page ends the walk. -/
  | last {off : ℕ} {pd : PageData α} (h : page off = .ok pd) (hempty : pd.data = []) :
      Pages page n off [pd]
  /-- After a page with entries the walk goes on at the next offset. -/
  | next {off : ℕ} {pd : PageData α} {rest : List (PageData α)} (h : page off = .ok pd)
      (hne : pd.data ≠ []) (hrest : Pages page n (off + n) rest) : Pages page n off (pd :: rest)

/-- Walking the pages of size `n` gives exactly the list `out`, in its order, and every page seen on
the way reports the length of `out` as its total. -/
def PagesGive {α : Type} (page : ℕ → Except Failure (PageData α)) (n : ℕ) (out : List α) : Prop :=
  ∃ pages, Pages page n 0 pages ∧ pages.flatMap PageData.data = out ∧
    ∀ pd ∈ pages, pd.total = out.length

/-- A query whose pages are the slices of one list, with its length as their total, gives that
list. -/
theorem pagesGive_of_slices {α : Type} {page : ℕ → Except Failure (PageData α)} {n : ℕ}
    (hn : 1 ≤ n) {l : List α}
    (h : ∀ off, ∃ pd, page off = .ok pd ∧ pd.total = l.length ∧ pd.data = (l.drop off).take n) :
    PagesGive page n l := by
  -- The walk from any offset gives the rest of the list; each page shortens what is left.
  have walk : ∀ m off, l.length - off = m → ∃ pages, Pages page n off pages ∧
      pages.flatMap PageData.data = l.drop off ∧ ∀ pd ∈ pages, pd.total = l.length := by
    intro m
    induction m using Nat.strong_induction_on with
    | _ m ih =>
      intro off hm
      obtain ⟨pd, hpage, htotal, hdata⟩ := h off
      by_cases hoff : l.length ≤ off
      · have hnil : l.drop off = [] := List.drop_eq_nil_of_le hoff
        rw [hnil, List.take_nil] at hdata
        refine ⟨[pd], .last hpage hdata, ?_, by simpa using htotal⟩
        simp [hdata, hnil]
      · obtain ⟨pages, hpages, hflat, htotals⟩ := ih (l.length - (off + n)) (by omega) (off + n) rfl
        have hne : pd.data ≠ [] := by
          rw [hdata, ← List.length_pos_iff, List.length_take, List.length_drop]
          omega
        refine ⟨pd :: pages, .next hpage hne hpages, ?_, ?_⟩
        · rw [List.flatMap_cons, hflat, hdata, ← List.drop_drop, List.take_append_drop]
        · rintro pd' hpd'
          rcases List.mem_cons.mp hpd' with rfl | hpd'
          · exact htotal
          · exact htotals pd' hpd'
  obtain ⟨pages, hpages, hflat, htotals⟩ := walk _ 0 rfl
  exact ⟨pages, hpages, hflat, htotals⟩

/-- The first page of a walk: its total is the length of the list that the walk gives, it starts
that list, and it is empty only for the empty list. Where it is not, the walk sees a second page,
with the same total. -/
theorem PagesGive.first {α : Type} {page : ℕ → Except Failure (PageData α)} {n : ℕ} {out : List α}
    (h : PagesGive page n out) :
    ∃ pd, page 0 = .ok pd ∧ pd.total = out.length ∧ pd.data <+: out ∧ (pd.data = [] → out = []) ∧
      (pd.data ≠ [] → ∃ pd', page n = .ok pd' ∧ pd'.total = out.length) := by
  obtain ⟨pages, hpages, rfl, htotal⟩ := h
  cases hpages with
  | @last _ pd hpd hempty =>
    exact ⟨pd, hpd, htotal pd List.mem_cons_self, by simp, fun _ => by simp [hempty],
      fun hne => absurd hempty hne⟩
  | @next _ pd rest hpd hne hrest =>
    refine ⟨pd, hpd, htotal pd List.mem_cons_self, by simp, fun he => absurd he hne, fun _ => ?_⟩
    rw [Nat.zero_add] at hrest
    cases hrest with
    | @last _ pd' hpd' _ | @next _ pd' _ hpd' _ _ => exact ⟨pd', hpd', htotal pd' (by simp)⟩

end DubboAdmin
