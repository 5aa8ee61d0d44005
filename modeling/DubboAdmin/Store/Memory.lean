import DubboAdmin.Resource

/-!
# The memory store

`resourceStore` of `pkg/store/memory/store.go`: client-go's `cache.Indexer`, which holds the
resources and answers equality queries, and beside it one radix tree per index, which the store
keeps itself and from which it answers prefix queries.

`Indexer` is what the store relies on of client-go: a map from keys to objects whose own indices are
exact. Index functions that fail make it panic. A radix tree is the set of strings it holds, as a
list of which only the members matter.
-/

namespace DubboAdmin.Memory

open Strings

variable {σ : Type}

/-! ## `cache.Indexer` -/

/-- `cache.Indexer`: the objects by key, and the index functions. -/
structure Indexer (σ : Type) where
  items : Contents σ
  indexers : Indexers σ

namespace Indexer

/-- Whether every index function accepts a resource. -/
def indexable (indexers : Indexers σ) (r : Resource σ) : Bool :=
  indexers.entries.all fun e => (e.2 r).isSome

/-- client-go's `updateIndices` panics where an index function fails. -/
def updateIndices (c : Indexer σ) (r : Resource σ) : Except Failure Unit :=
  if indexable c.indexers r then pure ()
  else .error (.panic "unable to calculate an index entry")

/-- `Add` overwrites the object with the same key. -/
def add (c : Indexer σ) (r : Resource σ) : Except Failure (Indexer σ) := do
  c.updateIndices r
  pure { c with items := c.items.put r }

/-- `Update` is `Add`. -/
def update (c : Indexer σ) (r : Resource σ) : Except Failure (Indexer σ) := c.add r

/-- `Delete` removes the object with the key of `r`, if there is one. -/
def delete (c : Indexer σ) (r : Resource σ) : Indexer σ :=
  { c with items := c.items.erase r.resourceKey }

/-- `Replace` holds the objects of the list instead; of two with the same key, the later one. -/
def replace (c : Indexer σ) (list : List (Resource σ)) : Except Failure (Indexer σ) := do
  (Keyed.ofList list : Contents σ).items.forM c.updateIndices
  pure { c with items := Keyed.ofList list }

/-- `IndexKeys`: the keys of the objects that have the value under the index. -/
def indexKeys (c : Indexer σ) (indexName indexedValue : String) : Except Failure (List String) :=
  if indexName ∈ c.indexers then
    .ok ((c.items.items.filter fun r => indexedValue ∈ c.indexers.values indexName r).map
      Resource.resourceKey)
  else .error (.err ("Index with name " ++ indexName ++ " does not exist"))

/-- `ByIndex`: the objects that have the value under the index. -/
def byIndex (c : Indexer σ) (indexName indexedValue : String) :
    Except Failure (List (Resource σ)) :=
  if indexName ∈ c.indexers then
    .ok (c.items.items.filter fun r => indexedValue ∈ c.indexers.values indexName r)
  else .error (.err ("Index with name " ++ indexName ++ " does not exist"))

/-- `AddIndexers` refuses a name that is taken, and indexes what is already stored. -/
def addIndexers (c : Indexer σ) (newIndexers : Indexers σ) : Except Failure (Indexer σ) :=
  if newIndexers.keys.any (· ∈ c.indexers) then .error (.err "indexer conflict")
  else do
    c.items.items.forM { c with indexers := newIndexers }.updateIndices
    pure { c with indexers := newIndexers ∪ c.indexers }

end Indexer

/-! ## Radix trees -/

/-- A radix tree, as the strings it holds. -/
abbrev RadixTree := List String

def RadixTree.insert (tree : RadixTree) (k : String) : RadixTree := List.insert k tree

def RadixTree.delete (tree : RadixTree) (k : String) : RadixTree := tree.filter (· ≠ k)

/-- `WalkPrefix`: the strings of the tree that start with `p`. -/
def RadixTree.walkPrefix (tree : RadixTree) (p : String) : List String :=
  tree.filter (hasPrefix · p)

/-! ## The store -/

/-- The memory store. -/
structure ResourceStore (σ : Type) where
  storeProxy : Indexer σ
  prefixTrees : AList fun _ : String => RadixTree

/-- The resources in the store. -/
def ResourceStore.stored (rs : ResourceStore σ) : Contents σ := rs.storeProxy.items

/-- The registered index functions. -/
def ResourceStore.indexers (rs : ResourceStore σ) : Indexers σ := rs.storeProxy.indexers

/-- An empty tree under each name of a map. -/
def emptyTrees {γ : String → Type} (names : AList γ) : AList fun _ : String => RadixTree :=
  fillWith names []

/-- `Init`, with the index functions that the registry holds for the kind. -/
def init (indexers : Indexers σ) : ResourceStore σ where
  storeProxy := ⟨Keyed.empty, indexers⟩
  prefixTrees := emptyTrees indexers

/-- The string that a tree holds for one index value of a resource: `indexValue/resourceKey`. -/
def treeKey (v : String) (resource : Resource σ) : String := v ++ "/" ++ resource.resourceKey

/-- The loop of `addToTrees` and `removeFromTrees`: `op` on the tree of each index, for each value
of the resource under it. An index function that fails changes no tree. -/
def updateTrees (op : RadixTree → String → RadixTree) (indexers : Indexers σ)
    (trees : AList fun _ : String => RadixTree) (resource : Resource σ) :
    AList fun _ : String => RadixTree :=
  indexers.entries.foldl (fun trees e => modify trees e.1 fun tree =>
    ((e.2 resource).getD []).foldl (fun tree v => op tree (treeKey v resource)) tree) trees

def ResourceStore.addToTrees (rs : ResourceStore σ) (resource : Resource σ) : ResourceStore σ :=
  { rs with prefixTrees := updateTrees RadixTree.insert rs.indexers rs.prefixTrees resource }

def ResourceStore.removeFromTrees (rs : ResourceStore σ) (resource : Resource σ) :
    ResourceStore σ :=
  { rs with prefixTrees := updateTrees RadixTree.delete rs.indexers rs.prefixTrees resource }

def ResourceStore.add (rs : ResourceStore σ) (r : Resource σ) :
    Except Failure (ResourceStore σ) := do
  let storeProxy ← rs.storeProxy.add r
  pure ({ rs with storeProxy }.addToTrees r)

/-- `Update`: what the old object had in the trees goes, and what the new one has comes. -/
def ResourceStore.update (rs : ResourceStore σ) (r : Resource σ) :
    Except Failure (ResourceStore σ) := do
  let oldRes := rs.stored.get? r.resourceKey
  let storeProxy ← rs.storeProxy.update r
  let rs := { rs with storeProxy }
  match oldRes with
  | some oldRes => pure ((rs.removeFromTrees oldRes).addToTrees r)
  | none => pure (rs.addToTrees r)

/-- `Delete`: what the given object has in the trees goes. -/
def ResourceStore.delete (rs : ResourceStore σ) (r : Resource σ) :
    Except Failure (ResourceStore σ) :=
  pure ({ rs with storeProxy := rs.storeProxy.delete r }.removeFromTrees r)

/-- `Replace`: the trees are cleared first, and filled with every object of the list. -/
def ResourceStore.replace (rs : ResourceStore σ) (list : List (Resource σ)) :
    Except Failure (ResourceStore σ) := do
  let prefixTrees := emptyTrees rs.prefixTrees
  let storeProxy ← rs.storeProxy.replace list
  pure (list.foldl ResourceStore.addToTrees { storeProxy, prefixTrees })

/-- `AddIndexers`: an empty tree for each new index that has none. -/
def ResourceStore.addIndexers (rs : ResourceStore σ) (newIndexers : Indexers σ) :
    Except Failure (ResourceStore σ) := do
  let storeProxy ← rs.storeProxy.addIndexers newIndexers
  pure { storeProxy, prefixTrees := rs.prefixTrees ∪ emptyTrees newIndexers }

/-! ## Queries -/

/-- The resource key of a string of a tree: what follows the first `/`, unless nothing does. -/
def keyOfTreeKey (k : String) : Option String :=
  match cut '/' k with
  | none => none
  | some (_, rest) => if rest = "" then none else some rest

def ResourceStore.getKeysByPrefix (rs : ResourceStore σ) (indexName p : String) :
    Except Failure (List String) :=
  match rs.prefixTrees.lookup indexName with
  | none => .error (.err ("index " ++ indexName ++ " does not exist"))
  | some tree => .ok ((tree.walkPrefix p).filterMap keyOfTreeKey)

/-- The keys of one condition, by its operator. -/
def ResourceStore.conditionKeys (rs : ResourceStore σ) (condition : IndexCondition) :
    Except Failure (List String) :=
  match condition.operator with
  | .equals => rs.storeProxy.indexKeys condition.indexName condition.value
  | .hasPrefix => rs.getKeysByPrefix condition.indexName condition.value
  | .other op => .error (.err ("operator not yet supported: " ++ op))

def ResourceStore.getKeysByIndexes (rs : ResourceStore σ) (indexes : List IndexCondition) :
    Except Failure (List String) :=
  keysByIndexes rs.conditionKeys indexes

/-- `GetByKeys`: the resources under the keys, where there are any. -/
def ResourceStore.getByKeys (rs : ResourceStore σ) (keys : List String) : List (Resource σ) :=
  keys.filterMap rs.stored.get?

def ResourceStore.listByIndexes (rs : ResourceStore σ) (indexes : List IndexCondition) :
    Except Failure (List (Resource σ)) := do
  let keys ← rs.getKeysByIndexes indexes
  pure (sortBy Resource.resourceKey (rs.getByKeys keys))

/-- The loop of `PageListByIndexes` from index `i` on, over the keys from there: it counts `total`
down at each key without an object, and `i < total` is checked against the lowered bound. -/
def ResourceStore.pageLoop (rs : ResourceStore σ) (pageSize : ℕ) :
    List String → ℕ → ℕ → List (Resource σ) → ℕ × List (Resource σ)
  | [], _, total, resources => (total, resources)
  | key :: keys, i, total, resources =>
    if resources.length < pageSize ∧ i < total then
      match rs.stored.get? key with
      | none => rs.pageLoop pageSize keys (i + 1) (total - 1) resources
      | some r => rs.pageLoop pageSize keys (i + 1) total (resources ++ [r])
    else (total, resources)

def ResourceStore.pageListByIndexes (rs : ResourceStore σ) (indexes : List IndexCondition)
    (pq : PageReq) : Except Failure (PageData (Resource σ)) := do
  let keys ← rs.getKeysByIndexes indexes
  let keys := sortBy id keys
  let (total, resources) :=
    rs.pageLoop pq.pageSize (keys.drop pq.pageOffset) pq.pageOffset keys.length []
  pure ⟨total, pq.pageOffset, pq.pageSize, resources⟩

/-! ## What the tree updates do -/

/-- The tree of the index `n` holds the string `k`. -/
def ResourceStore.InTree (rs : ResourceStore σ) (n k : String) : Prop :=
  ∃ tree, rs.prefixTrees.lookup n = some tree ∧ k ∈ tree

/-- Every registered index has a tree, and every tree belongs to one. -/
def ResourceStore.TreesRegistered (rs : ResourceStore σ) : Prop :=
  ∀ n, n ∈ rs.prefixTrees ↔ n ∈ rs.indexers

variable {n k : String} {tree : RadixTree}

theorem not_mem_emptyTrees {γ : String → Type} {names : AList γ}
    (h : (emptyTrees names).lookup n = some tree) : k ∉ tree := by
  unfold emptyTrees at h
  rw [lookup_fillWith] at h
  obtain ⟨_, _, rfl⟩ := Option.map_eq_some_iff.mp h
  exact List.not_mem_nil

theorem lookup_updateTrees (op : RadixTree → String → RadixTree) (indexers : Indexers σ)
    (trees : AList fun _ : String => RadixTree) (r : Resource σ) (n : String) :
    (updateTrees op indexers trees r).lookup n = (trees.lookup n).map fun tree =>
      (indexers.values n r).foldl (fun tree v => op tree (treeKey v r)) tree := by
  unfold updateTrees Indexers.values
  rw [lookup_foldl_modify indexers.nodupKeys, show indexers.entries.dlookup n = indexers.lookup n
    from rfl]
  cases indexers.lookup n with
  | none => simp
  | some indexFunc => rfl

variable {r : Resource σ}

theorem mem_foldl_insert {vs : List String} :
    k ∈ vs.foldl (fun tree v => RadixTree.insert tree (treeKey v r)) tree ↔
      k ∈ tree ∨ ∃ v ∈ vs, k = treeKey v r := by
  induction vs generalizing tree with
  | nil => simp
  | cons v vs ih =>
    rw [List.foldl_cons, ih]
    simp only [RadixTree.insert, List.mem_insert_iff, List.exists_mem_cons_iff]
    tauto

theorem mem_foldl_delete {vs : List String} :
    k ∈ vs.foldl (fun tree v => RadixTree.delete tree (treeKey v r)) tree ↔
      k ∈ tree ∧ ∀ v ∈ vs, k ≠ treeKey v r := by
  induction vs generalizing tree with
  | nil => simp
  | cons v vs ih =>
    rw [List.foldl_cons, ih]
    simp only [RadixTree.delete, List.mem_filter, List.forall_mem_cons, decide_eq_true_eq,
      and_assoc]

@[simp]
theorem indexers_addToTrees (rs : ResourceStore σ) (r : Resource σ) :
    (rs.addToTrees r).indexers = rs.indexers := rfl

variable {rs : ResourceStore σ}

/-- `addToTrees` adds the strings of the resource to the trees that exist. -/
theorem inTree_addToTrees :
    (rs.addToTrees r).InTree n k ↔
      rs.InTree n k ∨ n ∈ rs.prefixTrees ∧ ∃ v ∈ rs.indexers.values n r, k = treeKey v r := by
  simp only [ResourceStore.InTree, ResourceStore.addToTrees, lookup_updateTrees,
    Option.map_eq_some_iff, ← AList.lookup_isSome, Option.isSome_iff_exists]
  constructor
  · rintro ⟨_, ⟨tree, htree, rfl⟩, hk⟩
    rcases mem_foldl_insert.mp hk with hk | hv
    · exact .inl ⟨tree, htree, hk⟩
    · exact .inr ⟨⟨tree, htree⟩, hv⟩
  · rintro (⟨tree, htree, hk⟩ | ⟨⟨tree, htree⟩, hv⟩)
    · exact ⟨_, ⟨tree, htree, rfl⟩, mem_foldl_insert.mpr (.inl hk)⟩
    · exact ⟨_, ⟨tree, htree, rfl⟩, mem_foldl_insert.mpr (.inr hv)⟩

theorem inTree_removeFromTrees :
    (rs.removeFromTrees r).InTree n k ↔
      rs.InTree n k ∧ ∀ v ∈ rs.indexers.values n r, k ≠ treeKey v r := by
  simp only [ResourceStore.InTree, ResourceStore.removeFromTrees, lookup_updateTrees,
    Option.map_eq_some_iff]
  constructor
  · rintro ⟨_, ⟨tree, htree, rfl⟩, hk⟩
    obtain ⟨hk, hv⟩ := mem_foldl_delete.mp hk
    exact ⟨⟨tree, htree, hk⟩, hv⟩
  · rintro ⟨⟨tree, htree, hk⟩, hv⟩
    exact ⟨_, ⟨tree, htree, rfl⟩, mem_foldl_delete.mpr ⟨hk, hv⟩⟩

theorem mem_updateTrees {op : RadixTree → String → RadixTree} {indexers : Indexers σ}
    {trees : AList fun _ : String => RadixTree} :
    n ∈ updateTrees op indexers trees r ↔ n ∈ trees := by
  rw [← AList.lookup_isSome, lookup_updateTrees, Option.isSome_map, AList.lookup_isSome]

theorem TreesRegistered.addToTrees (h : rs.TreesRegistered) (r : Resource σ) :
    (rs.addToTrees r).TreesRegistered :=
  fun n => mem_updateTrees.trans (h n)

theorem TreesRegistered.removeFromTrees (h : rs.TreesRegistered) (r : Resource σ) :
    (rs.removeFromTrees r).TreesRegistered :=
  fun n => mem_updateTrees.trans (h n)

/-! ## What a query returns -/

/-- The condition names the key `k`: the index has an object with the value, or the tree holds a
string with the prefix whose part after the first `/` is `k`. -/
def ResourceStore.Candidate (rs : ResourceStore σ) (c : IndexCondition) (k : String) : Prop :=
  match c.operator with
  | .equals => ∃ r ∈ rs.stored.items, r.resourceKey = k ∧
      c.value ∈ rs.indexers.values c.indexName r
  | .hasPrefix => ∃ tk, rs.InTree c.indexName tk ∧ hasPrefix tk c.value = true ∧
      keyOfTreeKey tk = some k
  | .other _ => False

/-- A supported condition's query succeeds, with the keys that the condition names. -/
theorem conditionKeys_spec (h : rs.TreesRegistered) {c : IndexCondition}
    (hc : c.Supported rs.indexers) :
    ∃ ks, rs.conditionKeys c = .ok ks ∧ ∀ k, k ∈ ks ↔ rs.Candidate c k := by
  obtain ⟨hreg, hop⟩ := hc
  unfold ResourceStore.conditionKeys ResourceStore.Candidate
  cases hopc : c.operator with
  | equals =>
    refine ⟨_, if_pos hreg, fun k => ?_⟩
    simp only [List.mem_map, List.mem_filter, decide_eq_true_eq, ResourceStore.stored,
      ResourceStore.indexers]
    exact ⟨fun ⟨r, ⟨hr, hv⟩, hk⟩ => ⟨r, hr, hk, hv⟩, fun ⟨r, hr, hk, hv⟩ => ⟨r, ⟨hr, hv⟩, hk⟩⟩
  | hasPrefix =>
    obtain ⟨tree, htree⟩ := Option.isSome_iff_exists.mp (AList.lookup_isSome.mpr ((h _).mpr hreg))
    refine ⟨(tree.walkPrefix c.value).filterMap keyOfTreeKey, ?_, fun k => ?_⟩
    · simp only [ResourceStore.getKeysByPrefix, htree]
    · simp only [List.mem_filterMap, RadixTree.walkPrefix, List.mem_filter, ResourceStore.InTree,
        htree, Option.some.injEq, exists_eq_left']
      exact ⟨fun ⟨tk, ⟨hm, hp⟩, hk⟩ => ⟨tk, hm, hp, hk⟩, fun ⟨tk, hm, hp, hk⟩ => ⟨tk, ⟨hm, hp⟩, hk⟩⟩
  | other op => exact absurd hopc (hop op)

theorem getKeysByIndexes_spec (h : rs.TreesRegistered) {indexes : List IndexCondition}
    (hc : ∀ c ∈ indexes, c.Supported rs.indexers) :
    ∃ ks, rs.getKeysByIndexes indexes = .ok ks ∧ ks.Nodup ∧
      ∀ k, k ∈ ks ↔ indexes ≠ [] ∧ ∀ c ∈ indexes, rs.Candidate c k := by
  choose! q hq hmem using fun c hc' => conditionKeys_spec h (hc c hc')
  obtain ⟨ks, hks, hnodup, hiff⟩ := keysByIndexes_spec hq
  refine ⟨ks, hks, hnodup, fun k => (hiff k).trans (and_congr_right fun _ => ?_)⟩
  exact forall₂_congr fun c hc' => hmem c hc' k

/-- The resources under distinct keys have distinct keys. -/
theorem nodup_getByKeys {keys : List String} (h : keys.Nodup) :
    ((rs.getByKeys keys).map Resource.resourceKey).Nodup := by
  unfold ResourceStore.getByKeys
  induction keys with
  | nil => exact List.nodup_nil
  | cons k keys ih =>
    obtain ⟨hk, hkeys⟩ := List.nodup_cons.mp h
    rw [List.filterMap_cons]
    cases hget : rs.stored.get? k with
    | none => exact ih hkeys
    | some r =>
      refine List.nodup_cons.mpr ⟨?_, ih hkeys⟩
      rw [List.mem_map]
      rintro ⟨r', hr', heq⟩
      obtain ⟨k', hk', hget'⟩ := List.mem_filterMap.mp hr'
      rw [(Keyed.get?_eq_some_iff.mp hget).2, (Keyed.get?_eq_some_iff.mp hget').2] at heq
      exact hk (heq ▸ hk')

/-- In any state, `ListByIndexes` lists the stored resources whose keys every condition names. -/
theorem listByIndexes_spec (h : rs.TreesRegistered) {indexes : List IndexCondition}
    (hc : ∀ c ∈ indexes, c.Supported rs.indexers) :
    ∃ out, rs.listByIndexes indexes = .ok out ∧ Listing rs.stored
      (fun r => indexes ≠ [] ∧ ∀ c ∈ indexes, rs.Candidate c r.resourceKey) out := by
  obtain ⟨ks, hks, hnodup, hmem⟩ := getKeysByIndexes_spec h hc
  refine ⟨sortBy Resource.resourceKey (rs.getByKeys ks), ?_, ?_, ?_⟩
  · unfold ResourceStore.listByIndexes
    rw [hks]
    rfl
  · intro r
    rw [mem_sortBy, ResourceStore.getByKeys, List.mem_filterMap]
    constructor
    · rintro ⟨k, hk, hget⟩
      obtain ⟨hr, rfl⟩ := Keyed.get?_eq_some_iff.mp hget
      exact ⟨hr, (hmem _).mp hk⟩
    · rintro ⟨hr, hcand⟩
      exact ⟨r.resourceKey, (hmem _).mpr hcand, Keyed.get?_key hr⟩
  · exact ascending_sortBy (nodup_getByKeys hnodup)

end DubboAdmin.Memory
