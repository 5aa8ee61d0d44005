import DubboAdmin.Lib.Runs
import DubboAdmin.Store.Memory

/-!
# The memory store's prefix index

The radix trees are a second copy of the indices, which every operation of the store has to keep in
step with the objects. `TreesExact` is the relation it should keep: each tree holds the string
`value/key` of every value of every stored resource, and nothing else. An operation keeps it when it
meets `GoodStep` (`step_treesExact`), which names what the operations miss, and then a prefix query
returns exactly the resources it should, unless the prefix reaches past an index value into the key
behind it (`prefixQuery_exact_iff`).
-/

namespace DubboAdmin.Memory

open Strings

variable {σ : Type}

/-- The operations that change a store. -/
inductive Op (σ : Type) where
  | add (r : Resource σ)
  | update (r : Resource σ)
  | delete (r : Resource σ)
  | replace (list : List (Resource σ))
  | addIndexers (newIndexers : Indexers σ)

/-- The operation on a store. -/
def Op.apply (rs : ResourceStore σ) : Op σ → Except Failure (ResourceStore σ)
  | .add r => rs.add r
  | .update r => rs.update r
  | .delete r => rs.delete r
  | .replace list => rs.replace list
  | .addIndexers newIndexers => rs.addIndexers newIndexers

/-- An operation that returns no error. -/
def Step (rs : ResourceStore σ) (op : Op σ) (rs' : ResourceStore σ) : Prop :=
  op.apply rs = .ok rs'

/-! ## What each operation does -/

section Operations

variable {rs rs' : ResourceStore σ} {r : Resource σ}

theorem add_eq_ok (h : rs.add r = .ok rs') :
    rs' = ResourceStore.addToTrees
      { rs with storeProxy := { rs.storeProxy with items := rs.stored.put r } } r := by
  unfold ResourceStore.add Indexer.add Indexer.updateIndices at h
  split_ifs at h
  · exact (Except.ok.inj h).symm
  · cases h

theorem update_eq_ok (h : rs.update r = .ok rs') :
    let rs₁ := { rs with storeProxy := { rs.storeProxy with items := rs.stored.put r } }
    (rs.stored.get? r.resourceKey = none ∧ rs' = rs₁.addToTrees r) ∨
      ∃ oldRes, rs.stored.get? r.resourceKey = some oldRes ∧
        rs' = (rs₁.removeFromTrees oldRes).addToTrees r := by
  unfold ResourceStore.update Indexer.update Indexer.add Indexer.updateIndices at h
  split_ifs at h
  · cases hold : rs.stored.get? r.resourceKey with
    | none =>
      rw [hold] at h
      exact .inl ⟨rfl, (Except.ok.inj h).symm⟩
    | some oldRes =>
      rw [hold] at h
      exact .inr ⟨oldRes, rfl, (Except.ok.inj h).symm⟩
  · cases h

theorem delete_eq_ok (h : rs.delete r = .ok rs') :
    rs' = ResourceStore.removeFromTrees
      { rs with storeProxy := { rs.storeProxy with items := rs.stored.erase r.resourceKey } } r :=
  (Except.ok.inj h).symm

theorem foldl_addToTrees_frame (list : List (Resource σ)) (rs : ResourceStore σ) :
    (list.foldl ResourceStore.addToTrees rs).stored = rs.stored ∧
      (list.foldl ResourceStore.addToTrees rs).indexers = rs.indexers ∧
      ∀ n, n ∈ (list.foldl ResourceStore.addToTrees rs).prefixTrees ↔ n ∈ rs.prefixTrees := by
  induction list generalizing rs with
  | nil => exact ⟨rfl, rfl, fun _ => Iff.rfl⟩
  | cons r list ih =>
    obtain ⟨hstored, hindexers, htrees⟩ := ih (rs.addToTrees r)
    exact ⟨hstored, hindexers, fun n => (htrees n).trans mem_updateTrees⟩

theorem inTree_foldl_addToTrees {list : List (Resource σ)} {rs : ResourceStore σ} {n k : String} :
    (list.foldl ResourceStore.addToTrees rs).InTree n k ↔
      rs.InTree n k ∨ n ∈ rs.prefixTrees ∧
        ∃ r ∈ list, ∃ v ∈ rs.indexers.values n r, k = treeKey v r := by
  induction list generalizing rs with
  | nil => simp
  | cons r list ih =>
    have htrees : n ∈ (rs.addToTrees r).prefixTrees ↔ n ∈ rs.prefixTrees := mem_updateTrees
    rw [List.foldl_cons, ih, inTree_addToTrees, htrees, indexers_addToTrees,
      List.exists_mem_cons_iff, and_or_left, or_assoc]

theorem replace_eq_ok {list : List (Resource σ)} (h : rs.replace list = .ok rs') :
    rs'.stored = Keyed.ofList list ∧ rs'.indexers = rs.indexers ∧
      (∀ n, n ∈ rs'.prefixTrees ↔ n ∈ rs.prefixTrees) ∧
      ∀ n k, rs'.InTree n k ↔ n ∈ rs.prefixTrees ∧
        ∃ r ∈ list, ∃ v ∈ rs.indexers.values n r, k = treeKey v r := by
  unfold ResourceStore.replace Indexer.replace at h
  cases hidx : (Keyed.ofList list : Contents σ).items.forM rs.storeProxy.updateIndices with
  | error e =>
    rw [hidx] at h
    cases h
  | ok u =>
    rw [hidx] at h
    obtain rfl := (Except.ok.inj h).symm
    obtain ⟨hstored, hindexers, htrees⟩ := foldl_addToTrees_frame list
      ⟨{ rs.storeProxy with items := Keyed.ofList list }, emptyTrees rs.prefixTrees⟩
    refine ⟨hstored, hindexers, fun n => (htrees n).trans mem_fillWith, fun n k => ?_⟩
    have hempty : ¬ ResourceStore.InTree
        ⟨{ rs.storeProxy with items := Keyed.ofList list }, emptyTrees rs.prefixTrees⟩ n k := by
      rintro ⟨tree, htree, hk⟩
      exact not_mem_emptyTrees htree hk
    rw [inTree_foldl_addToTrees, or_iff_right hempty]
    exact and_congr_left fun _ => mem_fillWith

theorem addIndexers_eq_ok {newIndexers : Indexers σ} (h : rs.addIndexers newIndexers = .ok rs') :
    (∀ n, n ∈ newIndexers → n ∉ rs.indexers) ∧ rs'.stored = rs.stored ∧
      rs'.indexers = newIndexers ∪ rs.indexers ∧
      rs'.prefixTrees = rs.prefixTrees ∪ emptyTrees newIndexers := by
  unfold ResourceStore.addIndexers Indexer.addIndexers at h
  split_ifs at h with hconflict
  · cases h
  · have hdisj : ∀ n, n ∈ newIndexers → n ∉ rs.indexers := by
      intro n hn hold
      exact hconflict (List.any_eq_true.mpr ⟨n, AList.mem_keys.mp hn, decide_eq_true hold⟩)
    cases hidx : rs.storeProxy.items.items.forM
        { rs.storeProxy with indexers := newIndexers }.updateIndices with
    | error e =>
      rw [hidx] at h
      cases h
    | ok u =>
      rw [hidx] at h
      obtain rfl := (Except.ok.inj h).symm
      exact ⟨hdisj, rfl, rfl, rfl⟩

end Operations

/-! ## The invariant -/

/-- No index value of the resource holds a `/`. -/
def SlashFree (indexers : Indexers σ) (r : Resource σ) : Prop :=
  ∀ n, ∀ v ∈ indexers.values n r, '/' ∉ v.toList

/-- The resource `new` has every index value that `old` has. -/
def Covers (indexers : Indexers σ) (old new : Resource σ) : Prop :=
  ∀ n, ∀ v ∈ indexers.values n old, v ∈ indexers.values n new

/-- The trees hold exactly the strings `value/key` of the stored resources. -/
structure TreesExact (rs : ResourceStore σ) : Prop where
  registered : rs.TreesRegistered
  inTree_iff : ∀ n k, rs.InTree n k ↔
    ∃ r ∈ rs.stored.items, ∃ v ∈ rs.indexers.values n r, k = treeKey v r
  /-- No stored resource has a `/` in an index value. -/
  slashFree : ∀ r ∈ rs.stored.items, SlashFree rs.indexers r

/-- What an operation has to meet, in the state before it, for the trees to stay exact: the index
values of what it adds or removes are free of `/`; an `Add` over a stored object, and a `Delete` of
one, come with an object that has every index value of the stored one; of the objects of a `Replace`
with the same key, the last one has every index value of the others; and new index functions yield
no value for what is already stored. -/
def GoodStep (rs : ResourceStore σ) : Op σ → Prop
  | .add r => SlashFree rs.indexers r ∧
      ∀ old, rs.stored.get? r.resourceKey = some old → Covers rs.indexers old r
  | .update r => SlashFree rs.indexers r
  | .delete r => SlashFree rs.indexers r ∧
      ∀ old, rs.stored.get? r.resourceKey = some old → Covers rs.indexers old r
  | .replace list => (∀ r ∈ list, SlashFree rs.indexers r) ∧
      ∀ r ∈ list, ∀ last, (Keyed.ofList list : Contents σ).get? r.resourceKey = some last →
        Covers rs.indexers r last
  | .addIndexers newIndexers => ∀ n, ∀ r ∈ rs.stored.items, newIndexers.values n r = []

variable {v : String} {r : Resource σ}

theorem treeKey_congr {r' : Resource σ} (h : r.resourceKey = r'.resourceKey) :
    treeKey v r = treeKey v r' := by
  unfold treeKey
  rw [h]

theorem treeKey_inj {v' : String} {r' : Resource σ} (hv : '/' ∉ v.toList) (hv' : '/' ∉ v'.toList)
    (h : treeKey v r = treeKey v' r') :
    v = v' ∧ r.resourceKey = r'.resourceKey :=
  join_inj hv hv' h

theorem mem_of_mem_values {indexers : Indexers σ} {n : String} (h : v ∈ indexers.values n r) :
    n ∈ indexers := by
  rw [← AList.lookup_isSome]
  unfold Indexers.values at h
  cases hn : indexers.lookup n with
  | none => simp [hn] at h
  | some f => rfl

theorem treesExact_init (indexers : Indexers σ) : TreesExact (init indexers) where
  registered _ := mem_fillWith
  inTree_iff n k := by
    constructor
    · rintro ⟨tree, htree, hk⟩
      exact absurd hk (not_mem_emptyTrees htree)
    · rintro ⟨r, hr, -⟩
      exact absurd hr List.not_mem_nil
  slashFree r hr := absurd hr List.not_mem_nil

section Steps

variable {rs rs' : ResourceStore σ} {r : Resource σ}

/-- An `Add` whose object covers the one it overwrites keeps the trees exact. -/
theorem add_treesExact (h : TreesExact rs) (hr : SlashFree rs.indexers r)
    (hold : ∀ old, rs.stored.get? r.resourceKey = some old → Covers rs.indexers old r)
    (hadd : rs.add r = .ok rs') : TreesExact rs' := by
  obtain rfl := add_eq_ok hadd
  refine ⟨TreesRegistered.addToTrees h.registered r, fun n k => ?_, fun r' hr' => ?_⟩
  · rw [inTree_addToTrees]
    constructor
    · rintro (hk | ⟨-, v, hv, rfl⟩)
      · obtain ⟨r', hr', v, hv, rfl⟩ := (h.inTree_iff n k).mp hk
        by_cases hkey : r'.resourceKey = r.resourceKey
        · -- The string of the overwritten object is one of the new object.
          have hcov := hold r' (Keyed.get?_eq_some_iff.mpr ⟨hr', hkey⟩)
          exact ⟨r, Keyed.mem_put.mpr (.inl rfl), v, hcov n v hv, treeKey_congr hkey⟩
        · exact ⟨r', Keyed.mem_put.mpr (.inr ⟨hr', hkey⟩), v, hv, rfl⟩
      · exact ⟨r, Keyed.mem_put.mpr (.inl rfl), v, hv, rfl⟩
    · rintro ⟨r', hr', v, hv, rfl⟩
      rcases Keyed.mem_put.mp hr' with rfl | ⟨hr', -⟩
      · exact .inr ⟨(h.registered n).mpr (mem_of_mem_values hv), v, hv, rfl⟩
      · exact .inl ((h.inTree_iff n _).mpr ⟨r', hr', v, hv, rfl⟩)
  · rcases Keyed.mem_put.mp hr' with rfl | ⟨hr', -⟩
    · exact hr
    · exact h.slashFree r' hr'

/-- An `Update` keeps the trees exact. -/
theorem update_treesExact (h : TreesExact rs) (hr : SlashFree rs.indexers r)
    (hupdate : rs.update r = .ok rs') : TreesExact rs' := by
  obtain ⟨hnone, rfl⟩ | ⟨old, hsome, rfl⟩ := update_eq_ok hupdate
  · -- Nothing is overwritten, so this is an `Add`.
    have hadd : rs.add r = .ok (ResourceStore.addToTrees
        { rs with storeProxy := { rs.storeProxy with items := rs.stored.put r } } r) := by
      unfold ResourceStore.update Indexer.update at hupdate
      rw [hnone] at hupdate
      exact hupdate
    refine add_treesExact h hr (fun old hold => ?_) hadd
    rw [hnone] at hold
    cases hold
  · obtain ⟨hmem, hkey⟩ := Keyed.get?_eq_some_iff.mp hsome
    refine ⟨TreesRegistered.addToTrees (TreesRegistered.removeFromTrees h.registered old) r,
      fun n k => ?_, fun r' hr' => ?_⟩
    · rw [inTree_addToTrees, inTree_removeFromTrees]
      constructor
      · rintro (⟨hk, hne⟩ | ⟨-, v, hv, rfl⟩)
        · obtain ⟨r', hr', v, hv, rfl⟩ := (h.inTree_iff n k).mp hk
          refine ⟨r', Keyed.mem_put.mpr (.inr ⟨hr', fun hkey' => ?_⟩), v, hv, rfl⟩
          obtain rfl := Keyed.eq_of_key_eq hr' hmem (hkey'.trans hkey.symm)
          exact hne v hv rfl
        · exact ⟨r, Keyed.mem_put.mpr (.inl rfl), v, hv, rfl⟩
      · rintro ⟨r', hr', v, hv, rfl⟩
        rcases Keyed.mem_put.mp hr' with rfl | ⟨hr', hkey'⟩
        · exact .inr ⟨mem_updateTrees.mpr ((h.registered n).mpr (mem_of_mem_values hv)), v, hv, rfl⟩
        · refine .inl ⟨(h.inTree_iff n _).mpr ⟨r', hr', v, hv, rfl⟩, fun w hw heq => hkey' ?_⟩
          exact (treeKey_inj (h.slashFree r' hr' n v hv) (h.slashFree old hmem n w hw) heq).2.trans
            hkey
    · rcases Keyed.mem_put.mp hr' with rfl | ⟨hr', -⟩
      · exact hr
      · exact h.slashFree r' hr'

/-- A `Delete` whose object covers the stored one keeps the trees exact. -/
theorem delete_treesExact (h : TreesExact rs) (hr : SlashFree rs.indexers r)
    (hold : ∀ old, rs.stored.get? r.resourceKey = some old → Covers rs.indexers old r)
    (hdelete : rs.delete r = .ok rs') : TreesExact rs' := by
  obtain rfl := delete_eq_ok hdelete
  refine ⟨TreesRegistered.removeFromTrees h.registered r, fun n k => ?_, fun r' hr' => ?_⟩
  · rw [inTree_removeFromTrees]
    constructor
    · rintro ⟨hk, hne⟩
      obtain ⟨r', hr', v, hv, rfl⟩ := (h.inTree_iff n k).mp hk
      refine ⟨r', Keyed.mem_erase.mpr ⟨hr', fun hkey => ?_⟩, v, hv, rfl⟩
      have hcov := hold r' (Keyed.get?_eq_some_iff.mpr ⟨hr', hkey⟩)
      exact hne v (hcov n v hv) (treeKey_congr hkey)
    · rintro ⟨r', hr', v, hv, rfl⟩
      obtain ⟨hr', hkey⟩ := Keyed.mem_erase.mp hr'
      refine ⟨(h.inTree_iff n _).mpr ⟨r', hr', v, hv, rfl⟩, fun w hw heq => hkey ?_⟩
      exact (treeKey_inj (h.slashFree r' hr' n v hv) (hr n w hw) heq).2
  · exact h.slashFree r' (Keyed.mem_erase.mp hr').1

/-- A `Replace` whose overwritten objects are covered by the last one of their key keeps the trees
exact. -/
theorem replace_treesExact {list : List (Resource σ)} (h : TreesExact rs)
    (hlist : ∀ r ∈ list, SlashFree rs.indexers r)
    (hlast : ∀ r ∈ list, ∀ last,
      (Keyed.ofList list : Contents σ).get? r.resourceKey = some last → Covers rs.indexers r last)
    (hreplace : rs.replace list = .ok rs') : TreesExact rs' := by
  obtain ⟨hstored, hindexers, htrees, hinTree⟩ := replace_eq_ok hreplace
  have hsub : ∀ r ∈ (Keyed.ofList list : Contents σ).items, r ∈ list := by
    intro r hr
    obtain ⟨l₁, l₂, rfl, -⟩ := Keyed.mem_ofList.mp hr
    exact List.mem_append_right _ List.mem_cons_self
  refine ⟨fun n => ?_, fun n k => ?_, fun r hr => ?_⟩
  · rw [htrees n, hindexers]
    exact h.registered n
  · rw [hinTree, hindexers, hstored]
    constructor
    · rintro ⟨-, r, hr, v, hv, rfl⟩
      obtain ⟨last, hget⟩ := Keyed.exists_get?_ofList Resource.resourceKey hr
      obtain ⟨hmem, hkey⟩ := Keyed.get?_eq_some_iff.mp hget
      exact ⟨last, hmem, v, hlast r hr last hget n v hv, treeKey_congr hkey.symm⟩
    · rintro ⟨r, hr, v, hv, rfl⟩
      exact ⟨(h.registered n).mpr (mem_of_mem_values hv), r, hsub r hr, v, hv, rfl⟩
  · rw [hindexers]
    rw [hstored] at hr
    exact hlist r (hsub r hr)

theorem values_union {indexers newIndexers : Indexers σ} {n : String}
    (hdisj : n ∈ newIndexers → n ∉ indexers) (hnew : newIndexers.values n r = []) :
    Indexers.values (newIndexers ∪ indexers) n r = indexers.values n r := by
  unfold Indexers.values at hnew ⊢
  by_cases hn : n ∈ newIndexers
  · rw [AList.lookup_union_left hn, hnew, AList.lookup_eq_none.mpr (hdisj hn)]
  · rw [AList.lookup_union_right hn]

/-- An `AddIndexers` that yields no value for what is stored keeps the trees exact. -/
theorem addIndexers_treesExact {newIndexers : Indexers σ} (h : TreesExact rs)
    (hnew : ∀ n, ∀ r ∈ rs.stored.items, newIndexers.values n r = [])
    (hadd : rs.addIndexers newIndexers = .ok rs') : TreesExact rs' := by
  obtain ⟨hdisj, hstored, hindexers, htrees⟩ := addIndexers_eq_ok hadd
  -- The new trees start empty, which is right as the new functions produce nothing so far.
  have hvalues : ∀ n, ∀ r ∈ rs.stored.items, rs'.indexers.values n r = rs.indexers.values n r := by
    intro n r hr
    rw [hindexers]
    exact values_union (hdisj n) (hnew n r hr)
  have hinTree : ∀ n k, rs'.InTree n k ↔ rs.InTree n k := by
    intro n k
    unfold ResourceStore.InTree
    rw [htrees]
    by_cases hn : n ∈ rs.prefixTrees
    · rw [AList.lookup_union_left hn]
    · rw [AList.lookup_union_right hn, AList.lookup_eq_none.mpr hn]
      constructor
      · rintro ⟨tree, htree, hk⟩
        exact absurd hk (not_mem_emptyTrees htree)
      · rintro ⟨tree, htree, -⟩
        cases htree
  refine ⟨fun n => ?_, fun n k => ?_, fun r hr n v hv => ?_⟩
  · rw [htrees, hindexers, AList.mem_union, AList.mem_union, or_comm]
    exact or_congr mem_fillWith (h.registered n)
  · rw [hinTree, h.inTree_iff, hstored]
    constructor
    · rintro ⟨r, hr, v, hv, hk⟩
      exact ⟨r, hr, v, by rwa [hvalues n r hr], hk⟩
    · rintro ⟨r, hr, v, hv, hk⟩
      exact ⟨r, hr, v, by rwa [hvalues n r hr] at hv, hk⟩
  · rw [hstored] at hr
    rw [hvalues n r hr] at hv
    exact h.slashFree r hr n v hv

end Steps

variable {rs : ResourceStore σ}

theorem step_treesExact {rs' : ResourceStore σ} {op : Op σ} (h : TreesExact rs)
    (hstep : Guarded GoodStep Step rs op rs') : TreesExact rs' := by
  obtain ⟨hgood, hstep⟩ := hstep
  cases op with
  | add r => exact add_treesExact h hgood.1 hgood.2 hstep
  | update r => exact update_treesExact h hgood hstep
  | delete r => exact delete_treesExact h hgood.1 hgood.2 hstep
  | replace list => exact replace_treesExact h hgood.1 hgood.2 hstep
  | addIndexers newIndexers => exact addIndexers_treesExact h hgood hstep

theorem run_treesExact {indexers : Indexers σ} {ops : List (Op σ)}
    (h : Run (Guarded GoodStep Step) (init indexers) ops rs) : TreesExact rs :=
  h.invariant TreesExact (treesExact_init indexers) fun _ _ _ => step_treesExact

/-! ## Prefix queries -/

theorem keyOfTreeKey_treeKey (hv : '/' ∉ v.toList) (r : Resource σ) :
    keyOfTreeKey (treeKey v r) = some r.resourceKey := by
  have hcut : cut '/' (treeKey v r) = some (v, r.resourceKey) := cut_join hv r.resourceKey
  unfold keyOfTreeKey
  rw [hcut]
  exact if_neg r.resourceKey_ne_empty

/-- With exact trees, the keys that a prefix condition names are those of the stored resources with
a string that starts with the prefix. -/
theorem candidate_hasPrefix_iff (h : TreesExact rs) {n p k : String} :
    rs.Candidate ⟨n, p, .hasPrefix⟩ k ↔ ∃ r ∈ rs.stored.items, r.resourceKey = k ∧
      ∃ v ∈ rs.indexers.values n r, hasPrefix (treeKey v r) p = true := by
  constructor
  · rintro ⟨tk, htk, hp, hk⟩
    obtain ⟨r, hr, v, hv, rfl⟩ := (h.inTree_iff n tk).mp htk
    rw [keyOfTreeKey_treeKey (h.slashFree r hr n v hv)] at hk
    exact ⟨r, hr, Option.some.inj hk, v, hv, hp⟩
  · rintro ⟨r, hr, rfl, v, hv, hp⟩
    exact ⟨treeKey v r, (h.inTree_iff n _).mpr ⟨r, hr, v, hv, rfl⟩, hp,
      keyOfTreeKey_treeKey (h.slashFree r hr n v hv) r⟩

/-- What a condition asks of a resource in the memory store: a value that equals the given one, or a
string `value/key` that starts with it. -/
def TreeMatches (indexers : Indexers σ) (c : IndexCondition) (r : Resource σ) : Prop :=
  match c.operator with
  | .equals => c.value ∈ indexers.values c.indexName r
  | .hasPrefix => ∃ v ∈ indexers.values c.indexName r, hasPrefix (treeKey v r) c.value = true
  | .other _ => False

/-- With exact trees, a condition names the key of a stored resource if and only if it matches the
resource. -/
theorem candidate_iff_treeMatches (h : TreesExact rs) {c : IndexCondition}
    (hr : r ∈ rs.stored.items) :
    rs.Candidate c r.resourceKey ↔ TreeMatches rs.indexers c r := by
  obtain ⟨n, v, op⟩ := c
  cases op with
  | equals =>
    constructor
    · rintro ⟨r', hr', hkey, hv⟩
      rwa [Keyed.eq_of_key_eq hr' hr hkey] at hv
    · exact fun hv => ⟨r, hr, rfl, hv⟩
  | hasPrefix =>
    rw [candidate_hasPrefix_iff h]
    constructor
    · rintro ⟨r', hr', hkey, hv⟩
      rwa [Keyed.eq_of_key_eq hr' hr hkey] at hv
    · exact fun hv => ⟨r, hr, rfl, hv⟩
  | other op => exact Iff.rfl

theorem listByIndexes_exact (h : TreesExact rs) {indexes : List IndexCondition}
    (hc : ∀ c ∈ indexes, c.Supported rs.indexers) :
    ∃ out, rs.listByIndexes indexes = .ok out ∧ Listing rs.stored
      (fun r => indexes ≠ [] ∧ ∀ c ∈ indexes, TreeMatches rs.indexers c r) out := by
  obtain ⟨out, hout, hlisting⟩ := listByIndexes_spec h.registered hc
  refine ⟨out, hout, fun r => (hlisting.mem_iff r).trans ?_, hlisting.ascending⟩
  refine and_congr_right fun hr => and_congr_right fun _ => ?_
  exact forall₂_congr fun c _ => candidate_iff_treeMatches h hr

/-- `ListByIndexes` with the one condition that the index has the prefix `p` returns exactly the
stored resources with a value that starts with `p`, each once, by ascending key. -/
def PrefixExact (rs : ResourceStore σ) (n p : String) : Prop :=
  ∃ out, rs.listByIndexes [⟨n, p, .hasPrefix⟩] = .ok out ∧
    Listing rs.stored (fun r => ∃ v ∈ rs.indexers.values n r, hasPrefix v p = true) out

/-- The prefix `p` does not reach past the index values of a stored resource into the `/` and the
key behind them, unless the resource also has a value that starts with `p`. -/
def WithinValues (rs : ResourceStore σ) (n p : String) : Prop :=
  ∀ r ∈ rs.stored.items, (∃ v ∈ rs.indexers.values n r, hasPrefix (treeKey v r) p = true) →
    ∃ v ∈ rs.indexers.values n r, hasPrefix v p = true

/-- After every run whose operations meet `GoodStep`, a prefix query over a registered index is
exact if and only if the prefix stays within the index values. -/
theorem prefixQuery_exact_iff {indexers : Indexers σ} {ops : List (Op σ)} {rs : ResourceStore σ}
    (h : Run (Guarded GoodStep Step) (init indexers) ops rs) {n : String} (hn : n ∈ rs.indexers)
    (p : String) : PrefixExact rs n p ↔ WithinValues rs n p := by
  have hexact := run_treesExact h
  have hc : ∀ c ∈ [(⟨n, p, .hasPrefix⟩ : IndexCondition)], c.Supported rs.indexers := by
    intro c hc
    rw [List.mem_singleton.mp hc]
    exact ⟨hn, fun op hop => by cases hop⟩
  obtain ⟨out, hout, hlisting⟩ := listByIndexes_exact hexact hc
  -- What the query returns: the stored resources with a string that starts with `p`.
  have hmem : ∀ r, r ∈ out ↔ r ∈ rs.stored.items ∧
      ∃ v ∈ rs.indexers.values n r, hasPrefix (treeKey v r) p = true := by
    intro r
    rw [hlisting.mem_iff]
    simp [TreeMatches]
  constructor
  · rintro ⟨out', hout', hlisting'⟩ r hr hv
    obtain rfl := Except.ok.inj (hout.symm.trans hout')
    exact ((hlisting'.mem_iff r).mp ((hmem r).mpr ⟨hr, hv⟩)).2
  · intro hwithin
    refine ⟨out, hout, fun r => (hmem r).trans (and_congr_right fun hr => ?_), hlisting.ascending⟩
    exact ⟨hwithin r hr, fun ⟨v, hv, hp⟩ => ⟨v, hv, hasPrefix_append (hasPrefix_append hp)⟩⟩

/-! ## Sample runs -/

/-- One index, `by-ip`, over resources whose `spec` is their address. -/
def sampleIndexers : Indexers String := AList.singleton "by-ip" fun r => some [r.spec]

/-- An instance with an address. -/
def sampleInstance (name ip : String) : Resource String := ⟨"Instance", "mesh", name, ip⟩

/-- A store that holds one instance, and the given strings in its tree. -/
def sampleStore (ip : String) (tree : RadixTree) : ResourceStore String :=
  ⟨⟨Keyed.ofList [sampleInstance "i" ip], sampleIndexers⟩, AList.singleton "by-ip" tree⟩

theorem values_sampleIndexers (n : String) (r : Resource String) :
    sampleIndexers.values n r = if n = "by-ip" then [r.spec] else [] := by
  unfold Indexers.values sampleIndexers AList.singleton AList.lookup
  by_cases hn : n = "by-ip"
  · subst hn
    rw [List.dlookup_cons_eq]
    rfl
  · rw [List.dlookup_cons_ne _ _ hn, if_neg hn]
    rfl

theorem slashFree_sampleInstance {name ip : String} (h : '/' ∉ ip.toList) :
    SlashFree sampleIndexers (sampleInstance name ip) := by
  intro n v hv
  rw [values_sampleIndexers] at hv
  split_ifs at hv
  · rwa [List.mem_singleton.mp hv]
  · simp at hv

/-- An instance is added and then updated to another address. -/
theorem sampleRun : Run (Guarded GoodStep Step) (init sampleIndexers)
    [.add (sampleInstance "i" "10.0.0.1"), .update (sampleInstance "i" "192.168.1.7")]
    (sampleStore "192.168.1.7" ["192.168.1.7/mesh/i"]) := by
  have hadd : Guarded GoodStep Step (init sampleIndexers) (.add (sampleInstance "i" "10.0.0.1"))
      (sampleStore "10.0.0.1" ["10.0.0.1/mesh/i"]) :=
    ⟨⟨slashFree_sampleInstance (by decide), fun _ hold => by cases hold⟩, rfl⟩
  have hupdate : Guarded GoodStep Step (sampleStore "10.0.0.1" ["10.0.0.1/mesh/i"])
      (.update (sampleInstance "i" "192.168.1.7"))
      (sampleStore "192.168.1.7" ["192.168.1.7/mesh/i"]) :=
    ⟨slashFree_sampleInstance (by decide), rfl⟩
  exact .snoc (.snoc .nil hadd) hupdate

/-- After the sample run, the query for the new address is exact. -/
theorem prefixQuery_exact_after_update :
    PrefixExact (sampleStore "192.168.1.7" ["192.168.1.7/mesh/i"]) "by-ip" "192.168." := by
  refine (prefixQuery_exact_iff sampleRun (by decide) _).mpr ?_
  intro r hr _
  obtain rfl := List.mem_singleton.mp hr
  exact ⟨"192.168.1.7", by decide, by decide⟩

/-- An instance is added twice, with two addresses. The tree keeps the string of the first, and the
query for the first address returns the instance, which has it no more. -/
theorem overwritingAdd_stale :
    Run Step (init sampleIndexers)
        [.add (sampleInstance "i" "10.0.0.1"), .add (sampleInstance "i" "192.168.1.7")]
        (sampleStore "192.168.1.7" ["192.168.1.7/mesh/i", "10.0.0.1/mesh/i"]) ∧
      "by-ip" ∈ (sampleStore "192.168.1.7" ["192.168.1.7/mesh/i", "10.0.0.1/mesh/i"]).indexers ∧
      ¬ PrefixExact (sampleStore "192.168.1.7" ["192.168.1.7/mesh/i", "10.0.0.1/mesh/i"])
        "by-ip" "10." := by
  have hadd : Step (init sampleIndexers) (.add (sampleInstance "i" "10.0.0.1"))
      (sampleStore "10.0.0.1" ["10.0.0.1/mesh/i"]) := rfl
  have hadd' : Step (sampleStore "10.0.0.1" ["10.0.0.1/mesh/i"])
      (.add (sampleInstance "i" "192.168.1.7"))
      (sampleStore "192.168.1.7" ["192.168.1.7/mesh/i", "10.0.0.1/mesh/i"]) := rfl
  refine ⟨.snoc (.snoc .nil hadd) hadd', by decide, ?_⟩
  rintro ⟨out, hout, hlisting⟩
  have hreturned : out = [sampleInstance "i" "192.168.1.7"] := Except.ok.inj (hout.symm.trans rfl)
  obtain ⟨-, v, hv, hp⟩ := (hlisting.mem_iff (sampleInstance "i" "192.168.1.7")).mp
    (by rw [hreturned]; exact List.mem_cons_self)
  change v ∈ ["192.168.1.7"] at hv
  rw [List.mem_singleton.mp hv] at hp
  exact absurd hp (by decide)

end DubboAdmin.Memory
