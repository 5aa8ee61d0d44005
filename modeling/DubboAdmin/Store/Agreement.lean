import DubboAdmin.Store.GormPaging
import DubboAdmin.Store.MemoryIndex

/-!
# The two stores side by side

The same operations are applied to a memory store and to a database store with the same index
functions. `Agree` relates them: both hold the same resources, and both side indices are exact.
Operations that meet `Fits` return no error in either store and keep the relation (`run_agree`). A
query then returns the same keys from both if and only if the radix walk over the strings
`value/key` and the `LIKE` over the values select the same stored resources (`sameKeys_iff`), as
they do for plain conditions (`sameSelection_of_plain`).
-/

namespace DubboAdmin.Agreement

open Strings

variable {σ : Type}

/-- The operations that are applied to both stores. -/
inductive Op (σ : Type) where
  | add (r : Resource σ)
  | update (r : Resource σ)
  | delete (r : Resource σ)
  | replace (list : List (Resource σ))

/-- The operation on the memory store. -/
def Op.onMemory : Op σ → Memory.Op σ
  | .add r => .add r
  | .update r => .update r
  | .delete r => .delete r
  | .replace list => .replace list

/-- The operation on the database store. -/
def Op.onGorm : Op σ → Gorm.Call σ
  | .add r => .add r
  | .update r => .update r
  | .delete r => .delete r
  | .replace list => .replace list

/-- A memory store and a database. -/
structure Pair (σ : Type) where
  rs : Memory.ResourceStore σ
  db : Gorm.DB σ

/-- Both stores return no error. -/
def BothNil (gs : Gorm.GormStore σ) (p : Pair σ) (op : Op σ) (p' : Pair σ) : Prop :=
  op.onMemory.apply p.rs = .ok p'.rs ∧
    Prog.exec gs.step (op.onGorm.prog gs) p.db = (.ok (), p'.db)

/-- A fresh pair: an initialised memory store, and a database with no resource or row of the
kind. -/
structure Fresh (gs : Gorm.GormStore σ) (p : Pair σ) : Prop where
  memory : p.rs = Memory.init gs.indexers
  resources : p.db.resources = Keyed.empty
  /-- No row of `resource_indices` belongs to the kind. -/
  indices : ∀ n v k, ¬ gs.HasRow p.db.indices n v k

/-- Two resources have the same index values. -/
def SameValues (indexers : Indexers σ) (r r' : Resource σ) : Prop :=
  ∀ n, indexers.values n r = indexers.values n r'

/-- A resource that a store of the kind can hold: of the kind, accepted by every index function, and
with no `/` in an index value. -/
structure Storable (gs : Gorm.GormStore σ) (r : Resource σ) : Prop where
  kind : r.kind = gs.kind
  indexable : Memory.Indexer.indexable gs.indexers r = true
  slashFree : Memory.SlashFree gs.indexers r

/-- The operations in question: `Add` of an absent key, `Update` of a present one, `Delete` of a
present one with the stored object's index values, and `Replace` by resources with distinct keys. -/
def Fits (gs : Gorm.GormStore σ) (p : Pair σ) : Op σ → Prop
  | .add r => Storable gs r ∧ p.rs.stored.get? r.resourceKey = none
  | .update r => Storable gs r ∧ ∃ old, p.rs.stored.get? r.resourceKey = some old
  | .delete r => ∃ old, p.rs.stored.get? r.resourceKey = some old ∧ SameValues gs.indexers old r
  | .replace list => (∀ r ∈ list, Storable gs r) ∧ (list.map Resource.resourceKey).Nodup

/-- Both stores hold the same resources, under exact indices. -/
structure Agree (gs : Gorm.GormStore σ) (p : Pair σ) : Prop where
  indexers : p.rs.indexers = gs.indexers
  mem_iff : ∀ r, r ∈ p.rs.stored.items ↔ r ∈ p.db.resources.items
  trees : Memory.TreesExact p.rs
  rows : Gorm.IndexExact gs p.db

/-- A fresh pair agrees. -/
theorem Fresh.agree {gs : Gorm.GormStore σ} {p : Pair σ} (h : Fresh gs p) : Agree gs p where
  indexers := by rw [h.memory]; rfl
  mem_iff r := by rw [h.memory, h.resources]; exact Iff.rfl
  trees := by rw [h.memory]; exact Memory.treesExact_init gs.indexers
  rows n v k := by
    rw [h.resources]
    exact iff_of_false (h.indices n v k) (by rintro ⟨r, hr, -⟩; exact List.not_mem_nil hr)

/-- Both stores hold the same resource under a key. -/
theorem Agree.get? {gs : Gorm.GormStore σ} {p : Pair σ} (h : Agree gs p) (k : String) :
    p.db.resources.get? k = p.rs.stored.get? k :=
  Keyed.get?_congr fun r _ => (h.mem_iff r).symm

/-! ## The steps of the database store -/

section Gorm

variable {gs : Gorm.GormStore σ} {db : Gorm.DB σ} {r : Resource σ}

/-- `Add` of an absent key runs its transaction. -/
theorem exec_add (hkind : r.kind = gs.kind) (hnone : db.resources.get? r.resourceKey = none) :
    ∃ db', Prog.exec gs.step (gs.add r) db = (.ok (), db') ∧ gs.addTx db r = .ok db' := by
  obtain ⟨db', hrun⟩ : ∃ db', gs.addTx db r = .ok db' := by
    unfold Gorm.GormStore.addTx Gorm.DB.create
    rw [hnone]
    exact ⟨_, rfl⟩
  refine ⟨db', ?_, hrun⟩
  unfold Gorm.GormStore.add
  rw [if_neg (not_not_intro hkind), Prog.exec_bind, Gorm.exec_countByKey, if_pos hnone]
  exact Gorm.exec_transaction hrun

/-- `Update` of a present key runs its transaction. -/
theorem exec_update (hkind : r.kind = gs.kind) {old : Resource σ}
    (hsome : db.resources.get? r.resourceKey = some old) :
    ∃ db', Prog.exec gs.step (gs.update r) db = (.ok (), db') ∧ gs.updateTx db r old = .ok db' := by
  obtain ⟨db', hrun⟩ : ∃ db', gs.updateTx db r old = .ok db' := by
    unfold Gorm.GormStore.updateTx
    rw [hsome]
    exact ⟨_, rfl⟩
  refine ⟨db', ?_, hrun⟩
  unfold Gorm.GormStore.update
  rw [if_neg (not_not_intro hkind), Prog.exec_bind, Gorm.exec_getByKey, hsome]
  exact Gorm.exec_transaction hrun

/-- `Delete` of a present key runs its transaction. -/
theorem exec_delete (gs : Gorm.GormStore σ) {old : Resource σ}
    (hsome : db.resources.get? r.resourceKey = some old) :
    ∃ db', Prog.exec gs.step (gs.delete r) db = (.ok (), db') ∧ gs.deleteTx db r = .ok db' := by
  obtain ⟨db', hrun⟩ : ∃ db', gs.deleteTx db r = .ok db' := by
    unfold Gorm.GormStore.deleteTx
    rw [hsome]
    exact ⟨_, rfl⟩
  exact ⟨db', Gorm.exec_transaction hrun, hrun⟩

/-- The inserts of resources with distinct new keys succeed. -/
theorem foldlM_create_ok (db : Gorm.DB σ) {list : List (Resource σ)}
    (hnodup : (list.map Resource.resourceKey).Nodup)
    (hnew : ∀ r ∈ list, db.resources.get? r.resourceKey = none) :
    ∃ db', list.foldlM Gorm.DB.create db = .ok db' := by
  induction list generalizing db with
  | nil => exact ⟨db, rfl⟩
  | cons r list ih =>
    obtain ⟨hr, hlist⟩ := List.nodup_cons.mp hnodup
    have hcreate : db.create r = .ok { db with resources := db.resources.put r } := by
      unfold Gorm.DB.create
      rw [hnew r List.mem_cons_self]
    rw [List.foldlM_cons, hcreate]
    refine ih _ hlist fun r' hr' => ?_
    have hne : r'.resourceKey ≠ r.resourceKey := fun hkey =>
      hr (hkey ▸ List.mem_map_of_mem hr')
    rw [Keyed.get?_put_ne _ hne]
    exact hnew r' (List.mem_cons_of_mem _ hr')

/-- `Replace` by resources with distinct keys runs its transaction. -/
theorem exec_replace (gs : Gorm.GormStore σ) (db : Gorm.DB σ) {list : List (Resource σ)}
    (hnodup : (list.map Resource.resourceKey).Nodup) :
    ∃ db', Prog.exec gs.step (gs.replace list) db = (.ok (), db') ∧
      gs.replaceTx db list = .ok db' := by
  obtain ⟨db₁, hcreate⟩ := foldlM_create_ok (gs.deleteAll db) hnodup fun _ _ => rfl
  obtain ⟨db', hrun⟩ : ∃ db', gs.replaceTx db list = .ok db' := by
    unfold Gorm.GormStore.replaceTx
    rw [hcreate]
    exact ⟨_, rfl⟩
  exact ⟨db', Gorm.exec_transaction hrun, hrun⟩

end Gorm

/-! ## The steps of the memory store -/

section Memory

variable {rs : Memory.ResourceStore σ} {r : Resource σ}

/-- The indices take a resource that every index function accepts. -/
theorem updateIndices_ok (h : Memory.Indexer.indexable rs.indexers r = true) :
    rs.storeProxy.updateIndices r = .ok () :=
  if_pos h

/-- `Add` takes such a resource. -/
theorem add_ok (h : Memory.Indexer.indexable rs.indexers r = true) :
    ∃ rs', rs.add r = .ok rs' := by
  unfold Memory.ResourceStore.add Memory.Indexer.add
  rw [updateIndices_ok h]
  exact ⟨_, rfl⟩

/-- `Update` takes such a resource. -/
theorem update_ok (h : Memory.Indexer.indexable rs.indexers r = true) :
    ∃ rs', rs.update r = .ok rs' := by
  unfold Memory.ResourceStore.update Memory.Indexer.update Memory.Indexer.add
  rw [updateIndices_ok h]
  cases rs.stored.get? r.resourceKey with
  | none | some _ => exact ⟨_, rfl⟩

/-- `Replace` by resources that every index function accepts. -/
theorem replace_ok {list : List (Resource σ)}
    (h : ∀ r ∈ list, Memory.Indexer.indexable rs.indexers r = true) :
    ∃ rs', rs.replace list = .ok rs' := by
  have hforM : ∀ l : List (Resource σ), (∀ r ∈ l, r ∈ list) →
      l.forM rs.storeProxy.updateIndices = .ok () := by
    intro l hl
    induction l with
    | nil => rfl
    | cons r l ih =>
      show (do rs.storeProxy.updateIndices r; l.forM rs.storeProxy.updateIndices) = .ok ()
      rw [updateIndices_ok (h r (hl r List.mem_cons_self))]
      exact ih fun r' hr' => hl r' (List.mem_cons_of_mem _ hr')
  have hindex := hforM (Keyed.ofList list : Contents σ).items fun r hr => by
    obtain ⟨l₁, l₂, rfl, -⟩ := Keyed.mem_ofList.mp hr
    exact List.mem_append_right _ List.mem_cons_self
  unfold Memory.ResourceStore.replace Memory.Indexer.replace
  rw [hindex]
  exact ⟨_, rfl⟩

/-- What `Update` leaves. -/
theorem update_frame {rs' : Memory.ResourceStore σ} (h : rs.update r = .ok rs') :
    rs'.stored = rs.stored.put r ∧ rs'.indexers = rs.indexers := by
  obtain ⟨-, rfl⟩ | ⟨old, -, rfl⟩ := Memory.update_eq_ok h
  · exact ⟨rfl, rfl⟩
  · exact ⟨rfl, rfl⟩

/-- A collection of resources with distinct keys holds all of them. -/
theorem mem_ofList_of_nodup {list : List (Resource σ)}
    (hnodup : (list.map Resource.resourceKey).Nodup) {r : Resource σ} :
    r ∈ (Keyed.ofList list : Contents σ).items ↔ r ∈ list := by
  rw [Keyed.mem_ofList]
  constructor
  · rintro ⟨l₁, l₂, rfl, -⟩
    exact List.mem_append_right _ List.mem_cons_self
  · intro hr
    obtain ⟨l₁, l₂, rfl⟩ := List.append_of_mem hr
    refine ⟨l₁, l₂, rfl, fun r' hr' hkey => ?_⟩
    rw [List.map_append, List.map_cons] at hnodup
    have := (List.nodup_cons.mp (List.nodup_append.mp hnodup).2.1).1
    exact this (hkey ▸ List.mem_map_of_mem hr')

end Memory

/-! ## Runs of both -/

section Runs

variable {gs : Gorm.GormStore σ} {p p' : Pair σ}

/-- `Add` of an absent key returns no error and keeps the stores in agreement. -/
theorem Agree.add {r : Resource σ} (h : Agree gs p) (hr : Storable gs r)
    (hnone : p.rs.stored.get? r.resourceKey = none) :
    ∃ p', BothNil gs p (.add r) p' ∧ Agree gs p' := by
  obtain ⟨rs', hmemory⟩ := add_ok (h.indexers ▸ hr.indexable)
  obtain ⟨db', hgorm, htx⟩ := exec_add hr.kind ((h.get? _).trans hnone)
  obtain ⟨-, hresources, hrows⟩ := Gorm.addTx_eq_ok htx
  have htrees := Memory.add_treesExact h.trees (h.indexers ▸ hr.slashFree)
    (fun old hold => absurd (hnone.symm.trans hold) (by simp)) hmemory
  obtain rfl := Memory.add_eq_ok hmemory
  refine ⟨⟨_, db'⟩, ⟨hmemory, hgorm⟩, h.indexers, fun r' => ?_, htrees, hrows h.rows⟩
  rw [hresources]
  exact Keyed.mem_put_congr h.mem_iff

/-- `Update` of a present key does so. -/
theorem Agree.update {r old : Resource σ} (h : Agree gs p) (hr : Storable gs r)
    (hsome : p.rs.stored.get? r.resourceKey = some old) :
    ∃ p', BothNil gs p (.update r) p' ∧ Agree gs p' := by
  obtain ⟨rs', hmemory⟩ := update_ok (h.indexers ▸ hr.indexable)
  obtain ⟨db', hgorm, htx⟩ := exec_update hr.kind ((h.get? _).trans hsome)
  obtain ⟨hresources, hrows⟩ := Gorm.updateTx_eq_ok htx
  have htrees := Memory.update_treesExact h.trees (h.indexers ▸ hr.slashFree) hmemory
  obtain ⟨hstored, hindexers⟩ := update_frame hmemory
  refine ⟨⟨rs', db'⟩, ⟨hmemory, hgorm⟩, hindexers.trans h.indexers, fun r' => ?_, htrees,
    hrows (Keyed.get?_eq_some_iff.mp hsome).2 h.rows⟩
  rw [hstored, hresources]
  exact Keyed.mem_put_congr h.mem_iff

/-- `Delete` of a present key does so, with the index values of the stored object. -/
theorem Agree.delete {r old : Resource σ} (h : Agree gs p)
    (hsome : p.rs.stored.get? r.resourceKey = some old) (hsame : SameValues gs.indexers old r) :
    ∃ p', BothNil gs p (.delete r) p' ∧ Agree gs p' := by
  obtain ⟨db', hgorm, htx⟩ := exec_delete gs ((h.get? _).trans hsome)
  obtain ⟨hresources, hrows⟩ := Gorm.deleteTx_eq_ok htx
  -- The memory store removes the strings of the object it is given, which are those of the stored
  -- one.
  have hslash : Memory.SlashFree p.rs.indexers r := by
    intro n v hv
    rw [h.indexers, ← hsame n, ← h.indexers] at hv
    exact h.trees.slashFree old (Keyed.get?_eq_some_iff.mp hsome).1 n v hv
  have htrees := Memory.delete_treesExact h.trees hslash (fun old' hold n v hv => by
    obtain rfl := Option.some.inj (hsome.symm.trans hold)
    rwa [h.indexers, ← hsame n, ← h.indexers]) rfl
  refine ⟨⟨_, db'⟩, ⟨rfl, hgorm⟩, h.indexers, fun r' => ?_, htrees, hrows h.rows⟩
  rw [hresources]
  exact Keyed.mem_erase_congr h.mem_iff

/-- `Replace` by resources with distinct keys does so. -/
theorem Agree.replace {list : List (Resource σ)} (h : Agree gs p)
    (hlist : ∀ r ∈ list, Storable gs r) (hnodup : (list.map Resource.resourceKey).Nodup) :
    ∃ p', BothNil gs p (.replace list) p' ∧ Agree gs p' := by
  obtain ⟨rs', hmemory⟩ := replace_ok fun r hr => h.indexers ▸ (hlist r hr).indexable
  obtain ⟨db', hgorm, htx⟩ := exec_replace gs p.db hnodup
  obtain ⟨hmem, hrows⟩ := Gorm.replaceTx_eq_ok htx
  obtain ⟨hstored, hindexers, -⟩ := Memory.replace_eq_ok hmemory
  -- No listed object is overwritten by a later one of its key.
  have htrees := Memory.replace_treesExact h.trees
    (fun r hr => h.indexers ▸ (hlist r hr).slashFree) (fun r hr last hlast n v hv => by
      obtain ⟨hmem, hkey⟩ := Keyed.get?_eq_some_iff.mp hlast
      rwa [List.inj_on_of_nodup_map hnodup ((mem_ofList_of_nodup hnodup).mp hmem) hr hkey])
    hmemory
  refine ⟨⟨rs', db'⟩, ⟨hmemory, hgorm⟩, hindexers.trans h.indexers, fun r' => ?_, htrees, hrows⟩
  rw [hstored, hmem]
  exact mem_ofList_of_nodup hnodup

/-- An operation that fits returns no error in either store and keeps them in agreement. -/
theorem Agree.of_fits (h : Agree gs p) {op : Op σ} (hfits : Fits gs p op) :
    ∃ p', BothNil gs p op p' ∧ Agree gs p' := by
  cases op with
  | add r => exact h.add hfits.1 hfits.2
  | update r =>
    obtain ⟨hr, old, hsome⟩ := hfits
    exact h.update hr hsome
  | delete r =>
    obtain ⟨old, hsome, hsame⟩ := hfits
    exact h.delete hsome hsame
  | replace list => exact h.replace hfits.1 hfits.2

/-- What the stores hold after an operation is determined. -/
theorem BothNil.unique {op : Op σ} {p₁ p₂ : Pair σ} (h₁ : BothNil gs p op p₁)
    (h₂ : BothNil gs p op p₂) : p₁ = p₂ := by
  obtain ⟨rs₁, db₁⟩ := p₁
  obtain ⟨rs₂, db₂⟩ := p₂
  obtain rfl : rs₁ = rs₂ := Except.ok.inj (h₁.1.symm.trans h₂.1)
  obtain rfl : db₁ = db₂ := (Prod.mk.inj (h₁.2.symm.trans h₂.2)).2
  rfl

/-- A step that fits keeps the stores in agreement. -/
theorem fits_step {op : Op σ} (h : Agree gs p) (hstep : Guarded (Fits gs) (BothNil gs) p op p') :
    Agree gs p' := by
  obtain ⟨p₁, hnil, hagree⟩ := h.of_fits hstep.1
  exact hstep.2.unique hnil ▸ hagree

/-- The stores agree after every run of operations that fit. -/
theorem run_agree {p₀ : Pair σ} (hfresh : Fresh gs p₀) {ops : List (Op σ)}
    (h : Run (Guarded (Fits gs) (BothNil gs)) p₀ ops p) : Agree gs p :=
  h.invariant (Agree gs) hfresh.agree fun _ _ _ => fits_step

/-- Both stores answer the query, with the same keys in the same order. -/
def SameKeys (gs : Gorm.GormStore σ) (p : Pair σ) (indexes : List IndexCondition) : Prop :=
  ∃ out out', p.rs.listByIndexes indexes = .ok out ∧
    (∀ ord, gs.listByIndexes ord p.db indexes = .ok out') ∧
    out.map Resource.resourceKey = out'.map Resource.resourceKey

/-- The strings `value/key` with the conditions' prefixes, and the values that their `LIKE` patterns
match, select the same stored resources. -/
def SameSelection (gs : Gorm.GormStore σ) (p : Pair σ) (indexes : List IndexCondition) : Prop :=
  ∀ r ∈ p.rs.stored.items, (∀ c ∈ indexes, Memory.TreeMatches gs.indexers c r) ↔
    ∀ c ∈ indexes, Gorm.Matches gs.indexers c r

/-- The condition is an equality, or its prefix holds no wildcard and reaches past no stored value
into the key behind it. -/
def Plain (gs : Gorm.GormStore σ) (p : Pair σ) (c : IndexCondition) : Prop :=
  c.operator = .hasPrefix → (∀ x ∈ c.value.toList, x ≠ '%' ∧ x ≠ '_') ∧
    ∀ r ∈ p.rs.stored.items, ∀ v ∈ gs.indexers.values c.indexName r,
      hasPrefix (Memory.treeKey v r) c.value = true → hasPrefix v c.value = true

/-- Conditions of this kind select the same resources in both ways. -/
theorem sameSelection_of_plain {indexes : List IndexCondition} (h : ∀ c ∈ indexes, Plain gs p c) :
    SameSelection gs p indexes := by
  intro r hr
  refine forall₂_congr fun c hc => ?_
  unfold Memory.TreeMatches Gorm.Matches
  cases hop : c.operator with
  | equals => rfl
  | other op => rfl
  | hasPrefix =>
    obtain ⟨hplain, hpast⟩ := h c hc hop
    refine exists_congr fun v => and_congr_right fun hv => ?_
    rw [String.toList_append]
    refine Iff.trans ?_ (like_append_percent hplain v.toList).symm
    rw [← hasPrefix_iff]
    exact ⟨hpast r hr v hv, fun h => hasPrefix_append (hasPrefix_append h)⟩

/-- Stores that agree answer a query with the same keys if and only if the two ways to match its
conditions select the same stored resources. -/
theorem Agree.sameKeys_iff_sameSelection (h : Agree gs p) {indexes : List IndexCondition}
    (hc : ∀ c ∈ indexes, c.Supported gs.indexers) :
    SameKeys gs p indexes ↔ SameSelection gs p indexes := by
  obtain ⟨out, hout, hlisting⟩ := Memory.listByIndexes_exact h.trees (by rwa [h.indexers])
  obtain ⟨out', hout', hlisting'⟩ := Gorm.exists_listing h.rows hc
  rw [h.indexers] at hlisting
  constructor
  · rintro ⟨out₁, out₁', hout₁, hout₁', hkeys⟩ r hr
    obtain rfl := Except.ok.inj (hout.symm.trans hout₁)
    obtain rfl := Except.ok.inj ((hout' .insertion).symm.trans (hout₁' .insertion))
    have hiff := hlisting.key_mem_iff hr
    rw [hkeys, hlisting'.key_mem_iff ((h.mem_iff r).mp hr)] at hiff
    by_cases hnil : indexes = []
    · simp [hnil]
    · exact ⟨fun ht => (hiff.mpr ⟨hnil, ht⟩).2, fun hm => (hiff.mp ⟨hnil, hm⟩).2⟩
  · intro hsame
    refine ⟨out, out', hout, hout', congrArg _ (hlisting.unique hlisting' fun r => ?_)⟩
    rw [← h.mem_iff r]
    exact and_congr_right fun hr => and_congr_right fun _ => hsame r hr

/-- After every run of operations that fit, every operation that fits returns no error in either
store, and a query over registered indices returns the same keys from both if and only if the two
ways to match its conditions select the same stored resources. -/
theorem sameKeys_iff {p₀ : Pair σ} (hfresh : Fresh gs p₀) {ops : List (Op σ)}
    (h : Run (Guarded (Fits gs) (BothNil gs)) p₀ ops p) :
    (∀ op, Fits gs p op → ∃ p', BothNil gs p op p') ∧
      ∀ indexes : List IndexCondition, (∀ c ∈ indexes, c.Supported gs.indexers) →
        (SameKeys gs p indexes ↔ SameSelection gs p indexes) := by
  have hagree := run_agree hfresh h
  exact ⟨fun op hfits => (hagree.of_fits hfits).imp fun _ => And.left,
    fun _ hc => hagree.sameKeys_iff_sameSelection hc⟩

end Runs

/-! ## Sample runs -/

/-- A fresh pair for the sample store of instances. -/
def samplePair₀ : Pair String := ⟨Memory.init Gorm.sampleStore.indexers, ⟨Keyed.empty, []⟩⟩

/-- The pair after one instance was added. -/
def samplePair₁ (ip : String) : Pair String :=
  ⟨Memory.sampleStore ip [Memory.treeKey ip (Gorm.sampleInstance "i" ip)],
    Gorm.sampleDB [Gorm.sampleInstance "i" ip] [Gorm.sampleInstance "i" ip]⟩

/-- The pair is fresh. -/
theorem fresh_samplePair₀ : Fresh Gorm.sampleStore samplePair₀ where
  memory := rfl
  resources := rfl
  indices n v k := by
    rintro ⟨row, hrow, -⟩
    exact List.not_mem_nil hrow

/-- The sample instance can be stored. -/
theorem storable_sampleInstance {ip : String} (h : '/' ∉ ip.toList) :
    Storable Gorm.sampleStore (Gorm.sampleInstance "i" ip) where
  kind := rfl
  indexable := rfl
  slashFree := Memory.slashFree_sampleInstance h

/-- The run that adds it. -/
theorem sampleRun {ip : String} (h : '/' ∉ ip.toList) :
    Run (Guarded (Fits Gorm.sampleStore) (BothNil Gorm.sampleStore)) samplePair₀
      [.add (Gorm.sampleInstance "i" ip)] (samplePair₁ ip) := by
  have hstep : Guarded (Fits Gorm.sampleStore) (BothNil Gorm.sampleStore) samplePair₀
      (.add (Gorm.sampleInstance "i" ip)) (samplePair₁ ip) :=
    ⟨⟨storable_sampleInstance h, rfl⟩, rfl, rfl⟩
  exact .snoc .nil hstep

/-- A query by a prefix of the address is supported. -/
theorem supported_sample (value : String) :
    ∀ c ∈ [(⟨"by-ip", value, .hasPrefix⟩ : IndexCondition)],
      c.Supported Gorm.sampleStore.indexers := by
  intro c hc
  rw [List.mem_singleton.mp hc]
  exact ⟨show "by-ip" ∈ Gorm.sampleStore.indexers by decide, fun op hop => by cases hop⟩

/-- After the sample run, both stores find the instance by a prefix of its address. -/
theorem sameKeys_after_add :
    SameKeys Gorm.sampleStore (samplePair₁ "10.0.0.1") [⟨"by-ip", "10.", .hasPrefix⟩] := by
  refine ((sameKeys_iff fresh_samplePair₀ (sampleRun (by decide))).2 _ (supported_sample "10.")).mpr
    (sameSelection_of_plain fun c hc _ => ?_)
  obtain rfl := List.mem_singleton.mp hc
  refine ⟨by simp, fun r hr v hv _ => ?_⟩
  obtain rfl := List.mem_singleton.mp hr
  obtain rfl : v = "10.0.0.1" := List.mem_singleton.mp hv
  decide

/-- With `10x0` as an address, the prefix `10_` finds the instance in the database, where `_` stands
for any character, and not in memory. -/
theorem likeWildcard_disagrees :
    Fresh Gorm.sampleStore samplePair₀ ∧
      Run (Guarded (Fits Gorm.sampleStore) (BothNil Gorm.sampleStore)) samplePair₀
        [.add (Gorm.sampleInstance "i" "10x0")] (samplePair₁ "10x0") ∧
      (∀ c ∈ [(⟨"by-ip", "10_", .hasPrefix⟩ : IndexCondition)],
        c.Supported Gorm.sampleStore.indexers) ∧
      ¬ SameKeys Gorm.sampleStore (samplePair₁ "10x0") [⟨"by-ip", "10_", .hasPrefix⟩] := by
  refine ⟨fresh_samplePair₀, sampleRun (by decide), supported_sample "10_", ?_⟩
  rintro ⟨out, out', hout, hout', hkeys⟩
  obtain rfl := Except.ok.inj (hout.symm.trans rfl)
  obtain rfl := Except.ok.inj ((hout' .insertion).symm.trans rfl)
  exact absurd hkeys (by decide)

end DubboAdmin.Agreement
