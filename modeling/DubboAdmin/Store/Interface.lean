import DubboAdmin.Store.Agreement

/-!
# The store interface

`store.ResourceStore` of `pkg/core/store/store.go`, as its callers see it: operations on the state
of a store. `LawfulStore` adds what the callers rely on: a store of a kind holds resources by key
and, where its index is exact, answers `ByIndex` with the resources that have the value. The memory
store and the database store are both lawful (`memoryStore`, `gormStore`); only the latter rejects
an `Add` under a key that is taken (`gormStore_rejects`). `QueryStore` is for the callers that ask
by index conditions.
-/

namespace DubboAdmin

variable {σ S : Type}

/-! ## Operations and laws -/

/-- `store.ResourceStore`: the operations that the modelled callers use. -/
structure ResourceStore (σ S : Type) where
  /-- `GetByKey`; `none` where it reports that the key does not exist. -/
  getByKey : S → String → Except Failure (Option (Resource σ))
  listKeys : S → List String
  /-- `ByIndex`, by the name of the index and the value. -/
  byIndex : S → String → String → Except Failure (List (Resource σ))
  add : S → Resource σ → Except Failure Unit × S
  update : S → Resource σ → Except Failure Unit × S
  delete : S → Resource σ → Except Failure Unit × S

/-- `Get`: in both stores, `GetByKey` of the object's key. -/
def ResourceStore.get (st : ResourceStore σ S) (s : S) (r : Resource σ) :
    Except Failure (Option (Resource σ)) :=
  st.getByKey s r.resourceKey

/-- What the states of a store of a kind stand for. -/
structure StoreModel (σ S : Type) extends ResourceStore σ S where
  kind : String
  /-- The index functions that are registered for the kind. -/
  indexers : Indexers σ
  stored : S → Contents σ
  valid : S → Prop
  /-- The store's index holds what the index functions produce. -/
  exact : S → Prop

/-- A write in the state `s` leaves these contents, and keeps an exact index exact. -/
structure StoreModel.Leaves (st : StoreModel σ S) (s : S) (contents : Contents σ) (s' : S) :
    Prop where
  stored : st.stored s' = contents
  valid : st.valid s'
  exact : st.exact s → st.exact s'

/-- A store that behaves as its callers expect. -/
structure LawfulStore (σ S : Type) extends StoreModel σ S where
  getByKey_eq : ∀ s key, getByKey s key = .ok ((stored s).get? key)
  listKeys_perm : ∀ s, (listKeys s).Perm (stored s).keys
  /-- `ByIndex` finds the resources with the value, where the index is exact. -/
  byIndex_spec : ∀ s n v, valid s → exact s → n ∈ indexers → ∃ out, byIndex s n v = .ok out ∧
    out.Nodup ∧ ∀ r, r ∈ out ↔ r ∈ (stored s).items ∧ v ∈ indexers.values n r
  /-- `Add` stores a resource of the kind under a new key. -/
  add_spec : ∀ s r, valid s → r.kind = kind → (stored s).get? r.resourceKey = none →
    (add s r).1 = .ok () ∧ toStoreModel.Leaves s ((stored s).put r) (add s r).2
  /-- `Update` stores a resource of the kind over the one with its key. -/
  update_spec : ∀ s r old, valid s → r.kind = kind → (stored s).get? r.resourceKey = some old →
    (update s r).1 = .ok () ∧ toStoreModel.Leaves s ((stored s).put r) (update s r).2
  /-- `Delete` removes what is stored under the key. -/
  delete_spec : ∀ s r, valid s →
    toStoreModel.Leaves s ((stored s).erase r.resourceKey) (delete s r).2
  /-- `Delete` succeeds where there is something to remove. -/
  delete_ok : ∀ s r old, valid s → (stored s).get? r.resourceKey = some old →
    (delete s r).1 = .ok ()

/-- `Add` rejects a key that is taken, and changes nothing then. -/
def LawfulStore.Rejects (st : LawfulStore σ S) : Prop :=
  ∀ s r old, st.valid s → r.kind = st.kind → (st.stored s).get? r.resourceKey = some old →
    ∃ e, st.add s r = (.error e, s)

/-- `Add`, whether the key is taken or not, stores the resource or fails and changes nothing. -/
def LawfulStore.AddsOrFails (st : LawfulStore σ S) : Prop :=
  ∀ s r, st.valid s → r.kind = st.kind →
    (st.add s r).1 = .ok () ∧ st.Leaves s ((st.stored s).put r) (st.add s r).2 ∨
      ∃ e, st.add s r = (.error e, s)

theorem LawfulStore.Rejects.addsOrFails {st : LawfulStore σ S} (h : st.Rejects) :
    st.AddsOrFails := by
  intro s r hvalid hkind
  cases hget : (st.stored s).get? r.resourceKey with
  | none => exact .inl (st.add_spec s r hvalid hkind hget)
  | some old => exact .inr (h s r old hvalid hkind hget)

/-! ## The memory store -/

/-- The result of a call that returns the new state or fails and leaves the old one. -/
def withState (s : S) : Except Failure S → Except Failure Unit × S
  | .ok s' => (.ok (), s')
  | .error e => (.error e, s)

/-- The memory store, by its operations. -/
def memoryOps : ResourceStore σ (Memory.ResourceStore σ) where
  getByKey rs key := .ok (rs.stored.get? key)
  listKeys rs := rs.stored.keys
  byIndex rs indexName indexedValue := rs.storeProxy.byIndex indexName indexedValue
  add rs r := withState rs (rs.add r)
  update rs r := withState rs (rs.update r)
  delete rs r := withState rs (rs.delete r)

/-- The memory store of a kind whose index functions accept every resource of the kind. -/
def memoryStore (kind : String) (indexers : Indexers σ)
    (htotal : ∀ r : Resource σ, r.kind = kind → Memory.Indexer.indexable indexers r = true) :
    LawfulStore σ (Memory.ResourceStore σ) where
  toResourceStore := memoryOps
  kind := kind
  indexers := indexers
  stored rs := rs.stored
  valid rs := rs.indexers = indexers
  exact _ := True
  getByKey_eq _ _ := rfl
  listKeys_perm _ := .refl _
  byIndex_spec := by
    rintro rs n v rfl - hn
    refine ⟨_, if_pos hn, rs.stored.nodup.of_map _ |>.filter _, fun r => ?_⟩
    rw [List.mem_filter, decide_eq_true_eq]
    rfl
  add_spec := by
    rintro rs r rfl hkind -
    obtain ⟨rs', hadd⟩ := Agreement.add_ok (htotal r hkind)
    obtain rfl := Memory.add_eq_ok hadd
    simp only [memoryOps, hadd, withState]
    exact ⟨trivial, rfl, rfl, id⟩
  update_spec := by
    rintro rs r old rfl hkind -
    obtain ⟨rs', hupdate⟩ := Agreement.update_ok (htotal r hkind)
    obtain ⟨hstored, hindexers⟩ := Agreement.update_frame hupdate
    simp only [memoryOps, hupdate, withState]
    exact ⟨trivial, hstored, hindexers, id⟩
  delete_spec := by
    rintro rs r rfl
    exact ⟨rfl, rfl, id⟩
  delete_ok _ _ _ _ _ := rfl

theorem memoryStore_addsOrFails (kind : String) (indexers : Indexers σ)
    (htotal : ∀ r : Resource σ, r.kind = kind → Memory.Indexer.indexable indexers r = true) :
    (memoryStore kind indexers htotal).AddsOrFails := by
  intro rs r hvalid hkind
  have hindexers : rs.indexers = indexers := hvalid
  obtain ⟨rs', hadd⟩ := Agreement.add_ok (hindexers ▸ htotal r hkind)
  obtain rfl := Memory.add_eq_ok hadd
  simp only [memoryStore, memoryOps, hadd, withState]
  exact .inl ⟨trivial, rfl, hindexers, id⟩

/-! ## The database store -/

/-- The database store, by its operations, each of which runs by itself. -/
def gormOps (gs : Gorm.GormStore σ) (ord : Gorm.RowOrder) : ResourceStore σ (Gorm.DB σ) where
  getByKey db key := (Prog.exec gs.step (Gorm.getByKey key) db).1
  listKeys db := ord.order db.resources.keys
  byIndex db indexName indexedValue := gs.byIndex ord db indexName indexedValue
  add db r := Prog.exec gs.step (gs.add r) db
  update db r := Prog.exec gs.step (gs.update r) db
  delete db r := Prog.exec gs.step (gs.delete r) db

/-- `ByIndex` returns the stored resources with the value, each once, where the rows are exact. -/
theorem Gorm.byIndex_spec {gs : Gorm.GormStore σ} (ord : Gorm.RowOrder) {db : Gorm.DB σ}
    (h : Gorm.IndexExact gs db) {n : String} (v : String) (hn : n ∈ gs.indexers) :
    ∃ out, gs.byIndex ord db n v = .ok out ∧ out.Nodup ∧
      ∀ r, r ∈ out ↔ r ∈ db.resources.items ∧ v ∈ gs.indexers.values n r := by
  refine ⟨_, if_pos hn, (Gorm.nodup_getByKeys _).of_map, fun r => ?_⟩
  simp only [Gorm.mem_getByKeys, Gorm.mem_uniqueKeys_findEntries, decide_eq_true_eq, exists_eq_left,
    h n v _, Gorm.GormStore.Produces]
  refine and_congr_right fun hr => ⟨?_, fun hv => ⟨r, hr, rfl, hv⟩⟩
  rintro ⟨r', hr', hkey, hv⟩
  rwa [Keyed.eq_of_key_eq hr' hr hkey] at hv

theorem Gorm.exec_delete_absent {gs : Gorm.GormStore σ} {db : Gorm.DB σ} {r : Resource σ}
    (hnone : db.resources.get? r.resourceKey = none) :
    Prog.exec gs.step (gs.delete r) db =
      (.error (errorResourceNotFound r.kind r.name r.mesh), db) := by
  have hrun : (Gorm.Tx.delete r).run gs db =
      .error (errorResourceNotFound r.kind r.name r.mesh) := by
    simp only [Gorm.Tx.run, Gorm.GormStore.deleteTx, hnone]
  exact Gorm.GormStore.step_tx_error hrun

/-- The database store of a kind. -/
def gormStore (gs : Gorm.GormStore σ) (ord : Gorm.RowOrder) : LawfulStore σ (Gorm.DB σ) where
  toResourceStore := gormOps gs ord
  kind := gs.kind
  indexers := gs.indexers
  stored db := db.resources
  valid _ := True
  exact db := Gorm.IndexExact gs db
  getByKey_eq _ _ := rfl
  listKeys_perm db := ord.perm _
  byIndex_spec _ _ v _ hexact hn := Gorm.byIndex_spec ord hexact v hn
  add_spec := by
    intro db r _ hkind hnone
    obtain ⟨db', hexec, htx⟩ := Agreement.exec_add hkind hnone
    obtain ⟨-, hstored, hexact⟩ := Gorm.addTx_eq_ok htx
    simp only [gormOps, hexec]
    exact ⟨trivial, hstored, trivial, hexact⟩
  update_spec := by
    intro db r old _ hkind hsome
    obtain ⟨db', hexec, htx⟩ := Agreement.exec_update hkind hsome
    obtain ⟨hstored, hexact⟩ := Gorm.updateTx_eq_ok htx
    simp only [gormOps, hexec]
    exact ⟨trivial, hstored, trivial, hexact (Keyed.get?_eq_some_iff.mp hsome).2⟩
  delete_spec := by
    intro db r _
    cases hget : db.resources.get? r.resourceKey with
    | none =>
      have hsame : db.resources.erase r.resourceKey = db.resources :=
        Keyed.erase_of_absent hget
      simp only [gormOps, Gorm.exec_delete_absent hget, hsame]
      exact ⟨rfl, trivial, id⟩
    | some old =>
      obtain ⟨db', hexec, htx⟩ := Agreement.exec_delete gs hget
      obtain ⟨hstored, hexact⟩ := Gorm.deleteTx_eq_ok htx
      simp only [gormOps, hexec]
      exact ⟨hstored, trivial, hexact⟩
  delete_ok := by
    intro db r old _ hsome
    obtain ⟨db', hexec, -⟩ := Agreement.exec_delete gs hsome
    simp only [gormOps, hexec]

theorem gormStore_rejects (gs : Gorm.GormStore σ) (ord : Gorm.RowOrder) :
    (gormStore gs ord).Rejects := by
  intro db r old _ hkind hsome
  refine ⟨errorResourceAlreadyExists r.kind r.name r.mesh, ?_⟩
  show Prog.exec gs.step (gs.add r) db = _
  have hkind' : r.kind = gs.kind := hkind
  have hpresent : ¬ db.resources.get? r.resourceKey = none := by
    rw [show db.resources.get? r.resourceKey = some old from hsome]
    exact Option.some_ne_none old
  unfold Gorm.GormStore.add
  rw [if_neg (not_not_intro hkind'), Prog.exec_bind, Gorm.exec_countByKey, if_neg hpresent]
  rfl

/-! ## Queries by index conditions -/

/-- A store that also answers `ListByIndexes`. -/
structure QueryStore (σ S : Type) extends LawfulStore σ S where
  listByIndexes : S → List IndexCondition → Except Failure (List (Resource σ))
  /-- One `Equals` condition lists the resources with the value, where the index is exact. -/
  listByIndexes_equals : ∀ s n v, valid s → exact s → n ∈ indexers →
    ∃ out, listByIndexes s [⟨n, v, .equals⟩] = .ok out ∧
      Listing (stored s) (fun r => v ∈ indexers.values n r) out

/-- The conditions that each index has its value. -/
def equalsAll (pairs : List (String × String)) : List IndexCondition :=
  pairs.map fun p => ⟨p.1, p.2, .equals⟩

/-- `Equals` conditions read the indexer of the memory store only, never its trees. -/
theorem Memory.listByIndexes_equalsAll (rs : Memory.ResourceStore σ)
    {pairs : List (String × String)} (hne : pairs ≠ []) (hreg : ∀ p ∈ pairs, p.1 ∈ rs.indexers) :
    ∃ out, rs.listByIndexes (equalsAll pairs) = .ok out ∧
      Listing rs.stored (fun r => ∀ p ∈ pairs, p.2 ∈ rs.indexers.values p.1 r) out := by
  have hquery : ∀ c ∈ equalsAll pairs, rs.conditionKeys c =
      .ok ((rs.stored.items.filter fun r => c.value ∈ rs.indexers.values c.indexName r).map
        Resource.resourceKey) := by
    intro c hc
    obtain ⟨p, hp, rfl⟩ := List.mem_map.mp hc
    exact if_pos (hreg p hp)
  obtain ⟨ks, hks, hnodup, hmem⟩ := keysByIndexes_spec hquery
  have hconditions : equalsAll pairs ≠ [] := fun h => hne (List.map_eq_nil_iff.mp h)
  have hkey : ∀ r ∈ rs.stored.items,
      (r.resourceKey ∈ ks ↔ ∀ p ∈ pairs, p.2 ∈ rs.indexers.values p.1 r) := by
    intro r hr
    rw [hmem, and_iff_right hconditions]
    unfold equalsAll
    rw [List.forall_mem_map]
    refine forall₂_congr fun p _ => ?_
    rw [List.mem_map]
    simp only [List.mem_filter, decide_eq_true_eq]
    constructor
    · rintro ⟨r', ⟨hr', hv⟩, heq⟩
      rwa [Keyed.eq_of_key_eq hr' hr heq] at hv
    · exact fun hv => ⟨r, ⟨hr, hv⟩, rfl⟩
  refine ⟨sortBy Resource.resourceKey (rs.getByKeys ks), ?_, fun r => ?_,
    ascending_sortBy (Memory.nodup_getByKeys hnodup)⟩
  · show (rs.getKeysByIndexes _ >>= fun keys => pure (sortBy Resource.resourceKey
      (rs.getByKeys keys))) = _
    rw [show rs.getKeysByIndexes _ = .ok ks from hks]
    rfl
  · rw [mem_sortBy, Memory.ResourceStore.getByKeys, List.mem_filterMap]
    constructor
    · rintro ⟨k, hk, hget⟩
      obtain ⟨hr, rfl⟩ := Keyed.get?_eq_some_iff.mp hget
      exact ⟨hr, (hkey r hr).mp hk⟩
    · rintro ⟨hr, hv⟩
      exact ⟨r.resourceKey, (hkey r hr).mpr hv, Keyed.get?_key hr⟩

theorem Memory.listByIndexes_equals (rs : Memory.ResourceStore σ) {n : String} (v : String)
    (hn : n ∈ rs.indexers) :
    ∃ out, rs.listByIndexes [⟨n, v, .equals⟩] = .ok out ∧
      Listing rs.stored (fun r => v ∈ rs.indexers.values n r) out := by
  have hreg : ∀ p ∈ [(n, v)], p.1 ∈ rs.indexers := fun p hp => by rwa [List.mem_singleton.mp hp]
  obtain ⟨out, hout, hlisting⟩ :=
    Memory.listByIndexes_equalsAll rs (List.cons_ne_nil _ _) hreg
  refine ⟨out, hout, fun r => (hlisting.mem_iff r).trans (and_congr_right fun _ => ?_),
    hlisting.ascending⟩
  simp

/-- The memory store, with its queries. -/
def memoryQueryStore (kind : String) (indexers : Indexers σ)
    (htotal : ∀ r : Resource σ, r.kind = kind → Memory.Indexer.indexable indexers r = true) :
    QueryStore σ (Memory.ResourceStore σ) where
  toLawfulStore := memoryStore kind indexers htotal
  listByIndexes rs indexes := rs.listByIndexes indexes
  listByIndexes_equals := by
    intro rs n v hvalid _ hn
    have hindexers : rs.indexers = indexers := hvalid
    have hreg : n ∈ rs.indexers := by
      rw [hindexers]
      exact hn
    have hout := Memory.listByIndexes_equals rs v hreg
    rwa [hindexers] at hout

/-- The database store, with its queries. -/
def gormQueryStore (gs : Gorm.GormStore σ) (ord : Gorm.RowOrder) : QueryStore σ (Gorm.DB σ) where
  toLawfulStore := gormStore gs ord
  listByIndexes db indexes := gs.listByIndexes ord db indexes
  listByIndexes_equals := by
    intro db n v _ hexact hn
    have hsupported : ∀ c ∈ [(⟨n, v, .equals⟩ : IndexCondition)], c.Supported gs.indexers := by
      intro c hc
      rw [List.mem_singleton.mp hc]
      exact ⟨hn, nofun⟩
    obtain ⟨out, hout, hlisting⟩ := Gorm.listByIndexes_spec ord hexact hsupported
    refine ⟨out, hout, fun r => (hlisting.mem_iff r).trans (and_congr_right fun _ => ?_),
      hlisting.ascending⟩
    simp [Gorm.MatchesAll, Gorm.Matches, gormStore]

/-! ## Queries by several conditions -/

/-- A store that answers queries by several conditions, and whose `Add` adds or fails. -/
structure JoinStore (σ S : Type) extends QueryStore σ S where
  /-- `Equals` conditions list the resources with all the values, where the index is exact. -/
  listByIndexes_all : ∀ s pairs, pairs ≠ [] → valid s → exact s → (∀ p ∈ pairs, p.1 ∈ indexers) →
    ∃ out, listByIndexes s (equalsAll pairs) = .ok out ∧
      Listing (stored s) (fun r => ∀ p ∈ pairs, p.2 ∈ indexers.values p.1 r) out
  addsOrFails : toLawfulStore.AddsOrFails

/-- A query by the mesh and by one more index. -/
theorem JoinStore.listByIndexes_mesh (st : JoinStore σ S) {s : S} (hvalid : st.valid s)
    (hexact : st.exact s) (hmesh : st.indexers.lookup byMeshIndex = some byMesh) {n : String}
    {f : IndexFunc σ} (hn : st.indexers.lookup n = some f) (mesh v : String) :
    ∃ out, st.listByIndexes s (equalsAll [(byMeshIndex, mesh), (n, v)]) = .ok out ∧
      Listing (st.stored s) (fun r => r.mesh = mesh ∧ v ∈ (f r).getD []) out := by
  have hregistered : ∀ p ∈ [(byMeshIndex, mesh), (n, v)], p.1 ∈ st.indexers := by
    intro p hp
    rw [← AList.lookup_isSome]
    rcases List.mem_pair.mp hp with rfl | rfl
    · rw [hmesh]
      rfl
    · rw [hn]
      rfl
  obtain ⟨out, hout, hlisting⟩ :=
    st.listByIndexes_all s _ (List.cons_ne_nil _ _) hvalid hexact hregistered
  refine ⟨out, hout, fun r => (hlisting.mem_iff r).trans (and_congr_right fun _ => ?_),
    hlisting.ascending⟩
  rw [List.forall_mem_cons, List.forall_mem_singleton, Indexers.values_of_lookup hmesh,
    Indexers.values_of_lookup hn]
  refine and_congr_left fun _ => ?_
  rw [byMesh, Option.getD_some, List.mem_singleton, eq_comm]

/-- The memory store, with such queries. -/
def memoryJoinStore (kind : String) (indexers : Indexers σ)
    (htotal : ∀ r : Resource σ, r.kind = kind → Memory.Indexer.indexable indexers r = true) :
    JoinStore σ (Memory.ResourceStore σ) where
  toQueryStore := memoryQueryStore kind indexers htotal
  listByIndexes_all := by
    intro rs pairs hne hvalid _ hreg
    have hindexers : rs.indexers = indexers := hvalid
    have hout := Memory.listByIndexes_equalsAll rs hne (by rw [hindexers]; exact hreg)
    rwa [hindexers] at hout
  addsOrFails := memoryStore_addsOrFails kind indexers htotal

/-- The database store, with such queries. -/
def gormJoinStore (gs : Gorm.GormStore σ) (ord : Gorm.RowOrder) : JoinStore σ (Gorm.DB σ) where
  toQueryStore := gormQueryStore gs ord
  listByIndexes_all := by
    intro db pairs hne _ hexact hreg
    have hsupported : ∀ c ∈ equalsAll pairs, c.Supported gs.indexers := by
      intro c hc
      obtain ⟨p, hp, rfl⟩ := List.mem_map.mp hc
      exact ⟨hreg p hp, nofun⟩
    obtain ⟨out, hout, hlisting⟩ := Gorm.listByIndexes_spec ord hexact hsupported
    refine ⟨out, hout, fun r => (hlisting.mem_iff r).trans (and_congr_right fun _ => ?_),
      hlisting.ascending⟩
    have hconditions : equalsAll pairs ≠ [] := fun h => hne (List.map_eq_nil_iff.mp h)
    unfold Gorm.MatchesAll
    rw [and_iff_right hconditions]
    unfold equalsAll
    rw [List.forall_mem_map]
    rfl
  addsOrFails := (gormStore_rejects gs ord).addsOrFails

end DubboAdmin
