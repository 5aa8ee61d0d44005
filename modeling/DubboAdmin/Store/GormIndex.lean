import DubboAdmin.Store.Gorm

/-!
# The index table of the database store

`IndexExact` is the relation between the two tables: the rows of a kind in `resource_indices` are
the triples of index name, value and key that the index functions produce for the stored resources.
Each transaction keeps it whatever was read before, but for the one of `backfillIndices`, which
writes the rows of the models that were read outside of it. A pool of calls keeps it in every
interleaving in which those models still produce the rows of the table when they are written
(`indexExact_of_run`), and loses it when a resource is added in between (`backfill_loses_row`).
-/

namespace DubboAdmin.Gorm

variable {σ : Type}

/-- A row of the store's kind holds the triple. -/
def GormStore.HasRow (gs : GormStore σ) (rows : List IndexRow) (n v k : String) : Prop :=
  ∃ row ∈ rows, row.resourceKind = gs.kind ∧ row.indexName = n ∧ row.indexValue = v ∧
    row.resourceKey = k

/-- The index function `n` produces the value `v` for a resource of the list under the key `k`. -/
def GormStore.Produces (gs : GormStore σ) (list : List (Resource σ)) (n v k : String) : Prop :=
  ∃ r ∈ list, r.resourceKey = k ∧ v ∈ gs.indexers.values n r

/-- The rows of the kind are the triples that the stored resources produce. -/
def IndexExact (gs : GormStore σ) (db : DB σ) : Prop :=
  ∀ n v k, gs.HasRow db.indices n v k ↔ gs.Produces db.resources.items n v k

/-! ## Rows -/

section Rows

variable {gs : GormStore σ}

theorem mem_values_iff {indexers : Indexers σ} {n v : String} {r : Resource σ} :
    v ∈ indexers.values n r ↔ ∃ f, ⟨n, f⟩ ∈ indexers.entries ∧ v ∈ (f r).getD [] := by
  unfold Indexers.values
  constructor
  · intro hv
    cases hn : indexers.lookup n with
    | none => simp [hn] at hv
    | some f =>
      rw [hn] at hv
      exact ⟨f, AList.mem_lookup_iff.mp hn, hv⟩
  · rintro ⟨f, hf, hv⟩
    rw [AList.mem_lookup_iff.mpr hf]
    exact hv

theorem hasRow_entries {r : Resource σ} {n v k : String} :
    gs.HasRow (gs.entries r) n v k ↔ r.resourceKey = k ∧ v ∈ gs.indexers.values n r := by
  rw [mem_values_iff]
  simp only [GormStore.HasRow, GormStore.entries, List.mem_flatMap, List.mem_map]
  constructor
  · rintro ⟨_, ⟨⟨n', f⟩, hf, v', hv, rfl⟩, -, rfl, rfl, rfl⟩
    exact ⟨rfl, f, hf, hv⟩
  · rintro ⟨rfl, f, hf, hv⟩
    exact ⟨_, ⟨⟨n, f⟩, hf, v, hv, rfl⟩, rfl, rfl, rfl, rfl⟩

theorem hasRow_append {rows rows' : List IndexRow} {n v k : String} :
    gs.HasRow (rows ++ rows') n v k ↔ gs.HasRow rows n v k ∨ gs.HasRow rows' n v k := by
  simp only [GormStore.HasRow, List.mem_append, or_and_right, exists_or]

theorem hasRow_flatMap_entries {list : List (Resource σ)} {n v k : String} :
    gs.HasRow (list.flatMap gs.entries) n v k ↔ gs.Produces list n v k := by
  induction list with
  | nil => simp [GormStore.HasRow, GormStore.Produces]
  | cons r list ih =>
    rw [List.flatMap_cons, hasRow_append, ih, hasRow_entries]
    simp [GormStore.Produces]

theorem hasRow_filter_key {rows : List IndexRow} {key n v k : String} :
    gs.HasRow (rows.filter fun row => !decide (row.resourceKind = gs.kind ∧ row.resourceKey = key))
      n v k ↔ gs.HasRow rows n v k ∧ k ≠ key := by
  simp only [GormStore.HasRow, List.mem_filter, Bool.not_eq_true', decide_eq_false_iff_not]
  constructor
  · rintro ⟨row, ⟨hrow, hne⟩, hkind, hn, hv, rfl⟩
    exact ⟨⟨row, hrow, hkind, hn, hv, rfl⟩, fun hk => hne ⟨hkind, hk⟩⟩
  · rintro ⟨⟨row, hrow, hkind, hn, hv, rfl⟩, hk⟩
    exact ⟨row, ⟨hrow, fun h => hk h.2⟩, hkind, hn, hv, rfl⟩

theorem not_hasRow_filter_kind {rows : List IndexRow} {n v k : String} :
    ¬ gs.HasRow (rows.filter fun row => !decide (row.resourceKind = gs.kind)) n v k := by
  rintro ⟨row, hrow, hkind, -⟩
  simp only [List.mem_filter, Bool.not_eq_true', decide_eq_false_iff_not] at hrow
  exact hrow.2 hkind

end Rows

/-! ## Transactions -/

section Transactions

variable {gs : GormStore σ} {db db' : DB σ} {r : Resource σ}

theorem create_eq_ok (h : db.create r = .ok db') :
    db.resources.get? r.resourceKey = none ∧
      db' = { db with resources := db.resources.put r } := by
  unfold DB.create at h
  cases hget : db.resources.get? r.resourceKey with
  | none =>
    rw [hget] at h
    exact ⟨rfl, (Except.ok.inj h).symm⟩
  | some old =>
    rw [hget] at h
    cases h

/-- The inserts of a list with distinct new keys add its resources, and nothing else. -/
theorem foldlM_create_eq_ok {list : List (Resource σ)} (h : list.foldlM DB.create db = .ok db') :
    db'.indices = db.indices ∧
      ∀ r, r ∈ db'.resources.items ↔ r ∈ db.resources.items ∨ r ∈ list := by
  induction list generalizing db with
  | nil =>
    cases h
    exact ⟨rfl, fun r => by simp⟩
  | cons r list ih =>
    rw [List.foldlM_cons] at h
    cases hcreate : db.create r with
    | error e =>
      rw [hcreate] at h
      cases h
    | ok db₁ =>
      rw [hcreate] at h
      obtain ⟨hnone, rfl⟩ := create_eq_ok hcreate
      obtain ⟨hindices, hmem⟩ := ih h
      refine ⟨hindices, fun r' => ?_⟩
      have hne : r' ∈ db.resources.items → r'.resourceKey ≠ r.resourceKey :=
        Keyed.get?_eq_none_iff.mp hnone r'
      rw [hmem, Keyed.mem_put, List.mem_cons]
      tauto

theorem produces_put {stored : Contents σ} {n v k : String} :
    gs.Produces (stored.put r).items n v k ↔
      (r.resourceKey = k ∧ v ∈ gs.indexers.values n r) ∨
        gs.Produces stored.items n v k ∧ k ≠ r.resourceKey := by
  simp only [GormStore.Produces, Keyed.mem_put]
  constructor
  · rintro ⟨r', rfl | ⟨hr', hne⟩, rfl, hv⟩
    · exact .inl ⟨rfl, hv⟩
    · exact .inr ⟨⟨r', hr', rfl, hv⟩, hne⟩
  · rintro (⟨rfl, hv⟩ | ⟨⟨r', hr', rfl, hv⟩, hne⟩)
    · exact ⟨r, .inl rfl, rfl, hv⟩
    · exact ⟨r', .inr ⟨hr', hne⟩, rfl, hv⟩

theorem produces_erase {stored : Contents σ} {key n v k : String} :
    gs.Produces (stored.erase key).items n v k ↔ gs.Produces stored.items n v k ∧ k ≠ key := by
  simp only [GormStore.Produces, Keyed.mem_erase]
  constructor
  · rintro ⟨r', ⟨hr', hne⟩, rfl, hv⟩
    exact ⟨⟨r', hr', rfl, hv⟩, hne⟩
  · rintro ⟨⟨r', hr', rfl, hv⟩, hne⟩
    exact ⟨r', ⟨hr', hne⟩, rfl, hv⟩

/-- The transaction of `Add` commits where the key is new, and keeps the index table exact. -/
theorem addTx_eq_ok (h : gs.addTx db r = .ok db') :
    db.resources.get? r.resourceKey = none ∧ db'.resources = db.resources.put r ∧
      (IndexExact gs db → IndexExact gs db') := by
  unfold GormStore.addTx at h
  cases hcreate : db.create r with
  | error e =>
    rw [hcreate] at h
    cases h
  | ok db₁ =>
    rw [hcreate] at h
    obtain rfl := (Except.ok.inj h).symm
    obtain ⟨hnone, rfl⟩ := create_eq_ok hcreate
    refine ⟨hnone, rfl, fun hexact n v k => ?_⟩
    simp only [GormStore.persistIndexEntriesTx, DB.createIndices]
    rw [hasRow_append, hasRow_entries, hexact n v k, produces_put, or_comm]
    refine or_congr_right (iff_self_and.mpr ?_)
    rintro ⟨r', hr', rfl, -⟩
    exact Keyed.get?_eq_none_iff.mp hnone r' hr'

/-- The transaction of `Update` commits where the key is present, and keeps the index table exact
when the resource read before it has the same key. -/
theorem updateTx_eq_ok {oldResource : Resource σ} (h : gs.updateTx db r oldResource = .ok db') :
    db'.resources = db.resources.put r ∧
      (oldResource.resourceKey = r.resourceKey → IndexExact gs db → IndexExact gs db') := by
  unfold GormStore.updateTx at h
  cases hget : db.resources.get? r.resourceKey with
  | none =>
    rw [hget] at h
    cases h
  | some old =>
    rw [hget] at h
    obtain rfl := (Except.ok.inj h).symm
    refine ⟨rfl, fun hkey hexact n v k => ?_⟩
    simp only [GormStore.persistIndexEntriesTx, DB.createIndices, DB.deleteIndices]
    rw [hasRow_append, hasRow_entries, hasRow_filter_key, hexact n v k, produces_put, hkey, or_comm]

theorem deleteTx_eq_ok (h : gs.deleteTx db r = .ok db') :
    db'.resources = db.resources.erase r.resourceKey ∧
      (IndexExact gs db → IndexExact gs db') := by
  unfold GormStore.deleteTx at h
  cases hget : db.resources.get? r.resourceKey with
  | none =>
    rw [hget] at h
    cases h
  | some old =>
    rw [hget] at h
    obtain rfl := (Except.ok.inj h).symm
    refine ⟨rfl, fun hexact n v k => ?_⟩
    simp only [DB.deleteIndices]
    rw [hasRow_filter_key, hexact n v k, produces_erase]

/-- The transaction of `Replace` writes both tables anew. -/
theorem replaceTx_eq_ok {list : List (Resource σ)} (h : gs.replaceTx db list = .ok db') :
    (∀ r, r ∈ db'.resources.items ↔ r ∈ list) ∧ IndexExact gs db' := by
  unfold GormStore.replaceTx at h
  cases hcreate : list.foldlM DB.create (gs.deleteAll db) with
  | error e =>
    rw [hcreate] at h
    cases h
  | ok db₁ =>
    rw [hcreate] at h
    obtain rfl := (Except.ok.inj h).symm
    obtain ⟨hindices, hmem⟩ := foldlM_create_eq_ok hcreate
    have hlist : ∀ r, r ∈ db₁.resources.items ↔ r ∈ list := by
      intro r
      rw [hmem]
      exact or_iff_right List.not_mem_nil
    refine ⟨hlist, fun n v k => ?_⟩
    have hproduces : gs.Produces db₁.resources.items n v k ↔ gs.Produces list n v k := by
      simp only [GormStore.Produces, hlist]
    simp only [DB.createIndices, hindices, GormStore.deleteAll, DB.deleteIndices]
    rw [hasRow_append, hasRow_flatMap_entries, or_iff_right not_hasRow_filter_kind, hproduces]

theorem backfillTx_indexExact_iff {models : List (Resource σ)} :
    IndexExact gs (gs.backfillTx db models) ↔
      ∀ n v k, gs.Produces models n v k ↔ gs.Produces db.resources.items n v k := by
  refine forall₃_congr fun n v k => ?_
  simp only [GormStore.backfillTx, DB.createIndices, DB.deleteIndices]
  rw [hasRow_append, hasRow_flatMap_entries, or_iff_right not_hasRow_filter_kind]

/-- What a transaction needs, in the state before it, to keep the index table exact: the resource
that an `Update` has read has its own key, and the models of a rebuild produce what the stored
resources produce. -/
def Tx.Current (gs : GormStore σ) (db : DB σ) : Tx σ → Prop
  | .update r oldResource => oldResource.resourceKey = r.resourceKey
  | .backfill models =>
    ∀ n v k, gs.Produces models n v k ↔ gs.Produces db.resources.items n v k
  | _ => True

theorem tx_indexExact {t : Tx σ} (h : IndexExact gs db) (hcurrent : t.Current gs db)
    (hrun : t.run gs db = .ok db') : IndexExact gs db' := by
  cases t with
  | add r => exact (addTx_eq_ok hrun).2.2 h
  | update r oldResource => exact (updateTx_eq_ok hrun).2 hcurrent h
  | delete r => exact (deleteTx_eq_ok hrun).2 h
  | replace list => exact (replaceTx_eq_ok hrun).2
  | backfill models =>
    rw [← Except.ok.inj hrun]
    exact backfillTx_indexExact_iff.mpr hcurrent

end Transactions

/-! ## Interleavings -/

/-- The calls that write the tables. -/
inductive Call (σ : Type) where
  | init
  | add (r : Resource σ)
  | update (r : Resource σ)
  | delete (r : Resource σ)
  | replace (list : List (Resource σ))

/-- The program of a call. -/
def Call.prog (gs : GormStore σ) : Call σ → DBProg σ (Except Failure Unit)
  | .init => gs.init
  | .add r => gs.add r
  | .update r => gs.update r
  | .delete r => gs.delete r
  | .replace list => gs.replace list

/-- What the stores of other kinds may do: change their own rows of the shared table. -/
def OtherKinds (gs : GormStore σ) (db db' : DB σ) : Prop :=
  db'.resources = db.resources ∧
    ∀ n v k, gs.HasRow db'.indices n v k ↔ gs.HasRow db.indices n v k

/-- Stores of one kind with the same index functions over one database. Each thread runs calls one
after the other. -/
def stores (gs : GormStore σ) (ι : Type) :
    PoolSystem (DBOp σ) DBOp.Res (Except Failure Unit) (DB σ) ι where
  sem _ := DBSem gs
  env := OtherKinds gs
  start _ p := ∃ c : Call σ, p = c.prog gs

/-- The models that a rebuild writes produce what the stored resources produce at that time. -/
def RebuildCurrent (gs : GormStore σ) {ι : Type} (_ : ι) (db : DB σ) (o : DBOp σ) : Prop :=
  ∀ models, o = .tx (.backfill models) →
    ∀ n v k, gs.Produces models n v k ↔ gs.Produces db.resources.items n v k

section Pools

variable {gs : GormStore σ} {ι : Type} {i : ι}

theorem dbSem_indexExact {db db' : DB σ} {o : DBOp σ} {res : o.Res} (h : IndexExact gs db)
    (hcurrent : ∀ t, o = .tx t → t.Current gs db) (hsem : DBSem gs db o res db') :
    IndexExact gs db' := by
  cases hsem with
  | order _ | fail _ _ => exact h
  | run _ =>
    cases o with
    | count _ | first _ | find => exact h
    | tx t =>
      cases hrun : t.run gs db with
      | ok db' =>
        rw [GormStore.step_tx_ok hrun]
        exact tx_indexExact h (hcurrent t rfl) hrun
      | error e =>
        rw [GormStore.step_tx_error hrun]
        exact h

/-- The invariant of the tables, under any interference. -/
def exactProtocol (gs : GormStore σ) (ι : Type) : Protocol (DB σ) ι where
  inv := IndexExact gs
  rely _ _ _ := True

/-- A thread of a store keeps the index table exact from here on. -/
abbrev SafeCall (gs : GormStore σ) (i : ι) {α : Type} (post : α → Prop) (p : DBProg σ α)
    (db : DB σ) : Prop :=
  Safe (stores gs ι) (RebuildCurrent gs) (exactProtocol gs ι) i (fun a _ => post a) p db

theorem safe_ret {α : Type} {post : α → Prop} {a : α} (h : post a) (db : DB σ) :
    SafeCall gs i post (.ret a) db :=
  Safe.ret (fun _ _ _ _ _ hpost => hpost) h

theorem safe_perform {o : DBOp σ} {post : o.Res → Prop} {db : DB σ}
    (hcurrent : ∀ db t, o = .tx t → RebuildCurrent gs i db o → t.Current gs db)
    (hpost : ∀ db res db', DBSem gs db o res db' → post res) :
    SafeCall gs i post (Prog.perform o) db := by
  refine Safe.op (fun _ => True) (Protocol.stable_true _ _) trivial ?_
  intro db₁ _ hinv hgood res db₂ hsem
  exact ⟨dbSem_indexExact hinv (fun t ht => hcurrent db₁ t ht hgood) hsem, fun _ _ => trivial,
    safe_ret (hpost db₁ res db₂ hsem) db₂⟩

theorem safe_transaction {t : Tx σ} (db : DB σ)
    (ht : ∀ db, RebuildCurrent gs i db (.tx t) → t.Current gs db) :
    SafeCall gs i (fun _ => True) (transaction t) db :=
  safe_perform (fun db _ h hgood => DBOp.tx.inj h ▸ ht db hgood) fun _ _ _ _ => trivial

theorem safe_add (r : Resource σ) (db : DB σ) : SafeCall gs i (fun _ => True) (gs.add r) db := by
  have hcount : SafeCall gs i (fun _ => True) (countByKey r.resourceKey) db :=
    safe_perform (fun _ _ h => by cases h) fun _ _ _ _ => trivial
  unfold GormStore.add
  split_ifs
  · exact safe_ret trivial db
  · refine Safe.bind hcount fun count db₁ _ => ?_
    cases count with
    | error e => exact safe_ret trivial db₁
    | ok count =>
      dsimp only
      split_ifs
      · exact safe_ret trivial db₁
      · exact safe_transaction db₁ fun _ _ => trivial

theorem safe_getByKey (key : String) (db : DB σ) :
    SafeCall gs i (fun found => ∀ r, found = .ok (some r) → r.resourceKey = key) (getByKey key)
      db := by
  refine safe_perform (fun _ _ h => by cases h) ?_
  intro db₁ found db₂ hsem r hr
  cases hsem with
  | run _ => exact (Keyed.get?_eq_some_iff.mp (Except.ok.inj hr)).2
  | fail _ e => cases hr

theorem safe_update (r : Resource σ) (db : DB σ) :
    SafeCall gs i (fun _ => True) (gs.update r) db := by
  unfold GormStore.update
  split_ifs
  · exact safe_ret trivial db
  · refine Safe.bind (safe_getByKey r.resourceKey db) fun found db₁ hfound => ?_
    match found, hfound with
    | .error _, _ | .ok none, _ => exact safe_ret trivial db₁
    | .ok (some oldResource), hfound =>
      exact safe_transaction db₁ fun _ _ => hfound oldResource rfl

theorem safe_backfillIndices (db : DB σ) :
    SafeCall gs i (fun _ => True) gs.backfillIndices db := by
  have hfind : SafeCall gs i (fun _ => True) findModels db :=
    safe_perform (fun _ _ h => by cases h) fun _ _ _ _ => trivial
  refine Safe.bind hfind fun found db₁ _ => ?_
  match found with
  | .error _ | .ok [] => exact safe_ret trivial db₁
  | .ok (m :: models) => exact safe_transaction db₁ fun _ hgood => hgood (m :: models) rfl

theorem safe_call (c : Call σ) (db : DB σ) : SafeCall gs i (fun _ => True) (c.prog gs) db := by
  cases c with
  | init =>
    refine Safe.bind (safe_backfillIndices db) fun result db₁ _ => ?_
    match result with
    | .error (.err _) | .error (.panic _) | .ok () => exact safe_ret trivial db₁
  | add r => exact safe_add r db
  | update r => exact safe_update r db
  | delete _ | replace _ => exact safe_transaction db fun _ _ => trivial

variable [DecidableEq ι]

/-- In every interleaving of calls in which each rebuild writes models that are still current, the
index table is exact in every state reached. -/
theorem indexExact_of_run {P₀ P : Pool (DBOp σ) DBOp.Res (Except Failure Unit) (DB σ) ι}
    {acts : List (PoolAct ι)} (hidle : ∀ i, ∃ a, P₀.threads i = .ret a)
    (h₀ : IndexExact gs P₀.state)
    (h : Run (Guarded (OpGuard (RebuildCurrent gs)) (PoolStep (stores gs ι))) P₀ acts P) :
    IndexExact gs P.state := by
  have hsafe : Pool.Safe (stores gs ι) (RebuildCurrent gs) (exactProtocol gs ι)
      (fun _ _ _ => True) P := by
    refine pool_safe ?_ ?_ ⟨h₀, fun i => ?_⟩ h
    · rintro db db' hinv ⟨hresources, hrows⟩
      refine ⟨fun n v k => ?_, fun _ => trivial⟩
      rw [hrows, hresources]
      exact hinv n v k
    · rintro i p - db - ⟨c, rfl⟩ -
      exact safe_call c db
    · obtain ⟨a, ha⟩ := hidle i
      rw [ha]
      exact safe_ret trivial _
  exact hsafe.1

end Pools

/-! ## Sample runs -/

/-- A store of instances, indexed by address. -/
def sampleStore : GormStore String :=
  ⟨"Instance", AList.singleton "by-ip" fun r => some [r.spec]⟩

/-- An instance with an address. -/
def sampleInstance (name ip : String) : Resource String := ⟨"Instance", "mesh", name, ip⟩

/-- A database with the given instances and the rows of their addresses. -/
def sampleDB (stored rows : List (Resource String)) : DB String :=
  ⟨Keyed.ofList stored, rows.flatMap sampleStore.entries⟩

/-- A pool over a database in which no call is running. -/
def idlePool (db : DB σ) (ι : Type) : Pool (DBOp σ) DBOp.Res (Except Failure Unit) (DB σ) ι :=
  ⟨db, fun _ => .ret (.ok ())⟩

theorem indexExact_sampleDB (r : Resource String) : IndexExact sampleStore (sampleDB [r] [r]) :=
  fun _ _ _ => hasRow_flatMap_entries

/-- A step of replicas that each run one call, while the database does not fail. -/
def sampleNext {ι : Type} [DecidableEq ι] (calls : ι → Call String)
    (P : Pool (DBOp String) DBOp.Res (Except Failure Unit) (DB String) ι) (act : PoolAct ι) :
    Option (Pool (DBOp String) DBOp.Res (Except Failure Unit) (DB String) ι) :=
  P.next (fun _ => sampleStore.step) (fun i => some ((calls i).prog sampleStore)) (fun _ => none)
    act

theorem poolStep_of_sampleNext {ι : Type} [DecidableEq ι] {calls : ι → Call String}
    (P : Pool (DBOp String) DBOp.Res (Except Failure Unit) (DB String) ι) (act : PoolAct ι)
    (P' : Pool (DBOp String) DBOp.Res (Except Failure Unit) (DB String) ι)
    (h : sampleNext calls P act = some P') : PoolStep (stores sampleStore ι) P act P' := by
  refine Pool.step_of_next (fun _ _ _ => DBSem.run _) (fun i p hp => ?_) ?_ P act P' h
  · exact ⟨calls i, (Option.some.inj hp).symm⟩
  · intro db db' hdb
    cases hdb

/-- Whether a rebuild writes the models of the table as it stands. -/
def rebuildCheck (db : DB String) : DBOp String → Bool
  | .tx (.backfill models) => models = db.resources.items
  | _ => true

/-- One replica starts over a database with one instance: nothing comes between the two steps of its
rebuild, and the index table is exact after it. -/
theorem indexExact_after_init :
    ∃ P, Run (Guarded (OpGuard (RebuildCurrent sampleStore)) (PoolStep (stores sampleStore Unit)))
        (idlePool (sampleDB [sampleInstance "i" "10.0.0.1"] [sampleInstance "i" "10.0.0.1"]) Unit)
        [.start (), .thread (), .thread ()] P ∧ IndexExact sampleStore P.state := by
  have hcheck : ∀ (i : Unit) db o,
      rebuildCheck db o = true → RebuildCurrent sampleStore i db o := by
    rintro - db o hpass models rfl n v k
    rw [of_decide_eq_true hpass]
  obtain ⟨P, hP⟩ : ∃ P, [.start (), .thread (), .thread ()].foldlM
      (fun P act => if P.opCheck (fun _ => rebuildCheck) act then
        sampleNext (fun _ => .init) P act else none)
      (idlePool (sampleDB [sampleInstance "i" "10.0.0.1"] [sampleInstance "i" "10.0.0.1"]) Unit) =
      some P := ⟨_, rfl⟩
  have hrun := Run.of_foldlM (Pool.guarded_of_next hcheck poolStep_of_sampleNext) hP
  exact ⟨P, hrun, indexExact_of_run (fun _ => ⟨_, rfl⟩) (indexExact_sampleDB _) hrun⟩

/-- One replica starts while another adds an instance: the first has read the models before the
second commits, and its rebuild then drops the row of the new instance. -/
theorem backfill_loses_row :
    ∃ P, Run (PoolStep (stores sampleStore Bool))
        (idlePool (sampleDB [sampleInstance "i" "10.0.0.1"] [sampleInstance "i" "10.0.0.1"]) Bool)
        [.start true, .thread true, .start false, .thread false, .thread false, .thread true] P ∧
      IndexExact sampleStore
        (sampleDB [sampleInstance "i" "10.0.0.1"] [sampleInstance "i" "10.0.0.1"]) ∧
      ¬ IndexExact sampleStore P.state := by
  obtain ⟨P, hP, hstate⟩ : ∃ P, [.start true, .thread true, .start false, .thread false,
        .thread false, .thread true].foldlM
      (sampleNext fun i => if i then .init else .add (sampleInstance "j" "10.0.0.2"))
      (idlePool (sampleDB [sampleInstance "i" "10.0.0.1"] [sampleInstance "i" "10.0.0.1"]) Bool) =
      some P ∧ P.state = sampleDB [sampleInstance "i" "10.0.0.1", sampleInstance "j" "10.0.0.2"]
        [sampleInstance "i" "10.0.0.1"] := ⟨_, rfl, rfl⟩
  refine ⟨P, Run.of_foldlM poolStep_of_sampleNext hP, indexExact_sampleDB _, fun hexact => ?_⟩
  rw [hstate] at hexact
  have hrow := (hexact "by-ip" "10.0.0.2" "mesh/j").mpr
    ⟨sampleInstance "j" "10.0.0.2", by decide, by decide, by decide⟩
  obtain ⟨row, hrow, -, -, hvalue, -⟩ := hrow
  obtain rfl := List.mem_singleton.mp hrow
  exact absurd hvalue (by decide)

end DubboAdmin.Gorm
