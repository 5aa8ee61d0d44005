import DubboAdmin.Lib.Prog
import DubboAdmin.Resource

/-!
# The database store

`GormStore` of `pkg/store/dbcommon/gorm_store.go`: the resources of a kind in a table of their own,
and their index values in the table `resource_indices`, which all kinds share.

Every mutator is a program over database steps (`DBOp`): a query outside a transaction, or a whole
transaction (`Tx`), which either commits or leaves the database as it is. `DBSem` is what a step may
do, failures included. The queries over index conditions are functions of the database and of the
order in which a `SELECT` without `ORDER BY` returns its rows (`RowOrder`).
-/

namespace DubboAdmin.Gorm

open Strings
open Prog (perform)

variable {σ : Type}

/-! ## The tables -/

/-- `ResourceIndexModel`: one index value of one resource. -/
structure IndexRow where
  resourceKind : String
  indexName : String
  indexValue : String
  resourceKey : String
  operator : IndexOperator
deriving DecidableEq, Repr

/-- The database, as the stores of one kind see it. -/
structure DB (σ : Type) where
  /-- The kind's table, with its unique column `resource_key`. -/
  resources : Contents σ
  indices : List IndexRow

/-- `GormStore`: its kind and the index functions that `Init` registers. -/
structure GormStore (σ : Type) where
  kind : String
  indexers : Indexers σ

/-- `INSERT` into the kind's table, whose `resource_key` is unique. -/
def DB.create (db : DB σ) (r : Resource σ) : Except Failure (DB σ) :=
  match db.resources.get? r.resourceKey with
  | none => .ok { db with resources := db.resources.put r }
  | some _ => .error (.err "duplicated key not allowed")

/-- `DELETE` from `resource_indices` where the row meets a condition. -/
def DB.deleteIndices (db : DB σ) (p : IndexRow → Bool) : DB σ :=
  { db with indices := db.indices.filter fun row => !p row }

/-- `INSERT` of rows into `resource_indices`. -/
def DB.createIndices (db : DB σ) (entries : List IndexRow) : DB σ :=
  { db with indices := db.indices ++ entries }

/-- The index entries of a resource, over all index functions. One that fails yields none. -/
def GormStore.entries (gs : GormStore σ) (r : Resource σ) : List IndexRow :=
  gs.indexers.entries.flatMap fun e => ((e.2 r).getD []).map fun v =>
    ⟨gs.kind, e.1, v, r.resourceKey, .equals⟩

def GormStore.persistIndexEntriesTx (gs : GormStore σ) (tx : DB σ) (resource : Resource σ)
    (oldResource : Option (Resource σ)) : DB σ :=
  match oldResource with
  | some old =>
    (tx.deleteIndices fun row =>
      row.resourceKind = gs.kind ∧ row.resourceKey = old.resourceKey).createIndices
      (gs.entries resource)
  | none => tx.createIndices (gs.entries resource)

/-! ## Transactions

Each transaction's body gives the database that it commits, or the error on which it rolls back. -/

/-- The transaction of `Add`. -/
def GormStore.addTx (gs : GormStore σ) (db : DB σ) (r : Resource σ) : Except Failure (DB σ) := do
  let db ← db.create r
  pure (gs.persistIndexEntriesTx db r none)

/-- The transaction of `Update`, with the resource that was read before it. -/
def GormStore.updateTx (gs : GormStore σ) (db : DB σ) (r oldResource : Resource σ) :
    Except Failure (DB σ) :=
  match db.resources.get? r.resourceKey with
  | none => .error (errorResourceNotFound r.kind r.name r.mesh)
  | some _ => .ok (gs.persistIndexEntriesTx { db with resources := db.resources.put r } r
      (some oldResource))

/-- The transaction of `Delete`. -/
def GormStore.deleteTx (gs : GormStore σ) (db : DB σ) (r : Resource σ) : Except Failure (DB σ) :=
  match db.resources.get? r.resourceKey with
  | none => .error (errorResourceNotFound r.kind r.name r.mesh)
  | some _ => .ok ({ db with resources := db.resources.erase r.resourceKey }.deleteIndices
      fun row => row.resourceKind = gs.kind ∧ row.resourceKey = r.resourceKey)

/-- The two `DELETE`s with which `Replace` starts. -/
def GormStore.deleteAll (gs : GormStore σ) (db : DB σ) : DB σ :=
  { db with resources := Keyed.empty }.deleteIndices fun row => row.resourceKind = gs.kind

/-- The transaction of `Replace`. -/
def GormStore.replaceTx (gs : GormStore σ) (db : DB σ) (list : List (Resource σ)) :
    Except Failure (DB σ) := do
  let db ← list.foldlM DB.create (gs.deleteAll db)
  pure (db.createIndices (list.flatMap gs.entries))

/-- The transaction of `backfillIndices`, with the models that were read before it. -/
def GormStore.backfillTx (gs : GormStore σ) (db : DB σ) (models : List (Resource σ)) : DB σ :=
  (db.deleteIndices fun row => row.resourceKind = gs.kind).createIndices (models.flatMap gs.entries)

/-- The transactions of the mutators, with the values that their bodies close over. -/
inductive Tx (σ : Type) where
  | add (r : Resource σ)
  | update (r oldResource : Resource σ)
  | delete (r : Resource σ)
  | replace (list : List (Resource σ))
  /-- The transaction of `backfillIndices`. -/
  | backfill (models : List (Resource σ))

/-- The body of a transaction. -/
def Tx.run (gs : GormStore σ) (db : DB σ) : Tx σ → Except Failure (DB σ)
  | .add r => gs.addTx db r
  | .update r oldResource => gs.updateTx db r oldResource
  | .delete r => gs.deleteTx db r
  | .replace list => gs.replaceTx db list
  | .backfill models => .ok (gs.backfillTx db models)

/-! ## Database steps -/

/-- The atomic steps on the database. -/
inductive DBOp (σ : Type) where
  /-- `SELECT count(*)` over the rows with the key. -/
  | count (key : String)
  /-- `SELECT` of the row with the key. -/
  | first (key : String)
  /-- `SELECT` of all rows of the kind's table. -/
  | find
  | tx (t : Tx σ)

/-- What a step answers. -/
def DBOp.Res : DBOp σ → Type
  | .count _ => Except Failure ℕ
  | .first _ => Except Failure (Option (Resource σ))
  | .find => Except Failure (List (Resource σ))
  | .tx _ => Except Failure Unit

/-- The answer of a step at which the database fails. -/
def DBOp.fail (e : Failure) : (o : DBOp σ) → o.Res
  | .count _ => .error e
  | .first _ => .error e
  | .find => .error e
  | .tx _ => .error e

/-- A step where the database does not fail. -/
def GormStore.step (gs : GormStore σ) (db : DB σ) : (o : DBOp σ) → o.Res × DB σ
  | .count key => (.ok (if db.resources.get? key = none then 0 else 1), db)
  | .first key => (.ok (db.resources.get? key), db)
  | .find => (.ok db.resources.items, db)
  | .tx t =>
    match t.run gs db with
    | .ok db' => (.ok (), db')
    | .error e => (.error e, db)

theorem GormStore.step_tx_ok {gs : GormStore σ} {db db' : DB σ} {t : Tx σ}
    (h : t.run gs db = .ok db') : gs.step db (.tx t) = (.ok (), db') := by
  simp only [GormStore.step, h]

theorem GormStore.step_tx_error {gs : GormStore σ} {db : DB σ} {t : Tx σ} {e : Failure}
    (h : t.run gs db = .error e) : gs.step db (.tx t) = (.error e, db) := by
  simp only [GormStore.step, h]

/-- What a step may do: what the database does, in any order of the rows, or fail and change
nothing. -/
inductive DBSem (gs : GormStore σ) (db : DB σ) : (o : DBOp σ) → o.Res → DB σ → Prop
  /-- The step succeeds. -/
  | run (o : DBOp σ) : DBSem gs db o (gs.step db o).1 (gs.step db o).2
  /-- A `SELECT` returns its rows in another order. -/
  | order {models : List (Resource σ)} (h : models.Perm db.resources.items) :
      DBSem gs db .find (.ok models) db
  | fail (o : DBOp σ) (e : Failure) : DBSem gs db o (o.fail e) db

/-- A program of a store. -/
abbrev DBProg (σ : Type) (α : Type) := Prog (DBOp σ) DBOp.Res α

/-- The number of rows with the key. -/
def countByKey (key : String) : DBProg σ (Except Failure ℕ) := perform (DBOp.count key)

def getByKey (key : String) : DBProg σ (Except Failure (Option (Resource σ))) :=
  perform (DBOp.first key)

/-- All rows of the kind's table. -/
def findModels : DBProg σ (Except Failure (List (Resource σ))) := perform DBOp.find

def transaction (t : Tx σ) : DBProg σ (Except Failure Unit) := perform (DBOp.tx t)

section Exec

variable {gs : GormStore σ} {db : DB σ}

theorem exec_countByKey (key : String) : Prog.exec gs.step (countByKey key) db =
    (.ok (if db.resources.get? key = none then 0 else 1), db) := rfl

theorem exec_getByKey (key : String) :
    Prog.exec gs.step (getByKey key) db = (.ok (db.resources.get? key), db) := rfl

theorem exec_transaction {db' : DB σ} {t : Tx σ} (h : t.run gs db = .ok db') :
    Prog.exec gs.step (transaction t) db = (.ok (), db') :=
  GormStore.step_tx_ok h

end Exec

/-! ## The mutators -/

/-- The error of `Add` and `Update` for a resource of another kind. -/
def kindMismatch (expected got : String) : Failure :=
  .err ("resource kind mismatch: expected " ++ expected ++ ", got " ++ got)

def GormStore.add (gs : GormStore σ) (r : Resource σ) : DBProg σ (Except Failure Unit) := do
  if r.kind ≠ gs.kind then pure (.error (kindMismatch gs.kind r.kind))
  else
    match ← countByKey r.resourceKey with
    | .error e => pure (.error e)
    | .ok count =>
      if count > 0 then pure (.error (errorResourceAlreadyExists r.kind r.name r.mesh))
      else transaction (.add r)

def GormStore.update (gs : GormStore σ) (r : Resource σ) : DBProg σ (Except Failure Unit) := do
  if r.kind ≠ gs.kind then pure (.error (kindMismatch gs.kind r.kind))
  else
    match ← getByKey r.resourceKey with
    | .error e => pure (.error e)
    | .ok none => pure (.error (errorResourceNotFound r.kind r.name r.mesh))
    | .ok (some oldResource) => transaction (.update r oldResource)

/-- `Delete`, which does not check the kind. -/
def GormStore.delete (_ : GormStore σ) (r : Resource σ) : DBProg σ (Except Failure Unit) :=
  transaction (.delete r)

/-- `Replace`, which does not check the kinds either. -/
def GormStore.replace (_ : GormStore σ) (list : List (Resource σ)) :
    DBProg σ (Except Failure Unit) :=
  transaction (.replace list)

/-- `backfillIndices`: the models are read outside the transaction that rebuilds the rows. -/
def GormStore.backfillIndices (_ : GormStore σ) : DBProg σ (Except Failure Unit) := do
  match ← findModels with
  | .error e => pure (.error e)
  | .ok [] => pure (.ok ())
  | .ok (m :: models) => transaction (.backfill (m :: models))

/-- `Init` on tables that exist, with the index functions registered. -/
def GormStore.init (gs : GormStore σ) : DBProg σ (Except Failure Unit) := do
  match ← gs.backfillIndices with
  | .error (.err msg) =>
    pure (.error (.err ("failed to backfill indices for " ++ gs.kind ++ ": " ++ msg)))
  | result => pure result

/-! ## Queries -/

/-- The order in which a `SELECT` without `ORDER BY` returns its rows. -/
structure RowOrder where
  order : {α : Type} → List α → List α
  perm : ∀ {α : Type} (l : List α), (order l).Perm l

/-- The order of insertion. -/
def RowOrder.insertion : RowOrder := ⟨id, fun l => .refl l⟩

/-- The rows of the kind under an index whose values meet a condition. -/
def GormStore.findEntries (gs : GormStore σ) (ord : RowOrder) (db : DB σ) (indexName : String)
    (p : String → Bool) : List IndexRow :=
  ord.order (db.indices.filter fun row =>
    row.resourceKind = gs.kind ∧ row.indexName = indexName ∧ p row.indexValue)

/-- The resource keys of index rows, each once. -/
def uniqueKeys (entries : List IndexRow) : List String := (entries.map IndexRow.resourceKey).dedup

/-- `GetByKeys`: the rows whose key is one of the given, in the order of the database. -/
def getByKeys (ord : RowOrder) (db : DB σ) (keys : List String) : List (Resource σ) :=
  if keys = [] then []
  else ord.order (db.resources.items.filter fun r => r.resourceKey ∈ keys)

def GormStore.findByIndex (gs : GormStore σ) (ord : RowOrder) (db : DB σ)
    (indexName indexedValue : String) : Except Failure (List (Resource σ)) :=
  if indexName ∈ gs.indexers then
    let entries := gs.findEntries ord db indexName fun v => v = indexedValue
    .ok (getByKeys ord db (uniqueKeys entries))
  else .error (.err ("index " ++ indexName ++ " does not exist"))

def GormStore.byIndex (gs : GormStore σ) (ord : RowOrder) (db : DB σ)
    (indexName indexedValue : String) : Except Failure (List (Resource σ)) :=
  gs.findByIndex ord db indexName indexedValue

def GormStore.indexKeys (gs : GormStore σ) (ord : RowOrder) (db : DB σ)
    (indexName indexedValue : String) : Except Failure (List String) := do
  let resources ← gs.findByIndex ord db indexName indexedValue
  pure (resources.map Resource.resourceKey)

/-- `getKeysByPrefixFromDB`: a `LIKE` with the prefix as it is, and `%` behind it. -/
def GormStore.getKeysByPrefixFromDB (gs : GormStore σ) (ord : RowOrder) (db : DB σ)
    (indexName p : String) : List String :=
  uniqueKeys (gs.findEntries ord db indexName fun v => like (p ++ "%").toList v.toList)

/-- The keys of one condition, by its operator. -/
def GormStore.conditionKeys (gs : GormStore σ) (ord : RowOrder) (db : DB σ)
    (condition : IndexCondition) : Except Failure (List String) :=
  match condition.operator with
  | .equals => gs.indexKeys ord db condition.indexName condition.value
  | .hasPrefix => .ok (gs.getKeysByPrefixFromDB ord db condition.indexName condition.value)
  | .other op => .error (.err ("operator not yet supported: " ++ op))

def GormStore.getKeysByIndexes (gs : GormStore σ) (ord : RowOrder) (db : DB σ)
    (indexes : List IndexCondition) : Except Failure (List String) :=
  keysByIndexes (gs.conditionKeys ord db) indexes

def GormStore.listByIndexes (gs : GormStore σ) (ord : RowOrder) (db : DB σ)
    (indexes : List IndexCondition) : Except Failure (List (Resource σ)) := do
  let keys ← gs.getKeysByIndexes ord db indexes
  pure (sortBy Resource.resourceKey (getByKeys ord db keys))

/-- `PageListByIndexes`: the keys are sorted and cut, and the page is what `GetByKeys` returns for
them. -/
def GormStore.pageListByIndexes (gs : GormStore σ) (ord : RowOrder) (db : DB σ)
    (indexes : List IndexCondition) (pq : PageReq) : Except Failure (PageData (Resource σ)) := do
  let keys ← gs.getKeysByIndexes ord db indexes
  let keys := sortBy id keys
  let total := keys.length
  if pq.pageOffset ≥ total then pure ⟨total, pq.pageOffset, pq.pageSize, []⟩
  else
    let stop := min (pq.pageOffset + pq.pageSize) total
    let pageKeys := (keys.drop pq.pageOffset).take (stop - pq.pageOffset)
    pure ⟨total, pq.pageOffset, pq.pageSize, getByKeys ord db pageKeys⟩

end DubboAdmin.Gorm
