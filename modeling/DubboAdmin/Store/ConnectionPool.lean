import DubboAdmin.Lib.Runs
import Mathlib.Data.Int.Basic
import Mathlib.Data.List.Basic

/-!
# The connection pools of the database stores

`pkg/store/dbcommon/connection_pool.go`: stores of one type and address share a connection pool,
which is closed when the last of them has closed it. `GetOrCreatePool` increments the count of
references under `poolsMutex`, the mutex of the registry, while `IncrementRef` and `Close` change it
under the mutex `mu` of the pool. So their critical sections overlap, and a section is modelled as
the steps that read and write the count.

Where no section of `GetOrCreatePool` overlaps with one of `IncrementRef` or `Close` of the same
pool, no pool is closed that somebody obtained and has not closed (`held_pool_open`).
-/

namespace DubboAdmin.Dbcommon

/-- `storecfg.Type`. -/
inductive StoreType where
  | memory
  | mysql
  | postgres
deriving DecidableEq, Repr

/-- The type as it is written. -/
def StoreType.text : StoreType → String
  | .memory => "memory"
  | .mysql => "mysql"
  | .postgres => "postgres"

/-- `poolKey` of a type and an address. -/
def poolKeyOf (storeType : StoreType) (address : String) : String :=
  storeType.text ++ ":" ++ address

/-- Where a call is in its critical section under `mu`. -/
inductive Section (H : Type) where
  /-- `IncrementRef`, for a new holder, is about to read the count. -/
  | incrementing (holder : H)
  /-- `IncrementRef` has read the count. -/
  | incremented (n : ℤ) (holder : H)
  /-- `Close`, of a pool that is not closed, is about to read the count. -/
  | closing
  /-- `Close` has read the count. -/
  | decrementing (n : ℤ)
  /-- `Close` has decremented the count, and is about to compare it. -/
  | comparing
  /-- `Close` has closed the connections, and is about to call `RemovePool`. -/
  | removing
deriving DecidableEq, Repr

/-- `ConnectionPool`, with who has its mutex, and its holders. -/
structure ConnectionPool (H : Type) where
  storeType : StoreType
  address : String
  refCount : ℤ
  closeOnce : Bool
  closed : Bool
  mu : Option (Section H)
  /-- Who obtained the pool and has not called `Close`. -/
  holders : List H
deriving DecidableEq, Repr

/-- The key of a pool in the registry. -/
def ConnectionPool.poolKey {H : Type} (p : ConnectionPool H) : String :=
  poolKeyOf p.storeType p.address

/-- Where a call of `GetOrCreatePool` that found a pool is in its critical section. -/
inductive Getting (H : Type) where
  /-- It is about to read the count of the pool. -/
  | found (id : ℕ) (holder : H)
  /-- It has read the count. -/
  | read (id : ℕ) (n : ℤ) (holder : H)
deriving DecidableEq, Repr

/-- The pool that was found. -/
def Getting.id {H : Type} : Getting H → ℕ
  | .found id _ | .read id _ _ => id

/-- All pools that were created, and the registry. -/
structure Pools (H : Type) where
  all : List (ConnectionPool H)
  pools : String → Option ℕ
  /-- `poolsMutex`, where a call has it that found a pool. -/
  poolsMutex : Option (Getting H)

namespace Pools

variable {H : Type}

/-- No pools. -/
def start : Pools H := ⟨[], fun _ => none, none⟩

/-- A pool is changed. -/
def set (s : Pools H) (id : ℕ) (p : ConnectionPool H) : Pools H := { s with all := s.all.set id p }

/-- `NewConnectionPool`, for its first holder. -/
def newConnectionPool (storeType : StoreType) (address : String) (holder : H) : ConnectionPool H :=
  ⟨storeType, address, 1, false, false, none, [holder]⟩

/-- A step. A call waits where the mutex it needs is taken. -/
inductive Action (H : Type) where
  /-- `GetOrCreatePool` enters its section. The flag says that the database can be opened. -/
  | getOrCreatePool (storeType : StoreType) (address : String) (opens : Bool) (holder : H)
  /-- `GetOrCreatePool` goes on in its section. -/
  | getting
  /-- `IncrementRef` of a holder enters its section, for a new holder. -/
  | incrementRef (id : ℕ) (holder newHolder : H)
  /-- `Close` of a holder enters its section. -/
  | close (id : ℕ) (holder : H)
  /-- The call that has the mutex of the pool goes on in its section. -/
  | advance (id : ℕ)
  | removePool (storeType : StoreType) (address : String)

/-- `GetOrCreatePool` up to where it has found a pool. It leaves its section where it creates one or
fails. -/
def enterGet (s : Pools H) (storeType : StoreType) (address : String) (opens : Bool) (holder : H) :
    Pools H :=
  if storeType = .memory then s
  else match s.pools (poolKeyOf storeType address) with
    | some id => { s with poolsMutex := some (.found id holder) }
    | none =>
      if opens then
        { s with
          all := s.all ++ [newConnectionPool storeType address holder]
          pools := Function.update s.pools (poolKeyOf storeType address) (some s.all.length) }
      else s

/-- `GetOrCreatePool` from there: `existingPool.refCount++`, and the return. -/
def advanceGet (s : Pools H) : Getting H → Option (Pools H)
  | .found id holder => (s.all[id]?).map fun p =>
    { s with poolsMutex := some (.read id p.refCount holder) }
  | .read id n holder => (s.all[id]?).map fun p =>
    { s.set id { p with refCount := n + 1, holders := holder :: p.holders } with
      poolsMutex := none }

def removePool (s : Pools H) (storeType : StoreType) (address : String) : Pools H :=
  { s with pools := Function.update s.pools (poolKeyOf storeType address) none }

/-- The next step of a section under `mu`. The connections of a pool are never `nil`. -/
def advancePool (s : Pools H) (id : ℕ) (p : ConnectionPool H) : Section H → Option (Pools H)
  | .incrementing holder => some (s.set id { p with mu := some (.incremented p.refCount holder) })
  | .incremented n holder =>
    some (s.set id { p with refCount := n + 1, holders := holder :: p.holders, mu := none })
  | .closing => some (s.set id { p with mu := some (.decrementing p.refCount) })
  | .decrementing n => some (s.set id { p with refCount := n - 1, mu := some .comparing })
  | .comparing =>
    if p.refCount ≤ 0 ∧ p.closeOnce = false then
      some (s.set id { p with closeOnce := true, closed := true, mu := some .removing })
    else some (s.set id { p with mu := none })
  | .removing =>
    if s.poolsMutex.isSome then none
    else some ((s.set id { p with mu := none }).removePool p.storeType p.address)

/-- The state after a step, where it can be taken. Only holders call `IncrementRef` and `Close`, and
who calls `Close` is a holder no more. -/
def next [DecidableEq H] (s : Pools H) : Action H → Option (Pools H)
  | .getOrCreatePool storeType address opens holder =>
    if s.poolsMutex.isSome then none else some (s.enterGet storeType address opens holder)
  | .getting => s.poolsMutex.bind s.advanceGet
  | .incrementRef id holder newHolder =>
    match s.all[id]? with
    | none => none
    | some p =>
      if p.mu = none ∧ holder ∈ p.holders then
        some (s.set id { p with mu := some (.incrementing newHolder) })
      else none
  | .close id holder =>
    match s.all[id]? with
    | none => none
    | some p =>
      if p.mu = none ∧ holder ∈ p.holders then
        let p := { p with holders := p.holders.erase holder }
        some (s.set id (if p.closed then p else { p with mu := some .closing }))
      else none
  | .advance id =>
    match s.all[id]? with
    | none => none
    | some p => p.mu.bind (s.advancePool id p)
  | .removePool storeType address =>
    if s.poolsMutex.isSome then none else some (s.removePool storeType address)

/-- The steps. -/
def Step [DecidableEq H] (s : Pools H) (a : Action H) (s' : Pools H) : Prop := s.next a = some s'

/-- The section that the step enters overlaps with no other one on the count of the same pool:
`GetOrCreatePool` finds a pool whose mutex is free, and `IncrementRef` and `Close` enter while
`GetOrCreatePool` is not at their pool. -/
def Apart (s : Pools H) : Action H → Prop
  | .getOrCreatePool storeType address _ _ =>
    ∀ id ∈ s.pools (poolKeyOf storeType address), ∀ p ∈ s.all[id]?, p.mu = none
  | .incrementRef id _ _ | .close id _ => ∀ g ∈ s.poolsMutex, g.id ≠ id
  | .getting | .advance _ | .removePool _ _ => True

/-- A run can be checked. -/
instance (s : Pools H) : (a : Action H) → Decidable (Apart s a)
  | .getOrCreatePool storeType address _ _ => inferInstanceAs (Decidable
      (∀ id ∈ s.pools (poolKeyOf storeType address), ∀ p ∈ s.all[id]?, p.mu = none))
  | .incrementRef id _ _ | .close id _ =>
    inferInstanceAs (Decidable (∀ g ∈ s.poolsMutex, g.id ≠ id))
  | .getting | .advance _ | .removePool _ _ => inferInstanceAs (Decidable True)

end Pools

/-! ## The count is the number of holders -/

/-- The reference of a holder whose `Close` has not given it back. -/
def owed {H : Type} : Option (Section H) → ℤ
  | some .closing | some (.decrementing _) => 1
  | _ => 0

/-- The count that the call with the mutex has read. -/
def readCount {H : Type} : Option (Section H) → Option ℤ
  | some (.incremented n _) | some (.decrementing n) => some n
  | _ => none

/-- What holds of each pool where the sections are apart. -/
structure ConnectionPool.Counted {H : Type} (p : ConnectionPool H) : Prop where
  once : p.closeOnce = p.closed
  count : p.closed = false → p.refCount = p.holders.length + owed p.mu
  seen : ∀ n, readCount p.mu = some n → p.refCount = n
  /-- A call has the mutex of a closed pool where it is about to remove it. -/
  busy : ∀ section_, p.mu = some section_ → (p.closed = true ↔ section_ = .removing)
  unheld : p.closed = true → p.holders = []

theorem ConnectionPool.Counted.of_open {H : Type} {p : ConnectionPool H} (hopen : p.closed = false)
    (honce : p.closeOnce = false) (hcount : p.refCount = p.holders.length + owed p.mu)
    (hseen : ∀ n, readCount p.mu = some n → p.refCount = n) (hmu : p.mu ≠ some .removing) :
    p.Counted where
  once := honce.trans hopen.symm
  count := fun _ => hcount
  seen := hseen
  busy := by
    rintro section_ hsection
    rw [hopen]
    refine iff_of_false Bool.false_ne_true ?_
    rintro rfl
    exact hmu hsection
  unheld := fun hclosed => absurd (hclosed.symm.trans hopen) (by decide)

theorem ConnectionPool.Counted.open_of_mem {H : Type} {p : ConnectionPool H} (h : p.Counted)
    {holder : H} (hholder : holder ∈ p.holders) : p.closed = false := by
  refine Bool.eq_false_iff.mpr fun hclosed => ?_
  rw [h.unheld hclosed] at hholder
  exact absurd hholder List.not_mem_nil

namespace Pools

variable {H : Type} {s s' : Pools H} {id : ℕ} {p p' : ConnectionPool H}

/-- The count that `GetOrCreatePool` has read. -/
def seenByGet : Getting H → Option ℤ
  | .found _ _ => none
  | .read _ n _ => some n

/-- The pool may be in the registry. -/
def Registrable (key : String) (p : ConnectionPool H) : Prop :=
  p.poolKey = key ∧ (p.closed = true → p.mu = some .removing)

/-- `GetOrCreatePool` has found this pool. -/
structure Found (g : Getting H) (p : ConnectionPool H) : Prop where
  free : p.mu = none
  isOpen : p.closed = false
  seen : ∀ n, seenByGet g = some n → p.refCount = n

/-- What holds where the sections are apart. -/
structure PoolsInv (s : Pools H) : Prop where
  counted : ∀ (id : ℕ) (p : ConnectionPool H), s.all[id]? = some p → p.Counted
  registered : ∀ key id, s.pools key = some id → ∃ p, s.all[id]? = some p ∧ Registrable key p
  found : ∀ g, s.poolsMutex = some g → ∃ p, s.all[g.id]? = some p ∧ Found g p

theorem poolsInv_start : PoolsInv (start : Pools H) where
  counted := fun id p h => absurd h (by simp [start])
  registered := fun key id h => nomatch h
  found := fun g h => nomatch h

theorem getElem?_set_self (s : Pools H) (hp : s.all[id]? = some p) :
    (s.set id p').all[id]? = some p' := by
  have hlt : id < s.all.length := (List.getElem?_eq_some_iff.mp hp).1
  exact List.getElem?_set_self hlt

theorem getElem?_set_cases {id' : ℕ} {q : ConnectionPool H} (h : (s.set id p').all[id']? = some q) :
    id' = id ∧ q = p' ∨ id' ≠ id ∧ s.all[id']? = some q := by
  by_cases hid : id' = id
  · subst hid
    obtain ⟨hlt, heq⟩ := List.getElem?_eq_some_iff.mp h
    refine .inl ⟨rfl, ?_⟩
    rw [← heq]
    exact List.getElem_set_self _
  · refine .inr ⟨hid, ?_⟩
    rwa [set, List.getElem?_set_ne (Ne.symm hid)] at h

/-- A pool is changed that `GetOrCreatePool` is not at. -/
theorem PoolsInv.set (h : PoolsInv s) (hp : s.all[id]? = some p) (hcounted : p'.Counted)
    (hregistrable : ∀ key, s.pools key = some id → Registrable key p → Registrable key p')
    (hapart : ∀ g, s.poolsMutex = some g → g.id ≠ id) : PoolsInv (s.set id p') where
  counted := by
    intro id' q hq
    rcases getElem?_set_cases hq with ⟨-, rfl⟩ | ⟨-, hq⟩
    · exact hcounted
    · exact h.counted id' q hq
  registered := by
    intro key id' hid'
    obtain ⟨q, hq, hqkey⟩ := h.registered key id' hid'
    by_cases hid : id' = id
    · subst hid
      obtain rfl : p = q := Option.some.inj (hp.symm.trans hq)
      exact ⟨p', getElem?_set_self s hp, hregistrable key hid' hqkey⟩
    · refine ⟨q, ?_, hqkey⟩
      rwa [Pools.set, List.getElem?_set_ne (Ne.symm hid)]
  found := by
    intro g hg
    obtain ⟨q, hq, hfound⟩ := h.found g hg
    refine ⟨q, ?_, hfound⟩
    rwa [Pools.set, List.getElem?_set_ne (Ne.symm (hapart g hg))]

/-- A pool stays open, with another count and other holders. -/
theorem PoolsInv.set_open (h : PoolsInv s) (hp : s.all[id]? = some p) (hopen : p.closed = false)
    {refCount : ℤ} {mu : Option (Section H)} {holders : List H}
    (hcount : refCount = holders.length + owed mu)
    (hseen : ∀ n, readCount mu = some n → refCount = n) (hmu : mu ≠ some .removing)
    (hapart : ∀ g, s.poolsMutex = some g → g.id ≠ id) :
    PoolsInv (s.set id { p with refCount, mu, holders }) := by
  have honce := (h.counted id p hp).once.trans hopen
  refine h.set hp (.of_open hopen honce hcount hseen hmu)
    (fun key _ hregistrable => ⟨hregistrable.1, ?_⟩) hapart
  exact fun hclosed => absurd (hclosed.symm.trans hopen) (by decide)

theorem PoolsInv.release (h : PoolsInv s) : PoolsInv { s with poolsMutex := none } :=
  ⟨h.counted, h.registered, fun _ hg => nomatch hg⟩

theorem PoolsInv.removePool (h : PoolsInv s) (storeType : StoreType) (address : String) :
    PoolsInv (s.removePool storeType address) where
  counted := h.counted
  registered := by
    intro key id hid
    unfold Pools.removePool at hid
    dsimp only at hid
    by_cases hkey : key = poolKeyOf storeType address
    · rw [hkey, Function.update_self] at hid
      cases hid
    · rw [Function.update_of_ne hkey] at hid
      exact h.registered key id hid
  found := h.found

theorem counted_newConnectionPool (storeType : StoreType) (address : String) (holder : H) :
    (newConnectionPool storeType address holder).Counted :=
  .of_open rfl rfl rfl (fun _ hn => nomatch hn) (fun hmu => nomatch hmu)

/-- A pool is created. -/
theorem PoolsInv.create (h : PoolsInv s) (hnone : s.poolsMutex = none) (storeType : StoreType)
    (address : String) (holder : H) :
    PoolsInv { s with
      all := s.all ++ [newConnectionPool storeType address holder]
      pools := Function.update s.pools (poolKeyOf storeType address) (some s.all.length) } where
  counted := by
    intro id p hp
    rcases Nat.lt_trichotomy id s.all.length with hlt | rfl | hgt
    · rw [List.getElem?_append_left hlt] at hp
      exact h.counted id p hp
    · rw [List.getElem?_concat_length] at hp
      rw [← Option.some.inj hp]
      exact counted_newConnectionPool storeType address holder
    · rw [List.getElem?_eq_none (by rw [List.length_append, List.length_singleton]; omega)] at hp
      cases hp
  registered := by
    intro key id hid
    dsimp only at hid ⊢
    by_cases hkey : key = poolKeyOf storeType address
    · rw [hkey, Function.update_self] at hid
      rw [← Option.some.inj hid, List.getElem?_concat_length]
      exact ⟨_, rfl, hkey.symm, fun hclosed => nomatch hclosed⟩
    · rw [Function.update_of_ne hkey] at hid
      obtain ⟨p, hp, hregistrable⟩ := h.registered key id hid
      have hlt : id < s.all.length := (List.getElem?_eq_some_iff.mp hp).1
      exact ⟨p, by rw [List.getElem?_append_left hlt, hp], hregistrable⟩
  found := by
    intro g hg
    rw [hnone] at hg
    cases hg

/-- `GetOrCreatePool` enters its section, where no other section is at the pool that it finds. -/
theorem PoolsInv.enterGet (h : PoolsInv s) (hnone : s.poolsMutex = none) {storeType : StoreType}
    {address : String} {opens : Bool} {holder : H}
    (hapart : Apart s (.getOrCreatePool storeType address opens holder)) :
    PoolsInv (s.enterGet storeType address opens holder) := by
  unfold Pools.enterGet
  by_cases hmemory : storeType = .memory
  · rw [if_pos hmemory]
    exact h
  · rw [if_neg hmemory]
    cases hpool : s.pools (poolKeyOf storeType address) with
    | some id =>
      refine ⟨h.counted, h.registered, fun g hg => ?_⟩
      cases hg
      obtain ⟨p, hp, -, hclosed⟩ := h.registered _ id hpool
      have hfree : p.mu = none := hapart id hpool p hp
      refine ⟨p, hp, hfree, ?_, fun n hn => nomatch hn⟩
      -- A closed pool would still be about to be removed.
      cases hc : p.closed with
      | false => rfl
      | true =>
        rw [hclosed hc] at hfree
        cases hfree
    | none =>
      split_ifs with hopens
      · exact h.create hnone storeType address holder
      · exact h

/-- `GetOrCreatePool` goes on. -/
theorem PoolsInv.advanceGet (h : PoolsInv s) {g : Getting H} (hg : s.poolsMutex = some g)
    (hnext : s.advanceGet g = some s') : PoolsInv s' := by
  obtain ⟨p, hp, hfound⟩ := h.found g hg
  cases g with
  | found id holder =>
    obtain ⟨q, hq, rfl⟩ := Option.map_eq_some_iff.mp hnext
    obtain rfl : p = q := Option.some.inj (hp.symm.trans hq)
    refine ⟨h.counted, h.registered, fun g' hg' => ?_⟩
    cases hg'
    exact ⟨p, hp, hfound.free, hfound.isOpen, fun n hn => Option.some.inj hn⟩
  | read id n holder =>
    obtain ⟨q, hq, rfl⟩ := Option.map_eq_some_iff.mp hnext
    obtain rfl : p = q := Option.some.inj (hp.symm.trans hq)
    have hn : p.refCount = n := hfound.seen n rfl
    have hcount := (h.counted id p hp).count hfound.isOpen
    rw [hfound.free] at hcount
    refine h.release.set_open hp hfound.isOpen ?_ ?_ ?_ fun _ hg' => nomatch hg'
    · rw [hfound.free, List.length_cons]
      push_cast
      omega
    · rw [hfound.free]
      exact fun _ hm => nomatch hm
    · rw [hfound.free]
      exact nofun

/-- The call that has the mutex of a pool goes on. -/
theorem PoolsInv.advancePool (h : PoolsInv s) (hp : s.all[id]? = some p) {section_ : Section H}
    (hmu : p.mu = some section_) (hnext : s.advancePool id p section_ = some s') :
    PoolsInv s' := by
  have hcounted := h.counted id p hp
  -- `GetOrCreatePool` would have found the mutex free.
  have hapart : ∀ g, s.poolsMutex = some g → g.id ≠ id := by
    rintro g hg rfl
    obtain ⟨q, hq, hfound⟩ := h.found g hg
    obtain rfl : p = q := Option.some.inj (hp.symm.trans hq)
    have hfree := hfound.free
    rw [hmu] at hfree
    cases hfree
  have hopen : section_ ≠ .removing → p.closed = false := by
    intro hsection
    exact Bool.eq_false_iff.mpr fun hclosed => hsection ((hcounted.busy _ hmu).mp hclosed)
  have hcount : section_ ≠ .removing → p.refCount = p.holders.length + owed (some section_) :=
    fun hsection => hmu ▸ hcounted.count (hopen hsection)
  have hseen := hcounted.seen
  rw [hmu] at hseen
  unfold Pools.advancePool at hnext
  cases section_ with
  | incrementing holder =>
    cases hnext
    exact h.set_open hp (hopen nofun) (hcount nofun) (fun n hn => Option.some.inj hn) nofun hapart
  | incremented n holder =>
    have hcount := hcount nofun
    rw [hseen n rfl] at hcount
    cases hnext
    refine h.set_open hp (hopen nofun) ?_ (fun _ hm => nomatch hm) nofun hapart
    show n + 1 = ((holder :: p.holders).length : ℤ) + 0
    rw [List.length_cons]
    dsimp only [owed] at hcount
    omega
  | closing =>
    cases hnext
    exact h.set_open hp (hopen nofun) (hcount nofun) (fun n hn => Option.some.inj hn) nofun hapart
  | decrementing n =>
    have hcount := hcount nofun
    rw [hseen n rfl] at hcount
    cases hnext
    refine h.set_open hp (hopen nofun) ?_ (fun _ hm => nomatch hm) nofun hapart
    show n - 1 = (p.holders.length : ℤ) + 0
    dsimp only [owed] at hcount
    omega
  | comparing =>
    have hcount := hcount nofun
    dsimp only at hnext
    split_ifs at hnext with hlast
    · cases hnext
      -- The last holder has given its reference back.
      have hholders : p.holders = [] := by
        dsimp only [owed] at hcount
        exact List.length_eq_zero_iff.mp (by omega)
      refine h.set hp ⟨rfl, fun hc => (nomatch hc), fun _ hn => (nomatch hn), ?_,
        fun _ => hholders⟩ (fun _ _ hregistrable => ⟨hregistrable.1, fun _ => rfl⟩) hapart
      rintro section_ hsection
      exact iff_of_true rfl (Option.some.inj hsection).symm
    · cases hnext
      exact h.set_open hp (hopen nofun) hcount (fun _ hn => nomatch hn) nofun hapart
  | removing =>
    have hclosed : p.closed = true := (hcounted.busy _ hmu).mpr rfl
    dsimp only at hnext
    split_ifs at hnext
    cases hnext
    have hcounted' : ConnectionPool.Counted { p with mu := none } :=
      ⟨hcounted.once, fun hopen => absurd (hclosed.symm.trans hopen) (by decide),
        fun _ hn => (nomatch hn), fun _ hsection => (nomatch hsection), hcounted.unheld⟩
    -- The pool is no longer under its key.
    refine (h.removePool p.storeType p.address).set hp hcounted' (fun key hkey hregistrable => ?_)
      hapart
    rw [← hregistrable.1] at hkey
    exact absurd hkey (by simp [Pools.removePool, ConnectionPool.poolKey])

/-- Every step that keeps the sections apart keeps the invariant. -/
theorem PoolsInv.step [DecidableEq H] (h : PoolsInv s) {a : Action H}
    (hstep : Guarded Apart Step s a s') : PoolsInv s' := by
  obtain ⟨hapart, hnext⟩ := hstep
  unfold Step next at hnext
  cases a with
  | getOrCreatePool storeType address opens holder =>
    split_ifs at hnext with hfree
    cases hnext
    exact h.enterGet (Option.not_isSome_iff_eq_none.mp hfree) hapart
  | getting =>
    obtain ⟨g, hg, hadvance⟩ := Option.bind_eq_some_iff.mp hnext
    exact h.advanceGet hg hadvance
  | incrementRef id holder newHolder =>
    dsimp only at hnext
    cases hp : s.all[id]? with
    | none =>
      rw [hp] at hnext
      cases hnext
    | some p =>
      rw [hp] at hnext
      dsimp only at hnext
      split_ifs at hnext with hcall
      obtain ⟨hmu, hholder⟩ := hcall
      cases hnext
      have hcounted := h.counted id p hp
      have hopen := hcounted.open_of_mem hholder
      have hcount := hcounted.count hopen
      rw [hmu] at hcount
      exact h.set_open hp hopen hcount (fun _ hn => nomatch hn) nofun hapart
  | close id holder =>
    dsimp only at hnext
    cases hp : s.all[id]? with
    | none =>
      rw [hp] at hnext
      cases hnext
    | some p =>
      rw [hp] at hnext
      dsimp only at hnext
      split_ifs at hnext with hcall hclosed
      · exact absurd (hclosed.symm.trans ((h.counted id p hp).open_of_mem hcall.2)) (by decide)
      · obtain ⟨hmu, hholder⟩ := hcall
        cases hnext
        have hcounted := h.counted id p hp
        have hopen := hcounted.open_of_mem hholder
        have hcount := hcounted.count hopen
        rw [hmu] at hcount
        -- The reference stays counted until it is given back.
        have hlength : (p.holders.erase holder).length + 1 = p.holders.length := by
          rw [List.length_erase_of_mem hholder]
          have hpos := List.length_pos_of_mem hholder
          omega
        refine h.set_open hp hopen ?_ (fun _ hn => nomatch hn) nofun hapart
        show p.refCount = ((p.holders.erase holder).length : ℤ) + 1
        dsimp only [owed] at hcount
        omega
  | advance id =>
    dsimp only at hnext
    cases hp : s.all[id]? with
    | none =>
      rw [hp] at hnext
      cases hnext
    | some p =>
      rw [hp] at hnext
      obtain ⟨section_, hmu, hadvance⟩ := Option.bind_eq_some_iff.mp hnext
      exact h.advancePool hp hmu hadvance
  | removePool storeType address =>
    split_ifs at hnext
    cases hnext
    exact h.removePool storeType address

/-- In every interleaving in which the sections of `GetOrCreatePool` on a pool are apart from those
of `IncrementRef` and `Close`, no pool is closed that somebody obtained and has not closed. -/
theorem held_pool_open [DecidableEq H] {actions : List (Action H)}
    (hrun : Run (Guarded Apart Step) start actions s) {id : ℕ} {p : ConnectionPool H}
    (hp : s.all[id]? = some p) {holder : H} (hholder : holder ∈ p.holders) : p.closed = false := by
  have hinv : PoolsInv s := hrun.invariant PoolsInv poolsInv_start fun _ _ _ h hstep =>
    h.step hstep
  exact (hinv.counted id p hp).open_of_mem hholder

/-- Two stores of an address, one after the other. -/
def sampleActions : List (Action String) :=
  [.getOrCreatePool .mysql "db" true "a", .getOrCreatePool .mysql "db" true "b", .getting, .getting,
    .close 0 "a", .advance 0, .advance 0, .advance 0]

/-- The second store has an open pool after the first one has closed it. -/
theorem sample_pool_open : ∃ s p, Run (Guarded Apart Step) start sampleActions s ∧
    s.all[0]? = some p ∧ p.holders = ["b"] ∧ p.closed = false := by
  obtain ⟨s, p, hrun, hp, hholders⟩ : ∃ (s : Pools String) (p : ConnectionPool String),
      sampleActions.foldlM (fun s a => if Apart s a then s.next a else none) start = some s ∧
        s.all[0]? = some p ∧ p.holders = ["b"] := ⟨_, _, rfl, rfl, rfl⟩
  have hrun := Run.of_foldlM (Guarded.of_next fun _ _ _ h => h) hrun
  have hholder : "b" ∈ p.holders := by
    rw [hholders]
    exact List.mem_singleton_self "b"
  exact ⟨s, p, hrun, hp, hholders, held_pool_open hrun hp hholder⟩

/-- `b` obtains the pool of `a` while `Close` of `a` is about to remove it, and it is closed. Or `b`
has read the count when `a` calls `IncrementRef` for `c`, so that one increment is lost, and the
pool is closed under `b` when `a` and `c` have closed it. -/
theorem closed_under_holder :
    (∃ s, Run Step start
        [.getOrCreatePool .mysql "db" true "a", .close 0 "a", .advance 0, .advance 0, .advance 0,
          .getOrCreatePool .mysql "db" true "b", .getting, .getting] s ∧
      ∃ p, s.all[0]? = some p ∧ p.holders = ["b"] ∧ p.closed = true) ∧
    ∃ s, Run Step start
        [.getOrCreatePool .mysql "db" true "a", .getOrCreatePool .mysql "db" true "b", .getting,
          .incrementRef 0 "a" "c", .advance 0, .advance 0, .getting,
          .close 0 "a", .advance 0, .advance 0, .advance 0,
          .close 0 "c", .advance 0, .advance 0, .advance 0] s ∧
      ∃ p, s.all[0]? = some p ∧ p.holders = ["b"] ∧ p.closed = true := by
  constructor
  · exact ⟨_, Run.of_foldlM (fun _ _ _ h => h) rfl, _, rfl, rfl, rfl⟩
  · exact ⟨_, Run.of_foldlM (fun _ _ _ h => h) rfl, _, rfl, rfl, rfl⟩

end Pools

end DubboAdmin.Dbcommon
