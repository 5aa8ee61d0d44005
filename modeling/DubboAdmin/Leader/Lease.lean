import DubboAdmin.Lib.Prog
import DubboAdmin.Resource

/-!
# Leader election

`LeaderElection` of `pkg/core/leader/leader.go`: replicas compete for the one row of
`leader_leases` that belongs to their component. `TryAcquire`, `Renew` and `Release` are programs
over the steps that can interleave with those of other replicas: a reading of the clock, one SQL
statement, or an access to a replica's own fields. The state also records what the replicas have
written, which no step reads. Times are in nanoseconds.
-/

namespace DubboAdmin.Leader

open Prog (perform)

/-- `LeaderLease`: the row of the component. -/
structure LeaderLease where
  holderID : String
  acquiredAt : ℤ
  expiresAt : ℤ
  version : ℤ
deriving DecidableEq, Repr

/-- `LeaderElection`: what is fixed for a replica. -/
structure LeaderElection where
  holderID : String
  leaseDuration : ℤ
  pos : 0 < leaseDuration

/-- The database, the clock, and the fields of the replicas `R`. -/
structure Cluster (R : Type) where
  now : ℤ
  row : Option LeaderLease
  isLeader : R → Bool
  currentVersion : R → ℤ
  written : R → Option LeaderLease
  /-- The versions that were written, each with its writer. -/
  versions : List (R × ℤ)

/-! ## Steps -/

/-- The steps of a replica. -/
inductive LeaseOp where
  /-- `time.Now()`. -/
  | timeNow
  /-- `UPDATE` of the row where `expires_at` is before `now`. -/
  | updateExpired (now expiresAt : ℤ)
  | selectLease
  | createLease (now expiresAt : ℤ)
  /-- `UPDATE` of the row where the holder and the version are the replica's. -/
  | updateHeld (version now expiresAt : ℤ)
  /-- `UPDATE` of `expires_at` where the holder is the replica. -/
  | updateReleased (expiresAt : ℤ)
  | loadLeader
  | storeLeader (b : Bool)
  | loadVersion
  | storeVersion (version : ℤ)

/-- What a step answers: an `UPDATE` the number of rows it has changed. -/
def LeaseOp.Res : LeaseOp → Type
  | .timeNow => ℤ
  | .updateExpired _ _ => Except Failure ℕ
  | .selectLease => Except Failure LeaderLease
  | .createLease _ _ => Except Failure Unit
  | .updateHeld _ _ _ => Except Failure ℕ
  | .updateReleased _ => Except Failure ℕ
  | .loadLeader => Bool
  | .storeLeader _ => Unit
  | .loadVersion => ℤ
  | .storeVersion _ => Unit

section Steps

variable {R : Type} [DecidableEq R]

/-- The replica `i` writes the row, under a new version. -/
def Cluster.write (s : Cluster R) (i : R) (w : LeaderLease) : Cluster R :=
  { s with
    row := some w
    written := Function.update s.written i (some w)
    versions := (i, w.version) :: s.versions }

/-- The replica `i` writes the row, under the version that it has. -/
def Cluster.rewrite (s : Cluster R) (i : R) (w : LeaderLease) : Cluster R :=
  { s with row := some w, written := Function.update s.written i (some w) }

/-- A step of the replica `i`, where the database does not fail. -/
def step (cfg : R → LeaderElection) (i : R) (s : Cluster R) : (o : LeaseOp) → o.Res × Cluster R
  | .timeNow => (s.now, s)
  | .updateExpired now expiresAt =>
    match s.row with
    | some w =>
      if w.expiresAt < now then
        (.ok 1, s.write i ⟨(cfg i).holderID, now, expiresAt, w.version + 1⟩)
      else (.ok 0, s)
    | none => (.ok 0, s)
  | .selectLease =>
    match s.row with
    | some w => (.ok w, s)
    | none => (.error (.err "record not found"), s)
  | .createLease now expiresAt =>
    match s.row with
    | some _ => (.error (.err "duplicated key not allowed"), s)
    | none => (.ok (), s.write i ⟨(cfg i).holderID, now, expiresAt, 1⟩)
  | .updateHeld version now expiresAt =>
    match s.row with
    | some w =>
      if w.holderID = (cfg i).holderID ∧ w.version = version then
        (.ok 1, s.write i ⟨w.holderID, now, expiresAt, w.version + 1⟩)
      else (.ok 0, s)
    | none => (.ok 0, s)
  | .updateReleased expiresAt =>
    match s.row with
    | some w =>
      if w.holderID = (cfg i).holderID then (.ok 1, s.rewrite i { w with expiresAt })
      else (.ok 0, s)
    | none => (.ok 0, s)
  | .loadLeader => (s.isLeader i, s)
  | .storeLeader b => ((), { s with isLeader := Function.update s.isLeader i b })
  | .loadVersion => (s.currentVersion i, s)
  | .storeVersion version =>
    ((), { s with currentVersion := Function.update s.currentVersion i version })

/-- What a step of the replica `i` may do: an SQL statement may also fail and change nothing. -/
inductive StepSem (cfg : R → LeaderElection) (i : R) (s : Cluster R) :
    (o : LeaseOp) → o.Res → Cluster R → Prop
  /-- The step succeeds. -/
  | run (o : LeaseOp) : StepSem cfg i s o (step cfg i s o).1 (step cfg i s o).2
  | failUpdateExpired (now expiresAt : ℤ) (e : Failure) :
      StepSem cfg i s (.updateExpired now expiresAt) (.error e) s
  | failSelectLease (e : Failure) : StepSem cfg i s .selectLease (.error e) s
  | failCreateLease (now expiresAt : ℤ) (e : Failure) :
      StepSem cfg i s (.createLease now expiresAt) (.error e) s
  | failUpdateHeld (version now expiresAt : ℤ) (e : Failure) :
      StepSem cfg i s (.updateHeld version now expiresAt) (.error e) s
  | failUpdateReleased (expiresAt : ℤ) (e : Failure) :
      StepSem cfg i s (.updateReleased expiresAt) (.error e) s

/-- `isLeader` of the replicas after a step of the replica `i`. -/
def isLeaderAfter (i : R) (s : Cluster R) : LeaseOp → R → Bool
  | .storeLeader b => Function.update s.isLeader i b
  | _ => s.isLeader

/-- `currentVersion` of the replicas after a step of the replica `i`. -/
def currentVersionAfter (i : R) (s : Cluster R) : LeaseOp → R → ℤ
  | .storeVersion version => Function.update s.currentVersion i version
  | _ => s.currentVersion

variable {i : R}

theorem fieldsAfter_of_ne {j : R} (hj : j ≠ i) (s : Cluster R) (o : LeaseOp) :
    isLeaderAfter i s o j = s.isLeader j ∧ currentVersionAfter i s o j = s.currentVersion j := by
  cases o with
  | storeLeader b => exact ⟨Function.update_of_ne hj _ _, rfl⟩
  | storeVersion version => exact ⟨rfl, Function.update_of_ne hj _ _⟩
  | _ => exact ⟨rfl, rfl⟩

/-- What a step of the replica `i` does to the row and to the record of what was written: nothing,
or one of the four ways in which a statement writes the row. -/
inductive RowEffect (cfg : R → LeaderElection) (i : R) (s : Cluster R) (o : LeaseOp) :
    Cluster R → Prop
  /-- The row stays as it is. -/
  | unchanged {s' : Cluster R} (hnow : s'.now = s.now) (hrow : s'.row = s.row)
      (hwritten : s'.written = s.written) (hversions : s'.versions = s.versions)
      (hleader : s'.isLeader = isLeaderAfter i s o)
      (hversion : s'.currentVersion = currentVersionAfter i s o) : RowEffect cfg i s o s'
  /-- An expired row is taken over. -/
  | takeOver {w : LeaderLease} {now expiresAt : ℤ} (ho : o = .updateExpired now expiresAt)
      (hrow : s.row = some w) (hexpired : w.expiresAt < now) :
      RowEffect cfg i s o (s.write i ⟨(cfg i).holderID, now, expiresAt, w.version + 1⟩)
  | create {now expiresAt : ℤ} (ho : o = .createLease now expiresAt) (hrow : s.row = none) :
      RowEffect cfg i s o (s.write i ⟨(cfg i).holderID, now, expiresAt, 1⟩)
  /-- The replica extends its own lease. -/
  | extend {w : LeaderLease} {version now expiresAt : ℤ}
      (ho : o = .updateHeld version now expiresAt)
      (hrow : s.row = some w) (hholder : w.holderID = (cfg i).holderID)
      (hversion : w.version = version) :
      RowEffect cfg i s o (s.write i ⟨w.holderID, now, expiresAt, w.version + 1⟩)
  /-- The replica lets its own lease expire. -/
  | release {w : LeaderLease} {expiresAt : ℤ} (ho : o = .updateReleased expiresAt)
      (hrow : s.row = some w) (hholder : w.holderID = (cfg i).holderID) :
      RowEffect cfg i s o (s.rewrite i { w with expiresAt })

/-- Every step has one of these effects. -/
theorem step_effect (cfg : R → LeaderElection) (i : R) (s : Cluster R) (o : LeaseOp) :
    RowEffect cfg i s o (step cfg i s o).2 := by
  have hnothing : isLeaderAfter i s o = s.isLeader → currentVersionAfter i s o = s.currentVersion →
      RowEffect cfg i s o s :=
    fun hleader hversion => .unchanged rfl rfl rfl rfl hleader.symm hversion.symm
  cases o with
  | timeNow | loadLeader | loadVersion => exact hnothing rfl rfl
  | storeLeader _ | storeVersion _ => exact .unchanged rfl rfl rfl rfl rfl rfl
  | updateExpired now expiresAt =>
    unfold step
    cases hrow : s.row with
    | none => exact hnothing rfl rfl
    | some w =>
      dsimp only
      split_ifs with hexpired
      · exact .takeOver rfl hrow hexpired
      · exact hnothing rfl rfl
  | selectLease =>
    unfold step
    cases hrow : s.row with
    | none | some _ => exact hnothing rfl rfl
  | createLease now expiresAt =>
    unfold step
    cases hrow : s.row with
    | some w => exact hnothing rfl rfl
    | none => exact .create rfl hrow
  | updateHeld version now expiresAt =>
    unfold step
    cases hrow : s.row with
    | none => exact hnothing rfl rfl
    | some w =>
      dsimp only
      split_ifs with hheld
      · exact .extend rfl hrow hheld.1 hheld.2
      · exact hnothing rfl rfl
  | updateReleased expiresAt =>
    unfold step
    cases hrow : s.row with
    | none => exact hnothing rfl rfl
    | some w =>
      dsimp only
      split_ifs with hheld
      · exact .release rfl hrow hheld
      · exact hnothing rfl rfl

variable {cfg : R → LeaderElection} {s s' : Cluster R} {o : LeaseOp}

theorem stepSem_effect {res : o.Res} (h : StepSem cfg i s o res s') : RowEffect cfg i s o s' := by
  cases h with
  | run _ => exact step_effect cfg i s o
  | _ => exact .unchanged rfl rfl rfl rfl rfl rfl

theorem effect_fields (h : RowEffect cfg i s o s') :
    s'.isLeader = isLeaderAfter i s o ∧ s'.currentVersion = currentVersionAfter i s o := by
  cases h with
  | unchanged _ _ _ _ hleader hversion => exact ⟨hleader, hversion⟩
  | takeOver ho _ _ | create ho _ | extend ho _ _ _ | release ho _ _ => exact ho ▸ ⟨rfl, rfl⟩

theorem effect_row (h : RowEffect cfg i s o s') :
    (s'.row = s.row ∧ s'.written = s.written) ∨
      ∃ w, s'.row = some w ∧ w.holderID = (cfg i).holderID ∧
        s'.written = Function.update s.written i (some w) := by
  cases h with
  | unchanged _ hrow hwritten _ _ _ => exact .inl ⟨hrow, hwritten⟩
  | takeOver _ _ _ | create _ _ => exact .inr ⟨_, rfl, rfl, rfl⟩
  | extend _ _ hholder _ | release _ _ hholder => exact .inr ⟨_, rfl, hholder, rfl⟩

theorem effect_versions (h : RowEffect cfg i s o s') {p : R × ℤ} (hp : p ∈ s.versions) :
    p ∈ s'.versions := by
  cases h with
  | unchanged _ _ _ hversions _ _ => rwa [hversions]
  | release _ _ _ => exact hp
  | _ => exact List.mem_cons_of_mem _ hp

theorem effect_now (h : RowEffect cfg i s o s') : s'.now = s.now := by
  cases h with
  | unchanged hnow _ _ _ _ _ => exact hnow
  | _ => rfl

end Steps

/-! ## The calls -/

/-- A program of a replica. -/
abbrev LeaseProg (α : Type) := Prog LeaseOp LeaseOp.Res α

/-- `time.Now()`. -/
def timeNow : LeaseProg ℤ := perform LeaseOp.timeNow

/-- The `UPDATE` of `TryAcquire`. -/
def updateExpired (now expiresAt : ℤ) : LeaseProg (Except Failure ℕ) :=
  perform (LeaseOp.updateExpired now expiresAt)

/-- The `SELECT` of `TryAcquire`. -/
def selectLease : LeaseProg (Except Failure LeaderLease) := perform LeaseOp.selectLease

/-- The `INSERT` of `TryAcquire`. -/
def createLease (now expiresAt : ℤ) : LeaseProg (Except Failure Unit) :=
  perform (LeaseOp.createLease now expiresAt)

/-- The `UPDATE` of `Renew`. -/
def updateHeld (version now expiresAt : ℤ) : LeaseProg (Except Failure ℕ) :=
  perform (LeaseOp.updateHeld version now expiresAt)

/-- The `UPDATE` of `Release`. -/
def updateReleased (expiresAt : ℤ) : LeaseProg (Except Failure ℕ) :=
  perform (LeaseOp.updateReleased expiresAt)

/-- `isLeader.Load()`. -/
def loadLeader : LeaseProg Bool := perform LeaseOp.loadLeader

/-- `isLeader.Store(b)`. -/
def storeLeader (b : Bool) : LeaseProg Unit := perform (LeaseOp.storeLeader b)

/-- A reading of `currentVersion`. -/
def loadVersion : LeaseProg ℤ := perform LeaseOp.loadVersion

/-- A writing of `currentVersion`. -/
def storeVersion (version : ℤ) : LeaseProg Unit := perform (LeaseOp.storeVersion version)

/-- The end of a call that did not get or keep the lease. -/
def giveUp : LeaseProg Bool := do
  storeLeader false
  pure false

/-- The end of a `TryAcquire` that has got the lease, under the version it has learned. -/
def becomeLeader (version : ℤ) : LeaseProg Bool := do
  storeVersion version
  storeLeader true
  pure true

def LeaderElection.tryAcquire (le : LeaderElection) : LeaseProg Bool := do
  let now ← timeNow
  let expiresAt := now + le.leaseDuration
  match ← updateExpired now expiresAt with
  | .error _ => giveUp
  | .ok rowsAffected =>
    if rowsAffected > 0 then
      -- The version is read back by a second statement, whoever holds the row by then.
      match ← selectLease with
      | .error _ => giveUp
      | .ok lease => becomeLeader lease.version
    else
      match ← createLease now expiresAt with
      | .error _ => giveUp
      | .ok () => becomeLeader 1

def LeaderElection.renew (le : LeaderElection) : LeaseProg Bool := do
  if ← loadLeader then
    let now ← timeNow
    let expiresAt := now + le.leaseDuration
    let version ← loadVersion
    match ← updateHeld version now expiresAt with
    | .error _ => giveUp
    | .ok rowsAffected =>
      if rowsAffected > 0 then
        let version ← loadVersion
        storeVersion (version + 1)
        pure true
      else giveUp
  else pure false

/-- One second. -/
def second : ℤ := 1000000000

/-- `Release`, whose error is only logged. -/
def LeaderElection.release (_ : LeaderElection) : LeaseProg Unit := do
  storeLeader false
  let now ← timeNow
  let _ ← updateReleased (now - second)
  pure ()

/-! ## Replicas -/

/-- What a thread's last call has returned. -/
inductive Outcome where
  | none
  | tryAcquire (b : Bool)
  | renew (b : Bool)
  | release
deriving DecidableEq, Repr

/-- A call, with the outcome that it leaves. -/
inductive IsCall (le : LeaderElection) : LeaseProg Outcome → Prop
  | tryAcquire : IsCall le (do pure (.tryAcquire (← le.tryAcquire)))
  | renew : IsCall le (do pure (.renew (← le.renew)))
  | release : IsCall le (do le.release; pure .release)

/-- Time passes. -/
def Tick {R : Type} (s s' : Cluster R) : Prop := ∃ t, s.now ≤ t ∧ s' = { s with now := t }

/-- Threads that run calls of replicas, one after the other, over one row and one clock. The thread
`j` belongs to the replica `inst j`. -/
def replicas {R ι : Type} [DecidableEq R] (cfg : R → LeaderElection) (inst : ι → R) :
    PoolSystem LeaseOp LeaseOp.Res Outcome (Cluster R) ι where
  sem j := StepSem cfg (inst j)
  env := Tick
  start j := IsCall (cfg (inst j))

/-- New replicas: none is leader, and none has written. The row and the time are arbitrary. -/
structure NewReplicas {R ι : Type} (P : Pool LeaseOp LeaseOp.Res Outcome (Cluster R) ι) :
    Prop where
  isLeader : ∀ i, P.state.isLeader i = false
  written : ∀ i, P.state.written i = none
  versions : P.state.versions = []
  threads : ∀ j, P.threads j = .ret .none

end DubboAdmin.Leader
