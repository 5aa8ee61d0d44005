import DubboAdmin.Versioning.Append
import DubboAdmin.Versioning.Ledger

/-!
# Inserts that fail

One call of `InsertVersion` under a plan that says which store operations fail and when the context
is cancelled (`Plan`). An operation that fails changes nothing. The versions of the rule are the
same after a call that returns an error, with one exception: the context is looked at once more
after the record was added, so that a call whose context is cancelled while it adds the record
returns an error and leaves the record (`failed_insert_leaves_no_trace_iff`).
-/

namespace DubboAdmin.Versioning

variable {S : Type}

/-! ## Plans -/

/-- What fails during a call, by the number of steps taken before. -/
structure Plan where
  fails : ℕ → Option Failure
  cancelledAt : Option ℕ
  cause : Failure

/-- What `ctx.Err` returns: a context stays cancelled. -/
def Plan.err (plan : Plan) (steps : ℕ) : Option Failure :=
  match plan.cancelledAt with
  | none => none
  | some c => if c ≤ steps then some plan.cause else none

theorem Plan.err_eq_none_of_le {plan : Plan} {m n : ℕ} (hle : m ≤ n) (h : plan.err n = none) :
    plan.err m = none := by
  unfold Plan.err at h ⊢
  cases hat : plan.cancelledAt with
  | none => rfl
  | some c =>
    rw [hat] at h
    have hlate : ¬ c ≤ n := by
      intro hc
      simp [hc] at h
    exact if_neg fun hc => hlate (hc.trans hle)

/-- What a store operation that only reads returns. -/
def Plan.orElse {α : Type} (plan : Plan) (steps : ℕ) (result : Except Failure α) :
    Except Failure α :=
  match plan.fails steps with
  | some e => .error e
  | none => result

/-- The state of the store, and the steps taken so far. -/
structure Planned (S : Type) where
  store : S
  steps : ℕ

/-- A step under a plan. -/
def plannedStep (st : LedgerStore S) (times : ℕ → ℤ) (plan : Plan) (x : Planned S) :
    (o : LedgerOp) → o.Res × Planned S
  | .ctxErr => (plan.err x.steps, ⟨x.store, x.steps + 1⟩)
  | .timeNow => (times x.steps, ⟨x.store, x.steps + 1⟩)
  | .byIndex indexName indexedValue =>
    (plan.orElse x.steps (st.byIndex x.store indexName indexedValue), ⟨x.store, x.steps + 1⟩)
  | .getByKey key => (plan.orElse x.steps (st.getByKey x.store key), ⟨x.store, x.steps + 1⟩)
  | .add rv =>
    match plan.fails x.steps with
    | some e => (.error e, ⟨x.store, x.steps + 1⟩)
    | none => ((st.add x.store rv).1, ⟨(st.add x.store rv).2, x.steps + 1⟩)
  | .delete rv =>
    match plan.fails x.steps with
    | some e => (.error e, ⟨x.store, x.steps + 1⟩)
    | none => ((st.delete x.store rv).1, ⟨(st.delete x.store rv).2, x.steps + 1⟩)

/-- The steps before the record of a request is added. -/
def addAt (req : InsertRequest) : ℕ := if req.createdAt = 0 then 7 else 6

/-- The record that a request adds first. -/
def firstRecord (st : LedgerStore S) (times : ℕ → ℤ) (req : InsertRequest) (s : S) :
    RuleVersionResource :=
  newRuleVersionResource req
    ((HistoryState.ofVersions (history req.parent (st.stored s).items)).maxVersionNo + 1)
    (if req.createdAt = 0 then times 3 else req.createdAt) (times (addAt req - 3))

/-- The call adds its record: the history of the rule can be read, nothing fails, and the context is
not cancelled before. -/
structure Adds (st : LedgerStore S) (times : ℕ → ℤ) (plan : Plan) (req : InsertRequest) (s : S) :
    Prop where
  numbered : Numbered req.parent (st.stored s).items
  read : plan.fails 1 = none
  /-- The context is not cancelled when the record is about to be added. -/
  active : plan.err (addAt req - 1) = none
  adds : plan.fails (addAt req) = none
  accepts : (st.add s (firstRecord st times req s)).1 = .ok ()

/-- The context is cancelled while the call adds its record. -/
structure CancelledInAdd (st : LedgerStore S) (times : ℕ → ℤ) (plan : Plan) (req : InsertRequest)
    (s : S) : Prop extends Adds st times plan req s where
  /-- The context is cancelled when the record is added. -/
  cancelled : plan.err (addAt req + 1) ≠ none

/-! ## The call, step by step -/

section Exec

variable {st : LedgerStore S} (times : ℕ → ℤ) (plan : Plan) {s : S} {n : ℕ}

theorem exec_unlessCancelled_planned {α : Type} (rest : LedgerProg (Except Failure α)) (s : S)
    (n : ℕ) : Prog.exec (plannedStep st times plan) (unlessCancelled rest) ⟨s, n⟩ =
      match plan.err n with
      | some e => (.error e, ⟨s, n + 1⟩)
      | none => Prog.exec (plannedStep st times plan) rest ⟨s, n + 1⟩ := by
  unfold unlessCancelled
  rw [Prog.exec_bind]
  show Prog.exec _ (match plan.err n with | some e => _ | none => _) _ = _
  cases plan.err n with
  | some e => rfl
  | none => rfl

theorem exec_timeNow_planned (s : S) (n : ℕ) :
    Prog.exec (plannedStep st times plan) timeNow ⟨s, n⟩ = (times n, ⟨s, n + 1⟩) := rfl

/-- The history is read as it is, or the read fails. -/
theorem exec_historyState_planned (h : Sound st s) (n : ℕ) (kind resourceKey : String) :
    (∃ e, Prog.exec (plannedStep st times plan) (historyState kind resourceKey) ⟨s, n⟩ =
        (.error e, ⟨s, n + 1⟩) ∧
      ¬ (plan.fails n = none ∧ Numbered (parentOf kind resourceKey) (st.stored s).items)) ∨
    (plan.fails n = none ∧ Numbered (parentOf kind resourceKey) (st.stored s).items ∧
      Prog.exec (plannedStep st times plan) (historyState kind resourceKey) ⟨s, n⟩ =
        (.ok (.ofVersions (history (parentOf kind resourceKey) (st.stored s).items)),
          ⟨s, n + 1⟩)) := by
  have hread : Prog.exec (plannedStep st times plan)
      (byIndex byParentRuleIndexName (buildParentIndexKey kind resourceKey)) ⟨s, n⟩ =
        (plan.orElse n (st.byIndex s byParentRuleIndexName
          (buildParentIndexKey kind resourceKey)), ⟨s, n + 1⟩) := rfl
  unfold historyState
  rw [Prog.exec_bind, hread]
  unfold Plan.orElse
  cases hfails : plan.fails n with
  | some e => exact .inl ⟨e, rfl, fun hboth => by cases hboth.1⟩
  | none =>
    obtain ⟨out, hout, hcases⟩ := historyOf_byIndex h.valid h.exact kind resourceKey
    rw [hout]
    rcases hcases with ⟨hnumbered, hhistory⟩ | ⟨hduplicate, e, herror⟩
    · refine .inr ⟨rfl, hnumbered, ?_⟩
      rw [← hhistory]
      rfl
    · refine .inl ⟨e, ?_, fun hboth => hduplicate hboth.2⟩
      rw [← herror]
      rfl

/-- What is found under the key of a version is a stored record of the rule with the number. -/
theorem exec_getVersionResourceForRule_planned (s : S) (n : ℕ) (kind resourceKey : String)
    (versionNo : ℤ) :
    ∃ result, Prog.exec (plannedStep st times plan)
        (getVersionResourceForRule kind resourceKey versionNo) ⟨s, n⟩ = (result, ⟨s, n + 1⟩) ∧
      ∀ rv, result = .ok rv → ∃ spec, rv ∈ (st.stored s).items ∧
        IsRecord (parentOf kind resourceKey) rv spec ∧ spec.versionNo = versionNo := by
  have hread : Prog.exec (plannedStep st times plan)
      (getByKey (buildVersionResourceKey kind resourceKey versionNo)) ⟨s, n⟩ =
        (plan.orElse n
          (.ok ((st.stored s).get? (buildVersionResourceKey kind resourceKey versionNo))),
          ⟨s, n + 1⟩) := by
    rw [← st.getByKey_eq]
    rfl
  unfold getVersionResourceForRule
  rw [Prog.exec_bind, hread]
  unfold Plan.orElse
  cases plan.fails n with
  | some e => exact ⟨_, rfl, fun rv hrv => by cases hrv⟩
  | none =>
    refine ⟨_, rfl, fun rv hrv => ?_⟩
    obtain ⟨hget, hkind, spec, hspec, hparent, hnumber⟩ := checkVersionResource_eq_ok hrv
    exact ⟨spec, (Keyed.get?_eq_some_iff.mp hget).1, ⟨hkind, hspec, hparent⟩, hnumber⟩

/-- `Add` adds the record, or it fails and changes nothing. -/
theorem exec_add_planned (h : Sound st s) (n : ℕ) {rv : RuleVersionResource}
    (hkind : rv.kind = ruleVersionKind) :
    (plan.fails n = none ∧ (st.add s rv).1 = .ok () ∧
      Prog.exec (plannedStep st times plan) (add rv) ⟨s, n⟩ =
        (.ok (), ⟨(st.add s rv).2, n + 1⟩)) ∨
    (¬ (plan.fails n = none ∧ (st.add s rv).1 = .ok ()) ∧
      ∃ e, Prog.exec (plannedStep st times plan) (add rv) ⟨s, n⟩ = (.error e, ⟨s, n + 1⟩)) := by
  have hstep : Prog.exec (plannedStep st times plan) (add rv) ⟨s, n⟩ =
      plannedStep st times plan ⟨s, n⟩ (.add rv) := rfl
  rw [hstep]
  unfold plannedStep
  cases plan.fails n with
  | some e => exact .inr ⟨fun hadds => (by cases hadds.1), e, rfl⟩
  | none =>
    dsimp only
    rcases st.addsOrFails s rv h.valid (hkind.trans st.kind_eq.symm) with ⟨hok, -⟩ | ⟨e, hadd⟩
    · rw [hok]
      exact .inl ⟨rfl, rfl, rfl⟩
    · rw [hadd]
      exact .inr ⟨fun hadds => (by cases hadds.2), e, rfl⟩

/-- The record is added at the first attempt of the loop. -/
def AddsFirst (st : LedgerStore S) (plan : Plan) (s : S) (n : ℕ) (rv : RuleVersionResource) :
    Prop :=
  plan.err n = none ∧ plan.fails (n + 1) = none ∧ (st.add s rv).1 = .ok ()

/-- The loop adds the record at its first attempt, or fails and leaves the store as it is. There is
no second attempt: the number is above all others, so that the key of an `Add` that has failed
holds no version of the rule. -/
theorem exec_allocate_planned (h : Sound st s) (n : ℕ) (req : InsertRequest)
    (createdAt recordedAt : ℤ) {versionNo : ℤ}
    (habove : ∀ w ∈ history req.parent (st.stored s).items, w.versionNo < versionNo)
    (attempts : ℕ) (addErr : Failure) {rv : RuleVersionResource}
    (hrv : newRuleVersionResource req versionNo createdAt recordedAt = rv) :
    (AddsFirst st plan s n rv ∧ Prog.exec (plannedStep st times plan)
        (allocate req createdAt recordedAt (attempts + 1) versionNo addErr) ⟨s, n⟩ =
        (.ok rv, ⟨(st.add s rv).2, n + 2⟩)) ∨
    (¬ AddsFirst st plan s n rv ∧ ∃ e steps, Prog.exec (plannedStep st times plan)
        (allocate req createdAt recordedAt (attempts + 1) versionNo addErr) ⟨s, n⟩ =
        (.error e, ⟨s, steps⟩)) := by
  unfold allocate AddsFirst
  rw [exec_unlessCancelled_planned, hrv]
  cases plan.err n with
  | some e => exact .inr ⟨fun hadds => (by cases hadds.1), e, n + 1, rfl⟩
  | none =>
    have hkind : rv.kind = ruleVersionKind := by
      rw [← hrv]
      rfl
    rw [Prog.exec_bind]
    rcases exec_add_planned times plan h (n + 1) hkind with ⟨hfails, hok, hadd⟩ | ⟨hnot, e, hadd⟩
    · rw [hadd]
      exact .inl ⟨⟨rfl, hfails, hok⟩, rfl⟩
    · refine .inr ⟨fun hadds => hnot hadds.2, ?_⟩
      rw [hadd]
      obtain ⟨result, hget, hfound⟩ :=
        exec_getVersionResourceForRule_planned times plan s (n + 2) req.ruleKind req.resourceKey
          versionNo
      rw [Prog.exec_bind, hget]
      rcases result with (_ | e) | rv'
      · exact ⟨_, _, rfl⟩
      · exact ⟨_, _, rfl⟩
      · obtain ⟨spec, hmem, hrecord, hnumber⟩ := hfound rv' rfl
        have hlt := habove _ (mem_history.mpr ⟨rv', hmem, spec, hrecord, rfl⟩)
        have hno : spec.toVersion.versionNo = spec.versionNo := rfl
        omega

/-- Once the record is added, the call returns it, unless the context is cancelled by now. -/
theorem exec_finish_planned (s : S) (n : ℕ) (req : InsertRequest) (maxVersions : ℕ)
    {rv : RuleVersionResource} {spec : RuleVersion} (hspec : rv.spec = some spec) :
    (plan.err n = none ∧ ∃ x, Prog.exec (plannedStep st times plan)
      (finish req maxVersions rv) ⟨s, n⟩ = (.ok spec.toVersion, x)) ∨
    ∃ e, plan.err n = some e ∧ Prog.exec (plannedStep st times plan)
      (finish req maxVersions rv) ⟨s, n⟩ = (.error e, ⟨s, n + 1⟩) := by
  unfold finish
  rw [exec_unlessCancelled_planned, hspec]
  cases plan.err n with
  | some e => exact .inr ⟨e, rfl, rfl⟩
  | none =>
    refine .inl ⟨rfl, ?_⟩
    split_ifs
    · rw [Prog.exec_bind]
      exact ⟨_, rfl⟩
    · exact ⟨_, rfl⟩

theorem exec_createdAt_planned (s : S) (req : InsertRequest) :
    Prog.exec (plannedStep st times plan) (createdAt req) ⟨s, 3⟩ =
      (if req.createdAt = 0 then times 3 else req.createdAt, ⟨s, addAt req - 3⟩) := by
  unfold createdAt addAt
  split_ifs
  · rfl
  · rfl

/-- The call from the first number on adds its record and goes on, or fails and leaves the store as
it is. -/
theorem exec_insertFrom_planned (h : Sound st s) (req : InsertRequest) (maxVersions : ℕ)
    {versionNo : ℤ}
    (hnumber : versionNo =
      (HistoryState.ofVersions (history req.parent (st.stored s).items)).maxVersionNo + 1)
    (hnumbered : Numbered req.parent (st.stored s).items) :
    (AddsFirst st plan s (addAt req - 1) (firstRecord st times req s) ∧
      Prog.exec (plannedStep st times plan) (insertFrom req maxVersions versionNo) ⟨s, 3⟩ =
        Prog.exec (plannedStep st times plan) (finish req maxVersions (firstRecord st times req s))
          ⟨(st.add s (firstRecord st times req s)).2, addAt req + 1⟩) ∨
    (¬ AddsFirst st plan s (addAt req - 1) (firstRecord st times req s) ∧ ∃ e steps,
      Prog.exec (plannedStep st times plan) (insertFrom req maxVersions versionNo) ⟨s, 3⟩ =
        (.error e, ⟨s, steps⟩)) := by
  have hthree : addAt req - 3 + 1 + 1 = addAt req - 1 := by
    unfold addAt
    split_ifs <;> rfl
  have hone : addAt req - 1 + 2 = addAt req + 1 := by
    unfold addAt
    split_ifs <;> rfl
  have habove : ∀ w ∈ history req.parent (st.stored s).items, w.versionNo < versionNo := by
    intro w hw
    rw [hnumber]
    exact Int.lt_add_one_of_le (le_maxVersionNo hnumbered.descending hw)
  have hrecord : newRuleVersionResource req versionNo
      (if req.createdAt = 0 then times 3 else req.createdAt) (times (addAt req - 3)) =
        firstRecord st times req s := by
    rw [hnumber]
    rfl
  unfold insertFrom
  rw [Prog.exec_bind, exec_createdAt_planned, Prog.exec_bind, exec_timeNow_planned,
    exec_unlessCancelled_planned]
  cases herr : plan.err (addAt req - 3 + 1) with
  | some e =>
    refine .inr ⟨fun hadds => ?_, e, _, rfl⟩
    cases (Plan.err_eq_none_of_le (by omega) hadds.1).symm.trans herr
  | none =>
    rw [Prog.exec_bind, hthree]
    rcases exec_allocate_planned times plan h (addAt req - 1) req
        (if req.createdAt = 0 then times 3 else req.createdAt) (times (addAt req - 3)) habove 15
        (.err "") hrecord with ⟨hadds, hexec⟩ | ⟨hnot, e, steps, hexec⟩
    · refine .inl ⟨hadds, ?_⟩
      rw [show maxVersionAllocateAttempts = 15 + 1 from rfl, hexec, hone]
    · refine .inr ⟨hnot, e, steps, ?_⟩
      rw [show maxVersionAllocateAttempts = 15 + 1 from rfl, hexec]
      rfl

/-- A call adds its record and goes on, or fails and leaves the store as it is. -/
theorem exec_insertVersion_planned (h : Sound st s) (req : InsertRequest) (maxVersions : ℕ) :
    (Adds st times plan req s ∧
      Prog.exec (plannedStep st times plan) (insertVersion req maxVersions) ⟨s, 0⟩ =
        Prog.exec (plannedStep st times plan) (finish req maxVersions (firstRecord st times req s))
          ⟨(st.add s (firstRecord st times req s)).2, addAt req + 1⟩) ∨
    (¬ Adds st times plan req s ∧ ∃ e steps, Prog.exec (plannedStep st times plan)
      (insertVersion req maxVersions) ⟨s, 0⟩ = (.error e, ⟨s, steps⟩)) := by
  have hadd : addAt req - 1 + 1 = addAt req ∧ 2 ≤ addAt req - 1 := by
    unfold addAt
    split_ifs <;> decide
  have hbefore : ∀ {n e}, n ≤ 2 → plan.err n = some e → ¬ Adds st times plan req s := by
    intro n e hn herr hadds
    cases (Plan.err_eq_none_of_le (hn.trans hadd.2) hadds.active).symm.trans herr
  unfold insertVersion
  rw [exec_unlessCancelled_planned]
  cases h₀ : plan.err 0 with
  | some e => exact .inr ⟨hbefore (by omega) h₀, e, 1, rfl⟩
  | none =>
  rw [Prog.exec_bind]
  rcases exec_historyState_planned times plan h 1 req.ruleKind
      req.resourceKey with ⟨e, hread, hnot⟩ | ⟨hfails, hnumbered, hread⟩
  · refine .inr ⟨fun hadds => hnot ⟨hadds.read, hadds.numbered⟩, e, 2, ?_⟩
    rw [hread]
    rfl
  rw [hread]
  rw [exec_unlessCancelled_planned]
  cases h₂ : plan.err 2 with
  | some e => exact .inr ⟨hbefore le_rfl h₂, e, 3, rfl⟩
  | none =>
  rcases exec_insertFrom_planned times plan h req maxVersions rfl hnumbered
    with ⟨⟨hactive, hadds, haccepts⟩, hexec⟩ | ⟨hnot, e, steps, hexec⟩
  · rw [hadd.1] at hadds
    exact .inl ⟨⟨hnumbered, hfails, hactive, hadds, haccepts⟩, hexec⟩
  · refine .inr ⟨fun hadds => hnot ⟨hadds.active, ?_, hadds.accepts⟩, e, steps, hexec⟩
    rw [hadd.1]
    exact hadds.adds

/-- An added record is a version that the rule did not have. -/
theorem exists_new_version {times : ℕ → ℤ} {plan : Plan} (h : Sound st s) {req : InsertRequest}
    (hadds : Adds st times plan req s) :
    ∃ v, v ∈ history req.parent (st.stored (st.add s (firstRecord st times req s)).2).items ∧
      v ∉ history req.parent (st.stored s).items := by
  have hkind : (firstRecord st times req s).kind = st.kind := st.kind_eq.symm
  have hleaves : st.Leaves s ((st.stored s).put (firstRecord st times req s))
      (st.add s (firstRecord st times req s)).2 := by
    rcases st.addsOrFails s _ h.valid hkind with ⟨-, hleaves⟩ | ⟨e, hfails⟩
    · exact hleaves
    · have haccepts := hadds.accepts
      rw [hfails] at haccepts
      cases haccepts
  rw [hleaves.stored]
  refine ⟨_, mem_history.mpr ⟨_, Keyed.mem_put.mpr (.inl rfl), _, ⟨rfl, rfl, rfl⟩, rfl⟩,
    fun hold => ?_⟩
  have hle := le_maxVersionNo hadds.numbered.descending hold
  have hlt : ∀ n : ℤ, ¬ n + 1 ≤ n := fun n => by omega
  exact hlt _ hle

end Exec

/-- The versions of a rule are the same after a call that returns an error, unless the context is
cancelled while the call adds its record. -/
theorem failed_insert_leaves_no_trace_iff {st : LedgerStore S} {s : S} (h : Sound st s)
    (times : ℕ → ℤ) (plan : Plan) (req : InsertRequest) (maxVersions : ℕ) :
    (∀ e x, Prog.exec (plannedStep st times plan) (insertVersion req maxVersions) ⟨s, 0⟩ =
        (.error e, x) →
      ∀ v, v ∈ history req.parent (st.stored x.store).items ↔
        v ∈ history req.parent (st.stored s).items) ↔
    ¬ CancelledInAdd st times plan req s := by
  rcases exec_insertVersion_planned times plan h req maxVersions with
    ⟨hadds, hexec⟩ | ⟨hnot, e, steps, hexec⟩
  · have hspec : ∃ spec, (firstRecord st times req s).spec = some spec := ⟨_, rfl⟩
    obtain ⟨spec, hspec⟩ := hspec
    rw [hexec]
    rcases exec_finish_planned times plan
        (st.add s (firstRecord st times req s)).2 (addAt req + 1) req maxVersions hspec with
      ⟨hactive, x, hfinish⟩ | ⟨e, hcancelled, hfinish⟩
    · refine iff_of_true (fun e' x' hexec' => ?_) fun hin => hin.cancelled hactive
      rw [hfinish] at hexec'
      cases hexec'
    · refine iff_of_false (fun hsame => ?_) fun hnot => hnot ⟨hadds, ?_⟩
      · obtain ⟨v, hnew, hold⟩ := exists_new_version h hadds
        exact hold ((hsame e _ hfinish v).mp hnew)
      · rw [hcancelled]
        exact nofun
  · refine iff_of_true (fun e' x' hexec' v => ?_) fun hin => hnot hin.toAdds
    rw [hexec] at hexec'
    obtain ⟨-, rfl⟩ := Prod.mk.inj hexec'
    exact Iff.rfl

/-- A context that is cancelled after the given number of steps, where nothing else fails. -/
def cancelledAfter (steps : ℕ) : Plan := ⟨fun _ => none, some steps, .err "context canceled"⟩

/-- A call whose context is cancelled before the record is added returns an error and leaves an
empty store empty. -/
theorem failed_insert_cancelled_early :
    ¬ CancelledInAdd memoryLedgerStore (fun n => n) (cancelledAfter 6) sampleRequest
        (Memory.init ruleVersionIndexers) ∧
      ∀ e x, Prog.exec (plannedStep memoryLedgerStore (fun n => n) (cancelledAfter 6))
          (insertVersion sampleRequest 1) ⟨Memory.init ruleVersionIndexers, 0⟩ = (.error e, x) →
        ∀ v, v ∈ history sampleRequest.parent (memoryLedgerStore.stored x.store).items ↔
          v ∈ history sampleRequest.parent
            (memoryLedgerStore.stored (Memory.init ruleVersionIndexers)).items := by
  have hearly : ¬ CancelledInAdd memoryLedgerStore (fun n => n) (cancelledAfter 6) sampleRequest
      (Memory.init ruleVersionIndexers) := by
    intro hin
    have hactive : (cancelledAfter 6).err 6 = none := hin.active
    cases hactive
  have hsound : Sound memoryLedgerStore (Memory.init ruleVersionIndexers) := ⟨rfl, trivial⟩
  exact ⟨hearly, (failed_insert_leaves_no_trace_iff hsound _ _ _ _).mpr hearly⟩

/-- A call whose context is cancelled while it adds its record returns an error and leaves a version
in a store that was empty. -/
theorem cancelled_insert_leaves_version :
    ∃ e x v, Prog.exec (plannedStep memoryLedgerStore (fun n => n) (cancelledAfter 7))
        (insertVersion sampleRequest 1) ⟨Memory.init ruleVersionIndexers, 0⟩ = (.error e, x) ∧
      history sampleRequest.parent
        (memoryLedgerStore.stored (Memory.init ruleVersionIndexers)).items = [] ∧
      history sampleRequest.parent (memoryLedgerStore.stored x.store).items = [v] :=
  ⟨_, _, _, rfl, rfl, rfl⟩

end DubboAdmin.Versioning
