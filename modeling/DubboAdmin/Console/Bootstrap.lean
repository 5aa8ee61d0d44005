import DubboAdmin.Console.Concurrent

/-!
# Baselines of rules without a history

Two writers record a baseline for a rule that has no history yet: `RecordBootstrapState` of
`pkg/core/versioning/bootstrap.go`, which every replica runs over the stored rules when it starts,
and `ensureBaselineHistory` of the console, before the first edit of a rule. Both look for the
latest version first and insert the baseline in a second step, and nothing holds other calls back in
between.

As long as no other call inserts a version in that time (`InsertsAlone`), whoever owes a baseline
still finds the rule without a history: a baseline is due only after an answer without a version
(`LooksFirst`).
-/

namespace DubboAdmin.Console

open Versioning

variable {σ S ι α β : Type}

/-! ## The calls -/

/-- `LatestVersion`, with `none` for `ErrVersionNotFound`. -/
def latestVersion (kind resourceKey : String) : RuleM σ (Option Version) := do
  let snapshot ← historySnapshot kind resourceKey
  pure snapshot.head

/-- `RecordBootstrapState`. The store and the limit are those of the service. -/
def recordBootstrapState (codec : Codec σ) (svc : Service) (res : Rule σ) : RuleM σ Unit := do
  ensureAvailable svc
  match ← latestVersion res.kind res.resourceKey with
  | some _ => pure ()
  | none => do
    let (hash, specJSON) ← ofExcept (normalizeResource codec res)
    let now ← timeNow
    let req : InsertRequest := {
      ruleKind := res.kind
      resourceKey := res.resourceKey
      specJSON := specJSON
      contentHash := hash
      source := .bootstrap
      operation := .create
      author := "system:bootstrap"
      reason := "initial rule history baseline"
      rolledBackFromVersionNo := none
      createdAt := now }
    let _ ← (insertVersion req svc.maxVersions.toNat).adapt
      (wrapError ("bootstrap version for " ++ res.resourceKey ++ " failed"))
    pure ()

/-- A call that records versions of a rule. -/
inductive HistoryCall (σ : Type) where
  | recordBootstrapState (codec : Codec σ) (svc : Service) (res : Rule σ)
  | ensureBaselineHistory (ctx : Context σ) (res : Rule σ)
  | append (ctx : Context σ) (svc : Service) (res : Rule σ) (op : Operation) (source : Source)
      (author reason : String) (rolledBackFromVersionNo : Option ℤ)

/-- The program of a call, by its error. -/
def HistoryCall.program : HistoryCall σ → RuleM σ Unit
  | .recordBootstrapState codec svc res => Console.recordBootstrapState codec svc res
  | .ensureBaselineHistory ctx res => Console.ensureBaselineHistory ctx res
  | .append ctx svc res op source author reason rolledBackFromVersionNo => do
    let _ ← Console.append ctx svc res op source author reason rolledBackFromVersionNo
    pure ()

/-- The call is about the rule, and leaves baselines to the calls that are there for them. -/
def HistoryCall.Of (id : RuleId) : HistoryCall σ → Prop
  | .recordBootstrapState _ _ res => ruleId res = id
  | .ensureBaselineHistory _ res => ruleId res = id
  | .append _ _ res _ source _ _ _ => ruleId res = id ∧ source ≠ .bootstrap

/-- Calls about the rule that have not yet begun. -/
structure Calls (st : LedgerStore S) (id : RuleId) (P : RequestPool σ S ι) : Prop where
  calls : ∀ i, ∃ c : HistoryCall σ, c.Of id ∧ P.threads i = c.program.run
  sound : Sound st P.state.ledger

/-! ## Baselines that are due -/

/-- The next call of the adapter inserts a baseline. -/
def BaselineDue : RuleProg σ α → Prop
  | .op (.adapter (.insertVersion req _)) _ => req.source = .bootstrap
  | .op .timeNow k => ∃ now, BaselineDue (k now)
  | _ => False

/-- No call about to insert a baseline finds the rule with a recorded version. -/
def BaselinesFirst (st : LedgerStore S) (id : RuleId) (P : RequestPool σ S ι) : Prop :=
  ∀ i req maxVersions k, P.threads i = .op (.adapter (.insertVersion req maxVersions)) k →
    req.source = .bootstrap → history (ruleParent id) (st.stored P.state.ledger).items = []

/-- The condition on a step: a version is inserted only while no other call owes a baseline. -/
def InsertsAlone (P : RequestPool σ S ι) (act : PoolAct ι) : Prop :=
  ∀ i req maxVersions k, act = .thread i →
    P.threads i = .op (.adapter (.insertVersion req maxVersions)) k →
    ∀ j, j ≠ i → ¬ BaselineDue (P.threads j)

/-- The answers after which a baseline may be due: there is no version of the rule, or, where one
was due before, any time. -/
def AllowsBaseline (id : RuleId) : (o : RuleOp σ) → o.Res → Prop
  | .adapter (.historySnapshot kind resourceKey), r =>
    (kind, resourceKey) = id ∧ ∃ snapshot : HistorySnapshot, r = Except.ok snapshot ∧
      snapshot.head = none
  | .timeNow, _ => True
  | _, _ => False

/-- From here on, a baseline is due only after an answer that allows it. -/
def LooksFirst (id : RuleId) : RuleProg σ α → Prop
  | .ret _ => True
  | .op o k => ∀ r, (BaselineDue (k r) → AllowsBaseline id o r) ∧ LooksFirst id (k r)

section Programs

variable {id : RuleId}

theorem baselineDue_bind_ret {p : RuleProg σ α} {g : α → β} :
    BaselineDue (p.bind fun a => .ret (g a)) ↔ BaselineDue p := by
  induction p with
  | ret a => exact Iff.rfl
  | op o k ih =>
    cases o with
    | timeNow => exact exists_congr ih
    | adapter c =>
      cases c with
      | insertVersion _ _ | historySnapshot _ _ | getVersion _ _ _ => exact Iff.rfl
    | _ => exact Iff.rfl

theorem LooksFirst.bind_ret {p : RuleProg σ α} {g : α → β} (h : LooksFirst id p) :
    LooksFirst id (p.bind fun a => .ret (g a)) := by
  induction p with
  | ret a => trivial
  | op o k ih =>
    intro r
    obtain ⟨hallows, hrest⟩ := h r
    exact ⟨fun hdue => hallows (baselineDue_bind_ret.mp hdue), ih r hrest⟩

theorem run_discard (p : RuleM σ α) :
    (do let _ ← p; pure () : RuleM σ Unit).run = p.run.bind fun r => .ret (r.map fun _ => ()) := by
  refine congrArg (Prog.bind p.run) (funext fun r => ?_)
  cases r with
  | error e => rfl
  | ok a => rfl

theorem source_buildInsertRequest {codec : Codec σ} {res : Rule σ} {op : Operation}
    {source : Source} {author reason : String} {rolledBackFromVersionNo : Option ℤ}
    {createdAt : ℤ} {req : InsertRequest} (h : buildInsertRequest codec res op source author reason
      rolledBackFromVersionNo createdAt = .ok req) : req.source = source := by
  unfold buildInsertRequest at h
  cases hnormal : normalizeResource codec res with
  | error e =>
    rw [hnormal] at h
    cases h
  | ok normal =>
    rw [hnormal] at h
    cases h
    rfl

/-- `Append` inserts what it is asked for, and looks for nothing. -/
theorem append_looksFirst (id : RuleId) (ctx : Context σ) (svc : Service) (res : Rule σ)
    (op : Operation) (source : Source) (author reason : String)
    (rolledBackFromVersionNo : Option ℤ) :
    LooksFirst id (append ctx svc res op source author reason rolledBackFromVersionNo).run ∧
      (BaselineDue (append ctx svc res op source author reason rolledBackFromVersionNo).run →
        source = .bootstrap) := by
  unfold append ensureAvailable
  cases svc.hasStore with
  | false => exact ⟨trivial, nofun⟩
  | true =>
    have hrequest : ∀ now : ℤ, LooksFirst id (do
          let req ← ofExcept (buildInsertRequest ctx.codec res op source author reason
            rolledBackFromVersionNo now)
          insertVersion req svc.maxVersions.toNat : RuleM σ Version).run ∧
        (BaselineDue (do
          let req ← ofExcept (buildInsertRequest ctx.codec res op source author reason
            rolledBackFromVersionNo now)
          insertVersion req svc.maxVersions.toNat : RuleM σ Version).run →
          source = .bootstrap) := by
      intro now
      cases hreq : buildInsertRequest ctx.codec res op source author reason
          rolledBackFromVersionNo now with
      | error e => exact ⟨trivial, nofun⟩
      | ok req =>
        have hsource := source_buildInsertRequest hreq
        exact ⟨fun r => ⟨nofun, trivial⟩, fun hdue => hsource.symm.trans hdue⟩
    exact ⟨fun now => ⟨fun _ => trivial, (hrequest now).1⟩,
      fun ⟨now, hdue⟩ => (hrequest now).2 hdue⟩

/-- A look at the history of the rule, after which a baseline is due only without a version. -/
theorem LooksFirst.look {kind resourceKey : String} (hid : (kind, resourceKey) = id)
    {k : Except Failure HistorySnapshot → RuleProg σ α} (herror : ∀ e, ∃ a, k (.error e) = .ret a)
    (hfound : ∀ snapshot v, snapshot.head = some v → ∃ a, k (.ok snapshot) = .ret a)
    (hnone : ∀ snapshot, snapshot.head = none → LooksFirst id (k (.ok snapshot))) :
    LooksFirst id (.op (RuleOp.adapter (.historySnapshot kind resourceKey)) k) := by
  intro r
  have hended : ∀ {p : RuleProg σ α}, (∃ a, p = .ret a) → ¬ BaselineDue p ∧ LooksFirst id p := by
    rintro p ⟨a, rfl⟩
    exact ⟨nofun, trivial⟩
  cases r with
  | error e =>
    obtain ⟨hdue, hrest⟩ := hended (herror e)
    exact ⟨fun h => absurd h hdue, hrest⟩
  | ok snapshot =>
    cases hhead : snapshot.head with
    | none => exact ⟨fun _ => ⟨hid, snapshot, rfl, hhead⟩, hnone snapshot hhead⟩
    | some v =>
      obtain ⟨hdue, hrest⟩ := hended (hfound snapshot v hhead)
      exact ⟨fun h => absurd h hdue, hrest⟩

theorem ensureBaselineHistory_looksFirst (ctx : Context σ) {res : Rule σ} (hid : ruleId res = id) :
    LooksFirst id (ensureBaselineHistory ctx res).run ∧
      ¬ BaselineDue (ensureBaselineHistory ctx res).run := by
  unfold ensureBaselineHistory requiredRuleVersioning
  cases ctx.ruleVersioning with
  | none => exact ⟨trivial, nofun⟩
  | some svc =>
    have happend := (append_looksFirst id ctx svc res .create .bootstrap "system:baseline"
      "import existing rule before first edit" none).1
    show LooksFirst id (ExceptT.run (hasHistory svc res.kind res.mesh res.name >>= _)) ∧
      ¬ BaselineDue (ExceptT.run (hasHistory svc res.kind res.mesh res.name >>= _))
    unfold hasHistory ensureAvailable
    cases svc.hasStore with
    | false => exact ⟨trivial, nofun⟩
    | true =>
      refine ⟨LooksFirst.look hid (fun e => ⟨_, rfl⟩) ?_ ?_, nofun⟩
      · rintro ⟨versions, head, deleted⟩ v rfl
        exact ⟨_, rfl⟩
      · rintro ⟨versions, head, deleted⟩ rfl
        have hbaseline := happend.bind_ret (g := fun r => r.map fun _ => ())
        rw [← run_discard] at hbaseline
        exact hbaseline

theorem recordBootstrapState_looksFirst (codec : Codec σ) (svc : Service) {res : Rule σ}
    (hid : ruleId res = id) :
    LooksFirst id (recordBootstrapState codec svc res).run ∧
      ¬ BaselineDue (recordBootstrapState codec svc res).run := by
  unfold recordBootstrapState ensureAvailable
  cases svc.hasStore with
  | false => exact ⟨trivial, nofun⟩
  | true =>
    refine ⟨LooksFirst.look hid (fun e => ⟨_, rfl⟩) ?_ ?_, nofun⟩
    · rintro ⟨versions, head, deleted⟩ v rfl
      exact ⟨_, rfl⟩
    · rintro ⟨versions, head, deleted⟩ rfl
      cases hnormal : normalizeResource codec res with
      | error e => trivial
      | ok normal =>
        -- The clock, and then the baseline.
        refine fun now => ⟨fun _ => trivial, fun r => ?_⟩
        cases r with
        | error _ | ok _ => exact ⟨nofun, trivial⟩

/-- Every call looks for a version before it inserts a baseline. -/
theorem HistoryCall.looksFirst {c : HistoryCall σ} (hc : c.Of id) :
    LooksFirst id c.program.run ∧ ¬ BaselineDue c.program.run := by
  cases c with
  | recordBootstrapState codec svc res => exact recordBootstrapState_looksFirst codec svc hc
  | ensureBaselineHistory ctx res => exact ensureBaselineHistory_looksFirst ctx hc
  | append ctx svc res op source author reason rolledBackFromVersionNo =>
    obtain ⟨hlooks, hdue⟩ := append_looksFirst id ctx svc res op source author reason
      rolledBackFromVersionNo
    show LooksFirst id (ExceptT.run (do let _ ← Console.append _ _ _ _ _ _ _ _; pure ())) ∧
      ¬ BaselineDue (ExceptT.run (do let _ ← Console.append _ _ _ _ _ _ _ _; pure ()))
    rw [run_discard]
    exact ⟨hlooks.bind_ret, fun h => hc.2 (hdue (baselineDue_bind_ret.mp h))⟩

end Programs

/-! ## Any interleaving -/

section Interleavings

variable {st : LedgerStore S} {id : RuleId} {s s' : RuleState σ S}

/-- A look that finds no version means that none is recorded. -/
theorem history_eq_nil_of_look (h : Sound st s.ledger) {kind resourceKey : String}
    {snapshot : HistorySnapshot}
    (hsem : RuleSem st s (.adapter (.historySnapshot kind resourceKey)) (Except.ok snapshot) s')
    (hhead : snapshot.head = none) :
    history (parentOf kind resourceKey) (st.stored s.ledger).items = [] := by
  cases hsem with
  | adapter c r ledger hruns =>
    obtain ⟨-, hsnapshot⟩ := (ensures_historySnapshotProg h kind resourceKey).of_runs hruns
    rw [hsnapshot snapshot rfl] at hhead
    cases hhistory : history (parentOf kind resourceKey) (st.stored s.ledger).items with
    | nil => rfl
    | cons v versions =>
      rw [hhistory] at hhead
      exact nomatch hhead

variable {o : RuleOp σ} {r : o.Res}

theorem ledger_eq_of_not_insert (h : Sound st s.ledger) (hsem : RuleSem st s o r s')
    (hother : ∀ req maxVersions, o ≠ .adapter (.insertVersion req maxVersions)) :
    s'.ledger = s.ledger := by
  cases hsem with
  | adapter c r ledger hruns =>
    cases c with
    | insertVersion req maxVersions => exact absurd rfl (hother req maxVersions)
    | historySnapshot kind resourceKey =>
      exact ((ensures_historySnapshotProg h kind resourceKey).of_runs hruns).1
    | getVersion kind resourceKey versionNo =>
      exact (ensures_getVersionProg kind resourceKey versionNo).of_runs hruns
  | _ => rfl

/-- The invariant: whoever owes a baseline has found the rule without a version, and none was
recorded since. -/
structure BaselineInv (st : LedgerStore S) (id : RuleId) (P : RequestPool σ S ι) : Prop where
  sound : Sound st P.state.ledger
  looks : ∀ i, LooksFirst id (P.threads i)
  /-- A baseline is due only where there is no version. -/
  due : ∀ i, BaselineDue (P.threads i) →
    history (ruleParent id) (st.stored P.state.ledger).items = []

variable {P : RequestPool σ S ι}

theorem Calls.baselineInv (h : Calls st id P) : BaselineInv st id P where
  sound := h.sound
  looks i := by
    obtain ⟨c, hc, hthread⟩ := h.calls i
    rw [hthread]
    exact (HistoryCall.looksFirst hc).1
  due i hdue := by
    obtain ⟨c, hc, hthread⟩ := h.calls i
    rw [hthread] at hdue
    exact absurd hdue (HistoryCall.looksFirst hc).2

/-- A step of a call after which a baseline is due for it finds the rule without a version, or with
a baseline due before. -/
theorem BaselineInv.due_after (h : BaselineInv st id P) {i : ι}
    {k : o.Res → RuleProg σ (Except Failure Unit)} (hthread : P.threads i = .op o k)
    (hsem : RuleSem st P.state o r s') (hdue : BaselineDue (k r)) :
    history (ruleParent id) (st.stored P.state.ledger).items = [] := by
  have hlooks := h.looks i
  have hbefore := h.due i
  rw [hthread] at hlooks hbefore
  have hallows := (hlooks r).1 hdue
  cases o with
  | timeNow => exact hbefore ⟨r, hdue⟩
  | adapter c =>
    cases c with
    | historySnapshot kind resourceKey =>
      obtain ⟨rfl, snapshot, rfl, hhead⟩ := hallows
      exact history_eq_nil_of_look h.sound hsem hhead
    | insertVersion _ _ | getVersion _ _ _ => exact hallows.elim
  | _ => exact hallows.elim

variable [DecidableEq ι]

/-- A step of a call keeps the invariant, where an insert finds no other call that owes a
baseline. -/
theorem BaselineInv.thread (h : BaselineInv st id P) {i : ι}
    {k : o.Res → RuleProg σ (Except Failure Unit)} (hthread : P.threads i = .op o k)
    (halone : InsertsAlone P (.thread i)) (hsem : RuleSem st P.state o r s') :
    BaselineInv st id ⟨s', Function.update P.threads i (k r)⟩ := by
  have hlooks := h.looks i
  rw [hthread] at hlooks
  have hall : ∀ j, LooksFirst id (Function.update P.threads i (k r) j) :=
    (Function.forall_update_iff P.threads fun _ p => LooksFirst id p).mpr
      ⟨(hlooks r).2, fun j _ => h.looks j⟩
  by_cases hinsert : ∃ req maxVersions, o = .adapter (.insertVersion req maxVersions)
  · -- Nobody owes a baseline afterwards.
    obtain ⟨req, maxVersions, rfl⟩ := hinsert
    have hnone : ∀ j, ¬ BaselineDue (Function.update P.threads i (k r) j) :=
      (Function.forall_update_iff P.threads fun _ p => ¬ BaselineDue p).mpr
        ⟨(hlooks r).1, halone i req maxVersions k rfl hthread⟩
    exact ⟨(append_inserts h.sound hsem).2.1, hall, fun j hdue => absurd hdue (hnone j)⟩
  · have hledger : s'.ledger = P.state.ledger := by
      refine ledger_eq_of_not_insert h.sound hsem fun req maxVersions ho => ?_
      exact hinsert ⟨req, maxVersions, ho⟩
    have hsound : Sound st s'.ledger := hledger ▸ h.sound
    refine ⟨hsound, hall, ?_⟩
    rw [hledger]
    exact (Function.forall_update_iff P.threads fun _ p => BaselineDue p →
      history (ruleParent id) (st.stored P.state.ledger).items = []).mpr
        ⟨h.due_after hthread hsem, fun j _ => h.due j⟩

/-- In every interleaving in which versions are inserted only while no other call owes a baseline, a
baseline is inserted only while the rule has no recorded version. -/
theorem baselines_come_first {P₀ P : RequestPool σ S ι} {acts : List (PoolAct ι)}
    (hcalls : Calls st id P₀)
    (hrun : Run (Guarded InsertsAlone (PoolStep (requests st ι))) P₀ acts P) :
    BaselinesFirst st id P := by
  have hinv : BaselineInv st id P := by
    refine hrun.invariant (BaselineInv st id) hcalls.baselineInv ?_
    rintro P act P' h ⟨halone, hstep⟩
    cases hstep with
    | thread hthread hsem => exact h.thread hthread halone hsem
    | start hthread hstart => exact hstart.elim
    | env henv => exact henv.elim
  intro i req maxVersions k hthread hsource
  refine hinv.due i ?_
  rw [hthread]
  exact hsource

end Interleavings

/-- A replica starts and finds the sample's rule, while an edit of the rule is appended. -/
def startAndEdit : SamplePool :=
  ⟨sampleRules, fun i =>
    if i then (HistoryCall.append sampleContext ⟨0, true⟩ (sampleRule "v2") .update .admin "" ""
      none).program
    else (HistoryCall.recordBootstrapState sampleCodec ⟨0, true⟩ (sampleRule "v1")).program⟩

theorem calls_startAndEdit : Calls memoryLedgerStore sampleId startAndEdit where
  calls i := by
    cases i with
    | false => exact ⟨.recordBootstrapState sampleCodec ⟨0, true⟩ (sampleRule "v1"), rfl, rfl⟩
    | true =>
      exact ⟨.append sampleContext ⟨0, true⟩ (sampleRule "v2") .update .admin "" "" none,
        ⟨rfl, nofun⟩, rfl⟩
  sound := sound_sampleRules

/-- While the edit waits, the start is about to insert its baseline for a rule without a version. -/
theorem baselines_come_first_at_start :
    ∃ P, Run (Guarded InsertsAlone (PoolStep (requests memoryLedgerStore Bool))) startAndEdit
        [.thread false, .thread false] P ∧ BaselineDue (P.threads false) ∧
      BaselinesFirst memoryLedgerStore sampleId P := by
  -- The edit has not begun, and owes no baseline.
  have halone : ∀ P : SamplePool, P.threads true = startAndEdit.threads true →
      InsertsAlone P (.thread false) := by
    rintro P htrue i req maxVersions k ⟨⟩ - j hj
    obtain rfl : j = true := by simpa using hj
    rw [htrue]
    obtain ⟨c, hc, hthread⟩ := calls_startAndEdit.calls true
    rw [hthread]
    exact (HistoryCall.looksFirst hc).2
  obtain ⟨P₁, P₂, hlook, hclock, htrue, hdue⟩ : ∃ P₁ P₂,
      updateNext startAndEdit (.thread false) = some P₁ ∧
      updateNext P₁ (.thread false) = some P₂ ∧
      P₁.threads true = startAndEdit.threads true ∧ BaselineDue (P₂.threads false) :=
    ⟨_, _, rfl, rfl, rfl, rfl⟩
  have h₁ : Run (Guarded InsertsAlone (PoolStep (requests memoryLedgerStore Bool))) startAndEdit
      [.thread false] P₁ :=
    Run.nil.snoc ⟨halone startAndEdit rfl, poolStep_of_updateNext _ _ _ hlook⟩
  have h₂ := h₁.snoc ⟨halone P₁ htrue, poolStep_of_updateNext _ _ _ hclock⟩
  exact ⟨P₂, h₂, hdue, baselines_come_first calls_startAndEdit h₂⟩

/-- The sources of the versions that are recorded for the sample's rule, the newest first. -/
def recordedSources (P : SamplePool) : List Source :=
  (history (ruleParent sampleId) (memoryLedgerStore.stored P.state.ledger).items).map Version.source

/-- Whether the next step inserts a baseline. -/
def insertsBaseline : RuleProg String α → Bool
  | .op (.adapter (.insertVersion req _)) _ => req.source = .bootstrap
  | _ => false

theorem eq_insert_of_insertsBaseline {p : RuleProg String α} (h : insertsBaseline p = true) :
    ∃ req maxVersions k, p = .op (.adapter (.insertVersion req maxVersions)) k ∧
      req.source = .bootstrap := by
  match p with
  | .op (.adapter (.insertVersion req maxVersions)) k =>
    exact ⟨req, maxVersions, k, rfl, of_decide_eq_true h⟩

/-- The start looks for a version, then the edit is appended, and then the start goes on. -/
def editAfterLook : List (PoolAct Bool) :=
  [.thread false, .thread true, .thread true, .thread false]

/-- A start that has found no version inserts its baseline over an edit that came in between: the
newest record of the rule is then the baseline, with the content from before the edit. -/
theorem baseline_over_edit :
    Calls memoryLedgerStore sampleId startAndEdit ∧
      ∃ P P', Run (PoolStep (requests memoryLedgerStore Bool)) startAndEdit editAfterLook P ∧
        ¬ BaselinesFirst memoryLedgerStore sampleId P ∧
        PoolStep (requests memoryLedgerStore Bool) P (.thread false) P' ∧
        recordedSources P' = [.bootstrap, .admin] := by
  have hend : (editAfterLook.foldlM updateNext startAndEdit).map (fun P =>
      (insertsBaseline (P.threads false), recordedSources P,
        (updateNext P (.thread false)).map recordedSources)) =
      some (true, [.admin], some [.bootstrap, .admin]) := by decide +kernel
  obtain ⟨P, hP, hshown⟩ := Option.map_eq_some_iff.mp hend
  obtain ⟨P', hP', hafter⟩ := Option.map_eq_some_iff.mp (congrArg (fun x => x.2.2) hshown)
  have hbefore : recordedSources P = [.admin] := congrArg (fun x => x.2.1) hshown
  obtain ⟨req, maxVersions, k, hthread, hsource⟩ :=
    eq_insert_of_insertsBaseline (congrArg Prod.fst hshown)
  refine ⟨calls_startAndEdit, P, P', Run.of_foldlM poolStep_of_updateNext hP, fun hfirst => ?_,
    poolStep_of_updateNext P _ P' hP', hafter⟩
  have hnone := hfirst false req maxVersions k hthread hsource
  unfold recordedSources at hbefore
  rw [hnone] at hbefore
  exact nomatch hbefore

end DubboAdmin.Console
