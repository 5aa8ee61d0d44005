import DubboAdmin.Console.MutationOrder

/-!
# Rule mutations are write-ahead

The mutations run one at a time, with any step failing, over a version store with any contents and
any retention limit. `mutations_write_ahead` says what each call does, wherever it stands in the
sequence. The order of the steps gives all of it: an append that succeeds puts its record on top of
the rule's history, whatever failed within it, and between it and the write the call only reads.
-/

namespace DubboAdmin.Console

open Versioning
open Prog (Ensures Log logged)

variable {σ S : Type}

/-! ## What the steps leave -/

section Steps

variable {st : LedgerStore S} {s s' : RuleState σ S}

/-- The newest record of the rule describes the live rule. -/
def Described (codec : Codec σ) (st : LedgerStore S) (id : RuleId) (s : RuleState σ S) : Prop :=
  ∃ v, Newest (ruleParent id) (st.stored s.ledger).items v ∧
    Describes codec v.contentHash v.operation (s.live.get? id)

/-- The snapshot is that of the history that is stored. -/
theorem ensures_historySnapshotProg {l : S} (h : Sound st l) (kind resourceKey : String) :
    Ensures (LedgerSem st) (fun result l' => l' = l ∧ ∀ snapshot, result = .ok snapshot →
      snapshot = historySnapshotFromState
        (.ofVersions (history (parentOf kind resourceKey) (st.stored l).items)))
      (historySnapshotProg kind resourceKey) l := by
  refine Ensures.bind (ensures_historyState h) fun result l₁ h₁ => ?_
  obtain ⟨rfl, hstate⟩ := h₁
  match result with
  | .error e => exact ⟨rfl, nofun⟩
  | .ok state =>
    obtain ⟨-, rfl⟩ := hstate state rfl
    exact ⟨rfl, fun snapshot hsnapshot => (Except.ok.inj hsnapshot).symm⟩

theorem ensures_getVersionProg {l : S} (kind resourceKey : String) (versionNo : ℤ) :
    Ensures (LedgerSem st) (fun _ l' => l' = l) (getVersionProg kind resourceKey versionNo) l := by
  refine Ensures.bind (ensures_getVersionResourceForRule versionNo) fun result l₁ h₁ => ?_
  obtain ⟨rfl, -⟩ := h₁
  match result with
  | .error _ | .ok _ => exact rfl

/-- A step that neither appends nor writes changes nothing. -/
theorem eq_of_reads (h : Sound st s.ledger) {o : RuleOp σ} (hreads : o.Reads) {r : o.Res}
    (hsem : RuleSem st s o r s') : s' = s := by
  cases hsem with
  | adapter c r ledger hruns =>
    have hledger : ledger = s.ledger := by
      cases c with
      | insertVersion req maxVersions => exact hreads.elim
      | historySnapshot kind resourceKey =>
        exact ((ensures_historySnapshotProg h kind resourceKey).of_runs hruns).1
      | getVersion kind resourceKey versionNo =>
        exact (ensures_getVersionProg kind resourceKey versionNo).of_runs hruns
    rw [hledger]
  | write _ | loseWrite _ _ => exact hreads.elim
  | _ => rfl

theorem append_inserts (h : Sound st s.ledger) {req : InsertRequest} {maxVersions : ℕ}
    {r : Except Failure Version}
    (hsem : RuleSem st s (.adapter (.insertVersion req maxVersions)) r s') :
    s'.live = s.live ∧ Inserts st req r s'.ledger := by
  cases hsem with
  | adapter c r ledger hruns =>
    exact ⟨rfl, (insertVersion_newest h req maxVersions).of_runs hruns⟩

theorem possibleAnswer_of_ruleSem {o : RuleOp σ} {r : o.Res} (hsem : RuleSem st s o r s') :
    PossibleAnswer o r := by
  cases hsem with
  | getByKey kind key =>
    intro r hr
    exact (Keyed.get?_eq_some_iff.mp (Except.ok.inj hr)).2
  | failGetByKey kind key e =>
    intro r hr
    cases hr
  | _ => trivial

end Steps

/-! ## The log of a call -/

/-- The steps of a call with their answers. -/
abbrev RuleLog (σ : Type) := Log (RuleOp σ) RuleOp.Res

/-- The registry was written, with this answer. -/
def RuleLog.Writes (log : RuleLog σ) (w : RuleWrite σ) (r : Except Failure Unit) : Prop :=
  (⟨.write w, r⟩ : (o : RuleOp σ) × o.Res) ∈ log

/-- The request was appended, with this answer. -/
def RuleLog.Appends (log : RuleLog σ) (req : InsertRequest) (r : Except Failure Version) : Prop :=
  ∃ maxVersions, (⟨.adapter (.insertVersion req maxVersions), r⟩ : (o : RuleOp σ) × o.Res) ∈ log

/-- Every write is one of the rule, and comes after an append for the rule that has succeeded. -/
def RuleLog.Ahead (id : RuleId) (log : RuleLog σ) : Prop :=
  ∀ before w r after, log = before ++ ⟨.write w, r⟩ :: after →
    w.id = id ∧ ∃ req v, (req.ruleKind, req.resourceKey) = id ∧ RuleLog.Appends before req (.ok v)

/-- No append has failed. -/
def RuleLog.NoFailedAppend (log : RuleLog σ) : Prop := ∀ req e, ¬ log.Appends req (.error e)

/-- Nothing was written. -/
def RuleLog.NoWrite (log : RuleLog σ) : Prop := ∀ w r, ¬ log.Writes w r

section Log

variable {id : RuleId} {log : RuleLog σ}

/-- One more step that is no write, or one after an append for the rule. -/
theorem RuleLog.Ahead.snoc (h : log.Ahead id) {x : (o : RuleOp σ) × o.Res}
    (hx : ∀ w r, x = ⟨.write w, r⟩ → w.id = id ∧
      ∃ req v, (req.ruleKind, req.resourceKey) = id ∧ log.Appends req (.ok v)) :
    RuleLog.Ahead id (log ++ [x]) := by
  intro before w r after heq
  -- The write is the new step, or it is among those before.
  rcases List.eq_nil_or_concat after with rfl | ⟨after, y, rfl⟩
  · obtain ⟨rfl, hlast⟩ := List.append_inj' heq rfl
    exact hx w r (List.cons.inj hlast).1
  · rw [List.concat_eq_append, ← List.cons_append, ← List.append_assoc] at heq
    obtain ⟨rfl, -⟩ := List.append_inj' heq rfl
    exact h before w r after rfl

theorem RuleLog.NoWrite.snoc (h : log.NoWrite) {x : (o : RuleOp σ) × o.Res}
    (hx : ∀ w r, x ≠ ⟨.write w, r⟩) : RuleLog.NoWrite (log ++ [x]) := by
  intro w r hmem
  rcases List.mem_append.mp hmem with hmem | hmem
  · exact h w r hmem
  · exact hx w r (List.mem_singleton.mp hmem).symm

theorem RuleLog.NoFailedAppend.snoc (h : log.NoFailedAppend) {x : (o : RuleOp σ) × o.Res}
    (hx : ∀ req maxVersions e, x ≠ ⟨.adapter (.insertVersion req maxVersions), .error e⟩) :
    RuleLog.NoFailedAppend (log ++ [x]) := by
  rintro req e ⟨maxVersions, hmem⟩
  rcases List.mem_append.mp hmem with hmem | hmem
  · exact h req e ⟨maxVersions, hmem⟩
  · exact hx req maxVersions e (List.mem_singleton.mp hmem).symm

theorem RuleLog.Appends.snoc {req : InsertRequest} {r : Except Failure Version}
    (h : log.Appends req r) (x : (o : RuleOp σ) × o.Res) : RuleLog.Appends (log ++ [x]) req r := by
  obtain ⟨maxVersions, hmem⟩ := h
  exact ⟨maxVersions, List.mem_append_left _ hmem⟩

theorem ne_write_of_reads {o : RuleOp σ} (hreads : o.Reads) (r : o.Res) (w : RuleWrite σ)
    (r' : Except Failure Unit) : (⟨o, r⟩ : (o : RuleOp σ) × o.Res) ≠ ⟨.write w, r'⟩ := by
  intro heq
  obtain rfl := congrArg Sigma.fst heq
  exact hreads

theorem ne_append_of_reads {o : RuleOp σ} (hreads : o.Reads) (r : o.Res) (req : InsertRequest)
    (maxVersions : ℕ) (r' : Except Failure Version) :
    (⟨o, r⟩ : (o : RuleOp σ) × o.Res) ≠ ⟨.adapter (.insertVersion req maxVersions), r'⟩ := by
  intro heq
  obtain rfl := congrArg Sigma.fst heq
  exact hreads

theorem RuleLog.NoWrite.ahead (h : log.NoWrite) : log.Ahead id := by
  rintro before w r after rfl
  exact absurd (List.mem_append_right _ List.mem_cons_self) (h w r)

end Log

/-! ## Calls -/

/-- What a call has done so far, in each phase. -/
def CallInv (codec : Codec σ) (st : LedgerStore S) (id : RuleId) (live : LiveRules σ) (ph : Phase)
    (x : RuleState σ S × RuleLog σ) : Prop :=
  Sound st x.1.ledger ∧ match ph with
    | .idle => x.1.live = live ∧ x.2.NoWrite ∧ x.2.NoFailedAppend
    | .recorded req => x.1.live = live ∧ x.2.NoWrite ∧ x.2.NoFailedAppend ∧
        ∃ v, x.2.Appends req (.ok v) ∧ Recorded st req x.1.ledger v
    | .unrecorded => x.1.live = live ∧ x.2.NoWrite
    | .written => x.2.Ahead id ∧ x.2.NoFailedAppend ∧ Described codec st id x.1
    | .unwritten => x.2.Ahead id ∧ x.2.NoFailedAppend ∧ ∀ w, ¬ x.2.Writes w (.ok ())

section Calls

variable {codec : Codec σ} {st : LedgerStore S} {id : RuleId} {live : LiveRules σ} {ph ph' : Phase}

theorem CallInv.of_open {x : RuleState σ S × RuleLog σ} (h : CallInv codec st id live ph x)
    (hopen : ph.Open) : x.1.live = live ∧ x.2.NoWrite ∧ x.2.NoFailedAppend := by
  cases ph with
  | idle => exact h.2
  | recorded req => exact ⟨h.2.1, h.2.2.1, h.2.2.2.1⟩
  | unrecorded | written | unwritten => exact hopen.elim

/-- A read adds to the log only. -/
theorem CallInv.read {s : RuleState σ S} {log : RuleLog σ}
    (h : CallInv codec st id live ph (s, log)) {o : RuleOp σ} (hreads : o.Reads) (r : o.Res) :
    CallInv codec st id live ph (s, log ++ [⟨o, r⟩]) := by
  have hwrite := ne_write_of_reads hreads r
  have happend := fun req maxVersions e =>
    ne_append_of_reads hreads r req maxVersions (.error e)
  have hahead : log.Ahead id → RuleLog.Ahead id (log ++ [⟨o, r⟩]) :=
    fun h => h.snoc fun w r' heq => absurd heq (hwrite w r')
  obtain ⟨hsound, h⟩ := h
  refine ⟨hsound, ?_⟩
  cases ph with
  | idle => exact ⟨h.1, h.2.1.snoc hwrite, h.2.2.snoc happend⟩
  | recorded req =>
    obtain ⟨hlive, hnowrite, hnofailed, v, happends, hrecorded⟩ := h
    exact ⟨hlive, hnowrite.snoc hwrite, hnofailed.snoc happend, v, happends.snoc _, hrecorded⟩
  | unrecorded => exact ⟨h.1, h.2.snoc hwrite⟩
  | written => exact ⟨hahead h.1, h.2.1.snoc happend, h.2.2⟩
  | unwritten =>
    refine ⟨hahead h.1, h.2.1.snoc happend, fun w hmem => ?_⟩
    rcases List.mem_append.mp hmem with hmem | hmem
    · exact h.2.2 w hmem
    · exact hwrite w _ (List.mem_singleton.mp hmem).symm

theorem described_of_written {s : RuleState σ S} {req : InsertRequest} {v : Version}
    {w : RuleWrite σ} (hrecorded : Recorded st req s.ledger v) (hid : w.id = id)
    (hpublishes : Publishes codec req w) :
    Described codec st id { s with live := w.apply s.live } := by
  subst hid
  have hparent : req.parent = ruleParent w.id := by
    rw [← hpublishes.rule]
    rfl
  refine ⟨v, hparent ▸ hrecorded.newest, ?_⟩
  rw [hrecorded.contentHash, hrecorded.operation]
  show Describes codec req.contentHash req.operation ((w.apply s.live).get? w.id)
  rw [w.get?_apply]
  exact hpublishes.describes

/-- Each step of the order keeps what the call has done. -/
theorem callInv_step {x x' : RuleState σ S × RuleLog σ} {o : RuleOp σ} {r : o.Res}
    (h : CallInv codec st id live ph x) (hsem : logged (RuleSem st) x o r x')
    (hstep : MutationStep codec id ph o r ph') : CallInv codec st id live ph' x' := by
  obtain ⟨s, log⟩ := x
  obtain ⟨s', log'⟩ := x'
  obtain ⟨hsem, hlog⟩ := hsem
  dsimp only at hsem hlog
  subst hlog
  cases hstep with
  | read _ _ _ hreads =>
    obtain rfl := eq_of_reads h.1 hreads hsem
    exact h.read hreads r
  | append hopen req maxVersions v =>
    obtain ⟨hlive, hnowrite, hnofailed⟩ := h.of_open hopen
    obtain ⟨hlive', hsound, hrecorded⟩ := append_inserts h.1 hsem
    have happends : RuleLog.Appends
        (log ++ [⟨.adapter (.insertVersion req maxVersions), .ok v⟩]) req (.ok v) :=
      ⟨maxVersions, List.mem_append_right _ (List.mem_singleton.mpr rfl)⟩
    exact ⟨hsound, hlive'.trans hlive, hnowrite.snoc (fun _ _ heq => nomatch heq),
      hnofailed.snoc (fun _ _ _ heq => nomatch heq), v, happends, hrecorded v rfl⟩
  | failAppend hopen req maxVersions e =>
    obtain ⟨hlive, hnowrite, -⟩ := h.of_open hopen
    obtain ⟨hlive', hsound, -⟩ := append_inserts h.1 hsem
    exact ⟨hsound, hlive'.trans hlive, hnowrite.snoc (fun _ _ heq => nomatch heq)⟩
  | @write req w hid hpublishes =>
    obtain ⟨hsound, -, hnowrite, hnofailed, v, happends, hrecorded⟩ := h
    have hahead : RuleLog.Ahead id (log ++ [⟨.write w, .ok ()⟩]) := by
      refine hnowrite.ahead.snoc fun w' r' heq => ?_
      obtain rfl : w = w' := by
        cases heq
        rfl
      exact ⟨hid, req, v, hpublishes.rule.trans hid, happends⟩
    cases hsem with
    | write w =>
      exact ⟨hsound, hahead, hnofailed.snoc (fun _ _ _ heq => nomatch heq),
        described_of_written hrecorded hid hpublishes⟩
  | @failWrite req w hid hpublishes e =>
    obtain ⟨hsound, -, hnowrite, hnofailed, v, happends, hrecorded⟩ := h
    have hahead : RuleLog.Ahead id (log ++ [⟨.write w, .error e⟩]) := by
      refine hnowrite.ahead.snoc fun w' r' heq => ?_
      obtain rfl : w = w' := by
        cases heq
        rfl
      exact ⟨hid, req, v, hpublishes.rule.trans hid, happends⟩
    have hunwritten : ∀ w', ¬ RuleLog.Writes (log ++ [⟨.write w, .error e⟩]) w' (.ok ()) := by
      intro w' hmem
      rcases List.mem_append.mp hmem with hmem | hmem
      · exact hnowrite w' _ hmem
      · cases List.mem_singleton.mp hmem
    have hsound' : Sound st s'.ledger := by
      cases hsem with
      | failWrite _ _ | loseWrite _ _ => exact hsound
    exact ⟨hsound', hahead, hnofailed.snoc (fun _ _ _ heq => nomatch heq), hunwritten⟩

end Calls

/-! ## Sequences of calls -/

/-- One call, from the state before to the state after it. -/
def MutationCall (ctx : Context σ) (st : LedgerStore S) (s : RuleState σ S) (m : Mutation σ)
    (s' : RuleState σ S) : Prop :=
  ∃ result, (m.program ctx).run.Runs (RuleSem st) s result s'

/-- What a call that starts in `s`, takes the steps of the log and returns the result in `s'` has
done. -/
structure WriteAhead (ctx : Context σ) (st : LedgerStore S) (m : Mutation σ) (s : RuleState σ S)
    (log : RuleLog σ) (result : Except Failure Unit) (s' : RuleState σ S) : Prop where
  /-- Every write to the registry is one of the rule, after a successful append for the rule. -/
  ahead : log.Ahead m.id
  /-- Where an append fails, the live rules are as they were. -/
  closed : ∀ req e, log.Appends req (.error e) → s'.live = s.live
  /-- Where the call returns `nil` after a write, the newest record describes the live rule. -/
  described : result = .ok () → ∀ w, log.Writes w (.ok ()) → Described ctx.codec st m.id s'

section Runs

variable {ctx : Context σ} {st : LedgerStore S} {s s' : RuleState σ S}

/-- What holds of a call at its end. -/
theorem writeAhead_of_callInv {m : Mutation σ} {log : RuleLog σ} {result : Except Failure Unit}
    {ph : Phase} (h : CallInv ctx.codec st m.id s.live ph (s', log))
    (hfinished : result = .ok () → ph = .idle ∨ ph = .written) :
    WriteAhead ctx st m s log result s' := by
  obtain ⟨-, h⟩ := h
  cases ph with
  | idle =>
    exact ⟨h.2.1.ahead, fun req e hfailed => absurd hfailed (h.2.2 req e),
      fun _ w hw => absurd hw (h.2.1 w _)⟩
  | recorded req =>
    exact ⟨h.2.1.ahead, fun req e hfailed => absurd hfailed (h.2.2.1 req e),
      fun _ w hw => absurd hw (h.2.1 w _)⟩
  | unrecorded =>
    exact ⟨h.2.ahead, fun _ _ _ => h.1, fun _ w hw => absurd hw (h.2 w _)⟩
  | written =>
    exact ⟨h.1, fun req e hfailed => absurd hfailed (h.2.1 req e), fun _ _ _ => h.2.2⟩
  | unwritten =>
    exact ⟨h.1, fun req e hfailed => absurd hfailed (h.2.1 req e),
      fun _ w hw => absurd hw (h.2.2 w)⟩

/-- One call is write-ahead, and leaves the store sound. -/
theorem writeAhead_of_runs (h : Sound st s.ledger) {m : Mutation σ} {log : RuleLog σ}
    {result : Except Failure Unit}
    (hruns : (m.program ctx).run.Runs (logged (RuleSem st)) (s, []) result (s', log)) :
    WriteAhead ctx st m s log result s' ∧ Sound st s'.ledger := by
  have hinit : CallInv ctx.codec st m.id s.live .idle (s, []) :=
    ⟨h, rfl, fun _ _ => List.not_mem_nil, fun _ _ ⟨_, hmem⟩ => List.not_mem_nil hmem⟩
  obtain ⟨ph, hfinished, hinv⟩ := Obeys.runs (CallInv ctx.codec st m.id s.live)
    (fun _ _ _ _ hsem => possibleAnswer_of_ruleSem hsem.1)
    (fun _ _ _ _ _ _ hinv hsem hstep => callInv_step hinv hsem hstep) (m.obeys ctx) hruns hinit
  exact ⟨writeAhead_of_callInv hinv fun hok => hfinished () hok, hinv.1⟩

/-- Every sequence of mutations run one at a time, from any live rules and any sound version store,
with any step failing: each call writes to the registry only after it has recorded the rule, leaves
the live rules alone where an append fails, and where it returns `nil` after a write, the newest
record of the rule describes the live rule. -/
theorem mutations_write_ahead {s₀ : RuleState σ S} (h₀ : Sound st s₀.ledger)
    {calls : List (Mutation σ)} (hrun : Run (MutationCall ctx st) s₀ calls s) (m : Mutation σ)
    {log : RuleLog σ} {result : Except Failure Unit}
    (hcall : (m.program ctx).run.Runs (logged (RuleSem st)) (s, []) result (s', log)) :
    WriteAhead ctx st m s log result s' := by
  have hsound : Sound st s.ledger := by
    refine hrun.invariant (fun s => Sound st s.ledger) h₀ fun s m s' hs hstep => ?_
    obtain ⟨result, hruns⟩ := hstep
    obtain ⟨log, hlogged⟩ := hruns.logged []
    exact (writeAhead_of_runs hs hlogged).2
  exact (writeAhead_of_runs hsound hcall).1

/-- Whether a step with its answer is a write that has succeeded. -/
def isWritten : (o : RuleOp σ) → o.Res → Bool
  | .write _, r => Except.toBool (r : Except Failure Unit)
  | _, _ => false

theorem exists_writes_of_any {log : RuleLog σ} (h : (log.any fun x => isWritten x.1 x.2) = true) :
    ∃ w, log.Writes w (.ok ()) := by
  obtain ⟨⟨o, r⟩, hmem, hx⟩ := List.any_eq_true.mp h
  cases o with
  | write w =>
    match r with
    | .ok () => exact ⟨w, hmem⟩
    | .error e => cases hx
  | _ => cases hx

/-- The first call of the sample. -/
def createFirst : Mutation String := .create (sampleRule "v1") ""

/-- The second call of the sample. -/
def updateSecond : Mutation String := .update (sampleRule "v2") ""

/-- The sample after its first call. -/
def afterCreate : Except Failure Unit ×
    RuleState String (Memory.ResourceStore (Option RuleVersion)) :=
  Prog.exec (ruleStep memoryLedgerStore) (createFirst.program sampleContext).run sampleRules

/-- The sample after its second call, with the log of the call. -/
def afterUpdate : Except Failure Unit ×
    (RuleState String (Memory.ResourceStore (Option RuleVersion)) × RuleLog String) :=
  Prog.exec (Prog.loggedStep (ruleStep memoryLedgerStore)) (updateSecond.program sampleContext).run
    (afterCreate.2, [])

/-- A rule is created and then updated. The retention limit of one version leaves only the record of
the update, which describes the rule. -/
theorem mutations_write_ahead_after_create :
    Run (MutationCall sampleContext memoryLedgerStore) sampleRules [createFirst] afterCreate.2 ∧
      (updateSecond.program sampleContext).run.Runs (logged (RuleSem memoryLedgerStore))
        (afterCreate.2, []) (.ok ()) afterUpdate.2 ∧
      (∃ w, RuleLog.Writes afterUpdate.2.2 w (.ok ())) ∧
      Described sampleCodec memoryLedgerStore updateSecond.id afterUpdate.2.1 := by
  have hcreate : Run (MutationCall sampleContext memoryLedgerStore) sampleRules [createFirst]
      afterCreate.2 :=
    .snoc .nil ⟨afterCreate.1, Prog.runs_exec (ruleSem_ruleStep memoryLedgerStore) _ _⟩
  have hupdate : (updateSecond.program sampleContext).run.Runs
      (logged (RuleSem memoryLedgerStore)) (afterCreate.2, []) afterUpdate.1 afterUpdate.2 :=
    Prog.runs_exec (fun x o => ⟨ruleSem_ruleStep memoryLedgerStore x.1 o, rfl⟩) _ _
  have hok : afterUpdate.1 = .ok () := by
    have htrue : afterUpdate.1.toBool = true := by decide +kernel
    match hresult : afterUpdate.1 with
    | .ok () => rfl
    | .error e =>
      rw [hresult] at htrue
      cases htrue
  obtain ⟨w, hwrites⟩ : ∃ w, RuleLog.Writes afterUpdate.2.2 w (.ok ()) :=
    exists_writes_of_any (by decide +kernel)
  rw [hok] at hupdate
  have hahead := mutations_write_ahead sound_sampleRules hcreate updateSecond hupdate
  exact ⟨hcreate, hupdate, ⟨w, hwrites⟩, hahead.described rfl w hwrites⟩

end Runs

end DubboAdmin.Console
