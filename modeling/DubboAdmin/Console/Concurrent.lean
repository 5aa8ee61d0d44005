import DubboAdmin.Console.WriteAhead

/-!
# Concurrent rule mutations without a lock

Without a lock manager, as with the memory store, the steps of different mutations come in any
order: each call of the adapter and each write to the registry is one step. Nothing orders an append
and the write that follows it, so that two requests may write in the other order than they have
appended in, and the newest record then describes the rule that was overwritten
(`later_append_overwritten`).

As long as no other request appends between a request's append and its write, the history ends up
right (`concurrent_mutations_described`).
-/

namespace DubboAdmin.Console

open Versioning

variable {σ S ι : Type}

/-! ## Requests -/

/-- Requests over one version store and one registry. Each runs once. -/
def requests (st : LedgerStore S) (ι : Type) :
    PoolSystem (RuleOp σ) RuleOp.Res (Except Failure Unit) (RuleState σ S) ι where
  sem _ := RuleSem st
  env _ _ := False
  start _ _ := False

/-- The requests, what they have still to do, and the state that they share. -/
abbrev RequestPool (σ S ι : Type) :=
  Pool (RuleOp σ) RuleOp.Res (Except Failure Unit) (RuleState σ S) ι

/-- Mutations of the rule that have not yet begun, in a console without a lock manager. -/
structure Requests (ctx : Context σ) (st : LedgerStore S) (id : RuleId) (P : RequestPool σ S ι) :
    Prop where
  unlocked : ctx.lockManager = false
  mutations : ∀ i, ∃ m : Mutation σ, m.id = id ∧ P.threads i = (m.program ctx).run
  sound : Sound st P.state.ledger

/-- The request that has called the append last, after an operation of the request `i`. -/
def lastAppender (i : ι) (last : Option ι) : RuleOp σ → Option ι
  | .adapter (.insertVersion _ _) => some i
  | _ => last

/-- Requests, where it is noted which of them has called the append last. -/
abbrev notedRequests (st : LedgerStore S) (ι : Type) :
    PoolSystem (RuleOp σ) RuleOp.Res (Except Failure Unit) (RuleState σ S × Option ι) ι :=
  (requests st ι).noting lastAppender

/-- The condition on a write to the registry: the request that writes has appended last, so that no
other request has appended since. -/
def AppendedLast (i : ι) (s : RuleState σ S × Option ι) (o : RuleOp σ) : Prop :=
  ∀ w, o = .write w → s.2 = some i

/-! ## Owed writes -/

/-- The mutation has appended, or tried to, and has not written since. -/
def Phase.Owes : Phase → Prop
  | .idle => False
  | .written => False
  | _ => True

/-- The newest record is that of the request that has appended last, while it is to write, and the
newest record describes the rule unless nothing has happened yet or a request owes a write. -/
structure OwedInv (codec : Codec σ) (st : LedgerStore S) (id : RuleId) (s₀ : RuleState σ S)
    (phases : ι → Phase) (s : RuleState σ S × Option ι) : Prop where
  sound : Sound st s.1.ledger
  recorded : ∀ i req, phases i = .recorded req → s.2 = some i → ∃ v, Recorded st req s.1.ledger v
  owed : s.1 = s₀ ∨ Described codec st id s.1 ∨ ∃ i, (phases i).Owes

section Owed

variable [DecidableEq ι] {codec : Codec σ} {st : LedgerStore S} {id : RuleId} {s₀ : RuleState σ S}
  {s : RuleState σ S} {last : Option ι} {phases : ι → Phase} {i : ι}

/-- An append leaves a request that owes a write and, where it succeeds, the newest record of its
own; what the others have recorded is no longer the newest. -/
theorem OwedInv.of_append (h : OwedInv codec st id s₀ phases (s, last)) {req : InsertRequest}
    {maxVersions : ℕ} {r : Except Failure Version} {s' : RuleState σ S}
    (hsem : RuleSem st s (.adapter (.insertVersion req maxVersions)) r s') (ph : Phase)
    (howes : ph.Owes) (hph : ∀ req', ph = .recorded req' → req' = req ∧ ∃ v, r = .ok v) :
    OwedInv codec st id s₀ (Function.update phases i ph) (s', some i) := by
  obtain ⟨-, hsound, hrecorded⟩ := append_inserts h.sound hsem
  refine ⟨hsound, fun j req' hj hlast => ?_, .inr (.inr ⟨i, by rwa [Function.update_self]⟩)⟩
  cases hlast
  rw [Function.update_self] at hj
  obtain ⟨rfl, v, rfl⟩ := hph req' hj
  exact ⟨v, hrecorded v rfl⟩

/-- A write, or a failed one, keeps the ledger and who has appended last. -/
theorem OwedInv.of_write (h : OwedInv codec st id s₀ phases (s, last)) (live : LiveRules σ)
    (ph : Phase) (hph : ∀ req, ph ≠ .recorded req)
    (howed : Described codec st id { s with live } ∨ ph.Owes) :
    OwedInv codec st id s₀ (Function.update phases i ph) ({ s with live }, last) := by
  refine ⟨h.sound, fun j req hj hlast => ?_, .inr (howed.imp_right fun howes => ?_)⟩
  · by_cases hij : j = i
    · subst hij
      rw [Function.update_self] at hj
      exact absurd hj (hph req)
    · rw [Function.update_of_ne hij] at hj
      exact h.recorded j req hj hlast
  · exact ⟨i, by rwa [Function.update_self]⟩

/-- Each step of a request keeps the invariant, where a request that writes has appended last. -/
theorem owedInv_step (h : OwedInv codec st id s₀ phases (s, last)) {o : RuleOp σ} {r : o.Res}
    {s' : RuleState σ S} {ph : Phase} (hgood : AppendedLast i (s, last) o)
    (hsem : RuleSem st s o r s') (hstep : MutationStep codec id (phases i) o r ph) :
    OwedInv codec st id s₀ (Function.update phases i ph) (s', lastAppender i last o) := by
  generalize hph : phases i = ph₀ at hstep
  cases hstep with
  | read _ _ _ hreads =>
    obtain rfl := eq_of_reads h.sound hreads hsem
    have hlast : lastAppender i last o = last := by
      unfold lastAppender
      split
      · exact hreads.elim
      · rfl
    rwa [hlast, ← hph, Function.update_eq_self]
  | append hopen req maxVersions v =>
    exact h.of_append hsem (.recorded req) trivial
      fun req' heq => ⟨(Phase.recorded.inj heq).symm, v, rfl⟩
  | failAppend hopen req maxVersions e =>
    exact h.of_append hsem .unrecorded trivial fun _ heq => nomatch heq
  | @write req w hid hpublishes =>
    -- The newest record is the one that this request has appended, and it writes what that says.
    obtain ⟨v, hrecorded⟩ := h.recorded i req hph (hgood w rfl)
    cases hsem with
    | write w =>
      exact h.of_write _ .written (fun _ heq => nomatch heq)
        (.inl (described_of_written hrecorded hid hpublishes))
  | @failWrite req w hid hpublishes e =>
    cases hsem with
    | failWrite w e =>
      exact h.of_write s.live .unwritten (fun _ heq => nomatch heq) (.inr trivial)
    | loseWrite w e => exact h.of_write _ .unwritten (fun _ heq => nomatch heq) (.inr trivial)

/-- Any number of concurrent mutations of one rule, in any interleaving. When no other request
appends between a request's append and its write, then once all requests have finished with `nil`
the newest record describes the live rule, if it did at the start or anything has changed. -/
theorem concurrent_mutations_described {ctx : Context σ} {P₀ : RequestPool σ S ι}
    (hrequests : Requests ctx st id P₀) {acts : List (PoolAct ι)}
    {P : Pool (RuleOp σ) RuleOp.Res (Except Failure Unit) (RuleState σ S × Option ι) ι}
    (hrun : Run (Guarded (OpGuard AppendedLast) (PoolStep (notedRequests st ι))) (P₀.noted none)
      acts P)
    (hfinished : ∀ i, P.threads i = .ret (.ok ()))
    (hstart : Described ctx.codec st id P₀.state ∨ P.state.1 ≠ P₀.state) :
    Described ctx.codec st id P.state.1 := by
  have hinit : (P₀.noted none).Obeying (mutationOrder ctx.codec id)
      (fun ph r => ∀ a, r = .ok a → Finished ph a) (OwedInv ctx.codec st id P₀.state) := by
    refine ⟨fun _ => .idle, ⟨hrequests.sound, (fun _ _ hidle => nomatch hidle), .inl rfl⟩,
      fun i => ?_⟩
    obtain ⟨m, rfl, hthread⟩ := hrequests.mutations i
    show Obeys _ _ (P₀.threads i) _
    rw [hthread]
    exact m.obeys ctx
  obtain ⟨phases, hinv, hobeys⟩ := pool_obeying
    (OwedInv ctx.codec st id P₀.state) (fun _ _ _ _ henv => (And.left henv).elim)
    (fun _ _ _ _ _ _ _ hstart => False.elim hstart)
    (fun _ _ _ _ _ hsem => possibleAnswer_of_ruleSem (And.left hsem))
    (fun _ _ _ _ _ _ _ hinv hgood hsem hstep => by
      have hkept := owedInv_step hinv hgood (And.left hsem) hstep
      rwa [← And.right hsem] at hkept) hinit hrun
  rcases hinv.owed with hsame | hdescribed | ⟨i, howes⟩
  · rcases hstart with hdescribed | hchanged
    · rwa [hsame]
    · exact absurd hsame hchanged
  · exact hdescribed
  · -- A request that has finished owes nothing.
    have hi := hobeys i
    rw [hfinished i] at hi
    rcases hi () rfl with hidle | hwritten
    · rw [hidle] at howes
      exact howes.elim
    · rw [hwritten] at howes
      exact howes.elim

end Owed

/-! ## Two updates -/

/-- Requests of the sample. -/
abbrev SamplePool := RequestPool String (Memory.ResourceStore (Option RuleVersion)) Bool

/-- The rule of the sample. -/
def sampleId : RuleId := ruleId (sampleRule "")

/-- Two updates of the sample's rule, after its creation. -/
def twoUpdates : SamplePool :=
  ⟨afterCreate.2, fun i =>
    ((Mutation.update (sampleRule (if i then "v3" else "v2")) "").program sampleContext).run⟩

theorem requests_twoUpdates : Requests sampleContext memoryLedgerStore sampleId twoUpdates where
  unlocked := rfl
  mutations i := ⟨.update (sampleRule (if i then "v3" else "v2")) "", rfl, rfl⟩
  sound := by
    obtain ⟨log, hlogged⟩ := (Prog.runs_exec (ruleSem_ruleStep memoryLedgerStore)
      (createFirst.program sampleContext).run sampleRules).logged []
    exact (writeAhead_of_runs sound_sampleRules hlogged).2

/-- A step of an update where nothing fails. -/
def updateNext (P : SamplePool) (act : PoolAct Bool) : Option SamplePool :=
  P.next (fun _ => ruleStep memoryLedgerStore) (fun _ => none) (fun _ => none) act

theorem poolStep_of_updateNext (P : SamplePool) (act : PoolAct Bool) (P' : SamplePool)
    (h : updateNext P act = some P') : PoolStep (requests memoryLedgerStore Bool) P act P' :=
  Pool.step_of_next (fun _ => ruleSem_ruleStep memoryLedgerStore) (fun _ _ h => by cases h)
    (fun _ _ h => by cases h) P act P' h

/-- Whether a request has ended without an error. -/
def endedOk : RuleProg String (Except Failure Unit) → Bool
  | .ret result => result.toBool
  | .op _ _ => false

theorem eq_ret_of_endedOk {p : RuleProg String (Except Failure Unit)} (h : endedOk p = true) :
    p = .ret (.ok ()) := by
  match p with
  | .ret (.ok ()) => rfl

/-- What the sample shows at its end: whether all requests have ended without an error, the hashes
that are recorded for the rule, and the spec of the live rule. -/
def observe (P : SamplePool) : Bool × List String × Option (Option String) :=
  (endedOk (P.threads false) && endedOk (P.threads true),
    (history (ruleParent sampleId) (memoryLedgerStore.stored P.state.ledger).items).map
      Version.contentHash,
    (P.state.live.get? sampleId).map Resource.spec)

theorem finished_of_observe {P : SamplePool} (h : (observe P).1 = true) (i : Bool) :
    P.threads i = .ret (.ok ()) := by
  obtain ⟨hfalse, htrue⟩ := Bool.and_eq_true_iff.mp h
  cases i with
  | false => exact eq_ret_of_endedOk hfalse
  | true => exact eq_ret_of_endedOk htrue

/-- A step of an update, with the check that a request that writes has appended last. -/
def notedNext (P : Pool (RuleOp String) RuleOp.Res (Except Failure Unit)
      (RuleState String (Memory.ResourceStore (Option RuleVersion)) × Option Bool) Bool)
    (act : PoolAct Bool) :=
  if P.opCheck (fun i s o => match o with
    | .write _ => s.2 = some i
    | _ => true) act
  then P.next (fun i s o => ((ruleStep memoryLedgerStore s.1 o).1,
    (ruleStep memoryLedgerStore s.1 o).2, lastAppender i s.2 o)) (fun _ => none) (fun _ => none) act
  else none

/-- The checked step is a step that meets the condition. -/
theorem guarded_of_notedNext : ∀ P act P', notedNext P act = some P' →
    Guarded (OpGuard AppendedLast) (PoolStep (notedRequests memoryLedgerStore Bool)) P act P' := by
  refine Pool.guarded_of_next (fun i s o h => ?_) (Pool.step_of_next (fun i s o => ?_)
    (fun _ _ h => by cases h) (fun _ _ h => by cases h))
  · rintro w rfl
    exact of_decide_eq_true h
  · exact And.intro (ruleSem_ruleStep memoryLedgerStore s.1 o) rfl

/-- One update after the other. -/
def updatesInTurn : List (PoolAct Bool) :=
  List.replicate 7 (.thread false) ++ List.replicate 7 (.thread true)

/-- Two updates that run one after the other leave the newest record of the second one, which
describes the rule. -/
theorem concurrent_mutations_described_inTurn :
    Requests sampleContext memoryLedgerStore sampleId twoUpdates ∧
      ∃ P, Run (Guarded (OpGuard AppendedLast) (PoolStep (notedRequests memoryLedgerStore Bool)))
          (twoUpdates.noted none) updatesInTurn P ∧
        (∀ i, P.threads i = .ret (.ok ())) ∧ P.state.1 ≠ twoUpdates.state ∧
        Described sampleCodec memoryLedgerStore sampleId P.state.1 := by
  have hend : (updatesInTurn.foldlM notedNext (twoUpdates.noted none)).map
      (fun P => observe ⟨P.state.1, P.threads⟩) = some (true, ["v3"], some (some "v3")) := by
    decide +kernel
  obtain ⟨P, hP, hobserve⟩ := Option.map_eq_some_iff.mp hend
  have hrun := Run.of_foldlM guarded_of_notedNext hP
  have hfinished := finished_of_observe (congrArg Prod.fst hobserve)
  have hchanged : P.state.1 ≠ twoUpdates.state := by
    intro hsame
    have hspec : (P.state.1.live.get? sampleId).map Resource.spec = some (some "v3") :=
      congrArg (fun x => x.2.2) hobserve
    rw [hsame] at hspec
    have hcreated : (twoUpdates.state.live.get? sampleId).map Resource.spec = some (some "v1") := by
      decide +kernel
    rw [hcreated] at hspec
    exact absurd hspec (by decide)
  exact ⟨requests_twoUpdates, P, hrun, hfinished, hchanged,
    concurrent_mutations_described requests_twoUpdates hrun hfinished (.inr hchanged)⟩

/-- The first update appends, the second one appends and writes, and then the first one writes. -/
def updatesCrossed : List (PoolAct Bool) :=
  List.replicate 6 (.thread false) ++ List.replicate 7 (.thread true) ++ [.thread false]

/-- The first update appends its record, the second one appends and writes, and then the first one
writes. Both return `nil`; the live rule is that of the first update, and the newest record is that
of the second. -/
theorem later_append_overwritten :
    Requests sampleContext memoryLedgerStore sampleId twoUpdates ∧
      ∃ P, Run (PoolStep (requests memoryLedgerStore Bool)) twoUpdates updatesCrossed P ∧
        (∀ i, P.threads i = .ret (.ok ())) ∧
        ¬ Described sampleCodec memoryLedgerStore sampleId P.state := by
  have hend : (updatesCrossed.foldlM updateNext twoUpdates).map observe =
      some (true, ["v3"], some (some "v2")) := by decide +kernel
  obtain ⟨P, hP, hobserve⟩ := Option.map_eq_some_iff.mp hend
  have hhashes : (history (ruleParent sampleId)
      (memoryLedgerStore.stored P.state.ledger).items).map Version.contentHash = ["v3"] :=
    congrArg (fun x => x.2.1) hobserve
  have hspec : (P.state.live.get? sampleId).map Resource.spec = some (some "v2") :=
    congrArg (fun x => x.2.2) hobserve
  refine ⟨requests_twoUpdates, P, Run.of_foldlM poolStep_of_updateNext hP,
    finished_of_observe (congrArg Prod.fst hobserve), ?_⟩
  rintro ⟨v, hnewest, hdescribes⟩
  -- The only record is that of the second update, and the rule is that of the first.
  have hv : v.contentHash = "v3" := by
    have hmem := List.mem_map_of_mem (f := Version.contentHash) hnewest.mem
    rw [hhashes] at hmem
    exact List.mem_singleton.mp hmem
  obtain ⟨r, hr, hrspec⟩ := Option.map_eq_some_iff.mp hspec
  rw [hr, hv] at hdescribes
  obtain ⟨specJSON, hnormal⟩ := hdescribes
  unfold normalizeResource at hnormal
  rw [hrspec] at hnormal
  have hhash : "v2" = "v3" := congrArg Prod.fst (Except.ok.inj hnormal)
  exact absurd hhash (by decide)

end DubboAdmin.Console
