import DubboAdmin.Lib.Automata
import DubboAdmin.Console.RuleVersion

/-!
# The order of a mutation's steps

Every mutation records a rule before it publishes it. The order is an automaton (`mutationOrder`):
the registry is written only right after an append that has succeeded and that describes what is
written, at most once, and a call that has failed to append or to write returns an error. That the
four mutations follow it (`Mutation.obeys`) is a fact about their programs alone, whatever the
steps answer.
-/

namespace DubboAdmin.Console

open Versioning

variable {σ α : Type}

/-! ## The order of the steps -/

/-- A record with the hash and the operation describes the live rule: the hash is that of the
normalized spec, or the rule is absent and the record is of its deletion. -/
def Describes (codec : Codec σ) (contentHash : String) (operation : Operation) :
    Option (Rule σ) → Prop
  | none => operation = .delete
  | some r => ∃ specJSON, normalizeResource codec r = .ok (contentHash, specJSON)

/-- The request records what the write leaves. -/
structure Publishes (codec : Codec σ) (req : InsertRequest) (w : RuleWrite σ) : Prop where
  rule : (req.ruleKind, req.resourceKey) = w.id
  describes : Describes codec req.contentHash req.operation w.result

/-- How far a mutation has come. -/
inductive Phase where
  | idle
  /-- The request was recorded last. -/
  | recorded (req : InsertRequest)
  | unrecorded
  | written
  | unwritten

/-- The mutation may still append. -/
def Phase.Open : Phase → Prop
  | .idle => True
  | .recorded _ => True
  | _ => False

/-- A mutation that has recorded nothing may append. -/
theorem Phase.open_idle : Phase.idle.Open := trivial

/-- The step neither appends nor writes. -/
def RuleOp.Reads : RuleOp σ → Prop
  | .adapter (.insertVersion _ _) => False
  | .write _ => False
  | _ => True

/-- The steps that a mutation of the rule may take in a phase. -/
inductive MutationStep (codec : Codec σ) (id : RuleId) :
    Phase → (o : RuleOp σ) → o.Res → Phase → Prop
  /-- A read leaves the phase. -/
  | read (ph : Phase) (o : RuleOp σ) (r : o.Res) (hreads : o.Reads) :
      MutationStep codec id ph o r ph
  | append {ph : Phase} (hopen : ph.Open) (req : InsertRequest) (maxVersions : ℕ) (v : Version) :
      MutationStep codec id ph (.adapter (.insertVersion req maxVersions)) (.ok v) (.recorded req)
  | failAppend {ph : Phase} (hopen : ph.Open) (req : InsertRequest) (maxVersions : ℕ)
      (e : Failure) :
      MutationStep codec id ph (.adapter (.insertVersion req maxVersions)) (.error e) .unrecorded
  | write {req : InsertRequest} {w : RuleWrite σ} (hid : w.id = id)
      (hpublishes : Publishes codec req w) :
      MutationStep codec id (.recorded req) (.write w) (.ok ()) .written
  | failWrite {req : InsertRequest} {w : RuleWrite σ} (hid : w.id = id)
      (hpublishes : Publishes codec req w) (e : Failure) :
      MutationStep codec id (.recorded req) (.write w) (.error e) .unwritten

/-- A read of a live rule returns one with the kind and key that were asked for. -/
def PossibleAnswer : (o : RuleOp σ) → o.Res → Prop
  | .getByKey kind key, found => ∀ r, found = .ok (some r) → ruleId r = (kind, key)
  | _, _ => True

/-- The order in which a mutation of the rule takes its steps. -/
def mutationOrder (codec : Codec σ) (id : RuleId) : Automaton (RuleOp σ) RuleOp.Res Phase where
  possible := PossibleAnswer
  step := MutationStep codec id

/-- A mutation may return without an error where it has recorded nothing or has written. -/
def Finished (ph : Phase) (_ : α) : Prop := ph = .idle ∨ ph = .written

/-! ## The programs follow the order -/

section Obeys

variable {codec : Codec σ} {id : RuleId} {ph : Phase}

/-- From every phase, the program follows the order and leaves the phase as it is. -/
def OnlyReads (codec : Codec σ) (id : RuleId) (p : RuleM σ α) : Prop :=
  ∀ ph, ObeysOk (mutationOrder codec id) (fun ph' _ => ph' = ph) p ph

/-- What follows a program that only reads starts in the same phase. -/
theorem OnlyReads.bind {β : Type} {p : RuleM σ α} {f : α → RuleM σ β} {post : Phase → β → Prop}
    (hp : OnlyReads codec id p) (hf : ∀ a, ObeysOk (mutationOrder codec id) post (f a) ph) :
    ObeysOk (mutationOrder codec id) post (p >>= f) ph := by
  refine ObeysOk.bind (hp ph) fun a ph' h => ?_
  subst h
  exact hf a

/-- A step that reads leaves the phase. -/
theorem obeys_read {o : RuleOp σ} (hreads : o.Reads) (post : Phase → o.Res → Prop)
    (hpost : ∀ r, PossibleAnswer o r → post ph r) :
    Obeys (mutationOrder codec id) post (Prog.perform o) ph :=
  Obeys.perform fun r hr => ⟨ph, .read ph o r hreads, hpost r hr⟩

/-- The check of the mesh only reads. -/
theorem onlyReads_resourceMeshRoute (mesh : String) :
    OnlyReads codec id (resourceMeshRoute mesh) :=
  fun _ => obeys_read (o := .resourceMeshRoute mesh) trivial _ fun _ _ _ _ => rfl

/-- The adapter's snapshot of a history only reads. -/
theorem onlyReads_historySnapshot (kind resourceKey : String) :
    OnlyReads codec id (historySnapshot kind resourceKey) :=
  fun _ => obeys_read (o := .adapter (.historySnapshot kind resourceKey)) trivial _
    fun _ _ _ _ => rfl

/-- The adapter's lookup of a version only reads. -/
theorem onlyReads_getVersion (kind resourceKey : String) (versionNo : ℤ) :
    OnlyReads codec id (getVersion kind resourceKey versionNo) :=
  fun _ => obeys_read (o := .adapter (.getVersion kind resourceKey versionNo)) trivial _
    fun _ _ _ _ => rfl

/-- The clock only reads. -/
theorem onlyReads_timeNow : OnlyReads codec id timeNow := by
  intro ph
  refine Obeys.bind (obeys_read (o := .timeNow) trivial (fun ph' _ => ph' = ph) fun _ _ => rfl) ?_
  intro now ph' hph' _ _
  exact hph'

/-- A computed result takes no step. -/
theorem obeys_ofExcept {result : Except Failure α} :
    ObeysOk (mutationOrder codec id) (fun ph' a => ph' = ph ∧ result = .ok a)
      (ofExcept (σ := σ) result) ph := by
  cases result with
  | ok a => exact ObeysOk.pure ⟨rfl, rfl⟩
  | error e => exact ObeysOk.throw e

/-- The resource manager finds a rule only under its own kind and key. -/
theorem obeys_run_resourceManagerGetByKey (kind key : String) :
    Obeys (mutationOrder codec id)
      (fun ph' found => ph' = ph ∧ ∀ r, found = .ok (some r) → ruleId r = (kind, key))
      (resourceManagerGetByKey kind key).run ph := by
  have hroute : Obeys (mutationOrder codec id) (fun ph' _ => ph' = ph)
      (Prog.perform (.resourceKindRoute kind)) ph :=
    obeys_read (o := .resourceKindRoute kind) trivial _ fun _ _ => rfl
  refine Obeys.bind hroute fun route ph₁ h₁ => ?_
  subst h₁
  match route with
  | .error e => exact ⟨rfl, fun r hr => by cases hr⟩
  | .ok () =>
    have hget : Obeys (mutationOrder codec id)
        (fun ph' found => ph' = ph₁ ∧
          ∀ r : Rule σ, found = Except.ok (some r) → ruleId r = (kind, key))
        (Prog.perform (RuleOp.getByKey kind key)) ph₁ :=
      obeys_read (o := .getByKey kind key) trivial _ fun _ hr => ⟨rfl, hr⟩
    refine Obeys.bind hget fun found ph₂ h₂ => ?_
    match found with
    | .error e => exact ⟨h₂.1, fun r hr => by cases hr⟩
    | .ok item => exact h₂

/-- The same where it returns without an error. -/
theorem obeys_resourceManagerGetByKey (kind key : String) :
    ObeysOk (mutationOrder codec id)
      (fun ph' found => ph' = ph ∧ ∀ r, found = some r → ruleId r = (kind, key))
      (resourceManagerGetByKey kind key) ph := by
  refine (obeys_run_resourceManagerGetByKey kind key).imp fun ph' found h a ha => ?_
  subst ha
  exact ⟨h.1, fun r hr => h.2 r (congrArg Except.ok hr)⟩

/-- The resource manager's test for a rule only reads. -/
theorem onlyReads_resourceManagerHas (kind key : String) :
    OnlyReads codec id (resourceManagerHas kind key) := by
  refine fun ph => Obeys.bind (obeys_run_resourceManagerGetByKey kind key) fun found ph₁ h₁ => ?_
  match found with
  | .error _ | .ok none | .ok (some _) => exact fun _ _ => h₁.1

/-- An append that succeeds leaves its request recorded. -/
theorem obeys_insertVersion (hopen : ph.Open) (req : InsertRequest) (maxVersions : ℕ) :
    ObeysOk (mutationOrder codec id) (fun ph' _ => ph' = .recorded req)
      (insertVersion req maxVersions) ph := by
  refine Obeys.perform fun r _ => ?_
  match r with
  | .ok v => exact ⟨.recorded req, .append hopen req maxVersions v, fun _ _ => rfl⟩
  | .error e =>
    exact ⟨.unrecorded, .failAppend hopen req maxVersions e, fun _ hok => by cases hok⟩

variable {req : InsertRequest}

/-- The program publishes what the request has recorded. -/
def WritesAfter (codec : Codec σ) (id : RuleId) (req : InsertRequest) (p : RuleM σ α) : Prop :=
  ObeysOk (mutationOrder codec id) (fun ph' _ => ph' = .written) p (.recorded req)

/-- A mutation may end with a program that publishes what was recorded. -/
theorem WritesAfter.finished {p : RuleM σ α} (h : WritesAfter codec id req p) :
    ObeysOk (mutationOrder codec id) Finished p (.recorded req) :=
  Obeys.imp h fun _ _ hph a ha => .inr (hph a ha)

/-- The governor publishes what the request has recorded. -/
theorem writesAfter_governorWrite {w : RuleWrite σ} (hid : w.id = id)
    (hpublishes : Publishes codec req w) : WritesAfter codec id req (governorWrite w) := by
  refine Obeys.perform fun r _ => ?_
  match r with
  | .ok () => exact ⟨.written, .write hid hpublishes, fun _ _ => rfl⟩
  | .error e => exact ⟨.unwritten, .failWrite hid hpublishes e, fun _ hok => by cases hok⟩

/-- The request is for the rule and the operation, with the hash of the rule's normalized spec
unless it deletes the rule. -/
structure RequestOf (codec : Codec σ) (res : Rule σ) (op : Operation) (req : InsertRequest) :
    Prop where
  rule : (req.ruleKind, req.resourceKey) = ruleId res
  operation : req.operation = op
  contentHash : op ≠ .delete →
    ∃ specJSON, normalizeResource codec res = .ok (req.contentHash, specJSON)

variable {res : Rule σ} {op : Operation}

/-- The request that is built for a rule is one for it. -/
theorem requestOf_buildInsertRequest {source : Source} {author reason : String}
    {rolledBackFrom : Option ℤ} {createdAt : ℤ}
    (h : buildInsertRequest codec res op source author reason rolledBackFrom createdAt = .ok req) :
    RequestOf codec res op req := by
  unfold buildInsertRequest at h
  cases hnormal : normalizeResource codec res with
  | error e =>
    rw [hnormal] at h
    cases h
  | ok normal =>
    rw [hnormal] at h
    cases h
    refine ⟨rfl, rfl, fun hop => ⟨normal.2, ?_⟩⟩
    simpa [hop] using hnormal

/-- A request for a rule describes the write that leaves this rule. -/
theorem RequestOf.publishes (h : RequestOf codec res op req) (hop : op ≠ .delete) {w : RuleWrite σ}
    (hid : w.id = ruleId res) (hresult : w.result = some res) : Publishes codec req w := by
  refine ⟨h.rule.trans hid.symm, ?_⟩
  rw [hresult]
  exact h.contentHash hop

/-- A request for a deletion describes the deletion of the rule with this kind and key. -/
theorem RequestOf.publishes_delete {r : Rule σ} (h : RequestOf codec res .delete req)
    (hid : ruleId r = ruleId res) :
    Publishes codec req (.deleteRule r) :=
  ⟨h.rule.trans hid.symm, h.operation⟩

/-- The check for a version store takes no step. -/
theorem onlyReads_ensureAvailable (svc : Service) :
    OnlyReads codec id (ensureAvailable (σ := σ) svc) := by
  unfold OnlyReads ensureAvailable
  split_ifs
  · exact fun _ => ObeysOk.pure rfl
  · exact fun _ => ObeysOk.throw _

/-- The check for a versioning service takes no step. -/
theorem onlyReads_requiredRuleVersioning (ctx : Context σ) :
    OnlyReads codec id (requiredRuleVersioning ctx) := by
  unfold OnlyReads requiredRuleVersioning
  cases ctx.ruleVersioning with
  | none => exact fun _ => ObeysOk.throw _
  | some svc => exact fun _ => ObeysOk.pure rfl

/-- An append of the service records a request for its rule. -/
theorem obeys_append (hopen : ph.Open) (ctx : Context σ) (svc : Service) (res : Rule σ)
    (op : Operation) (source : Source) (author reason : String) (rolledBackFrom : Option ℤ) :
    ObeysOk (mutationOrder codec id)
      (fun ph' _ => ∃ req, ph' = .recorded req ∧ RequestOf ctx.codec res op req)
      (append ctx svc res op source author reason rolledBackFrom) ph := by
  refine (onlyReads_ensureAvailable svc).bind fun _ => onlyReads_timeNow.bind fun now => ?_
  refine ObeysOk.bind obeys_ofExcept fun req ph₃ h₃ => ?_
  obtain ⟨rfl, hreq⟩ := h₃
  refine Obeys.imp (obeys_insertVersion hopen req _) fun ph' r h v hv => ?_
  exact ⟨req, h v hv, requestOf_buildInsertRequest hreq⟩

/-- An append of a mutation records a request for its rule. -/
theorem obeys_appendRuleHistory (hopen : ph.Open) (ctx : Context σ) (res : Rule σ)
    (op : Operation) (source : Source) (author reason : String) (rolledBackFrom : Option ℤ) :
    ObeysOk (mutationOrder codec id)
      (fun ph' _ => ∃ req, ph' = .recorded req ∧ RequestOf ctx.codec res op req)
      (appendRuleHistory ctx res op source author reason rolledBackFrom) ph :=
  (onlyReads_requiredRuleVersioning ctx).bind fun svc =>
    obeys_append hopen ctx svc res op source author reason rolledBackFrom

/-- The baseline is recorded, or there is one already. -/
theorem obeys_ensureBaselineHistory (hopen : ph.Open) (ctx : Context σ) (res : Rule σ) :
    ObeysOk (mutationOrder codec id) (fun ph' _ => ph'.Open)
      (ensureBaselineHistory ctx res) ph := by
  refine (onlyReads_requiredRuleVersioning ctx).bind fun svc => ?_
  have hhistory : OnlyReads codec id (hasHistory (σ := σ) svc res.kind res.mesh res.name) :=
    fun _ => (onlyReads_ensureAvailable svc).bind fun _ =>
      (onlyReads_historySnapshot _ _).bind fun _ => ObeysOk.pure rfl
  refine hhistory.bind fun found => ?_
  split_ifs
  · exact ObeysOk.pure hopen
  · refine ObeysOk.bind (obeys_append hopen ctx svc res _ _ _ _ _) fun _ ph₃ h₃ => ?_
    obtain ⟨req, rfl, -⟩ := h₃
    exact ObeysOk.pure trivial

/-- `Add` and `Update` of the resource manager publish what was recorded. -/
theorem writesAfter_resourceManagerWrite {w : RuleWrite σ} (hid : w.id = id)
    (hpublishes : Publishes codec req w) :
    WritesAfter codec id req (resourceManagerWrite res w) := by
  unfold WritesAfter resourceManagerWrite
  split_ifs
  · exact (onlyReads_resourceMeshRoute _).bind fun _ => writesAfter_governorWrite hid hpublishes
  · exact ObeysOk.throw _

/-- So does `Upsert`, which calls one of them. -/
theorem writesAfter_resourceManagerUpsert (hreq : RequestOf codec res op req) (hop : op ≠ .delete)
    (hid : ruleId res = id) : WritesAfter codec id req (resourceManagerUpsert res) := by
  unfold WritesAfter resourceManagerUpsert
  split_ifs
  · refine (onlyReads_resourceManagerHas _ _).bind fun found => ?_
    split_ifs
    · exact writesAfter_resourceManagerWrite hid (hreq.publishes hop rfl rfl)
    · exact writesAfter_resourceManagerWrite hid (hreq.publishes hop rfl rfl)
  · exact ObeysOk.throw _

/-- The resource manager deletes a rule whose deletion was recorded. -/
theorem writesAfter_resourceManagerDeleteByKey {kind mesh key : String}
    (hreq : RequestOf codec res .delete req) (hres : ruleId res = (kind, key))
    (hid : (kind, key) = id) :
    WritesAfter codec id req (resourceManagerDeleteByKey (σ := σ) kind mesh key) := by
  unfold WritesAfter resourceManagerDeleteByKey
  split_ifs
  · refine (onlyReads_resourceMeshRoute _).bind fun _ => ?_
    have hget : ObeysOk (mutationOrder codec id)
        (fun ph' found => ph' = .recorded req ∧ ∀ r, found = some r → ruleId r = (kind, key))
        ((resourceManagerGetByKey (σ := σ) kind key).adapt
          (wrapError ("failed to get resource " ++ key))) (.recorded req) := by
      refine Obeys.bind (obeys_run_resourceManagerGetByKey kind key) fun found ph₂ h₂ => ?_
      match found with
      | .error e => exact ObeysOk.throw _
      | .ok item => exact ObeysOk.pure ⟨h₂.1, fun r hr => h₂.2 r (congrArg Except.ok hr)⟩
    refine ObeysOk.bind hget fun found ph₂ h₂ => ?_
    obtain ⟨rfl, hfound⟩ := h₂
    cases found with
    | none => exact ObeysOk.throw _
    | some r =>
      have hr := hfound r rfl
      exact writesAfter_governorWrite (hr.trans hid) (hreq.publishes_delete (hr.trans hres.symm))
  · exact ObeysOk.throw _

/-- The lock adds no appends and no writes. -/
theorem obeys_withRuleLock {post : Phase → α → Prop} (ctx : Context σ) (ruleRef : RuleRef)
    {fn : RuleM σ α} (hfn : ObeysOk (mutationOrder codec id) post fn ph) :
    ObeysOk (mutationOrder codec id) post (withRuleLock ctx ruleRef fn) ph := by
  unfold withRuleLock
  split_ifs
  · have hlock : Obeys (mutationOrder codec id) (fun ph' _ => ph' = ph)
        (Prog.perform (.lock (ruleLockKey ruleRef))) ph :=
      obeys_read (o := .lock (ruleLockKey ruleRef)) trivial _ fun _ _ => rfl
    refine Obeys.bind hlock fun locked ph₁ h₁ => ?_
    subst h₁
    match locked with
    | .error e => exact ObeysOk.throw _
    | .ok () =>
      refine Obeys.bind hfn fun result ph₂ h₂ => ?_
      have hunlock : Obeys (mutationOrder codec id) (fun ph' _ => ph' = ph₂)
          (Prog.perform (.unlock (ruleLockKey ruleRef))) ph₂ :=
        obeys_read (o := .unlock (ruleLockKey ruleRef)) trivial _ fun _ _ => rfl
      refine Obeys.bind hunlock fun _ ph₃ h₃ => ?_
      subst h₃
      exact h₂
  · exact hfn

end Obeys

section Mutations

variable (ctx : Context σ)

/-- `CreateRule` appends and adds. -/
theorem obeys_createRule (res : Rule σ) (author : String) :
    ObeysOk (mutationOrder ctx.codec (ruleId res)) Finished (createRule ctx res author) .idle := by
  refine obeys_withRuleLock ctx _ ?_
  refine ObeysOk.bind (obeys_appendRuleHistory Phase.open_idle ctx res _ _ _ _ _) fun _ ph₁ h₁ => ?_
  obtain ⟨req, rfl, hreq⟩ := h₁
  exact (writesAfter_resourceManagerWrite (w := .createRule res) rfl
    (hreq.publishes (by decide) rfl rfl)).finished

/-- `UpdateRule` appends a baseline where there is none, appends and updates. -/
theorem obeys_updateRule (res : Rule σ) (author : String) :
    ObeysOk (mutationOrder ctx.codec (ruleId res)) Finished (updateRule ctx res author) .idle := by
  refine obeys_withRuleLock ctx _ ?_
  have hexisting : OnlyReads ctx.codec (ruleId res) (getExistingRule (.of res)) := by
    refine fun ph => ObeysOk.bind (obeys_resourceManagerGetByKey _ _) fun found ph₁ h₁ => ?_
    cases found with
    | none => exact ObeysOk.throw _
    | some existing => exact ObeysOk.pure h₁.1
  refine hexisting.bind fun existing => ?_
  refine ObeysOk.bind (obeys_ensureBaselineHistory Phase.open_idle ctx existing) fun _ ph₂ h₂ => ?_
  refine ObeysOk.bind (obeys_appendRuleHistory h₂ ctx res _ _ _ _ _) fun _ ph₃ h₃ => ?_
  obtain ⟨req, rfl, hreq⟩ := h₃
  exact (writesAfter_resourceManagerWrite (w := .updateRule res) rfl
    (hreq.publishes (by decide) rfl rfl)).finished

/-- `DeleteRule` returns where there is no rule; otherwise it appends a baseline where there is
none, appends the deletion and deletes. -/
theorem obeys_deleteRule (ruleRef : RuleRef) (author : String) :
    ObeysOk (mutationOrder ctx.codec ruleRef.id) Finished
      (deleteRule ctx ruleRef author) .idle := by
  refine obeys_withRuleLock ctx _ ?_
  refine ObeysOk.bind (obeys_resourceManagerGetByKey _ _) fun found ph₁ h₁ => ?_
  obtain ⟨rfl, hfound⟩ := h₁
  cases found with
  | none => exact ObeysOk.pure (.inl rfl)
  | some snapshot =>
    refine ObeysOk.bind (obeys_ensureBaselineHistory Phase.open_idle ctx snapshot)
      fun _ ph₂ h₂ => ?_
    refine ObeysOk.bind (obeys_appendRuleHistory h₂ ctx snapshot _ _ _ _ _) fun _ ph₃ h₃ => ?_
    obtain ⟨req, rfl, hreq⟩ := h₃
    exact (writesAfter_resourceManagerDeleteByKey hreq (hfound snapshot rfl) rfl).finished

/-- A rule that is built from a recorded text has the kind and key of the reference. -/
theorem ruleId_resourceFromSpecJSON {codec : Codec σ} {ruleRef : RuleRef} {specJSON : String}
    {res : Rule σ} (h : resourceFromSpecJSON codec ruleRef specJSON = .ok res) :
    ruleId res = ruleRef.id := by
  unfold resourceFromSpecJSON at h
  split_ifs at h
  cases hspec : codec.unmarshalSpec ruleRef.kind specJSON with
  | error e =>
    rw [hspec] at h
    cases h
  | ok spec =>
    rw [hspec] at h
    cases h
    rfl

/-- The service's lookup of a version only reads. -/
theorem onlyReads_get {codec : Codec σ} {id : RuleId} (svc : Service) (ruleRef : RuleRef)
    (versionNo : ℤ) : OnlyReads codec id (get (σ := σ) svc ruleRef versionNo) := by
  refine fun ph => (onlyReads_ensureAvailable svc).bind fun _ =>
    (onlyReads_getVersion _ _ _).bind fun version =>
      (onlyReads_historySnapshot _ _).bind fun snapshot => ?_
  cases snapshot.head with
  | none | some _ => exact ObeysOk.pure rfl

/-- A rollback appends the rule of its target and publishes it. -/
theorem obeys_rollbackLocked (svc : Service) (ruleRef : RuleRef) (targetVersionNo : ℤ)
    (reason author : String) :
    ObeysOk (mutationOrder ctx.codec ruleRef.id) Finished
      (rollbackLocked ctx svc ruleRef targetVersionNo reason author) .idle := by
  refine (onlyReads_get svc ruleRef targetVersionNo).bind fun target => ?_
  split_ifs
  · exact ObeysOk.throw _
  · refine ObeysOk.bind (obeys_resourceManagerGetByKey _ _) fun current ph₂ h₂ => ?_
    obtain ⟨rfl, -⟩ := h₂
    have hchanges : OnlyReads ctx.codec ruleRef.id (rollbackChanges ctx target current) := by
      intro ph
      cases current with
      | none => exact ObeysOk.pure rfl
      | some current =>
        refine ObeysOk.bind obeys_ofExcept fun normal ph₃ h₃ => ?_
        dsimp only
        split_ifs
        · exact ObeysOk.throw _
        · exact ObeysOk.pure h₃.1
    refine hchanges.bind fun _ => ObeysOk.bind obeys_ofExcept fun res ph₄ h₄ => ?_
    obtain ⟨rfl, hres⟩ := h₄
    -- The operation is an update or a creation, by whether the rule is there.
    have hop : (if current.isSome = true then Operation.update else .create) ≠ .delete := by
      split_ifs
      · decide
      · decide
    refine ObeysOk.bind (obeys_appendRuleHistory Phase.open_idle ctx res _ _ _ _ _)
      fun _ ph₅ h₅ => ?_
    obtain ⟨req, rfl, hreq⟩ := h₅
    refine ObeysOk.bind (writesAfter_resourceManagerUpsert hreq hop
      (ruleId_resourceFromSpecJSON hres)) fun _ ph₆ h₆ => ?_
    exact ObeysOk.pure (.inr h₆)

/-- Every mutation follows the order. -/
theorem Mutation.obeys (m : Mutation σ) :
    ObeysOk (mutationOrder ctx.codec m.id) Finished (m.program ctx) .idle := by
  cases m with
  | create res author => exact obeys_createRule ctx res author
  | update res author => exact obeys_updateRule ctx res author
  | delete ruleRef author => exact obeys_deleteRule ctx ruleRef author
  | rollback ruleRef targetVersionNo reason author =>
    have hrollback : ObeysOk (mutationOrder ctx.codec ruleRef.id) Finished
        (rollbackRuleVersion ctx ruleRef targetVersionNo reason author) .idle := by
      unfold rollbackRuleVersion
      cases ctx.ruleVersioning with
      | none => exact ObeysOk.throw _
      | some svc =>
        split_ifs
        · exact ObeysOk.throw _
        · exact obeys_withRuleLock ctx _ (obeys_rollbackLocked ctx svc ruleRef _ _ _)
    exact ObeysOk.bind hrollback fun _ _ h => ObeysOk.pure h

end Mutations

end DubboAdmin.Console
