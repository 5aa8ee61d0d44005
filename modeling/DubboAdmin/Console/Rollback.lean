import DubboAdmin.Console.RuleHistory

/-!
# Rollbacks

`RollbackRuleVersion` turns a recorded JSON text back into a rule, normalizes and hashes that rule
again, records it and publishes it. After every run of mutations, one at a time and where no store
and no registry fails, a rollback either is refused and changes nothing, or appends one version with
the content of its target and leaves a live rule with that content (`rollback_in_run`).

The encodings are assumed to round-trip (`RoundTrips`), so that every recorded version that is not a
deletion is decoded to a rule with this very text and hash (`Legal.decodes`).
-/

namespace DubboAdmin.Console

open Versioning
open Strings (trimSpace)

variable {σ S α : Type}

/-! ## Steps where nothing fails -/

/-- The version store with the readings of its clock, and the registry with the live rules. -/
abbrev TimedState (σ S : Type) := RuleState σ (LedgerState S)

/-- A step where nothing fails and the clock shows the given times. -/
def timedStep (st : VersionStore S) (times : ℕ → ℤ) :
    TimedState σ S → (o : RuleOp σ) → o.Res × TimedState σ S :=
  stepOver (fun l => (times l.readings, { l with readings := l.readings + 1 }))
    (step st.toResourceStore times)

/-- What a program returns, and the state after it. -/
def outcome (st : VersionStore S) (times : ℕ → ℤ) (s : TimedState σ S) (p : RuleM σ α) :
    Except Failure α × TimedState σ S :=
  Prog.exec (timedStep st times) p.run s

/-- The recorded history of a rule, as the adapter reads it. -/
def recordedHistory (st : VersionStore S) (times : ℕ → ℤ) (s : TimedState σ S) (id : RuleId) :
    Except Failure (List Version) :=
  recorded st times ⟨s.ledger, []⟩ id.1 id.2

/-! ## Encodings that round-trip -/

/-- The text is decoded to a spec of the kind that is encoded to this text. -/
def Decodes (codec : Codec σ) (ofKind : String → σ → Prop) (kind specJSON : String) : Prop :=
  ∃ spec, codec.unmarshalSpec kind specJSON = .ok spec ∧ ofKind kind spec ∧
    codec.marshalSpec spec = .ok specJSON

/-- Every spec of a rule kind is encoded to a text that is decoded to a spec with this text, and so
is the text of no spec. -/
structure RoundTrips (codec : Codec σ) (ofKind : String → σ → Prop) : Prop where
  spec : ∀ kind ∈ ruleResourceKinds, ∀ spec, ofKind kind spec →
    ∃ specJSON, codec.marshalSpec spec = .ok specJSON ∧ Decodes codec ofKind kind specJSON
  noSpec : ∀ kind ∈ ruleResourceKinds, Decodes codec ofKind kind deleteSpecJSON

/-- The rule is of a rule kind, and its spec is one of this kind. -/
structure Typed (ofKind : String → σ → Prop) (res : Rule σ) : Prop where
  kind : res.kind ∈ ruleResourceKinds
  spec : ∀ spec, res.spec = some spec → ofKind res.kind spec

/-- The mutation is of a rule kind, with a rule of this kind. -/
def Mutation.Typed (ofKind : String → σ → Prop) : Mutation σ → Prop
  | .create res _ => Console.Typed ofKind res
  | .update res _ => Console.Typed ofKind res
  | .delete ruleRef _ => ruleRef.kind ∈ ruleResourceKinds
  | .rollback ruleRef _ _ _ => ruleRef.kind ∈ ruleResourceKinds

/-- One mutation of a rule at a time, by what it leaves. -/
def timedMutation (ctx : Context σ) (ofKind : String → σ → Prop) (st : VersionStore S)
    (times : ℕ → ℤ) (s : TimedState σ S) (m : Mutation σ) (s' : TimedState σ S) : Prop :=
  m.Typed ofKind ∧ (outcome st times s (m.program ctx)).2 = s'

section Specs

variable {codec : Codec σ} {ofKind : String → σ → Prop} {res : Rule σ}

theorem normalizeSpec_some {spec : σ} {specJSON : String}
    (h : codec.marshalSpec spec = .ok specJSON) :
    normalizeSpec codec (some spec) = .ok (codec.hashSpecJSON specJSON, specJSON) := by
  unfold normalizeSpec
  dsimp only
  rw [h]
  rfl

theorem Typed.normalizes (hcodec : RoundTrips codec ofKind) (h : Typed ofKind res) :
    ∃ specJSON, normalizeResource codec res = .ok (codec.hashSpecJSON specJSON, specJSON) ∧
      Decodes codec ofKind res.kind specJSON := by
  unfold normalizeResource
  cases hspec : res.spec with
  | none => exact ⟨deleteSpecJSON, rfl, hcodec.noSpec res.kind h.kind⟩
  | some spec =>
    obtain ⟨specJSON, hmarshal, hdecodes⟩ := hcodec.spec res.kind h.kind spec (h.spec spec hspec)
    exact ⟨specJSON, normalizeSpec_some hmarshal, hdecodes⟩

/-- A text that is decoded is the text of the rule that is built from it. -/
theorem Decodes.resourceFromSpecJSON {ruleRef : RuleRef} {specJSON : String}
    (hkind : ruleRef.kind ∈ ruleResourceKinds) (h : Decodes codec ofKind ruleRef.kind specJSON) :
    ∃ res, Console.resourceFromSpecJSON codec ruleRef specJSON = .ok res ∧
      ruleId res = ruleRef.id ∧ Typed ofKind res ∧
      normalizeResource codec res = .ok (codec.hashSpecJSON specJSON, specJSON) := by
  obtain ⟨spec, hunmarshal, hofKind, hmarshal⟩ := h
  have hsupported : ruleRef.kind ∈ [conditionRouteKind, tagRouteKind, dynamicConfigKind] := by
    simp only [ruleResourceKinds, List.mem_cons, List.not_mem_nil, or_false] at hkind ⊢
    tauto
  refine ⟨⟨ruleRef.kind, ruleRef.mesh, ruleRef.name, some spec⟩, ?_, rfl, ⟨hkind, ?_⟩,
    normalizeSpec_some hmarshal⟩
  · unfold Console.resourceFromSpecJSON
    rw [if_pos hsupported, hunmarshal]
    rfl
  · intro spec' hspec'
    cases hspec'
    exact hofKind

/-- What a request for a rule asks for. -/
structure Asks (codec : Codec σ) (res : Rule σ) (op : Operation) (rolledBackFrom : Option ℤ)
    (specJSON : String) (req : InsertRequest) : Prop where
  rule : req.ruleKind = res.kind ∧ req.resourceKey = res.resourceKey
  operation : req.operation = op
  rolledBackFrom : req.rolledBackFromVersionNo = rolledBackFrom
  /-- It has the normal form of the rule, unless it records a deletion. -/
  content : op ≠ .delete →
    req.contentHash = codec.hashSpecJSON specJSON ∧ req.specJSON = specJSON

theorem asks_buildInsertRequest {specJSON : String}
    (h : normalizeResource codec res = .ok (codec.hashSpecJSON specJSON, specJSON))
    (op : Operation) (source : Source) (author reason : String) (rolledBackFrom : Option ℤ)
    (createdAt : ℤ) :
    ∃ req, buildInsertRequest codec res op source author reason rolledBackFrom createdAt =
      .ok req ∧ Asks codec res op rolledBackFrom specJSON req := by
  unfold buildInsertRequest
  rw [h]
  refine ⟨_, rfl, ⟨rfl, rfl⟩, rfl, rfl, fun hop => ⟨?_, ?_⟩⟩
  · exact if_neg hop
  · exact if_neg hop

end Specs

/-! ## States that mutations reach -/

/-- The version store holds these records, every one of them that is not a deletion can be decoded,
and the live rules are rules. -/
structure Legal (codec : Codec σ) (ofKind : String → σ → Prop) (st : VersionStore S)
    (s : TimedState σ S) (stored : Versions) : Prop where
  contents : At st s.ledger stored
  /-- Every record lies under the key of its parent and number. -/
  kept : WellKept stored
  /-- A version of a rule kind has the hash of its text, which is decoded. -/
  decodes : ∀ p : Parent, p.kind ∈ ruleResourceKinds → ∀ v ∈ history p stored.items,
    v.operation ≠ .delete →
      v.contentHash = codec.hashSpecJSON v.specJSON ∧ Decodes codec ofKind p.kind v.specJSON
  live : ∀ r ∈ s.live.items, Typed ofKind r

/-- The version store is empty and the live rules are rules. -/
structure Unrecorded (ofKind : String → σ → Prop) (st : VersionStore S) (s : TimedState σ S) :
    Prop where
  empty : At st s.ledger Keyed.empty
  live : ∀ r ∈ s.live.items, Typed ofKind r

/-- The console has a versioning service with a store. -/
def Available (ctx : Context σ) (svc : Service) : Prop :=
  ctx.ruleVersioning = some svc ∧ svc.hasStore = true

section Exec

variable {ctx : Context σ} {ofKind : String → σ → Prop} {st : VersionStore S} (times : ℕ → ℤ)
  {s : TimedState σ S} {stored : Versions}

theorem Unrecorded.legal (h : Unrecorded ofKind st s) (codec : Codec σ) :
    Legal codec ofKind st s Keyed.empty where
  contents := h.empty
  kept := fun r hr => absurd hr List.not_mem_nil
  decodes := by
    intro p _ v hv
    obtain ⟨r, hr, -⟩ := mem_history.mp hv
    exact absurd hr List.not_mem_nil
  live := h.live

theorem Legal.of_readings (h : Legal ctx.codec ofKind st s stored) (readings : ℕ) :
    Legal ctx.codec ofKind st { s with ledger.readings := readings } stored where
  contents := ⟨h.contents.valid, h.contents.exact, h.contents.contents⟩
  kept := h.kept
  decodes := h.decodes
  live := h.live

theorem Legal.write (h : Legal ctx.codec ofKind st s stored) {w : RuleWrite σ}
    (hw : ∀ r, w.result = some r → Typed ofKind r) :
    Legal ctx.codec ofKind st { s with live := w.apply s.live } stored where
  contents := h.contents
  kept := h.kept
  decodes := h.decodes
  live := by
    intro r hr
    cases w with
    | createRule _ | updateRule _ =>
      rcases Keyed.mem_put.mp hr with rfl | ⟨hr, -⟩
      · exact hw r rfl
      · exact h.live r hr
    | deleteRule r' => exact h.live r (Keyed.mem_erase.mp hr).1

theorem Legal.of_get? (h : Legal ctx.codec ofKind st s stored) {id : RuleId} {r : Rule σ}
    (hr : s.live.get? id = some r) : Typed ofKind r ∧ ruleId r = id :=
  ⟨h.live r (Keyed.get?_eq_some_iff.mp hr).1, (Keyed.get?_eq_some_iff.mp hr).2⟩

theorem outcome_withRuleLock (ruleRef : RuleRef) (fn : RuleM σ α) :
    outcome st times s (withRuleLock ctx ruleRef fn) = outcome st times s fn := by
  unfold withRuleLock
  split_ifs
  · unfold outcome withLock
    show Prog.exec (timedStep st times)
      (fn.run >>= fun result => Prog.perform (RuleOp.unlock (ruleLockKey ruleRef)) >>= fun _ =>
        pure result) s = _
    rw [Prog.exec_bind]
    rfl
  · rfl

theorem outcome_bind_ok {β : Type} {p : RuleM σ α} {a : α} {s' : TimedState σ S}
    (h : outcome st times s p = (.ok a, s')) (k : α → RuleM σ β) :
    outcome st times s (p >>= k) = outcome st times s' (k a) :=
  Prog.exec_bind_ok h k

theorem outcome_bind_error {β : Type} {p : RuleM σ α} {e : Failure} {s' : TimedState σ S}
    (h : outcome st times s p = (.error e, s')) (k : α → RuleM σ β) :
    outcome st times s (p >>= k) = (.error e, s') :=
  Prog.exec_bind_error h k

theorem outcome_getRuleIfExists (ruleRef : RuleRef) :
    outcome st times s (getRuleIfExists ruleRef) = (.ok (s.live.get? ruleRef.id), s) := rfl

/-- The history of a rule is read as it is. -/
theorem outcome_historySnapshot (h : Legal ctx.codec ofKind st s stored)
    (kind resourceKey : String) :
    outcome st times s (historySnapshot kind resourceKey : RuleM σ _) =
      (.ok (historySnapshotFromState
        (.ofVersions (history (parentOf kind resourceKey) stored.items))), s) := by
  obtain ⟨⟨hvalid, hexact, rfl⟩, hkept, -, -⟩ := h
  exact exec_historySnapshot _ (fun _ _ => rfl) hvalid hexact hkept kind resourceKey

/-- The version with the number is read. -/
theorem outcome_getVersion (h : Legal ctx.codec ofKind st s stored) (kind resourceKey : String)
    (n : ℤ) :
    ∃ found, outcome st times s (getVersion kind resourceKey n : RuleM σ _) = (found, s) ∧
      ∀ v, found = .ok v ↔
        v ∈ history (parentOf kind resourceKey) stored.items ∧ v.versionNo = n := by
  obtain ⟨⟨hvalid, hexact, rfl⟩, hkept, -, -⟩ := h
  exact exec_getVersion_history _ (fun _ => rfl) hkept kind resourceKey n

variable {svc : Service}

theorem outcome_ensureAvailable (hsvc : svc.hasStore = true) :
    outcome st times s (ensureAvailable svc : RuleM σ _) = (.ok (), s) := by
  unfold ensureAvailable
  rw [if_pos hsvc]
  rfl

/-- What the versioning service has appended. -/
structure Appended (codec : Codec σ) (svc : Service) (stored : Versions) (res : Rule σ)
    (op : Operation) (rolledBackFrom : Option ℤ) (v : Version) (stored' : Versions) : Prop where
  operation : v.operation = op
  rolledBackFrom : v.rolledBackFromVersionNo = rolledBackFrom
  /-- It has the normal form of the rule, unless it records a deletion. -/
  content : op ≠ .delete → normalizeResource codec res = .ok (v.contentHash, v.specJSON)
  own : history (ruleParent (ruleId res)) stored'.items =
    keepRecent svc.maxVersions.toNat (v :: history (ruleParent (ruleId res)) stored.items)
  others : ∀ p, p ≠ ruleParent (ruleId res) → history p stored'.items = history p stored.items

theorem mem_of_mem_keepRecent {maxVersions : ℕ} {versions : List Version} {v : Version}
    (h : v ∈ keepRecent maxVersions versions) : v ∈ versions := by
  unfold keepRecent at h
  split_ifs at h
  · exact h
  · exact List.mem_of_mem_take h

theorem dash_notMem_of_mem_ruleResourceKinds {kind : String} (h : kind ∈ ruleResourceKinds) :
    '-' ∉ kind.toList := by
  revert kind
  decide

variable {res : Rule σ} (hcodec : RoundTrips ctx.codec ofKind)
  (h : Legal ctx.codec ofKind st s stored)

include hcodec h in
/-- `Append` records the rule. -/
theorem outcome_append (hsvc : svc.hasStore = true) (hres : Typed ofKind res) (op : Operation)
    (source : Source) (author reason : String) (rolledBackFrom : Option ℤ)
    (hfrom : rolledBackFrom ≠ some 0) :
    ∃ v s' stored',
      outcome st times s (append ctx svc res op source author reason rolledBackFrom) =
        (.ok v, s') ∧ s'.live = s.live ∧
      Appended ctx.codec svc stored res op rolledBackFrom v stored' ∧
      Legal ctx.codec ofKind st s' stored' := by
  obtain ⟨specJSON, hnormal, hdecodes⟩ := hres.normalizes hcodec
  obtain ⟨req, hreq, hasks⟩ := asks_buildInsertRequest hnormal op source author reason
    rolledBackFrom (times s.ledger.readings)
  have hparent : req.parent = ruleParent (ruleId res) := by
    unfold InsertRequest.parent
    rw [hasks.rule.1, hasks.rule.2]
    rfl
  have hlegal := h.of_readings (s.ledger.readings + 1)
  have hdash : '-' ∉ req.ruleKind.toList := by
    rw [hasks.rule.1]
    exact dash_notMem_of_mem_ruleResourceKinds hres.kind
  obtain ⟨spec, l', stored', hexec, hrecord, hat, hkept, hown, hothers⟩ :=
    exec_insertVersion_history times hlegal.contents hlegal.kept hdash svc.maxVersions.toNat
  rw [hparent] at hown hothers
  have hcontent : op ≠ .delete → spec.toVersion.contentHash = ctx.codec.hashSpecJSON specJSON ∧
      spec.toVersion.specJSON = specJSON := fun hop =>
    ⟨hrecord.content.1.trans (hasks.content hop).1, hrecord.content.2.trans (hasks.content hop).2⟩
  refine ⟨spec.toVersion, ⟨l', s.live⟩, stored', ?_, rfl, ⟨?_, ?_, ?_, hown, hothers⟩,
    ⟨hat, hkept, ?_, h.live⟩⟩
  · unfold append
    rw [outcome_bind_ok times (outcome_ensureAvailable times hsvc)]
    have hnow : outcome st times s (timeNow : RuleM σ ℤ) = (.ok (times s.ledger.readings),
        { s with ledger.readings := s.ledger.readings + 1 }) := rfl
    rw [outcome_bind_ok times hnow, hreq]
    show (((Prog.exec (step st.toResourceStore times)
      (Versioning.insertVersion req svc.maxVersions.toNat)
        { s.ledger with readings := s.ledger.readings + 1 }).1 : Except Failure Version),
      (⟨(Prog.exec (step st.toResourceStore times)
      (Versioning.insertVersion req svc.maxVersions.toNat)
        { s.ledger with readings := s.ledger.readings + 1 }).2, s.live⟩ : TimedState σ S)) = _
    rw [hexec]
  · exact hrecord.operation.trans hasks.operation
  · show (if spec.rolledBackFromVersionNo ≠ 0 then some spec.rolledBackFromVersionNo else none) = _
    rw [hrecord.rolledBackFrom, hasks.rolledBackFrom]
    cases rolledBackFrom with
    | none => rfl
    | some n =>
      have hn : n ≠ 0 := fun h => hfrom (congrArg some h)
      exact if_pos hn
  · intro hop
    rw [hnormal, (hcontent hop).1, (hcontent hop).2]
  · intro p hp v hv hop
    by_cases hself : p = ruleParent (ruleId res)
    · subst hself
      rw [hown] at hv
      -- The version is the new one or one that was there.
      rcases List.mem_cons.mp (mem_of_mem_keepRecent hv) with rfl | hold
      · have hop' : op ≠ .delete := by
          rw [← hasks.operation, ← hrecord.operation]
          exact hop
        rw [(hcontent hop').1, (hcontent hop').2]
        exact ⟨rfl, hdecodes⟩
      · exact h.decodes _ hp v hold hop
    · rw [hothers p hself] at hv
      exact h.decodes p hp v hv hop

theorem outcome_requiredRuleVersioning (h : ctx.ruleVersioning = some svc) :
    outcome st times s (requiredRuleVersioning ctx) = (.ok svc, s) := by
  unfold requiredRuleVersioning
  rw [h]
  rfl

/-- What needs the store fails in a console without a service or a store. -/
theorem outcome_unavailable {k : Service → RuleM σ α} (hctx : ∀ svc, ¬ Available ctx svc)
    (hk : ∀ svc, outcome st times s (ensureAvailable svc) = (.error errVersionStoreError, s) →
      outcome st times s (k svc) = (.error errVersionStoreError, s)) :
    outcome st times s (requiredRuleVersioning ctx >>= k) = (.error errVersionStoreError, s) := by
  cases hsvc : ctx.ruleVersioning with
  | none =>
    refine outcome_bind_error times ?_ k
    unfold requiredRuleVersioning
    rw [hsvc]
    rfl
  | some svc =>
    rw [outcome_bind_ok times (outcome_requiredRuleVersioning times hsvc)]
    refine hk svc ?_
    unfold ensureAvailable
    rw [if_neg fun hstore => hctx svc ⟨hsvc, hstore⟩]
    rfl

theorem outcome_appendRuleHistory_unavailable (hctx : ∀ svc, ¬ Available ctx svc) (res : Rule σ)
    (op : Operation) (source : Source) (author reason : String) (rolledBackFrom : Option ℤ) :
    outcome st times s (appendRuleHistory ctx res op source author reason rolledBackFrom) =
      (.error errVersionStoreError, s) :=
  outcome_unavailable times hctx fun _ h => outcome_bind_error times h _

theorem outcome_ensureBaselineHistory_unavailable (hctx : ∀ svc, ¬ Available ctx svc)
    (res : Rule σ) :
    outcome st times s (ensureBaselineHistory ctx res) = (.error errVersionStoreError, s) :=
  outcome_unavailable times hctx fun _ h =>
    outcome_bind_error times (outcome_bind_error times h _) _

include hcodec h in
/-- `appendRuleHistory` records the rule. -/
theorem outcome_appendRuleHistory (hctx : Available ctx svc) (hres : Typed ofKind res)
    (op : Operation) (source : Source) (author reason : String) (rolledBackFrom : Option ℤ)
    (hfrom : rolledBackFrom ≠ some 0) :
    ∃ v s' stored',
      outcome st times s (appendRuleHistory ctx res op source author reason rolledBackFrom) =
        (.ok v, s') ∧ s'.live = s.live ∧
      Appended ctx.codec svc stored res op rolledBackFrom v stored' ∧
      Legal ctx.codec ofKind st s' stored' := by
  obtain ⟨v, s', stored', hexec, hrest⟩ :=
    outcome_append times hcodec h hctx.2 hres op source author reason rolledBackFrom hfrom
  refine ⟨v, s', stored', ?_, hrest⟩
  unfold appendRuleHistory
  rw [outcome_bind_ok times (outcome_requiredRuleVersioning times hctx.1)]
  exact hexec

include hcodec h in
/-- The baseline is recorded where there is no history, and the live rules stay as they are. -/
theorem outcome_ensureBaselineHistory (hctx : Available ctx svc) (hres : Typed ofKind res) :
    ∃ s' stored', outcome st times s (ensureBaselineHistory ctx res) = (.ok (), s') ∧
      s'.live = s.live ∧ Legal ctx.codec ofKind st s' stored' := by
  have hhas : ∃ found, outcome st times s (hasHistory svc res.kind res.mesh res.name) =
      (.ok found, s) := by
    unfold hasHistory
    rw [outcome_bind_ok times (outcome_ensureAvailable times hctx.2),
      outcome_bind_ok times (outcome_historySnapshot times h _ _)]
    exact ⟨_, rfl⟩
  obtain ⟨found, hfound⟩ := hhas
  unfold ensureBaselineHistory
  rw [outcome_bind_ok times (outcome_requiredRuleVersioning times hctx.1),
    outcome_bind_ok times hfound]
  cases found with
  | true => exact ⟨s, stored, rfl, rfl, h⟩
  | false =>
    obtain ⟨v, s', stored', hexec, hlive, -, hlegal⟩ := outcome_append times hcodec h hctx.2 hres
      .create .bootstrap "system:baseline" "import existing rule before first edit"
      none nofun
    refine ⟨s', stored', ?_, hlive, hlegal⟩
    exact outcome_bind_ok times hexec _

/-! ## The mutations -/

/-- `Add` and `Update` of the resource manager do their write. -/
theorem outcome_resourceManagerWrite (hkind : res.kind ∈ ruleResourceKinds) (w : RuleWrite σ) :
    outcome st times s (resourceManagerWrite res w) =
      (.ok (), { s with live := w.apply s.live }) := by
  unfold resourceManagerWrite
  rw [if_neg (not_not_intro hkind)]
  rfl

theorem outcome_resourceManagerUpsert (hkind : res.kind ∈ ruleResourceKinds) :
    outcome st times s (resourceManagerUpsert res) =
      (.ok (), { s with live := s.live.put res }) := by
  have hhas : outcome st times s (resourceManagerHas res.kind res.resourceKey) =
      (.ok (s.live.get? (ruleId res)).isSome, s) := by
    have hget : Prog.exec (timedStep st times)
        (resourceManagerGetByKey res.kind res.resourceKey : RuleM σ _).run s =
          (.ok (s.live.get? (ruleId res)), s) := rfl
    unfold outcome resourceManagerHas
    rw [ExceptT.run_mk, Prog.exec_bind, hget]
    cases s.live.get? (ruleId res) with
    | none => rfl
    | some r => rfl
  unfold resourceManagerUpsert
  rw [if_neg (not_not_intro hkind), outcome_bind_ok times hhas]
  split_ifs
  · exact outcome_resourceManagerWrite times hkind _
  · exact outcome_resourceManagerWrite times hkind _

theorem outcome_resourceManagerDeleteByKey {ruleRef : RuleRef} {r : Rule σ}
    (hkind : ruleRef.kind ∈ ruleResourceKinds) (hr : s.live.get? ruleRef.id = some r) :
    outcome st times s
        (resourceManagerDeleteByKey ruleRef.kind ruleRef.mesh ruleRef.resourceKey) =
      (.ok (), { s with live := s.live.erase (ruleId r) }) := by
  have hget : outcome st times s ((resourceManagerGetByKey ruleRef.kind ruleRef.resourceKey).adapt
      (wrapError ("failed to get resource " ++ ruleRef.resourceKey)) : RuleM σ _) =
      (.ok (some r), s) := by
    rw [← hr]
    rfl
  unfold resourceManagerDeleteByKey
  rw [if_neg (not_not_intro hkind)]
  have hroute : outcome st times s (resourceMeshRoute ruleRef.mesh : RuleM σ _) = (.ok (), s) := rfl
  rw [outcome_bind_ok times hroute, outcome_bind_ok times hget]
  rfl

/-- The state is one that mutations reach. -/
def Reachable (codec : Codec σ) (ofKind : String → σ → Prop) (st : VersionStore S)
    (s : TimedState σ S) : Prop :=
  ∃ stored, Legal codec ofKind st s stored

include hcodec h in
theorem reachable_createRule (hres : Typed ofKind res) (author : String) :
    Reachable ctx.codec ofKind st (outcome st times s (createRule ctx res author)).2 := by
  unfold createRule
  rw [outcome_withRuleLock]
  by_cases hctx : ∃ svc, Available ctx svc
  · obtain ⟨svc, hctx⟩ := hctx
    obtain ⟨v, s', stored', hexec, -, -, hlegal⟩ := outcome_appendRuleHistory times hcodec h hctx
      hres .create .admin author "" none nofun
    rw [outcome_bind_ok times hexec, resourceManagerAdd,
      outcome_resourceManagerWrite times hres.kind]
    refine ⟨stored', hlegal.write (w := .createRule res) fun r hr => ?_⟩
    cases hr
    exact hres
  · rw [outcome_bind_error times (outcome_appendRuleHistory_unavailable times
      (not_exists.mp hctx) _ _ _ _ _ _)]
    exact ⟨stored, h⟩

include hcodec h in
theorem reachable_updateRule (hres : Typed ofKind res) (author : String) :
    Reachable ctx.codec ofKind st (outcome st times s (updateRule ctx res author)).2 := by
  unfold updateRule
  rw [outcome_withRuleLock]
  cases hlive : s.live.get? (ruleId res) with
  | none =>
    have hget : ∃ e, outcome st times s (getExistingRule (.of res) : RuleM σ _) =
        (.error e, s) := by
      unfold getExistingRule
      rw [outcome_bind_ok times (outcome_getRuleIfExists times _)]
      exact ⟨_, by rw [show s.live.get? (RuleRef.of res).id = none from hlive]; rfl⟩
    obtain ⟨e, hget⟩ := hget
    rw [outcome_bind_error times hget]
    exact ⟨stored, h⟩
  | some existing =>
    have hget : outcome st times s (getExistingRule (.of res)) = (.ok existing, s) := by
      unfold getExistingRule
      rw [outcome_bind_ok times (outcome_getRuleIfExists times _),
        show s.live.get? (RuleRef.of res).id = some existing from hlive]
      rfl
    rw [outcome_bind_ok times hget]
    by_cases hctx : ∃ svc, Available ctx svc
    · obtain ⟨svc, hctx⟩ := hctx
      obtain ⟨s₁, stored₁, hbaseline, -, h₁⟩ :=
        outcome_ensureBaselineHistory times hcodec h hctx (h.of_get? hlive).1
      obtain ⟨v, s₂, stored₂, hexec, -, -, h₂⟩ := outcome_appendRuleHistory times hcodec h₁ hctx
        hres .update .admin author "" none nofun
      rw [outcome_bind_ok times hbaseline, outcome_bind_ok times hexec,
        resourceManagerUpdate, outcome_resourceManagerWrite times hres.kind]
      refine ⟨stored₂, h₂.write (w := .updateRule res) fun r hr => ?_⟩
      cases hr
      exact hres
    · rw [outcome_bind_error times (outcome_ensureBaselineHistory_unavailable times
        (not_exists.mp hctx) _)]
      exact ⟨stored, h⟩

include hcodec h in
theorem reachable_deleteRule {ruleRef : RuleRef} (hkind : ruleRef.kind ∈ ruleResourceKinds)
    (author : String) :
    Reachable ctx.codec ofKind st (outcome st times s (deleteRule ctx ruleRef author)).2 := by
  have hget : outcome st times s (resourceManagerGetByKey ruleRef.kind ruleRef.resourceKey) =
      (.ok (s.live.get? ruleRef.id), s) := rfl
  unfold deleteRule
  rw [outcome_withRuleLock, outcome_bind_ok times hget]
  cases hlive : s.live.get? ruleRef.id with
  | none => exact ⟨stored, h⟩
  | some snapshot =>
    by_cases hctx : ∃ svc, Available ctx svc
    · obtain ⟨svc, hctx⟩ := hctx
      have hsnapshot := (h.of_get? hlive).1
      obtain ⟨s₁, stored₁, hbaseline, hlive₁, h₁⟩ :=
        outcome_ensureBaselineHistory times hcodec h hctx hsnapshot
      obtain ⟨v, s₂, stored₂, hexec, hlive₂, -, h₂⟩ := outcome_appendRuleHistory times hcodec h₁
        hctx hsnapshot .delete .admin author "" none nofun
      have hsame : s₂.live.get? ruleRef.id = some snapshot := by rw [hlive₂, hlive₁, hlive]
      rw [outcome_bind_ok times hbaseline, outcome_bind_ok times hexec,
        outcome_resourceManagerDeleteByKey times hkind hsame]
      exact ⟨stored₂, h₂.write (w := .deleteRule snapshot) nofun⟩
    · rw [outcome_bind_error times (outcome_ensureBaselineHistory_unavailable times
        (not_exists.mp hctx) _)]
      exact ⟨stored, h⟩

/-- `Get` returns the version with the number, up to its flag. -/
theorem outcome_get (h : Legal ctx.codec ofKind st s stored) (hsvc : svc.hasStore = true)
    (ruleRef : RuleRef) (n : ℤ) :
    (∃ e, outcome st times s (get svc ruleRef n : RuleM σ _) = (.error e, s) ∧
      ∀ v ∈ history (ruleParent ruleRef.id) stored.items, v.versionNo ≠ n) ∨
    ∃ target ∈ history (ruleParent ruleRef.id) stored.items, target.versionNo = n ∧
      ∃ flag, outcome st times s (get svc ruleRef n : RuleM σ _) =
        (.ok { target with isLatestRecorded := flag }, s) := by
  obtain ⟨found, hget, hfound⟩ := outcome_getVersion times h ruleRef.kind ruleRef.resourceKey n
  unfold get
  rw [outcome_bind_ok times (outcome_ensureAvailable times hsvc)]
  cases found with
  | error e =>
    refine .inl ⟨e, outcome_bind_error times hget _, fun v hv hn => ?_⟩
    cases (hfound v).mpr ⟨hv, hn⟩
  | ok target =>
    obtain ⟨htarget, hn⟩ := (hfound target).mp rfl
    refine .inr ⟨target, htarget, hn, ?_⟩
    rw [outcome_bind_ok times hget, outcome_bind_ok times (outcome_historySnapshot times h _ _)]
    cases (historySnapshotFromState (.ofVersions
      (history (parentOf ruleRef.kind ruleRef.resourceKey) stored.items))).head with
    | none => exact ⟨target.isLatestRecorded, rfl⟩
    | some head => exact ⟨_, rfl⟩

end Exec

/-! ## Rollbacks -/

/-- Why a rollback of a rule with this history and live rule is refused. -/
inductive Refused (ctx : Context σ) (reason : String) (versions : List Version)
    (live : Option (Rule σ)) (n : ℤ) : Prop
  /-- There is no version store. -/
  | unavailable (h : ∀ svc, ¬ Available ctx svc)
  | noReason (h : trimSpace reason = "")
  | unknown (h : ∀ v ∈ versions, v.versionNo ≠ n)
  | delete {target : Version} (htarget : target ∈ versions) (hn : target.versionNo = n)
      (h : target.operation = .delete)
  /-- The target has the content of the live rule. -/
  | current {target : Version} (htarget : target ∈ versions) (hn : target.versionNo = n)
      {rule : Rule σ} (hlive : live = some rule) {contentHash specJSON : String}
      (hnormal : normalizeResource ctx.codec rule = .ok (contentHash, specJSON))
      (h : contentHash = target.contentHash ∨ specJSON = target.specJSON)

/-- What a rollback to the target has done. -/
structure RolledBack (ctx : Context σ) (svc : Service) (st : VersionStore S) (times : ℕ → ℤ)
    (s : TimedState σ S) (id : RuleId) (versions : List Version) (target : Version)
    (result : RollbackResult) (s' : TimedState σ S) : Prop where
  /-- One version is appended to the history of the rule: it has the hash of the target, names the
  target, and creates or updates the rule. -/
  own : ∃ v, recordedHistory st times s' id =
      .ok (keepRecent svc.maxVersions.toNat (v :: versions)) ∧
    v.contentHash = target.contentHash ∧ v.rolledBackFromVersionNo = some target.versionNo ∧
    v.operation = (if s.live.get? id = none then .create else .update) ∧
    result = ⟨target.versionNo, v.versionNo, .rollback⟩
  /-- The histories of other rules are as they were. -/
  others : ∀ id', ruleParent id' ≠ ruleParent id →
    recordedHistory st times s' id' = recordedHistory st times s id'
  live : ∃ rule, s'.live.get? id = some rule ∧
    normalizeResource ctx.codec rule = .ok (target.contentHash, target.specJSON)
  liveOthers : ∀ id', id' ≠ id → s'.live.get? id' = s.live.get? id'

/-- A rollback is refused and changes nothing, or it is done. -/
def RefusedOrDone (ctx : Context σ) (st : VersionStore S) (times : ℕ → ℤ) (s : TimedState σ S)
    (ruleRef : RuleRef) (n : ℤ) (reason author : String) (versions : List Version) : Prop :=
  (Refused ctx reason versions (s.live.get? ruleRef.id) n ∧
    ∃ e, outcome st times s (rollbackRuleVersion ctx ruleRef n reason author) = (.error e, s)) ∨
  (¬ Refused ctx reason versions (s.live.get? ruleRef.id) n ∧
    ∃ svc, ctx.ruleVersioning = some svc ∧ ∃ target ∈ versions, target.versionNo = n ∧
    ∃ result s', outcome st times s (rollbackRuleVersion ctx ruleRef n reason author) =
      (.ok result, s') ∧ RolledBack ctx svc st times s ruleRef.id versions target result s')

section Rollback

variable {ctx : Context σ} {ofKind : String → σ → Prop} {st : VersionStore S} (times : ℕ → ℤ)
  {s : TimedState σ S} {stored : Versions} {ruleRef : RuleRef} {svc : Service} {target : Version}

variable (hcodec : RoundTrips ctx.codec ofKind) (h : Legal ctx.codec ofKind st s stored)

theorem recordedHistory_eq {codec : Codec σ} (h : Legal codec ofKind st s stored) (id : RuleId) :
    recordedHistory st times s id = .ok (history (ruleParent id) stored.items) :=
  recorded_eq (g := ⟨s.ledger, []⟩) h.contents h.kept id.1 id.2

theorem outcome_rollbackChanges_some {current : Rule σ} {contentHash specJSON : String}
    (hnormal : normalizeResource ctx.codec current = .ok (contentHash, specJSON))
    (target : Version) :
    outcome st times s (rollbackChanges ctx target (some current)) =
      (if contentHash = target.contentHash then .error errRollbackToCurrent else .ok (), s) := by
  unfold rollbackChanges
  dsimp only
  rw [hnormal]
  show outcome st times s (if _ then _ else _) = _
  split_ifs
  · rfl
  · rfl

include hcodec h in
/-- The check on the live rule passes where there is none or its hash is another one. -/
theorem outcome_rollbackChanges (id : RuleId) (target : Version) :
    (∃ rule specJSON, s.live.get? id = some rule ∧
      normalizeResource ctx.codec rule = .ok (target.contentHash, specJSON) ∧
      outcome st times s (rollbackChanges ctx target (s.live.get? id)) =
        (.error errRollbackToCurrent, s)) ∨
    (∀ rule contentHash specJSON, s.live.get? id = some rule →
      normalizeResource ctx.codec rule = .ok (contentHash, specJSON) →
      contentHash ≠ target.contentHash ∧ contentHash = ctx.codec.hashSpecJSON specJSON) ∧
      outcome st times s (rollbackChanges ctx target (s.live.get? id)) = (.ok (), s) := by
  cases hlive : s.live.get? id with
  | none => exact .inr ⟨nofun, rfl⟩
  | some current =>
    obtain ⟨specJSON, hnormal, -⟩ := (h.of_get? hlive).1.normalizes hcodec
    rw [outcome_rollbackChanges_some times hnormal]
    by_cases hsame : ctx.codec.hashSpecJSON specJSON = target.contentHash
    · rw [if_pos hsame]
      exact .inl ⟨current, specJSON, rfl, hsame ▸ hnormal, rfl⟩
    · rw [if_neg hsame]
      refine .inr ⟨?_, rfl⟩
      intro rule contentHash specJSON' hrule hnormal'
      cases hrule
      rw [hnormal] at hnormal'
      obtain ⟨rfl, rfl⟩ := Prod.mk.inj (Except.ok.inj hnormal')
      exact ⟨hsame, rfl⟩

include hcodec h in
/-- A version that is not a deletion is recorded again and published. -/
theorem rolledBack_of_target (hctx : Available ctx svc) (hkind : ruleRef.kind ∈ ruleResourceKinds)
    (htarget : target ∈ history (ruleParent ruleRef.id) stored.items)
    (hop : target.operation ≠ .delete) (reason author : String) :
    ∃ res result s', resourceFromSpecJSON ctx.codec ruleRef target.specJSON = .ok res ∧
      outcome st times s (do
        let appended ← appendRuleHistory ctx res
          (if (s.live.get? ruleRef.id).isSome then Operation.update else .create) .rollback author
          reason (some target.versionNo)
        resourceManagerUpsert res
        pure (⟨target.versionNo, appended.versionNo, .rollback⟩ : RollbackResult)) =
        (.ok result, s') ∧
      RolledBack ctx svc st times s ruleRef.id (history (ruleParent ruleRef.id) stored.items) target
        result s' ∧
      Reachable ctx.codec ofKind st s' := by
  obtain ⟨hhash, hdecodes⟩ := h.decodes (ruleParent ruleRef.id) hkind target htarget hop
  obtain ⟨res, hres, hid, htyped, hnormal⟩ := hdecodes.resourceFromSpecJSON hkind
  have hpos : target.versionNo ≠ 0 := by
    obtain ⟨r, hr, spec, hrecord, rfl⟩ := mem_history.mp htarget
    exact (h.kept.kept hr hrecord).pos.ne'
  obtain ⟨v, s₁, stored₁, hexec, hlive, happended, h₁⟩ := outcome_appendRuleHistory times hcodec h
    hctx htyped (if (s.live.get? ruleRef.id).isSome then Operation.update else .create) .rollback
    author reason (some target.versionNo)
    fun hzero => hpos (Option.some.inj hzero)
  have hwritten : Legal ctx.codec ofKind st { s₁ with live := s₁.live.put res } stored₁ := by
    refine h₁.write (w := .updateRule res) fun r hr => ?_
    cases hr
    exact htyped
  have hown := happended.own
  have hothers := happended.others
  rw [hid] at hown hothers
  refine ⟨res, ⟨target.versionNo, v.versionNo, .rollback⟩, _, hres, ?_, ⟨⟨v, ?_, ?_, ?_, ?_, rfl⟩,
    ?_, ⟨res, ?_, ?_⟩, ?_⟩, stored₁, hwritten⟩
  · rw [outcome_bind_ok times hexec,
      outcome_bind_ok times (outcome_resourceManagerUpsert times htyped.kind)]
    rfl
  · rw [recordedHistory_eq times hwritten, hown]
  · -- The rule that is built from the text has the text's hash, as has the target.
    have hcontent := happended.content (by split_ifs <;> decide)
    rw [hnormal] at hcontent
    exact (congrArg Prod.fst (Except.ok.inj hcontent)).symm.trans hhash.symm
  · exact happended.rolledBackFrom
  · rw [happended.operation]
    cases s.live.get? ruleRef.id with
    | none => rfl
    | some rule => rfl
  · intro id' hother
    rw [recordedHistory_eq times hwritten, recordedHistory_eq times h, hothers _ hother]
  · rw [← hid]
    exact Keyed.get?_put_self s₁.live res
  · rw [hnormal, hhash]
  · intro id' hother
    show (s₁.live.put res).get? id' = _
    rw [Keyed.get?_put_ne _ (hid ▸ hother), hlive]

include hcodec h in
/-- The part under the lock refuses or rolls back. -/
theorem outcome_rollbackLocked (hctx : Available ctx svc) (hkind : ruleRef.kind ∈ ruleResourceKinds)
    (n : ℤ) {reason : String} (hreason : trimSpace reason ≠ "") (author : String) :
    (Refused ctx reason (history (ruleParent ruleRef.id) stored.items)
        (s.live.get? ruleRef.id) n ∧
      ∃ e, outcome st times s (rollbackLocked ctx svc ruleRef n (trimSpace reason) author) =
        (.error e, s)) ∨
    (¬ Refused ctx reason (history (ruleParent ruleRef.id) stored.items)
        (s.live.get? ruleRef.id) n ∧
      ∃ target ∈ history (ruleParent ruleRef.id) stored.items, target.versionNo = n ∧
      ∃ result s', outcome st times s (rollbackLocked ctx svc ruleRef n (trimSpace reason) author) =
        (.ok result, s') ∧ RolledBack ctx svc st times s ruleRef.id
          (history (ruleParent ruleRef.id) stored.items) target result s' ∧
        Reachable ctx.codec ofKind st s') := by
  unfold rollbackLocked
  rcases outcome_get times h hctx.2 ruleRef n with
    ⟨e, hget, hunknown⟩ | ⟨target, htarget, hn, flag, hget⟩
  · exact .inl ⟨.unknown hunknown, e, outcome_bind_error times hget _⟩
  rw [outcome_bind_ok times hget]
  by_cases hop : target.operation = .delete
  · rw [if_pos hop]
    exact .inl ⟨.delete htarget hn hop, _, rfl⟩
  rw [if_neg hop, outcome_bind_ok times (outcome_getRuleIfExists times ruleRef)]
  rcases outcome_rollbackChanges times hcodec h ruleRef.id
      { target with isLatestRecorded := flag } with
    ⟨rule, specJSON, hlive, hnormal, hchanges⟩ | ⟨hdiffers, hchanges⟩
  · exact .inl ⟨.current htarget hn hlive hnormal (.inl rfl), _,
      outcome_bind_error times hchanges _⟩
  rw [outcome_bind_ok times hchanges]
  obtain ⟨res, result, s', hres, hexec, hdone⟩ :=
    rolledBack_of_target times hcodec h hctx hkind htarget hop (trimSpace reason) author
  refine .inr ⟨fun hrefused => ?_, target, htarget, hn, result, s', ?_, hdone⟩
  · -- Versions of one rule with the same number are the same.
    have hsame : ∀ w ∈ history (ruleParent ruleRef.id) stored.items, w.versionNo = n →
        w = target := fun w hw hwn =>
      eq_of_versionNo_eq (h.kept.descending _) hw htarget (hwn.trans hn.symm)
    cases hrefused with
    | unavailable hnone => exact hnone svc hctx
    | noReason hblank => exact hreason hblank
    | unknown hunknown => exact hunknown target htarget hn
    | delete hw hwn hdelete => exact hop (hsame _ hw hwn ▸ hdelete)
    | current hw hwn hlive hnormal hcontent =>
      obtain rfl := hsame _ hw hwn
      obtain ⟨hne, hhash⟩ := hdiffers _ _ _ hlive hnormal
      rcases hcontent with hcontent | rfl
      · exact hne hcontent
      · exact hne (hhash.trans (h.decodes _ hkind _ htarget hop).1.symm)
  · rw [hres]
    exact hexec

include hcodec h in
/-- A rollback in a state that mutations reach is refused or done, and leaves such a state. -/
theorem refusedOrDone_of_legal (hkind : ruleRef.kind ∈ ruleResourceKinds) (n : ℤ)
    (reason author : String) :
    RefusedOrDone ctx st times s ruleRef n reason author
        (history (ruleParent ruleRef.id) stored.items) ∧
      Reachable ctx.codec ofKind st
        (outcome st times s (rollbackRuleVersion ctx ruleRef n reason author)).2 := by
  unfold RefusedOrDone rollbackRuleVersion
  cases hsvc : ctx.ruleVersioning with
  | none =>
    refine ⟨.inl ⟨.unavailable fun svc hctx => ?_, _, rfl⟩, stored, h⟩
    cases hsvc.symm.trans hctx.1
  | some svc =>
    dsimp only
    by_cases hreason : trimSpace reason = ""
    · rw [if_pos hreason]
      exact ⟨.inl ⟨.noReason hreason, _, rfl⟩, stored, h⟩
    rw [if_neg hreason, outcome_withRuleLock]
    by_cases hstore : svc.hasStore = true
    · rcases outcome_rollbackLocked times hcodec h ⟨hsvc, hstore⟩ hkind n hreason author with
        ⟨hrefused, e, hexec⟩ | ⟨hdone, target, htarget, hn, result, s', hexec, hback, hreach⟩
      · exact ⟨.inl ⟨hrefused, e, hexec⟩, by rw [hexec]; exact ⟨stored, h⟩⟩
      · exact ⟨.inr ⟨hdone, svc, rfl, target, htarget, hn, result, s', hexec, hback⟩,
          by rw [hexec]; exact hreach⟩
    · have hexec : outcome st times s (rollbackLocked ctx svc ruleRef n (trimSpace reason) author) =
          (.error errVersionStoreError, s) := by
        refine outcome_bind_error times (outcome_bind_error times ?_ _) _
        unfold ensureAvailable
        rw [if_neg hstore]
        rfl
      refine ⟨.inl ⟨.unavailable fun svc' hctx => hstore ?_, _, hexec⟩, by
        rw [hexec]; exact ⟨stored, h⟩⟩
      obtain rfl : svc = svc' := Option.some.inj (hsvc.symm.trans hctx.1)
      exact hctx.2

include hcodec h in
/-- Every mutation leaves a state that mutations reach. -/
theorem reachable_mutation {m : Mutation σ} (hm : m.Typed ofKind) :
    Reachable ctx.codec ofKind st (outcome st times s (m.program ctx)).2 := by
  cases m with
  | create res author => exact reachable_createRule times hcodec h hm author
  | update res author => exact reachable_updateRule times hcodec h hm author
  | delete ruleRef author => exact reachable_deleteRule times hcodec h hm author
  | rollback ruleRef n reason author =>
    have hreach := (refusedOrDone_of_legal times hcodec h hm n reason author).2
    -- The program drops the result of the rollback.
    have hdrop : (outcome st times s (Mutation.program ctx (.rollback ruleRef n reason author))).2 =
        (outcome st times s (rollbackRuleVersion ctx ruleRef n reason author)).2 := by
      unfold Mutation.program
      cases hexec : outcome st times s (rollbackRuleVersion ctx ruleRef n reason author) with
      | mk result s' =>
        cases result with
        | error e => rw [outcome_bind_error times hexec]
        | ok result =>
          rw [outcome_bind_ok times hexec]
          rfl
    rw [hdrop]
    exact hreach

/-- After every run of mutations, one at a time, from an empty version store and any live rules, a
rollback is refused and changes nothing, or it appends one version with the hash of its target and
leaves a live rule with the target's content. -/
theorem rollback_in_run (hcodec : RoundTrips ctx.codec ofKind) {s₀ : TimedState σ S}
    (h₀ : Unrecorded ofKind st s₀) {ms : List (Mutation σ)}
    (hrun : Run (timedMutation ctx ofKind st times) s₀ ms s) (ruleRef : RuleRef)
    (hkind : ruleRef.kind ∈ ruleResourceKinds) (n : ℤ) (reason author : String) :
    ∃ versions, recordedHistory st times s ruleRef.id = .ok versions ∧
      RefusedOrDone ctx st times s ruleRef n reason author versions := by
  have hreach : Reachable ctx.codec ofKind st s := by
    refine hrun.invariant (Reachable ctx.codec ofKind st) ⟨_, h₀.legal ctx.codec⟩ ?_
    rintro s m s' ⟨stored, hlegal⟩ ⟨hm, rfl⟩
    exact reachable_mutation times hcodec hlegal hm
  obtain ⟨stored, hlegal⟩ := hreach
  exact ⟨_, recordedHistory_eq times hlegal ruleRef.id,
    (refusedOrDone_of_legal times hcodec hlegal hkind n reason author).1⟩

end Rollback

/-! ## A sample rollback -/

/-- No version and no rule. -/
def sampleTimed : TimedState String (Memory.ResourceStore (Option RuleVersion)) :=
  ⟨⟨Memory.init ruleVersionIndexers, 0⟩, Keyed.empty⟩

theorem unrecorded_sampleTimed :
    Unrecorded (fun _ _ => True) memoryVersionStore sampleTimed where
  empty := ⟨rfl, trivial, rfl⟩
  live := fun _ hr => absurd hr List.not_mem_nil

theorem roundTrips_sampleCodec : RoundTrips sampleCodec fun _ _ => True where
  spec := fun _ _ spec _ => ⟨spec, rfl, spec, rfl, trivial, rfl⟩
  noSpec := fun _ _ => ⟨deleteSpecJSON, rfl, trivial, rfl⟩

/-- A console without a lock, over the memory store, that keeps all versions. -/
def keepingContext : Context String := { sampleContext with ruleVersioning := some ⟨0, true⟩ }

/-- The tag route is created and updated. -/
def createAndUpdate : List (Mutation String) :=
  [.create (sampleRule "v1") "", .update (sampleRule "v2") ""]

/-- The state after some mutations. -/
def timedAfter (ms : List (Mutation String)) :
    TimedState String (Memory.ResourceStore (Option RuleVersion)) :=
  ms.foldl (fun s m => (outcome memoryVersionStore (fun n => n) s (m.program keepingContext)).2)
    sampleTimed

/-- The tag route that was created and updated is rolled back to its first version. -/
theorem rollback_after_update :
    Run (timedMutation keepingContext (fun _ _ => True) memoryVersionStore fun n => n) sampleTimed
        createAndUpdate (timedAfter createAndUpdate) ∧
      ∃ versions, recordedHistory memoryVersionStore (fun n => n) (timedAfter createAndUpdate)
          (ruleId (sampleRule "")) = .ok versions ∧
        RefusedOrDone keepingContext memoryVersionStore (fun n => n) (timedAfter createAndUpdate)
          (.of (sampleRule "")) 1 "undo" "" versions := by
  have hrun : Run (timedMutation keepingContext (fun _ _ => True) memoryVersionStore fun n => n)
      sampleTimed createAndUpdate (timedAfter createAndUpdate) := by
    have htyped : ∀ spec, Typed (fun _ _ => True) (sampleRule spec) := fun spec =>
      ⟨(by decide : tagRouteKind ∈ ruleResourceKinds), fun _ _ => trivial⟩
    exact .snoc (.snoc .nil ⟨htyped "v1", rfl⟩) ⟨htyped "v2", rfl⟩
  exact ⟨hrun, rollback_in_run _ roundTrips_sampleCodec unrecorded_sampleTimed hrun
    (.of (sampleRule "")) (by decide) 1 "undo" ""⟩

end DubboAdmin.Console
