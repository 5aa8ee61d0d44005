import DubboAdmin.Console.RuleVersion

/-!
# What a rule mutation leaves

What `createRule` and `updateRule` have done to the live rules where they return `nil`, whatever
the version store and the lock do. The console's settings are written with them.

The reads of the live rules succeed here, and give what `read` makes of the rule that was written
(`ReadSem`): the rule itself, or what is read back of it through its encoding.
-/

namespace DubboAdmin.Console

open Versioning
open Prog (perform Ensures EnsuresOk)

variable {σ S α β : Type}

/-- What a step may do where a read of a live rule gives what `read` makes of it. -/
def ReadSem (read : Rule σ → Rule σ) (st : LedgerStore S) (s : RuleState σ S) :
    (o : RuleOp σ) → o.Res → RuleState σ S → Prop
  | .getByKey kind key, r, s' => r = .ok ((s.live.get? (kind, key)).map read) ∧ s' = s
  | o, r, s' => RuleSem st s o r s'

/-- A step where nothing fails and a read gives what `read` makes of the rule. -/
def readStep (read : Rule σ → Rule σ) (st : LedgerStore S) (s : RuleState σ S) :
    (o : RuleOp σ) → o.Res × RuleState σ S
  | .getByKey kind key => (.ok ((s.live.get? (kind, key)).map read), s)
  | o => ruleStep st s o

/-- A step where nothing fails is one of the steps that may be taken. -/
theorem readSem_readStep (read : Rule σ → Rule σ) (st : LedgerStore S) (s : RuleState σ S)
    (o : RuleOp σ) : ReadSem read st s o (readStep read st s o).1 (readStep read st s o).2 := by
  cases o with
  | getByKey kind key => exact ⟨rfl, rfl⟩
  | _ => exact ruleSem_ruleStep st s _

/-- A result that is no error is `nil`. -/
theorem eq_ok_of_toBool {result : Except Failure Unit} (h : result.toBool = true) :
    result = .ok () := by
  match result with
  | .ok () => rfl
  | .error e => cases h

/-- A computed run that returns no error is a run. -/
theorem runs_of_toBool (read : Rule σ → Rule σ) (st : LedgerStore S) (s : RuleState σ S)
    (p : RuleM σ Unit) (hok : (Prog.exec (readStep read st) p.run s).1.toBool = true) :
    p.run.Runs (ReadSem read st) s (.ok ()) (Prog.exec (readStep read st) p.run s).2 := by
  have hruns := Prog.runs_exec (readSem_readStep read st) p.run s
  rwa [eq_ok_of_toBool hok] at hruns

section Effects

variable {read : Rule σ → Rule σ} {st : LedgerStore S} {s s' : RuleState σ S}

/-- The step is no write to the registry. -/
def RuleOp.NoWrite : RuleOp σ → Prop
  | .write _ => False
  | _ => True

/-- A step that is no write leaves the live rules. -/
theorem live_eq_of_readSem {o : RuleOp σ} (ho : o.NoWrite) {r : o.Res}
    (hsem : ReadSem read st s o r s') : s'.live = s.live := by
  cases o with
  | write w => exact ho.elim
  | getByKey kind key => exact congrArg RuleState.live hsem.2
  | _ =>
    cases hsem
    rfl

/-- So does a program of one such step. -/
theorem ensures_perform_live {o : RuleOp σ} (ho : o.NoWrite) :
    Ensures (ReadSem read st) (fun _ s' => s'.live = s.live) (perform o) s :=
  Ensures.perform fun _ _ hsem => live_eq_of_readSem ho hsem

/-- The program leaves the live rules, where it returns. -/
def KeepsLive (read : Rule σ → Rule σ) (st : LedgerStore S) (p : RuleM σ α) : Prop :=
  ∀ s, EnsuresOk (ReadSem read st) (fun _ s' => s'.live = s.live) p s

/-- A result takes no step. -/
theorem KeepsLive.pure (a : α) : KeepsLive read st (pure a : RuleM σ α) := fun _ =>
  EnsuresOk.pure rfl

/-- An error takes no step. -/
theorem KeepsLive.throw (e : Failure) : KeepsLive read st (throw e : RuleM σ α) := fun _ =>
  EnsuresOk.throw e

/-- Two programs that leave the live rules, one after the other. -/
theorem KeepsLive.bind {p : RuleM σ α} {f : α → RuleM σ β} (hp : KeepsLive read st p)
    (hf : ∀ a, KeepsLive read st (f a)) : KeepsLive read st (p >>= f) := by
  intro s
  refine EnsuresOk.bind (hp s) fun a s₁ h₁ => ?_
  exact (hf a s₁).mono fun _ s₂ h₂ => h₂.trans h₁

/-! ## The calls before a write -/

/-- The check of the kind leaves the live rules. -/
theorem keepsLive_resourceKindRoute (kind : String) :
    KeepsLive read st (resourceKindRoute kind : RuleM σ Unit) := fun _ =>
  Ensures.perform fun _ _ hsem _ _ =>
    live_eq_of_readSem (o := RuleOp.resourceKindRoute kind) trivial hsem

/-- The check of the mesh leaves them. -/
theorem keepsLive_resourceMeshRoute (mesh : String) :
    KeepsLive read st (resourceMeshRoute mesh : RuleM σ Unit) := fun _ =>
  Ensures.perform fun _ _ hsem _ _ =>
    live_eq_of_readSem (o := RuleOp.resourceMeshRoute mesh) trivial hsem

/-- An append to the history leaves them. -/
theorem keepsLive_insertVersion (req : InsertRequest) (maxVersions : ℕ) :
    KeepsLive read st (insertVersion req maxVersions : RuleM σ Version) := fun _ =>
  Ensures.perform fun _ _ hsem _ _ =>
    live_eq_of_readSem (o := RuleOp.adapter (.insertVersion req maxVersions)) trivial hsem

/-- A snapshot of the history leaves them. -/
theorem keepsLive_historySnapshot (kind resourceKey : String) :
    KeepsLive read st (historySnapshot kind resourceKey : RuleM σ HistorySnapshot) := fun _ =>
  Ensures.perform fun _ _ hsem _ _ =>
    live_eq_of_readSem (o := RuleOp.adapter (.historySnapshot kind resourceKey)) trivial hsem

/-- The clock leaves them. -/
theorem keepsLive_timeNow : KeepsLive read st (timeNow : RuleM σ ℤ) := by
  intro s
  exact Ensures.bind (ensures_perform_live trivial) fun _ _ h₁ _ _ => h₁

/-- A computed result leaves them. -/
theorem keepsLive_ofExcept (result : Except Failure α) :
    KeepsLive read st (ofExcept result : RuleM σ α) := by
  cases result with
  | ok a => exact .pure a
  | error e => exact .throw e

/-- The check for a version store leaves them. -/
theorem keepsLive_ensureAvailable (svc : Service) :
    KeepsLive read st (ensureAvailable svc : RuleM σ Unit) := by
  unfold ensureAvailable
  split_ifs
  · exact .pure ()
  · exact .throw _

/-- The check for a versioning service leaves them. -/
theorem keepsLive_requiredRuleVersioning (ctx : Context σ) :
    KeepsLive read st (requiredRuleVersioning ctx) := by
  unfold requiredRuleVersioning
  cases ctx.ruleVersioning with
  | none => exact .throw _
  | some svc => exact .pure svc

/-- `Append` of the versioning service leaves them. -/
theorem keepsLive_append (ctx : Context σ) (svc : Service) (res : Rule σ) (op : Operation)
    (source : Source) (author reason : String) (rolledBackFromVersionNo : Option ℤ) :
    KeepsLive read st (append ctx svc res op source author reason rolledBackFromVersionNo) :=
  (keepsLive_ensureAvailable svc).bind fun _ =>
    keepsLive_timeNow.bind fun _ =>
      (keepsLive_ofExcept _).bind fun req => keepsLive_insertVersion req _

/-- The append of a mutation leaves them. -/
theorem keepsLive_appendRuleHistory (ctx : Context σ) (res : Rule σ) (op : Operation)
    (source : Source) (author reason : String) (rolledBackFromVersionNo : Option ℤ) :
    KeepsLive read st
      (appendRuleHistory ctx res op source author reason rolledBackFromVersionNo) :=
  (keepsLive_requiredRuleVersioning ctx).bind fun svc =>
    keepsLive_append ctx svc res op source author reason rolledBackFromVersionNo

/-- The baseline leaves them. -/
theorem keepsLive_ensureBaselineHistory (ctx : Context σ) (res : Rule σ) :
    KeepsLive read st (ensureBaselineHistory ctx res) := by
  have hfound : ∀ svc, KeepsLive read st
      (hasHistory svc res.kind res.mesh res.name : RuleM σ Bool) := fun svc =>
    (keepsLive_ensureAvailable svc).bind fun _ =>
      (keepsLive_historySnapshot _ _).bind fun _ => .pure _
  refine (keepsLive_requiredRuleVersioning ctx).bind fun svc => (hfound svc).bind fun found => ?_
  split_ifs
  · exact .pure ()
  · exact (keepsLive_append ctx svc res _ _ _ _ _).bind fun _ => .pure ()

/-! ## Reads and writes -/

/-- A read gives what is made of the live rule, and changes nothing. -/
theorem ensuresOk_resourceManagerGetByKey (kind key : String) :
    EnsuresOk (ReadSem read st) (fun found s' => s'.live = s.live ∧
      found = (s.live.get? (kind, key)).map read) (resourceManagerGetByKey kind key) s := by
  refine EnsuresOk.bind (keepsLive_resourceKindRoute kind s) fun _ s₁ h₁ => ?_
  have hread : Ensures (ReadSem read st) (fun found s' => s' = s₁ ∧
      found = .ok ((s₁.live.get? (kind, key)).map read)) (perform (RuleOp.getByKey kind key)) s₁ :=
    Ensures.perform fun r s₂ hsem => ⟨hsem.2, hsem.1⟩
  refine Ensures.bind hread fun found s₂ h₂ => ?_
  obtain ⟨rfl, rfl⟩ := h₂
  intro item hitem
  cases hitem
  exact ⟨h₁, by rw [h₁]⟩

/-- The governor, where it returns, has done its write. -/
theorem ensuresOk_governorWrite (w : RuleWrite σ) :
    EnsuresOk (ReadSem read st) (fun _ s' => s'.live = w.apply s.live) (governorWrite w) s := by
  refine Ensures.perform fun r s' hsem _ hr => ?_
  subst hr
  cases hsem with
  | write w => rfl

/-- `Add` and `Update` of the resource manager, where they return, have done their write. -/
theorem ensuresOk_resourceManagerWrite (res : Rule σ) (w : RuleWrite σ) :
    EnsuresOk (ReadSem read st) (fun _ s' => s'.live = w.apply s.live)
      (resourceManagerWrite res w) s := by
  unfold resourceManagerWrite
  split_ifs
  · refine EnsuresOk.bind (keepsLive_resourceMeshRoute res.mesh s) fun _ s₁ h₁ => ?_
    rw [← h₁]
    exact ensuresOk_governorWrite w
  · exact EnsuresOk.throw _

/-- What the function ensures under a lock that leaves the state alone, it ensures with the lock. -/
theorem ensuresOk_withRuleLock (ctx : Context σ) (ruleRef : RuleRef) (post : LiveRules σ → Prop)
    {fn : RuleM σ Unit}
    (hfn : ∀ s₁ : RuleState σ S, s₁.live = s.live →
      EnsuresOk (ReadSem read st) (fun _ s' => post s'.live) fn s₁) :
    EnsuresOk (ReadSem read st) (fun _ s' => post s'.live) (withRuleLock ctx ruleRef fn) s := by
  unfold withRuleLock
  split_ifs
  · -- The lock is taken, the function runs, and the lock is released.
    refine Ensures.bind (ensures_perform_live trivial) fun locked s₁ h₁ => ?_
    cases locked with
    | error e => exact fun _ h => nomatch h
    | ok =>
      refine Ensures.bind (hfn s₁ h₁) fun result s₂ h₂ => ?_
      refine Ensures.bind (ensures_perform_live trivial) fun _ s₃ h₃ => ?_
      intro a ha
      rw [h₃]
      exact h₂ a ha
  · exact hfn s rfl

/-! ## The mutations -/

/-- `createRule`, where it returns `nil`, has set the rule. -/
theorem ensuresOk_createRule (ctx : Context σ) (res : Rule σ) (author : String) :
    EnsuresOk (ReadSem read st) (fun _ s' => s'.live = s.live.put res)
      (createRule ctx res author) s := by
  refine ensuresOk_withRuleLock ctx (.of res) (fun live => live = s.live.put res) fun s₁ h₁ => ?_
  refine EnsuresOk.bind (keepsLive_appendRuleHistory ctx res _ _ _ _ _ s₁) fun _ s₂ h₂ => ?_
  rw [← h₁, ← h₂]
  exact ensuresOk_resourceManagerWrite res (.createRule res)

/-- `updateRule`, where it returns `nil`, has set the rule, which was there before. -/
theorem ensuresOk_updateRule (ctx : Context σ) (res : Rule σ) (author : String) :
    EnsuresOk (ReadSem read st)
      (fun _ s' => (s.live.get? (ruleId res)).isSome ∧ s'.live = s.live.put res)
      (updateRule ctx res author) s := by
  refine ensuresOk_withRuleLock ctx (.of res)
    (fun live => (s.live.get? (ruleId res)).isSome ∧ live = s.live.put res) fun s₁ h₁ => ?_
  have hexisting : EnsuresOk (ReadSem read st)
      (fun _ s' => s'.live = s.live ∧ (s.live.get? (ruleId res)).isSome)
      (getExistingRule (.of res)) s₁ := by
    refine EnsuresOk.bind (ensuresOk_resourceManagerGetByKey _ _) fun found s₂ h₂ => ?_
    obtain ⟨hlive, hfound⟩ := h₂
    cases found with
    | none => exact EnsuresOk.throw _
    | some existing =>
      refine EnsuresOk.pure ⟨hlive.trans h₁, ?_⟩
      rw [h₁] at hfound
      exact Option.isSome_map.symm.trans (congrArg Option.isSome hfound.symm)
  refine EnsuresOk.bind hexisting fun existing s₂ h₂ => ?_
  refine EnsuresOk.bind (keepsLive_ensureBaselineHistory ctx existing s₂) fun _ s₃ h₃ => ?_
  refine EnsuresOk.bind (keepsLive_appendRuleHistory ctx res _ _ _ _ _ s₃) fun _ s₄ h₄ => ?_
  refine (ensuresOk_resourceManagerWrite res (.updateRule res)).mono fun _ s' h' => ⟨h₂.2, ?_⟩
  rw [h', h₄, h₃, h₂.1]
  rfl

end Effects

/-! ## A sample console -/

/-- A console without a lock, over the memory store, that tells no specs apart. -/
def plainContext (σ : Type) : Context σ where
  lockManager := false
  ruleVersioning := some ⟨1, true⟩
  codec := ⟨fun _ => .ok deleteSpecJSON, fun _ _ => .error errVersionStoreError, id⟩

/-- The state of the memory store's console. -/
abbrev MemoryState (σ : Type) := RuleState σ (Memory.ResourceStore (Option RuleVersion))

end DubboAdmin.Console
