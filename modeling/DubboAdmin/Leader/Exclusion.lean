import DubboAdmin.Leader.Lease

/-!
# At most one leader at a time

A replica whose own last written `expires_at` has not passed still has its row in the table
(`RowKept`): the only statements that replace a row of another holder are the `UPDATE` of an expired
row and the `INSERT`, and the first compares with a time that was read before, so not later than
now. Two such replicas then have the same row, so the same holder (`mutual_exclusion`).

The argument uses neither `isLeader` nor the versions, so it holds for every interleaving, also
where a replica's own calls overlap.
-/

namespace DubboAdmin.Leader

variable {R ι : Type}

/-- The lease that the replica has last written has not expired. -/
def Unexpired (s : Cluster R) (i : R) : Prop := ∃ w, s.written i = some w ∧ s.now ≤ w.expiresAt

/-- The row of a replica whose lease has not expired is the one that it has written. -/
def RowKept (cfg : R → LeaderElection) (s : Cluster R) : Prop :=
  ∀ i w, s.written i = some w → s.now ≤ w.expiresAt →
    s.row = some w ∧ w.holderID = (cfg i).holderID

/-! ## Steps -/

section Steps

variable {cfg : R → LeaderElection} {s : Cluster R} {i : R} {w : LeaderLease}

theorem not_unexpired_of_expired (h : RowKept cfg s) (hrow : s.row = some w)
    (hexpired : w.expiresAt < s.now) (j : R) : ¬ Unexpired s j := by
  rintro ⟨w', hw', hexpires⟩
  have hsame : w = w' := Option.some.inj (hrow.symm.trans (h j w' hw' hexpires).1)
  rw [hsame] at hexpired
  omega

theorem not_unexpired_of_holder (hinj : Function.Injective fun i => (cfg i).holderID)
    (h : RowKept cfg s) (hrow : s.row = some w) (hholder : w.holderID = (cfg i).holderID) (j : R)
    (hj : j ≠ i) : ¬ Unexpired s j := by
  rintro ⟨w', hw', hexpires⟩
  obtain ⟨hrow', hholder'⟩ := h j w' hw' hexpires
  have hsame : w = w' := Option.some.inj (hrow.symm.trans hrow')
  have hids : (cfg j).holderID = (cfg i).holderID := by rw [← hholder', ← hsame, hholder]
  exact hj (hinj hids)

variable [DecidableEq R]

theorem rowKept_rewrite (hfree : ∀ j, j ≠ i → ¬ Unexpired s j)
    (hholder : w.holderID = (cfg i).holderID) : RowKept cfg (s.rewrite i w) := by
  intro j w' hw' hexpires
  simp only [Cluster.rewrite] at hw' hexpires ⊢
  by_cases hj : j = i
  · subst hj
    rw [Function.update_self] at hw'
    cases hw'
    exact ⟨rfl, hholder⟩
  · rw [Function.update_of_ne hj] at hw'
    exact absurd ⟨w', hw', hexpires⟩ (hfree j hj)

/-- A step keeps the rows, when the time of an `UPDATE` of an expired row has been reached. -/
theorem effect_rowKept (hinj : Function.Injective fun i => (cfg i).holderID) (h : RowKept cfg s)
    {o : LeaseOp} (htime : ∀ now expiresAt, o = .updateExpired now expiresAt → now ≤ s.now)
    {s' : Cluster R} (heffect : RowEffect cfg i s o s') : RowKept cfg s' := by
  cases heffect with
  | unchanged hnow hrow hwritten _ _ _ =>
    intro j w hw hexpires
    rw [hwritten] at hw
    rw [hnow] at hexpires
    rw [hrow]
    exact h j w hw hexpires
  | takeOver ho hrow hexpired =>
    have hreached := lt_of_lt_of_le hexpired (htime _ _ ho)
    exact rowKept_rewrite (fun j _ => not_unexpired_of_expired h hrow hreached j) rfl
  | create ho hrow =>
    -- Without a row, no replica has a lease that has not expired.
    have hfree : ∀ j, j ≠ i → ¬ Unexpired s j := by
      rintro j - ⟨w', hw', hexpires⟩
      have hrow' := (h j w' hw' hexpires).1
      rw [hrow] at hrow'
      cases hrow'
    exact rowKept_rewrite hfree rfl
  | extend _ hrow hholder _ | release _ hrow hholder =>
    exact rowKept_rewrite (not_unexpired_of_holder hinj h hrow hholder) hholder

end Steps

/-! ## Calls -/

section Calls

variable [DecidableEq R] {cfg : R → LeaderElection} {inst : ι → R} {j : ι} {s : Cluster R}

/-- The rows are kept, while the clock goes on. -/
def leaseProtocol (cfg : R → LeaderElection) (ι : Type) : Protocol (Cluster R) ι where
  inv := RowKept cfg
  rely _ s s' := s.now ≤ s'.now

/-- A thread of a replica keeps the rows from here on. -/
abbrev SafeLease (cfg : R → LeaderElection) (inst : ι → R) (j : ι) {α : Type}
    (post : α → Cluster R → Prop) (p : LeaseProg α) (s : Cluster R) : Prop :=
  Safe (replicas cfg inst) (fun _ _ _ => True) (leaseProtocol cfg ι) j post p s

/-- A thread of a replica keeps the rows, whatever it returns. -/
abbrev KeepsRows (cfg : R → LeaderElection) (inst : ι → R) (j : ι) {α : Type} (p : LeaseProg α)
    (s : Cluster R) : Prop :=
  SafeLease cfg inst j (fun _ _ => True) p s

variable (hinj : Function.Injective fun i => (cfg i).holderID)
include hinj

theorem safeLease_perform {o : LeaseOp}
    (htime : ∀ now expiresAt, o = .updateExpired now expiresAt → now ≤ s.now) :
    KeepsRows cfg inst j (Prog.perform o) s := by
  refine Safe.op (fun s => ∀ now expiresAt, o = .updateExpired now expiresAt → now ≤ s.now)
    (fun s s' _ _ hclock htime now expiresAt ho => (htime now expiresAt ho).trans hclock) htime ?_
  intro s₁ htime₁ hinv _ res s₂ hsem
  have heffect := stepSem_effect hsem
  exact ⟨effect_rowKept hinj hinv htime₁ heffect, fun _ _ => (effect_now heffect).ge,
    Safe.done⟩

theorem safeLease_timeNow : SafeLease cfg inst j (fun now s => now ≤ s.now) timeNow s := by
  refine Safe.op (fun _ => True) (Protocol.stable_true _ _) trivial ?_
  intro s₁ _ hinv _ (now : ℤ) s₂ hsem
  have heffect := stepSem_effect hsem
  have hread : now ≤ s₂.now := by
    cases hsem with
    | run _ => exact le_rfl
  refine ⟨effect_rowKept hinj hinv (fun _ _ ho => by cases ho) heffect,
    fun _ _ => (effect_now heffect).ge, ?_⟩
  exact Safe.ret (fun _ _ _ _ hclock hle => hle.trans hclock) hread

theorem safeLease_storeLeader (b : Bool) :
    KeepsRows cfg inst j (storeLeader b) s :=
  safeLease_perform hinj nofun

theorem safeLease_storeVersion (version : ℤ) :
    KeepsRows cfg inst j (storeVersion version) s :=
  safeLease_perform hinj nofun

theorem safeLease_giveUp : KeepsRows cfg inst j giveUp s :=
  Safe.bind (safeLease_storeLeader hinj false) fun _ _ _ => Safe.done

theorem safeLease_becomeLeader (version : ℤ) :
    KeepsRows cfg inst j (becomeLeader version) s :=
  Safe.bind (safeLease_storeVersion hinj version) fun _ _ _ =>
    Safe.bind (safeLease_storeLeader hinj true) fun _ _ _ => Safe.done

theorem safeLease_tryAcquire (le : LeaderElection) :
    KeepsRows cfg inst j le.tryAcquire s := by
  refine Safe.bind (safeLease_timeNow hinj) fun now s₁ hnow => ?_
  -- The `UPDATE` compares with a time that the clock has reached.
  have hupdate : KeepsRows cfg inst j (updateExpired now (now + le.leaseDuration)) s₁ :=
    safeLease_perform hinj fun _ _ ho => (LeaseOp.updateExpired.inj ho).1 ▸ hnow
  refine Safe.bind hupdate fun result s₂ _ => ?_
  match result with
  | .error e => exact safeLease_giveUp hinj
  | .ok rowsAffected =>
    dsimp only
    split_ifs
    · refine Safe.bind (safeLease_perform hinj (o := .selectLease) nofun) fun result s₃ _ => ?_
      match result with
      | .error e => exact safeLease_giveUp hinj
      | .ok lease => exact safeLease_becomeLeader hinj lease.version
    · refine Safe.bind (safeLease_perform hinj (o := .createLease _ _) nofun) fun result s₃ _ => ?_
      match result with
      | .error e => exact safeLease_giveUp hinj
      | .ok () => exact safeLease_becomeLeader hinj 1

theorem safeLease_renew (le : LeaderElection) :
    KeepsRows cfg inst j le.renew s := by
  refine Safe.bind (safeLease_perform hinj (o := .loadLeader) nofun) fun isLeader s₁ _ => ?_
  split_ifs
  · refine Safe.bind (safeLease_timeNow hinj) fun now s₂ _ => ?_
    refine Safe.bind (safeLease_perform hinj (o := .loadVersion) nofun) fun version s₃ _ => ?_
    refine Safe.bind (safeLease_perform hinj (o := .updateHeld _ _ _) nofun) fun result s₄ _ => ?_
    match result with
    | .error e => exact safeLease_giveUp hinj
    | .ok rowsAffected =>
      dsimp only
      split_ifs
      · exact Safe.bind (safeLease_perform hinj (o := .loadVersion) nofun) fun version _ _ =>
          Safe.bind (safeLease_storeVersion hinj (version + 1)) fun _ _ _ => Safe.done
      · exact safeLease_giveUp hinj
  · exact Safe.done

theorem safeLease_release (le : LeaderElection) :
    KeepsRows cfg inst j le.release s := by
  refine Safe.bind (safeLease_storeLeader hinj false) fun _ s₁ _ => ?_
  refine Safe.bind (safeLease_timeNow hinj) fun now s₂ _ => ?_
  exact Safe.bind (safeLease_perform hinj (o := .updateReleased _) nofun) fun _ _ _ => Safe.done

theorem safeLease_call {le : LeaderElection} {p : LeaseProg Outcome} (hp : IsCall le p) :
    KeepsRows cfg inst j p s := by
  cases hp with
  | tryAcquire => exact Safe.bind (safeLease_tryAcquire hinj le) fun _ _ _ => Safe.done
  | renew => exact Safe.bind (safeLease_renew hinj le) fun _ _ _ => Safe.done
  | release => exact Safe.bind (safeLease_release hinj le) fun _ _ _ => Safe.done

end Calls

/-! ## Runs -/

/-- In every interleaving of calls, the row of a replica whose lease has not expired is the one that
it has written. -/
theorem run_rowKept [DecidableEq R] [DecidableEq ι] {cfg : R → LeaderElection}
    (hinj : Function.Injective fun i => (cfg i).holderID) {inst : ι → R}
    {P₀ P : Pool LeaseOp LeaseOp.Res Outcome (Cluster R) ι} (hnew : NewReplicas P₀)
    {acts : List (PoolAct ι)} (h : Run (PoolStep (replicas cfg inst)) P₀ acts P) :
    RowKept cfg P.state := by
  have hguarded : Run (Guarded (OpGuard fun _ _ _ => True) (PoolStep (replicas cfg inst))) P₀ acts
      P := h.imp fun _ _ _ hstep => ⟨fun _ _ _ _ _ => trivial, hstep⟩
  have hinit : RowKept cfg P₀.state := by
    intro i w hw
    rw [hnew.written i] at hw
    cases hw
  have hsafe : Pool.Safe (replicas cfg inst) (fun _ _ _ => True) (leaseProtocol cfg ι)
      (fun _ _ _ => True) P := by
    refine pool_safe ?_ ?_ ⟨hinit, fun j => ?_⟩ hguarded
    · -- When time passes, fewer leases have not expired.
      rintro s s' hinv ⟨t, ht, rfl⟩
      exact ⟨fun i w hw hexpires => hinv i w hw (ht.trans hexpires), fun _ => ht⟩
    · exact fun j p _ s _ hp _ => safeLease_call hinj hp
    · rw [hnew.threads j]
      exact Safe.done
  exact hsafe.1

/-- At every moment of every interleaving, at most one replica is leader while the lease that it has
last written has not expired. -/
theorem mutual_exclusion [DecidableEq R] [DecidableEq ι] {cfg : R → LeaderElection}
    (hinj : Function.Injective fun i => (cfg i).holderID) {inst : ι → R}
    {P₀ P : Pool LeaseOp LeaseOp.Res Outcome (Cluster R) ι} (hnew : NewReplicas P₀)
    {acts : List (PoolAct ι)} (h : Run (PoolStep (replicas cfg inst)) P₀ acts P) {i i' : R}
    (hi : P.state.isLeader i = true ∧ Unexpired P.state i)
    (hi' : P.state.isLeader i' = true ∧ Unexpired P.state i') : i = i' := by
  have hkept := run_rowKept hinj hnew h
  obtain ⟨-, w, hw, hexpires⟩ := hi
  obtain ⟨-, w', hw', hexpires'⟩ := hi'
  obtain ⟨hrow, hholder⟩ := hkept i w hw hexpires
  obtain ⟨hrow', hholder'⟩ := hkept i' w' hw' hexpires'
  have hsame : w = w' := Option.some.inj (hrow.symm.trans hrow')
  have hids : (cfg i).holderID = (cfg i').holderID := by rw [← hholder, ← hholder', hsame]
  exact hinj hids

/-! ## A sample run -/

/-- Two replicas, `a` and `b`. -/
def sampleConfig : Bool → LeaderElection
  | true => ⟨"a", 10, by decide⟩
  | false => ⟨"b", 10, by decide⟩

theorem sampleConfig_injective : Function.Injective fun i => (sampleConfig i).holderID := by
  have hdistinct : ∀ i j, (sampleConfig i).holderID = (sampleConfig j).holderID → i = j := by decide
  exact fun i j => hdistinct i j

/-- The two replicas before their first call. -/
def samplePool (row : Option LeaderLease) : Pool LeaseOp LeaseOp.Res Outcome (Cluster Bool) Bool :=
  ⟨⟨100, row, fun _ => false, fun _ => 0, fun _ => none, []⟩, fun _ => .ret .none⟩

theorem newReplicas_samplePool (row : Option LeaderLease) : NewReplicas (samplePool row) where
  isLeader _ := rfl
  written _ := rfl
  versions := rfl
  threads _ := rfl

/-- A step of the two replicas, which only call `TryAcquire`; time passes in steps of `100`. -/
def sampleNext (P : Pool LeaseOp LeaseOp.Res Outcome (Cluster Bool) Bool) (act : PoolAct Bool) :
    Option (Pool LeaseOp LeaseOp.Res Outcome (Cluster Bool) Bool) :=
  P.next (step sampleConfig) (fun i => some do pure (.tryAcquire (← (sampleConfig i).tryAcquire)))
    (fun s => some { s with now := s.now + 100 }) act

theorem poolStep_of_sampleNext (P : Pool LeaseOp LeaseOp.Res Outcome (Cluster Bool) Bool)
    (act : PoolAct Bool) (P' : Pool LeaseOp LeaseOp.Res Outcome (Cluster Bool) Bool)
    (h : sampleNext P act = some P') : PoolStep (replicas sampleConfig id) P act P' := by
  refine Pool.step_of_next (fun i s o => StepSem.run o) (fun i p hp => ?_) (fun s s' hs => ?_) P act
    P' h
  · rw [← Option.some.inj hp]
    exact .tryAcquire
  · exact ⟨s.now + 100, by omega, (Option.some.inj hs).symm⟩

/-- `a` creates the row and becomes leader, and no other replica is leader then. -/
theorem mutual_exclusion_after_acquire :
    ∃ P, Run (PoolStep (replicas sampleConfig id)) (samplePool none)
        [.start true, .thread true, .thread true, .thread true, .thread true, .thread true] P ∧
      P.state.isLeader true = true ∧ Unexpired P.state true ∧
      ∀ i, P.state.isLeader i = true ∧ Unexpired P.state i → i = true := by
  obtain ⟨P, hP, hleader, hwritten, hnow⟩ : ∃ P, [.start true, .thread true, .thread true,
        .thread true, .thread true, .thread true].foldlM sampleNext (samplePool none) = some P ∧
      P.state.isLeader true = true ∧ P.state.written true = some ⟨"a", 100, 110, 1⟩ ∧
      P.state.now = 100 := ⟨_, rfl, rfl, rfl, rfl⟩
  have hrun := Run.of_foldlM poolStep_of_sampleNext hP
  have hunexpired : Unexpired P.state true := ⟨_, hwritten, by rw [hnow]; decide⟩
  exact ⟨P, hrun, hleader, hunexpired, fun i hi => mutual_exclusion sampleConfig_injective
    (newReplicas_samplePool none) hrun hi ⟨hleader, hunexpired⟩⟩

end DubboAdmin.Leader
