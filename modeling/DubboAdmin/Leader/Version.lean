import DubboAdmin.Leader.Exclusion

/-!
# Whose version a leader holds

Every write of the row but the one of `Release` raises its version, so that no two replicas ever
write the same one (`VersionInv`). `Renew` keeps to its own version, because its `UPDATE` is
conditioned on it. `TryAcquire` learns the version by a `SELECT` of its own, which returns whatever
row is there by then: the replica's own version as long as it still holds the row at that step
(`versions_owned`), and otherwise another leader's (`readBack_takes_other_version`).

The calls of one replica run one after the other here, as in `RunLeaderElection`.
-/

namespace DubboAdmin.Leader

variable {R : Type}

/-- The replica has written the version. -/
def Cluster.Wrote (s : Cluster R) (i : R) (version : ℤ) : Prop := (i, version) ∈ s.versions

/-- The versions that were written: they are not above the row's, each has one writer, and a leader
holds one of its own. -/
structure VersionInv (s : Cluster R) : Prop where
  /-- While there is no row, no version was written. -/
  none_of_row : s.row = none → s.versions = []
  le_row : ∀ w, s.row = some w → ∀ i v, s.Wrote i v → v ≤ w.version
  writer : ∀ i j v, s.Wrote i v → s.Wrote j v → i = j
  leader : ∀ i, s.isLeader i = true → s.Wrote i (s.currentVersion i)

/-- What the steps of other replicas leave to the replica `i`: its fields, what it has written, and
a row of its own. -/
structure Undisturbed (cfg : R → LeaderElection) (i : R) (s s' : Cluster R) : Prop where
  isLeader : s'.isLeader i = s.isLeader i
  currentVersion : s'.currentVersion i = s.currentVersion i
  written : s'.written i = s.written i
  wrote : ∀ j v, s.Wrote j v → s'.Wrote j v
  row : ∀ w, s'.row = some w → w.holderID = (cfg i).holderID → s.row = some w

/-! ## Steps -/

section Steps

variable [DecidableEq R] {cfg : R → LeaderElection} {s s' : Cluster R} {i : R} {o : LeaseOp}

/-- The condition on a step of the replica `i` that it takes up only a version that it has
written. -/
def TakesOwn (i : R) (s : Cluster R) : LeaseOp → Prop
  | .storeLeader true => s.Wrote i (s.currentVersion i)
  | .storeVersion version => s.Wrote i version
  | _ => True

/-- A row under a version above all that were written keeps them in order. -/
theorem versionInv_write (h : VersionInv s) {w : LeaderLease}
    (hnew : ∀ j v, s.Wrote j v → v < w.version) : VersionInv (s.write i w) where
  none_of_row hrow := by cases hrow
  le_row w' hrow j v hv := by
    cases hrow
    rcases List.mem_cons.mp hv with heq | hv
    · exact (Prod.mk.inj heq).2.le
    · exact (hnew j v hv).le
  writer j k v hj hk := by
    rcases List.mem_cons.mp hj with hj | hj
    · rcases List.mem_cons.mp hk with hk | hk
      · rw [(Prod.mk.inj hj).1, (Prod.mk.inj hk).1]
      · -- `k` has written the new version before.
        have hlt := hnew k v hk
        rw [(Prod.mk.inj hj).2] at hlt
        exact absurd hlt (lt_irrefl _)
    · rcases List.mem_cons.mp hk with hk | hk
      · have hlt := hnew j v hj
        rw [(Prod.mk.inj hk).2] at hlt
        exact absurd hlt (lt_irrefl _)
      · exact h.writer j k v hj hk
  leader j hj := List.mem_cons_of_mem _ (h.leader j hj)

/-- The versions stay in order when the row keeps its version and the fields change as allowed. -/
theorem versionInv_keep (h : VersionInv s) (hown : TakesOwn i s o)
    (hnone : s'.row = none → s.row = none)
    (hrow : ∀ w', s'.row = some w' → ∃ w, s.row = some w ∧ w.version = w'.version)
    (hversions : s'.versions = s.versions) (hleader : s'.isLeader = isLeaderAfter i s o)
    (hversion : s'.currentVersion = currentVersionAfter i s o) : VersionInv s' := by
  have hwrote : ∀ j v, s'.Wrote j v ↔ s.Wrote j v := by
    intro j v
    unfold Cluster.Wrote
    rw [hversions]
  refine ⟨fun h' => hversions.trans (h.none_of_row (hnone h')), fun w' hw' j v hv => ?_,
    fun j k v hj hk => h.writer j k v ((hwrote j v).mp hj) ((hwrote k v).mp hk), fun j hj => ?_⟩
  · obtain ⟨w, hw, heq⟩ := hrow w' hw'
    rw [← heq]
    exact h.le_row w hw j v ((hwrote j v).mp hv)
  · rw [hwrote, hversion]
    rw [hleader] at hj
    -- Only the two stores of the replica itself change a field.
    by_cases hji : j = i
    · subst hji
      cases o with
      | storeLeader b =>
        simp only [isLeaderAfter, Function.update_self] at hj
        subst hj
        exact hown
      | storeVersion version =>
        simp only [currentVersionAfter, Function.update_self]
        exact hown
      | _ => exact h.leader j hj
    · obtain ⟨hleader, hversion⟩ := fieldsAfter_of_ne hji s o
      rw [hleader] at hj
      rw [hversion]
      exact h.leader j hj

/-- A step keeps the versions in order, if it takes up only a version of the replica's own. -/
theorem effect_versionInv (h : VersionInv s) (hown : TakesOwn i s o)
    (heffect : RowEffect cfg i s o s') : VersionInv s' := by
  cases heffect with
  | unchanged _ hrow _ hversions hleader hversion =>
    refine versionInv_keep h hown (fun h' => hrow ▸ h') (fun w' hw' => ?_) hversions hleader
      hversion
    exact ⟨w', hrow ▸ hw', rfl⟩
  | @takeOver w now expiresAt ho hrow hexpired =>
    refine versionInv_write h fun j v hv => ?_
    -- The version that is written is above that of the row, and so above all that were written.
    have hle := h.le_row w hrow j v hv
    exact Int.lt_add_one_of_le hle
  | create ho hrow =>
    refine versionInv_write h fun j v hv => ?_
    unfold Cluster.Wrote at hv
    rw [h.none_of_row hrow] at hv
    cases hv
  | @extend w version now expiresAt ho hrow hholder hversion =>
    refine versionInv_write h fun j v hv => ?_
    have hle := h.le_row w hrow j v hv
    exact Int.lt_add_one_of_le hle
  | @release w expiresAt ho hrow hholder =>
    subst ho
    refine versionInv_keep h hown (fun h' => by cases h') (fun w' hw' => ?_) rfl rfl rfl
    cases hw'
    exact ⟨w, hrow, rfl⟩

/-- A step of a replica leaves the others undisturbed. -/
theorem effect_undisturbed (hinj : Function.Injective fun i => (cfg i).holderID)
    (heffect : RowEffect cfg i s o s') (j : R) (hj : j ≠ i) : Undisturbed cfg j s s' := by
  obtain ⟨hleader, hversion⟩ := effect_fields heffect
  obtain ⟨hleader', hversion'⟩ := fieldsAfter_of_ne hj s o
  refine ⟨by rw [hleader, hleader'], by rw [hversion, hversion'], ?_,
    fun k v hv => effect_versions heffect hv, fun w hw hholder => ?_⟩
  · rcases effect_row heffect with ⟨-, hwritten⟩ | ⟨w, -, -, hwritten⟩
    · rw [hwritten]
    · rw [hwritten, Function.update_of_ne hj]
  · rcases effect_row heffect with ⟨hrow, -⟩ | ⟨w', hrow, hholder', -⟩
    · rw [← hrow, hw]
    · -- The row is now the other replica's.
      have hsame : w' = w := Option.some.inj (hrow.symm.trans hw)
      have hids : (cfg j).holderID = (cfg i).holderID := by rw [← hholder, ← hholder', hsame]
      exact absurd (hinj hids) hj

end Steps

/-! ## Calls -/

section Calls

variable [DecidableEq R] {cfg : R → LeaderElection} {i : R} {s : Cluster R}

/-- The versions are in order, and no step disturbs another replica. -/
def versionProtocol (cfg : R → LeaderElection) : Protocol (Cluster R) R where
  inv := VersionInv
  rely := Undisturbed cfg

/-- At the `SELECT` of `TryAcquire`, a row that exists is still the replica's. -/
def HolderKept (cfg : R → LeaderElection) (i : R) (s : Cluster R) (o : LeaseOp) : Prop :=
  o = .selectLease → ∀ w, s.row = some w → w.holderID = (cfg i).holderID

/-- A replica keeps the versions in order from here on. -/
abbrev SafeVersion (cfg : R → LeaderElection) (i : R) {α : Type} (post : α → Cluster R → Prop)
    (p : LeaseProg α) (s : Cluster R) : Prop :=
  Safe (replicas cfg id) (HolderKept cfg) (versionProtocol cfg) i post p s

/-- What holds of the replica's own part of the state is kept by the others. -/
abbrev Own (cfg : R → LeaderElection) (i : R) (Q : Cluster R → Prop) : Prop :=
  (versionProtocol cfg).Stable i Q

/-- A step that takes up only a version of the replica's own is safe. -/
theorem safeVersion_perform (hinj : Function.Injective fun i => (cfg i).holderID) {o : LeaseOp}
    {post : o.Res → Cluster R → Prop} (Q : Cluster R → Prop) (hQ : Own cfg i Q) (hs : Q s)
    (hown : ∀ s, Q s → TakesOwn i s o)
    (hpost : ∀ s res s', Q s → HolderKept cfg i s o → StepSem cfg i s o res s' → post res s')
    (hstable : ∀ res, Own cfg i (post res)) : SafeVersion cfg i post (Prog.perform o) s := by
  refine Safe.op Q hQ hs fun s₁ hs₁ hinv hgood res s₂ hsem => ?_
  have heffect := stepSem_effect hsem
  exact ⟨effect_versionInv hinv (hown s₁ hs₁) heffect,
    fun j hj => effect_undisturbed hinj heffect j hj,
    Safe.ret (hstable res) (hpost s₁ res s₂ hs₁ hgood hsem)⟩

/-- The row that the replica has last written has this version, which is its own. -/
def Owns (s : Cluster R) (i : R) (version : ℤ) : Prop :=
  ∃ w, s.written i = some w ∧ w.version = version ∧ s.Wrote i version

/-- The replica has taken the row: as long as it holds the row, it is the one that it has
written. -/
def HasTaken (cfg : R → LeaderElection) (i : R) (s : Cluster R) : Prop :=
  ∃ w, s.written i = some w ∧ s.Wrote i w.version ∧
    ∀ w', s.row = some w' → w'.holderID = (cfg i).holderID → w' = w

/-- The replica has stored the version of the row that it has last written. -/
def HoldsOwn (s : Cluster R) (i : R) (version : ℤ) : Prop :=
  Owns s i version ∧ s.currentVersion i = version

omit [DecidableEq R] in
theorem own_owns (version : ℤ) : Own cfg i fun s => Owns s i version := by
  rintro s s' - - hrely ⟨w, hw, hversion, hwrote⟩
  exact ⟨w, hrely.written.trans hw, hversion, hrely.wrote i version hwrote⟩

omit [DecidableEq R] in
theorem own_hasTaken : Own cfg i (HasTaken cfg i) := by
  rintro s s' - - hrely ⟨w, hw, hwrote, hrow⟩
  refine ⟨w, hrely.written.trans hw, hrely.wrote i _ hwrote, fun w' hw' hholder => ?_⟩
  exact hrow w' (hrely.row w' hw' hholder) hholder

omit [DecidableEq R] in
theorem own_holdsOwn (version : ℤ) : Own cfg i fun s => HoldsOwn s i version := by
  rintro s s' hinv hinv' hrely ⟨howns, hversion⟩
  exact ⟨own_owns version s s' hinv hinv' hrely howns, hrely.currentVersion.trans hversion⟩

variable {now expiresAt : ℤ} {s' : Cluster R}

/-- An `UPDATE` that has changed the row has taken it. -/
theorem stepSem_updateExpired {result : Except Failure ℕ}
    (h : StepSem cfg i s (.updateExpired now expiresAt) result s') {n : ℕ}
    (hresult : result = .ok n) (hpos : 0 < n) : HasTaken cfg i s' := by
  cases h with
  | failUpdateExpired _ _ e => cases hresult
  | run _ =>
    cases hrow : s.row with
    | none =>
      simp only [step, hrow] at hresult
      have hzero : 0 = n := Except.ok.inj hresult
      omega
    | some w =>
      by_cases hexpired : w.expiresAt < now
      · simp only [step, hrow, if_pos hexpired]
        refine ⟨_, Function.update_self _ _ _, List.mem_cons_self, fun w' hw' _ => ?_⟩
        exact (Option.some.inj hw').symm
      · simp only [step, hrow, if_neg hexpired] at hresult
        have hzero : 0 = n := Except.ok.inj hresult
        omega

/-- The `SELECT` of a replica that has taken the row, and still holds it, returns its own
version. -/
theorem stepSem_selectLease {result : Except Failure LeaderLease}
    (h : StepSem cfg i s .selectLease result s') (htaken : HasTaken cfg i s)
    (hkept : HolderKept cfg i s .selectLease) {lease : LeaderLease} (hresult : result = .ok lease) :
    Owns s' i lease.version := by
  obtain ⟨w, hw, hwrote, hsame⟩ := htaken
  cases h with
  | failSelectLease e => cases hresult
  | run _ =>
    cases hrow : s.row with
    | none =>
      simp only [step, hrow] at hresult
      cases hresult
    | some w' =>
      simp only [step, hrow] at hresult ⊢
      cases hresult
      obtain rfl := hsame _ hrow (hkept rfl _ hrow)
      exact ⟨_, hw, rfl, hwrote⟩

theorem stepSem_createLease {result : Except Failure Unit}
    (h : StepSem cfg i s (.createLease now expiresAt) result s') (hresult : result = .ok ()) :
    Owns s' i 1 := by
  cases h with
  | failCreateLease _ _ e => cases hresult
  | run _ =>
    cases hrow : s.row with
    | some w =>
      simp only [step, hrow] at hresult
      cases hresult
    | none =>
      simp only [step, hrow]
      exact ⟨_, Function.update_self _ _ _, rfl, List.mem_cons_self⟩

variable {version : ℤ}

/-- An `UPDATE` of `Renew` that has changed the row has written the next version. -/
theorem stepSem_updateHeld {result : Except Failure ℕ}
    (h : StepSem cfg i s (.updateHeld version now expiresAt) result s') {n : ℕ}
    (hresult : result = .ok n) (hpos : 0 < n) : s'.Wrote i (version + 1) := by
  cases h with
  | failUpdateHeld _ _ _ e => cases hresult
  | run _ =>
    cases hrow : s.row with
    | none =>
      simp only [step, hrow] at hresult
      have hzero : 0 = n := Except.ok.inj hresult
      omega
    | some w =>
      by_cases hheld : w.holderID = (cfg i).holderID ∧ w.version = version
      · simp only [step, hrow, if_pos hheld]
        rw [← hheld.2]
        exact List.mem_cons_self
      · simp only [step, hrow, if_neg hheld] at hresult
        have hzero : 0 = n := Except.ok.inj hresult
        omega

variable (hinj : Function.Injective fun i => (cfg i).holderID)
include hinj

theorem safeVersion_plain {o : LeaseOp} (hown : ∀ s : Cluster R, TakesOwn i s o) :
    SafeVersion cfg i (fun _ _ => True) (Prog.perform o) s :=
  safeVersion_perform hinj (fun _ => True) (Protocol.stable_true _ _) trivial (fun s _ => hown s)
    (fun _ _ _ _ _ _ => trivial) fun _ => Protocol.stable_true _ _

/-- What `TryAcquire` promises where it returns true. -/
def AcquiredOwn (i : R) (acquired : Bool) (s : Cluster R) : Prop :=
  acquired = true → ∃ w, s.written i = some w ∧ s.currentVersion i = w.version

omit [DecidableEq R] hinj in
theorem own_acquiredOwn (acquired : Bool) : Own cfg i (AcquiredOwn i acquired) := by
  intro s s' _ _ hrely hacquired htrue
  obtain ⟨w, hw, hversion⟩ := hacquired htrue
  exact ⟨w, hrely.written.trans hw, hrely.currentVersion.trans hversion⟩

theorem safeVersion_giveUp : SafeVersion cfg i (AcquiredOwn i) giveUp s := by
  refine Safe.bind (safeVersion_plain hinj (o := .storeLeader false) fun _ => trivial) ?_
  exact fun _ _ _ => Safe.ret (own_acquiredOwn false) fun hfalse => by cases hfalse

/-- A replica that stores the version of its own row becomes a leader that holds it. -/
theorem safeVersion_becomeLeader (howns : Owns s i version) :
    SafeVersion cfg i (AcquiredOwn i) (becomeLeader version) s := by
  have hstoreVersion : SafeVersion cfg i (fun _ s => HoldsOwn s i version) (storeVersion version)
      s := by
    refine safeVersion_perform hinj (fun s => Owns s i version) (own_owns version) howns ?_ ?_
      fun _ => own_holdsOwn version
    · rintro s ⟨w, -, -, hwrote⟩
      exact hwrote
    · intro s₁ _ s₂ howns₁ _ hsem
      cases hsem with
      | run _ => exact ⟨howns₁, Function.update_self _ _ _⟩
  refine Safe.bind hstoreVersion fun _ s₁ hholds => ?_
  have hstoreLeader :
      SafeVersion cfg i (fun _ s => HoldsOwn s i version) (storeLeader true) s₁ := by
    refine safeVersion_perform hinj (fun s => HoldsOwn s i version) (own_holdsOwn version) hholds
      ?_ ?_ fun _ => own_holdsOwn version
    · rintro s ⟨⟨w, -, -, hwrote⟩, hversion⟩
      show s.Wrote i (s.currentVersion i)
      rwa [hversion]
    · intro s₁ _ s₂ hholds₁ _ hsem
      cases hsem with
      | run _ => exact hholds₁
  refine Safe.bind hstoreLeader fun _ s₂ hholds₂ => Safe.ret (own_acquiredOwn true) fun _ => ?_
  obtain ⟨⟨w, hw, hversion, -⟩, hcurrent⟩ := hholds₂
  exact ⟨w, hw, hcurrent.trans hversion.symm⟩

theorem safeVersion_updateExpired (now expiresAt : ℤ) :
    SafeVersion cfg i (fun result s => ∀ n, result = .ok n → 0 < n → HasTaken cfg i s)
      (updateExpired now expiresAt) s := by
  refine safeVersion_perform hinj (fun _ => True) (Protocol.stable_true _ _) trivial
    (fun _ _ => trivial) (fun _ _ _ _ _ hsem n hres => stepSem_updateExpired hsem hres) ?_
  intro result s s' hinv hinv' hrely htaken n hresult hpos
  exact own_hasTaken s s' hinv hinv' hrely (htaken n hresult hpos)

theorem safeVersion_selectLease (htaken : HasTaken cfg i s) :
    SafeVersion cfg i (fun result s => ∀ lease, result = .ok lease → Owns s i lease.version)
      selectLease s := by
  refine safeVersion_perform hinj (HasTaken cfg i) own_hasTaken htaken (fun _ _ => trivial) ?_ ?_
  · exact fun _ _ _ htaken hkept hsem lease hres => stepSem_selectLease hsem htaken hkept hres
  · intro result s s' hinv hinv' hrely howns lease hresult
    exact own_owns _ s s' hinv hinv' hrely (howns lease hresult)

theorem safeVersion_createLease (now expiresAt : ℤ) :
    SafeVersion cfg i (fun result s => result = .ok () → Owns s i 1) (createLease now expiresAt)
      s := by
  refine safeVersion_perform hinj (fun _ => True) (Protocol.stable_true _ _) trivial
    (fun _ _ => trivial) (fun _ _ _ _ _ hsem hres => stepSem_createLease hsem hres) ?_
  intro result s s' hinv hinv' hrely howns hresult
  exact own_owns 1 s s' hinv hinv' hrely (howns hresult)

/-- A replica for which `TryAcquire` returns true holds the version that it has written. -/
theorem safeVersion_tryAcquire (le : LeaderElection) :
    SafeVersion cfg i (AcquiredOwn i) le.tryAcquire s := by
  refine Safe.bind (safeVersion_plain hinj (o := .timeNow) fun _ => trivial) fun now s₁ _ => ?_
  refine Safe.bind (safeVersion_updateExpired hinj _ _) fun result s₂ htaken => ?_
  match result with
  | .error e => exact safeVersion_giveUp hinj
  | .ok rowsAffected =>
    dsimp only
    split_ifs with hpos
    · have htaken₂ := htaken rowsAffected rfl hpos
      refine Safe.bind (safeVersion_selectLease hinj htaken₂) fun result s₃ howns => ?_
      match result with
      | .error e => exact safeVersion_giveUp hinj
      | .ok lease => exact safeVersion_becomeLeader hinj (howns lease rfl)
    · refine Safe.bind (safeVersion_createLease hinj _ _) fun result s₃ howns => ?_
      match result with
      | .error e => exact safeVersion_giveUp hinj
      | .ok () => exact safeVersion_becomeLeader hinj (howns rfl)

theorem safeVersion_loadVersion (Q : Cluster R → Prop) (hQ : Own cfg i Q) (hs : Q s) :
    SafeVersion cfg i (fun version s => s.currentVersion i = version ∧ Q s) loadVersion s := by
  refine safeVersion_perform hinj Q hQ hs (fun _ _ => trivial) ?_ ?_
  · intro s₁ _ s₂ hs₁ _ hsem
    cases hsem with
    | run _ => exact ⟨rfl, hs₁⟩
  · rintro version s s' hinv hinv' hrely ⟨hversion, hs⟩
    exact ⟨hrely.currentVersion.trans hversion, hQ s s' hinv hinv' hrely hs⟩

/-- The `UPDATE` of `Renew`, where it affects a row, writes the version after the one that the
replica holds. -/
theorem safeVersion_updateHeld (hversion : s.currentVersion i = version) (now expiresAt : ℤ) :
    SafeVersion cfg i (fun result s => s.currentVersion i = version ∧
      ∀ n, result = .ok n → 0 < n → s.Wrote i (version + 1)) (updateHeld version now expiresAt)
      s := by
  refine safeVersion_perform hinj (fun s => s.currentVersion i = version) ?_ hversion
    (fun _ _ => trivial) ?_ ?_
  · exact fun s s' _ _ hrely hs => hrely.currentVersion.trans hs
  · intro s res s' hs _ hsem
    have hfields := (effect_fields (stepSem_effect hsem)).2
    exact ⟨by rw [hfields]; exact hs, fun n hres hpos => stepSem_updateHeld hsem hres hpos⟩
  · rintro result s s' - - hrely ⟨hs, hwrote⟩
    exact ⟨hrely.currentVersion.trans hs,
      fun n hresult hpos => hrely.wrote i _ (hwrote n hresult hpos)⟩

/-- `Renew` keeps to the versions that the replica has written. -/
theorem safeVersion_renew (le : LeaderElection) :
    SafeVersion cfg i (fun _ _ => True) le.renew s := by
  have hgiveUp : ∀ s, SafeVersion cfg i (fun _ _ => True) giveUp s :=
    fun _ => (safeVersion_giveUp hinj).imp fun _ _ _ => trivial
  refine Safe.bind (safeVersion_plain hinj (o := .loadLeader) fun _ => trivial) fun _ s₁ _ => ?_
  split_ifs
  · refine Safe.bind (safeVersion_plain hinj (o := .timeNow) fun _ => trivial) fun now s₂ _ => ?_
    have hload := safeVersion_loadVersion (i := i) (s := s₂) hinj (fun _ => True)
      (Protocol.stable_true _ _) trivial
    refine Safe.bind hload fun version s₃ hversion => ?_
    refine Safe.bind (safeVersion_updateHeld hinj hversion.1 _ _) fun result s₄ hresult => ?_
    match result with
    | .error e => exact hgiveUp s₄
    | .ok rowsAffected =>
      dsimp only
      split_ifs with hpos
      · -- No other replica changes `currentVersion`: what is read again is the same version.
        have hreload := safeVersion_loadVersion (i := i) (s := s₄) hinj
          (fun s => s.currentVersion i = version ∧ s.Wrote i (version + 1))
          (fun s s' _ _ hrely hs => ⟨hrely.currentVersion.trans hs.1, hrely.wrote i _ hs.2⟩)
          ⟨hresult.1, hresult.2 rowsAffected rfl hpos⟩
        refine Safe.bind hreload fun version' s₅ hreload => ?_
        obtain ⟨hread, hcurrent, hwrote⟩ := hreload
        have hversion' : version' = version := hread.symm.trans hcurrent
        have hstore : SafeVersion cfg i (fun _ _ => True) (storeVersion (version' + 1)) s₅ :=
          safeVersion_perform hinj (fun s => s.Wrote i (version' + 1))
            (fun s s' _ _ hrely hs => hrely.wrote i _ hs) (hversion' ▸ hwrote) (fun _ hs => hs)
            (fun _ _ _ _ _ _ => trivial) fun _ => Protocol.stable_true _ _
        exact Safe.bind hstore fun _ _ _ => Safe.done
      · exact hgiveUp s₄
  · exact Safe.done

/-- `Release` writes no version. -/
theorem safeVersion_release (le : LeaderElection) :
    SafeVersion cfg i (fun _ _ => True) le.release s := by
  refine Safe.bind (safeVersion_plain hinj (o := .storeLeader _) fun _ => trivial) fun _ _ _ => ?_
  refine Safe.bind (safeVersion_plain hinj (o := .timeNow) fun _ => trivial) fun _ _ _ => ?_
  exact Safe.bind (safeVersion_plain hinj (o := .updateReleased _) fun _ => trivial)
    fun _ _ _ => Safe.done

/-- What holds of a replica when its call has ended. -/
def Ended (i : R) : Outcome → Cluster R → Prop
  | .tryAcquire acquired, s => AcquiredOwn i acquired s
  | _, _ => True

omit [DecidableEq R] hinj in
theorem own_ended (outcome : Outcome) : Own cfg i (Ended i outcome) := by
  cases outcome with
  | tryAcquire acquired => exact own_acquiredOwn acquired
  | _ => exact Protocol.stable_true _ _

theorem safeVersion_call {le : LeaderElection} {p : LeaseProg Outcome} (hp : IsCall le p) :
    SafeVersion cfg i (Ended i) p s := by
  cases hp with
  | tryAcquire =>
    exact Safe.bind (safeVersion_tryAcquire hinj le) fun acquired _ hacquired =>
      Safe.ret (own_ended (.tryAcquire acquired)) hacquired
  | renew =>
    exact Safe.bind (safeVersion_renew hinj le) fun renewed _ _ =>
      Safe.ret (own_ended (.renew renewed)) trivial
  | release =>
    exact Safe.bind (safeVersion_release hinj le) fun _ _ _ =>
      Safe.ret (own_ended .release) trivial

end Calls

/-! ## Runs -/

/-- In every interleaving of calls in which each `SELECT` of `TryAcquire` still finds the replica's
own row, a replica for which `TryAcquire` has returned true holds the version that it has written,
and no two leaders hold the same version. -/
theorem versions_owned [DecidableEq R] {cfg : R → LeaderElection}
    (hinj : Function.Injective fun i => (cfg i).holderID)
    {P₀ P : Pool LeaseOp LeaseOp.Res Outcome (Cluster R) R} (hnew : NewReplicas P₀)
    {acts : List (PoolAct R)}
    (h : Run (Guarded (OpGuard (HolderKept cfg)) (PoolStep (replicas cfg id))) P₀ acts P) :
    (∀ i, P.threads i = .ret (.tryAcquire true) →
      ∃ w, P.state.written i = some w ∧ P.state.currentVersion i = w.version) ∧
    ∀ i j, P.state.isLeader i = true → P.state.isLeader j = true →
      P.state.currentVersion i = P.state.currentVersion j → i = j := by
  have hinit : VersionInv P₀.state := by
    have hnone : ∀ i v, ¬ P₀.state.Wrote i v := by
      intro i v hv
      unfold Cluster.Wrote at hv
      rw [hnew.versions] at hv
      cases hv
    refine ⟨fun _ => hnew.versions, fun _ _ i v hv => absurd hv (hnone i v),
      fun i _ v hv => absurd hv (hnone i v), fun i hi => ?_⟩
    rw [hnew.isLeader i] at hi
    cases hi
  have hsafe : P.Safe (replicas cfg id) (HolderKept cfg) (versionProtocol cfg) Ended := by
    refine pool_safe ?_ ?_ ⟨hinit, fun i => ?_⟩ h
    · -- The clock is no part of what the protocol speaks about.
      rintro s s' hinv ⟨t, -, rfl⟩
      exact ⟨⟨hinv.none_of_row, hinv.le_row, hinv.writer, hinv.leader⟩,
        fun i => ⟨rfl, rfl, rfl, fun _ _ hv => hv, fun _ hw _ => hw⟩⟩
    · exact fun i p _ s _ hp _ => safeVersion_call hinj hp
    · rw [hnew.threads i]
      exact Safe.ret (own_ended .none) trivial
  obtain ⟨hinv, hthreads⟩ := hsafe
  refine ⟨fun i hi => ?_, fun i j hi hj hsame => ?_⟩
  · have hended := hthreads i
    rw [hi] at hended
    exact hended.post rfl
  · have hwrote := hinv.leader i hi
    rw [hsame] at hwrote
    exact hinv.writer i j _ hwrote (hinv.leader j hj)

/-- Whether the `SELECT` of `TryAcquire` still finds the replica's own row. -/
def holderCheck (cfg : R → LeaderElection) (i : R) (s : Cluster R) : LeaseOp → Bool
  | .selectLease => s.row.all fun w => w.holderID = (cfg i).holderID
  | _ => true

theorem holderKept_of_check (cfg : R → LeaderElection) (i : R) (s : Cluster R) (o : LeaseOp)
    (h : holderCheck cfg i s o = true) : HolderKept cfg i s o := by
  rintro rfl w hw
  simpa [holderCheck, hw] using h

/-- `a` takes over the expired row, reads it back and becomes leader under the version `2` that it
has written. -/
theorem versions_owned_after_takeOver :
    ∃ P, Run (Guarded (OpGuard (HolderKept sampleConfig)) (PoolStep (replicas sampleConfig id)))
        (samplePool (some ⟨"old", 0, 50, 1⟩))
        [.start true, .thread true, .thread true, .thread true, .thread true, .thread true] P ∧
      P.state.isLeader true = true ∧ P.state.currentVersion true = 2 ∧
      ∃ w, P.state.written true = some w ∧ P.state.currentVersion true = w.version := by
  obtain ⟨P, hP, hthread, hleader, hversion⟩ : ∃ P, [.start true, .thread true, .thread true,
        .thread true, .thread true, .thread true].foldlM
          (fun P act => if P.opCheck (holderCheck sampleConfig) act then sampleNext P act else none)
          (samplePool (some ⟨"old", 0, 50, 1⟩)) = some P ∧
      P.threads true = .ret (.tryAcquire true) ∧ P.state.isLeader true = true ∧
      P.state.currentVersion true = 2 := ⟨_, rfl, rfl, rfl, rfl⟩
  have hrun := Run.of_foldlM (Pool.guarded_of_next (holderKept_of_check sampleConfig)
    poolStep_of_sampleNext) hP
  exact ⟨P, hrun, hleader, hversion, (versions_owned sampleConfig_injective
    (newReplicas_samplePool (some ⟨"old", 0, 50, 1⟩)) hrun).1 true hthread⟩

/-- `a` takes over the expired row under the version `2` and is delayed before it reads the row
back. Its lease expires, and `b` takes the row over under the version `3`. What `a` then reads is
`b`'s row: `TryAcquire` returns true for `a`, which has written the version `2` and holds `3`, as
the other leader does. -/
theorem readBack_takes_other_version :
    ∃ P, Run (PoolStep (replicas sampleConfig id)) (samplePool (some ⟨"old", 0, 50, 1⟩))
        [.start true, .thread true, .thread true, .env, .start false, .thread false,
          .thread false, .thread false, .thread false, .thread false, .thread true, .thread true,
          .thread true] P ∧
      P.threads true = .ret (.tryAcquire true) ∧
      P.state.written true = some ⟨"a", 100, 110, 2⟩ ∧ P.state.currentVersion true = 3 ∧
      P.state.isLeader true = true ∧ P.state.isLeader false = true ∧
      P.state.currentVersion false = 3 := by
  obtain ⟨P, hP, hfacts⟩ : ∃ P, [.start true, .thread true, .thread true, .env, .start false,
        .thread false, .thread false, .thread false, .thread false, .thread false, .thread true,
        .thread true, .thread true].foldlM sampleNext (samplePool (some ⟨"old", 0, 50, 1⟩)) =
          some P ∧
      P.threads true = .ret (.tryAcquire true) ∧
      P.state.written true = some ⟨"a", 100, 110, 2⟩ ∧ P.state.currentVersion true = 3 ∧
      P.state.isLeader true = true ∧ P.state.isLeader false = true ∧
      P.state.currentVersion false = 3 := ⟨_, rfl, rfl, rfl, rfl, rfl, rfl, rfl⟩
  exact ⟨P, Run.of_foldlM poolStep_of_sampleNext hP, hfacts⟩

end DubboAdmin.Leader
