import DubboAdmin.Versioning.Adapter

/-!
# The ledger of several adapters

Any number of adapters share one version store and run `InsertVersion` for one parent rule at the
same time, their store operations in any order. The store's `Add` is all that keeps two writers from
the same number: it rejects a key that is taken.

That is enough as long as nobody adds a number below one that is already stored: retention never
removes the highest number, so that no number is ever used twice (`versionNo_unique`). A delayed
writer can break that, when the number that it has chosen was used and trimmed in the meantime
(`trimmed_number_is_reused`).
-/

namespace DubboAdmin.Versioning

variable {S ι : Type}

/-! ## Steps of several adapters -/

/-- The shared store, and the numbers that were added by each call. -/
structure Shared (S ι : Type) where
  store : S
  /-- The numbers of the added records, with the calls that added them. -/
  added : List (ι × ℤ)

/-- The number of a record. -/
def numberOf (rv : RuleVersionResource) : ℤ :=
  match rv.spec with
  | none => 0
  | some spec => spec.versionNo

/-- A step of the call `i` where nothing fails. -/
def sharedStep (st : VersionStore S) (i : ι) (s : Shared S ι) : (o : LedgerOp) → o.Res × Shared S ι
  | .ctxErr => (none, s)
  | .timeNow => ((0 : ℤ), s)
  | .byIndex indexName indexedValue => (st.byIndex s.store indexName indexedValue, s)
  | .getByKey key => (st.getByKey s.store key, s)
  | .add rv =>
    match st.add s.store rv with
    | (.ok (), store) => (.ok (), ⟨store, (i, numberOf rv) :: s.added⟩)
    | (.error e, store) => (.error e, { s with store })
  | .delete rv => ((st.delete s.store rv).1, { s with store := (st.delete s.store rv).2 })

/-- What a step of the call `i` may do: a store operation may also fail and change nothing, the
context may be cancelled, and the clock shows any time. -/
inductive SharedSem (st : VersionStore S) (i : ι) (s : Shared S ι) :
    (o : LedgerOp) → o.Res → Shared S ι → Prop
  /-- The step succeeds. -/
  | run (o : LedgerOp) : SharedSem st i s o (sharedStep st i s o).1 (sharedStep st i s o).2
  | cancelled (e : Failure) : SharedSem st i s .ctxErr (some e) s
  | time (t : ℤ) : SharedSem st i s .timeNow t s
  | failByIndex (indexName indexedValue : String) (e : Failure) :
      SharedSem st i s (.byIndex indexName indexedValue) (.error e) s
  | failGetByKey (key : String) (e : Failure) : SharedSem st i s (.getByKey key) (.error e) s
  | failAdd (rv : RuleVersionResource) (e : Failure) : SharedSem st i s (.add rv) (.error e) s
  | failDelete (rv : RuleVersionResource) (e : Failure) : SharedSem st i s (.delete rv) (.error e) s

/-- Calls over one store. Each runs once. -/
def adapters (st : VersionStore S) (ι : Type) :
    PoolSystem LedgerOp LedgerOp.Res (Except Failure Version) (Shared S ι) ι where
  sem i := SharedSem st i
  env _ _ := False
  start _ _ := False

/-- Calls of `InsertVersion` for the parent that have not yet begun, on a store with an exact
index. -/
structure Calls (st : VersionStore S) (p : Parent)
    (P : Pool LedgerOp LedgerOp.Res (Except Failure Version) (Shared S ι) ι) : Prop where
  /-- Each thread is a call for the parent, with a retention limit of its own. -/
  calls : ∀ i, ∃ req maxVersions, req.parent = p ∧ P.threads i = insertVersion req maxVersions
  valid : st.valid P.state.store
  exact : st.exact P.state.store
  added : P.state.added = []

/-! ## Numbers -/

/-- A record of the parent with the number is stored. -/
def Stores (st : VersionStore S) (p : Parent) (s : Shared S ι) (n : ℤ) : Prop :=
  ∃ r ∈ (st.stored s.store).items, ∃ spec, IsRecord p r spec ∧ spec.versionNo = n

/-- A record of the parent with the number or a higher one is stored. -/
def Reaches (st : VersionStore S) (p : Parent) (s : Shared S ι) (n : ℤ) : Prop :=
  ∃ m, n ≤ m ∧ Stores st p s m

/-- The key of the parent's number holds no record of another number of the parent. -/
def KeepsKey (st : VersionStore S) (p : Parent) (s : Shared S ι) (n : ℤ) : Prop :=
  ∀ r ∈ (st.stored s.store).items, r.resourceKey = p.versionKey n →
    ∀ spec, IsRecord p r spec → spec.versionNo = n

/-- Every added number was added by one call, and is reached. -/
structure NumbersInv (st : VersionStore S) (p : Parent) (s : Shared S ι) : Prop where
  valid : st.valid s.store
  exact : st.exact s.store
  unique : ∀ i j n, (i, n) ∈ s.added → (j, n) ∈ s.added → i = j
  /-- Retention has left a record at or above each added number. -/
  reached : ∀ i n, (i, n) ∈ s.added → Reaches st p s n

/-- What every step leaves to the other calls. -/
structure Progress (st : VersionStore S) (p : Parent) (s s' : Shared S ι) : Prop where
  reaches : ∀ n, Reaches st p s n → Reaches st p s' n
  added : ∀ entry ∈ s.added, entry ∈ s'.added
  /-- A key goes on to hold no record of another number. -/
  keepsKey : ∀ n, KeepsKey st p s n → KeepsKey st p s' n

theorem Progress.refl (st : VersionStore S) (p : Parent) (s : Shared S ι) : Progress st p s s :=
  ⟨fun _ h => h, fun _ h => h, fun _ h => h⟩

section Steps

variable {st : VersionStore S} {p : Parent} {s s' : Shared S ι} {i : ι}

theorem unique_cons {added : List (ι × ℤ)}
    (hunique : ∀ j k n, (j, n) ∈ added → (k, n) ∈ added → j = k) {m : ℤ}
    (hnew : ∀ j, (j, m) ∉ added) {j k : ι} {n : ℤ} (hj : (j, n) ∈ (i, m) :: added)
    (hk : (k, n) ∈ (i, m) :: added) : j = k := by
  rcases List.mem_cons.mp hj with hj | hj
  · rcases List.mem_cons.mp hk with hk | hk
    · rw [(Prod.mk.inj hj).1, (Prod.mk.inj hk).1]
    · rw [(Prod.mk.inj hj).2] at hk
      exact absurd hk (hnew k)
  · rcases List.mem_cons.mp hk with hk | hk
    · rw [(Prod.mk.inj hk).2] at hj
      exact absurd hj (hnew j)
    · exact hunique j k n hj hk

/-- A record under a free key, above all that are stored. -/
theorem put_progress (h : NumbersInv st p s) {rv : RuleVersionResource} {spec : RuleVersion}
    (hrv : IsRecord p rv spec) (hkey : rv.resourceKey = p.versionKey spec.versionNo)
    (hnone : (st.stored s.store).get? rv.resourceKey = none)
    (habove : ∀ n, Stores st p s n → n < spec.versionNo)
    (hleaves : st.Leaves s.store ((st.stored s.store).put rv) s'.store)
    (hadded : s'.added = (i, spec.versionNo) :: s.added) :
    NumbersInv st p s' ∧ Progress st p s s' := by
  have hmem : ∀ r, r ∈ (st.stored s'.store).items ↔ r = rv ∨
      r ∈ (st.stored s.store).items ∧ r.resourceKey ≠ rv.resourceKey := by
    intro r
    rw [hleaves.stored, Keyed.mem_put]
  have hstores : ∀ n, Stores st p s n → Stores st p s' n := by
    rintro n ⟨r, hr, hrecord⟩
    exact ⟨r, (hmem r).mpr (.inr ⟨hr, Keyed.get?_eq_none_iff.mp hnone r hr⟩), hrecord⟩
  have hreaches : ∀ n, Reaches st p s n → Reaches st p s' n := by
    rintro n ⟨m, hle, hm⟩
    exact ⟨m, hle, hstores m hm⟩
  -- The number is above all stored ones, and an added number is not.
  have hnew : ∀ j, (j, spec.versionNo) ∉ s.added := by
    intro j hj
    obtain ⟨m, hle, hm⟩ := h.reached j _ hj
    exact absurd (habove m hm) (not_lt.mpr hle)
  refine ⟨⟨hleaves.valid, hleaves.exact h.exact, fun j k n hj hk => ?_, fun j n hj => ?_⟩, hreaches,
    fun entry hentry => ?_, fun n hkeeps r hr hrkey spec' hrecord => ?_⟩
  · rw [hadded] at hj hk
    exact unique_cons h.unique hnew hj hk
  · rw [hadded] at hj
    rcases List.mem_cons.mp hj with hj | hj
    · exact ⟨spec.versionNo, (Prod.mk.inj hj).2.le, rv, (hmem rv).mpr (.inl rfl), spec, hrv, rfl⟩
    · exact hreaches n (h.reached j n hj)
  · rw [hadded]
    exact List.mem_cons_of_mem _ hentry
  · rcases (hmem r).mp hr with rfl | ⟨hr, -⟩
    · rw [hkey] at hrkey
      have hnumber := p.versionKey_inj_right hrkey
      have hsame : spec' = spec := Option.some.inj (hrecord.holds.symm.trans hrv.holds)
      rw [hsame, hnumber]
    · exact hkeeps r hr hrkey spec' hrecord

/-- The key of a number is removed, below one that is stored. -/
theorem erase_progress (h : NumbersInv st p s) {n : ℤ} (hkeeps : KeepsKey st p s n)
    (hreached : Reaches st p s (n + 1))
    (hleaves : st.Leaves s.store ((st.stored s.store).erase (p.versionKey n)) s'.store)
    (hadded : s'.added = s.added) : NumbersInv st p s' ∧ Progress st p s s' := by
  have hmem : ∀ r, r ∈ (st.stored s'.store).items ↔
      r ∈ (st.stored s.store).items ∧ r.resourceKey ≠ p.versionKey n := by
    intro r
    rw [hleaves.stored, Keyed.mem_erase]
  -- Only the number `n` goes, and a higher one stays.
  have hstores : ∀ m, m ≠ n → Stores st p s m → Stores st p s' m := by
    rintro m hne ⟨r, hr, spec, hrecord, rfl⟩
    have hrkey : r.resourceKey ≠ p.versionKey n := fun hrkey => hne (hkeeps r hr hrkey spec hrecord)
    exact ⟨r, (hmem r).mpr ⟨hr, hrkey⟩, spec, hrecord, rfl⟩
  have hreaches : ∀ m, Reaches st p s m → Reaches st p s' m := by
    rintro m ⟨k, hle, hk⟩
    by_cases hkn : k = n
    · obtain ⟨k', hle', hk'⟩ := hreached
      exact ⟨k', by omega, hstores k' (by omega) hk'⟩
    · exact ⟨k, hle, hstores k hkn hk⟩
  refine ⟨⟨hleaves.valid, hleaves.exact h.exact, ?_, ?_⟩, hreaches, ?_, ?_⟩
  · rw [hadded]
    exact h.unique
  · rw [hadded]
    exact fun j m hj => hreaches m (h.reached j m hj)
  · rw [hadded]
    exact fun _ hentry => hentry
  · exact fun m hkeeps' r hr => hkeeps' r ((hmem r).mp hr).1

end Steps

/-! ## Calls -/

/-- The numbers are in order, and no step undoes what another call relies on. -/
def numbersProtocol (st : VersionStore S) (p : Parent) (ι : Type) : Protocol (Shared S ι) ι where
  inv := NumbersInv st p
  rely _ := Progress st p

/-- The condition on an `Add` under a free key: all records of the parent have lower numbers. -/
def AddsAbove (st : VersionStore S) (p : Parent) (_ : ι) (s : Shared S ι) (o : LedgerOp) : Prop :=
  ∀ rv, o = .add rv → (st.stored s.store).get? rv.resourceKey = none →
    ∀ v ∈ history p (st.stored s.store).items, v.versionNo < numberOf rv

/-- What holds of the state is kept by every step. -/
abbrev Lasting (st : VersionStore S) (p : Parent) (i : ι) (Q : Shared S ι → Prop) : Prop :=
  (numbersProtocol st p ι).Stable i Q

/-- A call keeps the numbers in order from here on, and it keeps what `Q` says. -/
abbrev SafeInsert (st : VersionStore S) (p : Parent) (i : ι) (Q : Shared S ι → Prop) {α : Type}
    (post : α → Shared S ι → Prop) (prog : LedgerProg α) (s : Shared S ι) : Prop :=
  Safe (adapters st ι) (AddsAbove st p) (numbersProtocol st p ι) i (fun a s => post a s ∧ Q s) prog
    s

section Calls

variable {st : VersionStore S} {p : Parent} {i : ι} {s : Shared S ι}

theorem lasting_and {Q Q' : Shared S ι → Prop} (h : Lasting st p i Q) (h' : Lasting st p i Q') :
    Lasting st p i fun s => Q s ∧ Q' s :=
  fun s₁ s₂ hinv hinv' hrely hs => ⟨h s₁ s₂ hinv hinv' hrely hs.1, h' s₁ s₂ hinv hinv' hrely hs.2⟩

theorem lasting_true : Lasting st p i fun _ => True := Protocol.stable_true _ _

theorem lasting_added (entry : ι × ℤ) : Lasting st p i fun s => entry ∈ s.added :=
  fun _ _ _ _ hrely h => hrely.added entry h

/-- All versions of a list are below a stored number. -/
def AllBelow (st : VersionStore S) (p : Parent) (versions : List Version) (s : Shared S ι) : Prop :=
  ∀ v ∈ versions, Reaches st p s (v.versionNo + 1)

theorem lasting_allBelow (versions : List Version) : Lasting st p i (AllBelow st p versions) :=
  fun _ _ _ _ hrely h v hv => hrely.reaches _ (h v hv)

variable {Q : Shared S ι → Prop} (hQ : Lasting st p i Q)
include hQ

theorem safeInsert_ret {α : Type} {post : α → Shared S ι → Prop} {a : α}
    (hlasting : Lasting st p i (post a)) (h : post a s) (hs : Q s) :
    SafeInsert st p i Q post (.ret a) s :=
  Safe.ret (lasting_and hlasting hQ) ⟨h, hs⟩

/-- A step that keeps the numbers in order. -/
theorem safeInsert_op {o : LedgerOp} {post : o.Res → Shared S ι → Prop}
    (hstep : ∀ s res s', Q s → NumbersInv st p s → AddsAbove st p i s o →
      SharedSem st i s o res s' → (NumbersInv st p s' ∧ Progress st p s s') ∧ post res s')
    (hlasting : ∀ res, Lasting st p i (post res)) (hs : Q s) :
    SafeInsert st p i Q post (Prog.perform o) s := by
  refine Safe.op Q hQ hs fun s₁ hs₁ hinv hgood res s₂ hsem => ?_
  obtain ⟨⟨hinv₂, hprogress⟩, hpost⟩ := hstep s₁ res s₂ hs₁ hinv hgood hsem
  have hs₂ : Q s₂ := hQ s₁ s₂ hinv hinv₂ hprogress hs₁
  exact ⟨hinv₂, fun _ _ => hprogress, safeInsert_ret hQ (hlasting res) hpost hs₂⟩

theorem safeInsert_read {o : LedgerOp} {post : o.Res → Shared S ι → Prop}
    (hread : ∀ s res s', NumbersInv st p s → SharedSem st i s o res s' → s' = s ∧ post res s)
    (hlasting : ∀ res, Lasting st p i (post res)) (hs : Q s) :
    SafeInsert st p i Q post (Prog.perform o) s := by
  refine safeInsert_op hQ (fun s₁ res s₂ _ hinv _ hsem => ?_) hlasting hs
  obtain ⟨rfl, hpost⟩ := hread s₁ res s₂ hinv hsem
  exact ⟨⟨hinv, Progress.refl st p s₂⟩, hpost⟩

theorem safeInsert_unlessCancelled {α : Type} {F : Shared S ι → Prop}
    {post : Except Failure α → Shared S ι → Prop} {rest : LedgerProg (Except Failure α)} (hs : Q s)
    (herror : ∀ e s, Q s → SafeInsert st p i F post (.ret (.error e)) s)
    (h : ∀ s, Q s → SafeInsert st p i F post rest s) :
    SafeInsert st p i F post (unlessCancelled rest) s := by
  have hread : SafeInsert st p i Q (fun _ _ => True) ctxErr s := by
    refine safeInsert_read hQ (fun s res s' _ hsem => ?_) (fun _ => lasting_true) hs
    cases hsem with
    | run _ | cancelled _ => exact ⟨rfl, trivial⟩
  refine Safe.bind hread fun cancelled s₁ h₁ => ?_
  cases cancelled with
  | some e => exact herror e s₁ h₁.2
  | none => exact h s₁ h₁.2

theorem safeInsert_timeNow (hs : Q s) : SafeInsert st p i Q (fun _ _ => True) timeNow s := by
  refine safeInsert_read hQ (fun s res s' _ hsem => ?_) (fun _ => lasting_true) hs
  cases hsem with
  | run _ | time _ => exact ⟨rfl, trivial⟩

/-- All but the newest versions of a history that was read are below a stored number. -/
def Exceeded (st : VersionStore S) (p : Parent) (result : Except Failure HistoryState)
    (s : Shared S ι) : Prop :=
  ∀ state, result = .ok state → ∀ keep > 0, AllBelow st p (state.versions.drop keep) s

omit hQ in
theorem lasting_exceeded (result : Except Failure HistoryState) :
    Lasting st p i (Exceeded st p result) := by
  intro s s' hinv hinv' hrely h state hstate keep hkeep
  exact lasting_allBelow _ s s' hinv hinv' hrely (h state hstate keep hkeep)

omit hQ in
/-- Behind the newest version of a history, all numbers are lower. -/
theorem exceeded_history {kind resourceKey : String} (hparent : parentOf kind resourceKey = p)
    (hinv : NumbersInv st p s) {objs : List RuleVersionResource}
    (hobjs : st.byIndex s.store byParentRuleIndexName (buildParentIndexKey kind resourceKey) =
      .ok objs) : Exceeded st p (historyOf kind resourceKey objs) s := by
  subst hparent
  obtain ⟨out, hout, hcases⟩ := historyOf_byIndex hinv.valid hinv.exact kind resourceKey
  obtain rfl : objs = out := Except.ok.inj (hobjs.symm.trans hout)
  intro state hstate keep hkeep v hv
  rcases hcases with ⟨hnumbered, hhistory⟩ | ⟨-, e, herror⟩
  · rw [hhistory] at hstate
    cases hstate
    rw [versions_ofVersions] at hv
    -- At least the newest version is kept, and the others are below it.
    obtain ⟨w, hw, hlt⟩ := exists_newer hnumbered.descending hkeep hv
    obtain ⟨r, hr, spec, hrecord, rfl⟩ := mem_history.mp hw
    exact ⟨spec.versionNo, hlt, r, hr, spec, hrecord, rfl⟩
  · rw [herror] at hstate
    cases hstate

variable {kind resourceKey : String}

/-- The history that is read may be trimmed behind its newest version. -/
theorem safeInsert_historyState (hparent : parentOf kind resourceKey = p) (hs : Q s) :
    SafeInsert st p i Q (Exceeded st p) (historyState kind resourceKey) s := by
  have hread : SafeInsert st p i Q (fun result s => ∀ objs, result = .ok objs →
      Exceeded st p (historyOf kind resourceKey objs) s)
      (byIndex byParentRuleIndexName (buildParentIndexKey kind resourceKey)) s := by
    refine safeInsert_read hQ (fun s res s' hinv hsem => ?_) (fun result => ?_) hs
    · cases hsem with
      | run _ => exact ⟨rfl, fun objs hobjs => exceeded_history hparent hinv hobjs⟩
      | failByIndex _ _ e => exact ⟨rfl, fun objs hobjs => by cases hobjs⟩
    · intro s s' hinv hinv' hrely h objs hobjs
      exact lasting_exceeded _ s s' hinv hinv' hrely (h objs hobjs)
  refine Safe.bind hread fun result s₁ hresult => ?_
  match result with
  | .error e =>
    exact safeInsert_ret hQ (lasting_exceeded _) (fun state hstate => by cases hstate) hresult.2
  | .ok objs => exact safeInsert_ret hQ (lasting_exceeded _) (hresult.1 objs rfl) hresult.2

/-- The record that was found under the key of a number is stored under that key, which holds no
other number. -/
def Found (st : VersionStore S) (p : Parent) (n : ℤ)
    (result : Except GetError RuleVersionResource) (s : Shared S ι) : Prop :=
  ∀ rv, result = .ok rv → rv.resourceKey = p.versionKey n ∧ KeepsKey st p s n

omit hQ in
theorem lasting_found (n : ℤ) (result : Except GetError RuleVersionResource) :
    Lasting st p i (Found st p n result) := by
  intro s s' hinv hinv' hrely h rv hrv
  exact ⟨(h rv hrv).1, hrely.keepsKey n (h rv hrv).2⟩

omit hQ in
/-- A record passes the checks only under its own number. -/
theorem found_checked {kind resourceKey : String} (hparent : parentOf kind resourceKey = p)
    {n : ℤ} : Found st p n (checkVersionResource kind resourceKey n
      ((st.stored s.store).get? (buildVersionResourceKey kind resourceKey n))) s := by
  subst hparent
  rw [buildVersionResourceKey_eq]
  intro rv hrv
  obtain ⟨hget, -, spec, hspec, -, hnumber⟩ := checkVersionResource_eq_ok hrv
  obtain ⟨hmem, hkey⟩ := Keyed.get?_eq_some_iff.mp hget
  refine ⟨hkey, fun r hr hrkey spec' hrecord => ?_⟩
  -- The resource under the key is the one that was checked.
  obtain rfl : r = rv := Keyed.eq_of_key_eq hr hmem (hrkey.trans hkey.symm)
  obtain rfl : spec = spec' := Option.some.inj (hspec.symm.trans hrecord.holds)
  exact hnumber

/-- The record that is found is one of the number that was asked for. -/
theorem safeInsert_getVersionResourceForRule (hparent : parentOf kind resourceKey = p) (n : ℤ)
    (hs : Q s) :
    SafeInsert st p i Q (Found st p n) (getVersionResourceForRule kind resourceKey n) s := by
  have hread : SafeInsert st p i Q (fun result s => ∀ obj, result = .ok obj →
      Found st p n (checkVersionResource kind resourceKey n obj) s)
      (getByKey (buildVersionResourceKey kind resourceKey n)) s := by
    refine safeInsert_read hQ (fun s res s' _ hsem => ?_) (fun result => ?_) hs
    · cases hsem with
      | failGetByKey _ e => exact ⟨rfl, fun obj hobj => by cases hobj⟩
      | run _ =>
        refine ⟨rfl, fun obj hobj => ?_⟩
        have hget :
            st.getByKey s.store (buildVersionResourceKey kind resourceKey n) = .ok obj := hobj
        rw [st.getByKey_eq] at hget
        rw [← Except.ok.inj hget]
        exact found_checked hparent
    · intro s s' hinv hinv' hrely h obj hobj
      exact lasting_found n _ s s' hinv hinv' hrely (h obj hobj)
  refine Safe.bind hread fun result s₁ hresult => ?_
  match result with
  | .error e => exact safeInsert_ret hQ (lasting_found n _) (fun rv hrv => by cases hrv) hresult.2
  | .ok obj => exact safeInsert_ret hQ (lasting_found n _) (hresult.1 obj rfl) hresult.2

variable {rv : RuleVersionResource}

theorem safeInsert_delete {n : ℤ} (hkey : rv.resourceKey = p.versionKey n)
    (hkeeps : ∀ s, Q s → KeepsKey st p s n ∧ Reaches st p s (n + 1)) (hs : Q s) :
    SafeInsert st p i Q (fun _ _ => True) (delete rv) s := by
  refine safeInsert_op hQ (fun s₁ res s₂ hs₁ hinv _ hsem => ⟨?_, trivial⟩)
    (fun _ => lasting_true) hs
  cases hsem with
  | failDelete _ e => exact ⟨hinv, Progress.refl st p s₁⟩
  | run _ =>
    have hleaves := st.delete_spec s₁.store rv hinv.valid
    rw [hkey] at hleaves
    exact erase_progress hinv (hkeeps s₁ hs₁).1 (hkeeps s₁ hs₁).2 hleaves rfl

/-- Adding a record of the parent under its own key is safe. -/
theorem safeInsert_add (hrejects : st.Rejects) {spec : RuleVersion} (hrv : IsRecord p rv spec)
    (hkey : rv.resourceKey = p.versionKey spec.versionNo) (hs : Q s) :
    SafeInsert st p i Q (fun result s => result = .ok () → (i, spec.versionNo) ∈ s.added) (add rv)
      s := by
  have hnumber : numberOf rv = spec.versionNo := by
    unfold numberOf
    rw [hrv.holds]
  have hkind : rv.kind = st.kind := hrv.ofKind.trans st.kind_eq.symm
  refine safeInsert_op hQ (fun s₁ res s₂ _ hinv hgood hsem => ?_)
    (fun res s₁ s₂ _ _ hrely h hok => hrely.added _ (h hok)) hs
  cases hsem with
  | failAdd _ e => exact ⟨⟨hinv, Progress.refl st p s₁⟩, fun hok => by cases hok⟩
  | run _ =>
    cases hget : (st.stored s₁.store).get? rv.resourceKey with
    | some old =>
      -- The key is taken, and the store rejects the record.
      obtain ⟨e, hadd⟩ := hrejects s₁.store rv old hinv.valid hkind hget
      simp only [sharedStep, hadd]
      exact ⟨⟨hinv, Progress.refl st p s₁⟩, fun hok => by cases hok⟩
    | none =>
      obtain ⟨hok, hleaves⟩ := st.add_spec s₁.store rv hinv.valid hkind hget
      have hadd : st.add s₁.store rv = (.ok (), (st.add s₁.store rv).2) := Prod.ext hok rfl
      have habove : ∀ n, Stores st p s₁ n → n < spec.versionNo := by
        rintro n ⟨r, hr, spec', hrecord, rfl⟩
        rw [← hnumber]
        exact hgood rv rfl hget _ (mem_history.mpr ⟨r, hr, spec', hrecord, rfl⟩)
      simp only [sharedStep]
      rw [hadd, hnumber]
      exact ⟨put_progress hinv hrv hkey hget habove hleaves rfl, fun _ => List.mem_cons_self⟩

/-- The loop of the retention is safe below a stored number. -/
theorem safeInsert_deleteVersions (hparent : parentOf kind resourceKey = p)
    {versions : List Version} (h : AllBelow st p versions s) (hs : Q s) :
    SafeInsert st p i Q (fun _ _ => True) (deleteVersions kind resourceKey versions) s := by
  induction versions generalizing s with
  | nil => exact safeInsert_ret hQ lasting_true trivial hs
  | cons v versions ih =>
    -- What the rest of the loop needs is kept by every step before it.
    have hframe : Lasting st p i fun s => Q s ∧ AllBelow st p (v :: versions) s :=
      lasting_and hQ (lasting_allBelow _)
    have hend : ∀ (e : Failure) s, Q s →
        SafeInsert st p i Q (fun (_ : Except Failure Unit) _ => True) (.ret (.error e)) s :=
      fun _ _ hs => safeInsert_ret hQ lasting_true trivial hs
    refine safeInsert_unlessCancelled hframe ⟨hs, h⟩ (fun e s hs => hend e s hs.1) fun s₁ h₁ => ?_
    refine Safe.bind (safeInsert_getVersionResourceForRule hframe hparent v.versionNo h₁)
      fun result s₂ h₂ => ?_
    match result with
    | .error e => exact hend _ _ h₂.2.1
    | .ok rv =>
      obtain ⟨hfound, hs₂, hbelow⟩ := h₂
      have hdelete : SafeInsert st p i (fun s => (Q s ∧ AllBelow st p (v :: versions) s) ∧
          Found st p v.versionNo (.ok rv) s) (fun _ _ => True) (delete rv) s₂ :=
        safeInsert_delete (lasting_and hframe (lasting_found _ _)) (hfound rv rfl).1
          (fun s hs => ⟨(hs.2 rv rfl).2, hs.1.2 v List.mem_cons_self⟩) ⟨⟨hs₂, hbelow⟩, hfound⟩
      refine Safe.bind hdelete fun result s₃ h₃ => ?_
      obtain ⟨-, ⟨hs₃, hbelow₃⟩, -⟩ := h₃
      match result with
      | .error e => exact hend _ _ hs₃
      | .ok () => exact ih (fun v' hv' => hbelow₃ v' (List.mem_cons_of_mem _ hv')) hs₃

theorem safeInsert_trimVersionsLocked (hparent : parentOf kind resourceKey = p) {keep : ℕ}
    (hkeep : keep > 0) (hs : Q s) :
    SafeInsert st p i Q (fun _ _ => True) (trimVersionsLocked kind resourceKey keep) s := by
  refine Safe.bind (safeInsert_historyState hQ hparent hs) fun result s₁ h₁ => ?_
  match result with
  | .error e => exact safeInsert_ret hQ lasting_true trivial h₁.2
  | .ok state =>
    dsimp only
    split_ifs
    · exact safeInsert_ret hQ lasting_true trivial h₁.2
    · exact safeInsert_deleteVersions hQ hparent (h₁.1 state rfl keep hkeep) h₁.2

/-- The record that `Add` has stored, with its number, is one that the call has added. -/
def Allocated (i : ι) (result : Except Failure RuleVersionResource) (s : Shared S ι) : Prop :=
  ∀ rv, result = .ok rv → ∃ spec, rv.spec = some spec ∧ (i, spec.versionNo) ∈ s.added

omit hQ in
theorem lasting_allocated (result : Except Failure RuleVersionResource) :
    Lasting st p i (Allocated i result) := by
  intro s s' _ _ hrely h rv hrv
  obtain ⟨spec, hspec, hadded⟩ := h rv hrv
  exact ⟨spec, hspec, hrely.added _ hadded⟩

variable {req : InsertRequest}

/-- The loop that looks for a free number. -/
theorem safeInsert_allocate (hrejects : st.Rejects) (hreq : req.parent = p)
    (createdAt recordedAt : ℤ) (attempts : ℕ) (versionNo : ℤ) (addErr : Failure) (hs : Q s) :
    SafeInsert st p i Q (Allocated i) (allocate req createdAt recordedAt attempts versionNo addErr)
      s := by
  have hend : ∀ (e : Failure) s, Q s → SafeInsert st p i Q (Allocated i) (.ret (.error e)) s :=
    fun e _ hs => safeInsert_ret hQ (lasting_allocated _) (fun rv hrv => by cases hrv) hs
  induction attempts generalizing versionNo addErr s with
  | zero => exact hend _ _ hs
  | succ attempts ih =>
    have hrv : IsRecord p (newRuleVersionResource req versionNo createdAt recordedAt) _ :=
      ⟨rfl, rfl, hreq⟩
    have hkey := resourceKey_newRuleVersionResource req versionNo createdAt recordedAt
    rw [hreq] at hkey
    refine safeInsert_unlessCancelled hQ hs hend fun s₁ hs₁ => ?_
    refine Safe.bind (safeInsert_add hQ hrejects hrv hkey hs₁) fun result s₂ h₂ => ?_
    match result with
    | .ok () =>
      refine safeInsert_ret hQ (lasting_allocated _) (fun rv heq => ?_) h₂.2
      rw [← Except.ok.inj heq]
      exact ⟨_, rfl, h₂.1 rfl⟩
    | .error addErr =>
      -- The number is taken, and the history tells the next one.
      refine Safe.bind (safeInsert_getVersionResourceForRule hQ hreq versionNo h₂.2)
        fun result s₃ h₃ => ?_
      match result with
      | .error .versionNotFound | .error (.other _) => exact hend _ _ h₃.2
      | .ok _ =>
        refine safeInsert_unlessCancelled hQ h₃.2 hend fun s₄ hs₄ => ?_
        refine Safe.bind (safeInsert_historyState hQ hreq hs₄) fun result s₅ h₅ => ?_
        match result with
        | .error e => exact hend _ _ h₅.2
        | .ok state =>
          dsimp only
          split_ifs
          · exact hend _ _ h₅.2
          · exact ih _ _ h₅.2

/-- The number that a call returns is one that it has added. -/
def Returned (i : ι) (result : Except Failure Version) (s : Shared S ι) : Prop :=
  ∀ v, result = .ok v → (i, v.versionNo) ∈ s.added

omit hQ in
theorem lasting_returned (result : Except Failure Version) :
    Lasting st p i (Returned i result) :=
  fun _ _ _ _ hrely h v hv => hrely.added _ (h v hv)

theorem safeInsert_failed (e : Failure) (s : Shared S ι) (hs : Q s) :
    SafeInsert st p i Q (Returned i) (.ret (.error e)) s :=
  safeInsert_ret hQ (lasting_returned _) (fun v hv => by cases hv) hs

/-- The end of a call returns the number of the record that it has added. -/
theorem safeInsert_finish (hreq : req.parent = p) (maxVersions : ℕ) {spec : RuleVersion}
    (hspec : rv.spec = some spec) (hadded : (i, spec.versionNo) ∈ s.added) (hs : Q s) :
    SafeInsert st p i Q (Returned i) (finish req maxVersions rv) s := by
  -- The retention keeps it in mind that the record was added.
  have hframe : Lasting st p i fun s => Q s ∧ (i, spec.versionNo) ∈ s.added :=
    lasting_and hQ (lasting_added _)
  have hend : ∀ s, Q s ∧ (i, spec.versionNo) ∈ s.added →
      SafeInsert st p i Q (Returned i) (.ret (protoToVersion rv.spec)) s := by
    intro s hs
    refine safeInsert_ret hQ (lasting_returned _) (fun v hv => ?_) hs.1
    rw [hspec] at hv
    rw [← Except.ok.inj hv]
    exact hs.2
  refine safeInsert_unlessCancelled hframe ⟨hs, hadded⟩
    (fun e s hs => safeInsert_failed hQ e s hs.1) fun s₁ hs₁ => ?_
  split_ifs with hmax
  · exact Safe.bind (safeInsert_trimVersionsLocked hframe hreq hmax hs₁)
      fun _ s₂ h₂ => hend s₂ h₂.2
  · exact hend s₁ hs₁

/-- A call from its first number on. -/
theorem safeInsert_insertFrom (hrejects : st.Rejects) (hreq : req.parent = p) (maxVersions : ℕ)
    (versionNo : ℤ) (hs : Q s) :
    SafeInsert st p i Q (Returned i) (insertFrom req maxVersions versionNo) s := by
  have htime : SafeInsert st p i Q (fun _ _ => True) (createdAt req) s := by
    unfold createdAt
    split_ifs
    · exact safeInsert_timeNow hQ hs
    · exact safeInsert_ret hQ lasting_true trivial hs
  refine Safe.bind htime fun createdAt s₁ h₁ => ?_
  refine Safe.bind (safeInsert_timeNow hQ h₁.2) fun recordedAt s₂ h₂ => ?_
  refine safeInsert_unlessCancelled hQ h₂.2 (safeInsert_failed hQ) fun s₃ hs₃ => ?_
  refine Safe.bind (safeInsert_allocate hQ hrejects hreq createdAt recordedAt _ versionNo _ hs₃)
    fun result s₄ h₄ => ?_
  match result with
  | .error e => exact safeInsert_failed hQ e _ h₄.2
  | .ok rv =>
    obtain ⟨spec, hspec, hadded⟩ := h₄.1 rv rfl
    exact safeInsert_finish hQ hreq maxVersions hspec hadded h₄.2

/-- A call of `InsertVersion` keeps the numbers in order, and returns one that it has added. -/
theorem safeInsert_insertVersion (hrejects : st.Rejects) (hreq : req.parent = p) (maxVersions : ℕ)
    (hs : Q s) :
    SafeInsert st p i Q (Returned i) (insertVersion req maxVersions) s := by
  refine safeInsert_unlessCancelled hQ hs (safeInsert_failed hQ) fun s₁ hs₁ => ?_
  refine Safe.bind (safeInsert_historyState hQ hreq hs₁) fun result s₂ h₂ => ?_
  match result with
  | .error e => exact safeInsert_failed hQ e _ h₂.2
  | .ok state =>
    exact safeInsert_unlessCancelled hQ h₂.2 (safeInsert_failed hQ)
      fun _ hs₃ => safeInsert_insertFrom hQ hrejects hreq maxVersions _ hs₃

end Calls

/-! ## Runs -/

/-- Any number of calls for one parent run at the same time, over a store whose `Add` rejects a key
that is taken. When each `Add` under a free key adds a number above all that are stored for the
parent, no two calls return the same number. -/
theorem versionNo_unique [DecidableEq ι] {st : VersionStore S} (hrejects : st.Rejects) {p : Parent}
    {P₀ P : Pool LedgerOp LedgerOp.Res (Except Failure Version) (Shared S ι) ι}
    (hcalls : Calls st p P₀) {acts : List (PoolAct ι)}
    (h : Run (Guarded (OpGuard (AddsAbove st p)) (PoolStep (adapters st ι))) P₀ acts P)
    {i j : ι} (hij : i ≠ j) {v v' : Version} (hi : P.threads i = .ret (.ok v))
    (hj : P.threads j = .ret (.ok v')) : v.versionNo ≠ v'.versionNo := by
  have hinit : NumbersInv st p P₀.state :=
    ⟨hcalls.valid, hcalls.exact, by simp [hcalls.added], by simp [hcalls.added]⟩
  have hsafe : P.Safe (adapters st ι) (AddsAbove st p) (numbersProtocol st p ι)
      (fun i a s => Returned i a s ∧ True) := by
    -- There are no other changes of the store, and no call begins anew.
    refine pool_safe (fun _ _ _ henv => False.elim henv)
      (fun _ _ _ _ _ hstart => False.elim hstart) ⟨hinit, fun i => ?_⟩ h
    obtain ⟨req, maxVersions, hreq, hthread⟩ := hcalls.calls i
    rw [hthread]
    exact safeInsert_insertVersion lasting_true hrejects hreq maxVersions trivial
  obtain ⟨hinv, hthreads⟩ := hsafe
  -- Both calls have added the number that they return.
  have hadded : ∀ {i : ι} {v : Version}, P.threads i = .ret (.ok v) →
      (i, v.versionNo) ∈ P.state.added := by
    intro i v hthread
    have hended := hthreads i
    rw [hthread] at hended
    exact hended.post.1 v rfl
  intro hsame
  have hj' := hadded hj
  rw [← hsame] at hj'
  exact hij (hinv.unique i j v.versionNo (hadded hi) hj')

/-! ## Three replicas -/

/-- A change of a rule. -/
def replicaRequest : InsertRequest where
  ruleKind := "TagRoute"
  resourceKey := "mesh/app"
  specJSON := ""
  contentHash := ""
  source := .admin
  operation := .update
  author := ""
  reason := ""
  rolledBackFromVersionNo := none
  createdAt := 1

/-- The database that the replicas share. -/
abbrev replicaStore : VersionStore (Gorm.DB (Option RuleVersion)) :=
  gormVersionStore Gorm.RowOrder.insertion

/-- Calls of three replicas. -/
abbrev ReplicaPool : Type :=
  Pool LedgerOp LedgerOp.Res (Except Failure Version)
    (Shared (Gorm.DB (Option RuleVersion)) (Fin 3)) (Fin 3)

/-- Three replicas that are about to record the change, each with a retention limit, in an empty
database. -/
def replicaPool (maxVersions : Fin 3 → ℕ) : ReplicaPool :=
  ⟨⟨⟨Keyed.empty, []⟩, []⟩, fun i => insertVersion replicaRequest (maxVersions i)⟩

theorem calls_replicaPool (maxVersions : Fin 3 → ℕ) :
    Calls replicaStore replicaRequest.parent (replicaPool maxVersions) where
  calls i := ⟨replicaRequest, maxVersions i, rfl, rfl⟩
  valid := trivial
  exact _ _ _ := by
    simp [replicaPool, Gorm.GormStore.HasRow, Gorm.GormStore.Produces, Keyed.empty]
  added := rfl

/-- A step of a replica where nothing fails. -/
def replicaNext (P : ReplicaPool) (act : PoolAct (Fin 3)) : Option ReplicaPool :=
  P.next (sharedStep replicaStore) (fun _ => none) (fun _ => none) act

theorem poolStep_of_replicaNext (P : ReplicaPool) (act : PoolAct (Fin 3)) (P' : ReplicaPool)
    (h : replicaNext P act = some P') : PoolStep (adapters replicaStore (Fin 3)) P act P' :=
  Pool.step_of_next (fun _ _ o => SharedSem.run o) (fun _ _ h => by cases h)
    (fun _ _ h => by cases h) P act P' h

/-- Whether an `Add` under a free key adds a number above those of the parent. -/
def addsAboveCheck (st : VersionStore S) (p : Parent) (_ : ι) (s : Shared S ι) : LedgerOp → Bool
  | .add rv => ((st.stored s.store).get? rv.resourceKey).isSome ||
      (history p (st.stored s.store).items).all fun v => v.versionNo < numberOf rv
  | _ => true

theorem addsAbove_of_check (st : VersionStore S) (p : Parent) (i : ι) (s : Shared S ι)
    (o : LedgerOp) (h : addsAboveCheck st p i s o = true) : AddsAbove st p i s o := by
  rintro rv rfl hnone v hv
  simp only [addsAboveCheck, hnone, Option.isSome_none, Bool.false_or, List.all_eq_true,
    decide_eq_true_eq] at h
  exact h v hv

local instance neZero_three : NeZero 3 := ⟨by decide⟩

/-- One replica after the other. -/
def inTurn : List (PoolAct (Fin 3)) := List.replicate 9 (.thread 0) ++ List.replicate 12 (.thread 1)

/-- The second replica finds the record of the first and returns the next number. -/
theorem versionNo_unique_inTurn :
    ∃ P v v', Run (Guarded (OpGuard (AddsAbove replicaStore replicaRequest.parent))
        (PoolStep (adapters replicaStore (Fin 3)))) (replicaPool fun _ => 1) inTurn P ∧
      P.threads 0 = .ret (.ok v) ∧ P.threads 1 = .ret (.ok v') ∧ v.versionNo ≠ v'.versionNo := by
  obtain ⟨P, hP, ⟨v, hv⟩, v', hv'⟩ : ∃ P, inTurn.foldlM
        (fun P act => if P.opCheck (addsAboveCheck replicaStore replicaRequest.parent) act then
          replicaNext P act else none) (replicaPool fun _ => 1) = some P ∧
      (∃ v, P.threads 0 = .ret (.ok v)) ∧ ∃ v', P.threads 1 = .ret (.ok v') :=
    ⟨_, rfl, ⟨_, rfl⟩, _, rfl⟩
  have hrun := Run.of_foldlM (Pool.guarded_of_next
    (addsAbove_of_check replicaStore replicaRequest.parent) poolStep_of_replicaNext) hP
  exact ⟨P, v, v', hrun, hv, hv', versionNo_unique (gormStore_rejects _ _)
    (calls_replicaPool fun _ => 1) hrun (by decide) hv hv'⟩

/-- The first replica reads the history, and the other two run before it goes on to its `Add`. -/
def delayedAdd : List (PoolAct (Fin 3)) :=
  List.replicate 6 (.thread 0) ++ List.replicate 9 (.thread 1) ++ List.replicate 12 (.thread 2) ++
    List.replicate 2 (.thread 0)

/-- The first replica chooses the number `1` and is delayed before it adds its record. The second
replica records the number `1`, and the third the number `2`, whose retention limit of one record
removes the number `1`. The key is free again, the first replica's `Add` succeeds, and the number
`1` is returned twice. -/
theorem trimmed_number_is_reused :
    Calls replicaStore replicaRequest.parent (replicaPool ![0, 1, 1]) ∧
      ∃ P v v', Run (PoolStep (adapters replicaStore (Fin 3))) (replicaPool ![0, 1, 1])
          delayedAdd P ∧
        P.threads 0 = .ret (.ok v) ∧ P.threads 1 = .ret (.ok v') ∧
        v.versionNo = 1 ∧ v'.versionNo = 1 := by
  obtain ⟨P, hP, v, v', hv⟩ : ∃ P, delayedAdd.foldlM replicaNext (replicaPool ![0, 1, 1]) = some P ∧
      ∃ v v', P.threads 0 = .ret (.ok v) ∧ P.threads 1 = .ret (.ok v') ∧
        v.versionNo = 1 ∧ v'.versionNo = 1 := ⟨_, rfl, _, _, rfl, rfl, rfl, rfl⟩
  exact ⟨calls_replicaPool _, P, v, v', Run.of_foldlM poolStep_of_replicaNext hP, hv⟩

end DubboAdmin.Versioning
