import DubboAdmin.Controller.Informer

/-!
# Replaying the events of an informer

Subscribers learn of the store only through the events that an informer emits. `replay` is what such
a subscriber can rebuild: a map that starts empty and follows the events, as long as each one fits
the map.

`Deleted` carries the object of the delta, and is sent whether or not the store held one. The replay
therefore gives the contents of a memory store exactly as long as each deletion names the stored
object (`replays_iff_deletesStored`), and fails at the first one that does not
(`deletedObject_breaks_replay`).
-/

namespace DubboAdmin.Controller

variable {σ ω : Type}

/-! ## Replay -/

section Replay

variable [DecidableEq σ]

/-- One event, followed on a map; `none` where the event does not fit the map. -/
def replayEvent (m : Contents σ) (e : ResourceChangedEvent σ) : Option (Contents σ) :=
  match e.typ, e.oldObj, e.newObj with
  | .added, none, some new =>
    if m.get? new.resourceKey = none then some (m.put new) else none
  | .updated, some old, some new =>
    if m.get? new.resourceKey = some old then some (m.put new) else none
  | .deleted, some old, none =>
    if m.get? old.resourceKey = some old then some (m.erase old.resourceKey) else none
  | _, _, _ => none

/-- The events in order, on a map that starts empty. -/
def replay (events : List (ResourceChangedEvent σ)) : Option (Contents σ) :=
  events.foldlM replayEvent Keyed.empty

theorem replay_snoc (events : List (ResourceChangedEvent σ)) (e : ResourceChangedEvent σ) :
    replay (events ++ [e]) = (replay events).bind fun m => replayEvent m e := by
  unfold replay
  rw [List.foldlM_append]
  cases events.foldlM replayEvent Keyed.empty with
  | none => rfl
  | some m => exact bind_pure (replayEvent m e)

/-- The events have kept to the map, which is now what the store holds. -/
def Replays (w : World σ (Memory.ResourceStore σ)) : Prop :=
  replay w.events = some w.store.stored

end Replay

/-! ## What a delta does to the store and sends -/

variable {inf : Informer σ ω (Memory.ResourceStore σ)} {w w' : World σ (Memory.ResourceStore σ)}

/-- The store and the events after a write that succeeds. -/
structure Writes (w w' : World σ (Memory.ResourceStore σ)) (contents : Contents σ)
    (event : ResourceChangedEvent σ) : Prop where
  stored : w'.store.stored = contents
  events : w'.events = w.events ++ [event]

theorem written_eq_ok {result : Except Failure Unit × Memory.ResourceStore σ} {typ : DeltaType}
    {oldObj newObj : Option (Resource σ)}
    (h : Informer.written w result typ oldObj newObj = (.ok (), w')) :
    result.1 = .ok () ∧ w'.store = result.2 ∧ w'.events = w.events ++ [⟨typ, oldObj, newObj⟩] := by
  obtain ⟨res, s⟩ := result
  cases res with
  | error e => cases (Prod.mk.inj h).1
  | ok u =>
    obtain rfl := (Prod.mk.inj h).2
    exact ⟨rfl, rfl, rfl⟩

theorem withState_eq_ok {s : Memory.ResourceStore σ}
    {result : Except Failure (Memory.ResourceStore σ)}
    (h : (withState s result).1 = .ok ()) : result = .ok (withState s result).2 := by
  cases result with
  | error e => cases h
  | ok s' => rfl

/-- What a delta that succeeds has done: a deletion removes the key and sends the delta's object;
any other delta stores its resource and sends `Updated` with the object that was stored, or `Added`.
-/
theorem handleDelta_eq_ok (hst : inf.indexer = memoryOps) {d : Delta σ ω}
    (h : inf.handleDelta w d = (.ok (), w')) :
    ∃ r, inf.toResource d.object = .ok r ∧
      ((d.type = .deleted ∧
          Writes w w' (w.store.stored.erase r.resourceKey) ⟨.deleted, some r, none⟩) ∨
        (d.type ≠ .deleted ∧ ∃ old, w.store.stored.get? r.resourceKey = some old ∧
          Writes w w' (w.store.stored.put r) ⟨.updated, some old, some r⟩) ∨
        (d.type ≠ .deleted ∧ w.store.stored.get? r.resourceKey = none ∧
          Writes w w' (w.store.stored.put r) ⟨.added, none, some r⟩)) := by
  cases hr : inf.toResource d.object with
  | error e =>
    unfold Informer.handleDelta at h
    rw [hr] at h
    cases (Prod.mk.inj h).1
  | ok r =>
    refine ⟨r, rfl, ?_⟩
    by_cases htype : d.type = .deleted
    · rw [handleDelta_of_deleted hr htype, hst] at h
      obtain ⟨-, hstore, hevents⟩ := written_eq_ok h
      exact .inl ⟨htype, by rw [hstore]; rfl, hevents⟩
    · have hget : inf.indexer.get w.store r = .ok (w.store.stored.get? r.resourceKey) := by
        rw [hst]
        rfl
      rw [handleDelta_of_ne_deleted hr htype hget, hst] at h
      cases hold : w.store.stored.get? r.resourceKey with
      | some old =>
        rw [hold] at h
        obtain ⟨hok, hstore, hevents⟩ := written_eq_ok h
        have hupdate := Agreement.update_frame (withState_eq_ok hok)
        exact .inr (.inl ⟨htype, old, rfl, by rw [hstore]; exact hupdate.1, hevents⟩)
      | none =>
        rw [hold] at h
        obtain ⟨hok, hstore, hevents⟩ := written_eq_ok h
        have hadd := Memory.add_eq_ok (withState_eq_ok hok)
        refine .inr (.inr ⟨htype, rfl, ?_, hevents⟩)
        rw [hstore]
        exact congrArg Memory.ResourceStore.stored hadd

theorem handleDeltas_cons_eq_ok {d : Delta σ ω} {deltas : List (Delta σ ω)}
    (h : inf.handleDeltas w (d :: deltas) = (.ok (), w')) :
    ∃ w₁, inf.handleDelta w d = (.ok (), w₁) ∧ inf.handleDeltas w₁ deltas = (.ok (), w') := by
  unfold Informer.handleDeltas at h
  obtain ⟨⟨result, w₁⟩, hd⟩ : ∃ out, inf.handleDelta w d = out := ⟨_, rfl⟩
  rw [hd] at h ⊢
  cases result with
  | error e => cases (Prod.mk.inj h).1
  | ok _ => exact ⟨w₁, rfl, h⟩

/-! ## Runs -/

section Runs

variable [DecidableEq σ]

/-- A call of `HandleDeltas` that returns `nil`. -/
def Handles (inf : Informer σ ω (Memory.ResourceStore σ)) (w : World σ (Memory.ResourceStore σ))
    (deltas : List (Delta σ ω)) (w' : World σ (Memory.ResourceStore σ)) : Prop :=
  inf.handleDeltas w deltas = (.ok (), w')

/-- A delta that is a deletion names the object that the store holds. -/
def NamesStored (inf : Informer σ ω (Memory.ResourceStore σ))
    (w : World σ (Memory.ResourceStore σ)) (d : Delta σ ω) : Prop :=
  ∀ r, inf.toResource d.object = .ok r → d.type = .deleted →
    w.store.stored.get? r.resourceKey = some r

/-- Each deletion among the deltas names the object that the store holds when it is handled. -/
def DeletesStored (inf : Informer σ ω (Memory.ResourceStore σ)) :
    World σ (Memory.ResourceStore σ) → List (Delta σ ω) → Prop
  | _, [] => True
  | w, d :: deltas => NamesStored inf w d ∧ DeletesStored inf (inf.handleDelta w d).2 deltas

/-- A replay that fits so far goes on to fit exactly at a deletion of the stored object, and at
every other delta; otherwise it has failed. -/
theorem replay_handleDelta (hst : inf.indexer = memoryOps) (hw : Replays w) {d : Delta σ ω}
    (h : inf.handleDelta w d = (.ok (), w')) :
    (NamesStored inf w d → Replays w') ∧ (¬ NamesStored inf w d → replay w'.events = none) := by
  obtain ⟨r, hr, hcases⟩ := handleDelta_eq_ok hst h
  have hsnoc : ∀ e, w'.events = w.events ++ [e] →
      replay w'.events = replayEvent w.store.stored e := by
    intro e he
    rw [he, replay_snoc, hw]
    rfl
  rcases hcases with ⟨htype, hwrites⟩ | ⟨htype, old, hold, hwrites⟩ | ⟨htype, hnone, hwrites⟩
  · -- The event carries the delta's object, which is compared with the stored one.
    have hevent : replayEvent w.store.stored ⟨.deleted, some r, none⟩ =
        if w.store.stored.get? r.resourceKey = some r then
          some (w.store.stored.erase r.resourceKey) else none := rfl
    unfold Replays
    rw [hsnoc _ hwrites.events, hevent, hwrites.stored]
    refine ⟨fun hnames => if_pos (hnames r hr htype), fun hnames => if_neg fun hget => hnames ?_⟩
    intro r' hr' _
    obtain rfl := Except.ok.inj (hr.symm.trans hr')
    exact hget
  · refine ⟨fun _ => ?_, fun hnames => absurd (fun _ _ hdel => absurd hdel htype) hnames⟩
    unfold Replays
    rw [hsnoc _ hwrites.events, hwrites.stored]
    exact if_pos hold
  · refine ⟨fun _ => ?_, fun hnames => absurd (fun _ _ hdel => absurd hdel htype) hnames⟩
    unfold Replays
    rw [hsnoc _ hwrites.events, hwrites.stored]
    exact if_pos hnone

/-- Once a replay has failed, no further call mends it. -/
theorem replay_eq_none_of_handles (hst : inf.indexer = memoryOps) {deltas : List (Delta σ ω)}
    (hw : replay w.events = none) (h : Handles inf w deltas w') : replay w'.events = none := by
  induction deltas generalizing w with
  | nil =>
    obtain rfl := (Prod.mk.inj h).2
    exact hw
  | cons d deltas ih =>
    obtain ⟨w₁, hd, hdeltas⟩ := handleDeltas_cons_eq_ok h
    refine ih ?_ hdeltas
    obtain ⟨r, -, hcases⟩ := handleDelta_eq_ok hst hd
    have hfails : ∀ e, w₁.events = w.events ++ [e] → replay w₁.events = none := by
      intro e he
      rw [he, replay_snoc, hw]
      rfl
    rcases hcases with ⟨-, hwrites⟩ | ⟨-, old, -, hwrites⟩ | ⟨-, -, hwrites⟩ <;>
      exact hfails _ hwrites.events

/-- A call keeps the replay exact if and only if its deletions name the stored objects. -/
theorem replays_handles (hst : inf.indexer = memoryOps) {deltas : List (Delta σ ω)}
    (hw : Replays w) (h : Handles inf w deltas w') : Replays w' ↔ DeletesStored inf w deltas := by
  induction deltas generalizing w with
  | nil =>
    obtain rfl := (Prod.mk.inj h).2
    exact iff_of_true hw trivial
  | cons d deltas ih =>
    obtain ⟨w₁, hd, hdeltas⟩ := handleDeltas_cons_eq_ok h
    obtain ⟨hkeeps, hbreaks⟩ := replay_handleDelta hst hw hd
    unfold DeletesStored
    rw [hd]
    by_cases hnames : NamesStored inf w d
    · rw [ih (hkeeps hnames) hdeltas]
      exact ⟨fun hrest => ⟨hnames, hrest⟩, fun hall => hall.2⟩
    · refine iff_of_false (fun hw' => ?_) fun hall => hnames hall.1
      have hnone := replay_eq_none_of_handles hst (hbreaks hnames) hdeltas
      exact Option.some_ne_none _ (hw'.symm.trans hnone)

/-- In every run of calls that return `nil`, from an empty memory store, in which each deletion
names the stored object, the events replay to what the store holds; and a further call keeps it so
if and only if its deletions name the stored objects, too. -/
theorem replays_iff_deletesStored (hst : inf.indexer = memoryOps) {indexers : Indexers σ}
    {calls : List (List (Delta σ ω))}
    (h : Run (Guarded (DeletesStored inf) (Handles inf)) ⟨Memory.init indexers, []⟩ calls w) :
    Replays w ∧ ∀ deltas w', Handles inf w deltas w' →
      (Replays w' ↔ DeletesStored inf w deltas) := by
  have hinit : Replays (⟨Memory.init indexers, []⟩ : World σ (Memory.ResourceStore σ)) := by
    rfl
  have hw : Replays w := by
    refine h.invariant Replays hinit fun w deltas w' hw hstep => ?_
    exact (replays_handles hst hw hstep.2).mpr hstep.1
  exact ⟨hw, fun deltas w' => replays_handles hst hw⟩

end Runs

/-- An informer over a memory store, without a transform. -/
def memoryInformer : Informer String Unit (Memory.ResourceStore String) :=
  ⟨memoryOps, fun _ => .error (.err ""), none⟩

/-- A delta with the resource as its object. -/
def resourceDelta (typ : DeltaType) (r : Resource String) : Delta String Unit :=
  ⟨typ, .object (.resource r)⟩

/-- An instance is added, and deleted by a delta that names it as it is stored. -/
theorem replays_after_delete :
    ∃ w w', Run (Guarded (DeletesStored memoryInformer) (Handles memoryInformer))
        ⟨Memory.init Memory.sampleIndexers, []⟩
        [[resourceDelta .added (Memory.sampleInstance "i" "10.0.0.1")]] w ∧
      Handles memoryInformer w [resourceDelta .deleted (Memory.sampleInstance "i" "10.0.0.1")] w' ∧
      Replays w' := by
  obtain ⟨w, hadd, w', hdelete⟩ : ∃ w, Handles memoryInformer
        ⟨Memory.init Memory.sampleIndexers, []⟩
        [resourceDelta .added (Memory.sampleInstance "i" "10.0.0.1")] w ∧
      ∃ w', Handles memoryInformer w
        [resourceDelta .deleted (Memory.sampleInstance "i" "10.0.0.1")] w' := ⟨_, rfl, _, rfl⟩
  have hrun : Run (Guarded (DeletesStored memoryInformer) (Handles memoryInformer))
      ⟨Memory.init Memory.sampleIndexers, []⟩
      [[resourceDelta .added (Memory.sampleInstance "i" "10.0.0.1")]] w :=
    .snoc .nil ⟨⟨fun _ _ h => (nomatch h), trivial⟩, hadd⟩
  refine ⟨w, w', hrun, hdelete, ((replays_iff_deletesStored rfl hrun).2 _ _ hdelete).mpr ?_⟩
  obtain rfl := (Prod.mk.inj hadd).2
  refine ⟨fun r hr _ => ?_, trivial⟩
  cases hr
  rfl

/-- An instance is added with one address, and the deletion that follows names it with another:
both calls return `nil`, and the events no longer fit. A deletion of a key that was never stored
does the same. -/
theorem deletedObject_breaks_replay :
    (∃ w, Run (Handles memoryInformer) ⟨Memory.init Memory.sampleIndexers, []⟩
        [[resourceDelta .added (Memory.sampleInstance "i" "10.0.0.1")],
          [resourceDelta .deleted (Memory.sampleInstance "i" "10.0.0.2")]] w ∧
      replay w.events = none) ∧
    ∃ w, Run (Handles memoryInformer) ⟨Memory.init Memory.sampleIndexers, []⟩
        [[resourceDelta .deleted (Memory.sampleInstance "i" "10.0.0.1")]] w ∧
      replay w.events = none :=
  ⟨⟨_, .snoc (.snoc .nil rfl) rfl, by decide⟩, _, .snoc .nil rfl, by decide⟩

end DubboAdmin.Controller
