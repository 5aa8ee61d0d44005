import DubboAdmin.Store.Interface

/-!
# Informers

The informer of `pkg/core/controller/informer.go`: it takes deltas from a queue, writes their
objects to a store, and emits an event for each write. `DeltaFIFO` is what it relies on of
client-go's queue: the deltas of one key wait together, the keys in the order in which they came in,
and `Replace` queues a `Replaced` delta for each listed object and a `Deleted` delta for each key of
`KnownObjects` that is not listed.

`relist_stored` says what a relist leaves in the store: exactly what was listed.
-/

namespace DubboAdmin.Controller

variable {σ ω S : Type}

/-! ## Objects, deltas, and events -/

/-- An `interface{}` value that a source delivers. -/
inductive Object (σ ω : Type) where
  | resource (r : Resource σ)
  /-- A value of another type, with the name of the type. -/
  | other (typeName : String) (x : ω)
  | nil

/-- The object of a delta. -/
inductive DeltaObject (σ ω : Type) where
  /-- An object as it was delivered. -/
  | object (o : Object σ ω)
  /-- `cache.DeletedFinalStateUnknown`: the key of an object that is gone, and its last known
  state. -/
  | deletedFinalStateUnknown (key : String) (obj : Object σ ω)

/-- The types of deltas and events. -/
inductive DeltaType where
  | added
  | updated
  | deleted
  | replaced
  | sync
deriving DecidableEq, Repr

/-- A change in the queue. -/
structure Delta (σ ω : Type) where
  type : DeltaType
  object : DeltaObject σ ω

/-- An event that an informer emits. -/
structure ResourceChangedEvent (σ : Type) where
  typ : DeltaType
  oldObj : Option (Resource σ)
  newObj : Option (Resource σ)
deriving DecidableEq, Repr

def newAssertionError (expected actual : String) : Failure :=
  .err ("[UnknownError], type assertion error, expected:" ++ expected ++ ", actual:" ++ actual)

/-! ## The informer -/

/-- The fields of `informer` that its processing of deltas reads. -/
structure Informer (σ ω S : Type) where
  indexer : ResourceStore σ S
  keyFunc : Object σ ω → Except Failure String
  transform : Option (Object σ ω → Except Failure (Object σ ω))

/-- The store of an informer, and the events that were sent to the event bus. -/
structure World (σ S : Type) where
  store : S
  /-- The events, in the order in which they were sent. -/
  events : List (ResourceChangedEvent σ)

def World.emitEvent (w : World σ S) (typ : DeltaType) (oldObj newObj : Option (Resource σ)) :
    World σ S :=
  { w with events := w.events ++ [⟨typ, oldObj, newObj⟩] }

namespace Informer

/-- The type assertion with which `toResource` ends, and its errors. -/
def assertResource : Object σ ω → Except Failure (Resource σ)
  | .resource r => .ok r
  | .other typeName _ => .error (newAssertionError "Resource" typeName)
  | .nil => .error (newAssertionError "Resource" "nil")

def toResource (inf : Informer σ ω S) (obj : DeltaObject σ ω) : Except Failure (Resource σ) :=
  let object := match obj with
    | .object o => o
    | .deletedFinalStateUnknown _ o => o
  match object, inf.transform with
  | .resource r, _ => .ok r
  | o, none => assertResource o
  | o, some transform =>
    match transform o with
    | .error e => .error e
    | .ok transformed => assertResource transformed

/-- A store call of `HandleDeltas`, and the event that it emits where the call succeeds. -/
def written (w : World σ S) (result : Except Failure Unit × S) (typ : DeltaType)
    (oldObj newObj : Option (Resource σ)) : Except Failure Unit × World σ S :=
  match result with
  | (.error e, s) => (.error e, { w with store := s })
  | (.ok (), s) => (.ok (), { w with store := s }.emitEvent typ oldObj newObj)

/-- One round of the loop of `HandleDeltas`. -/
def handleDelta (inf : Informer σ ω S) (w : World σ S) (d : Delta σ ω) :
    Except Failure Unit × World σ S :=
  match inf.toResource d.object with
  | .error e => (.error e, w)
  | .ok resource =>
    match d.type with
    | .deleted => written w (inf.indexer.delete w.store resource) .deleted (some resource) none
    | _ =>
      match inf.indexer.get w.store resource with
      | .ok (some old) =>
        written w (inf.indexer.update w.store resource) .updated (some old) (some resource)
      | _ => written w (inf.indexer.add w.store resource) .added none (some resource)

/-- `HandleDeltas`: from the oldest delta to the newest, up to the first error. -/
def handleDeltas (inf : Informer σ ω S) (w : World σ S) :
    List (Delta σ ω) → Except Failure Unit × World σ S
  | [] => (.ok (), w)
  | d :: deltas =>
    match inf.handleDelta w d with
    | (.error e, w) => (.error e, w)
    | (.ok (), w) => inf.handleDeltas w deltas

end Informer

/-! ## The queue -/

/-- The queue of a `DeltaFIFO`: the deltas of each key, the keys in the order in which they came
in. -/
abbrev Queue (σ ω : Type) := Keyed (Prod.fst : String × List (Delta σ ω) → String)

namespace DeltaFIFO

/-- The deltas that wait under a key. -/
def deltas (queue : Queue σ ω) (key : String) : List (Delta σ ω) :=
  match queue.get? key with
  | none => []
  | some entry => entry.2

/-- A delta joins those of its key. -/
def push (queue : Queue σ ω) (key : String) (d : Delta σ ω) : Queue σ ω :=
  queue.put (key, deltas queue key ++ [d])

/-- `queueActionLocked` for a listed object: it is transformed before it is queued. -/
def queueListed (inf : Informer σ ω S) (queue : Queue σ ω) (obj : Object σ ω) :
    Except Failure (Queue σ ω) := do
  let key ← inf.keyFunc obj
  let obj ← match inf.transform with
    | none => pure obj
    | some transform => transform obj
  pure (push queue key ⟨.replaced, .object obj⟩)

/-- The first loop of `Replace`, which ends at the first object that cannot be queued. -/
def queueList (inf : Informer σ ω S) :
    Queue σ ω → List (Object σ ω) → Except Failure Unit × Queue σ ω
  | queue, [] => (.ok (), queue)
  | queue, obj :: list =>
    match queueListed inf queue obj with
    | .error e => (.error e, queue)
    | .ok queue => queueList inf queue list

/-- The deletion of a key of `KnownObjects`, with the object that is found there. -/
def tombstone (inf : Informer σ ω S) (s : S) (key : String) : Delta σ ω :=
  let deletedObj := match inf.indexer.getByKey s key with
    | .ok (some r) => .resource r
    | _ => .nil
  ⟨.deleted, .deletedFinalStateUnknown key deletedObj⟩

/-- The last loop of `Replace`: a tombstone for a key of `KnownObjects` that is not queued. -/
def queueDeletion (inf : Informer σ ω S) (s : S) (queue : Queue σ ω) (key : String) : Queue σ ω :=
  if (queue.get? key).isSome then queue else push queue key (tombstone inf s key)

/-- `Replace` on an empty queue. -/
def replace (inf : Informer σ ω S) (s : S) (list : List (Object σ ω)) : Queue σ ω :=
  match queueList inf Keyed.empty list with
  | (.error _, queue) => queue
  | (.ok (), queue) => (inf.indexer.listKeys s).foldl (queueDeletion inf s) queue

end DeltaFIFO

/-- `HandleDeltas` on everything queued. An error ends the deltas of its key only; a panic ends the
process. -/
def Informer.process (inf : Informer σ ω S) (w : World σ S) :
    List (String × List (Delta σ ω)) → World σ S
  | [] => w
  | entry :: queue =>
    match inf.handleDeltas w entry.2 with
    | (.error (.panic _), w) => w
    | (_, w) => inf.process w queue

/-- A relist: `Replace` with the list, and `HandleDeltas` on everything queued. -/
def Informer.relist (inf : Informer σ ω S) (list : List (Object σ ω)) (w : World σ S) : World σ S :=
  inf.process w (DeltaFIFO.replace inf w.store list).items

/-! ## What deltas leave in a lawful store -/

section Deltas

variable {st : LawfulStore σ S} {inf : Informer σ ω S} {w : World σ S}

/-- A store call that succeeds is followed by its event. -/
theorem written_ok {result : Except Failure Unit × S} (h : result.1 = .ok ()) (typ : DeltaType)
    (oldObj newObj : Option (Resource σ)) :
    Informer.written w result typ oldObj newObj =
      (.ok (), { w with store := result.2 }.emitEvent typ oldObj newObj) := by
  obtain ⟨res, s⟩ := result
  obtain rfl : res = .ok () := h
  rfl

variable {d : Delta σ ω} {r : Resource σ}

/-- A deletion calls `Delete`. -/
theorem handleDelta_of_deleted (hd : inf.toResource d.object = .ok r) (htype : d.type = .deleted) :
    inf.handleDelta w d =
      Informer.written w (inf.indexer.delete w.store r) .deleted (some r) none := by
  unfold Informer.handleDelta
  rw [hd, htype]

/-- Any other delta calls `Update` or `Add`. -/
theorem handleDelta_of_ne_deleted {found : Option (Resource σ)}
    (hd : inf.toResource d.object = .ok r) (htype : d.type ≠ .deleted)
    (hget : inf.indexer.get w.store r = .ok found) :
    inf.handleDelta w d = found.elim
      (Informer.written w (inf.indexer.add w.store r) .added none (some r))
      fun old =>
        Informer.written w (inf.indexer.update w.store r) .updated (some old) (some r) := by
  unfold Informer.handleDelta
  rw [hd]
  cases htype' : d.type with
  | deleted => exact absurd htype' htype
  | _ => cases found <;> simp only [hget, Option.elim_none, Option.elim_some]

/-- A delta that is no deletion stores its resource and sends it. -/
theorem handleDelta_put (hst : inf.indexer = st.toResourceStore) (hvalid : st.valid w.store)
    (hd : inf.toResource d.object = .ok r) (htype : d.type ≠ .deleted) (hkind : r.kind = st.kind) :
    ∃ w', inf.handleDelta w d = (.ok (), w') ∧
      st.Leaves w.store ((st.stored w.store).put r) w'.store ∧
      ∃ typ oldObj, typ ≠ .deleted ∧ w'.events = w.events ++ [⟨typ, oldObj, some r⟩] := by
  have hget : inf.indexer.get w.store r = .ok ((st.stored w.store).get? r.resourceKey) := by
    rw [hst]
    exact st.getByKey_eq w.store r.resourceKey
  rw [handleDelta_of_ne_deleted hd htype hget, hst]
  -- `Update` where the key is taken, and `Add` where it is not.
  cases hold : (st.stored w.store).get? r.resourceKey with
  | some old =>
    obtain ⟨hok, hleaves⟩ := st.update_spec w.store r old hvalid hkind hold
    exact ⟨_, written_ok hok .updated (some old) (some r), hleaves, .updated, _, by decide, rfl⟩
  | none =>
    obtain ⟨hok, hleaves⟩ := st.add_spec w.store r hvalid hkind hold
    exact ⟨_, written_ok hok .added none (some r), hleaves, .added, _, by decide, rfl⟩

/-- A deletion removes its resource, where there is one to remove. -/
theorem handleDelta_erase (hst : inf.indexer = st.toResourceStore) (hvalid : st.valid w.store)
    (hd : inf.toResource d.object = .ok r) (htype : d.type = .deleted) {old : Resource σ}
    (hold : (st.stored w.store).get? r.resourceKey = some old) :
    ∃ w', inf.handleDelta w d = (.ok (), w') ∧
      st.Leaves w.store ((st.stored w.store).erase r.resourceKey) w'.store := by
  rw [handleDelta_of_deleted hd htype, hst]
  exact ⟨_, written_ok (st.delete_ok w.store r old hvalid hold) .deleted (some r) none,
    st.delete_spec w.store r hvalid⟩

end Deltas

/-! ## What a relist queues -/

/-- An informer that queues resources under their keys, as they are. -/
structure Informer.Plain (inf : Informer σ ω S) : Prop where
  transform : inf.transform = none
  keyFunc : ∀ r, inf.keyFunc (.resource r) = .ok r.resourceKey

/-- The delta of a listed resource. -/
def replacedDelta (r : Resource σ) : Delta σ ω := ⟨.replaced, .object (.resource r)⟩

namespace DeltaFIFO

theorem deltas_push_self (queue : Queue σ ω) (key : String) (d : Delta σ ω) :
    deltas (push queue key d) key = deltas queue key ++ [d] := by
  have hget : (push queue key d).get? key = some (key, deltas queue key ++ [d]) :=
    Keyed.get?_put_self queue (key, deltas queue key ++ [d])
  unfold deltas at hget ⊢
  rw [hget]

theorem get?_push_ne (queue : Queue σ ω) {key key' : String} (d : Delta σ ω) (h : key' ≠ key) :
    (push queue key d).get? key' = queue.get? key' :=
  Keyed.get?_put_ne queue h

theorem deltas_of_mem {queue : Queue σ ω} {entry : String × List (Delta σ ω)}
    (h : entry ∈ queue.items) : deltas queue entry.1 = entry.2 := by
  have hget : queue.get? entry.1 = some entry := Keyed.get?_key h
  unfold deltas
  rw [hget]

variable {inf : Informer σ ω S}

theorem queueListed_resource (hplain : inf.Plain) (queue : Queue σ ω) (r : Resource σ) :
    queueListed inf queue (.resource r) = .ok (push queue r.resourceKey (replacedDelta r)) := by
  unfold queueListed
  rw [hplain.keyFunc, hplain.transform]
  rfl

/-- Listed resources are all queued, each behind the earlier ones with its key. -/
theorem queueList_resources (hplain : inf.Plain) (list : List (Resource σ)) (queue : Queue σ ω) :
    ∃ queue', queueList inf queue (list.map .resource) = (.ok (), queue') ∧ ∀ key,
      deltas queue' key =
        deltas queue key ++ (list.filter fun r => r.resourceKey = key).map replacedDelta ∧
      (queue'.get? key = none ↔ queue.get? key = none ∧ ∀ r ∈ list, r.resourceKey ≠ key) := by
  induction list generalizing queue with
  | nil => exact ⟨queue, rfl, fun key => ⟨by simp, by simp⟩⟩
  | cons r list ih =>
    -- The first resource is queued before the rest: its delta comes first under its key.
    obtain ⟨queue', hqueue', hspec⟩ := ih (push queue r.resourceKey (replacedDelta r))
    refine ⟨queue', ?_, fun key => ?_⟩
    · rw [List.map_cons, queueList, queueListed_resource hplain]
      exact hqueue'
    · obtain ⟨hdeltas, hnone⟩ := hspec key
      by_cases hkey : r.resourceKey = key
      · subst hkey
        rw [hdeltas, deltas_push_self, List.filter_cons_of_pos (by simp), List.map_cons, hnone]
        have hpresent : (push queue r.resourceKey (replacedDelta r)).get? r.resourceKey ≠ none := by
          intro h
          have := h.symm.trans (Keyed.get?_put_self queue
            (r.resourceKey, deltas queue r.resourceKey ++ [replacedDelta r]))
          cases this
        exact ⟨by simp, by simp [hpresent]⟩
      · have hget := get?_push_ne queue (replacedDelta r) (Ne.symm hkey)
        have hsame : deltas (push queue r.resourceKey (replacedDelta r)) key =
            deltas queue key := by
          unfold deltas
          rw [hget]
        rw [hdeltas, hsame, List.filter_cons_of_neg (by simpa using hkey), hnone, hget]
        exact ⟨rfl, by simp [hkey]⟩

/-- The tombstones of the keys that are not queued follow what is queued. -/
theorem foldl_queueDeletion (inf : Informer σ ω S) (s : S) {keys : List String} (h : keys.Nodup)
    (queue : Queue σ ω) :
    (keys.foldl (queueDeletion inf s) queue).items = queue.items ++
      (keys.filter fun key => queue.get? key = none).map
        fun key => (key, [tombstone inf s key]) := by
  induction keys generalizing queue with
  | nil => simp
  | cons key keys ih =>
    obtain ⟨hkey, hkeys⟩ := List.nodup_cons.mp h
    rw [List.foldl_cons, ih hkeys]
    unfold queueDeletion
    cases hget : queue.get? key with
    -- A key that is already queued was listed, and gets no tombstone.
    | some entry =>
      rw [Option.isSome_some, if_pos rfl, List.filter_cons_of_neg (by simp [hget])]
    | none =>
      have hdeltas : deltas queue key = [] := by
        unfold deltas
        rw [hget]
      have hitems : (push queue key (tombstone inf s key)).items =
          queue.items ++ [(key, [tombstone inf s key])] := by
        unfold push
        rw [hdeltas, Keyed.items_put_of_absent hget]
        rfl
      -- The keys are distinct, so that the entry added here hides none of the later ones.
      have hfilter :
          (keys.filter fun key' => (push queue key (tombstone inf s key)).get? key' = none) =
            keys.filter fun key' => queue.get? key' = none := by
        refine List.filter_congr fun key' hkey' => ?_
        have hne : key' ≠ key := fun heq => hkey (heq ▸ hkey')
        rw [get?_push_ne queue _ hne]
      rw [Option.isSome_none, if_neg Bool.false_ne_true, hitems, hfilter,
        List.filter_cons_of_pos (by simp [hget])]
      simp

end DeltaFIFO

/-! ## What a relist leaves in a lawful store -/

section Relist

variable {st : LawfulStore σ S} {inf : Informer σ ω S}

theorem Leaves.trans {s s' s'' : S} {c c' : Contents σ} (h : st.Leaves s c s')
    (h' : st.Leaves s' c' s'') : st.Leaves s c' s'' :=
  ⟨h'.stored, h'.valid, fun hexact => h'.exact (h.exact hexact)⟩

variable {list : List (Resource σ)} {w : World σ S}

/-- The deltas of listed resources store them one after the other. -/
theorem handleDeltas_replaced (hst : inf.indexer = st.toResourceStore)
    (hkind : ∀ r ∈ list, r.kind = st.kind) (hvalid : st.valid w.store) :
    ∃ w', inf.handleDeltas w (list.map replacedDelta) = (.ok (), w') ∧
      st.Leaves w.store (list.foldl Keyed.put (st.stored w.store)) w'.store := by
  induction list generalizing w with
  | nil => exact ⟨w, rfl, rfl, hvalid, id⟩
  | cons r list ih =>
    have hr : r.kind = st.kind := hkind r List.mem_cons_self
    obtain ⟨w₁, hw₁, hleaves₁, -⟩ := handleDelta_put (d := replacedDelta r) hst hvalid rfl
      (by simp [replacedDelta]) hr
    obtain ⟨w₂, hw₂, hleaves₂⟩ := ih (fun r' hr' => hkind r' (List.mem_cons_of_mem _ hr'))
      hleaves₁.valid
    refine ⟨w₂, ?_, Leaves.trans hleaves₁ ?_⟩
    · rw [List.map_cons, Informer.handleDeltas, hw₁]
      exact hw₂
    · rw [hleaves₁.stored] at hleaves₂
      exact hleaves₂

/-- The last resource of the list under a key. -/
def lastListed (list : List (Resource σ)) (key : String) : Option (Resource σ) :=
  (list.filter fun r => r.resourceKey = key).getLast?

/-- The entries of a queue that hold the listed resources of their keys store the last of each. -/
theorem process_replaced (hst : inf.indexer = st.toResourceStore)
    (hkind : ∀ r ∈ list, r.kind = st.kind) {entries : List (String × List (Delta σ ω))}
    (hentries : ∀ e ∈ entries, e.2 = (list.filter fun r => r.resourceKey = e.1).map replacedDelta)
    (hvalid : st.valid w.store) :
    ∃ w', (∀ rest, inf.process w (entries ++ rest) = inf.process w' rest) ∧ st.valid w'.store ∧
      ∀ key, (st.stored w'.store).get? key =
        if key ∈ entries.map Prod.fst then (lastListed list key).or ((st.stored w.store).get? key)
        else (st.stored w.store).get? key := by
  induction entries generalizing w with
  | nil => exact ⟨w, fun _ => rfl, hvalid, fun key => by simp⟩
  | cons e entries ih =>
    obtain ⟨w₁, hw₁, hleaves⟩ := handleDeltas_replaced hst
      (fun r hr => hkind r (List.mem_of_mem_filter hr)) hvalid
    obtain ⟨w₂, hw₂, hvalid₂, hget₂⟩ := ih
      (fun e' he' => hentries e' (List.mem_cons_of_mem _ he')) hleaves.valid
    refine ⟨w₂, fun rest => ?_, hvalid₂, fun key => ?_⟩
    · rw [List.cons_append, Informer.process, hentries e List.mem_cons_self, hw₁]
      exact hw₂ rest
    · -- The entry changes its own key only, to the last resource listed under it.
      rw [hget₂, hleaves.stored, Keyed.get?_foldl_put, List.filter_filter, List.map_cons]
      by_cases hkey : key = e.1
      · subst hkey
        simp only [Bool.and_self, List.mem_cons, true_or, if_true, lastListed]
        cases (list.filter fun r => r.resourceKey = e.1).getLast? with
        | none => simp
        | some r => simp
      · have hnone : (list.filter fun r => decide (r.resourceKey = key) &&
            decide (r.resourceKey = e.1)) = [] := by
          refine List.filter_eq_nil_iff.mpr fun r _ hr => hkey ?_
          simp only [Bool.and_eq_true, decide_eq_true_eq] at hr
          exact hr.1.symm.trans hr.2
        rw [hnone, List.getLast?_nil, Option.none_or]
        simp only [List.mem_cons, hkey, false_or]

/-- The tombstones of stored keys remove what is stored there. -/
theorem process_tombstones (hst : inf.indexer = st.toResourceStore) (s : S) {keys : List String}
    (hkeys : keys.Nodup) (hknown : ∀ key ∈ keys, ∃ r, (st.stored s).get? key = some r)
    (hvalid : st.valid w.store) (hstored : ∀ key ∈ keys, ∃ r, (st.stored w.store).get? key = some r)
    :
    ∀ key, (st.stored (inf.process w (keys.map fun key =>
        (key, [DeltaFIFO.tombstone inf s key]))).store).get? key =
      if key ∈ keys then none else (st.stored w.store).get? key := by
  induction keys generalizing w with
  | nil =>
    intro key
    simp [Informer.process]
  | cons k keys ih =>
    intro key
    obtain ⟨hk, hkeys⟩ := List.nodup_cons.mp hkeys
    -- The tombstone holds the resource that was known under its key.
    obtain ⟨r, hr⟩ := hknown k List.mem_cons_self
    obtain ⟨old, hold⟩ := hstored k List.mem_cons_self
    have hrkey : r.resourceKey = k := (Keyed.get?_eq_some_iff.mp hr).2
    have hresource : inf.toResource (DeltaFIFO.tombstone inf s k).object = .ok r := by
      have hget : inf.indexer.getByKey s k = .ok (some r) := by
        rw [hst, st.getByKey_eq, hr]
      simp only [DeltaFIFO.tombstone, hget, Informer.toResource]
    obtain ⟨w₁, hw₁, hleaves⟩ := handleDelta_erase hst hvalid hresource rfl (hrkey ▸ hold)
    rw [hrkey] at hleaves
    have hprocess : inf.process w ((k :: keys).map fun key =>
        (key, [DeltaFIFO.tombstone inf s key])) =
        inf.process w₁ (keys.map fun key => (key, [DeltaFIFO.tombstone inf s key])) := by
      rw [List.map_cons, Informer.process, Informer.handleDeltas, hw₁]
      rfl
    have hrest : ∀ key ∈ keys, ∃ r, (st.stored w₁.store).get? key = some r := by
      intro key' hkey'
      have hne : key' ≠ k := fun heq => hk (heq ▸ hkey')
      rw [hleaves.stored, Keyed.get?_erase_ne _ hne]
      exact hstored key' (List.mem_cons_of_mem _ hkey')
    rw [hprocess, ih hkeys (fun key' hkey' => hknown key' (List.mem_cons_of_mem _ hkey'))
      hleaves.valid hrest, hleaves.stored]
    by_cases hkey : key = k
    · subst hkey
      simp [Keyed.get?_erase_self]
    · rw [Keyed.get?_erase_ne _ hkey]
      simp [hkey]

/-- What `Replace` queues: an entry for each listed key, with its resources, and then a tombstone
for each stored key that is not listed. -/
theorem replace_items (hst : inf.indexer = st.toResourceStore) (hplain : inf.Plain)
    (list : List (Resource σ)) (s : S) :
    ∃ (entries : List (String × List (Delta σ ω))) (deleted : List String),
      (DeltaFIFO.replace inf s (list.map .resource)).items =
        entries ++ deleted.map (fun key => (key, [DeltaFIFO.tombstone inf s key])) ∧
      (∀ e ∈ entries, e.2 = (list.filter fun r => r.resourceKey = e.1).map replacedDelta) ∧
      (∀ key, key ∈ entries.map Prod.fst ↔ ∃ r ∈ list, r.resourceKey = key) ∧ deleted.Nodup ∧
      ∀ key, key ∈ deleted ↔
        (∃ r, (st.stored s).get? key = some r) ∧ ¬ ∃ r ∈ list, r.resourceKey = key := by
  obtain ⟨queue, hqueue, hspec⟩ := DeltaFIFO.queueList_resources hplain list Keyed.empty
  have hkeys : (inf.indexer.listKeys s).Perm (st.stored s).keys := by
    rw [hst]
    exact st.listKeys_perm s
  have hnodup : (inf.indexer.listKeys s).Nodup := hkeys.nodup_iff.mpr (st.stored s).nodup
  -- Of an empty queue, exactly the listed keys get an entry.
  have hnone : ∀ key, queue.get? key = none ↔ ¬ ∃ r ∈ list, r.resourceKey = key := by
    intro key
    rw [(hspec key).2]
    simp
  refine ⟨queue.items, (inf.indexer.listKeys s).filter fun key => queue.get? key = none, ?_, ?_, ?_,
    hnodup.filter _, fun key => ?_⟩
  · simp only [DeltaFIFO.replace, hqueue]
    exact DeltaFIFO.foldl_queueDeletion inf s hnodup queue
  · intro e he
    rw [← DeltaFIFO.deltas_of_mem he, (hspec e.1).1]
    rfl
  · intro key
    rw [← not_iff_not, ← hnone, Option.eq_none_iff_forall_ne_some, ← not_exists,
      ← Keyed.mem_keys_iff]
    rfl
  · rw [List.mem_filter, hkeys.mem_iff, Keyed.mem_keys_iff, decide_eq_true_eq, hnone]

/-- After a relist, the store holds exactly what was listed, whatever it held before: under each key
the last resource of the list, and nothing under a key that is not listed. -/
theorem relist_stored (hst : inf.indexer = st.toResourceStore) (hplain : inf.Plain)
    (hkind : ∀ r ∈ list, r.kind = st.kind) (hvalid : st.valid w.store) (r : Resource σ) :
    r ∈ (st.stored (inf.relist (list.map .resource) w).store).items ↔
      r ∈ (Keyed.ofList list : Contents σ).items := by
  refine Keyed.mem_iff_of_get?_eq (fun key => ?_) r
  obtain ⟨entries, deleted, hitems, hentries, hlisted, hnodup, hdeleted⟩ :=
    replace_items hst hplain list w.store
  obtain ⟨w₁, hw₁, hvalid₁, hget₁⟩ := process_replaced hst hkind hentries hvalid
  -- The listed entries leave the keys alone that are deleted after them.
  have hstored : ∀ key ∈ deleted, ∃ r, (st.stored w₁.store).get? key = some r := by
    intro key hkey
    obtain ⟨hold, hunlisted⟩ := (hdeleted key).mp hkey
    rw [hget₁, if_neg ((hlisted key).not.mpr hunlisted)]
    exact hold
  have hget := process_tombstones hst w.store hnodup (fun key hkey => ((hdeleted key).mp hkey).1)
    hvalid₁ hstored key
  unfold Informer.relist
  rw [hitems, hw₁, hget, hget₁, Keyed.get?_ofList]
  by_cases hkey : ∃ r ∈ list, r.resourceKey = key
  · have hne : (list.filter fun r => r.resourceKey = key) ≠ [] := by
      obtain ⟨r, hr, hrkey⟩ := hkey
      exact List.ne_nil_of_mem (List.mem_filter.mpr ⟨hr, decide_eq_true hrkey⟩)
    rw [if_neg fun hmem => ((hdeleted key).mp hmem).2 hkey, if_pos ((hlisted key).mpr hkey),
      lastListed, List.getLast?_eq_some_getLast hne, Option.some_or]
  · have hnil : (list.filter fun r => r.resourceKey = key) = [] :=
      List.filter_eq_nil_iff.mpr fun r hr hrkey => hkey ⟨r, hr, of_decide_eq_true hrkey⟩
    rw [if_neg ((hlisted key).not.mpr hkey), hnil, List.getLast?_nil]
    split_ifs with hmem
    · rfl
    · cases hold : (st.stored w.store).get? key with
      | none => rfl
      | some old => exact absurd ((hdeleted key).mpr ⟨⟨old, hold⟩, hkey⟩) hmem

end Relist

end DubboAdmin.Controller
