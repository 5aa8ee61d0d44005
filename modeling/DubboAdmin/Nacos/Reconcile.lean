import DubboAdmin.Controller.Informer
import DubboAdmin.Instances.Resource

/-!
# Reconciling a store with a snapshot

`processRPCInstanceUpsert` and `processConsumerMetadataUpsert` of
`pkg/core/discovery/subscriber/nacos_service.go` end in the same way: the resources that a snapshot
of a Nacos service gives are compared, by resource key, with those that two indices find in the
store, and deleted, added or updated, each with its event. An error of a call is logged, and a `nil`
pointer panics in it.

If no key of the snapshot is held by a stored resource that the indices do not find, the store then
holds the snapshot in place of what they found (`reconcile_spec`).
-/

namespace DubboAdmin.Nacos

open Controller (World ResourceChangedEvent)
open Instances (StringMap)

/-! ## Resources -/

/-- An instance of a Nacos service. -/
structure NacosInstance where
  ip : String
  port : ℤ
  metadata : StringMap
deriving DecidableEq

/-- A Nacos service with its instances. -/
structure NacosService where
  serviceKey : String
  instances : List NacosInstance
deriving DecidableEq

/-- A `NacosServiceResource`, whose `Spec` may be `nil`. -/
abbrev NacosServiceResource := Resource (Option NacosService)

def nacosServiceKind : String := "NacosService"

variable {σ S : Type}

/-! ## The loops -/

/-- A map from resource keys to pointers, which may be `nil`. -/
abbrev ResourceMap (σ : Type) := Keyed (Prod.fst : String × Option (Resource σ) → String)

/-- The entry of a resource. -/
def entryOf (r : Resource σ) : String × Option (Resource σ) := (r.resourceKey, some r)

/-- `maputil.Minus`: the entries of the first map whose keys the second one does not have. -/
def minus (a b : ResourceMap σ) : List (String × Option (Resource σ)) :=
  a.items.filter fun e => (b.get? e.1).isNone

/-- The entries of the first map whose keys the second one has. -/
def common (a b : ResourceMap σ) : List (String × Option (Resource σ)) :=
  a.items.filter fun e => (b.get? e.1).isSome

/-- The event for a resource that was deleted. -/
def deletedEvent (item : Resource σ) : ResourceChangedEvent σ := ⟨.deleted, some item, none⟩

/-- The event for a resource that was added. -/
def addedEvent (item : Resource σ) : ResourceChangedEvent σ := ⟨.added, none, some item⟩

/-- The event for a resource that was updated, which carries the new object twice. -/
def updatedEvent (item : Resource σ) : ResourceChangedEvent σ := ⟨.updated, some item, some item⟩

/-- One call of the store, and its event where the call succeeds. An error is only logged. -/
def callAndSend (w : World σ S) (result : Except Failure Unit × S)
    (event : ResourceChangedEvent σ) : World σ S :=
  match result with
  | (.error _, s) => { w with store := s }
  | (.ok (), s) => ⟨s, w.events ++ [event]⟩

/-- The body of the loop that deletes. -/
def deleteItem (st : ResourceStore σ S) (w : World σ S) (item : Resource σ) : World σ S :=
  callAndSend w (st.delete w.store item) (deletedEvent item)

/-- The body of the loop that adds. -/
def addItem (st : ResourceStore σ S) (w : World σ S) (item : Resource σ) : World σ S :=
  callAndSend w (st.add w.store item) (addedEvent item)

/-- The body of the loop that updates. -/
def updateItem (st : ResourceStore σ S) (w : World σ S) (item : Resource σ) : World σ S :=
  callAndSend w (st.update w.store item) (updatedEvent item)

/-- `slice.ForEach` over the values of entries, whose body panics for a `nil` pointer. -/
def forEachItem (body : World σ S → Resource σ → World σ S) :
    List (String × Option (Resource σ)) → World σ S → Except Failure Unit × World σ S
  | [], w => (.ok (), w)
  | (_, none) :: _, w => (.error nilDereference, w)
  | (_, some item) :: entries, w => forEachItem body entries (body w item)

/-- The loops over the two maps. -/
def reconcileMaps (st : ResourceStore σ S) (walk : WalkOrder (String × Option (Resource σ)))
    (olds news : ResourceMap σ) (w : World σ S) : Except Failure Unit × World σ S :=
  match forEachItem (deleteItem st) (walk.order (minus olds news)) w with
  | (.error e, w) => (.error e, w)
  | (.ok (), w) =>
  match forEachItem (addItem st) (walk.order (minus news olds)) w with
  | (.error e, w) => (.error e, w)
  | (.ok (), w) => forEachItem (updateItem st) (walk.order (common news olds)) w

/-- The map of the resources that a query returns. -/
def oldMap (resources : List (Resource σ)) : ResourceMap σ := Keyed.ofList (resources.map entryOf)

/-- What both functions do with the snapshot's resources. -/
def reconcile (st : QueryStore σ S) (walk : WalkOrder (String × Option (Resource σ)))
    (indexes : List IndexCondition) (news : ResourceMap σ) (w : World σ S) :
    Except Failure Unit × World σ S :=
  match st.listByIndexes w.store indexes with
  | .error e => (.error e, w)
  | .ok resources => reconcileMaps st.toResourceStore walk (oldMap resources) news w

/-! ## Loops over resources -/

section Loops

variable {st : JoinStore σ S} {w : World σ S}

theorem forEachItem_map_entryOf (body : World σ S → Resource σ → World σ S)
    (items : List (Resource σ)) (w : World σ S) :
    forEachItem body (items.map entryOf) w = (.ok (), items.foldl body w) := by
  induction items generalizing w with
  | nil => rfl
  | cons item items ih => exact ih (body w item)

theorem forEachItem_nil (body : World σ S → Resource σ → World σ S)
    {entries : List (String × Option (Resource σ))} {key : String} (h : (key, none) ∈ entries)
    (w : World σ S) : ∃ w', forEachItem body entries w = (.error nilDereference, w') := by
  induction entries generalizing w with
  | nil => cases h
  | cons entry entries ih =>
    obtain ⟨k, item⟩ := entry
    cases item with
    | none => exact ⟨w, rfl⟩
    | some item =>
      rcases List.mem_cons.mp h with heq | h
      · cases heq
      · exact ih h (body w item)

/-- What calls of the store lead to: contents, and events that are sent after those before. -/
structure Leads (st : JoinStore σ S) (w : World σ S) (contents : Contents σ)
    (events : List (ResourceChangedEvent σ)) (w' : World σ S) : Prop where
  leaves : st.Leaves w.store contents w'.store
  events : w'.events = w.events ++ events

theorem Leads.refl (hvalid : st.valid w.store) : Leads st w (st.stored w.store) [] w :=
  ⟨⟨rfl, hvalid, id⟩, (List.append_nil _).symm⟩

theorem Leads.trans {w₁ w₂ : World σ S} {contents₁ contents₂ : Contents σ}
    {events₁ events₂ : List (ResourceChangedEvent σ)} (h₁ : Leads st w contents₁ events₁ w₁)
    (h₂ : Leads st w₁ contents₂ events₂ w₂) : Leads st w contents₂ (events₁ ++ events₂) w₂ := by
  refine ⟨⟨h₂.leaves.stored, h₂.leaves.valid, fun h => h₂.leaves.exact (h₁.leaves.exact h)⟩, ?_⟩
  rw [h₂.events, h₁.events, List.append_assoc]

theorem leads_callAndSend {result : Except Failure Unit × S} {contents : Contents σ}
    (hok : result.1 = .ok ()) (hleaves : st.Leaves w.store contents result.2)
    (event : ResourceChangedEvent σ) :
    Leads st w contents [event] (callAndSend w result event) := by
  obtain ⟨err, s⟩ := result
  obtain rfl : err = .ok () := hok
  exact ⟨hleaves, rfl⟩

variable {items : List (Resource σ)}

/-- A loop of calls, each of which keeps what the later ones need. -/
theorem leads_foldl {Q : Resource σ → Contents σ → Prop}
    {next : Contents σ → Resource σ → Contents σ} {event : Resource σ → ResourceChangedEvent σ}
    {call : World σ S → Resource σ → World σ S}
    (hcall : ∀ w item, st.valid w.store → Q item (st.stored w.store) →
      Leads st w (next (st.stored w.store) item) [event item] (call w item))
    (hkeeps : items.Pairwise fun item other => ∀ t, Q other t → Q other (next t item))
    (hvalid : st.valid w.store) (hok : ∀ item ∈ items, Q item (st.stored w.store)) :
    Leads st w (items.foldl next (st.stored w.store)) (items.map event) (items.foldl call w) := by
  induction items generalizing w with
  | nil => exact .refl hvalid
  | cons item items ih =>
    obtain ⟨hkeep, hkeeps⟩ := List.pairwise_cons.mp hkeeps
    have hfirst := hcall w item hvalid (hok item List.mem_cons_self)
    have hrest := ih (w := call w item) hkeeps hfirst.leaves.valid fun other hother => by
      rw [hfirst.leaves.stored]
      exact hkeep other hother _ (hok other (List.mem_cons_of_mem _ hother))
    rw [hfirst.leaves.stored] at hrest
    exact hfirst.trans hrest

/-- Deleting resources with distinct keys that are stored. -/
theorem leads_deleteItems (hvalid : st.valid w.store)
    (hitems : (items.map Resource.resourceKey).Nodup)
    (hstored : ∀ item ∈ items, item ∈ (st.stored w.store).items) :
    Leads st w (items.foldl (fun t item => t.erase item.resourceKey) (st.stored w.store))
      (items.map deletedEvent) (items.foldl (deleteItem st.toResourceStore) w) := by
  refine leads_foldl (Q := fun item t => item ∈ t.items) (fun w item hvalid hitem => ?_)
    ((List.pairwise_map.mp hitems).imp fun hne t hother => ?_) hvalid hstored
  · exact leads_callAndSend (st.delete_ok _ _ _ hvalid (Keyed.get?_key hitem))
      (st.delete_spec _ _ hvalid) _
  · exact Keyed.mem_erase.mpr ⟨hother, Ne.symm hne⟩

/-- Adding resources with distinct keys that are free. -/
theorem leads_addItems (hvalid : st.valid w.store) (hitems : (items.map Resource.resourceKey).Nodup)
    (hkind : ∀ item ∈ items, item.kind = st.kind)
    (hfree : ∀ item ∈ items, (st.stored w.store).get? item.resourceKey = none) :
    Leads st w (items.foldl Keyed.put (st.stored w.store)) (items.map addedEvent)
      (items.foldl (addItem st.toResourceStore) w) := by
  refine leads_foldl (Q := fun item t => item.kind = st.kind ∧ t.get? item.resourceKey = none)
    (fun w item hvalid hitem => ?_) ((List.pairwise_map.mp hitems).imp fun hne t hother => ?_)
    hvalid fun item hitem => ⟨hkind item hitem, hfree item hitem⟩
  · obtain ⟨hok, hleaves⟩ := st.add_spec w.store item hvalid hitem.1 hitem.2
    exact leads_callAndSend hok hleaves _
  · exact ⟨hother.1, (Keyed.get?_put_ne _ (Ne.symm hne)).trans hother.2⟩

/-- Updating resources whose keys are taken. -/
theorem leads_updateItems (hvalid : st.valid w.store) (hkind : ∀ item ∈ items, item.kind = st.kind)
    (htaken : ∀ item ∈ items, ∃ old, (st.stored w.store).get? item.resourceKey = some old) :
    Leads st w (items.foldl Keyed.put (st.stored w.store)) (items.map updatedEvent)
      (items.foldl (updateItem st.toResourceStore) w) := by
  refine leads_foldl
    (Q := fun item t => item.kind = st.kind ∧ ∃ old, t.get? item.resourceKey = some old)
    (fun w item hvalid hitem => ?_)
    (List.pairwise_of_forall fun item other t hother => ⟨hother.1, ?_⟩)
    hvalid fun item hitem => ⟨hkind item hitem, htaken item hitem⟩
  · obtain ⟨hk, old, hold⟩ := hitem
    obtain ⟨hok, hleaves⟩ := st.update_spec w.store item old hvalid hk hold
    exact leads_callAndSend hok hleaves _
  · by_cases heq : other.resourceKey = item.resourceKey
    · exact ⟨item, by rw [heq, Keyed.get?_put_self]⟩
    · rw [Keyed.get?_put_ne _ heq]
      exact hother.2

/-- Adding resources of any keys, taken or not, leaves what is stored under other keys, and sends
`Added` events only. -/
theorem addItems_frame (hvalid : st.valid w.store) (hkind : ∀ item ∈ items, item.kind = st.kind) :
    st.valid (items.foldl (addItem st.toResourceStore) w).store ∧
      (∀ key ∉ items.map Resource.resourceKey,
        (st.stored (items.foldl (addItem st.toResourceStore) w).store).get? key =
          (st.stored w.store).get? key) ∧
      ∃ sent, (items.foldl (addItem st.toResourceStore) w).events = w.events ++ sent ∧
        ∀ event ∈ sent, event.typ = .added := by
  induction items generalizing w with
  | nil => exact ⟨hvalid, fun _ _ => rfl, [], (List.append_nil _).symm, fun _ h => by cases h⟩
  | cons item items ih =>
    have hothers : ∀ other ∈ items, other.kind = st.kind := fun other hother =>
      hkind other (List.mem_cons_of_mem _ hother)
    -- One call, which adds or fails.
    obtain ⟨hvalid', hsame, sent, hsent, htyp⟩ :
        st.valid (addItem st.toResourceStore w item).store ∧
          (∀ key ≠ item.resourceKey,
            (st.stored (addItem st.toResourceStore w item).store).get? key =
              (st.stored w.store).get? key) ∧
          ∃ sent, (addItem st.toResourceStore w item).events = w.events ++ sent ∧
            ∀ event ∈ sent, event.typ = .added := by
      rcases st.addsOrFails w.store item hvalid (hkind item List.mem_cons_self) with
        ⟨hok, hleaves⟩ | ⟨e, herror⟩
      · have hfirst : Leads st w _ [addedEvent item] (addItem st.toResourceStore w item) :=
          leads_callAndSend hok hleaves _
        refine ⟨hfirst.leaves.valid, fun key hkey => ?_, _, hfirst.events, fun event hevent => ?_⟩
        · rw [hfirst.leaves.stored]
          exact Keyed.get?_put_ne _ hkey
        · rw [List.mem_singleton.mp hevent]
          rfl
      · unfold addItem
        rw [herror]
        exact ⟨hvalid, fun _ _ => rfl, [], (List.append_nil _).symm, fun _ h => by cases h⟩
    obtain ⟨hvalid'', hframe, sent', hsent', htyp'⟩ := ih hvalid' hothers
    refine ⟨hvalid'', fun key hkey => ?_, sent ++ sent', ?_, fun event hevent => ?_⟩
    · obtain ⟨hne, hkey⟩ := List.ne_and_not_mem_of_not_mem_cons hkey
      exact (hframe key hkey).trans (hsame key hne)
    · rw [List.foldl_cons, hsent', hsent, List.append_assoc]
    · rcases List.mem_append.mp hevent with hevent | hevent
      · exact htyp event hevent
      · exact htyp' event hevent

end Loops

/-! ## Maps of resources -/

/-- The map holds just these resources, by their keys. -/
structure IsMapOf (m : ResourceMap σ) (items : List (Resource σ)) : Prop where
  nodup : (items.map Resource.resourceKey).Nodup
  perm : m.items.Perm (items.map entryOf)

theorem eq_map_entryOf {entries : List (String × Option (Resource σ))}
    (h : ∀ e ∈ entries, ∃ r, e = entryOf r) :
    entries = (entries.filterMap Prod.snd).map entryOf := by
  induction entries with
  | nil => rfl
  | cons e entries ih =>
    obtain ⟨r, rfl⟩ := h e List.mem_cons_self
    have hrest := ih fun e he => h e (List.mem_cons_of_mem _ he)
    have hvalue : (entryOf r).2 = some r := rfl
    rw [List.filterMap_cons_some hvalue, List.map_cons, ← hrest]

theorem filterMap_snd_map_entryOf (items : List (Resource σ)) :
    (items.map entryOf).filterMap Prod.snd = items := by
  rw [List.filterMap_map]
  exact List.filterMap_some

/-- The map that a list of resources gives holds one resource of the list for each of its keys. -/
theorem isMapOf_ofList (rs : List (Resource σ)) :
    ∃ items, IsMapOf (Keyed.ofList (rs.map entryOf)) items ∧ (∀ r ∈ items, r ∈ rs) ∧
      ∀ r ∈ rs, r.resourceKey ∈ items.map Resource.resourceKey := by
  have hentries : ∀ e ∈ (Keyed.ofList (rs.map entryOf) : ResourceMap σ).items,
      ∃ r ∈ rs, e = entryOf r := by
    intro e he
    obtain ⟨l₁, l₂, hl, -⟩ := Keyed.mem_ofList.mp he
    have hmem : e ∈ rs.map entryOf := by
      rw [hl]
      exact List.mem_append_right _ List.mem_cons_self
    obtain ⟨r, hr, rfl⟩ := List.mem_map.mp hmem
    exact ⟨r, hr, rfl⟩
  have hmap := eq_map_entryOf fun e he => (hentries e he).imp fun r hr => hr.2
  have hkeys : ((Keyed.ofList (rs.map entryOf) : ResourceMap σ).items.filterMap Prod.snd).map
      Resource.resourceKey = (Keyed.ofList (rs.map entryOf) : ResourceMap σ).keys := by
    unfold Keyed.keys
    conv_rhs => rw [hmap, List.map_map]
    rfl
  refine ⟨_, ⟨?_, List.Perm.of_eq hmap⟩, fun r hr => ?_, fun r hr => ?_⟩
  · rw [hkeys]
    exact Keyed.nodup _
  · obtain ⟨e, he, hsnd⟩ := List.mem_filterMap.mp hr
    obtain ⟨r', hr', rfl⟩ := hentries e he
    obtain rfl : r' = r := Option.some.inj hsnd
    exact hr'
  · rw [hkeys]
    obtain ⟨e, he⟩ := Keyed.exists_get?_ofList Prod.fst (List.mem_map_of_mem (f := entryOf) hr)
    exact Keyed.mem_keys_iff.mpr ⟨e, he⟩

/-- Resources with distinct keys are all in their map. -/
theorem isMapOf_oldMap {resources : List (Resource σ)}
    (h : (resources.map Resource.resourceKey).Nodup) : IsMapOf (oldMap resources) resources := by
  refine ⟨h, ?_⟩
  have hconsistent : ∀ e ∈ resources.map entryOf, ∀ e' ∈ resources.map entryOf,
      e.1 = e'.1 → e = e' := by
    intro e he e' he' hkey
    obtain ⟨r, hr, rfl⟩ := List.mem_map.mp he
    obtain ⟨r', hr', rfl⟩ := List.mem_map.mp he'
    rw [List.inj_on_of_nodup_map h hr hr' hkey]
  have hentries : (resources.map entryOf).Nodup := by
    refine List.Nodup.of_map Prod.fst ?_
    rw [List.map_map]
    exact h
  exact (List.perm_ext_iff_of_nodup (oldMap resources).nodup.of_map hentries).mpr
    fun e => Keyed.mem_ofList_of_consistent hconsistent

/-- Resources that were found and those of a snapshot, split by their keys: those that are only
found, those that are only in the snapshot, and those of the snapshot that were found. -/
structure Split (found items offline added updated : List (Resource σ)) : Prop where
  offline : offline.Perm (found.filter fun r => r.resourceKey ∉ items.map Resource.resourceKey)
  added : added.Perm (items.filter fun r => r.resourceKey ∉ found.map Resource.resourceKey)
  updated : updated.Perm (items.filter fun r => r.resourceKey ∈ found.map Resource.resourceKey)

theorem nodup_keys_of_perm_filter {l part : List (Resource σ)} {p : Resource σ → Bool}
    (hl : (l.map Resource.resourceKey).Nodup) (hpart : part.Perm (l.filter p)) :
    (part.map Resource.resourceKey).Nodup :=
  (hpart.map _).nodup_iff.mpr (hl.sublist (List.filter_sublist.map _))

/-- The keys of a part that is selected by its keys. -/
theorem key_mem_of_perm_filter {l part : List (Resource σ)} {p : String → Prop} [DecidablePred p]
    (hpart : part.Perm (l.filter fun r => p r.resourceKey)) {key : String} :
    key ∈ part.map Resource.resourceKey ↔ key ∈ l.map Resource.resourceKey ∧ p key := by
  rw [(hpart.map _).mem_iff]
  constructor
  · intro hkey
    obtain ⟨r, hr, rfl⟩ := List.mem_map.mp hkey
    obtain ⟨hr, hp⟩ := List.mem_filter.mp hr
    exact ⟨List.mem_map_of_mem hr, of_decide_eq_true hp⟩
  · rintro ⟨hkey, hp⟩
    obtain ⟨r, hr, rfl⟩ := List.mem_map.mp hkey
    exact List.mem_map_of_mem (List.mem_filter.mpr ⟨hr, decide_eq_true hp⟩)

namespace Split

variable {found items offline added updated : List (Resource σ)}
  (h : Split found items offline added updated)
include h

theorem mem_offline {r : Resource σ} :
    r ∈ offline ↔ r ∈ found ∧ r.resourceKey ∉ items.map Resource.resourceKey := by
  rw [h.offline.mem_iff, List.mem_filter, decide_eq_true_eq]

theorem mem_added {r : Resource σ} :
    r ∈ added ↔ r ∈ items ∧ r.resourceKey ∉ found.map Resource.resourceKey := by
  rw [h.added.mem_iff, List.mem_filter, decide_eq_true_eq]

theorem mem_updated {r : Resource σ} :
    r ∈ updated ↔ r ∈ items ∧ r.resourceKey ∈ found.map Resource.resourceKey := by
  rw [h.updated.mem_iff, List.mem_filter, decide_eq_true_eq]

theorem key_mem_offline {key : String} :
    key ∈ offline.map Resource.resourceKey ↔
      key ∈ found.map Resource.resourceKey ∧ key ∉ items.map Resource.resourceKey :=
  key_mem_of_perm_filter (p := fun key => key ∉ items.map Resource.resourceKey) h.offline

theorem key_mem_added {key : String} :
    key ∈ added.map Resource.resourceKey ↔
      key ∈ items.map Resource.resourceKey ∧ key ∉ found.map Resource.resourceKey :=
  key_mem_of_perm_filter (p := fun key => key ∉ found.map Resource.resourceKey) h.added

theorem key_mem_updated {key : String} :
    key ∈ updated.map Resource.resourceKey ↔
      key ∈ items.map Resource.resourceKey ∧ key ∈ found.map Resource.resourceKey :=
  key_mem_of_perm_filter h.updated

end Split

section Maps

variable {m m' : ResourceMap σ} {found items : List (Resource σ)}

theorem IsMapOf.isSome_get?_iff (h : IsMapOf m items) (key : String) :
    (m.get? key).isSome = true ↔ key ∈ items.map Resource.resourceKey := by
  have hkeys : m.keys.Perm (items.map Resource.resourceKey) := by
    have hperm := h.perm.map Prod.fst
    rw [List.map_map] at hperm
    exact hperm
  rw [← hkeys.mem_iff, Keyed.mem_keys_iff, Option.isSome_iff_exists]

/-- The entries of a map that are selected by their keys, walked over in any order. -/
theorem IsMapOf.walk_filter (h : IsMapOf m items) (walk : WalkOrder (String × Option (Resource σ)))
    (p : String → Bool) :
    ∃ selected : List (Resource σ),
      walk.order (m.items.filter fun e => p e.1) = selected.map entryOf ∧
      selected.Perm (items.filter fun r => p r.resourceKey) := by
  have hperm : (walk.order (m.items.filter fun e => p e.1)).Perm
      ((items.filter fun r => p r.resourceKey).map entryOf) := by
    refine (walk.perm _).trans ((h.perm.filter _).trans (List.Perm.of_eq ?_))
    rw [List.filter_map]
    rfl
  refine ⟨_, eq_map_entryOf fun e he => ?_, ?_⟩
  · obtain ⟨r, -, rfl⟩ := List.mem_map.mp (hperm.mem_iff.mp he)
    exact ⟨r, rfl⟩
  · have hvalues := hperm.filterMap Prod.snd
    rwa [filterMap_snd_map_entryOf] at hvalues

/-- The loops over two maps of resources run their bodies for the parts of the split. -/
theorem reconcileMaps_eq (st : ResourceStore σ S)
    (walk : WalkOrder (String × Option (Resource σ))) (h : IsMapOf m found)
    (h' : IsMapOf m' items) (w : World σ S) :
    ∃ offline added updated, Split found items offline added updated ∧
      reconcileMaps st walk m m' w = (.ok (), updated.foldl (updateItem st)
        (added.foldl (addItem st) (offline.foldl (deleteItem st) w))) := by
  have hnone : ∀ {m : ResourceMap σ} {items : List (Resource σ)}, IsMapOf m items →
      (fun e : String × Option (Resource σ) => (m.get? e.1).isNone) =
        fun e => decide (e.1 ∉ items.map Resource.resourceKey) := by
    intro m items h
    funext e
    rw [Bool.eq_iff_iff, decide_eq_true_eq, ← h.isSome_get?_iff]
    cases m.get? e.1 with
    | none => simp
    | some x => simp
  have hsome : (fun e : String × Option (Resource σ) => (m.get? e.1).isSome) =
      fun e => decide (e.1 ∈ found.map Resource.resourceKey) := by
    funext e
    rw [Bool.eq_iff_iff, decide_eq_true_eq, ← h.isSome_get?_iff]
  obtain ⟨offline, hoffline, hofflinePerm⟩ := h.walk_filter walk
    fun key => key ∉ items.map Resource.resourceKey
  obtain ⟨added, hadded, haddedPerm⟩ := h'.walk_filter walk
    fun key => key ∉ found.map Resource.resourceKey
  obtain ⟨updated, hupdated, hupdatedPerm⟩ := h'.walk_filter walk
    fun key => key ∈ found.map Resource.resourceKey
  refine ⟨offline, added, updated, ⟨hofflinePerm, haddedPerm, hupdatedPerm⟩, ?_⟩
  unfold reconcileMaps minus common
  rw [hnone h', hoffline, forEachItem_map_entryOf]
  dsimp only
  rw [hnone h, hadded, forEachItem_map_entryOf]
  dsimp only
  rw [hsome, hupdated, forEachItem_map_entryOf]

end Maps

/-! ## The effect on the store -/

/-- The contents that the three loops leave. -/
def afterLoops (t : Contents σ) (offline added updated : List (Resource σ)) : Contents σ :=
  updated.foldl Keyed.put
    (added.foldl Keyed.put (offline.foldl (fun t r => t.erase r.resourceKey) t))

/-- The three loops leave the snapshot, and what has neither a key of it nor a key that was found.
-/
theorem Split.mem_afterLoops {found items offline added updated : List (Resource σ)}
    (h : Split found items offline added updated)
    (hitems : (items.map Resource.resourceKey).Nodup) {t : Contents σ} {r : Resource σ} :
    r ∈ (afterLoops t offline added updated).items ↔ r ∈ items ∨ r ∈ t.items ∧
      r.resourceKey ∉ found.map Resource.resourceKey ∧
      r.resourceKey ∉ items.map Resource.resourceKey := by
  unfold afterLoops
  rw [Keyed.mem_foldl_put_of_nodup (nodup_keys_of_perm_filter hitems h.updated),
    Keyed.mem_foldl_put_of_nodup (nodup_keys_of_perm_filter hitems h.added), Keyed.mem_foldl_erase,
    h.key_mem_updated, h.key_mem_added, h.key_mem_offline, h.mem_updated, h.mem_added]
  have hkey : r ∈ items → r.resourceKey ∈ items.map Resource.resourceKey :=
    fun hr => List.mem_map_of_mem hr
  tauto

section Effect

variable {st : JoinStore σ S} {w : World σ S} (walk : WalkOrder (String × Option (Resource σ)))
  {indexes : List IndexCondition} {P : Resource σ → Prop} {found items : List (Resource σ)}
  {news : ResourceMap σ}

/-- The three loops, where the keys of the resources to add are free. -/
theorem Split.leads {offline added updated : List (Resource σ)}
    (h : Split found items offline added updated) (hvalid : st.valid w.store)
    (hfound : (found.map Resource.resourceKey).Nodup)
    (hitems : (items.map Resource.resourceKey).Nodup)
    (hstored : ∀ r ∈ found, r ∈ (st.stored w.store).items)
    (hkind : ∀ r ∈ items, r.kind = st.kind)
    (hfree : ∀ r ∈ added, (st.stored w.store).get? r.resourceKey = none) :
    Leads st w (afterLoops (st.stored w.store) offline added updated)
      (offline.map deletedEvent ++ added.map addedEvent ++ updated.map updatedEvent)
      (updated.foldl (updateItem st.toResourceStore) (added.foldl (addItem st.toResourceStore)
        (offline.foldl (deleteItem st.toResourceStore) w))) := by
  have hadded := nodup_keys_of_perm_filter hitems h.added
  have hdelete := leads_deleteItems hvalid (nodup_keys_of_perm_filter hfound h.offline)
    fun r hr => hstored r (h.mem_offline.mp hr).1
  have hadd := leads_addItems hdelete.leaves.valid hadded
    (fun r hr => hkind r (h.mem_added.mp hr).1) fun r hr => by
      rw [hdelete.leaves.stored]
      refine Keyed.get?_eq_none_iff.mpr fun old hold => ?_
      exact Keyed.get?_eq_none_iff.mp (hfree r hr) old (Keyed.mem_foldl_erase.mp hold).1
  -- What is to be updated is neither deleted nor added.
  have hupdate := leads_updateItems hadd.leaves.valid
    (fun r hr => hkind r (h.mem_updated.mp hr).1) fun r hr => by
      obtain ⟨hr, hkey⟩ := h.mem_updated.mp hr
      obtain ⟨old, hold, hsame⟩ := List.mem_map.mp hkey
      refine ⟨old, Keyed.get?_eq_some_iff.mpr ⟨?_, hsame⟩⟩
      rw [hadd.leaves.stored, Keyed.mem_foldl_put_of_nodup hadded, hdelete.leaves.stored,
        Keyed.mem_foldl_erase, h.key_mem_added, h.key_mem_offline, hsame]
      have hitem : r.resourceKey ∈ items.map Resource.resourceKey := List.mem_map_of_mem hr
      exact .inr ⟨⟨hstored old hold, fun hnot => hnot.2 hitem⟩, fun hnot => hnot.2 hkey⟩
  have hall := (hdelete.trans hadd).trans hupdate
  rw [hadd.leaves.stored, hdelete.leaves.stored] at hall
  exact hall

/-- The events of the three loops: for the resources that are only found, for those that are only in
the snapshot, and for those that are in both. -/
def expectedEvents (found items : List (Resource σ)) : List (ResourceChangedEvent σ) :=
  (found.filter fun r => r.resourceKey ∉ items.map Resource.resourceKey).map deletedEvent ++
    (items.filter fun r => r.resourceKey ∉ found.map Resource.resourceKey).map addedEvent ++
    (items.filter fun r => r.resourceKey ∈ found.map Resource.resourceKey).map updatedEvent

/-- Where no key of the snapshot is held by a stored resource that was not found, the store holds
the snapshot in place of what was found, and one event was sent for each resource. -/
theorem reconcile_spec (hvalid : st.valid w.store)
    (hlist : st.listByIndexes w.store indexes = .ok found)
    (hlisting : Listing (st.stored w.store) P found) (hnews : IsMapOf news items)
    (hkind : ∀ r ∈ items, r.kind = st.kind)
    (hfree : ∀ r ∈ items, ∀ old ∈ (st.stored w.store).items, old.resourceKey = r.resourceKey →
      P old) :
    ∃ w' contents sent, reconcile st.toQueryStore walk indexes news w = (.ok (), w') ∧
      Leads st w contents sent w' ∧
      (∀ r, r ∈ contents.items ↔ r ∈ items ∨ r ∈ (st.stored w.store).items ∧ ¬ P r) ∧
      sent.Perm (expectedEvents found items) := by
  have hfound : (found.map Resource.resourceKey).Nodup := hlisting.ascending.nodup
  obtain ⟨offline, added, updated, hsplit, heq⟩ :=
    reconcileMaps_eq st.toResourceStore walk (isMapOf_oldMap hfound) hnews w
  have hleads := hsplit.leads hvalid hfound hnews.nodup
    (fun r hr => ((hlisting.mem_iff r).mp hr).1) hkind fun r hr => by
      obtain ⟨hr, hnew⟩ := hsplit.mem_added.mp hr
      refine Keyed.get?_eq_none_iff.mpr fun old hold hkey => hnew ?_
      rw [← hkey]
      exact List.mem_map_of_mem ((hlisting.mem_iff old).mpr ⟨hold, hfree r hr old hold hkey⟩)
  refine ⟨_, _, _, ?_, hleads, fun r => ?_, ?_⟩
  · unfold reconcile
    rw [hlist]
    exact heq
  · rw [hsplit.mem_afterLoops hnews.nodup]
    refine or_congr_right (and_congr_right fun hr => ?_)
    rw [hlisting.key_mem_iff hr, and_iff_left_iff_imp]
    intro hP hkey
    obtain ⟨item, hitem, hsame⟩ := List.mem_map.mp hkey
    exact hP (hfree item hitem r hr hsame.symm)
  · exact ((hsplit.offline.map _).append (hsplit.added.map _)).append (hsplit.updated.map _)

/-- Whatever keys the snapshot has, a key that was found and is not in the snapshot is gone. -/
theorem reconcile_absent (hvalid : st.valid w.store)
    (hlist : st.listByIndexes w.store indexes = .ok found)
    (hlisting : Listing (st.stored w.store) P found) (hnews : IsMapOf news items)
    (hkind : ∀ r ∈ items, r.kind = st.kind) {key : String}
    (hkey : key ∈ found.map Resource.resourceKey) (hnew : key ∉ items.map Resource.resourceKey) :
    (st.stored (reconcile st.toQueryStore walk indexes news w).2.store).get? key = none := by
  have hfound : (found.map Resource.resourceKey).Nodup := hlisting.ascending.nodup
  obtain ⟨offline, added, updated, hsplit, heq⟩ :=
    reconcileMaps_eq st.toResourceStore walk (isMapOf_oldMap hfound) hnews w
  have hdelete := leads_deleteItems hvalid (nodup_keys_of_perm_filter hfound hsplit.offline)
    fun r hr => ((hlisting.mem_iff r).mp (hsplit.mem_offline.mp hr).1).1
  have haddedKind : ∀ r ∈ added, r.kind = st.kind :=
    fun r hr => hkind r (hsplit.mem_added.mp hr).1
  obtain ⟨hvalid', hframe, -⟩ := addItems_frame hdelete.leaves.valid haddedKind
  -- What is to be updated was found, and neither of the first loops has touched it.
  have hupdate := leads_updateItems hvalid' (fun r hr => hkind r (hsplit.mem_updated.mp hr).1)
    fun r hr => by
      obtain ⟨hr, hkey⟩ := hsplit.mem_updated.mp hr
      obtain ⟨old, hold, hsame⟩ := List.mem_map.mp hkey
      have hitem : r.resourceKey ∈ items.map Resource.resourceKey := List.mem_map_of_mem hr
      rw [hframe _ fun hadded => (hsplit.key_mem_added.mp hadded).2 hkey, hdelete.leaves.stored]
      refine ⟨old, Keyed.get?_eq_some_iff.mpr ⟨Keyed.mem_foldl_erase.mpr ⟨?_, ?_⟩, hsame⟩⟩
      · exact ((hlisting.mem_iff old).mp hold).1
      · rw [hsame]
        exact fun hoffline => (hsplit.key_mem_offline.mp hoffline).2 hitem
  have hresult : (reconcile st.toQueryStore walk indexes news w).2 =
      updated.foldl (updateItem st.toResourceStore) (added.foldl (addItem st.toResourceStore)
        (offline.foldl (deleteItem st.toResourceStore) w)) := by
    unfold reconcile
    rw [hlist]
    exact congrArg Prod.snd heq
  rw [hresult, hupdate.leaves.stored]
  refine Keyed.get?_eq_none_iff.mpr fun r hr hsame => ?_
  rw [Keyed.mem_foldl_put_of_nodup (nodup_keys_of_perm_filter hnews.nodup hsplit.updated)] at hr
  rcases hr with hr | ⟨hr, -⟩
  · exact hnew (hsame ▸ List.mem_map_of_mem (hsplit.mem_updated.mp hr).1)
  · have hget := hframe key fun hadded => hnew (hsplit.key_mem_added.mp hadded).1
    rw [hdelete.leaves.stored, ← hsame, Keyed.get?_key hr] at hget
    have hleft := (Keyed.get?_eq_some_iff.mp hget.symm).1
    refine (Keyed.mem_foldl_erase.mp hleft).2 ?_
    rw [hsame]
    exact hsplit.key_mem_offline.mpr ⟨hkey, hnew⟩

/-- Where nothing was found, only `Added` events are sent. -/
theorem reconcile_found_nothing (hvalid : st.valid w.store)
    (hlist : st.listByIndexes w.store indexes = .ok []) (hnews : IsMapOf news items)
    (hkind : ∀ r ∈ items, r.kind = st.kind) :
    ∃ sent, (reconcile st.toQueryStore walk indexes news w).2.events = w.events ++ sent ∧
      ∀ event ∈ sent, event.typ = .added := by
  have hold : IsMapOf (oldMap ([] : List (Resource σ))) [] := isMapOf_oldMap List.nodup_nil
  obtain ⟨offline, added, updated, hsplit, heq⟩ :=
    reconcileMaps_eq st.toResourceStore walk hold hnews w
  have hoffline : offline = [] := List.eq_nil_iff_forall_not_mem.mpr fun r hr =>
    List.not_mem_nil (hsplit.mem_offline.mp hr).1
  have hupdated : updated = [] := List.eq_nil_iff_forall_not_mem.mpr fun r hr =>
    List.not_mem_nil (hsplit.mem_updated.mp hr).2
  have hresult : (reconcile st.toQueryStore walk indexes news w).2 =
      added.foldl (addItem st.toResourceStore) w := by
    unfold reconcile
    rw [hlist]
    have hsnd := congrArg Prod.snd heq
    rw [hoffline, hupdated] at hsnd
    exact hsnd
  rw [hresult]
  exact (addItems_frame hvalid fun r hr => hkind r (hsplit.mem_added.mp hr).1).2.2

/-- A `nil` pointer under a key that was not found panics. -/
theorem reconcile_nil (hlist : st.listByIndexes w.store indexes = .ok found) {key : String}
    (hnil : (key, none) ∈ news.items) (hkey : ∀ r ∈ found, r.resourceKey ≠ key) :
    ∃ w', reconcile st.toQueryStore walk indexes news w = (.error nilDereference, w') := by
  obtain ⟨olds, hmap, hsub, -⟩ := isMapOf_ofList found
  obtain ⟨offline, hoffline, -⟩ := hmap.walk_filter walk fun key => (news.get? key).isNone
  have habsent : (oldMap found).get? key = none := by
    rw [← Option.not_isSome_iff_eq_none]
    intro hsome
    obtain ⟨r, hr, hsame⟩ := List.mem_map.mp ((hmap.isSome_get?_iff key).mp hsome)
    exact hkey r (hsub r hr) hsame
  have hmem : (key, none) ∈ walk.order (minus news (oldMap found)) := by
    refine (walk.perm _).mem_iff.mpr (List.mem_filter.mpr ⟨hnil, ?_⟩)
    rw [habsent]
    rfl
  obtain ⟨w', hpanic⟩ := forEachItem_nil (addItem st.toResourceStore) hmem
    (offline.foldl (deleteItem st.toResourceStore) w)
  refine ⟨w', ?_⟩
  have hdelete : forEachItem (deleteItem st.toResourceStore)
      (walk.order (minus (oldMap found) news)) w =
        (.ok (), offline.foldl (deleteItem st.toResourceStore) w) := by
    rw [← forEachItem_map_entryOf, ← hoffline]
    rfl
  unfold reconcile reconcileMaps
  rw [hlist]
  dsimp only
  rw [hdelete]
  dsimp only
  rw [hpanic]

end Effect

end DubboAdmin.Nacos
