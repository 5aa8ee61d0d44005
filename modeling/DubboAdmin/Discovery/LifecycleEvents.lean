import DubboAdmin.Lib.Decimal
import DubboAdmin.Controller.Informer
import DubboAdmin.Instances.Resource

/-!
# Lifecycle events and the order of their keys

`RecordRegistryEvent` of `pkg/core/discovery/subscriber/registry_event_adapter.go` writes what
happens in a registry to the store of lifecycle events, and `LifecycleEventSubscriber` of
`lifecycle_event.go` what happens to pods. Both start the name of an event with a number from its
time, as the pages of the store are in the order of the keys, which is that of their bytes. The
subscriber takes the distance to the greatest 64-bit integer, in 19 digits, so that later events
come first. `RecordRegistryEvent` takes the time itself, so that they come last (`registry_first`).
-/

namespace DubboAdmin.Discovery

open Controller Decimal Instances Strings

/-! ## Events -/

/-- `EventSource` of a lifecycle event. -/
inductive EventSource where
  | registry
  | kubernetes
  | other (text : String)
deriving DecidableEq, Repr

/-- The source as it is written. -/
def EventSource.text : EventSource → String
  | .registry => "REGISTRY"
  | .kubernetes => "KUBERNETES"
  | .other text => text

/-- `LifecycleEvent`, with the fields that are written or read here. -/
structure LifecycleEvent where
  reason : String := ""
  message : String := ""
  type : String := ""
  involvedObjKind : String := ""
  involvedObjName : String := ""
  sourceComponent : String := ""
  sourceHost : String := ""
  firstTimestamp : String := ""
  lastTimestamp : String := ""
  eventSource : EventSource := .other ""
deriving DecidableEq, Repr

/-- A stored event. -/
abbrev LifecycleEventResource := Resource (Option LifecycleEvent)

def lifecycleEventKind : String := "LifecycleEvent"

def newLifecycleEventResourceWithAttributes (name mesh : String) : LifecycleEventResource :=
  ⟨lifecycleEventKind, mesh, name, some {}⟩

/-- A store of lifecycle events. -/
structure LifecycleEventStore (S : Type) extends LawfulStore (Option LifecycleEvent) S where
  kind_eq : kind = lifecycleEventKind
  addsOrFails : toLawfulStore.AddsOrFails

/-- The index functions of `pkg/core/store/index/lifecycle_event.go`: the value of a field, where it
is not empty. -/
def byLifecycleEventField (field : LifecycleEvent → String) : IndexFunc (Option LifecycleEvent) :=
  fun r => some ((r.spec.map field).toList.filter (· ≠ ""))

/-- The index functions of lifecycle events. -/
def lifecycleEventIndexers : Indexers (Option LifecycleEvent) :=
  ((((AList.singleton byMeshIndex byMesh).insert "idx_lifecycle_event_involved_obj_kind"
    (byLifecycleEventField (·.involvedObjKind))).insert "idx_lifecycle_event_involved_obj_name"
    (byLifecycleEventField (·.involvedObjName))).insert "idx_lifecycle_event_type"
    (byLifecycleEventField (·.type))).insert "idx_lifecycle_event_source"
    (byLifecycleEventField (·.eventSource.text))

/-- The memory store of lifecycle events. -/
def memoryLifecycleEventStore :
    LifecycleEventStore (Memory.ResourceStore (Option LifecycleEvent)) where
  toLawfulStore := memoryStore lifecycleEventKind lifecycleEventIndexers fun _ _ => rfl
  kind_eq := rfl
  addsOrFails := memoryStore_addsOrFails lifecycleEventKind lifecycleEventIndexers fun _ _ => rfl

/-- Times as nanoseconds since 1970 and in `TimeFormatStr`. -/
structure TimeLayout where
  format : Int64 → String
  /-- `time.Parse` and `UnixNano`; `none` where the text is no time. -/
  parse : String → Option Int64

/-! ## Events of the registries -/

/-- What happened in a registry. -/
structure RegistryEventInput where
  mesh : String := ""
  sourceType : String := ""
  category : String := ""
  action : String := ""
  message : String := ""
  type : String := ""
  appName : String := ""
  instanceName : String := ""
  instanceIP : String := ""
  serviceName : String := ""

/-- The characters that `registryEventNameSanitizer` keeps. -/
def isNameChar (c : Char) : Bool := c.isAlphanum || c = '.' || c = '_' || c = '-'

/-- `registryEventNameSanitizer.ReplaceAllString(_, "-")`: each longest run of other characters
becomes one `-`. The flag says that the last character was one of them. -/
def replaceRuns : Bool → List Char → List Char
  | _, [] => []
  | inRun, c :: cs =>
    if isNameChar c then c :: replaceRuns false cs
    else if inRun then replaceRuns true cs
    else '-' :: replaceRuns true cs

/-- `strings.Trim(_, "-")`. -/
def trimDashes (l : List Char) : List Char :=
  ((l.dropWhile (· = '-')).reverse.dropWhile (· = '-')).reverse

namespace RegistryEventInput

variable (input : RegistryEventInput)

def involvedObjName : String :=
  if input.instanceIP ≠ "" then input.appName ++ "/" ++ input.instanceIP
  else if input.serviceName ≠ "" then input.appName ++ "/" ++ input.serviceName
  else input.appName

def nameSeed : String :=
  "-".intercalate [input.sourceType, input.category, input.action, input.appName,
    input.serviceName, input.instanceName, input.instanceIP]

def sanitized : String :=
  let sanitized := String.ofList (trimDashes (replaceRuns false input.nameSeed.toList))
  if sanitized = "" then "event" else sanitized

/-- `eventType`. The letters of `warning` have no other case than the one in ASCII. -/
def eventType : String :=
  if input.type.toList.map Char.toLower = "warning".toList then "warning" else "normal"

/-- The event that `RecordRegistryEvent` writes at a time. -/
def event (layout : TimeLayout) (now : Int64) : LifecycleEventResource :=
  { newLifecycleEventResourceWithAttributes (toString now.toInt ++ "-" ++ input.sanitized)
      input.mesh with
    spec := some
      { involvedObjKind := input.category
        involvedObjName := input.involvedObjName
        reason := input.action
        message := input.message
        type := input.eventType
        sourceComponent := input.sourceType
        sourceHost := input.instanceIP
        eventSource := .registry
        lastTimestamp := layout.format now
        firstTimestamp := layout.format now } }

end RegistryEventInput

section Writers

variable {S : Type}

/-- `RecordRegistryEvent`. A failed `Add` is logged. -/
def recordRegistryEvent (layout : TimeLayout) (eventStore : LifecycleEventStore S) (now : Int64)
    (s : S) (input : RegistryEventInput) : S :=
  if input.mesh = "" ∨ input.message = "" then s
  else (eventStore.add s (input.event layout now)).2

/-! ## Events of pods -/

/-- `LifecycleEventSubscriber`, with the stores that its router finds. -/
structure LifecycleEventSubscriber (S R : Type) where
  eventStore : LifecycleEventStore S
  rtStore : RuntimeInstanceStore R
  /-- Whether `DubboAppIdentifier` is configured. -/
  identified : Bool

/-- `timestampNano` of `prefixTimestampKey`: when the event happened last, or now. -/
def timestampNano (layout : TimeLayout) (now : Int64) (spec : LifecycleEvent) : Int64 :=
  let timestampNano :=
    if spec.lastTimestamp ≠ "" then (layout.parse spec.lastTimestamp).getD 0 else 0
  if timestampNano = 0 then now else timestampNano

def prefixTimestampKey (layout : TimeLayout) (now : Int64) (eventRes : LifecycleEventResource)
    (spec : LifecycleEvent) : LifecycleEventResource :=
  let sortablePrefix :=
    sprintfPadded 19 (Int64.maxValue - timestampNano layout now spec).toInt
  { eventRes with name := sortablePrefix ++ "-" ++ eventRes.name }

namespace LifecycleEventSubscriber

variable {R : Type} (k : LifecycleEventSubscriber S R) (layout : TimeLayout) (now : Int64)

/-- `writeEvent`. The entry of the informer under the old name is deleted if the name was one. -/
def writeEvent (s : S) (eventRes : LifecycleEventResource) (spec : LifecycleEvent) :
    Except Failure Unit × S :=
  let prefixed := spec.eventSource = .kubernetes
  let oldName := if prefixed then eventRes.name else ""
  let eventRes := if prefixed then prefixTimestampKey layout now eventRes spec else eventRes
  match k.eventStore.add s eventRes with
  | (.error e, s) => (.error e, s)
  | (.ok (), s) =>
    if oldName ≠ "" then
      (.ok (), (k.eventStore.delete s
        (newLifecycleEventResourceWithAttributes oldName eventRes.mesh)).2)
    else (.ok (), s)

/-- The mesh that `alignMeshFromRuntimeInstance` finds, if it is another than the event's. -/
def resolvedMesh (rt : R) (mesh : String) (spec : LifecycleEvent) : Option String :=
  match k.rtStore.listByIndexes rt
      [⟨byRuntimeInstanceNameIndex, spec.involvedObjName, .equals⟩] with
  | .error _ => none
  | .ok rtResources =>
    (rtResources.find? fun rtRes => rtRes.mesh ≠ "" ∧ rtRes.mesh ≠ mesh).map fun rtRes => rtRes.mesh

/-- `alignMeshFromRuntimeInstance`: the event in its mesh, without the entry in the old one. -/
def alignMeshFromRuntimeInstance (rt : R) (s : S) (eventRes : LifecycleEventResource)
    (spec : LifecycleEvent) : LifecycleEventResource × S :=
  match k.resolvedMesh rt eventRes.mesh spec with
  | none => (eventRes, s)
  | some mesh => ({ eventRes with mesh := mesh }, (k.eventStore.delete s eventRes).2)

def processUpsert (rt : R) (s : S) (event : ResourceChangedEvent (Option LifecycleEvent)) :
    Except Failure Unit × S :=
  match event.newObj with
  | none => (.ok (), s)
  | some newObj =>
    match newObj.spec with
    | none => (.ok (), s)
    | some spec =>
      if spec.eventSource = .registry then k.writeEvent layout now s newObj spec
      else if k.identified = false ∨ spec.involvedObjKind ≠ "Pod" then (.ok (), s)
      else
        let (aligned, s) := k.alignMeshFromRuntimeInstance rt s newObj spec
        k.writeEvent layout now s aligned spec

/-- `processDelete`. A failed `Delete` is logged. -/
def processDelete (s : S) (event : ResourceChangedEvent (Option LifecycleEvent)) :
    Except Failure Unit × S :=
  match event.oldObj with
  | none => (.ok (), s)
  | some oldObj => (.ok (), (k.eventStore.delete s oldObj).2)

def processEvent (rt : R) (s : S) (event : ResourceChangedEvent (Option LifecycleEvent)) :
    Except Failure Unit × S :=
  if event.typ = .deleted then k.processDelete s event else k.processUpsert layout now rt s event

end LifecycleEventSubscriber

end Writers

/-! ## Keys -/

/-- Who writes an event. -/
inductive Writer where
  | registry
  /-- `writeEvent`, for an event of a pod. -/
  | kubernetes
deriving DecidableEq, Repr

/-- What makes up the key of an event: its writer, its time in nanoseconds, and its own name. -/
structure Stamp where
  writer : Writer
  nanos : Int64
  name : String

/-- An event is written with this stamp. -/
inductive Writes (layout : TimeLayout) : Stamp → LifecycleEventResource → Prop
  /-- By `RecordRegistryEvent`, which takes events with a mesh and a message. -/
  | registry (input : RegistryEventInput) (now : Int64) (hmesh : input.mesh ≠ "")
      (hmessage : input.message ≠ "") :
      Writes layout ⟨.registry, now, input.sanitized⟩ (input.event layout now)
  /-- By `writeEvent`. -/
  | kubernetes (eventRes : LifecycleEventResource) (spec : LifecycleEvent) (now : Int64)
      (hspec : eventRes.spec = some spec) (hsource : spec.eventSource = .kubernetes) :
      Writes layout ⟨.kubernetes, timestampNano layout now spec, eventRes.name⟩
        (prefixTimestampKey layout now eventRes spec)

/-- The greatest 64-bit integer. -/
def maxInt64 : ℕ := 2 ^ 63 - 1

/-- Whether the later of two events comes first. The time of the registry event is compared with as
many leading digits of the other number as it has. -/
def LaterFirst (earlier later : Stamp) : Prop :=
  let t₁ := earlier.nanos.toNatClampNeg
  let t₂ := later.nanos.toNatClampNeg
  match earlier.writer, later.writer with
  | .kubernetes, .kubernetes => True
  | .registry, .registry => t₂ / 10 ^ (digitCount t₂ - digitCount t₁) < t₁
  | .registry, .kubernetes =>
    if digitCount t₁ < 19 then (maxInt64 - t₂) / 10 ^ (19 - digitCount t₁) < t₁
    else maxInt64 < t₁ + t₂ ∨ maxInt64 = t₁ + t₂ ∧ later.name < earlier.name
  | .kubernetes, .registry =>
    if digitCount t₂ < 19 then t₂ ≤ (maxInt64 - t₁) / 10 ^ (19 - digitCount t₂)
    else t₁ + t₂ < maxInt64 ∨ t₁ + t₂ = maxInt64 ∧ later.name < earlier.name

/-- The number that the name starts with. -/
def Stamp.number (stamp : Stamp) : ℕ :=
  match stamp.writer with
  | .registry => stamp.nanos.toNatClampNeg
  | .kubernetes => maxInt64 - stamp.nanos.toNatClampNeg

/-- How many digits the number is written with. -/
def Stamp.width (stamp : Stamp) : ℕ :=
  match stamp.writer with
  | .registry => digitCount stamp.nanos.toNatClampNeg
  | .kubernetes => 19

section Order

variable {layout : TimeLayout} {stamp earlier later : Stamp} {e e₁ e₂ : LifecycleEventResource}

theorem toInt_of_pos {t : Int64} (ht : 0 < t) : t.toInt = t.toNatClampNeg := by
  have hpos : 0 < t.toInt := Int64.lt_iff_toInt_lt.mp ht
  show t.toInt = (t.toInt.toNat : ℤ)
  rw [Int.toNat_of_nonneg hpos.le]

theorem toNatClampNeg_le (t : Int64) : t.toNatClampNeg ≤ maxInt64 := by
  have hlt := t.toInt_lt
  show t.toInt.toNat ≤ _
  unfold maxInt64
  omega

theorem toInt_distance {t : Int64} (ht : 0 < t) :
    (Int64.maxValue - t).toInt = (maxInt64 - t.toNatClampNeg : ℕ) := by
  have hle := toNatClampNeg_le t
  have hmax : Int64.maxValue.toInt = maxInt64 := rfl
  rw [Int64.toInt_sub, hmax, toInt_of_pos ht, ← Nat.cast_sub hle]
  unfold maxInt64 at hle ⊢
  exact Int.bmod_eq_of_le (by omega) (by omega)

theorem maxInt64_lt : maxInt64 < 10 ^ 19 := by decide

theorem digitCount_nanos_le (t : Int64) : digitCount t.toNatClampNeg ≤ 19 :=
  (digitCount_le_iff (by decide)).mpr ((toNatClampNeg_le t).trans_lt maxInt64_lt)

theorem name_event (input : RegistryEventInput) (layout : TimeLayout) (now : Int64) :
    (input.event layout now).name = toString now.toInt ++ "-" ++ input.sanitized := by
  unfold RegistryEventInput.event newLifecycleEventResourceWithAttributes
  dsimp only

theorem mesh_event (input : RegistryEventInput) (layout : TimeLayout) (now : Int64) :
    (input.event layout now).mesh = input.mesh := by
  unfold RegistryEventInput.event newLifecycleEventResourceWithAttributes
  dsimp only

theorem name_prefixTimestampKey (layout : TimeLayout) (now : Int64)
    (eventRes : LifecycleEventResource) (spec : LifecycleEvent) :
    (prefixTimestampKey layout now eventRes spec).name =
      sprintfPadded 19 (Int64.maxValue - timestampNano layout now spec).toInt ++ "-" ++
        eventRes.name := by
  unfold prefixTimestampKey
  dsimp only

theorem mesh_prefixTimestampKey (layout : TimeLayout) (now : Int64)
    (eventRes : LifecycleEventResource) (spec : LifecycleEvent) :
    (prefixTimestampKey layout now eventRes spec).mesh = eventRes.mesh ∧
      (prefixTimestampKey layout now eventRes spec).kind = eventRes.kind := by
  unfold prefixTimestampKey
  exact ⟨rfl, rfl⟩

theorem toList_resourceKey_of_name {digits name : String} (h : e.name = digits ++ "-" ++ name) :
    e.resourceKey.toList =
      e.mesh.toList ++ '/' :: (digits.toList ++ '-' :: name.toList) := by
  have hkey : e.resourceKey.toList = e.mesh.toList ++ '/' :: e.name.toList := toList_join _ _ '/'
  have hname : e.name.toList = digits.toList ++ '-' :: name.toList := by
    rw [h]
    exact toList_join _ _ '-'
  rw [hkey, hname]

/-- The key of an event: its mesh, the number, and its own name. -/
theorem Writes.toList_resourceKey (h : Writes layout stamp e) (hpos : 0 < stamp.nanos) :
    e.resourceKey.toList = e.mesh.toList ++ '/' ::
      (fixed stamp.width stamp.number ++ '-' :: stamp.name.toList) := by
  cases h with
  | registry input now hmesh hmessage =>
    have hdigits : (toString now.toInt).toList =
        fixed (digitCount now.toNatClampNeg) now.toNatClampNeg := by
      have hnow : now.toInt = now.toNatClampNeg := toInt_of_pos hpos
      rw [hnow, ← toDigits_eq_fixed]
      exact Nat.toList_repr
    rw [toList_resourceKey_of_name (name_event input layout now), hdigits]
    dsimp only [Stamp.width, Stamp.number]
  | kubernetes eventRes spec now hspec hsource =>
    have hdigits :
        (sprintfPadded 19 (Int64.maxValue - timestampNano layout now spec).toInt).toList =
          fixed 19 (maxInt64 - (timestampNano layout now spec).toNatClampNeg) := by
      have hdistance := toInt_distance hpos
      rw [hdistance, ← padded_eq_fixed (by decide) ((Nat.sub_le _ _).trans_lt maxInt64_lt)]
      exact String.toList_ofList
    rw [toList_resourceKey_of_name (name_prefixTimestampKey layout now eventRes spec), hdigits]
    dsimp only [Stamp.width, Stamp.number]

theorem resourceKey_lt_iff (h₁ : Writes layout earlier e₁) (h₂ : Writes layout later e₂)
    (hmesh : e₁.mesh = e₂.mesh) (hpos₁ : 0 < earlier.nanos) (hpos₂ : 0 < later.nanos) :
    e₂.resourceKey < e₁.resourceKey ↔
      fixed later.width later.number ++ '-' :: later.name.toList <
        fixed earlier.width earlier.number ++ '-' :: earlier.name.toList := by
  rw [String.lt_iff_toList_lt, h₁.toList_resourceKey hpos₁, h₂.toList_resourceKey hpos₂, hmesh,
    append_lt_append_left_iff, List.cons_lt_cons_iff]
  exact ⟨fun h => h.elim (fun hlt => absurd hlt (lt_irrefl _)) And.right, fun h => .inr ⟨rfl, h⟩⟩

theorem registry_lt_iff {t₁ t₂ : ℕ} (hlt : t₁ < t₂) (xs ys : List Char) :
    fixed (digitCount t₂) t₂ ++ '-' :: ys < fixed (digitCount t₁) t₁ ++ '-' :: xs ↔
      t₂ / 10 ^ (digitCount t₂ - digitCount t₁) < t₁ := by
  have h₁ := lt_pow_digitCount t₁
  have h₂ := lt_pow_digitCount t₂
  rcases (digitCount_mono hlt.le).eq_or_lt with heq | hcount
  · rw [heq] at h₁
    rw [heq, Nat.sub_self, Nat.pow_zero, Nat.div_one, fixed_append_lt_iff h₂ h₁]
    omega
  · exact longer_append_lt_fixed_iff (by decide) hcount h₁ h₂ xs _

/-- An event of a pod before one of a registry. -/
theorem distance_lt_iff {t₁ t₂ : ℕ} (hle : t₂ ≤ maxInt64) (hcount : digitCount t₁ ≤ 19)
    (name₁ name₂ : String) :
    fixed 19 (maxInt64 - t₂) ++ '-' :: name₂.toList <
        fixed (digitCount t₁) t₁ ++ '-' :: name₁.toList ↔
      if digitCount t₁ < 19 then (maxInt64 - t₂) / 10 ^ (19 - digitCount t₁) < t₁
      else maxInt64 < t₁ + t₂ ∨ maxInt64 = t₁ + t₂ ∧ name₂ < name₁ := by
  have h₁ := lt_pow_digitCount t₁
  have h₂ : maxInt64 - t₂ < 10 ^ 19 := (Nat.sub_le _ t₂).trans_lt maxInt64_lt
  split_ifs with hlt
  · exact longer_append_lt_fixed_iff (by decide) hlt h₁ h₂ _ _
  · have heq : digitCount t₁ = 19 := by omega
    rw [heq] at h₁
    have hbelow : maxInt64 - t₂ < t₁ ↔ maxInt64 < t₁ + t₂ := by omega
    have hsame : maxInt64 - t₂ = t₁ ↔ maxInt64 = t₁ + t₂ := by omega
    rw [heq, fixed_append_lt_iff h₂ h₁, List.cons_lt_cons_iff, String.lt_iff_toList_lt, hbelow,
      hsame]
    simp only [lt_irrefl, false_or, true_and]

/-- An event of a registry before one of a pod. -/
theorem lt_distance_iff {t₁ t₂ : ℕ} (hle : t₁ ≤ maxInt64) (hcount : digitCount t₂ ≤ 19)
    (name₁ name₂ : String) :
    fixed (digitCount t₂) t₂ ++ '-' :: name₂.toList <
        fixed 19 (maxInt64 - t₁) ++ '-' :: name₁.toList ↔
      if digitCount t₂ < 19 then t₂ ≤ (maxInt64 - t₁) / 10 ^ (19 - digitCount t₂)
      else t₁ + t₂ < maxInt64 ∨ t₁ + t₂ = maxInt64 ∧ name₂ < name₁ := by
  have h₁ : maxInt64 - t₁ < 10 ^ 19 := (Nat.sub_le _ t₁).trans_lt maxInt64_lt
  have h₂ := lt_pow_digitCount t₂
  split_ifs with hlt
  · exact fixed_append_lt_longer_iff (by decide) hlt h₂ h₁ _ _
  · have heq : digitCount t₂ = 19 := by omega
    rw [heq] at h₂
    have hbelow : t₂ < maxInt64 - t₁ ↔ t₁ + t₂ < maxInt64 := by omega
    have hsame : t₂ = maxInt64 - t₁ ↔ t₁ + t₂ = maxInt64 := by omega
    rw [heq, fixed_append_lt_iff h₂ h₁, List.cons_lt_cons_iff, String.lt_iff_toList_lt, hbelow,
      hsame]
    simp only [lt_irrefl, false_or, true_and]

theorem toNatClampNeg_lt {t₁ t₂ : Int64} (hpos : 0 < t₁) (hlt : t₁ < t₂) :
    0 < t₂ ∧ t₁.toNatClampNeg < t₂.toNatClampNeg := by
  have hpos₂ : 0 < t₂ := by
    rw [Int64.lt_iff_toInt_lt] at hpos hlt ⊢
    exact hpos.trans hlt
  have hint := Int64.lt_iff_toInt_lt.mp hlt
  rw [toInt_of_pos hpos, toInt_of_pos hpos₂] at hint
  exact ⟨hpos₂, by exact_mod_cast hint⟩

/-- How the numbers and names of two events are ordered, by who writes them. -/
theorem fixed_lt_iff_laterFirst (hpos : 0 < earlier.nanos) (hlt : earlier.nanos < later.nanos) :
    fixed later.width later.number ++ '-' :: later.name.toList <
        fixed earlier.width earlier.number ++ '-' :: earlier.name.toList ↔
      LaterFirst earlier later := by
  have hnanos := (toNatClampNeg_lt hpos hlt).2
  have hle := toNatClampNeg_le later.nanos
  unfold LaterFirst Stamp.width Stamp.number
  cases earlier.writer with
  | registry =>
    cases later.writer with
    | registry => exact registry_lt_iff hnanos _ _
    | kubernetes => exact distance_lt_iff hle (digitCount_nanos_le _) _ _
  | kubernetes =>
    cases later.writer with
    | registry => exact lt_distance_iff (hnanos.le.trans hle) (digitCount_nanos_le _) _ _
    | kubernetes =>
      have hdistance : ∀ t, maxInt64 - t < 10 ^ 19 := fun t =>
        (Nat.sub_le _ t).trans_lt maxInt64_lt
      rw [fixed_append_lt_iff (hdistance _) (hdistance _)]
      exact iff_true_intro (.inl (by omega))

/-- Of two events of one mesh, with positive times, the key of the later one comes first if and only
if both are events of pods or the digits of the registry events say so. -/
theorem later_first_iff (layout : TimeLayout) {earlier later : Stamp}
    {e₁ e₂ : LifecycleEventResource} (h₁ : Writes layout earlier e₁) (h₂ : Writes layout later e₂)
    (hmesh : e₁.mesh = e₂.mesh) (hpos : 0 < earlier.nanos) (hlt : earlier.nanos < later.nanos) :
    e₂.resourceKey < e₁.resourceKey ↔ LaterFirst earlier later := by
  rw [resourceKey_lt_iff h₁ h₂ hmesh hpos (toNatClampNeg_lt hpos hlt).1]
  exact fixed_lt_iff_laterFirst hpos hlt

end Order

theorem digitCount_eq_nineteen {t : ℕ} (hge : 10 ^ 18 ≤ t) (hlt : t < 10 ^ 19) :
    digitCount t = 19 := by
  have hle : digitCount t ≤ 19 := (digitCount_le_iff (by decide)).mpr hlt
  have hgt : ¬ digitCount t ≤ 18 := by
    rw [digitCount_le_iff (by decide)]
    omega
  omega

/-- A layout for no times. -/
def sampleLayout : TimeLayout := ⟨fun _ => "", fun _ => none⟩

/-- The event of a pod. -/
def sampleSpec : LifecycleEvent := { involvedObjKind := "Pod", eventSource := .kubernetes }

/-- The event of a pod, as the informer stores it. -/
def samplePodEvent : LifecycleEventResource :=
  ⟨lifecycleEventKind, "blue", "default/web-0", some sampleSpec⟩

/-- An instance is registered. -/
def sampleInput : RegistryEventInput :=
  { mesh := "blue", sourceType := "nacos", category := "registry", action := "registered",
    message := "registered", appName := "shop" }

/-- In November 2023. -/
def sampleTime : Int64 := 1700000000000000000

/-- A nanosecond later. -/
def sampleLater : Int64 := 1700000000000000001

/-- The stamp of the event of the pod, seen at a time. -/
def samplePodStamp (now : Int64) : Stamp := ⟨.kubernetes, now, samplePodEvent.name⟩

/-- The stamp of the event of the registry. -/
def sampleStamp (now : Int64) : Stamp := ⟨.registry, now, sampleInput.sanitized⟩

theorem writes_samplePodEvent {now : Int64}
    (hnow : timestampNano sampleLayout now sampleSpec = now) :
    Writes sampleLayout (samplePodStamp now)
      (prefixTimestampKey sampleLayout now samplePodEvent sampleSpec) := by
  have h : Writes sampleLayout ⟨.kubernetes, timestampNano sampleLayout now sampleSpec, _⟩ _ :=
    .kubernetes samplePodEvent sampleSpec now rfl rfl
  rw [hnow] at h
  exact h

/-- The later event of a pod comes first. -/
theorem pod_events_descend :
    (prefixTimestampKey sampleLayout sampleLater samplePodEvent sampleSpec).resourceKey <
      (prefixTimestampKey sampleLayout sampleTime samplePodEvent sampleSpec).resourceKey := by
  have hearlier : Writes sampleLayout (samplePodStamp sampleTime) _ :=
    writes_samplePodEvent (by decide +kernel)
  have hlater : Writes sampleLayout (samplePodStamp sampleLater) _ :=
    writes_samplePodEvent (by decide +kernel)
  exact (later_first_iff sampleLayout hearlier hlater
    ((mesh_prefixTimestampKey ..).1.trans (mesh_prefixTimestampKey ..).1.symm) (by decide)
    (by decide)).mpr trivial

/-- The later of two registry events comes last, and so does an event of a pod that comes after a
registry event. -/
theorem registry_first :
    ¬ (sampleInput.event sampleLayout sampleLater).resourceKey <
        (sampleInput.event sampleLayout sampleTime).resourceKey ∧
      ¬ (prefixTimestampKey sampleLayout sampleLater samplePodEvent sampleSpec).resourceKey <
        (sampleInput.event sampleLayout sampleTime).resourceKey := by
  have hregistry : ∀ now, Writes sampleLayout (sampleStamp now)
      (sampleInput.event sampleLayout now) :=
    fun now => .registry sampleInput now (by decide) (by decide)
  have hpod : Writes sampleLayout (samplePodStamp sampleLater) _ :=
    writes_samplePodEvent (by decide +kernel)
  have hpos : 0 < (sampleStamp sampleTime).nanos := by decide
  have hlt : (sampleStamp sampleTime).nanos < (sampleStamp sampleLater).nanos := by decide
  have hlt' : (sampleStamp sampleTime).nanos < (samplePodStamp sampleLater).nanos := hlt
  have htime : sampleTime.toNatClampNeg = 1700000000000000000 := by decide
  have hlater : sampleLater.toNatClampNeg = 1700000000000000001 := by decide
  have hcount : digitCount 1700000000000000000 = 19 :=
    digitCount_eq_nineteen (by decide) (by decide)
  have hcount' : digitCount 1700000000000000001 = 19 :=
    digitCount_eq_nineteen (by decide) (by decide)
  constructor
  · have hiff := resourceKey_lt_iff (hregistry sampleTime) (hregistry sampleLater)
      ((mesh_event ..).trans (mesh_event ..).symm) hpos (toNatClampNeg_lt hpos hlt).1
    rw [hiff, fixed_lt_iff_laterFirst hpos hlt]
    dsimp only [LaterFirst, sampleStamp]
    rw [htime, hlater, hcount, hcount', Nat.sub_self, Nat.pow_zero, Nat.div_one]
    omega
  · have hmesh : (prefixTimestampKey sampleLayout sampleLater samplePodEvent sampleSpec).mesh =
        sampleInput.mesh := (mesh_prefixTimestampKey ..).1
    have hiff := resourceKey_lt_iff (hregistry sampleTime) hpod
      ((mesh_event ..).trans hmesh.symm) hpos (toNatClampNeg_lt hpos hlt').1
    rw [hiff, fixed_lt_iff_laterFirst hpos hlt']
    dsimp only [LaterFirst, sampleStamp, samplePodStamp]
    rw [htime, hlater, hcount, if_neg (lt_irrefl 19)]
    unfold maxInt64
    omega

/-! ## What is stored -/

section Stored

variable {S R ω : Type} {k : LifecycleEventSubscriber S R} {layout : TimeLayout} {now : Int64}
  {rt : R} {s : S} {e r : LifecycleEventResource} {spec : LifecycleEvent}

/-- An event of a pod, as `TransformFunc` of the Kubernetes events returns it. -/
structure IsPodEvent (r : LifecycleEventResource) (spec : LifecycleEvent) : Prop where
  kind : r.kind = lifecycleEventKind
  name : r.name ≠ ""
  spec_eq : r.spec = some spec
  eventSource : spec.eventSource = .kubernetes
  involvedObjKind : spec.involvedObjKind = "Pod"

/-- What `writeEvent` leaves of an event of a pod: the entry of the informer is replaced. -/
theorem writeEvent_leaves (hvalid : k.eventStore.valid s) (hpod : IsPodEvent r spec)
    (hok : (k.writeEvent layout now s r spec).1 = .ok ()) :
    k.eventStore.Leaves s
      (((k.eventStore.stored s).put (prefixTimestampKey layout now r spec)).erase r.resourceKey)
      (k.writeEvent layout now s r spec).2 := by
  obtain ⟨hmesh, hkind⟩ := mesh_prefixTimestampKey layout now r spec
  have hadd := k.eventStore.addsOrFails s (prefixTimestampKey layout now r spec) hvalid
    ((hkind.trans hpod.kind).trans k.eventStore.kind_eq.symm)
  unfold LifecycleEventSubscriber.writeEvent at hok ⊢
  dsimp only at hok ⊢
  rw [if_pos hpod.eventSource, if_pos hpod.eventSource] at hok ⊢
  obtain ⟨⟨result, s₁⟩, hresult⟩ : ∃ out,
    k.eventStore.add s (prefixTimestampKey layout now r spec) = out := ⟨_, rfl⟩
  rw [hresult] at hadd hok ⊢
  rcases hadd with ⟨hadded, hleaves⟩ | ⟨failure, hfails⟩
  · obtain rfl : result = .ok () := hadded
    dsimp only
    rw [if_pos hpod.name, hmesh]
    have hdeleted := k.eventStore.delete_spec s₁
      (newLifecycleEventResourceWithAttributes r.name r.mesh) hleaves.valid
    rw [hleaves.stored] at hdeleted
    exact Leaves.trans hleaves hdeleted
  · obtain rfl : result = .error failure := (Prod.mk.inj hfails).1
    cases hok

/-- What the subscriber leaves of an event of a pod: one event with a stamp, and nothing under the
key that the informer wrote. -/
theorem processEvent_pod (hidentified : k.identified = true) (hvalid : k.eventStore.valid s)
    (hpod : IsPodEvent r spec) {event : ResourceChangedEvent (Option LifecycleEvent)}
    (htyp : event.typ ≠ .deleted) (hnew : event.newObj = some r)
    (hok : (k.processEvent layout now rt s event).1 = .ok ()) :
    k.eventStore.valid (k.processEvent layout now rt s event).2 ∧
      ∀ e ∈ (k.eventStore.stored (k.processEvent layout now rt s event).2).items,
        (∃ stamp, Writes layout stamp e) ∨
          e ∈ (k.eventStore.stored s).items ∧ e.resourceKey ≠ r.resourceKey := by
  have hregistry : spec.eventSource ≠ .registry := by
    rw [hpod.eventSource]
    decide
  have hskip : ¬ (k.identified = false ∨ spec.involvedObjKind ≠ "Pod") := by
    rw [hidentified, hpod.involvedObjKind]
    decide
  unfold LifecycleEventSubscriber.processEvent at hok ⊢
  rw [if_neg htyp] at hok ⊢
  unfold LifecycleEventSubscriber.processUpsert at hok ⊢
  rw [hnew] at hok ⊢
  dsimp only at hok ⊢
  rw [hpod.spec_eq] at hok ⊢
  dsimp only at hok ⊢
  rw [if_neg hregistry, if_neg hskip] at hok ⊢
  unfold LifecycleEventSubscriber.alignMeshFromRuntimeInstance at hok ⊢
  cases hmesh : k.resolvedMesh rt r.mesh spec with
  | none =>
    rw [hmesh] at hok
    have hleaves := writeEvent_leaves hvalid hpod hok
    refine ⟨hleaves.valid, fun e he => ?_⟩
    rw [hleaves.stored] at he
    obtain ⟨he, hkey⟩ := Keyed.mem_erase.mp he
    rcases Keyed.mem_put.mp he with rfl | ⟨he, -⟩
    · exact .inl ⟨_, .kubernetes r spec now hpod.spec_eq hpod.eventSource⟩
    · exact .inr ⟨he, hkey⟩
  | some mesh =>
    rw [hmesh] at hok
    have hpod' : IsPodEvent { r with mesh := mesh } spec := { hpod with }
    have hdeleted := k.eventStore.delete_spec s r hvalid
    have hleaves := writeEvent_leaves hdeleted.valid hpod' hok
    refine ⟨hleaves.valid, fun e he => ?_⟩
    rw [hleaves.stored, hdeleted.stored] at he
    rcases Keyed.mem_put.mp (Keyed.mem_erase.mp he).1 with rfl | ⟨he, -⟩
    · exact .inl ⟨_, .kubernetes _ spec now hpod'.spec_eq hpod.eventSource⟩
    · exact .inr (Keyed.mem_erase.mp he)

/-- What writes to the store of events. -/
inductive EventAction (R ω : Type) where
  | record (input : RegistryEventInput) (now : Int64)
  /-- The informer of the Kubernetes events handles a delta. -/
  | inform (d : Delta (Option LifecycleEvent) ω)
  /-- The subscriber handles an event of the informer, with the runtime instances of that time. -/
  | process (event : ResourceChangedEvent (Option LifecycleEvent)) (rt : R) (now : Int64)

/-- The steps of the writers, which share the store. The informer's events wait for the
subscriber. -/
inductive EventStep (k : LifecycleEventSubscriber S R) (layout : TimeLayout)
    (inf : Informer (Option LifecycleEvent) ω S) (w : World (Option LifecycleEvent) S) :
    EventAction R ω → World (Option LifecycleEvent) S → Prop
  | record (input : RegistryEventInput) (now : Int64) :
      EventStep k layout inf w (.record input now)
        { w with store := recordRegistryEvent layout k.eventStore now w.store input }
  | inform (d : Delta (Option LifecycleEvent) ω) {r : LifecycleEventResource}
      {spec : LifecycleEvent} (hd : inf.toResource d.object = .ok r) (hpod : IsPodEvent r spec) :
      EventStep k layout inf w (.inform d) (inf.handleDelta w d).2
  /-- No store call fails. -/
  | process (event : ResourceChangedEvent (Option LifecycleEvent)) (rt : R) (now : Int64)
      (hevent : event ∈ w.events)
      (hok : (k.processEvent layout now rt w.store event).1 = .ok ()) :
      EventStep k layout inf w (.process event rt now)
        ⟨(k.processEvent layout now rt w.store event).2, w.events.erase event⟩

/-- An event of the informer that is going to replace what is stored under the key. -/
def WaitsFor (key : String) (event : ResourceChangedEvent (Option LifecycleEvent)) : Prop :=
  ∃ r ∈ event.newObj, r.resourceKey = key

/-- A stored event has a stamp or is going to be replaced by one. -/
structure StampedOrWaiting (k : LifecycleEventSubscriber S R) (layout : TimeLayout)
    (w : World (Option LifecycleEvent) S) : Prop where
  valid : k.eventStore.valid w.store
  stored : ∀ e ∈ (k.eventStore.stored w.store).items,
    (∃ stamp, Writes layout stamp e) ∨ ∃ event ∈ w.events, WaitsFor e.resourceKey event
  events : ∀ event ∈ w.events, (∃ r, event = ⟨.deleted, some r, none⟩) ∨
    event.typ ≠ .deleted ∧ ∃ r spec, event.newObj = some r ∧ IsPodEvent r spec

section Steps

variable {inf : Informer (Option LifecycleEvent) ω S} {w w' : World (Option LifecycleEvent) S}

/-- A deletion leaves the events that were stored, but one. -/
theorem StampedOrWaiting.delete (h : StampedOrWaiting k layout w) (r : LifecycleEventResource)
    (events : List (ResourceChangedEvent (Option LifecycleEvent)))
    (hkept : ∀ event ∈ w.events, event.newObj ≠ none → event ∈ events)
    (hevents : ∀ event ∈ events, event ∈ w.events ∨ ∃ r, event = ⟨.deleted, some r, none⟩) :
    StampedOrWaiting k layout ⟨(k.eventStore.delete w.store r).2, events⟩ := by
  have hleaves := k.eventStore.delete_spec w.store r h.valid
  refine ⟨hleaves.valid, fun e he => ?_, fun event hevent => ?_⟩
  · rw [hleaves.stored] at he
    refine (h.stored e (Keyed.mem_erase.mp he).1).imp_right fun ⟨event, hevent, hwaits⟩ => ?_
    obtain ⟨r, hr, -⟩ := id hwaits
    exact ⟨event, hkept event hevent (Option.ne_none_iff_exists'.mpr ⟨r, hr⟩), hwaits⟩
  · exact (hevents event hevent).elim (h.events event) .inl

/-- The informer handles a delta: a deletion, or an event of a pod that is stored and sent. -/
theorem StampedOrWaiting.inform (hst : inf.indexer = k.eventStore.toResourceStore)
    (h : StampedOrWaiting k layout w) {d : Delta (Option LifecycleEvent) ω}
    (hd : inf.toResource d.object = .ok r) (hpod : IsPodEvent r spec) :
    StampedOrWaiting k layout (inf.handleDelta w d).2 := by
  by_cases htype : d.type = .deleted
  · rw [handleDelta_of_deleted hd htype, hst]
    rcases hresult : k.eventStore.delete w.store r with ⟨result, s⟩
    have hdeleted := h.delete r
    rw [hresult] at hdeleted
    cases result with
    | error failure => exact hdeleted _ (fun _ hevent _ => hevent) fun _ => .inl
    | ok _ =>
      refine hdeleted _ (fun _ hevent _ => List.mem_append_left _ hevent) fun event hevent => ?_
      exact (List.mem_append.mp hevent).imp_right fun hsent => ⟨r, List.mem_singleton.mp hsent⟩
  · obtain ⟨w', hw', hleaves, typ, oldObj, htyp, hevents⟩ := handleDelta_put hst h.valid hd htype
      (hpod.kind.trans k.eventStore.kind_eq.symm)
    rw [hw']
    refine ⟨hleaves.valid, fun e he => ?_, fun event hevent => ?_⟩
    · rw [hleaves.stored] at he
      rw [hevents]
      rcases Keyed.mem_put.mp he with rfl | ⟨he, -⟩
      · exact .inr ⟨_, List.mem_append_right _ (List.mem_singleton_self _), e, rfl, rfl⟩
      · exact (h.stored e he).imp_right fun ⟨event, hevent, hwaits⟩ =>
          ⟨event, List.mem_append_left _ hevent, hwaits⟩
    · rw [hevents] at hevent
      rcases List.mem_append.mp hevent with hevent | hevent
      · exact h.events event hevent
      · rw [List.mem_singleton.mp hevent]
        exact .inr ⟨htyp, r, spec, rfl, hpod⟩

/-- The subscriber handles an event, which no longer waits. -/
theorem StampedOrWaiting.process (hidentified : k.identified = true)
    (h : StampedOrWaiting k layout w) {event : ResourceChangedEvent (Option LifecycleEvent)}
    (hevent : event ∈ w.events) (hok : (k.processEvent layout now rt w.store event).1 = .ok ()) :
    StampedOrWaiting k layout
      ⟨(k.processEvent layout now rt w.store event).2, w.events.erase event⟩ := by
  have hkept : ∀ event' ∈ w.events, event'.newObj ≠ event.newObj → event' ∈ w.events.erase event :=
    fun event' hmem hne => (List.mem_erase_of_ne fun heq => hne (by rw [heq])).mpr hmem
  rcases h.events event hevent with ⟨r, rfl⟩ | ⟨htyp, r, spec, hnew, hpod⟩
  · exact h.delete r _ hkept fun _ hmem => .inl (List.mem_of_mem_erase hmem)
  · obtain ⟨hvalid, hstored⟩ := processEvent_pod hidentified h.valid hpod htyp hnew hok
    refine ⟨hvalid, fun e he => ?_, fun event' hmem => h.events event' (List.mem_of_mem_erase hmem)⟩
    rcases hstored e he with hstamp | ⟨he, hkey⟩
    · exact .inl hstamp
    · refine (h.stored e he).imp_right fun ⟨event', hmem, hwaits⟩ => ⟨event', ?_, hwaits⟩
      obtain ⟨r', hr', hkey'⟩ := hwaits
      refine hkept event' hmem fun heq => hkey ?_
      rw [← hkey', Option.some.inj ((hr'.symm.trans heq).trans hnew)]

/-- One step of any of the writers. -/
theorem StampedOrWaiting.step (hidentified : k.identified = true)
    (hst : inf.indexer = k.eventStore.toResourceStore) (h : StampedOrWaiting k layout w)
    {a : EventAction R ω} (hstep : EventStep k layout inf w a w') :
    StampedOrWaiting k layout w' := by
  cases hstep with
  | record input now =>
    unfold recordRegistryEvent
    split_ifs with hdropped
    · exact h
    · rw [not_or] at hdropped
      rcases k.eventStore.addsOrFails w.store (input.event layout now) h.valid
        k.eventStore.kind_eq.symm with ⟨-, hleaves⟩ | ⟨failure, hfails⟩
      · refine ⟨hleaves.valid, fun e he => ?_, h.events⟩
        rw [hleaves.stored] at he
        rcases Keyed.mem_put.mp he with rfl | ⟨he, -⟩
        · exact .inl ⟨_, .registry input now hdropped.1 hdropped.2⟩
        · exact h.stored e he
      · rw [hfails]
        exact h
  | inform d hd hpod => exact h.inform hst hd hpod
  | process event rt now hevent hok => exact h.process hidentified hevent hok

end Steps

/-- The subscriber over memory stores. -/
def sampleSubscriber : LifecycleEventSubscriber (Memory.ResourceStore (Option LifecycleEvent))
    (Memory.ResourceStore (Labelled RuntimeInstance)) where
  eventStore := memoryLifecycleEventStore
  rtStore := memoryRuntimeInstanceStore
  identified := true

/-- An informer that takes resources as they are. -/
def sampleInformer : Informer (Option LifecycleEvent) Unit
    (Memory.ResourceStore (Option LifecycleEvent)) :=
  ⟨memoryLifecycleEventStore.toResourceStore, fun _ => .ok "", none⟩

end Stored

end DubboAdmin.Discovery
