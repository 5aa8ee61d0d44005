import DubboAdmin.Discovery.LifecycleEvents

/-!
# Page requests with any numbers

`PageListByIndexes` of both stores, and the event listings of `pkg/console/service/event.go`, take
the offset and the size of a page from the request as they are: 64-bit integers of any sign. The
models of the stores have natural numbers for them, since pages are walked over from the first one
there; here they are machine integers, with the panics of `make`, of an index and of a slice. Which
requests panic, and that otherwise no page is too large, is `pages_safe_iff`.
-/

namespace DubboAdmin.Console

open Discovery
open Strings (hasPrefix hasSuffix)

variable {σ α : Type}

/-- `PageReq`, with machine integers. -/
structure PageQuery where
  pageOffset : Int64
  pageSize : Int64

/-- `PageData`, with machine integers. -/
structure Page (α : Type) where
  total : ℤ
  pageOffset : Int64
  pageSize : Int64
  data : List α

/-- The slice `l[low:high]`. -/
def slice (l : List α) (low high : ℤ) : Except Failure (List α) :=
  if 0 ≤ low ∧ low ≤ high ∧ high ≤ l.length then
    .ok ((l.drop low.toNat).take (high - low).toNat)
  else .error (.panic "runtime error: slice bounds out of range")

/-- The sum of two machine integers. -/
def addInt64 (m n : ℤ) : ℤ := (m + n).bmod (2 ^ 64)

/-- A sum of machine integers that is not too small is right, or wraps around once. -/
theorem addInt64_eq {low size : ℤ} (hlow : low < 2 ^ 63) (hsize : size < 2 ^ 63)
    (h : -2 ^ 63 ≤ low + size) : addInt64 low size =
      if low + size < 2 ^ 63 then low + size else low + size - 2 ^ 64 := by
  unfold addInt64 Int.bmod
  norm_num
  split_ifs <;> omega

/-! ## The stores -/

/-- `PageListByIndexes` of the memory store, from the keys on. `make` has at most `maxCap` as a
capacity. The loop starts at the offset, with an empty page, so that a negative offset is an index
of `keys` in its first round. -/
def memoryPage (maxCap : ℕ) (rs : Memory.ResourceStore σ) (pq : PageQuery) (keys : List String) :
    Except Failure (Page (Resource σ)) :=
  if pq.pageSize.toInt < 0 ∨ maxCap < pq.pageSize.toInt then
    .error (.panic "runtime error: makeslice: cap out of range")
  else if 0 < pq.pageSize.toInt ∧ pq.pageOffset.toInt < 0 then
    .error (.panic "runtime error: index out of range")
  else
    let offset := pq.pageOffset.toInt.toNat
    let page := rs.pageLoop pq.pageSize.toInt.toNat (keys.drop offset) offset keys.length []
    .ok ⟨page.1, pq.pageOffset, pq.pageSize, page.2⟩

def memoryPageListByIndexes (maxCap : ℕ) (rs : Memory.ResourceStore σ)
    (indexes : List IndexCondition) (pq : PageQuery) : Except Failure (Page (Resource σ)) := do
  let keys ← rs.getKeysByIndexes indexes
  memoryPage maxCap rs pq (sortBy id keys)

/-- `PageListByIndexes` of the Gorm store, from the keys on. -/
def gormPage (ord : Gorm.RowOrder) (db : Gorm.DB σ) (pq : PageQuery) (keys : List String) :
    Except Failure (Page (Resource σ)) :=
  if keys.length ≤ pq.pageOffset.toInt then .ok ⟨keys.length, pq.pageOffset, pq.pageSize, []⟩
  else do
    let stop := addInt64 pq.pageOffset.toInt pq.pageSize.toInt
    let stop := if keys.length < stop then (keys.length : ℤ) else stop
    let pageKeys ← slice keys pq.pageOffset.toInt stop
    pure ⟨keys.length, pq.pageOffset, pq.pageSize, Gorm.getByKeys ord db pageKeys⟩

def gormPageListByIndexes (gs : Gorm.GormStore σ) (ord : Gorm.RowOrder) (db : Gorm.DB σ)
    (indexes : List IndexCondition) (pq : PageQuery) : Except Failure (Page (Resource σ)) := do
  let keys ← gs.getKeysByIndexes ord db indexes
  gormPage ord db pq (sortBy id keys)

/-! ## The event listings -/

/-- Whether a name is meant by a candidate of `filterEventsByNames`. -/
def matchesName (n candidate : String) : Bool :=
  if hasSuffix candidate "/" || hasSuffix candidate "-" then hasPrefix n candidate
  else n == candidate

def filterEventsByNames (resources : List LifecycleEventResource) (matchNames : List String) :
    List LifecycleEventResource :=
  resources.filter fun r => r.spec.any fun spec => matchNames.any (matchesName spec.involvedObjName)

/-- An event as it is listed. -/
structure EventItem where
  time : String
  type : String
  message : String
  source : String
deriving DecidableEq

/-- `EventListResp`. -/
structure EventListResp where
  list : List EventItem
  total : ℤ
deriving DecidableEq

def toEventListResp (pageData : Page LifecycleEventResource) : EventListResp where
  list := pageData.data.filterMap fun eventRes => eventRes.spec.map fun spec =>
    { time := spec.lastTimestamp
      type := if spec.type.map Char.toLower = "warning" then "warning" else "normal"
      message := spec.message
      source := if spec.sourceComponent = "" then spec.eventSource.text
        else spec.sourceComponent }
  total := pageData.total

def defaultPageSize : ℤ := 20

/-- The offset of an event listing within what was found. -/
def eventOffset (pq : PageQuery) (found : ℕ) : ℤ := min (max pq.pageOffset.toInt 0) found

/-- The size of a page of an event listing. -/
def eventPageSize (pq : PageQuery) : ℤ :=
  if pq.pageSize.toInt ≤ 0 then defaultPageSize else pq.pageSize.toInt

/-- The common body of the event listings, from what matches on. -/
def eventPage (pq : PageQuery) (filtered : List LifecycleEventResource) :
    Except Failure EventListResp := do
  let offset := eventOffset pq filtered.length
  let stop := addInt64 offset (eventPageSize pq)
  let stop := if filtered.length < stop then (filtered.length : ℤ) else stop
  let paged ← slice filtered offset stop
  pure (toEventListResp ⟨filtered.length, pq.pageOffset, pq.pageSize, paged⟩)

/-- The common body of the event listings, over what `manager.ListByIndexes` returns for the mesh
and the names to match. -/
def listEvents (listed : Except String (List LifecycleEventResource)) (matchNames : List String)
    (pq : PageQuery) : Except Failure EventListResp := do
  let resources ← listed.mapError .err
  eventPage pq (filterEventsByNames resources matchNames)

/-- `ListApplicationEvents`, with the names that `resolveAppEventNames` has found. -/
def listApplicationEvents (listed : Except String (List LifecycleEventResource))
    (appEventNames : List String) (pq : PageQuery) : Except Failure EventListResp :=
  listEvents listed appEventNames pq

/-- `ListInstanceEvents`, with the names that `resolveInstanceEventNames` has found. -/
def listInstanceEvents (listed : Except String (List LifecycleEventResource))
    (instanceEventNames : List String) (pq : PageQuery) : Except Failure EventListResp :=
  listEvents listed instanceEventNames pq

/-! ## The stores' pages of natural numbers -/

section Requests

variable (rs : Memory.ResourceStore σ) (gs : Gorm.GormStore σ) (indexes : List IndexCondition)
  {pq : PageQuery}

/-- The request with natural numbers, where none of its numbers is negative. -/
def PageQuery.toNat (pq : PageQuery) : PageReq :=
  ⟨pq.pageOffset.toInt.toNat, pq.pageSize.toInt.toNat⟩

/-- What the page of natural numbers is with machine integers. -/
def Page.ofData (pq : PageQuery) (page : PageData α) : Page α :=
  ⟨page.total, pq.pageOffset, pq.pageSize, page.data⟩

/-- A request without negative numbers, and with a size that is a capacity, is answered as in the
memory store's model. -/
theorem memoryPageListByIndexes_eq {maxCap : ℕ} (hoffset : 0 ≤ pq.pageOffset.toInt)
    (hsize : 0 ≤ pq.pageSize.toInt) (hcap : pq.pageSize.toInt ≤ maxCap) :
    memoryPageListByIndexes maxCap rs indexes pq =
      (rs.pageListByIndexes indexes pq.toNat).map (Page.ofData pq) := by
  unfold memoryPageListByIndexes Memory.ResourceStore.pageListByIndexes
  cases rs.getKeysByIndexes indexes with
  | error e => rfl
  | ok keys =>
    show memoryPage maxCap rs pq (sortBy id keys) = _
    unfold memoryPage
    rw [if_neg (by omega), if_neg (by omega)]
    rfl

/-- A request without negative numbers, and with a sum that does not overflow, is answered as in the
Gorm store's model. -/
theorem gormPageListByIndexes_eq (ord : Gorm.RowOrder) (db : Gorm.DB σ)
    (hoffset : 0 ≤ pq.pageOffset.toInt) (hsize : 0 ≤ pq.pageSize.toInt)
    (hsum : pq.pageOffset.toInt + pq.pageSize.toInt < 2 ^ 63) :
    gormPageListByIndexes gs ord db indexes pq =
      (gs.pageListByIndexes ord db indexes pq.toNat).map (Page.ofData pq) := by
  unfold gormPageListByIndexes Gorm.GormStore.pageListByIndexes
  cases gs.getKeysByIndexes ord db indexes with
  | error e => rfl
  | ok keys =>
    show gormPage ord db pq (sortBy id keys) = Except.map _ (if _ then _ else _)
    generalize sortBy id keys = keys
    unfold gormPage PageQuery.toNat
    by_cases hend : (keys.length : ℤ) ≤ pq.pageOffset.toInt
    · rw [if_pos hend, if_pos (by dsimp only; omega)]
      rfl
    · rw [if_neg hend, if_neg (by dsimp only; omega),
        addInt64_eq pq.pageOffset.toInt_lt pq.pageSize.toInt_lt (by omega), if_pos hsum]
      have hslice : slice keys pq.pageOffset.toInt
          (if keys.length < pq.pageOffset.toInt + pq.pageSize.toInt then (keys.length : ℤ)
            else pq.pageOffset.toInt + pq.pageSize.toInt) =
          .ok ((keys.drop pq.pageOffset.toInt.toNat).take
            (min (pq.pageOffset.toInt.toNat + pq.pageSize.toInt.toNat) keys.length -
              pq.pageOffset.toInt.toNat)) := by
        unfold slice
        rw [if_pos (by split_ifs <;> omega)]
        congr 2
        split_ifs <;> omega
      dsimp only
      rw [hslice]
      rfl

end Requests

/-! ## Which requests are safe -/

/-- The call does not panic. -/
def NoPanic (result : Except Failure α) : Prop := ∀ msg, result ≠ .error (.panic msg)

theorem noPanic_ok (a : α) : NoPanic (.ok a) := fun _ h => by cases h

theorem noPanic_err (msg : String) : NoPanic (.error (.err msg) : Except Failure α) :=
  fun _ h => by cases h

theorem NoPanic.bind {β : Type} {x : Except Failure α} {f : α → Except Failure β} (hx : NoPanic x)
    (hf : ∀ a, NoPanic (f a)) : NoPanic (x >>= f) := by
  cases x with
  | error e => exact fun msg h => hx msg (by cases h; rfl)
  | ok a => exact hf a

/-- The queries of both stores do not panic, if those of a condition do not. -/
theorem noPanic_keysByIndexes {query : IndexCondition → Except Failure (List String)}
    (hquery : ∀ c, NoPanic (query c)) (indexes : List IndexCondition) :
    NoPanic (keysByIndexes query indexes) := by
  have hfold : ∀ keySet, NoPanic (indexes.foldlM (intersectRound query) keySet) := by
    induction indexes with
    | nil => exact noPanic_ok
    | cons c indexes ih =>
      intro keySet
      refine NoPanic.bind ((hquery c).bind fun keys => ?_) ih
      cases keySet <;> exact noPanic_ok _
  exact (hfold none).bind fun _ => noPanic_ok _

theorem noPanic_memory (rs : Memory.ResourceStore σ) (indexes : List IndexCondition) :
    NoPanic (rs.getKeysByIndexes indexes) := by
  refine noPanic_keysByIndexes (fun c => ?_) indexes
  unfold Memory.ResourceStore.conditionKeys
  split
  · unfold Memory.Indexer.indexKeys
    split <;> first | exact noPanic_ok _ | exact noPanic_err _
  · unfold Memory.ResourceStore.getKeysByPrefix
    split <;> first | exact noPanic_ok _ | exact noPanic_err _
  · exact noPanic_err _

theorem noPanic_gorm (gs : Gorm.GormStore σ) (ord : Gorm.RowOrder) (db : Gorm.DB σ)
    (indexes : List IndexCondition) : NoPanic (gs.getKeysByIndexes ord db indexes) := by
  refine noPanic_keysByIndexes (fun c => ?_) indexes
  unfold Gorm.GormStore.conditionKeys
  split
  · refine NoPanic.bind ?_ fun _ => noPanic_ok _
    unfold Gorm.GormStore.findByIndex
    split_ifs
    · exact noPanic_ok _
    · exact noPanic_err _
  · exact noPanic_ok _
  · exact noPanic_err _

/-- The call does not panic, and where the page size is positive, there are no more items. -/
def SafePage (pq : PageQuery) (items : α → ℕ) (result : Except Failure α) : Prop :=
  NoPanic result ∧
    (1 ≤ pq.pageSize.toInt → ∀ page, result = .ok page → (items page : ℤ) ≤ pq.pageSize.toInt)

section Results

variable {pq : PageQuery} {items : α → ℕ}

theorem safePage_ok {page : α}
    (h : 1 ≤ pq.pageSize.toInt → (items page : ℤ) ≤ pq.pageSize.toInt) :
    SafePage pq items (.ok page) := by
  refine ⟨noPanic_ok page, fun hsize page' hpage => ?_⟩
  cases hpage
  exact h hsize

theorem safePage_bind_iff {β : Type} {x : Except Failure β} (hx : NoPanic x)
    (f : β → Except Failure α) :
    SafePage pq items (x >>= f) ↔ ∀ b, x = .ok b → SafePage pq items (f b) := by
  cases x with
  | error e =>
    refine iff_of_true ⟨fun msg h => hx msg (by cases h; rfl), fun _ _ h => by cases h⟩ ?_
    exact fun _ h => by cases h
  | ok b => exact ⟨fun h b' hb => by cases hb; exact h, fun h => h b rfl⟩

theorem not_safePage_panic {msg : String} : ¬SafePage pq items (.error (.panic msg)) :=
  fun h => h.1 msg rfl

end Results

theorem length_pageLoop (rs : Memory.ResourceStore σ) (n : ℕ) (keys : List String) (i total : ℕ)
    (acc : List (Resource σ)) (hacc : acc.length ≤ n) :
    (rs.pageLoop n keys i total acc).2.length ≤ n := by
  induction keys generalizing i total acc with
  | nil => exact hacc
  | cons key keys ih =>
    unfold Memory.ResourceStore.pageLoop
    split_ifs with hroom
    · split
      · exact ih _ _ _ hacc
      · refine ih _ _ _ ?_
        rw [List.length_append, List.length_singleton]
        omega
    · exact hacc

/-- No more rows are returned than keys are asked for. -/
theorem length_getByKeys (ord : Gorm.RowOrder) (db : Gorm.DB σ) (keys : List String) :
    (Gorm.getByKeys ord db keys).length ≤ keys.length := by
  unfold Gorm.getByKeys
  split_ifs with hempty
  · exact Nat.zero_le _
  · rw [(ord.perm _).length_eq, ← List.length_map Resource.resourceKey]
    refine (List.subperm_of_subset ?_ fun k hk => ?_).length_le
    · exact db.resources.nodup.sublist (List.filter_sublist.map _)
    · obtain ⟨r, hr, rfl⟩ := List.mem_map.mp hk
      exact of_decide_eq_true (List.mem_filter.mp hr).2

/-- A slice up to the sum of an offset and a size, or to the end, is there exactly if neither is
negative and the sum does not overflow. -/
theorem slice_cases (l : List α) {low size : ℤ} (hlow : -2 ^ 63 ≤ low) (hlow' : low < 2 ^ 63)
    (hle : low ≤ l.length) (hsize : -2 ^ 63 ≤ size) (hsize' : size < 2 ^ 63) :
    (0 ≤ low ∧ 0 ≤ size ∧ low + size < 2 ^ 63 ∧ ∃ part, slice l low
      (if l.length < addInt64 low size then (l.length : ℤ) else addInt64 low size) = .ok part ∧
        (part.length : ℤ) ≤ size) ∨
    (¬(0 ≤ low ∧ 0 ≤ size ∧ low + size < 2 ^ 63) ∧ ∃ msg, slice l low
      (if l.length < addInt64 low size then (l.length : ℤ) else addInt64 low size) =
        .error (.panic msg)) := by
  have hsum := addInt64_eq hlow' hsize'
  by_cases hgood : 0 ≤ low ∧ 0 ≤ size ∧ low + size < 2 ^ 63
  · refine .inl ⟨hgood.1, hgood.2.1, hgood.2.2, ?_⟩
    rw [hsum (by omega), if_pos hgood.2.2]
    refine ⟨_, if_pos ?_, ?_⟩
    · split_ifs <;> omega
    · rw [List.length_take]
      split_ifs <;> omega
  · refine .inr ⟨hgood, _, if_neg ?_⟩
    rintro ⟨h0, hstop, -⟩
    rw [hsum (by omega)] at hstop
    split_ifs at hstop <;> omega

theorem memoryPage_safe_iff (maxCap : ℕ) (rs : Memory.ResourceStore σ) (pq : PageQuery)
    (keys : List String) :
    SafePage pq (·.data.length) (memoryPage maxCap rs pq keys) ↔ 0 ≤ pq.pageSize.toInt ∧
      pq.pageSize.toInt ≤ maxCap ∧ (0 < pq.pageSize.toInt → 0 ≤ pq.pageOffset.toInt) := by
  unfold memoryPage
  split_ifs with hcap hindex
  · exact iff_of_false not_safePage_panic (by omega)
  · exact iff_of_false not_safePage_panic (by omega)
  · refine iff_of_true (safePage_ok fun hsize => ?_) (by omega)
    have hlength := length_pageLoop rs pq.pageSize.toInt.toNat
      (keys.drop pq.pageOffset.toInt.toNat) pq.pageOffset.toInt.toNat keys.length [] (Nat.zero_le _)
    dsimp only
    omega

theorem gormPage_safe_iff (ord : Gorm.RowOrder) (db : Gorm.DB σ) (pq : PageQuery)
    (keys : List String) :
    SafePage pq (·.data.length) (gormPage ord db pq keys) ↔ keys.length ≤ pq.pageOffset.toInt ∨
      0 ≤ pq.pageOffset.toInt ∧ 0 ≤ pq.pageSize.toInt ∧
        pq.pageOffset.toInt + pq.pageSize.toInt < 2 ^ 63 := by
  unfold gormPage
  split_ifs with hend
  · exact iff_of_true (safePage_ok fun h => (by simpa using Int.le_of_lt h)) (.inl hend)
  · dsimp only
    rcases slice_cases keys pq.pageOffset.le_toInt pq.pageOffset.toInt_lt (by omega)
      pq.pageSize.le_toInt pq.pageSize.toInt_lt with
      ⟨h0, h0', hsum, pageKeys, hslice, hle⟩ | ⟨hnot, msg, hslice⟩
    · rw [hslice]
      refine iff_of_true (safePage_ok fun _ => ?_) (.inr ⟨h0, h0', hsum⟩)
      have hrows := length_getByKeys ord db pageKeys
      dsimp only
      omega
    · rw [hslice]
      exact iff_of_false not_safePage_panic (by omega)

theorem eventPage_safe_iff (pq : PageQuery) (filtered : List LifecycleEventResource) :
    SafePage pq (·.list.length) (eventPage pq filtered) ↔
      eventOffset pq filtered.length + eventPageSize pq < 2 ^ 63 := by
  have hoffset := pq.pageOffset.toInt_lt
  have hlow : 0 ≤ eventOffset pq filtered.length ∧ eventOffset pq filtered.length < 2 ^ 63 ∧
      eventOffset pq filtered.length ≤ filtered.length := by
    unfold eventOffset
    omega
  have hsize := pq.pageSize.toInt_lt
  have hpage : 0 ≤ eventPageSize pq ∧ eventPageSize pq < 2 ^ 63 ∧
      (1 ≤ pq.pageSize.toInt → eventPageSize pq = pq.pageSize.toInt) := by
    unfold eventPageSize defaultPageSize
    split_ifs <;> omega
  unfold eventPage
  dsimp only
  rcases slice_cases filtered (by omega) hlow.2.1 hlow.2.2 (by omega) hpage.2.1 with
    ⟨-, -, hsum, paged, hslice, hlength⟩ | ⟨hnot, msg, hslice⟩
  · rw [hslice]
    refine iff_of_true (safePage_ok fun h1 => ?_) hsum
    have hitems : (toEventListResp ⟨filtered.length, pq.pageOffset, pq.pageSize, paged⟩).list.length
        ≤ paged.length := List.length_filterMap_le _ paged
    have hequal := hpage.2.2 h1
    omega
  · rw [hslice]
    exact iff_of_false not_safePage_panic (by omega)

theorem listEvents_safe_iff (listed : Except String (List LifecycleEventResource))
    (matchNames : List String) (pq : PageQuery) :
    SafePage pq (·.list.length) (listEvents listed matchNames pq) ↔
      ∀ resources, listed = .ok resources →
        eventOffset pq (filterEventsByNames resources matchNames).length + eventPageSize pq <
          2 ^ 63 := by
  have hlisted : NoPanic (listed.mapError .err) := by
    cases listed with
    | error msg => exact noPanic_err msg
    | ok resources => exact noPanic_ok resources
  unfold listEvents
  rw [safePage_bind_iff hlisted]
  simp only [eventPage_safe_iff]
  cases listed <;> simp [Except.mapError]

/-- Which page requests panic: in the memory store, those with a size that is no capacity, and those
with a negative offset, unless the size is zero; in the Gorm store, those that do not lie behind the
end and have a negative offset or size or overflow; in the event listings, those that overflow. All
others are answered, by no more items than the size of the page. -/
theorem pages_safe_iff (maxCap : ℕ) (rs : Memory.ResourceStore σ) (gs : Gorm.GormStore σ)
    (ord : Gorm.RowOrder) (db : Gorm.DB σ) (indexes : List IndexCondition)
    (listed : Except String (List LifecycleEventResource)) (matchNames : List String)
    (pq : PageQuery) :
    (SafePage pq (·.data.length) (memoryPageListByIndexes maxCap rs indexes pq) ↔
      ∀ keys, rs.getKeysByIndexes indexes = .ok keys → 0 ≤ pq.pageSize.toInt ∧
        pq.pageSize.toInt ≤ maxCap ∧ (0 < pq.pageSize.toInt → 0 ≤ pq.pageOffset.toInt)) ∧
    (SafePage pq (·.data.length) (gormPageListByIndexes gs ord db indexes pq) ↔
      ∀ keys, gs.getKeysByIndexes ord db indexes = .ok keys → keys.length ≤ pq.pageOffset.toInt ∨
        0 ≤ pq.pageOffset.toInt ∧ 0 ≤ pq.pageSize.toInt ∧
          pq.pageOffset.toInt + pq.pageSize.toInt < 2 ^ 63) ∧
    (SafePage pq (·.list.length) (listApplicationEvents listed matchNames pq) ↔
      ∀ resources, listed = .ok resources →
        eventOffset pq (filterEventsByNames resources matchNames).length + eventPageSize pq <
          2 ^ 63) ∧
    (SafePage pq (·.list.length) (listInstanceEvents listed matchNames pq) ↔
      ∀ resources, listed = .ok resources →
        eventOffset pq (filterEventsByNames resources matchNames).length + eventPageSize pq <
          2 ^ 63) := by
  have hevents := listEvents_safe_iff listed matchNames pq
  refine ⟨?_, ?_, hevents, hevents⟩
  · exact (safePage_bind_iff (noPanic_memory rs indexes) _).trans
      (forall₂_congr fun keys _ => memoryPage_safe_iff maxCap rs pq (sortBy id keys))
  · refine (safePage_bind_iff (noPanic_gorm gs ord db indexes) _).trans
      (forall₂_congr fun keys _ => (gormPage_safe_iff ord db pq (sortBy id keys)).trans ?_)
    rw [show (sortBy id keys).length = keys.length from List.length_insertionSort _ keys]

/-- A negative offset, and a size that overflows on the second page. -/
theorem pages_panic :
    ¬SafePage ⟨-1, 1⟩ (·.data.length)
        (memoryPageListByIndexes 100 (Memory.init (∅ : Indexers Unit)) [] ⟨-1, 1⟩) ∧
      ¬SafePage ⟨1, Int64.maxValue⟩ (·.list.length) (listApplicationEvents
        (.ok [⟨lifecycleEventKind, "mesh", "event", some { involvedObjName := "shop" }⟩]) ["shop"]
          ⟨1, Int64.maxValue⟩) := by
  refine ⟨fun h => h.1 "runtime error: index out of range" rfl, fun h => ?_⟩
  refine h.1 "runtime error: slice bounds out of range" ?_
  rfl

end DubboAdmin.Console
