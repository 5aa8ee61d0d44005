import DubboAdmin.Store.GormIndex

/-!
# The database store's queries and pages

While the index table is exact, a query returns what its conditions ask for, where a prefix
condition asks for a value that its `LIKE` pattern matches (`Matches`). `ListByIndexes` sorts what
it has fetched. `PageListByIndexes` sorts and cuts the keys, and then returns the rows of the page
as the database gives them. So a page holds the right resources, in any order (`getByKeys_perm`),
and the pages agree with the listing whatever the order is if and only if no page can hold two
resources (`pagesAgree_anyOrder_iff`).
-/

namespace DubboAdmin.Gorm

open Strings

variable {σ : Type}

/-- What a condition asks of a resource in the database: a value that equals the given one, or that
the `LIKE` pattern of the prefix matches. -/
def Matches (indexers : Indexers σ) (c : IndexCondition) (r : Resource σ) : Prop :=
  match c.operator with
  | .equals => c.value ∈ indexers.values c.indexName r
  | .hasPrefix => ∃ v ∈ indexers.values c.indexName r, like (c.value ++ "%").toList v.toList = true
  | .other _ => False

/-- A resource that meets every one of some conditions. -/
def MatchesAll (indexers : Indexers σ) (indexes : List IndexCondition) (r : Resource σ) : Prop :=
  indexes ≠ [] ∧ ∀ c ∈ indexes, Matches indexers c r

/-! ## Queries -/

section Queries

variable {gs : GormStore σ} {db : DB σ} {ord : RowOrder}

theorem mem_getByKeys {keys : List String} {r : Resource σ} :
    r ∈ getByKeys ord db keys ↔ r ∈ db.resources.items ∧ r.resourceKey ∈ keys := by
  unfold getByKeys
  split_ifs with hkeys
  · simp [hkeys]
  · rw [(ord.perm _).mem_iff, List.mem_filter, decide_eq_true_eq]

theorem nodup_getByKeys (keys : List String) :
    ((getByKeys ord db keys).map Resource.resourceKey).Nodup := by
  unfold getByKeys
  split_ifs
  · exact List.nodup_nil
  · exact ((ord.perm _).map Resource.resourceKey).nodup_iff.mpr
      (db.resources.nodup.sublist (List.filter_sublist.map _))

theorem mem_uniqueKeys_findEntries {n k : String} {p : String → Bool} :
    k ∈ uniqueKeys (gs.findEntries ord db n p) ↔
      ∃ v, p v = true ∧ gs.HasRow db.indices n v k := by
  unfold uniqueKeys GormStore.findEntries
  rw [List.mem_dedup, ((ord.perm _).map IndexRow.resourceKey).mem_iff, List.mem_map]
  simp only [List.mem_filter, decide_eq_true_eq, GormStore.HasRow]
  constructor
  · rintro ⟨row, ⟨hrow, hkind, hn, hp⟩, hk⟩
    exact ⟨row.indexValue, hp, row, hrow, hkind, hn, rfl, hk⟩
  · rintro ⟨_, hp, row, hrow, hkind, hn, rfl, hk⟩
    exact ⟨row, ⟨hrow, hkind, hn, hp⟩, hk⟩

/-- The query of a supported condition returns the keys of the stored resources that it matches. -/
theorem conditionKeys_spec (ord : RowOrder) (h : IndexExact gs db) {c : IndexCondition}
    (hc : c.Supported gs.indexers) :
    ∃ ks, gs.conditionKeys ord db c = .ok ks ∧
      ∀ k, k ∈ ks ↔ ∃ r ∈ db.resources.items, r.resourceKey = k ∧ Matches gs.indexers c r := by
  obtain ⟨hreg, hop⟩ := hc
  unfold GormStore.conditionKeys Matches
  cases hopc : c.operator with
  | equals =>
    refine ⟨(getByKeys ord db (uniqueKeys (gs.findEntries ord db c.indexName fun v =>
      v = c.value))).map Resource.resourceKey, ?_, fun k => ?_⟩
    · simp only [GormStore.indexKeys, GormStore.findByIndex, if_pos hreg]
      rfl
    · simp only [List.mem_map, mem_getByKeys, mem_uniqueKeys_findEntries, decide_eq_true_eq,
        exists_eq_left, h _ _ _, GormStore.Produces]
      constructor
      · rintro ⟨r, ⟨hr, r', hr', hkey, hv⟩, rfl⟩
        obtain rfl := Keyed.eq_of_key_eq hr' hr hkey
        exact ⟨r', hr', rfl, hv⟩
      · rintro ⟨r, hr, hk, hv⟩
        exact ⟨r, ⟨hr, r, hr, rfl, hv⟩, hk⟩
  | hasPrefix =>
    refine ⟨_, rfl, fun k => ?_⟩
    simp only [GormStore.getKeysByPrefixFromDB, mem_uniqueKeys_findEntries, h _ _ _,
      GormStore.Produces]
    constructor
    · rintro ⟨v, hp, r, hr, hk, hv⟩
      exact ⟨r, hr, hk, v, hv, hp⟩
    · rintro ⟨r, hr, hk, v, hv, hp⟩
      exact ⟨v, hp, r, hr, hk, hv⟩
  | other op => exact absurd hopc (hop op)

variable {indexes : List IndexCondition}

/-- The key set of supported conditions: the keys of the stored resources that all of them match. -/
theorem getKeysByIndexes_spec (ord : RowOrder) (h : IndexExact gs db)
    (hc : ∀ c ∈ indexes, c.Supported gs.indexers) :
    ∃ ks, gs.getKeysByIndexes ord db indexes = .ok ks ∧ ks.Nodup ∧
      ∀ k, k ∈ ks ↔ ∃ r ∈ db.resources.items, r.resourceKey = k ∧
        MatchesAll gs.indexers indexes r := by
  choose! q hq hmem using fun c hc' => conditionKeys_spec ord h (hc c hc')
  obtain ⟨ks, hks, hnodup, hiff⟩ := keysByIndexes_spec hq
  refine ⟨ks, hks, hnodup, fun k => (hiff k).trans ⟨?_, ?_⟩⟩
  · rintro ⟨hne, hall⟩
    obtain ⟨c₀, hc₀⟩ := List.exists_mem_of_ne_nil _ hne
    obtain ⟨r, hr, rfl, -⟩ := (hmem c₀ hc₀ k).mp (hall c₀ hc₀)
    refine ⟨r, hr, rfl, hne, fun c hc' => ?_⟩
    obtain ⟨r', hr', hkey, hmatch⟩ := (hmem c hc' _).mp (hall c hc')
    rwa [Keyed.eq_of_key_eq hr' hr hkey] at hmatch
  · rintro ⟨r, hr, rfl, hne, hall⟩
    exact ⟨hne, fun c hc' => (hmem c hc' _).mpr ⟨r, hr, rfl, hall c hc'⟩⟩

/-- `ListByIndexes` lists the stored resources that every condition matches. -/
theorem listByIndexes_spec (ord : RowOrder) (h : IndexExact gs db)
    (hc : ∀ c ∈ indexes, c.Supported gs.indexers) :
    ∃ out, gs.listByIndexes ord db indexes = .ok out ∧
      Listing db.resources (MatchesAll gs.indexers indexes) out := by
  obtain ⟨ks, hks, -, hmem⟩ := getKeysByIndexes_spec ord h hc
  refine ⟨sortBy Resource.resourceKey (getByKeys ord db ks), ?_, fun r => ?_,
    ascending_sortBy (nodup_getByKeys ks)⟩
  · unfold GormStore.listByIndexes
    rw [hks]
    rfl
  · rw [mem_sortBy, mem_getByKeys, hmem]
    refine and_congr_right fun hr => ⟨?_, fun hmatch => ⟨r, hr, rfl, hmatch⟩⟩
    rintro ⟨r', hr', hkey, hmatch⟩
    rwa [Keyed.eq_of_key_eq hr' hr hkey] at hmatch

end Queries

/-! ## Pages -/

/-- `PageListByIndexes` agrees with `ListByIndexes`, for pages of size `n`, where the query at
offset `off` returns its rows in the order `ord off`. -/
def PagesAgree (gs : GormStore σ) (db : DB σ) (ord : ℕ → RowOrder) (indexes : List IndexCondition)
    (n : ℕ) : Prop :=
  ∃ out, (∀ ord', gs.listByIndexes ord' db indexes = .ok out) ∧
    PagesGive (fun off => gs.pageListByIndexes (ord off) db indexes ⟨off, n⟩) n out

section Paging

variable {gs : GormStore σ} {db : DB σ} {indexes : List IndexCondition} {n : ℕ}
  {out : List (Resource σ)}

theorem exists_listing (h : IndexExact gs db) (hc : ∀ c ∈ indexes, c.Supported gs.indexers) :
    ∃ out, (∀ ord, gs.listByIndexes ord db indexes = .ok out) ∧
      Listing db.resources (MatchesAll gs.indexers indexes) out := by
  obtain ⟨out, -, hout⟩ := listByIndexes_spec .insertion h hc
  refine ⟨out, fun ord => ?_, hout⟩
  obtain ⟨out', hlist, hout'⟩ := listByIndexes_spec ord h hc
  rw [hlist, hout'.unique hout fun _ => Iff.rfl]

/-- Each page reports the length of the listing, and holds what `GetByKeys` returns for the keys of
its slice. -/
theorem pageListByIndexes_spec (h : IndexExact gs db) (hc : ∀ c ∈ indexes, c.Supported gs.indexers)
    (hout : Listing db.resources (MatchesAll gs.indexers indexes) out) (ord : RowOrder) (off : ℕ) :
    gs.pageListByIndexes ord db indexes ⟨off, n⟩ = .ok ⟨out.length, off, n,
      getByKeys ord db (((out.drop off).take n).map Resource.resourceKey)⟩ := by
  obtain ⟨ks, hks, hnodup, hmem⟩ := getKeysByIndexes_spec ord h hc
  have hkeys : sortBy id ks = out.map Resource.resourceKey := by
    refine eq_of_ascending (ascending_sortBy (by rwa [List.map_id]))
      (List.pairwise_map.mpr hout.ascending) fun k => ?_
    rw [mem_sortBy, hmem, List.mem_map]
    simp only [hout.mem_iff, and_assoc, and_comm]
  unfold GormStore.pageListByIndexes
  rw [hks]
  simp only [hkeys, bind, Except.bind, List.length_map]
  split_ifs with hoff
  · have hnil : out.drop off = [] := List.drop_eq_nil_of_le hoff
    simp only [hnil, List.take_nil, List.map_nil, getByKeys, if_true]
    rfl
  · have hcut : (out.drop off).take (min (off + n) out.length - off) = (out.drop off).take n := by
      rw [List.take_eq_take_iff, List.length_drop]
      omega
    rw [← List.map_drop, ← List.map_take, hcut]
    rfl

/-- What `GetByKeys` returns for the keys of a part of the listing is that part, in some order. -/
theorem getByKeys_perm (hout : Listing db.resources (MatchesAll gs.indexers indexes) out)
    (ord : RowOrder) {part : List (Resource σ)} (hpart : part.Sublist out) :
    (getByKeys ord db (part.map Resource.resourceKey)).Perm part := by
  have hdistinct : part.Nodup := (List.Nodup.of_map _ hout.ascending.nodup).sublist hpart
  refine (List.perm_ext_iff_of_nodup (List.Nodup.of_map _ (nodup_getByKeys _)) hdistinct).mpr ?_
  intro r
  rw [mem_getByKeys, List.mem_map]
  constructor
  · rintro ⟨hr, r', hr', hkey⟩
    have hstored := ((hout.mem_iff r').mp (hpart.subset hr')).1
    rwa [Keyed.eq_of_key_eq hstored hr hkey] at hr'
  · exact fun hr => ⟨((hout.mem_iff r).mp (hpart.subset hr)).1, r, hr, rfl⟩

/-- Where no page can hold two resources, the pages are the slices of the listing. -/
theorem pagesGive_of_short (h : IndexExact gs db) (hc : ∀ c ∈ indexes, c.Supported gs.indexers)
    (hout : Listing db.resources (MatchesAll gs.indexers indexes) out) (ord : ℕ → RowOrder)
    (hn : 1 ≤ n) (hshort : n = 1 ∨ out.length ≤ 1) :
    PagesGive (fun off => gs.pageListByIndexes (ord off) db indexes ⟨off, n⟩) n out := by
  refine pagesGive_of_slices hn fun off =>
    ⟨_, pageListByIndexes_spec h hc hout (ord off) off, rfl, ?_⟩
  have hpart : ((out.drop off).take n).Sublist out :=
    (List.take_sublist _ _).trans (List.drop_sublist _ _)
  have hlen : ((out.drop off).take n).length ≤ 1 := by
    rw [List.length_take, List.length_drop]
    omega
  have hperm := getByKeys_perm hout (ord off) hpart
  match hslice : (out.drop off).take n, hlen with
  | [], _ =>
    rw [hslice] at hperm
    exact hperm.eq_nil
  | [_], _ =>
    rw [hslice] at hperm
    exact hperm.eq_singleton

/-- The reverse of the order of insertion. -/
def RowOrder.reversed : RowOrder := ⟨List.reverse, List.reverse_perm⟩

theorem length_le_one_of_ascending_reverse {l : List (Resource σ)}
    (h : Ascending Resource.resourceKey l) (h' : Ascending Resource.resourceKey l.reverse) :
    l.length ≤ 1 := by
  match l, h, List.pairwise_reverse.mp h' with
  | [], _, _ => exact Nat.zero_le 1
  | [_], _, _ => exact le_rfl
  | r₁ :: r₂ :: _, h, h' =>
    exact absurd ((List.pairwise_cons.mp h).1 r₂ List.mem_cons_self)
      (lt_asymm ((List.pairwise_cons.mp h').1 r₂ List.mem_cons_self))

/-- At most one stored resource meets the conditions exactly where the listing is that short. -/
theorem length_le_one_iff (hout : Listing db.resources (MatchesAll gs.indexers indexes) out) :
    out.length ≤ 1 ↔ ∀ r ∈ db.resources.items, ∀ r' ∈ db.resources.items,
      MatchesAll gs.indexers indexes r → MatchesAll gs.indexers indexes r' → r = r' := by
  constructor
  · intro hone r hr r' hr' hm hm'
    have hmem := (hout.mem_iff r).mpr ⟨hr, hm⟩
    have hmem' := (hout.mem_iff r').mpr ⟨hr', hm'⟩
    match out, hone, hmem, hmem' with
    | [_], _, hmem, hmem' => rw [List.mem_singleton.mp hmem, List.mem_singleton.mp hmem']
  · intro hone
    match out, hout with
    | [], _ => exact Nat.zero_le 1
    | [_], _ => exact le_rfl
    | r₁ :: r₂ :: _, hout =>
      have h₁ := (hout.mem_iff r₁).mp (by simp)
      have h₂ := (hout.mem_iff r₂).mp (by simp)
      have hlt := (List.pairwise_cons.mp hout.ascending).1 r₂ List.mem_cons_self
      rw [hone r₁ h₁.1 r₂ h₂.1 h₁.2 h₂.2] at hlt
      exact absurd hlt (lt_irrefl _)

/-- Whatever the order in which the database returns rows, the pages agree with the listing, if and
only if the pages have size one or at most one stored resource meets the conditions. -/
theorem pagesAgree_anyOrder_iff (h : IndexExact gs db)
    (hc : ∀ c ∈ indexes, c.Supported gs.indexers) (hn : 1 ≤ n) :
    (∀ ord, PagesAgree gs db ord indexes n) ↔
      n = 1 ∨ ∀ r ∈ db.resources.items, ∀ r' ∈ db.resources.items,
        MatchesAll gs.indexers indexes r → MatchesAll gs.indexers indexes r' → r = r' := by
  obtain ⟨out, hlist, hout⟩ := exists_listing h hc
  constructor
  · intro hall
    -- The first page in the order of insertion and in the reverse order starts the listing.
    have hfirst : ∀ ord, Ascending Resource.resourceKey
        (getByKeys ord db ((out.take n).map Resource.resourceKey)) := by
      intro ord
      obtain ⟨out', hlist', hgive⟩ := hall fun _ => ord
      obtain rfl := Except.ok.inj ((hlist ord).symm.trans (hlist' ord))
      obtain ⟨pd, hpd, -, hpre, -⟩ := hgive.first
      obtain rfl := Except.ok.inj ((pageListByIndexes_spec h hc hout ord 0).symm.trans hpd)
      exact hout.ascending.sublist hpre.sublist
    have hreversed : getByKeys RowOrder.reversed db ((out.take n).map Resource.resourceKey) =
        (getByKeys RowOrder.insertion db ((out.take n).map Resource.resourceKey)).reverse := by
      unfold getByKeys
      split_ifs
      · rfl
      · rfl
    have hlen := length_le_one_of_ascending_reverse (hfirst .insertion)
      (hreversed ▸ hfirst .reversed)
    rw [(getByKeys_perm hout .insertion (List.take_sublist n out)).length_eq,
      List.length_take] at hlen
    rcases Nat.lt_or_ge 1 n with hn' | hn'
    · exact .inr ((length_le_one_iff hout).mp (by omega))
    · exact .inl (le_antisymm hn' hn)
  · intro hshort ord
    exact ⟨out, hlist, pagesGive_of_short h hc hout ord hn
      (hshort.imp_right (length_le_one_iff hout).mpr)⟩

end Paging

/-- Two instances, inserted in descending order of their keys. -/
def samplePair : List (Resource String) :=
  [sampleInstance "j" "10.0.0.2", sampleInstance "i" "10.0.0.1"]

/-- The query for both instances. -/
def sampleQuery : List IndexCondition := [⟨"by-ip", "10.", .hasPrefix⟩]

theorem supported_sampleQuery : ∀ c ∈ sampleQuery, c.Supported sampleStore.indexers := by
  intro c hc
  rw [List.mem_singleton.mp hc]
  exact ⟨by decide, fun op hop => by cases hop⟩

/-- The pages of one instance each are right also when rows come last in, first out. -/
theorem pagesAgree_ofSizeOne : PagesAgree sampleStore (sampleDB samplePair samplePair)
    (fun _ => .reversed) sampleQuery 1 :=
  (pagesAgree_anyOrder_iff (fun _ _ _ => hasRow_flatMap_entries) supported_sampleQuery le_rfl).mpr
    (.inl rfl) fun _ => .reversed

/-- With rows in the order of insertion, the page of both instances holds them in that order, and
not by ascending key. -/
theorem page_keeps_insertion_order :
    IndexExact sampleStore (sampleDB samplePair samplePair) ∧
      (∀ c ∈ sampleQuery, c.Supported sampleStore.indexers) ∧
      ¬ PagesAgree sampleStore (sampleDB samplePair samplePair) (fun _ => .insertion)
        sampleQuery 2 := by
  refine ⟨fun _ _ _ => hasRow_flatMap_entries, supported_sampleQuery, ?_⟩
  rintro ⟨out, hlist, hgive⟩
  obtain rfl := Except.ok.inj ((hlist .insertion).symm.trans rfl)
  obtain ⟨pd, hpd, -, hpre, -⟩ := hgive.first
  obtain rfl := Except.ok.inj (hpd.symm.trans rfl)
  exact absurd hpre (by decide)

end DubboAdmin.Gorm
