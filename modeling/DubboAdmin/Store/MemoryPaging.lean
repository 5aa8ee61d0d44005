import DubboAdmin.Store.MemoryIndex

/-!
# The memory store's pages

`PageListByIndexes` walks the sorted keys that the conditions name, skips those that have no object,
and lowers its own loop bound at each of them. So the pages agree with `ListByIndexes`
(`PagesAgree`) exactly when every named key has an object, or only one key is named
(`pagesAgree_iff`).

The proof looks at the first two pages. A page's total misses the stale keys that the page did not
reach (`le_pageLoop_total`), so a right total on the second page puts every stale key behind the
first page; but then the first page fills up before it reaches one (`pageLoop_total_of_live`).
-/

namespace DubboAdmin.Memory

variable {σ : Type}

/-- `PageListByIndexes` agrees with `ListByIndexes`, for pages of size `n`. -/
def PagesAgree (rs : ResourceStore σ) (indexes : List IndexCondition) (n : ℕ) : Prop :=
  ∃ out, rs.listByIndexes indexes = .ok out ∧
    PagesGive (fun off => rs.pageListByIndexes indexes ⟨off, n⟩) n out

/-- Every condition names the key `k`. -/
def Named (rs : ResourceStore σ) (indexes : List IndexCondition) (k : String) : Prop :=
  indexes ≠ [] ∧ ∀ c ∈ indexes, rs.Candidate c k

/-! ## The loop -/

section Loop

variable {rs : ResourceStore σ} {n : ℕ}

/-- Over keys that all have objects, the loop takes the next objects until the page is full. -/
theorem pageLoop_of_live {out : List (Resource σ)}
    (h : ∀ r ∈ out, rs.stored.get? r.resourceKey = some r) (i : ℕ) (acc : List (Resource σ)) :
    rs.pageLoop n (out.map Resource.resourceKey) i (i + out.length) acc =
      (i + out.length, acc ++ out.take (n - acc.length)) := by
  induction out generalizing i acc with
  | nil => simp [ResourceStore.pageLoop]
  | cons r out ih =>
    have ih' := ih (fun r hr => h r (List.mem_cons_of_mem _ hr)) (i + 1) (acc ++ [r])
    rw [List.map_cons, ResourceStore.pageLoop]
    split_ifs with hcond
    · have hlen : i + (r :: out).length = i + 1 + out.length := by
        rw [List.length_cons]
        omega
      have hroom : n - acc.length = n - (acc ++ [r]).length + 1 := by
        rw [List.length_append, List.length_singleton]
        omega
      rw [h r List.mem_cons_self]
      simp only [hlen, ih', hroom, List.take_succ_cons, List.append_assoc, List.singleton_append]
    · have hfull : n - acc.length = 0 := by
        rw [List.length_cons] at hcond
        omega
      rw [hfull, List.take_zero, List.append_nil]

/-- The number of keys without an object. -/
def staleCount (rs : ResourceStore σ) (keys : List String) : ℕ :=
  keys.countP fun k => rs.stored.get? k = none

/-- The loop lowers the total at most once for each key without an object. -/
theorem le_pageLoop_total (rs : ResourceStore σ) (n : ℕ) (keys : List String) (i total : ℕ)
    (acc : List (Resource σ)) :
    total ≤ (rs.pageLoop n keys i total acc).1 + staleCount rs keys := by
  induction keys generalizing i total acc with
  | nil => simp [ResourceStore.pageLoop]
  | cons k keys ih =>
    unfold ResourceStore.pageLoop staleCount
    rw [List.countP_cons]
    split_ifs with hcond hstale hstale
    · have hnone : rs.stored.get? k = none := of_decide_eq_true hstale
      have ih' := ih (i + 1) (total - 1) acc
      simp only [hnone]
      unfold staleCount at ih'
      omega
    · obtain ⟨r, hr⟩ := Option.ne_none_iff_exists'.mp (of_decide_eq_false (by simpa using hstale))
      have ih' := ih (i + 1) total (acc ++ [r])
      simp only [hr]
      unfold staleCount at ih'
      omega
    · exact Nat.le_add_right _ _
    · exact Nat.le_add_right _ _

/-- Where the keys that fill the page all have objects, the total stays as it is. -/
theorem pageLoop_total_of_live {keys : List String} (i total : ℕ) {acc : List (Resource σ)}
    (h : ∀ k ∈ keys.take (n - acc.length), ∃ r, rs.stored.get? k = some r) :
    (rs.pageLoop n keys i total acc).1 = total := by
  induction keys generalizing i acc with
  | nil => rfl
  | cons k keys ih =>
    unfold ResourceStore.pageLoop
    split_ifs with hcond
    · have hroom : n - acc.length = n - acc.length - 1 + 1 := by omega
      rw [hroom, List.take_succ_cons, List.forall_mem_cons] at h
      obtain ⟨⟨r, hr⟩, hrest⟩ := h
      simp only [hr]
      apply ih
      rwa [List.length_append, List.length_singleton, ← Nat.sub_sub]
    · rfl

/-- The loop stops about halfway when it only lowers the total: the index and the bound meet. -/
theorem add_le_pageLoop_total (rs : ResourceStore σ) (n : ℕ) (keys : List String) {i total : ℕ}
    (acc : List (Resource σ)) (h : i ≤ total + 1) :
    i + total ≤ 2 * (rs.pageLoop n keys i total acc).1 + 1 := by
  induction keys generalizing i total acc with
  | nil =>
    simp only [ResourceStore.pageLoop]
    omega
  | cons k keys ih =>
    unfold ResourceStore.pageLoop
    split_ifs with hcond
    · cases hget : rs.stored.get? k with
      | none =>
        have ih' := ih acc (show i + 1 ≤ total - 1 + 1 by omega)
        dsimp only
        omega
      | some r =>
        have ih' := ih (acc ++ [r]) (show i + 1 ≤ total + 1 by omega)
        dsimp only
        omega
    · dsimp only
      omega

end Loop

/-! ## The pages of a query -/

section Query

variable {rs : ResourceStore σ} {indexes : List IndexCondition} {n : ℕ}

/-- `keys` is the sorted key list over which the pages of a query loop. -/
structure PageKeys (rs : ResourceStore σ) (indexes : List IndexCondition) (n : ℕ)
    (keys : List String) : Prop where
  ascending : Ascending id keys
  mem_iff : ∀ k, k ∈ keys ↔ Named rs indexes k
  page : ∀ off, rs.pageListByIndexes indexes ⟨off, n⟩ =
    .ok ⟨(rs.pageLoop n (keys.drop off) off keys.length []).1, off, n,
      (rs.pageLoop n (keys.drop off) off keys.length []).2⟩

theorem exists_pageKeys (h : rs.TreesRegistered) (hc : ∀ c ∈ indexes, c.Supported rs.indexers) :
    ∃ keys, PageKeys rs indexes n keys := by
  obtain ⟨ks, hks, hnodup, hmem⟩ := getKeysByIndexes_spec h hc
  refine ⟨sortBy id ks, ascending_sortBy (by rwa [List.map_id]), fun k => ?_, fun off => ?_⟩
  · rw [mem_sortBy, hmem]
    rfl
  · unfold ResourceStore.pageListByIndexes
    rw [hks]
    rfl

variable {keys : List String} {out : List (Resource σ)}

theorem mem_map_resourceKey_iff (hkeys : PageKeys rs indexes n keys)
    (hout : Listing rs.stored (fun r => Named rs indexes r.resourceKey) out) {k : String} :
    k ∈ out.map Resource.resourceKey ↔ k ∈ keys ∧ ∃ r, rs.stored.get? k = some r := by
  simp only [hkeys.mem_iff, Keyed.get?_eq_some_iff, List.mem_map, hout.mem_iff]
  constructor
  · rintro ⟨r, ⟨hr, hk⟩, rfl⟩
    exact ⟨hk, r, hr, rfl⟩
  · rintro ⟨hk, r, hr, rfl⟩
    exact ⟨r, ⟨hr, hk⟩, rfl⟩

/-- The listed resources and the keys without an object make up the key list. -/
theorem length_add_staleCount (hkeys : PageKeys rs indexes n keys)
    (hout : Listing rs.stored (fun r => Named rs indexes r.resourceKey) out) :
    out.length + staleCount rs keys = keys.length := by
  have hnodup : keys.Nodup := by simpa using hkeys.ascending.nodup
  have hlive : (keys.filter fun k => decide (¬ rs.stored.get? k = none)).Perm
      (out.map Resource.resourceKey) := by
    refine (List.perm_ext_iff_of_nodup (hnodup.filter _) hout.ascending.nodup).mpr fun k => ?_
    rw [mem_map_resourceKey_iff hkeys hout, List.mem_filter, decide_eq_true_eq,
      ← Option.ne_none_iff_exists']
  have hlen := hlive.length_eq
  have hsplit := List.length_eq_countP_add_countP (fun k => rs.stored.get? k = none) (l := keys)
  rw [List.length_map, ← List.countP_eq_length_filter] at hlen
  unfold staleCount
  simp only [decide_eq_true_eq] at hsplit
  omega

/-- Where every key has an object, the pages are the slices of the listing. -/
theorem pagesGive_of_live (hkeys : PageKeys rs indexes n keys)
    (hout : Listing rs.stored (fun r => Named rs indexes r.resourceKey) out) (hn : 1 ≤ n)
    (hlive : ∀ k, Named rs indexes k → ∃ r, rs.stored.get? k = some r) :
    PagesGive (fun off => rs.pageListByIndexes indexes ⟨off, n⟩) n out := by
  obtain rfl : keys = out.map Resource.resourceKey := by
    refine eq_of_ascending hkeys.ascending (List.pairwise_map.mpr hout.ascending) fun k => ?_
    rw [mem_map_resourceKey_iff hkeys hout]
    exact ⟨fun hk => ⟨hk, hlive k ((hkeys.mem_iff k).mp hk)⟩, And.left⟩
  refine pagesGive_of_slices hn fun off => ⟨_, hkeys.page off, ?_⟩
  rw [← List.map_drop, List.length_map]
  have hget : ∀ r ∈ out.drop off, rs.stored.get? r.resourceKey = some r := fun r hr =>
    Keyed.get?_key ((hout.mem_iff r).mp (List.mem_of_mem_drop hr)).1
  rcases le_total out.length off with hoff | hoff
  · rw [List.drop_eq_nil_of_le hoff, List.take_nil]
    exact ⟨rfl, rfl⟩
  · have hlen : out.length = off + (out.drop off).length := by
      rw [List.length_drop]
      omega
    rw [hlen, pageLoop_of_live hget off []]
    exact ⟨rfl, rfl⟩

/-- A single key without an object gives one page, which is empty and reports none. -/
theorem pagesGive_of_singleton {k : String} (hkeys : PageKeys rs indexes n [k])
    (hout : Listing rs.stored (fun r => Named rs indexes r.resourceKey) out) (hn : 1 ≤ n)
    (hstale : rs.stored.get? k = none) :
    PagesGive (fun off => rs.pageListByIndexes indexes ⟨off, n⟩) n out := by
  have hpage : rs.pageListByIndexes indexes ⟨0, n⟩ = .ok ⟨0, 0, n, []⟩ := by
    have hpos : 0 < n := hn
    rw [hkeys.page 0]
    simp [ResourceStore.pageLoop, hstale, hpos]
  have hnil : out = [] := by
    refine List.eq_nil_iff_forall_not_mem.mpr fun r hr => ?_
    obtain ⟨hk, r', hr'⟩ := (mem_map_resourceKey_iff hkeys hout).mp (List.mem_map_of_mem hr)
    rw [List.mem_singleton.mp hk, hstale] at hr'
    cases hr'
  subst hnil
  exact ⟨_, .last hpage rfl, rfl, by simp⟩

/-- Where a key has no object and the pages are right all the same, there is no other key. -/
theorem length_eq_one_of_pagesGive (hkeys : PageKeys rs indexes n keys)
    (hout : Listing rs.stored (fun r => Named rs indexes r.resourceKey) out)
    (hgive : PagesGive (fun off => rs.pageListByIndexes indexes ⟨off, n⟩) n out)
    (hstale : 0 < staleCount rs keys) : keys.length = 1 := by
  have hlen := length_add_staleCount hkeys hout
  obtain ⟨pd, hpd, htotal, -, hempty, hnext⟩ := hgive.first
  obtain rfl := Except.ok.inj ((hkeys.page 0).symm.trans hpd)
  simp only [List.drop_zero] at htotal hempty hnext
  by_cases hdata : (rs.pageLoop n keys 0 keys.length []).2 = []
  · -- Nothing is listed, so the first page's total is `0`.
    have hbound := add_le_pageLoop_total rs n keys [] (Nat.zero_le (keys.length + 1))
    rw [htotal, hempty hdata, List.length_nil] at hbound
    omega
  · -- The second page has seen every stale key, so the first page sees none.
    obtain ⟨pd', hpd', htotal'⟩ := hnext hdata
    obtain rfl := Except.ok.inj ((hkeys.page n).symm.trans hpd')
    have hbehind := le_pageLoop_total rs n (keys.drop n) n keys.length []
    have hsplit : staleCount rs (keys.take n) + staleCount rs (keys.drop n) =
        staleCount rs keys := by
      unfold staleCount
      rw [← List.countP_append, List.take_append_drop]
    have hfront : staleCount rs (keys.take n) = 0 := by
      simp only at htotal'
      omega
    have hlive : ∀ k ∈ keys.take (n - ([] : List (Resource σ)).length),
        ∃ r, rs.stored.get? k = some r := by
      intro k hk
      rw [← Option.ne_none_iff_exists']
      have hk' := List.countP_eq_zero.mp hfront k hk
      simpa using hk'
    have hfull := pageLoop_total_of_live 0 keys.length hlive
    rw [htotal] at hfull
    omega

end Query

/-! ## Runs -/

/-- Every operation keeps one tree for each registered index. -/
theorem step_treesRegistered {rs rs' : ResourceStore σ} {op : Op σ} (h : rs.TreesRegistered)
    (hstep : Step rs op rs') : rs'.TreesRegistered := by
  cases op with
  | add r =>
    rw [add_eq_ok hstep]
    exact TreesRegistered.addToTrees h r
  | update r =>
    obtain ⟨-, rfl⟩ | ⟨old, -, rfl⟩ := update_eq_ok hstep
    · exact TreesRegistered.addToTrees h r
    · exact TreesRegistered.addToTrees (TreesRegistered.removeFromTrees h old) r
  | delete r =>
    rw [delete_eq_ok hstep]
    exact TreesRegistered.removeFromTrees h r
  | replace list =>
    obtain ⟨-, hindexers, htrees, -⟩ := replace_eq_ok hstep
    intro n
    rw [htrees, hindexers]
    exact h n
  | addIndexers newIndexers =>
    obtain ⟨-, -, hindexers, htrees⟩ := addIndexers_eq_ok hstep
    intro n
    rw [htrees, hindexers, AList.mem_union, AList.mem_union, or_comm]
    exact or_congr mem_fillWith (h n)

theorem run_treesRegistered {indexers : Indexers σ} {ops : List (Op σ)} {rs : ResourceStore σ}
    (h : Run Step (init indexers) ops rs) : rs.TreesRegistered :=
  h.invariant ResourceStore.TreesRegistered (treesExact_init indexers).registered
    fun _ _ _ => step_treesRegistered

theorem TreesExact.live {rs : ResourceStore σ} (h : TreesExact rs) {c : IndexCondition} {k : String}
    (hk : rs.Candidate c k) : ∃ r, rs.stored.get? k = some r := by
  obtain ⟨n, v, op⟩ := c
  cases op with
  | equals =>
    obtain ⟨r, hr, hkey, -⟩ := hk
    exact ⟨r, Keyed.get?_eq_some_iff.mpr ⟨hr, hkey⟩⟩
  | hasPrefix =>
    obtain ⟨r, hr, hkey, -⟩ := (candidate_hasPrefix_iff h).mp hk
    exact ⟨r, Keyed.get?_eq_some_iff.mpr ⟨hr, hkey⟩⟩
  | other op => exact hk.elim

/-- What the pages need of a state: every key that the conditions name has an object, or they name
exactly one key. -/
def PageableState (rs : ResourceStore σ) (indexes : List IndexCondition) : Prop :=
  (∀ k, Named rs indexes k → ∃ r, rs.stored.get? k = some r) ∨
    ∃ k, ∀ k', Named rs indexes k' ↔ k' = k

/-- With one tree per index, the pages agree with the listing exactly in a pageable state. -/
theorem pagesAgree_iff_pageableState {rs : ResourceStore σ} (h : rs.TreesRegistered)
    {indexes : List IndexCondition} (hc : ∀ c ∈ indexes, c.Supported rs.indexers) {n : ℕ}
    (hn : 1 ≤ n) : PagesAgree rs indexes n ↔ PageableState rs indexes := by
  obtain ⟨out, hlist, hout⟩ := listByIndexes_spec h hc
  obtain ⟨keys, hkeys⟩ := exists_pageKeys (n := n) h hc
  constructor
  · rintro ⟨out', hlist', hgive⟩
    obtain rfl := Except.ok.inj (hlist.symm.trans hlist')
    rcases Nat.eq_zero_or_pos (staleCount rs keys) with hzero | hpos
    · refine .inl fun k hk => Option.ne_none_iff_exists'.mp ?_
      simpa using List.countP_eq_zero.mp hzero k ((hkeys.mem_iff k).mpr hk)
    · obtain ⟨k, rfl⟩ := List.length_eq_one_iff.mp
        (length_eq_one_of_pagesGive hkeys hout hgive hpos)
      exact .inr ⟨k, fun k' => by rw [← hkeys.mem_iff, List.mem_singleton]⟩
  · rintro (hlive | ⟨k, hk⟩)
    · exact ⟨out, hlist, pagesGive_of_live hkeys hout hn hlive⟩
    · have hsingle : keys = [k] := by
        refine eq_of_ascending hkeys.ascending (List.pairwise_singleton _ _) fun k' => ?_
        rw [hkeys.mem_iff, hk, List.mem_singleton]
      rw [hsingle] at hkeys
      refine ⟨out, hlist, ?_⟩
      cases hget : rs.stored.get? k with
      | none => exact pagesGive_of_singleton hkeys hout hn hget
      | some r =>
        refine pagesGive_of_live hkeys hout hn fun k' hk' => ?_
        rw [(hk k').mp hk']
        exact ⟨r, hget⟩

/-- In every state that a run reaches, the pages of a supported query agree with its listing exactly
where the state is pageable for it; and they agree in every state that a run of operations which
meet `GoodStep` reaches. -/
theorem pagesAgree_iff {indexers : Indexers σ} {ops : List (Op σ)} {rs : ResourceStore σ}
    (h : Run Step (init indexers) ops rs) {indexes : List IndexCondition}
    (hc : ∀ c ∈ indexes, c.Supported rs.indexers) {n : ℕ} (hn : 1 ≤ n) :
    (PagesAgree rs indexes n ↔ PageableState rs indexes) ∧
      (Run (Guarded GoodStep Step) (init indexers) ops rs → PagesAgree rs indexes n) := by
  have hiff := pagesAgree_iff_pageableState (run_treesRegistered h) hc hn
  refine ⟨hiff, fun hgood => hiff.mpr (.inl fun k hk => ?_)⟩
  obtain ⟨hne, hcand⟩ := hk
  obtain ⟨c, hmem⟩ := List.exists_mem_of_ne_nil _ hne
  exact (run_treesExact hgood).live (hcand c hmem)

/-- The sample run, and pages of one instance. -/
theorem pagesAgree_after_update : PagesAgree
    (sampleStore "192.168.1.7" ["192.168.1.7/mesh/i"]) [⟨"by-ip", "192.168.", .hasPrefix⟩] 1 := by
  refine (pagesAgree_iff sampleRun.of_guarded ?_ le_rfl).2 sampleRun
  simp only [List.forall_mem_singleton]
  exact ⟨by decide, fun op hop => by cases hop⟩

/-- A store that holds the instance `j`, and a string of the instance `i` in its tree. -/
def sampleStaleStore : ResourceStore String :=
  ⟨⟨Keyed.ofList [sampleInstance "j" "10.0.0.2"], sampleIndexers⟩,
    AList.singleton "by-ip" ["10.0.0.2/mesh/j", "10.0.0.1/mesh/i"]⟩

/-- Two instances are added, and the first is deleted by an object with another address, so that its
string stays in the tree. The only page of the query for both is empty: the loop lowers its bound to
`1` at the first key and does not look at the second. -/
theorem staleKey_loses_instance :
    Run Step (init sampleIndexers)
        [.add (sampleInstance "i" "10.0.0.1"), .add (sampleInstance "j" "10.0.0.2"),
          .delete (sampleInstance "i" "192.168.1.7")] sampleStaleStore ∧
      (∀ c ∈ [(⟨"by-ip", "10.", .hasPrefix⟩ : IndexCondition)],
        c.Supported sampleStaleStore.indexers) ∧
      ¬ PagesAgree sampleStaleStore [⟨"by-ip", "10.", .hasPrefix⟩] 10 := by
  have hadd : Step (init sampleIndexers) (.add (sampleInstance "i" "10.0.0.1"))
      (sampleStore "10.0.0.1" ["10.0.0.1/mesh/i"]) := rfl
  have hadd' : Step (sampleStore "10.0.0.1" ["10.0.0.1/mesh/i"])
      (.add (sampleInstance "j" "10.0.0.2"))
      ⟨⟨Keyed.ofList [sampleInstance "i" "10.0.0.1", sampleInstance "j" "10.0.0.2"],
        sampleIndexers⟩, AList.singleton "by-ip" ["10.0.0.2/mesh/j", "10.0.0.1/mesh/i"]⟩ := rfl
  have hdelete : Step
      ⟨⟨Keyed.ofList [sampleInstance "i" "10.0.0.1", sampleInstance "j" "10.0.0.2"],
        sampleIndexers⟩, AList.singleton "by-ip" ["10.0.0.2/mesh/j", "10.0.0.1/mesh/i"]⟩
      (.delete (sampleInstance "i" "192.168.1.7")) sampleStaleStore := rfl
  refine ⟨.snoc (.snoc (.snoc .nil hadd) hadd') hdelete, ?_, ?_⟩
  · simp only [List.forall_mem_singleton]
    exact ⟨by decide, fun op hop => by cases hop⟩
  · rintro ⟨out, hout, hgive⟩
    have hlisted : out = [sampleInstance "j" "10.0.0.2"] := Except.ok.inj (hout.symm.trans rfl)
    obtain ⟨pd, hpd, -, -, hempty, -⟩ := hgive.first
    have hdata : pd.data = [] := by
      obtain rfl := Except.ok.inj (hpd.symm.trans rfl)
      decide
    rw [hempty hdata] at hlisted
    cases hlisted

end DubboAdmin.Memory
