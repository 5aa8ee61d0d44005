import Mathlib.Data.List.AList
import Mathlib.Data.List.Sort
import Mathlib.Data.String.Basic

/-!
# Collections with one object per key

`Keyed key` is a finite collection of objects with at most one object per key: a map whose keys are
read off the objects, or a table with a unique column. The objects keep the order in which their
keys came in, as the rows of a table do; every fact about contents is stated by `get?` or by
membership and does not depend on it.

`sortBy` lists objects by ascending key, and a listing that ascends strictly is determined by its
members (`eq_of_ascending`). `modify` updates the entry of a key of a finite map (`AList`).
-/

namespace DubboAdmin

/-- A finite collection with at most one object per key. -/
structure Keyed {α κ : Type} (key : α → κ) where
  /-- The objects, in the order in which their keys came in. -/
  items : List α
  nodup : (items.map key).Nodup

namespace Keyed

variable {α κ : Type} {key : α → κ}

/-- The empty collection. -/
def empty : Keyed key := ⟨[], List.nodup_nil⟩

/-- The keys that are present. -/
def keys (t : Keyed key) : List κ := t.items.map key

variable {t : Keyed key} {x y : α}

/-- Keys tell objects apart. -/
theorem eq_of_key_eq (hx : x ∈ t.items) (hy : y ∈ t.items) (h : key x = key y) : x = y :=
  List.inj_on_of_nodup_map t.nodup hx hy h

variable [DecidableEq κ]

/-- The object under a key, if there is one. -/
def get? (t : Keyed key) (k : κ) : Option α := t.items.find? fun x => key x = k

variable {k : κ}

/-- What is found is there, with the key. -/
theorem get?_eq_some_iff :
    t.get? k = some x ↔ x ∈ t.items ∧ key x = k := by
  constructor
  · intro h
    exact ⟨List.mem_of_find?_eq_some h, by simpa using List.find?_some h⟩
  · rintro ⟨hx, rfl⟩
    cases hf : t.get? (key x) with
    | none =>
      have := List.find?_eq_none.mp hf x hx
      simp at this
    | some y =>
      have hy : key y = key x := by simpa using List.find?_some hf
      rw [eq_of_key_eq (List.mem_of_find?_eq_some hf) hx hy]

/-- An object is found under its key. -/
theorem get?_key (hx : x ∈ t.items) : t.get? (key x) = some x :=
  get?_eq_some_iff.mpr ⟨hx, rfl⟩

/-- Nothing is found where no object has the key. -/
theorem get?_eq_none_iff : t.get? k = none ↔ ∀ x ∈ t.items, key x ≠ k := by
  unfold get?
  simp [List.find?_eq_none]

/-- The keys are those under which something is found. -/
theorem mem_keys_iff : k ∈ t.keys ↔ ∃ x, t.get? k = some x := by
  unfold keys
  rw [List.mem_map]
  constructor
  · rintro ⟨x, hx, rfl⟩
    exact ⟨x, get?_key hx⟩
  · rintro ⟨x, hx⟩
    exact ⟨x, get?_eq_some_iff.mp hx⟩

/-- `x` in place of the object with its key, if there is one. -/
def overwrite (key : α → κ) (x y : α) : α := if key y = key x then x else y

/-- Overwriting keeps the key. -/
theorem key_overwrite (x y : α) : key (overwrite key x y) = key y := by
  unfold overwrite
  split_ifs with h
  · exact h.symm
  · rfl

/-- The collection with `x` under its key: in the place of the object that had the key, or at the
end. -/
def put (t : Keyed key) (x : α) : Keyed key :=
  if h : t.get? (key x) = none then
    ⟨t.items ++ [x], by
      rw [List.map_append, List.map_singleton]
      refine t.nodup.append (List.nodup_singleton _) (List.disjoint_singleton.mpr ?_)
      rw [List.mem_map]
      rintro ⟨y, hy, hk⟩
      exact get?_eq_none_iff.mp h y hy hk⟩
  else
    ⟨t.items.map (overwrite key x), by
      have hmap : key ∘ overwrite key x = key := funext (key_overwrite x)
      rw [List.map_map, hmap]
      exact t.nodup⟩

/-- The collection without the object under `k`. -/
def erase (t : Keyed key) (k : κ) : Keyed key :=
  ⟨t.items.filter fun x => key x ≠ k, t.nodup.sublist (List.filter_sublist.map key)⟩

/-- The collection of a list, where a later object overwrites an earlier one with its key. -/
def ofList (l : List α) : Keyed key := l.foldl put empty

/-- The empty collection has no object. -/
@[simp]
theorem get?_empty (k : κ) : (empty : Keyed key).get? k = none := rfl

omit [DecidableEq κ] in
/-- A collection without objects is empty. -/
theorem eq_empty_of_forall_not_mem {t : Keyed key} (h : ∀ x, x ∉ t.items) : t = empty := by
  obtain ⟨items, nodup⟩ := t
  obtain rfl : items = [] := List.eq_nil_iff_forall_not_mem.mpr h
  rfl

/-- An object with a new key comes last. -/
theorem items_put_of_absent (h : t.get? (key x) = none) :
    (t.put x).items = t.items ++ [x] := by
  unfold put
  rw [dif_pos h]

/-- The members after `put`: the new object, and the old ones with other keys. -/
theorem mem_put :
    y ∈ (t.put x).items ↔ y = x ∨ y ∈ t.items ∧ key y ≠ key x := by
  unfold put
  split_ifs with h
  · have hne := get?_eq_none_iff.mp h
    simp only [List.mem_append, List.mem_singleton]
    constructor
    · rintro (hy | rfl)
      · exact .inr ⟨hy, hne y hy⟩
      · exact .inl rfl
    · rintro (rfl | ⟨hy, -⟩)
      · exact .inr rfl
      · exact .inl hy
  · obtain ⟨x', hx'⟩ := Option.ne_none_iff_exists'.mp h
    obtain ⟨hmem, hkey⟩ := get?_eq_some_iff.mp hx'
    simp only [List.mem_map, overwrite]
    constructor
    · rintro ⟨z, hz, rfl⟩
      split_ifs with hzx
      · exact .inl rfl
      · exact .inr ⟨hz, hzx⟩
    · rintro (rfl | ⟨hy, hne⟩)
      · exact ⟨x', hmem, if_pos hkey⟩
      · exact ⟨y, hy, if_neg hne⟩

/-- The objects with other keys are left. -/
theorem mem_erase :
    y ∈ (t.erase k).items ↔ y ∈ t.items ∧ key y ≠ k := by
  simp [erase]

/-- Without the key there is nothing to remove. -/
theorem erase_of_absent (h : t.get? k = none) : t.erase k = t := by
  obtain ⟨items, nodup⟩ := t
  have hitems : (items.filter fun x => key x ≠ k) = items :=
    List.filter_eq_self.mpr fun x hx => by simpa using get?_eq_none_iff.mp h x hx
  unfold erase
  congr

/-- Overwriting keeps what the two objects share. -/
theorem map_items_put {β : Type} {f : α → β} {old : α} (hget : t.get? (key x) = some old)
    (hf : f x = f old) :
    (t.put x).items.map f = t.items.map f := by
  have hpresent : ¬ t.get? (key x) = none := by
    rw [hget]
    exact Option.some_ne_none old
  obtain ⟨hold, hkey⟩ := get?_eq_some_iff.mp hget
  unfold put
  rw [dif_neg hpresent, List.map_map]
  refine List.map_congr_left fun y hy => ?_
  show f (overwrite key x y) = f y
  unfold overwrite
  split_ifs with hyx
  · rw [hf, eq_of_key_eq hold hy (hkey.trans hyx.symm)]
  · rfl

/-- A collection is what is under a key, and the rest. -/
theorem items_perm_erase (hget : t.get? k = some x) :
    t.items.Perm (x :: (t.erase k).items) := by
  obtain ⟨hx, hkey⟩ := get?_eq_some_iff.mp hget
  have hnotin : x ∉ (t.erase k).items := fun hmem => (mem_erase.mp hmem).2 hkey
  refine (List.perm_ext_iff_of_nodup (t.nodup.of_map key)
    (List.nodup_cons.mpr ⟨hnotin, (t.erase k).nodup.of_map key⟩)).mpr fun y => ?_
  rw [List.mem_cons, mem_erase]
  constructor
  · intro hy
    by_cases hk : key y = k
    · exact .inl (eq_of_key_eq hy hx (hk.trans hkey.symm))
    · exact .inr ⟨hy, hk⟩
  · rintro (rfl | ⟨hy, -⟩)
    · exact hx
    · exact hy

variable {t' : Keyed key}

/-- Only the members matter. -/
theorem mem_put_congr (h : ∀ y, y ∈ t.items ↔ y ∈ t'.items) :
    y ∈ (t.put x).items ↔ y ∈ (t'.put x).items := by
  rw [mem_put, mem_put, h]

/-- Only the members matter. -/
theorem mem_erase_congr (h : ∀ y, y ∈ t.items ↔ y ∈ t'.items) :
    y ∈ (t.erase k).items ↔ y ∈ (t'.erase k).items := by
  rw [mem_erase, mem_erase, h]

/-- Only the members with the key matter. -/
theorem get?_congr (h : ∀ x, key x = k → (x ∈ t.items ↔ x ∈ t'.items)) : t.get? k = t'.get? k := by
  apply Option.ext
  intro x
  rw [get?_eq_some_iff, get?_eq_some_iff]
  exact ⟨fun ⟨hx, hk⟩ => ⟨(h x hk).mp hx, hk⟩, fun ⟨hx, hk⟩ => ⟨(h x hk).mpr hx, hk⟩⟩

/-- What was put is found. -/
@[simp]
theorem get?_put_self (t : Keyed key) (x : α) : (t.put x).get? (key x) = some x :=
  get?_key (mem_put.mpr (.inl rfl))

/-- The other keys are as before. -/
theorem get?_put_ne (t : Keyed key) (h : k ≠ key x) :
    (t.put x).get? k = t.get? k := by
  apply get?_congr
  rintro y rfl
  rw [mem_put]
  exact ⟨fun hy => hy.elim (fun e => absurd (congrArg key e) h) And.left, fun hy => .inr ⟨hy, h⟩⟩

/-- What was removed is not found. -/
@[simp]
theorem get?_erase_self (t : Keyed key) (k : κ) : (t.erase k).get? k = none := by
  rw [get?_eq_none_iff]
  exact fun x hx => (mem_erase.mp hx).2

/-- The other keys are as before. -/
theorem get?_erase_ne (t : Keyed key) {k' : κ} (h : k' ≠ k) :
    (t.erase k).get? k' = t.get? k' := by
  apply get?_congr
  rintro y rfl
  rw [mem_erase]
  exact ⟨And.left, fun hy => ⟨hy, h⟩⟩

/-- The last object with a key is found. -/
theorem get?_foldl_put (l : List α) (t : Keyed key) (k : κ) :
    (l.foldl put t).get? k = (l.filter fun x => key x = k).getLast?.or (t.get? k) := by
  induction l generalizing t with
  | nil => rfl
  | cons x l ih =>
    rw [List.foldl_cons, ih]
    by_cases hx : key x = k
    · subst hx
      rw [get?_put_self, List.filter_cons_of_pos (by simp), List.getLast?_cons]
      cases (l.filter fun y => key y = key x).getLast? with
      | none => rfl
      | some y => rfl
    · rw [get?_put_ne t (Ne.symm hx), List.filter_cons_of_neg (by simpa using hx)]

/-- The last object with a key is found. -/
theorem get?_ofList (l : List α) (k : κ) :
    (ofList l : Keyed key).get? k = (l.filter fun x => key x = k).getLast? := by
  unfold ofList
  rw [get?_foldl_put, get?_empty, Option.or_none]

/-- The members are what is found. -/
theorem mem_iff_of_get?_eq (h : ∀ k, t.get? k = t'.get? k) (x : α) :
    x ∈ t.items ↔ x ∈ t'.items := by
  have hkey : ∀ u : Keyed key, x ∈ u.items ↔ u.get? (key x) = some x := by
    intro u
    rw [get?_eq_some_iff, and_iff_left rfl]
  rw [hkey, hkey, h]

variable {l : List α}

/-- The members of a list's collection are those that no later one overwrites. -/
theorem mem_foldl_put :
    y ∈ (l.foldl put t).items ↔
      (∃ l₁ l₂, l = l₁ ++ y :: l₂ ∧ ∀ z ∈ l₂, key z ≠ key y) ∨
        y ∈ t.items ∧ ∀ z ∈ l, key z ≠ key y := by
  induction l generalizing t with
  | nil => simp
  | cons x l ih =>
    rw [List.foldl_cons, ih, mem_put]
    constructor
    · rintro (⟨l₁, l₂, rfl, h⟩ | ⟨rfl | ⟨hy, hne⟩, h⟩)
      · exact .inl ⟨x :: l₁, l₂, rfl, h⟩
      · exact .inl ⟨[], l, rfl, h⟩
      · refine .inr ⟨hy, fun z hz => ?_⟩
        rcases List.mem_cons.mp hz with rfl | hz
        · exact hne.symm
        · exact h z hz
    · rintro (⟨l₁, l₂, hl, h⟩ | ⟨hy, h⟩)
      · rcases List.cons_eq_append_iff.mp hl with ⟨rfl, hl⟩ | ⟨l₁', rfl, hl⟩
        · obtain ⟨rfl, rfl⟩ := List.cons.inj hl
          exact .inr ⟨.inl rfl, h⟩
        · exact .inl ⟨l₁', l₂, (List.cons.inj hl).2, h⟩
      · exact .inr ⟨.inr ⟨hy, fun e => h x List.mem_cons_self e.symm⟩,
          fun z hz => h z (List.mem_cons_of_mem _ hz)⟩

/-- Objects with distinct keys are all found, and overwrite what had their keys. -/
theorem mem_foldl_put_of_nodup (hl : (l.map key).Nodup) :
    y ∈ (l.foldl put t).items ↔ y ∈ l ∨ y ∈ t.items ∧ key y ∉ l.map key := by
  induction l generalizing t with
  | nil => simp
  | cons x l ih =>
    obtain ⟨hnew, hl⟩ := List.nodup_cons.mp hl
    rw [List.foldl_cons, ih hl, mem_put, List.map_cons]
    constructor
    · rintro (hy | ⟨rfl | ⟨hy, hne⟩, hkeys⟩)
      · exact .inl (List.mem_cons_of_mem _ hy)
      · exact .inl List.mem_cons_self
      · exact .inr ⟨hy, List.not_mem_cons_of_ne_of_not_mem hne hkeys⟩
    · rintro (hy | ⟨hy, hkeys⟩)
      · rcases List.mem_cons.mp hy with rfl | hy
        · exact .inr ⟨.inl rfl, hnew⟩
        · exact .inl hy
      · obtain ⟨hne, hkeys⟩ := List.ne_and_not_mem_of_not_mem_cons hkeys
        exact .inr ⟨.inr ⟨hy, hne⟩, hkeys⟩

/-- A loop that removes keys leaves the others. -/
theorem mem_foldl_erase :
    y ∈ (l.foldl (fun t x => t.erase (key x)) t).items ↔ y ∈ t.items ∧ key y ∉ l.map key := by
  induction l generalizing t with
  | nil => simp
  | cons x l ih =>
    rw [List.foldl_cons, ih, mem_erase, List.map_cons, List.mem_cons, not_or, and_assoc]

/-- A member has no later object with its key. -/
theorem mem_ofList :
    y ∈ (ofList l : Keyed key).items ↔
      ∃ l₁ l₂, l = l₁ ++ y :: l₂ ∧ ∀ z ∈ l₂, key z ≠ key y := by
  unfold ofList
  rw [mem_foldl_put]
  simp [empty]

/-- The key of every object of a list is present in its collection. -/
theorem exists_get?_ofList (key : α → κ) (hx : x ∈ l) :
    ∃ y, (ofList l : Keyed key).get? (key x) = some y := by
  have present : ∀ (l : List α) (t : Keyed key),
      (∃ y, t.get? (key x) = some y) ∨ x ∈ l → ∃ y, (l.foldl put t).get? (key x) = some y := by
    intro l
    induction l with
    | nil => exact fun t h => h.resolve_right List.not_mem_nil
    | cons z l ih =>
      intro t h
      refine ih (t.put z) ?_
      by_cases hz : key x = key z
      · exact .inl ⟨z, by rw [hz, get?_put_self]⟩
      · rw [get?_put_ne t hz]
        refine h.imp_right fun hx => ?_
        rcases List.mem_cons.mp hx with rfl | hx
        · exact absurd rfl hz
        · exact hx
  exact present l empty (.inr hx)

/-- Where objects with the same key are the same, all objects of a list are found. -/
theorem mem_ofList_of_consistent (h : ∀ x ∈ l, ∀ y ∈ l, key x = key y → x = y) :
    y ∈ (ofList l : Keyed key).items ↔ y ∈ l := by
  have hget : (ofList l : Keyed key).get? (key y) = _ := get?_ofList l (key y)
  constructor
  · intro hy
    rw [get?_key hy] at hget
    have hlast := List.mem_of_getLast? hget.symm
    exact List.mem_of_mem_filter hlast
  · intro hy
    obtain ⟨x, hx⟩ := exists_get?_ofList key hy
    rw [hx] at hget
    have hlast := List.mem_filter.mp (List.mem_of_getLast? hget.symm)
    have hkey : key x = key y := of_decide_eq_true hlast.2
    rw [← h x hlast.1 y hy hkey]
    exact (get?_eq_some_iff.mp hx).1

end Keyed

/-! ## Listings by ascending key -/

section Ascending

variable {α κ : Type} [LinearOrder κ] {key : α → κ}

/-- The objects of a list by ascending key. -/
def sortBy (key : α → κ) (l : List α) : List α := l.insertionSort fun x y => key x ≤ key y

/-- A listing in which the keys ascend strictly. -/
def Ascending (key : α → κ) (l : List α) : Prop := l.Pairwise fun x y => key x < key y

/-- Sorting keeps the members. -/
@[simp]
theorem mem_sortBy {l : List α} {x : α} : x ∈ sortBy key l ↔ x ∈ l :=
  (List.perm_insertionSort _ l).mem_iff

/-- Distinct keys are sorted strictly. -/
theorem ascending_sortBy {l : List α} (h : (l.map key).Nodup) : Ascending key (sortBy key l) := by
  have htotal : Std.Total fun x y : α => key x ≤ key y := ⟨fun x y => le_total (key x) (key y)⟩
  have htrans : IsTrans α fun x y => key x ≤ key y := ⟨fun _ _ _ => le_trans⟩
  have hle : (sortBy key l).Pairwise fun x y => key x ≤ key y := List.pairwise_insertionSort _ l
  have hne : (sortBy key l).Pairwise fun x y => key x ≠ key y := by
    rw [← List.pairwise_map]
    exact ((List.perm_insertionSort _ l).map key).nodup_iff.mpr h
  exact (hle.and hne).imp fun ⟨h₁, h₂⟩ => lt_of_le_of_ne h₁ h₂

/-- The members determine an ascending list. -/
theorem eq_of_ascending {l l' : List α} (h : Ascending key l) (h' : Ascending key l')
    (hmem : ∀ x, x ∈ l ↔ x ∈ l') : l = l' := by
  have hirr : Std.Irrefl fun x y : α => key x < key y := ⟨fun x => lt_irrefl (key x)⟩
  have hasymm : Std.Antisymm fun x y : α => key x < key y :=
    ⟨fun _ _ h₁ h₂ => absurd h₁ (lt_asymm h₂)⟩
  exact List.Pairwise.eq_of_mem_iff h h' (fun x => hmem x)

/-- The keys of an ascending list are distinct. -/
theorem Ascending.nodup {l : List α} (h : Ascending key l) : (l.map key).Nodup :=
  List.pairwise_map.mpr (h.imp ne_of_lt)

end Ascending

/-! ## Maps updated entry by entry -/

section Maps

variable {κ β : Type} [DecidableEq κ] {γ : κ → Type}

/-- The map with `f` applied to the entry of `k`, where there is one. -/
def modify (m : AList fun _ : κ => β) (k : κ) (f : β → β) : AList fun _ : κ => β :=
  match m.lookup k with
  | none => m
  | some b => m.insert k (f b)

/-- The entry of the key is changed. -/
theorem lookup_modify_self (m : AList fun _ : κ => β) (k : κ) (f : β → β) :
    (modify m k f).lookup k = (m.lookup k).map f := by
  unfold modify
  cases h : m.lookup k with
  | none => simp [h]
  | some b => simp

/-- The other entries stay. -/
theorem lookup_modify_ne (m : AList fun _ : κ => β) {k k' : κ} (f : β → β) (h : k' ≠ k) :
    (modify m k f).lookup k' = m.lookup k' := by
  unfold modify
  cases m.lookup k with
  | none => rfl
  | some b => exact AList.lookup_insert_ne h

/-- No key comes or goes. -/
theorem mem_modify {m : AList fun _ : κ => β} {k k' : κ} {f : β → β} :
    k' ∈ modify m k f ↔ k' ∈ m := by
  rw [← AList.lookup_isSome, ← AList.lookup_isSome]
  by_cases h : k' = k
  · rw [h, lookup_modify_self, Option.isSome_map]
  · rw [lookup_modify_ne m f h]

/-- A loop over entries with distinct keys that updates the entry of each round's key. -/
theorem lookup_foldl_modify {es : List (Sigma γ)} (hes : es.NodupKeys)
    (f : Sigma γ → β → β) (m : AList fun _ : κ => β) (k : κ) :
    (es.foldl (fun m e => modify m e.1 (f e)) m).lookup k =
      match es.dlookup k with
      | none => m.lookup k
      | some c => (m.lookup k).map (f ⟨k, c⟩) := by
  induction es generalizing m with
  | nil => rfl
  | cons e es ih =>
    obtain ⟨he, hes⟩ := List.nodupKeys_cons.mp hes
    rw [List.foldl_cons, ih hes]
    by_cases hk : k = e.1
    · subst hk
      -- No later round touches this key.
      rw [List.dlookup_eq_none.mpr he, List.dlookup_cons_eq]
      exact lookup_modify_self m _ _
    · rw [List.dlookup_cons_ne _ _ hk, lookup_modify_ne m _ hk]

/-- The map with the keys of `m` and the one value `b`. -/
def fillWith (m : AList γ) (b : β) : AList fun _ : κ => β :=
  ⟨m.entries.map (Sigma.map id fun _ _ => b), List.NodupKeys.map₂ _ _ m.nodupKeys⟩

omit [DecidableEq κ] in
/-- No key comes or goes. -/
theorem mem_fillWith {m : AList γ} {b : β} {k : κ} : k ∈ fillWith m b ↔ k ∈ m := by
  rw [AList.mem_keys, AList.mem_keys]
  unfold AList.keys fillWith
  rw [List.map₂_keys]

/-- Every entry has the value. -/
theorem lookup_fillWith (m : AList γ) (b : β) (k : κ) :
    (fillWith m b).lookup k = (m.lookup k).map fun _ => b :=
  List.dlookup_map₂ k

/-- A map of one entry has no other. -/
theorem eq_of_lookup_singleton {k k' : κ} {b b' : β}
    (h : (AList.singleton k b : AList fun _ : κ => β).lookup k' = some b') : k' = k ∧ b' = b := by
  have hmem := List.of_mem_dlookup (Option.mem_def.mpr h)
  obtain ⟨hk, hb⟩ := Sigma.mk.inj (List.mem_singleton.mp hmem)
  exact ⟨hk, eq_of_heq hb⟩

end Maps

/-! ## Maps, walked over in any order -/

/-- The order in which the keys of a map are walked over, which may be any. -/
structure WalkOrder (κ : Type) where
  /-- The keys, in the order in which they are walked over. -/
  order : List κ → List κ
  perm : ∀ keys, (order keys).Perm keys

/-- The order in which the keys are given. -/
def WalkOrder.given (κ : Type) : WalkOrder κ := ⟨id, fun l => .refl l⟩

end DubboAdmin
