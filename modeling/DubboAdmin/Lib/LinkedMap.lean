import Mathlib.Data.List.AList
import Mathlib.Data.List.Perm.Basic

/-!
# A linked list with a map into it

A doubly linked list holds values in the order in which they came, and a map finds the cell of a
value by its key, so that the value can be taken out of the middle of the list. Both are updated
together (`pushBack`, `remove`), and `Linked` says that they hold the same cells. `removeWhile`
takes values from the front as long as they pass a check; where the check passes for no value behind
one that it rejects, it takes just the values that pass (`removeWhile_spec`, `mem_dropWhile_iff`).
-/

namespace DubboAdmin

/-- A cell of a linked list. -/
structure Cell (α : Type) where
  /-- The address of the cell, by which it is told apart from all others. -/
  ptr : ℕ
  value : α
deriving DecidableEq, Repr

/-- A linked list and a map to its cells. -/
structure LinkedMap (κ α : Type) where
  items : AList fun _ : κ => Cell α
  queue : List (Cell α)
  next : ℕ

namespace LinkedMap

variable {κ α : Type} [DecidableEq κ] {key : α → κ} {m : LinkedMap κ α} {c c' : Cell α} {a : α}

/-- Neither cells nor keys. -/
def empty : LinkedMap κ α := ⟨∅, [], 0⟩

/-- A value at the end of the list. -/
def pushBack (key : α → κ) (m : LinkedMap κ α) (a : α) : LinkedMap κ α where
  items := m.items.insert (key a) ⟨m.next, a⟩
  queue := m.queue ++ [⟨m.next, a⟩]
  next := m.next + 1

/-- The cell is taken out of the list, and its key out of the map. -/
def remove (key : α → κ) (m : LinkedMap κ α) (c : Cell α) : LinkedMap κ α :=
  { m with
    items := m.items.erase (key c.value)
    queue := m.queue.filter fun c' => c'.ptr ≠ c.ptr }

/-- In at most the given rounds, the first cell is taken out as long as its value passes a check. -/
def removeWhile (key : α → κ) (check : α → Bool) : ℕ → LinkedMap κ α → LinkedMap κ α
  | 0, m => m
  | rounds + 1, m =>
    match m.queue with
    | [] => m
    | c :: _ => if check c.value then removeWhile key check rounds (m.remove key c) else m

/-- The list and the map hold the same cells. -/
structure Linked (key : α → κ) (m : LinkedMap κ α) : Prop where
  lookup : ∀ k c, m.items.lookup k = some c ↔ c ∈ m.queue ∧ key c.value = k
  ptrs : (m.queue.map Cell.ptr).Nodup
  fresh : ∀ c ∈ m.queue, c.ptr < m.next

/-! ## Cells -/

omit [DecidableEq κ] in
theorem eq_of_ptr_eq (h : (m.queue.map Cell.ptr).Nodup) (hc : c ∈ m.queue) (hc' : c' ∈ m.queue)
    (hptr : c.ptr = c'.ptr) : c = c' :=
  List.inj_on_of_nodup_map h hc hc' hptr

theorem Linked.eq_of_key_eq (h : m.Linked key) (hc : c ∈ m.queue) (hc' : c' ∈ m.queue)
    (hkey : key c.value = key c'.value) : c = c' := by
  have hfind := (h.lookup _ c).mpr ⟨hc, rfl⟩
  have hfind' := (h.lookup _ c').mpr ⟨hc', rfl⟩
  rw [hkey] at hfind
  exact Option.some.inj (hfind.symm.trans hfind')

/-- The map has as many keys as the list has cells. -/
theorem Linked.length_items (h : m.Linked key) : m.items.entries.length = m.queue.length := by
  have hnodup : (m.queue.map fun c => key c.value).Nodup :=
    (List.nodup_map_iff_inj_on (h.ptrs.of_map _)).mpr fun _ hc _ hc' hkey =>
      h.eq_of_key_eq hc hc' hkey
  have hperm : m.items.keys.Perm (m.queue.map fun c => key c.value) := by
    refine (List.perm_ext_iff_of_nodup m.items.keys_nodup hnodup).mpr fun k => ?_
    rw [← AList.mem_keys, ← AList.lookup_isSome, Option.isSome_iff_exists, List.mem_map]
    exact exists_congr fun c => h.lookup k c
  calc m.items.entries.length = m.items.keys.length := (List.length_map _).symm
    _ = (m.queue.map fun c => key c.value).length := hperm.length_eq
    _ = m.queue.length := List.length_map _

/-! ## Operations -/

theorem linked_empty : (empty : LinkedMap κ α).Linked key where
  lookup k c := by
    constructor
    · intro h
      cases h
    · rintro ⟨hc, -⟩
      cases hc
  ptrs := .nil
  fresh := nofun

theorem mem_pushBack : c ∈ (m.pushBack key a).queue ↔ c ∈ m.queue ∨ c = ⟨m.next, a⟩ := by
  unfold pushBack
  rw [List.mem_append, List.mem_singleton]

/-- A value with a new key at the end. -/
theorem Linked.pushBack (h : m.Linked key) (hnew : m.items.lookup (key a) = none) :
    (m.pushBack key a).Linked key where
  lookup k c := by
    rw [mem_pushBack]
    unfold LinkedMap.pushBack
    by_cases hk : k = key a
    · subst hk
      rw [AList.lookup_insert]
      constructor
      · rintro ⟨rfl⟩
        exact ⟨.inr rfl, rfl⟩
      · rintro ⟨hc | rfl, hkey⟩
        · -- No cell of the list has the key.
          rw [(h.lookup _ c).mpr ⟨hc, hkey⟩] at hnew
          cases hnew
        · rfl
    · rw [AList.lookup_insert_ne hk, h.lookup]
      refine and_congr_left fun hkey => ⟨.inl, fun hc => hc.resolve_right ?_⟩
      rintro rfl
      exact hk hkey.symm
  ptrs := by
    unfold LinkedMap.pushBack
    rw [List.map_append, List.nodup_append]
    refine ⟨h.ptrs, List.nodup_singleton _, fun p hp q hq => ?_⟩
    obtain ⟨c, hc, rfl⟩ := List.mem_map.mp hp
    obtain rfl := List.mem_singleton.mp hq
    exact Nat.ne_of_lt (h.fresh c hc)
  fresh c hc := by
    rcases mem_pushBack.mp hc with hc | rfl
    · exact Nat.lt_succ_of_lt (h.fresh c hc)
    · exact Nat.lt_succ_self _

theorem mem_remove (h : (m.queue.map Cell.ptr).Nodup) (hc : c ∈ m.queue) :
    c' ∈ (m.remove key c).queue ↔ c' ∈ m.queue ∧ c' ≠ c := by
  unfold remove
  rw [List.mem_filter, decide_eq_true_eq]
  refine and_congr_right fun hc' => not_congr ⟨fun hptr => ?_, congrArg Cell.ptr⟩
  exact eq_of_ptr_eq h hc' hc hptr

theorem Linked.remove (h : m.Linked key) (hc : c ∈ m.queue) : (m.remove key c).Linked key where
  lookup k c' := by
    rw [mem_remove h.ptrs hc]
    unfold LinkedMap.remove
    by_cases hk : k = key c.value
    · subst hk
      rw [AList.lookup_erase]
      refine ⟨nofun, fun ⟨⟨hc', hne⟩, hkey⟩ => absurd (h.eq_of_key_eq hc' hc hkey) hne⟩
    · rw [AList.lookup_erase_ne hk, h.lookup]
      refine and_congr_left fun hkey => ⟨fun hc' => ⟨hc', ?_⟩, And.left⟩
      rintro rfl
      exact hk hkey.symm
  ptrs := h.ptrs.sublist (List.filter_sublist.map _)
  fresh c' hc' := h.fresh c' (List.mem_of_mem_filter hc')

theorem queue_remove_head (key : α → κ) {rest : List (Cell α)} (h : (m.queue.map Cell.ptr).Nodup)
    (hqueue : m.queue = c :: rest) : (m.remove key c).queue = rest := by
  unfold remove
  rw [hqueue, List.map_cons, List.nodup_cons] at h
  rw [hqueue, List.filter_cons_of_neg (by simp), List.filter_eq_self]
  intro c' hc'
  rw [decide_eq_true_eq]
  intro hptr
  exact h.1 (hptr ▸ List.mem_map_of_mem hc')

/-- With enough rounds, the values that pass the check are taken from the front, until one does
not. -/
theorem removeWhile_spec (check : α → Bool) {rounds : ℕ} (h : m.Linked key)
    (hrounds : m.queue.length ≤ rounds) :
    (removeWhile key check rounds m).Linked key ∧
      (removeWhile key check rounds m).queue = m.queue.dropWhile fun c => check c.value := by
  induction rounds generalizing m with
  | zero =>
    have hnil : m.queue = [] := List.length_eq_zero_iff.mp (Nat.le_zero.mp hrounds)
    rw [removeWhile, hnil]
    exact ⟨h, rfl⟩
  | succ rounds ih =>
    unfold removeWhile
    cases hqueue : m.queue with
    | nil => exact ⟨h, hqueue⟩
    | cons c rest =>
      dsimp only
      by_cases hcheck : check c.value = true
      · have hrest := queue_remove_head key h.ptrs hqueue
        have hlength : rest.length + 1 ≤ rounds + 1 := by rwa [hqueue] at hrounds
        have hdrop : (c :: rest).dropWhile (fun c => check c.value) =
            rest.dropWhile fun c => check c.value := List.dropWhile_cons_of_pos hcheck
        rw [if_pos hcheck, hdrop, ← hrest]
        refine ih (h.remove (hqueue ▸ List.mem_cons_self)) ?_
        rw [hrest]
        omega
      · have hdrop : (c :: rest).dropWhile (fun c => check c.value) = c :: rest :=
          List.dropWhile_cons_of_neg hcheck
        rw [if_neg hcheck, hdrop]
        exact ⟨h, hqueue⟩

omit [DecidableEq κ] in
/-- Where no value behind one that fails passes, the rest is what fails. -/
theorem mem_dropWhile_iff {l : List (Cell α)} {check : Cell α → Bool}
    (h : l.Pairwise fun c c' => check c' = true → check c = true) :
    c ∈ l.dropWhile check ↔ c ∈ l ∧ check c = false := by
  induction l with
  | nil => simp
  | cons c₀ l ih =>
    obtain ⟨hhead, htail⟩ := List.pairwise_cons.mp h
    by_cases hcheck : check c₀ = true
    · rw [List.dropWhile_cons_of_pos hcheck, ih htail, List.mem_cons]
      refine and_congr_left fun hc => ⟨.inr, fun hmem => hmem.resolve_left ?_⟩
      rintro rfl
      rw [hcheck] at hc
      cases hc
    · rw [List.dropWhile_cons_of_neg hcheck]
      refine ⟨fun hc => ⟨hc, ?_⟩, And.left⟩
      rw [← Bool.not_eq_true]
      rcases List.mem_cons.mp hc with rfl | hc
      · exact hcheck
      · exact fun hpass => hcheck (hhead c hc hpass)

end LinkedMap

end DubboAdmin
