import DubboAdmin.Lib.Keyed
import Mathlib

/-!
# Tallies

A tally is a map from keys to counts that is kept up to date by increments and decrements, and that
drops a key whose count falls to zero. A grouped tally keeps one tally per group.

`Counts t m` says that `t` counts the multiset `m`. An increment adds an element to the multiset, a
decrement erases one, and does nothing where there is none, and `sum` and `total` are the numbers of
elements.
-/

namespace DubboAdmin

variable {κ γ : Type} [DecidableEq κ] [DecidableEq γ]

/-- A count for each key that has one. -/
abbrev Tally (κ : Type) := AList fun _ : κ => ℤ

/-- What a tally holds for a key that was counted `n` times: no entry stands for zero. -/
def Tally.entry (n : ℕ) : Option ℤ := if n = 0 then none else some n

/-- The entry of a count is read as the count. -/
@[simp]
theorem Tally.getD_entry (n : ℕ) : (Tally.entry n).getD 0 = n := by
  unfold Tally.entry
  split_ifs with h
  · rw [h]
    rfl
  · rfl

/-- The entry determines the count. -/
theorem Tally.entry_injective : Function.Injective Tally.entry := by
  intro n n' h
  have hvalue := congrArg (fun e => e.getD 0) h
  simp only [getD_entry] at hvalue
  exact_mod_cast hvalue

namespace Tally

/-- One more of the key. -/
def increment (t : Tally κ) (k : κ) : Tally κ := t.insert k ((t.lookup k).getD 0 + 1)

/-- One less of the key, which goes with its last one. -/
def decrement (t : Tally κ) (k : κ) : Tally κ :=
  match t.lookup k with
  | none => t
  | some v => if v - 1 ≤ 0 then t.erase k else t.insert k (v - 1)

/-- The counts of `c` added to those of `t`, entry by entry. -/
def plus (t c : Tally κ) : Tally κ :=
  c.entries.foldl (fun t e => t.insert e.1 ((t.lookup e.1).getD 0 + e.2)) t

/-- The sum of all counts. -/
def sum (t : Tally κ) : ℤ := (t.entries.map fun e => e.2).sum

/-- The tally holds the counts `f`. -/
def Counts (t : Tally κ) (f : κ → ℕ) : Prop := ∀ k, t.lookup k = entry (f k)

variable {t c : Tally κ} {f f' : κ → ℕ}

/-- The empty tally counts nothing. -/
theorem counts_empty : (∅ : Tally κ).Counts fun _ => 0 := fun _ => rfl

/-- An entry that is set is counted. -/
theorem Counts.insert (h : t.Counts f) (k : κ) {n : ℕ} (hn : n ≠ 0) :
    Counts (AList.insert k (n : ℤ) t) (Function.update f k n) := by
  intro k'
  by_cases hk : k' = k
  · subst hk
    rw [AList.lookup_insert, Function.update_self, entry, if_neg hn]
  · rw [AList.lookup_insert_ne hk, Function.update_of_ne hk]
    exact h k'

/-- An increment counts one more of its key. -/
theorem Counts.increment (h : t.Counts f) (k : κ) :
    (t.increment k).Counts (Function.update f k (f k + 1)) := by
  have hvalue : (t.lookup k).getD 0 + 1 = ((f k + 1 : ℕ) : ℤ) := by
    rw [h k, getD_entry]
    push_cast
    rfl
  unfold Tally.increment
  rw [hvalue]
  exact h.insert k (Nat.succ_ne_zero _)

/-- A decrement counts one less of its key, and nothing of a key that has none. -/
theorem Counts.decrement (h : t.Counts f) (k : κ) :
    (t.decrement k).Counts (Function.update f k (f k - 1)) := by
  unfold Tally.decrement
  rw [h k]
  unfold entry
  split_ifs with hzero
  · -- There is nothing to count down.
    rw [hzero, Nat.zero_sub, ← hzero, Function.update_eq_self]
    exact h
  · dsimp only
    split_ifs with hlast
    · have hone : f k - 1 = 0 := by omega
      intro k'
      by_cases hk : k' = k
      · subst hk
        rw [AList.lookup_erase, Function.update_self, hone]
        rfl
      · rw [AList.lookup_erase_ne hk, Function.update_of_ne hk]
        exact h k'
    · have hvalue : ((f k : ℤ) - 1) = ((f k - 1 : ℕ) : ℤ) := by omega
      rw [hvalue]
      exact h.insert k (by omega)

section Multisets

variable {β : Type} [DecidableEq β] {e : κ → β} {m : Multiset β}

/-- An increment counts one more element of a multiset, where the keys stand for its elements. -/
theorem Counts.cons (he : Function.Injective e) (h : t.Counts fun k => m.count (e k)) (k : κ) :
    (t.increment k).Counts fun k' => (e k ::ₘ m).count (e k') := by
  convert h.increment k using 1
  funext k'
  by_cases hk : k' = k
  · subst hk
    rw [Multiset.count_cons_self, Function.update_self]
  · rw [Multiset.count_cons_of_ne (he.ne hk), Function.update_of_ne hk]

/-- A decrement counts one element less, where there is one. -/
theorem Counts.erase (he : Function.Injective e) (h : t.Counts fun k => m.count (e k)) (k : κ) :
    (t.decrement k).Counts fun k' => (m.erase (e k)).count (e k') := by
  convert h.decrement k using 1
  funext k'
  by_cases hk : k' = k
  · subst hk
    rw [Multiset.count_erase_self, Function.update_self]
  · rw [Multiset.count_erase_of_ne (he.ne hk), Function.update_of_ne hk]

end Multisets

/-- The sum counts all elements. -/
theorem Counts.sum {m : Multiset κ} (h : t.Counts fun k => m.count k) : t.sum = m.card := by
  have hentries : ∀ e ∈ t.entries, e.2 = ((m.count e.1 : ℕ) : ℤ) := by
    intro e he
    have hlookup : t.lookup e.1 = some e.2 := AList.mem_lookup_iff.mpr he
    rw [← getD_entry, ← h e.1, hlookup]
    rfl
  have hkeys : t.keys.toFinset = m.toFinset := by
    ext k
    rw [List.mem_toFinset, Multiset.mem_toFinset, ← AList.mem_keys, ← AList.lookup_isSome, h k,
      ← Multiset.count_ne_zero]
    unfold entry
    split_ifs with hzero
    · simp [hzero]
    · simp [hzero]
  calc t.sum = (t.entries.map fun e => ((m.count e.1 : ℕ) : ℤ)).sum := by
        unfold Tally.sum
        rw [List.map_congr_left hentries]
    _ = (t.keys.map fun k => ((m.count k : ℕ) : ℤ)).sum := by
        rw [AList.keys, List.keys, List.map_map]
        rfl
    _ = ∑ k ∈ m.toFinset, ((m.count k : ℕ) : ℤ) := by
        rw [← hkeys, List.sum_toFinset _ t.keys_nodup]
    _ = m.card := by
        rw [← Multiset.toFinset_sum_count_eq m]
        push_cast
        rfl

/-- The loop of `plus` adds to each entry what the other tally has under the key. -/
theorem lookup_plus (t c : Tally κ) (k : κ) :
    (t.plus c).lookup k = match c.lookup k with
      | none => t.lookup k
      | some v => some ((t.lookup k).getD 0 + v) := by
  unfold plus
  show _ = match c.entries.dlookup k with
    | none => t.lookup k
    | some v => some ((t.lookup k).getD 0 + v)
  have hnodup := c.nodupKeys
  generalize c.entries = es at hnodup
  induction es generalizing t with
  | nil => rfl
  | cons e es ih =>
    obtain ⟨he, hes⟩ := List.nodupKeys_cons.mp hnodup
    rw [List.foldl_cons, ih _ hes]
    by_cases hk : k = e.1
    · subst hk
      -- No later round touches this key.
      rw [List.dlookup_eq_none.mpr he, List.dlookup_cons_eq]
      exact AList.lookup_insert _
    · rw [List.dlookup_cons_ne _ _ hk, AList.lookup_insert_ne hk]

/-- Counts are added key by key. -/
theorem Counts.plus (ht : t.Counts f) (hc : c.Counts f') : (t.plus c).Counts (f + f') := by
  intro k
  rw [lookup_plus, ht k, hc k, getD_entry, Pi.add_apply]
  unfold entry
  by_cases hzero : f' k = 0
  · rw [if_pos hzero, hzero, Nat.add_zero]
  · have hsum : f k + f' k ≠ 0 := by omega
    rw [if_neg hzero, if_neg hsum]
    push_cast
    rfl

end Tally

/-- A tally for each group that has one. -/
abbrev GroupedTally (γ κ : Type) := AList fun _ : γ => Tally κ

namespace GroupedTally

/-- The tally of a group, empty where there is none. -/
def group (t : GroupedTally γ κ) (g : γ) : Tally κ := (t.lookup g).getD ∅

/-- One more of the key in the group. -/
def increment (t : GroupedTally γ κ) (g : γ) (k : κ) : GroupedTally γ κ :=
  t.insert g ((t.group g).increment k)

/-- One less of the key in the group, which goes with its last key. -/
def decrement (t : GroupedTally γ κ) (g : γ) (k : κ) : GroupedTally γ κ :=
  match t.lookup g with
  | none => t
  | some c =>
    let c' := c.decrement k
    if k ∈ c ∧ c'.keys = [] then t.erase g else t.insert g c'

/-- The sum over all groups. -/
def total (t : GroupedTally γ κ) : Tally κ := t.entries.foldl (fun result e => result.plus e.2) ∅

/-- The tally counts the pairs of a group and a key in `m`. -/
def Counts (t : GroupedTally γ κ) (m : Multiset (γ × κ)) : Prop :=
  ∀ g, (t.group g).Counts fun k => m.count (g, k)

variable {t : GroupedTally γ κ} {m : Multiset (γ × κ)}

/-- The empty grouped tally counts nothing. -/
theorem counts_empty : (∅ : GroupedTally γ κ).Counts 0 := fun _ => Tally.counts_empty

omit [DecidableEq κ] in
/-- The group that is set. -/
theorem group_insert_self (t : GroupedTally γ κ) (g : γ) (c : Tally κ) :
    group (AList.insert g c t) g = c := by
  unfold group
  rw [AList.lookup_insert]
  rfl

omit [DecidableEq κ] in
/-- The other groups. -/
theorem group_insert_ne (t : GroupedTally γ κ) {g g' : γ} (c : Tally κ) (h : g' ≠ g) :
    group (AList.insert g c t) g' = t.group g' := by
  unfold group
  rw [AList.lookup_insert_ne h]

/-- A decrement counts down in its group. -/
theorem group_decrement_self (t : GroupedTally γ κ) (g : γ) (k : κ) :
    (t.decrement g k).group g = (t.group g).decrement k := by
  unfold GroupedTally.decrement
  cases hg : t.lookup g with
  | none =>
    show t.group g = (t.group g).decrement k
    unfold group
    rw [hg]
    rfl
  | some c =>
    have hgroup : t.group g = c := by
      unfold group
      rw [hg]
      rfl
    rw [hgroup]
    dsimp only
    split_ifs with hempty
    · have hnil : c.decrement k = ∅ := AList.ext (List.map_eq_nil_iff.mp hempty.2)
      unfold group
      rw [AList.lookup_erase, hnil]
      rfl
    · exact group_insert_self t g _

/-- A decrement leaves the other groups. -/
theorem group_decrement_ne (t : GroupedTally γ κ) {g g' : γ} (k : κ) (h : g' ≠ g) :
    (t.decrement g k).group g' = t.group g' := by
  unfold GroupedTally.decrement
  cases t.lookup g with
  | none => rfl
  | some c =>
    dsimp only
    split_ifs
    · unfold group
      rw [AList.lookup_erase_ne h]
    · exact group_insert_ne t _ h

/-- An increment counts one more pair. -/
theorem Counts.increment (h : t.Counts m) (g : γ) (k : κ) :
    (t.increment g k).Counts ((g, k) ::ₘ m) := by
  intro g'
  unfold GroupedTally.increment
  by_cases hg : g' = g
  · subst hg
    rw [group_insert_self]
    exact (h g').cons (Prod.mk_right_injective g') k
  · have hpair : ∀ k', (g', k') ≠ (g, k) := fun k' heq => hg (Prod.mk.inj heq).1
    rw [group_insert_ne t _ hg]
    simp only [Multiset.count_cons_of_ne (hpair _)]
    exact h g'

/-- A decrement counts one pair less, where there is one. -/
theorem Counts.decrement (h : t.Counts m) (g : γ) (k : κ) :
    (t.decrement g k).Counts (m.erase (g, k)) := by
  intro g'
  by_cases hg : g' = g
  · subst hg
    rw [group_decrement_self]
    exact (h g').erase (Prod.mk_right_injective g') k
  · have hpair : ∀ k', (g', k') ≠ (g, k) := fun k' heq => hg (Prod.mk.inj heq).1
    rw [group_decrement_ne t k hg]
    simp only [Multiset.count_erase_of_ne (hpair _)]
    exact h g'

/-- Two tallies have the same entries exactly if they count the same pairs. -/
theorem Counts.agree_iff {t' : GroupedTally γ κ} {m' : Multiset (γ × κ)} (h : t.Counts m)
    (h' : t'.Counts m') :
    (∀ g k, (t.group g).lookup k = (t'.group g).lookup k) ↔ m = m' := by
  constructor
  · intro hagree
    ext ⟨g, k⟩
    apply Tally.entry_injective
    rw [← h g k, ← h' g k]
    exact hagree g k
  · rintro rfl g k
    rw [h g k, h' g k]

/-- The loop of `total` adds what each of its tallies counts. -/
theorem counts_foldl_plus {es : List (Sigma fun _ : γ => Tally κ)} {r : Tally κ} {f : κ → ℕ}
    (hes : ∀ e ∈ es, e.2.Counts fun k => m.count (e.1, k)) (hr : r.Counts f) :
    (es.foldl (fun result e => result.plus e.2) r).Counts
      fun k => f k + (es.map fun e => m.count (e.1, k)).sum := by
  induction es generalizing r f with
  | nil => exact hr
  | cons e es ih =>
    obtain ⟨he, hes⟩ := List.forall_mem_cons.mp hes
    rw [List.foldl_cons]
    convert ih hes (hr.plus he) using 2 with k
    rw [List.map_cons, List.sum_cons, Pi.add_apply, Nat.add_assoc]

/-- Counting a key group by group, where the groups are all that occur. -/
theorem sum_count_pair (G : Finset γ) (k : κ) (hG : ∀ x ∈ m, x.1 ∈ G) :
    ∑ g ∈ G, m.count (g, k) = (m.map Prod.snd).count k := by
  induction m using Multiset.induction_on with
  | empty => simp
  | cons x m ih =>
    obtain ⟨g₀, k₀⟩ := x
    have hg₀ : g₀ ∈ G := hG _ (Multiset.mem_cons_self _ _)
    have hrest := ih fun x hx => hG x (Multiset.mem_cons_of_mem hx)
    have hone : ∑ g ∈ G, (if (g, k) = (g₀, k₀) then 1 else 0) = if k = k₀ then 1 else 0 := by
      by_cases hk : k = k₀
      · simp [hk, hg₀]
      · simp [hk]
    simp only [Multiset.count_cons, Multiset.map_cons, Finset.sum_add_distrib, hrest, hone]

/-- The total counts the keys of all groups. -/
theorem Counts.total (h : t.Counts m) (k : κ) :
    t.total.lookup k = Tally.entry ((m.map Prod.snd).count k) := by
  have hentries : ∀ e ∈ t.entries, e.2.Counts fun k => m.count (e.1, k) := by
    intro e he
    have hlookup : t.lookup e.1 = some e.2 := AList.mem_lookup_iff.mpr he
    have hgroup := h e.1
    unfold group at hgroup
    rwa [hlookup] at hgroup
  have hgroups : ∀ x ∈ m, x.1 ∈ t.keys.toFinset := by
    intro x hx
    rw [List.mem_toFinset, ← AList.mem_keys, ← AList.lookup_isSome, Option.isSome_iff_ne_none]
    intro hnone
    -- A group without a tally counts nothing.
    have hzero := h x.1 x.2
    unfold group Tally.entry at hzero
    rw [hnone, if_neg (Multiset.count_ne_zero.mpr hx)] at hzero
    exact nomatch hzero
  have hsum : (t.entries.map fun e => m.count (e.1, k)).sum =
      ∑ g ∈ t.keys.toFinset, m.count (g, k) := by
    rw [List.sum_toFinset _ t.keys_nodup, AList.keys, List.keys, List.map_map]
    rfl
  have hcounts := counts_foldl_plus hentries Tally.counts_empty k
  dsimp only at hcounts
  rw [Nat.zero_add, hsum, sum_count_pair _ k hgroups] at hcounts
  exact hcounts

end GroupedTally

/-! ## What a collection has to count -/

section Collections

variable {α β : Type} [DecidableEq β] {key : α → κ} {t : Keyed key} {f : α → β}

omit [DecidableEq β] in
/-- A new item is one more to count. -/
theorem Keyed.coe_map_put_of_absent {x : α} (hnew : t.get? (key x) = none) :
    ((t.put x).items.map f : Multiset β) = f x ::ₘ (t.items.map f : Multiset β) := by
  rw [Keyed.items_put_of_absent hnew, List.map_append, List.map_singleton, Multiset.cons_coe]
  exact Multiset.coe_eq_coe.mpr (List.perm_append_singleton _ _)

/-- An item that goes is one less. -/
theorem Keyed.coe_map_erase {k : κ} {old : α} (hold : t.get? k = some old) :
    ((t.erase k).items.map f : Multiset β) = (t.items.map f : Multiset β).erase (f old) := by
  have hperm : (t.items.map f : Multiset β) = f old ::ₘ ((t.erase k).items.map f : Multiset β) := by
    rw [Multiset.cons_coe, ← List.map_cons]
    exact Multiset.coe_eq_coe.mpr ((Keyed.items_perm_erase hold).map _)
  rw [hperm, Multiset.erase_cons_head]

end Collections

end DubboAdmin
