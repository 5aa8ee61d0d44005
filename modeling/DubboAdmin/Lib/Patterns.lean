import Mathlib.Computability.RegularExpressions

/-!
# Patterns

The pieces that patterns of texts are written with (literal texts, character classes, `+` and `?`)
as regular expressions of Mathlib, with what each of them matches: `mem_literal`, `mem_oneOf`,
`mem_star_oneOf`, `mem_many_oneOf` and `mem_optional`. A pattern is matched by derivatives
(`RegularExpression.rmatch`), so that it can be evaluated on a text.
-/

namespace DubboAdmin.Patterns

open RegularExpression

variable {α : Type}

/-- The given word, and no other. -/
def literal : List α → RegularExpression α
  | [] => 1
  | a :: w => char a * literal w

/-- A character class, `[…]`. -/
def oneOf : List α → RegularExpression α
  | [] => 0
  | a :: l => char a + oneOf l

/-- One or more, `r+`. -/
def many (r : RegularExpression α) : RegularExpression α := r * star r

/-- Zero or one, `r?`. -/
def optional (r : RegularExpression α) : RegularExpression α := 1 + r

/-- The whole text is matched, as by a pattern between `^` and `$`. -/
def matchString (r : RegularExpression Char) (s : String) : Bool := r.rmatch s.toList

theorem matchString_iff {r : RegularExpression Char} {s : String} :
    matchString r s = true ↔ s.toList ∈ r.matches' :=
  rmatch_iff_matches' r s.toList

variable {r : RegularExpression α} {w : List α}

theorem mem_mul_iff {r' : RegularExpression α} :
    w ∈ (r * r').matches' ↔ ∃ u ∈ r.matches', ∃ v ∈ r'.matches', u ++ v = w := by
  rw [matches'_mul, Language.mem_mul]

theorem mem_add_iff {r' : RegularExpression α} :
    w ∈ (r + r').matches' ↔ w ∈ r.matches' ∨ w ∈ r'.matches' := by
  rw [matches'_add, Language.mem_add]

variable {l : List α}

@[simp]
theorem mem_literal : w ∈ (literal l).matches' ↔ w = l := by
  induction l generalizing w with
  | nil =>
    rw [literal, matches'_epsilon, Language.mem_one]
  | cons a l ih =>
    rw [literal, mem_mul_iff]
    constructor
    · rintro ⟨u, hu, v, hv, rfl⟩
      have hu : u = [a] := hu
      rw [hu, ih.mp hv, List.singleton_append]
    · rintro rfl
      exact ⟨[a], rfl, l, ih.mpr rfl, rfl⟩

theorem mem_oneOf : w ∈ (oneOf l).matches' ↔ ∃ a ∈ l, w = [a] := by
  induction l with
  | nil => simp [oneOf]
  | cons b l ih =>
    have hchar : w ∈ (char b).matches' ↔ w = [b] := Iff.rfl
    rw [oneOf, mem_add_iff, ih, hchar]
    simp only [List.mem_cons, exists_eq_or_imp]

/-- Words over the class. -/
theorem mem_star_oneOf : w ∈ (star (oneOf l)).matches' ↔ ∀ a ∈ w, a ∈ l := by
  rw [matches'_star, Language.mem_kstar]
  constructor
  · rintro ⟨words, rfl, hwords⟩ a ha
    obtain ⟨word, hword, ha⟩ := List.mem_flatten.mp ha
    obtain ⟨b, hb, rfl⟩ := mem_oneOf.mp (hwords word hword)
    rw [List.mem_singleton.mp ha]
    exact hb
  · intro h
    have hflatten : w = (w.map fun a => [a]).flatten := by
      rw [← List.flatMap_def, List.flatMap_singleton']
    refine ⟨w.map fun a => [a], hflatten, fun word hword => ?_⟩
    obtain ⟨a, ha, rfl⟩ := List.mem_map.mp hword
    exact mem_oneOf.mpr ⟨a, h a ha, rfl⟩

theorem mem_many_oneOf :
    w ∈ (many (oneOf l)).matches' ↔ w ≠ [] ∧ ∀ a ∈ w, a ∈ l := by
  rw [many, mem_mul_iff]
  constructor
  · rintro ⟨u, hu, v, hv, rfl⟩
    obtain ⟨a, ha, rfl⟩ := mem_oneOf.mp hu
    refine ⟨List.cons_ne_nil a v, fun b hb => ?_⟩
    rcases List.mem_cons.mp hb with rfl | hb
    · exact ha
    · exact mem_star_oneOf.mp hv b hb
  · rintro ⟨hne, h⟩
    obtain ⟨a, v, rfl⟩ := List.exists_cons_of_ne_nil hne
    rw [List.forall_mem_cons] at h
    exact ⟨[a], mem_oneOf.mpr ⟨a, h.1, rfl⟩, v, mem_star_oneOf.mpr h.2, rfl⟩

@[simp]
theorem mem_optional :
    w ∈ (optional r).matches' ↔ w = [] ∨ w ∈ r.matches' := by
  rw [optional, mem_add_iff, matches'_epsilon, Language.mem_one]

end DubboAdmin.Patterns
