import Mathlib.Data.String.Basic

/-!
# Decimal notations and the order of texts

How texts that start with a number are ordered. `fixed w n` are the last `w` decimal digits of `n`,
with leading zeros, which is what `%0wd` prints where `n` has at most `w` (`padded_eq_fixed`). Texts
that start with numbers of one width are in the order of the numbers (`fixed_append_lt_iff`). Where
the widths differ and a character below the digits follows the numbers, as many leading digits
decide as the shorter number has (`fixed_append_lt_longer_iff`, `longer_append_lt_fixed_iff`).
-/

namespace DubboAdmin.Decimal

/-- How many digits the decimal notation of a number has. -/
def digitCount (n : ℕ) : ℕ := (Nat.toDigits 10 n).length

/-- The last `w` decimal digits of a number. -/
def fixed : ℕ → ℕ → List Char
  | 0, _ => []
  | w + 1, n => fixed w (n / 10) ++ [Nat.digitChar (n % 10)]

/-- The decimal notation of a number, filled up with zeros to a width: `%0wd` for a number that is
not negative. -/
def padded (w n : ℕ) : List Char :=
  List.replicate (w - digitCount n) '0' ++ Nat.toDigits 10 n

/-- The text that `%0wd` prints, where a sign counts as one of the places. -/
def sprintfPadded (w : ℕ) : ℤ → String
  | .ofNat n => String.ofList (padded w n)
  | .negSucc n => String.ofList ('-' :: padded (w - 1) (n + 1))

/-! ## Notations of a width -/

theorem digitCount_pos (n : ℕ) : 0 < digitCount n :=
  List.length_pos_iff.mpr Nat.toDigits_ne_nil

theorem digitCount_le_iff {n w : ℕ} (hw : 0 < w) : digitCount n ≤ w ↔ n < 10 ^ w :=
  Nat.length_toDigits_le_iff (by decide) hw

theorem lt_pow_digitCount (n : ℕ) : n < 10 ^ digitCount n :=
  (digitCount_le_iff (digitCount_pos n)).mp le_rfl

theorem digitCount_mono {m n : ℕ} (h : m ≤ n) : digitCount m ≤ digitCount n :=
  (digitCount_le_iff (digitCount_pos n)).mpr (h.trans_lt (lt_pow_digitCount n))

theorem fixed_zero_right (w : ℕ) : fixed w 0 = List.replicate w '0' := by
  induction w with
  | zero => rfl
  | succ w ih =>
    show fixed w 0 ++ ['0'] = _
    rw [ih, List.replicate_succ']

theorem fixed_add (w k n : ℕ) : fixed (w + k) n = fixed w (n / 10 ^ k) ++ fixed k n := by
  induction k generalizing n with
  | zero =>
    rw [Nat.pow_zero, Nat.div_one]
    exact (List.append_nil _).symm
  | succ k ih =>
    have hdiv : n / 10 ^ (k + 1) = n / 10 / 10 ^ k := by
      rw [Nat.pow_succ', Nat.div_div_eq_div_mul]
    show fixed (w + k) (n / 10) ++ [Nat.digitChar (n % 10)] =
      fixed w (n / 10 ^ (k + 1)) ++ (fixed k (n / 10) ++ [Nat.digitChar (n % 10)])
    rw [ih, hdiv, List.append_assoc]

theorem toDigits_eq_fixed (n : ℕ) : Nat.toDigits 10 n = fixed (digitCount n) n := by
  induction n using Nat.strongRecOn with
  | ind n ih =>
    unfold digitCount
    rw [Nat.toDigits_eq_if (by decide)]
    split_ifs with hlt
    · show _ = [Nat.digitChar (n % 10)]
      rw [Nat.mod_eq_of_lt hlt]
    · have hsmaller : n / 10 < n := by omega
      rw [List.length_append, List.length_singleton]
      show _ = fixed (digitCount (n / 10)) (n / 10) ++ [Nat.digitChar (n % 10)]
      rw [ih (n / 10) hsmaller]

theorem padded_eq_fixed {w n : ℕ} (hw : 0 < w) (hn : n < 10 ^ w) : padded w n = fixed w n := by
  have hcount : digitCount n ≤ w := (digitCount_le_iff hw).mpr hn
  have hsplit := fixed_add (w - digitCount n) (digitCount n) n
  rw [Nat.sub_add_cancel hcount, Nat.div_eq_of_lt (lt_pow_digitCount n), fixed_zero_right,
    ← toDigits_eq_fixed] at hsplit
  exact hsplit.symm

/-! ## The order of texts -/

theorem digitChar_lt_iff {a b : ℕ} (ha : a < 10) (hb : b < 10) :
    Nat.digitChar a < Nat.digitChar b ↔ a < b := by
  have hlt : Nat.digitChar a < Nat.digitChar b ↔
      (Nat.digitChar a).toNat < (Nat.digitChar b).toNat := Iff.rfl
  rw [hlt, Nat.toNat_digitChar_of_lt_ten ha, Nat.toNat_digitChar_of_lt_ten hb]
  omega

theorem digitChar_inj {a b : ℕ} (ha : a < 10) (hb : b < 10) :
    Nat.digitChar a = Nat.digitChar b ↔ a = b := by
  refine ⟨fun h => ?_, congrArg _⟩
  have hnat := congrArg Char.toNat h
  rw [Nat.toNat_digitChar_of_lt_ten ha, Nat.toNat_digitChar_of_lt_ten hb] at hnat
  omega

theorem lt_digitChar {c : Char} (hc : c < '0') {a : ℕ} (ha : a < 10) : c < Nat.digitChar a := by
  have hnat : c.toNat < 48 := hc
  show c.toNat < (Nat.digitChar a).toNat
  rw [Nat.toNat_digitChar_of_lt_ten ha]
  omega

/-- Texts that start with numbers of one width: the numbers decide, and then the rest. -/
theorem fixed_append_lt_iff {w m n : ℕ} (hm : m < 10 ^ w) (hn : n < 10 ^ w) (xs ys : List Char) :
    fixed w m ++ xs < fixed w n ++ ys ↔ m < n ∨ m = n ∧ xs < ys := by
  -- The last digit is left to the rest of the text.
  induction w generalizing m n xs ys with
  | zero =>
    have hzero : m = 0 ∧ n = 0 := by
      rw [Nat.pow_zero] at hm hn
      omega
    simp only [hzero, fixed, List.nil_append, Nat.lt_irrefl, false_or, true_and]
  | succ w ih =>
    rw [Nat.pow_succ] at hm hn
    have hm10 : m % 10 < 10 := Nat.mod_lt m (by decide)
    have hn10 : n % 10 < 10 := Nat.mod_lt n (by decide)
    have hsplit : m < n ↔ m / 10 < n / 10 ∨ m / 10 = n / 10 ∧ m % 10 < n % 10 := by omega
    have heq : m = n ↔ m / 10 = n / 10 ∧ m % 10 = n % 10 := by omega
    show fixed w (m / 10) ++ [Nat.digitChar (m % 10)] ++ xs <
      fixed w (n / 10) ++ [Nat.digitChar (n % 10)] ++ ys ↔ _
    rw [List.append_assoc, List.append_assoc, ih (by omega) (by omega), List.singleton_append,
      List.singleton_append, List.cons_lt_cons_iff, digitChar_lt_iff hm10 hn10,
      digitChar_inj hm10 hn10, hsplit, heq]
    tauto

variable {v w m n : ℕ} {sep : Char} {xs ys : List Char}

theorem fixed_eq_append (hlt : v < w) (n : ℕ) :
    ∃ d rest, d < 10 ∧ fixed w n = fixed v (n / 10 ^ (w - v)) ++ Nat.digitChar d :: rest := by
  obtain ⟨k, rfl⟩ : ∃ k, w = v + (k + 1) := ⟨w - v - 1, by omega⟩
  have hhead : fixed (k + 1) n = Nat.digitChar (n / 10 ^ k % 10) :: fixed k n := by
    rw [Nat.add_comm, fixed_add]
    rfl
  refine ⟨n / 10 ^ k % 10, fixed k n, Nat.mod_lt _ (by decide), ?_⟩
  rw [fixed_add, hhead, Nat.add_sub_cancel_left]

theorem leading_lt (hlt : v < w) (hn : n < 10 ^ w) : n / 10 ^ (w - v) < 10 ^ v := by
  rw [Nat.div_lt_iff_lt_mul (Nat.pow_pos (by decide)), ← Nat.pow_add, Nat.add_sub_cancel' hlt.le]
  exact hn

theorem fixed_append_lt_longer_iff (hsep : sep < '0') (hlt : v < w) (hm : m < 10 ^ v)
    (hn : n < 10 ^ w) (xs ys : List Char) :
    fixed v m ++ sep :: xs < fixed w n ++ ys ↔ m ≤ n / 10 ^ (w - v) := by
  obtain ⟨d, rest, hd, hfixed⟩ := fixed_eq_append hlt n
  have hrest : sep :: xs < Nat.digitChar d :: (rest ++ ys) :=
    List.cons_lt_cons_iff.mpr (.inl (lt_digitChar hsep hd))
  rw [hfixed, List.append_assoc, List.cons_append, fixed_append_lt_iff hm (leading_lt hlt hn),
    and_iff_left hrest]
  omega

/-- A text with a longer number comes first if its leading digits are below the shorter number. -/
theorem longer_append_lt_fixed_iff (hsep : sep < '0') (hlt : v < w) (hm : m < 10 ^ v)
    (hn : n < 10 ^ w) (xs ys : List Char) :
    fixed w n ++ ys < fixed v m ++ sep :: xs ↔ n / 10 ^ (w - v) < m := by
  obtain ⟨d, rest, hd, hfixed⟩ := fixed_eq_append hlt n
  have hrest : ¬ Nat.digitChar d :: (rest ++ ys) < sep :: xs := by
    rw [List.cons_lt_cons_iff]
    have habove := lt_digitChar hsep hd
    rintro (hbelow | ⟨heq, -⟩)
    · exact absurd (hbelow.trans habove) (lt_irrefl _)
    · exact absurd habove (heq ▸ lt_irrefl _)
  rw [hfixed, List.append_assoc, List.cons_append, fixed_append_lt_iff (leading_lt hlt hn) hm]
  exact or_iff_left fun h => hrest h.2

theorem append_lt_append_left_iff (common : List Char) :
    common ++ xs < common ++ ys ↔ xs < ys := by
  induction common with
  | nil => rfl
  | cons c common ih =>
    rw [List.cons_append, List.cons_append, List.cons_lt_cons_iff, ih]
    exact ⟨fun h => h.elim (fun hlt => absurd hlt (lt_irrefl c)) And.right, fun h => .inr ⟨rfl, h⟩⟩

end DubboAdmin.Decimal
