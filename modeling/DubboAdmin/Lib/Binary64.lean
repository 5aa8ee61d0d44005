import Mathlib.Data.List.TakeWhile
import Mathlib.Data.Rat.Floor
import DubboAdmin.Lib.Strings

/-!
# Decimal numerals and binary64

The rational number that a decimal numeral denotes (`decimalValue`), and the binary64 number nearest
to a rational one (`nearest`), with ties to even. The exponent has no upper bound here: a caller
that has one compares the result with it.
-/

namespace DubboAdmin

namespace Binary64

/-- The integer nearest to `q`, the even one of two. -/
def roundHalfEven (q : ℚ) : ℤ :=
  if q - ⌊q⌋ < 1 / 2 ∨ q - ⌊q⌋ = 1 / 2 ∧ ⌊q⌋ % 2 = 0 then ⌊q⌋ else ⌊q⌋ + 1

/-- The exponent of the greatest power of two that is at most `|v|`, for `v` other than zero. -/
def exponent (v : ℚ) : ℤ :=
  -- The lengths of numerator and denominator give it up to one.
  let k : ℤ := (Nat.log2 v.num.natAbs : ℤ) - Nat.log2 v.den
  if |v| < (2 : ℚ) ^ k then k - 1 else k

/-- The distance of the binary64 numbers around `v`: 53 binary digits, or the subnormal ones. -/
def ulp (v : ℚ) : ℚ := 2 ^ max (exponent v - 52) (-1074)

/-- The binary64 number nearest to `v`, ties to even. -/
def nearest (v : ℚ) : ℚ := roundHalfEven (v / ulp v) * ulp v

theorem nearest_zero : nearest 0 = 0 := by simp [nearest, roundHalfEven]

end Binary64

namespace Strings

/-- The value of a numeral without a sign: digits, a fraction and an exponent. -/
def unsignedValue (ds : List Char) : Option ℚ :=
  let mantissa := ds.takeWhile fun c => c != 'e' && c != 'E'
  let whole := mantissa.takeWhile (· != '.')
  let fraction := (mantissa.drop whole.length).tail
  let scaled := (parseDigits whole).bind fun _ => (parseDigits (whole ++ fraction)).map fun n : ℕ =>
    (n : ℚ) / 10 ^ fraction.length
  match ds.drop mantissa.length with
  | [] => scaled
  | _ :: '-' :: es => scaled.bind fun x => (parseDigits es).map fun n : ℕ => x / 10 ^ n
  | _ :: '+' :: es => scaled.bind fun x => (parseDigits es).map fun n : ℕ => x * 10 ^ n
  | _ :: es => scaled.bind fun x => (parseDigits es).map fun n : ℕ => x * 10 ^ n

/-- The exact value of a decimal numeral: an optional sign, digits, an optional fraction and an
optional exponent. -/
def decimalValue (s : String) : Option ℚ :=
  match s.toList with
  | '-' :: ds => (unsignedValue ds).map fun x => -x
  | '+' :: ds => unsignedValue ds
  | ds => unsignedValue ds

/-- Whether a numeral has a point or an exponent. -/
def isPointed (s : String) : Bool := s.toList.any fun c => c == '.' || c == 'e' || c == 'E'

theorem unsignedValue_digits {ds : List Char}
    (h : ∀ c ∈ ds, (c == '.' || c == 'e' || c == 'E') = false) :
    unsignedValue ds = (parseDigits ds).map fun n : ℕ => (n : ℚ) := by
  have hmantissa : ds.takeWhile (fun c => c != 'e' && c != 'E') = ds :=
    List.takeWhile_eq_self_iff.mpr fun c hc => by grind
  have hwhole : ds.takeWhile (· != '.') = ds :=
    List.takeWhile_eq_self_iff.mpr fun c hc => by grind
  unfold unsignedValue
  simp only [hmantissa, hwhole, List.drop_length, List.tail_nil, List.append_nil, List.length_nil,
    pow_zero, div_one]
  cases parseDigits ds <;> rfl

/-- A numeral without a point and an exponent is read exactly, unless it is too large. -/
theorem parseInt64_eq_some_iff {s : String} {v : ℚ} {n : ℤ} (hv : decimalValue s = some v)
    (hplain : isPointed s = false) :
    parseInt64 s = some n ↔ v = n ∧ -2 ^ 63 ≤ n ∧ n < 2 ^ 63 := by
  have hchars : ∀ c ∈ s.toList, (c == '.' || c == 'e' || c == 'E') = false := by
    simpa [isPointed] using hplain
  have hdigits : ∀ ds, (∀ c ∈ ds, c ∈ s.toList) →
      unsignedValue ds = (parseDigits ds).map fun n : ℕ => (n : ℚ) :=
    fun ds hds => unsignedValue_digits fun c hc => hchars c (hds c hc)
  unfold decimalValue at hv
  unfold parseInt64
  rw [Option.filter_eq_some_iff, decide_eq_true_iff]
  refine and_congr_left fun _ => ?_
  generalize s.toList = l at hv hdigits
  split at hv
  all_goals
    rw [hdigits _ (by grind)] at hv
    simp only [Option.map_eq_some_iff] at hv
  · obtain ⟨_, ⟨m, hm, rfl⟩, rfl⟩ := hv
    simp only [hm]
    norm_cast
    simp
  · obtain ⟨m, hm, rfl⟩ := hv
    simp only [hm]
    norm_cast
    simp
  · obtain ⟨m, hm, rfl⟩ := hv
    try split
    all_goals simp_all
    norm_cast

theorem tight_trimList (l : List Char) : Tight (trimList l) := by
  have hhead : ∀ {l : List Char} {c}, c ∈ (l.dropWhile isSpace).head? → isSpace c = false := by
    intro l c hc
    have h := List.head?_dropWhile_not isSpace l
    rwa [Option.mem_def.mp hc] at h
  refine ⟨fun c hc => hhead (l := l) ?_, fun c hc => ?_⟩
  · rw [trimList, List.head?_reverse] at hc
    obtain ⟨u, hu⟩ := List.dropWhile_suffix (p := isSpace) (l := (l.dropWhile isSpace).reverse)
    rw [← List.getLast?_reverse, ← hu]
    exact List.mem_getLast?_append_of_mem_getLast? hc
  · rw [trimList, List.getLast?_reverse] at hc
    exact hhead hc

theorem trimSpace_trimSpace (s : String) : trimSpace (trimSpace s) = trimSpace s :=
  trimSpace_of_tight (by rw [trimSpace_eq, String.toList_ofList]; exact tight_trimList _)

end Strings

end DubboAdmin
