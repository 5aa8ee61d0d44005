import DubboAdmin.Lib.Binary64
import DubboAdmin.Lib.JsonTags
import DubboAdmin.Resource

/-!
# Arguments of generic calls

`pkg/console/service/service_generic_invoke_decode.go`: how the JSON arguments of a generic call are
decoded by the names of their parameter types. A raw message is modelled by the JSON value it holds.
Integers with a point or an exponent go through binary64, where they can be altered
(`decodeIntRaw_exact_iff`), and the null elements of an array of scalars are refused, although a
null argument of the same type is accepted (`decodeGenericInvokeArg_elementwise_iff`).
-/

namespace DubboAdmin.GenericInvoke

open Strings Binary64

/-- What the decoders take from the Go library, as far as nothing here depends on it. -/
structure Runtime (V F : Type) where
  /-- The text of a raw message that is not a string. -/
  text : Json → String
  text_number : ∀ l, text (.number l) = l
  text_null : text .null = "null"
  /-- `strconv.ParseFloat` on what is no decimal numeral; `none` is an infinity or not a number. -/
  parseSpecial : String → Except Failure (Option ℚ)
  parseSpecial_null : ∃ e, parseSpecial "null" = .error e
  /-- The error of `strconv` on a text. -/
  numError : String → Failure
  /-- `%v` of a `float64`. -/
  formatFloat : ℚ → String
  /-- The conversion `float32(value)`. -/
  float32 : ℚ → F
  /-- `json.Unmarshal` into an `any`. -/
  unmarshal : Json → Except Failure V
  /-- The error of `json.Unmarshal` on what is not an array. -/
  arrayError : Json → String

/-- A conversion `int64(value)`: exact where the value fits, any `int64` where it does not. -/
structure Int64Conversion where
  convert : ℚ → ℤ
  exact : ∀ n : ℤ, -2 ^ 63 ≤ n → n < 2 ^ 63 → convert n = n
  range : ∀ q, -2 ^ 63 ≤ convert q ∧ convert q < 2 ^ 63

variable {V F : Type} (rt : Runtime V F) (int64 : Int64Conversion)

/-! ## Numbers -/

/-- `strconv.ParseFloat(text, 64)`: the nearest binary64 number, if there is a finite one. -/
def parseFloat (text : String) : Except Failure (Option ℚ) :=
  match decimalValue text with
  | some v => if 2 ^ 1024 ≤ |nearest v| then .error (rt.numError text) else .ok (some (nearest v))
  | none => rt.parseSpecial text

/-- `parseFloat64Text`. -/
def parseFloat64Text (text : String) : Except Failure ℚ :=
  if trimSpace text = "" then .error (.err "empty value")
  else
    match parseFloat rt (trimSpace text) with
    | .error e => .error e
    | .ok none => .error (.err "invalid numeric value")
    | .ok (some value) => .ok value

/-- `math.Trunc`. -/
def trunc (value : ℚ) : ℤ := if 0 ≤ value then ⌊value⌋ else ⌈value⌉

/-- `int64FromFloat`. The constant `math.MaxInt64` is rounded to a `float64`. -/
def int64FromFloat (value : ℚ) : Except Failure ℤ :=
  if (trunc value : ℚ) ≠ value then
    .error (.err ("value " ++ rt.formatFloat value ++ " is not an integer"))
  else if value < -2 ^ 63 ∨ nearest (2 ^ 63 - 1) < value then
    .error (.err ("value " ++ rt.formatFloat value ++ " out of range"))
  else .ok (int64.convert value)

/-- `parseInt64Text`. -/
def parseInt64Text (text : String) : Except Failure ℤ :=
  if trimSpace text = "" then .error (.err "empty value")
  else if isPointed (trimSpace text) then
    (parseFloat64Text rt (trimSpace text)).bind (int64FromFloat rt int64)
  else
    match parseInt64 (trimSpace text) with
    | some n => .ok n
    | none => .error (rt.numError (trimSpace text))

/-- `parseInt64Raw`, with `parseJSONStringRaw`. -/
def parseInt64Raw : Json → Except Failure ℤ
  | .string text => parseInt64Text rt int64 text
  | raw => parseInt64Text rt int64 (trimSpace (rt.text raw))

/-- `parseFloat64Raw`. -/
def parseFloat64Raw : Json → Except Failure ℚ
  | .string text => parseFloat64Text rt text
  | raw => parseFloat64Text rt (trimSpace (rt.text raw))

/-- `parseBoundedInt64Raw`. -/
def parseBoundedInt64Raw (raw : Json) (minValue maxValue : ℤ) : Except Failure ℤ :=
  (parseInt64Raw rt int64 raw).bind fun value =>
    if value < minValue ∨ maxValue < value then
      .error (.err ("value " ++ toString value ++ " out of range"))
    else .ok value

/-- The signed integer types of the decoders. -/
inductive IntType where
  | int8 | int16 | int32 | int64
deriving DecidableEq

/-- The number of bits. -/
def IntType.bits : IntType → ℕ
  | .int8 => 8
  | .int16 => 16
  | .int32 => 32
  | .int64 => 64

/-- The least value of a type, `math.MinInt8` and so on. -/
def IntType.min (t : IntType) : ℤ := -2 ^ (t.bits - 1)

/-- The greatest value of a type, `math.MaxInt8` and so on. -/
def IntType.max (t : IntType) : ℤ := 2 ^ (t.bits - 1) - 1

theorem IntType.bounds (t : IntType) :
    -2 ^ 63 ≤ t.min ∧ t.min ≤ 0 ∧ 0 ≤ t.max ∧ t.max < 2 ^ 63 := by
  cases t <;> decide

/-- The integer decoders. The conversion to the type keeps a value within its bounds. -/
def decodeIntRaw (t : IntType) (raw : Json) : Except Failure ℤ :=
  parseBoundedInt64Raw rt int64 raw t.min t.max

/-- `decodeInt8Raw`. -/
def decodeInt8Raw : Json → Except Failure ℤ := decodeIntRaw rt int64 .int8

/-- `decodeInt16Raw`. -/
def decodeInt16Raw : Json → Except Failure ℤ := decodeIntRaw rt int64 .int16

/-- `decodeInt32Raw`. -/
def decodeInt32Raw : Json → Except Failure ℤ := decodeIntRaw rt int64 .int32

/-- `decodeInt64Raw`. -/
def decodeInt64Raw : Json → Except Failure ℤ := decodeIntRaw rt int64 .int64

/-- `decodeCharRaw`. -/
def decodeCharRaw : Json → Except Failure ℤ
  | .string text =>
    match text.toList with
    | [c] =>
      if 2 ^ 16 - 1 < c.toNat then .error (.err ("character " ++ quoted text ++ " out of range"))
      else .ok c.toNat
    | _ => .error (.err "expected single character")
  | raw => parseBoundedInt64Raw rt int64 raw 0 (2 ^ 16 - 1)

theorem trunc_eq_iff {q : ℚ} : (trunc q : ℚ) = q ↔ ∃ k : ℤ, q = k := by
  constructor
  · intro h
    exact ⟨trunc q, h.symm⟩
  · rintro ⟨k, rfl⟩
    simp [trunc]

theorem nearest_maxInt64 : nearest (2 ^ 63 - 1) = 2 ^ 63 := by decide +kernel

theorem int64FromFloat_eq_ok {q : ℚ} {n : ℤ} :
    int64FromFloat rt int64 q = .ok n ↔
      ∃ k : ℤ, q = k ∧ -2 ^ 63 ≤ k ∧ k ≤ 2 ^ 63 ∧ int64.convert k = n := by
  unfold int64FromFloat
  rw [nearest_maxInt64]
  constructor
  · intro h
    split_ifs at h with htrunc hrange
    obtain ⟨k, rfl⟩ := trunc_eq_iff.mp (not_not.mp htrunc)
    push Not at hrange
    exact ⟨k, rfl, by exact_mod_cast hrange.1, by exact_mod_cast hrange.2, Except.ok.inj h⟩
  · rintro ⟨k, rfl, hlow, hhigh, rfl⟩
    have hrange : ¬((k : ℚ) < -2 ^ 63 ∨ 2 ^ 63 < (k : ℚ)) := by
      push Not
      exact ⟨by exact_mod_cast hlow, by exact_mod_cast hhigh⟩
    rw [if_neg (not_not.mpr (trunc_eq_iff.mpr ⟨k, rfl⟩)), if_neg hrange]

/-- What is returned for a numeral: the number that its rounding converts to, if it has a point or
an exponent, and otherwise its own value. -/
theorem parseInt64Text_eq_ok {text : String} {v : ℚ} {n : ℤ}
    (hv : decimalValue (trimSpace text) = some v) :
    parseInt64Text rt int64 text = .ok n ↔
      if isPointed (trimSpace text) then
        ∃ k : ℤ, nearest v = k ∧ -2 ^ 63 ≤ k ∧ k ≤ 2 ^ 63 ∧ int64.convert k = n
      else v = n ∧ -2 ^ 63 ≤ n ∧ n < 2 ^ 63 := by
  have hempty : decimalValue "" = none := by decide +kernel
  have hne : trimSpace text ≠ "" := by
    intro h
    rw [h, hempty] at hv
    cases hv
  unfold parseInt64Text
  rw [if_neg hne]
  split_ifs with hpointed
  · unfold parseFloat64Text parseFloat
    rw [trimSpace_trimSpace, if_neg hne, hv]
    dsimp only
    split_ifs with hlarge
    · refine ⟨nofun, ?_⟩
      rintro ⟨k, hk, hlow, hhigh, -⟩
      have habs : |(k : ℚ)| ≤ 2 ^ 63 := abs_le.mpr ⟨by exact_mod_cast hlow, by exact_mod_cast hhigh⟩
      rw [hk] at hlarge
      exact absurd (hlarge.trans habs) (pow_lt_pow_right₀ one_lt_two (by decide)).not_ge
    · exact int64FromFloat_eq_ok rt int64
  · rw [← parseInt64_eq_some_iff hv (Bool.eq_false_iff.mpr hpointed)]
    cases parseInt64 (trimSpace text) <;> simp

/-- A raw message that holds a text: as a number, or in a string. -/
def HoldsText (raw : Json) (text : String) : Prop := raw = .number text ∨ raw = .string text

variable {rt int64}

theorem decodeIntRaw_eq_ok {t : IntType} {raw : Json} {text : String} {n : ℤ}
    (hraw : HoldsText raw text) :
    decodeIntRaw rt int64 t raw = .ok n ↔
      parseInt64Text rt int64 text = .ok n ∧ t.min ≤ n ∧ n ≤ t.max := by
  have hparse : parseInt64Raw rt int64 raw = parseInt64Text rt int64 text := by
    rcases hraw with rfl | rfl
    · unfold parseInt64Raw parseInt64Text
      dsimp only
      rw [rt.text_number, trimSpace_trimSpace]
    · rfl
  unfold decodeIntRaw parseBoundedInt64Raw
  rw [hparse]
  cases parseInt64Text rt int64 text with
  | error e => simp [Except.bind]
  | ok value =>
    simp only [Except.bind, Except.ok.injEq]
    split_ifs with hrange <;> simp <;> omega

/-- The rounding of a value ends in another integer of the type, or in the bound that the check of
the range lets through. -/
def Altered (t : IntType) (v : ℚ) : Prop :=
  ∃ k : ℤ, nearest v = k ∧ (k = 2 ^ 63 ∨ t.min ≤ k ∧ k ≤ t.max ∧ v ≠ k)

/-- The conversion that yields zero for what does not fit. -/
def zeroing : Int64Conversion where
  convert q := if -2 ^ 63 ≤ trunc q ∧ trunc q < 2 ^ 63 then trunc q else 0
  exact n hlow hhigh := by
    rw [show trunc n = n by simp [trunc], if_pos ⟨hlow, hhigh⟩]
  range q := by
    split_ifs with h
    · exact h
    · decide

/-- However values out of range are converted, an integer argument is decoded to its own value or
refused, exactly if it has no point and no exponent or its rounding does not alter it. -/
theorem decodeIntRaw_exact_iff (rt : Runtime V F) (t : IntType) {raw : Json} {text : String} {v : ℚ}
    (hraw : HoldsText raw text) (hv : decimalValue (trimSpace text) = some v) :
    (∀ int64 n, decodeIntRaw rt int64 t raw = .ok n → v = n ∧ t.min ≤ n ∧ n ≤ t.max) ↔
      (isPointed (trimSpace text) = true → ¬Altered t v) := by
  obtain ⟨hmin, hmin0, hmax0, hmax⟩ := t.bounds
  simp only [decodeIntRaw_eq_ok hraw, parseInt64Text_eq_ok rt _ hv]
  constructor
  · rintro h hpointed ⟨k, hk, rfl | ⟨hlow, hhigh, hne⟩⟩
    · -- A conversion that yields zero.
      have hzero : v = (0 : ℤ) := (h zeroing 0 (by
        rw [if_pos hpointed]
        exact ⟨⟨_, hk, by decide, by decide, by decide +kernel⟩, hmin0, hmax0⟩)).1
      rw [hzero, Int.cast_zero, nearest_zero] at hk
      exact absurd hk (by decide)
    · refine hne (h zeroing k ?_).1
      rw [if_pos hpointed]
      exact ⟨⟨k, hk, by omega, by omega, zeroing.exact k (by omega) (by omega)⟩, hlow, hhigh⟩
  · rintro h int64 n ⟨hparse, hlow, hhigh⟩
    refine ⟨?_, hlow, hhigh⟩
    split_ifs at hparse with hpointed
    · obtain ⟨k, hk, hk1, hk2, rfl⟩ := hparse
      have hne : k ≠ 2 ^ 63 := fun hmax => h hpointed ⟨k, hk, .inl hmax⟩
      rw [int64.exact k hk1 (by omega)] at hlow hhigh ⊢
      by_contra hv'
      exact h hpointed ⟨k, hk, .inr ⟨hlow, hhigh, hv'⟩⟩
    · exact hparse.1

/-- A runtime that knows numbers and the null only. -/
def sampleRuntime : Runtime Unit ℚ where
  text
    | .number l => l
    | .null => "null"
    | _ => ""
  text_number _ := rfl
  text_null := rfl
  parseSpecial text := .error (.err ("strconv.ParseFloat: parsing " ++ text))
  parseSpecial_null := ⟨_, rfl⟩
  numError text := .err ("strconv: parsing " ++ text)
  formatFloat _ := ""
  float32 q := q
  unmarshal _ := .ok ()
  arrayError _ := ""

/-- `2^53 + 1`, written with a fraction, is decoded to another number. -/
theorem decodeInt64Raw_alters :
    decimalValue "9007199254740993.0" = some 9007199254740993 ∧
      decodeInt64Raw sampleRuntime zeroing (.number "9007199254740993.0") =
        .ok 9007199254740992 := by
  decide +kernel

theorem decodeIntRaw_exact_hundred :
    HoldsText (.string "1e2") "1e2" ∧
      ∀ int64 n, decodeIntRaw sampleRuntime int64 .int8 (.string "1e2") = .ok n →
        (100 : ℚ) = n ∧ IntType.min .int8 ≤ n ∧ n ≤ IntType.max .int8 := by
  refine ⟨.inr rfl, (decodeIntRaw_exact_iff sampleRuntime .int8 (.inr rfl)
    (by decide +kernel)).mpr fun _ => ?_⟩
  rintro ⟨k, hk, hcase⟩
  rw [show nearest 100 = (100 : ℤ) by decide +kernel, Int.cast_inj] at hk
  subst hk
  rcases hcase with h | h
  · exact absurd h (by decide)
  · exact h.2.2 rfl

/-! ## Arguments -/

/-- The scalar parameter types. -/
inductive Scalar where
  | byte | short | int | long | float | double | char
deriving DecidableEq

/-- The cases of the type switches: the scalar type with a name. -/
def scalarOf : String → Option Scalar
  | "byte" | "java.lang.Byte" => some .byte
  | "short" | "java.lang.Short" => some .short
  | "int" | "java.lang.Integer" => some .int
  | "long" | "java.lang.Long" => some .long
  | "float" | "java.lang.Float" => some .float
  | "double" | "java.lang.Double" => some .double
  | "char" | "java.lang.Character" => some .char
  | _ => none

/-- A decoded argument, by its dynamic type. -/
inductive Value (V F : Type) where
  | nil
  | int (t : IntType) (n : ℤ)
  | float32 (x : F)
  | float64 (x : ℚ)
  | uint16 (n : ℤ)
  | json (v : V)
  /-- A slice: of a scalar type, or of `any`. -/
  | slice (element : Option Scalar) (elements : List (Value V F))

variable (rt int64)

/-- The decoder of a scalar type. -/
def decodeScalar : Scalar → Json → Except Failure (Value V F)
  | .byte, raw => (decodeInt8Raw rt int64 raw).map (.int .int8)
  | .short, raw => (decodeInt16Raw rt int64 raw).map (.int .int16)
  | .int, raw => (decodeInt32Raw rt int64 raw).map (.int .int32)
  | .long, raw => (decodeInt64Raw rt int64 raw).map (.int .int64)
  | .float, raw => (parseFloat64Raw rt raw).map fun q => .float32 (rt.float32 q)
  | .double, raw => (parseFloat64Raw rt raw).map .float64
  | .char, raw => (decodeCharRaw rt int64 raw).map .uint16

/-- `isNullRawMessage`. -/
def isNullRawMessage : Json → Bool
  | .null => true
  | _ => false

/-- The loop of `decodeRawArray` from an index on. -/
def decodeElements {α : Type} (decode : Json → Except Failure α) :
    ℕ → List Json → Except Failure (List α)
  | _, [] => .ok []
  | index, element :: elements =>
    match decode element with
    | .error (.err e) =>
      .error (.err ("invalid array element at index " ++ toString index ++ ": " ++ e))
    | .error e => .error e
    | .ok decoded => (decodeElements decode (index + 1) elements).map (decoded :: ·)

/-- `decodeRawArray`. -/
def decodeRawArray (element : Option Scalar) (decode : Json → Except Failure (Value V F)) :
    Json → Except Failure (Value V F)
  | .null => .ok (.slice element [])
  | .array elements => (decodeElements decode 0 elements).map (.slice element)
  | raw => .error (.err ("expected JSON array: " ++ rt.arrayError raw))

/-- `splitGenericArrayType`. -/
def splitGenericArrayType (parameterType : String) : Option String :=
  if hasSuffix parameterType "[]" then
    some (String.ofList (parameterType.toList.take (parameterType.length - 2)))
  else none

theorem length_lt_of_splitGenericArrayType {parameterType elementType : String}
    (h : splitGenericArrayType parameterType = some elementType) :
    elementType.length < parameterType.length := by
  unfold splitGenericArrayType at h
  split_ifs at h with hsuffix
  cases h
  have hlength : 2 ≤ parameterType.length := (List.isSuffixOf_iff_suffix.mp hsuffix).length_le
  rw [String.length_ofList, List.length_take]
  omega

/-- `decodeGenericInvokeArg`, with `decodeGenericInvokeArrayArg`. -/
def decodeGenericInvokeArg (parameterType : String) (raw : Json) : Except Failure (Value V F) :=
  if isNullRawMessage raw then .ok .nil
  else if parameterType = "" then (rt.unmarshal raw).map .json
  else
    match _h : splitGenericArrayType parameterType with
    | some elementType =>
      match scalarOf (trimSpace elementType) with
      | some s => decodeRawArray rt (some s) (decodeScalar rt int64 s) raw
      | none => decodeRawArray rt none (fun item => decodeGenericInvokeArg elementType item) raw
    | none =>
      match scalarOf parameterType with
      | some s => decodeScalar rt int64 s raw
      | none => (rt.unmarshal raw).map .json
termination_by parameterType.length
decreasing_by exact length_lt_of_splitGenericArrayType _h

/-- The elements of a slice that a call has returned. -/
def elementsOf : Except Failure (Value V F) → Option (List (Value V F))
  | .ok (.slice _ elements) => some elements
  | _ => none

theorem toOption_decodeElements {α : Type} (decode : Json → Except Failure α) (index : ℕ)
    (xs : List Json) :
    (decodeElements decode index xs).toOption = xs.mapM fun x => (decode x).toOption := by
  induction xs generalizing index with
  | nil => rfl
  | cons x xs ih =>
    rw [List.mapM_cons, ← ih (index + 1), decodeElements]
    rcases decode x with ⟨_ | _⟩ | decoded
    · rfl
    · rfl
    · cases decodeElements decode (index + 1) xs <;> rfl

theorem decodeScalar_null (s : Scalar) : (decodeScalar rt int64 s .null).toOption = none := by
  have htrim : trimSpace (trimSpace (rt.text .null)) = "null" := by
    rw [rt.text_null]
    decide +kernel
  have hint : parseInt64Raw rt int64 .null = .error (rt.numError "null") := by
    unfold parseInt64Raw parseInt64Text
    dsimp only
    rw [htrim]
    rfl
  have hfloat : ∃ e, parseFloat64Raw rt .null = .error e := by
    obtain ⟨e, he⟩ := rt.parseSpecial_null
    refine ⟨e, ?_⟩
    unfold parseFloat64Raw parseFloat64Text parseFloat
    dsimp only
    rw [htrim, show decimalValue "null" = none by decide +kernel]
    simp [he]
  obtain ⟨e, he⟩ := hfloat
  cases s <;> simp [decodeScalar, decodeInt8Raw, decodeInt16Raw, decodeInt32Raw, decodeInt64Raw,
    decodeCharRaw, decodeIntRaw, parseBoundedInt64Raw, hint, he] <;> rfl

theorem splitGenericArrayType_append (T : String) : splitGenericArrayType (T ++ "[]") = some T := by
  have hsuffix : hasSuffix (T ++ "[]") "[]" = true := by simp [hasSuffix]
  have hlength : (T ++ "[]").length - 2 = T.toList.length := by
    rw [String.length_append, String.length_toList]
    rfl
  rw [splitGenericArrayType, if_pos hsuffix, hlength, String.toList_append, List.take_left,
    String.ofList_toList]

theorem decodeGenericInvokeArg_scalar {T : String} {s : Scalar} (h : scalarOf T = some s)
    (x : Json) :
    decodeGenericInvokeArg rt int64 T x =
      if isNullRawMessage x then .ok .nil else decodeScalar rt int64 s x := by
  have hnames : T ≠ "" ∧ splitGenericArrayType T = none := by
    unfold scalarOf at h
    split at h
    all_goals first | decide +kernel | cases h
  rw [decodeGenericInvokeArg, if_neg hnames.1]
  split
  · rfl
  · split
    · simp_all
    · rw [h]

/-- The elements of an array are decoded as arguments, but nulls are refused by a scalar type. -/
theorem elementsOf_decodeGenericInvokeArg {T : String} (hT : ∀ c ∈ T.toList, isSpace c = false)
    (xs : List Json) :
    elementsOf (decodeGenericInvokeArg rt int64 (T ++ "[]") (.array xs)) =
      xs.mapM fun x =>
        if (scalarOf T).isSome ∧ isNullRawMessage x then none
        else (decodeGenericInvokeArg rt int64 T x).toOption := by
  have htrim : trimSpace T = T :=
    trimSpace_of_tight ⟨fun c hc => hT c (List.mem_of_mem_head? hc),
      fun c hc => hT c (List.mem_of_mem_getLast? hc)⟩
  have hslice : ∀ (element : Option Scalar) (decode : Json → Except Failure (Value V F)),
      elementsOf (decodeRawArray rt element decode (.array xs)) =
        xs.mapM fun x => (decode x).toOption := by
    intro element decode
    rw [← toOption_decodeElements decode 0 xs, decodeRawArray]
    cases decodeElements decode 0 xs <;> rfl
  have hnull : ¬isNullRawMessage (.array xs) = true := by simp [isNullRawMessage]
  rw [decodeGenericInvokeArg, if_neg hnull, if_neg (by simp)]
  split
  · rename_i elementType hsplit
    obtain rfl : T = elementType :=
      Option.some.inj ((splitGenericArrayType_append T).symm.trans hsplit)
    rw [htrim]
    split
    · rename_i s hs
      rw [hslice]
      refine congrArg (xs.mapM ·) (funext fun x => ?_)
      rw [decodeGenericInvokeArg_scalar rt int64 hs, hs]
      cases x <;> simp [isNullRawMessage, decodeScalar_null]
    · rename_i hs
      rw [hslice]
      simp [hs]
  · rename_i hsplit
    rw [splitGenericArrayType_append] at hsplit
    cases hsplit

theorem mapM_eq_none_iff {α β : Type} {f : α → Option β} {xs : List α} :
    xs.mapM f = none ↔ ∃ x ∈ xs, f x = none := by
  induction xs with
  | nil => simp
  | cons x xs ih =>
    simp only [List.mapM_cons, List.mem_cons, exists_eq_or_imp, ← ih]
    cases f x <;> cases xs.mapM f <;> simp

theorem mapM_congr {α β : Type} {f g : α → Option β} {xs : List α} (h : ∀ x ∈ xs, f x = g x) :
    xs.mapM f = xs.mapM g := by
  induction xs with
  | nil => rfl
  | cons x xs ih =>
    rw [List.mapM_cons, List.mapM_cons, h x List.mem_cons_self,
      ih fun y hy => h y (List.mem_cons_of_mem _ hy)]

/-- An argument of a scalar type is refused exactly if it is not null and the decoder of the type
refuses it. -/
theorem decodeGenericInvokeArg_refused_iff {T : String} {s : Scalar} (h : scalarOf T = some s)
    (x : Json) :
    (decodeGenericInvokeArg rt int64 T x).toOption = none ↔
      isNullRawMessage x = false ∧ ∃ e, decodeScalar rt int64 s x = .error e := by
  rw [decodeGenericInvokeArg_scalar rt int64 h]
  cases isNullRawMessage x with
  | false => cases decodeScalar rt int64 s x <;> simp [Except.toOption]
  | true => simp [Except.toOption]

/-- An array argument is decoded elementwise exactly if it is not of a scalar type, or has no null,
or has another element that the decoder of the type refuses: the null elements of scalar types are
refused, null arguments are not. -/
theorem decodeGenericInvokeArg_elementwise_iff {T : String}
    (hT : ∀ c ∈ T.toList, isSpace c = false) (xs : List Json) :
    (elementsOf (decodeGenericInvokeArg rt int64 (T ++ "[]") (.array xs)) =
        xs.mapM fun x => (decodeGenericInvokeArg rt int64 T x).toOption) ↔
      (∀ s, scalarOf T = some s → (∃ x ∈ xs, isNullRawMessage x) →
        ∃ x ∈ xs, isNullRawMessage x = false ∧ ∃ e, decodeScalar rt int64 s x = .error e) := by
  rw [elementsOf_decodeGenericInvokeArg rt int64 hT]
  by_cases hnull : (scalarOf T).isSome ∧ ∃ x ∈ xs, isNullRawMessage x
  · obtain ⟨⟨s, hs⟩, x, hx, hxnull⟩ := And.imp_left Option.isSome_iff_exists.mp hnull
    have hnone : (xs.mapM fun x => if (scalarOf T).isSome ∧ isNullRawMessage x then none
        else (decodeGenericInvokeArg rt int64 T x).toOption) = none :=
      mapM_eq_none_iff.mpr ⟨x, hx, if_pos ⟨hnull.1, hxnull⟩⟩
    rw [hnone, eq_comm, mapM_eq_none_iff]
    simp only [decodeGenericInvokeArg_refused_iff rt int64 hs, hs, Option.some.injEq, forall_eq']
    exact ⟨fun h _ => h, fun h => h hnull.2⟩
  · refine iff_of_true ?_ fun s hs hx => absurd ⟨Option.isSome_of_eq_some hs, hx⟩ hnull
    exact mapM_congr fun x hx => if_neg fun h => hnull ⟨h.1, x, hx, h.2⟩

theorem isSpace_int : ∀ c ∈ "int".toList, isSpace c = false := by
  have hall : ("int".toList.all fun c => !isSpace c) = true := by decide +kernel
  intro c hc
  simpa using List.all_eq_true.mp hall c hc

theorem decodeGenericInvokeArg_elementwise_ints :
    elementsOf (decodeGenericInvokeArg sampleRuntime zeroing ("int" ++ "[]")
        (.array [.number "1", .string "2"])) =
      [Json.number "1", .string "2"].mapM fun x =>
        (decodeGenericInvokeArg sampleRuntime zeroing "int" x).toOption := by
  refine (decodeGenericInvokeArg_elementwise_iff _ _ isSpace_int _).mpr fun _ _ hnull => ?_
  obtain ⟨x, hx, hxnull⟩ := hnull
  simp only [List.mem_cons, List.not_mem_nil, or_false] at hx
  rcases hx with rfl | rfl <;> cases hxnull

/-- A null is accepted as an `int`, but not in an `int[]`. -/
theorem decodeGenericInvokeArg_null_element :
    decodeGenericInvokeArg sampleRuntime zeroing "int" .null = .ok .nil ∧
      elementsOf (decodeGenericInvokeArg sampleRuntime zeroing ("int" ++ "[]") (.array [.null])) =
        none :=
  ⟨decodeGenericInvokeArg_scalar _ _ (show scalarOf "int" = some .int from rfl) .null,
    elementsOf_decodeGenericInvokeArg _ _ isSpace_int [.null]⟩

end DubboAdmin.GenericInvoke
