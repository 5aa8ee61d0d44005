import Mathlib.Algebra.Ring.Int.Defs
import Mathlib.Data.List.Infix
import Mathlib.Data.String.Basic

/-!
# Prefixes, separators, and patterns of strings

What programs that build composite keys by concatenation rely on, read on the characters of a
string. `cut` splits a string at the first separator and undoes a concatenation whose left part is
free of it (`cut_join`), so that such concatenations are injective (`join_inj`, `join_inj_right`).
`split` splits a string at all its separators, and `cutAt` at the first occurrence of a longer one.
`like` is SQL's `LIKE`, `parseInt64` reads a decimal number that fits into 64 bits, and `quoted` is
a string literal for a text.
-/

namespace DubboAdmin.Strings

/-! ## Prefixes -/

/-- Whether `s` starts with `p`. -/
def hasPrefix (s p : String) : Bool := p.toList.isPrefixOf s.toList

variable {s : String}

theorem hasPrefix_iff {p : String} : hasPrefix s p = true ↔ p.toList <+: s.toList :=
  List.isPrefixOf_iff_prefix

theorem hasPrefix_append {p t : String} (h : hasPrefix s p = true) :
    hasPrefix (s ++ t) p = true := by
  rw [hasPrefix_iff] at h ⊢
  rw [String.toList_append]
  exact h.trans (List.prefix_append _ _)

/-- Whether `s` ends with `p`. -/
def hasSuffix (s p : String) : Bool := p.toList.isSuffixOf s.toList

/-! ## Literals -/

/-- Whether a character is printed as it is. All characters from U+0100 on are taken to be. -/
def isPrint (c : Char) : Bool :=
  (0x20 ≤ c.toNat && c.toNat < 0x7F) || (0xA1 ≤ c.toNat && c.toNat ≠ 0xAD)

/-- The escapes that have a letter. -/
def letterEscapes : List (ℕ × Char) :=
  [(7, 'a'), (8, 'b'), (9, 't'), (10, 'n'), (11, 'v'), (12, 'f'), (13, 'r')]

/-- A character in a string literal. The other characters that are not printed are below U+0100. -/
def escaped (c : Char) : List Char :=
  if c = '"' || c = '\\' then ['\\', c]
  else if isPrint c then [c]
  else match letterEscapes.lookup c.toNat with
    | some letter => ['\\', letter]
    | none =>
      (if c.toNat < 0x80 then "\\x".toList else "\\u00".toList) ++
        [Nat.digitChar (c.toNat / 16), Nat.digitChar (c.toNat % 16)]

/-- The double-quoted string literal of `%q`. -/
def quoted (s : String) : String := String.ofList ('"' :: s.toList.flatMap escaped ++ ['"'])

/-! ## White space -/

/-- Whether a character is white space in Unicode. -/
def isSpace (c : Char) : Bool :=
  c.toNat ∈ [0x09, 0x0A, 0x0B, 0x0C, 0x0D, 0x20, 0x85, 0xA0, 0x1680, 0x2028, 0x2029, 0x202F, 0x205F,
    0x3000] || (0x2000 ≤ c.toNat && c.toNat ≤ 0x200A)

/-- A string without the white space at its ends. -/
def trimSpace (s : String) : String :=
  String.ofList ((s.toList.dropWhile isSpace).reverse.dropWhile isSpace).reverse

/-- Whether a string holds white space only. -/
def isBlank (s : String) : Bool := s.toList.all isSpace

variable {c : Char}

theorem isBlank_eq_false (hc : c ∈ s.toList) (hspace : isSpace c = false) :
    isBlank s = false := by
  unfold isBlank
  rw [List.all_eq_false]
  exact ⟨c, hc, by rw [hspace]; exact Bool.false_ne_true⟩

/-- The characters without the white space at their ends. -/
def trimList (l : List Char) : List Char :=
  ((l.dropWhile isSpace).reverse.dropWhile isSpace).reverse

/-- There is no white space at the ends. -/
def Tight (l : List Char) : Prop :=
  (∀ c ∈ l.head?, isSpace c = false) ∧ ∀ c ∈ l.getLast?, isSpace c = false

/-- Decided at the two ends. -/
instance (l : List Char) : Decidable (Tight l) :=
  @instDecidableAnd _ _ (@Option.decidableForallMem _ _ (fun _ => inferInstance) _)
    (@Option.decidableForallMem _ _ (fun _ => inferInstance) _)

theorem trimSpace_eq (s : String) : trimSpace s = String.ofList (trimList s.toList) := rfl

variable {u l : List Char}

theorem dropWhile_pad (hu : ∀ c ∈ u, isSpace c = true) (hl : ∀ c ∈ l.head?, isSpace c = false) :
    (u ++ l).dropWhile isSpace = l := by
  rw [List.dropWhile_append_of_pos hu]
  cases l with
  | nil => rfl
  | cons c l => exact List.dropWhile_cons_of_neg (by rw [hl c rfl]; exact Bool.false_ne_true)

/-- White space around characters that have none at their ends is removed. -/
theorem trimList_pad {v : List Char} (hu : ∀ c ∈ u, isSpace c = true)
    (hv : ∀ c ∈ v, isSpace c = true) (hl : Tight l) : trimList (u ++ l ++ v) = l := by
  have hv' : ∀ c ∈ v.reverse, isSpace c = true := fun c hc => hv c (List.mem_reverse.mp hc)
  unfold trimList
  cases l with
  | nil =>
    have hblank : ∀ c ∈ u ++ v, isSpace c = true := by
      intro c hc
      exact (List.mem_append.mp hc).elim (hu c) (hv c)
    have hdrop : (u ++ v).dropWhile isSpace = [] := by
      have hpad := dropWhile_pad (l := []) hblank nofun
      rwa [List.append_nil] at hpad
    rw [List.append_nil, hdrop]
    rfl
  | cons c l =>
    have hlast : ∀ d ∈ (c :: l).reverse.head?, isSpace d = false := by
      rw [List.head?_reverse]
      exact hl.2
    rw [List.append_assoc, dropWhile_pad hu (by exact hl.1), List.reverse_append,
      dropWhile_pad hv' hlast, List.reverse_reverse]

theorem trimSpace_ofList_pad {v : List Char} (hu : ∀ c ∈ u, isSpace c = true)
    (hv : ∀ c ∈ v, isSpace c = true) (hs : Tight s.toList) :
    trimSpace (String.ofList (u ++ s.toList ++ v)) = s := by
  rw [trimSpace_eq, String.toList_ofList, trimList_pad hu hv hs, String.ofList_toList]

theorem trimSpace_of_tight (hs : Tight s.toList) : trimSpace s = s := by
  have hpad : trimSpace (String.ofList ([] ++ s.toList ++ [])) = s :=
    trimSpace_ofList_pad nofun nofun hs
  rwa [List.nil_append, List.append_nil, String.ofList_toList] at hpad

/-! ## Numbers -/

/-- The number that a list of decimal digits denotes, if it is one and not empty. -/
def parseDigits (ds : List Char) : Option ℕ :=
  if ds ≠ [] ∧ ds.all Char.isDigit then
    some (ds.foldl (fun n c => 10 * n + (c.toNat - '0'.toNat)) 0)
  else none

/-- A decimal number with an optional sign, where it is within the signed 64-bit integers. -/
def parseInt64 (s : String) : Option ℤ :=
  let value : Option ℤ := match s.toList with
    | '-' :: ds => (parseDigits ds).map fun n => -(n : ℤ)
    | '+' :: ds => (parseDigits ds).map fun n => (n : ℤ)
    | ds => (parseDigits ds).map fun n => (n : ℤ)
  value.filter fun v => -2 ^ 63 ≤ v ∧ v < 2 ^ 63

theorem parseDigits_toDigits (n : ℕ) : parseDigits (Nat.toDigits 10 n) = some n := by
  have hdigits : (Nat.toDigits 10 n).all Char.isDigit = true :=
    List.all_eq_true.mpr fun c hc => Nat.isDigit_of_mem_toDigits (by decide) (by decide) hc
  have hvalue : Nat.ofDigitChars 10 (Nat.toDigits 10 n) 0 = n :=
    Nat.ofDigitChars_toDigits (by decide) (by decide)
  unfold parseDigits
  rw [if_pos ⟨Nat.toDigits_ne_nil, hdigits⟩]
  exact congrArg some hvalue

theorem notMem_repr_of_not_isDigit (hc : c.isDigit = false) (n : ℕ) :
    c ∉ n.repr.toList := by
  intro hmem
  rw [Nat.toList_repr] at hmem
  have hdigit : c.isDigit = true := Nat.isDigit_of_mem_toDigits (by decide) (by decide) hmem
  rw [hdigit] at hc
  cases hc

theorem notMem_toString_int (hc : c.isDigit = false) (hsign : c ≠ '-') (n : ℤ) :
    c ∉ (toString n).toList := by
  cases n with
  | ofNat n => exact notMem_repr_of_not_isDigit hc n
  | negSucc n =>
    show c ∉ ("-" ++ (n + 1).repr).toList
    rw [String.toList_append, List.mem_append, not_or]
    exact ⟨fun hmem => hsign (List.mem_singleton.mp hmem), notMem_repr_of_not_isDigit hc (n + 1)⟩

/-- A natural number is read back from its decimal notation, which starts with no sign. -/
theorem parseInt64_repr {m : ℕ} (hlt : (m : ℤ) < 2 ^ 63) : parseInt64 m.repr = some (m : ℤ) := by
  have hsign : ∀ c ds, Nat.toDigits 10 m = c :: ds → c ≠ '-' ∧ c ≠ '+' := by
    intro c ds hcons
    have hdigit : c.isDigit = true := Nat.isDigit_of_mem_toDigits (b := 10) (n := m) (by decide)
      (by decide) (hcons ▸ List.mem_cons_self)
    constructor
    · rintro rfl
      exact absurd hdigit (by decide)
    · rintro rfl
      exact absurd hdigit (by decide)
  have hrange : (-2 ^ 63 : ℤ) ≤ m ∧ (m : ℤ) < 2 ^ 63 := ⟨by omega, hlt⟩
  unfold parseInt64
  rw [Nat.toList_repr]
  have hparse := parseDigits_toDigits m
  cases hcons : Nat.toDigits 10 m with
  | nil => exact absurd hcons Nat.toDigits_ne_nil
  | cons c ds =>
    rw [hcons] at hparse
    obtain ⟨hminus, hplus⟩ := hsign c ds hcons
    split
    · next heq => exact absurd (List.cons.inj heq).1 hminus
    · next heq => exact absurd (List.cons.inj heq).1 hplus
    · rw [hparse]
      show (some (m : ℤ)).filter _ = some (m : ℤ)
      rw [Option.filter_some, if_pos (decide_eq_true hrange)]

/-- A signed 64-bit integer is read back from its decimal notation. -/
theorem parseInt64_toString {n : ℤ} (hle : -2 ^ 63 ≤ n) (hlt : n < 2 ^ 63) :
    parseInt64 (toString n) = some n := by
  cases n with
  | ofNat m => exact parseInt64_repr hlt
  | negSucc m =>
    have hlist : (toString (Int.negSucc m)).toList = '-' :: Nat.toDigits 10 (m + 1) := by
      show ("-" ++ (m + 1).repr).toList = _
      rw [String.toList_append, Nat.toList_repr]
      rfl
    have hrange : (-2 ^ 63 : ℤ) ≤ Int.negSucc m ∧ Int.negSucc m < 2 ^ 63 := ⟨hle, hlt⟩
    unfold parseInt64
    rw [hlist]
    split
    · next heq =>
      obtain ⟨-, rfl⟩ := List.cons.inj heq
      rw [parseDigits_toDigits]
      show (some (Int.negSucc m)).filter _ = _
      rw [Option.filter_some, if_pos (decide_eq_true hrange)]
    · next heq => exact absurd (List.cons.inj heq).1 (by decide)
    · next hminus _ => exact absurd rfl (hminus _)

/-! ## The first separator -/

/-- A list of characters cut at the first `sep`, or `none` where `sep` does not occur. -/
def cutList (sep : Char) : List Char → Option (List Char × List Char)
  | [] => none
  | c :: cs => if c = sep then some ([], cs) else (cutList sep cs).map fun ab => (c :: ab.1, ab.2)

/-- A string cut at its first `sep`: the parts before and after it, or `none` where `sep` does not
occur. -/
def cut (sep : Char) (s : String) : Option (String × String) :=
  (cutList sep s.toList).map fun ab => (String.ofList ab.1, String.ofList ab.2)

variable {sep : Char} {a b : List Char}

/-- The cut of a list is at a separator that its left part is free of. -/
theorem cutList_eq_some (h : cutList sep l = some (a, b)) :
    l = a ++ sep :: b ∧ sep ∉ a := by
  induction l generalizing a with
  | nil => simp [cutList] at h
  | cons c cs ih =>
    unfold cutList at h
    split_ifs at h with hc
    · obtain ⟨rfl, rfl⟩ : a = [] ∧ b = cs := by simpa [eq_comm] using h
      exact ⟨by rw [hc]; rfl, List.not_mem_nil⟩
    · obtain ⟨⟨a', b'⟩, hcut, hab⟩ := Option.map_eq_some_iff.mp h
      obtain ⟨rfl, rfl⟩ : c :: a' = a ∧ b' = b := by simpa using hab
      obtain ⟨hcs, hsep⟩ := ih hcut
      refine ⟨by rw [hcs]; rfl, ?_⟩
      rw [List.mem_cons]
      rintro (rfl | hmem)
      · exact hc rfl
      · exact hsep hmem

theorem cutList_append (h : sep ∉ a) (b : List Char) :
    cutList sep (a ++ sep :: b) = some (a, b) := by
  induction a with
  | nil => simp [cutList]
  | cons c a ih =>
    rw [List.mem_cons, not_or] at h
    rw [List.cons_append, cutList, if_neg (Ne.symm h.1), ih h.2]
    rfl

theorem toList_join (a b : String) (sep : Char) :
    (a ++ String.singleton sep ++ b).toList = a.toList ++ sep :: b.toList := by
  simp [String.toList_append]

theorem cut_join {a : String} (h : sep ∉ a.toList) (b : String) :
    cut sep (a ++ String.singleton sep ++ b) = some (a, b) := by
  unfold cut
  rw [toList_join, cutList_append h]
  simp

theorem cut_eq_some {a b : String} (h : cut sep s = some (a, b)) :
    s = a ++ String.singleton sep ++ b ∧ sep ∉ a.toList := by
  obtain ⟨⟨a', b'⟩, hcut, hab⟩ := Option.map_eq_some_iff.mp h
  obtain ⟨rfl, rfl⟩ : String.ofList a' = a ∧ String.ofList b' = b := by simpa using hab
  obtain ⟨hs, hsep⟩ := cutList_eq_some hcut
  refine ⟨?_, by rwa [String.toList_ofList]⟩
  rw [← String.toList_inj, toList_join, String.toList_ofList, String.toList_ofList]
  exact hs

theorem join_inj {a b a' b' : String} (ha : sep ∉ a.toList) (ha' : sep ∉ a'.toList)
    (h : a ++ String.singleton sep ++ b = a' ++ String.singleton sep ++ b') :
    a = a' ∧ b = b' := by
  have hcut := cut_join ha b
  rw [h, cut_join ha' b'] at hcut
  simpa [eq_comm] using hcut

theorem join_inj_right {a' b' : List Char} (hb : sep ∉ b) (hb' : sep ∉ b')
    (h : a ++ sep :: b = a' ++ sep :: b') : a = a' ∧ b = b' := by
  have hrev := congrArg List.reverse h
  simp only [List.reverse_append, List.reverse_cons, List.append_assoc, List.singleton_append]
    at hrev
  have hcut := cutList_append (List.mem_reverse.not.mpr hb) a.reverse
  rw [hrev, cutList_append (List.mem_reverse.not.mpr hb') a'.reverse] at hcut
  obtain ⟨hbb, haa⟩ : b' = b ∧ a' = a := by simpa using hcut
  exact ⟨haa.symm, hbb.symm⟩

/-! ## All separators -/

/-- The parts of a string between its separators. There is always one more part than separators. -/
def split (sep : Char) (s : String) : List String := (s.toList.splitOn sep).map String.ofList

theorem split_join {a : String} (h : sep ∉ a.toList) (b : String) :
    split sep (a ++ String.singleton sep ++ b) = a :: split sep b := by
  unfold split
  rw [toList_join, List.splitOn_append_cons_self_of_not_mem h, List.map_cons, String.ofList_toList]

theorem split_append (sep : Char) (a b : String) :
    split sep (a ++ String.singleton sep ++ b) = split sep a ++ split sep b := by
  unfold split
  rw [toList_join, List.splitOn_append_cons_self, List.map_append]

theorem split_eq_singleton (h : sep ∉ s.toList) : split sep s = [s] := by
  unfold split
  rw [List.splitOn_eq_singleton h, List.map_singleton, String.ofList_toList]

theorem split_ne_nil (sep : Char) (s : String) : split sep s ≠ [] := by
  unfold split
  rw [Ne, List.map_eq_nil_iff]
  exact List.splitOn_ne_nil sep s.toList

/-- The parts are free of the separator. -/
theorem notMem_of_mem_split {part : String} (h : part ∈ split sep s) :
    sep ∉ part.toList := by
  have hlist : ∀ l : List Char, ∀ part ∈ l.splitOn sep, sep ∉ part := by
    intro l
    induction l with
    | nil => simp
    | cons c cs ih =>
      intro part hpart
      rw [List.splitOn_cons_eq_if_modifyHead] at hpart
      split_ifs at hpart with hc
      · rcases List.mem_cons.mp hpart with rfl | hpart
        · exact List.not_mem_nil
        · exact ih part hpart
      · -- The character belongs to the first part of the rest.
        cases hrest : cs.splitOn sep with
        | nil => exact absurd hrest (List.splitOn_ne_nil sep cs)
        | cons first rest =>
          rw [hrest] at ih hpart
          rcases List.mem_cons.mp hpart with rfl | hpart
          · rw [List.mem_cons, not_or]
            exact ⟨fun heq => hc (beq_iff_eq.mpr heq.symm), ih first List.mem_cons_self⟩
          · exact ih part (List.mem_cons_of_mem _ hpart)
  obtain ⟨l, hl, rfl⟩ := List.mem_map.mp h
  rw [String.toList_ofList]
  exact hlist s.toList l hl

/-- The first part is at the beginning. -/
theorem prefix_of_split_eq_cons {part : String} {rest : List String}
    (h : split sep s = part :: rest) : part.toList <+: s.toList := by
  by_cases hmem : sep ∈ s.toList
  · obtain ⟨a, b, hab, ha⟩ := List.eq_append_cons_of_mem hmem
    have hs : s = String.ofList a ++ String.singleton sep ++ String.ofList b := by
      rw [← String.toList_inj, toList_join, String.toList_ofList, String.toList_ofList, hab]
    rw [hs, split_join (by rwa [String.toList_ofList])] at h
    rw [← (List.cons.inj h).1, String.toList_ofList, hab]
    exact List.prefix_append a _
  · rw [split_eq_singleton hmem] at h
    rw [(List.cons.inj h).1]

/-- There is one part only where there is no separator. -/
theorem split_eq_singleton_iff :
    (∃ part, split sep s = [part]) ↔ sep ∉ s.toList := by
  refine ⟨?_, fun h => ⟨s, split_eq_singleton h⟩⟩
  rintro ⟨part, hpart⟩ hmem
  obtain ⟨a, b, hab⟩ := List.append_of_mem hmem
  have hs : s = String.ofList a ++ String.singleton sep ++ String.ofList b := by
    rw [← String.toList_inj, toList_join, String.toList_ofList, String.toList_ofList, hab]
  rw [hs, split_append] at hpart
  have hlength := congrArg List.length hpart
  have ha := List.length_pos_iff.mpr (split_ne_nil sep (String.ofList a))
  have hb := List.length_pos_iff.mpr (split_ne_nil sep (String.ofList b))
  rw [List.length_append, List.length_singleton] at hlength
  omega

/-- Characters joined by a separator with a blank on both sides. -/
def joined (sep : Char) (x : List Char) (ys : List (List Char)) : List Char :=
  x ++ ys.flatMap fun y => ' ' :: sep :: ' ' :: y

variable {x : List Char} {ys : List (List Char)}

/-- What was joined is split again, up to the blanks. -/
theorem map_trimList_splitOn_joined (hsep : sep ≠ ' ') (hu : ∀ c ∈ u, c = ' ')
    (h : ∀ z ∈ x :: ys, sep ∉ z ∧ Tight z) :
    ((u ++ joined sep x ys).splitOn sep).map trimList = x :: ys := by
  have hspace : ∀ v : List Char, (∀ c ∈ v, c = ' ') → ∀ c ∈ v, isSpace c = true := by
    intro v hv c hc
    rw [hv c hc]
    decide
  induction ys generalizing u x with
  | nil =>
    obtain ⟨hx, htight⟩ := h x List.mem_cons_self
    have hnot : sep ∉ u ++ x := by
      rw [List.mem_append, not_or]
      exact ⟨fun hmem => hsep (hu sep hmem), hx⟩
    have htrim : trimList (u ++ x ++ []) = x := trimList_pad (hspace u hu) nofun htight
    rw [List.append_nil] at htrim
    show ((u ++ (x ++ [])).splitOn sep).map trimList = [x]
    rw [List.append_nil, List.splitOn_eq_singleton hnot, List.map_singleton, htrim]
  | cons y ys ih =>
    obtain ⟨hx, htight⟩ := h x List.mem_cons_self
    have hblank : ∀ c ∈ [' '], c = ' ' := fun c hc => List.mem_singleton.mp hc
    have hnot : sep ∉ u ++ x ++ [' '] := by
      rw [List.mem_append, List.mem_append, not_or, not_or]
      exact ⟨⟨fun hmem => hsep (hu sep hmem), hx⟩, fun hmem => hsep (hblank sep hmem)⟩
    have hshape : u ++ joined sep x (y :: ys) =
        (u ++ x ++ [' ']) ++ sep :: ([' '] ++ joined sep y ys) := by
      simp [joined]
    rw [hshape, List.splitOn_append_cons_self_of_not_mem hnot, List.map_cons,
      trimList_pad (hspace u hu) (hspace [' '] hblank) htight,
      ih hblank fun z hz => h z (List.mem_cons_of_mem _ hz)]

theorem map_trimSpace_split_joined (hsep : sep ≠ ' ') (h : ∀ z ∈ x :: ys, sep ∉ z ∧ Tight z) :
    (split sep (String.ofList (joined sep x ys))).map trimSpace =
      (x :: ys).map String.ofList := by
  have hlist : ((joined sep x ys).splitOn sep).map trimList = x :: ys :=
    map_trimList_splitOn_joined (u := []) hsep nofun h
  have htrim : trimSpace ∘ String.ofList = String.ofList ∘ trimList := by
    funext l
    simp only [Function.comp_apply, trimSpace_eq, String.toList_ofList]
  unfold split
  rw [String.toList_ofList, List.map_map, htrim, ← List.map_map, hlist]

/-- What is joined of parts that are not empty and have no white space at their ends has none. -/
theorem tight_joined (h : ∀ z ∈ x :: ys, z ≠ [] ∧ Tight z) :
    joined sep x ys ≠ [] ∧ Tight (joined sep x ys) := by
  induction ys generalizing x with
  | nil =>
    show x ++ [] ≠ [] ∧ Tight (x ++ [])
    rw [List.append_nil]
    exact h x List.mem_cons_self
  | cons y ys ih =>
    obtain ⟨hx, htight⟩ := h x List.mem_cons_self
    obtain ⟨hrest, hrestTight⟩ := ih fun z hz => h z (List.mem_cons_of_mem _ hz)
    have hshape : joined sep x (y :: ys) = x ++ [' ', sep, ' '] ++ joined sep y ys := by
      simp [joined]
    rw [hshape]
    refine ⟨List.append_ne_nil_of_right_ne_nil _ hrest, ?_, ?_⟩
    · rw [List.append_assoc, List.head?_append_of_ne_nil _ hx]
      exact htight.1
    · rw [List.getLast?_append_of_ne_nil _ hrest]
      exact hrestTight.2

theorem notMem_joined (hsep : c ≠ sep) (hblank : c ≠ ' ') (h : ∀ z ∈ x :: ys, c ∉ z) :
    c ∉ joined sep x ys := by
  unfold joined
  rw [List.mem_append, not_or, List.mem_flatMap]
  refine ⟨h x List.mem_cons_self, ?_⟩
  rintro ⟨y, hy, hmem⟩
  simp only [List.mem_cons] at hmem
  rcases hmem with rfl | rfl | rfl | hmem
  · exact hblank rfl
  · exact hsep rfl
  · exact hblank rfl
  · exact h y (List.mem_cons_of_mem _ hy) hmem

/-! ## Separators of several characters -/

/-- A list cut at the first occurrence of a separator. -/
def cutSub (sep : List Char) : List Char → Option (List Char × List Char)
  | [] => none
  | c :: cs =>
    if sep.isPrefixOf (c :: cs) then some ([], (c :: cs).drop sep.length)
    else (cutSub sep cs).map fun ab => (c :: ab.1, ab.2)

/-- A string cut at the first occurrence of a separator: the parts before and after it, or `none`
where it does not occur. -/
def cutAt (sep s : String) : Option (String × String) :=
  (cutSub sep.toList s.toList).map fun ab => (String.ofList ab.1, String.ofList ab.2)

/-- Whether a string occurs in another. -/
def contains (s sub : String) : Bool := (cutAt sub s).isSome

/-- The left part is free of the separator where it is free of its second character. -/
theorem cutSub_pair {d : Char} (hne : c ≠ d) (ha : d ∉ a) (b : List Char) :
    cutSub [c, d] (a ++ c :: d :: b) = some (a, b) := by
  induction a with
  | nil => simp [cutSub]
  | cons e a ih =>
    rw [List.mem_cons, not_or] at ha
    -- The separator does not start here, since its second character does not follow.
    have hfirst : [c, d].isPrefixOf (e :: (a ++ c :: d :: b)) = false := by
      cases a with
      | nil => simp [List.isPrefixOf, Ne.symm hne]
      | cons f a =>
        have hf : d ≠ f := fun heq => ha.2 (heq ▸ List.mem_cons_self)
        simp [List.isPrefixOf, hf]
    rw [List.cons_append, cutSub, hfirst, if_neg Bool.false_ne_true, ih ha.2]
    rfl

theorem cutSub_eq_none {sep : List Char} (hc : c ∈ sep) (hl : c ∉ l) :
    cutSub sep l = none := by
  induction l with
  | nil => rfl
  | cons d l ih =>
    have hfirst : sep.isPrefixOf (d :: l) = false := by
      rw [Bool.eq_false_iff]
      intro hstarts
      exact hl ((List.isPrefixOf_iff_prefix.mp hstarts).subset hc)
    rw [cutSub, hfirst, if_neg Bool.false_ne_true, ih fun hmem => hl (List.mem_cons_of_mem _ hmem)]
    rfl

theorem cutAt_eq_none {sep : String} (hc : c ∈ sep.toList) (hs : c ∉ s.toList) :
    cutAt sep s = none := by
  unfold cutAt
  rw [cutSub_eq_none hc hs]
  rfl

theorem cutAt_pair {sep : String} {d : Char} (hsep : sep.toList = [c, d]) (hne : c ≠ d) (ha : d ∉ a)
    :
    cutAt sep (String.ofList (a ++ c :: d :: b)) = some (String.ofList a, String.ofList b) := by
  unfold cutAt
  rw [hsep, String.toList_ofList, cutSub_pair hne ha]
  rfl

/-! ## `LIKE` patterns -/

/-- SQL's `LIKE` on characters: `%` stands for any string and `_` for any one character. -/
def like : List Char → List Char → Bool
  | [], v => v.isEmpty
  | c :: ps, v =>
    if c = '%' then v.tails.any (like ps)
    else match v with
      | [] => false
      | d :: ds => (c = '_' || c = d) && like ps ds

/-- A text without wildcards and a `%` behind it accept the strings that start with the text. -/
theorem like_append_percent {p : List Char} (h : ∀ c ∈ p, c ≠ '%' ∧ c ≠ '_') (v : List Char) :
    like (p ++ ['%']) v = true ↔ p <+: v := by
  induction p generalizing v with
  | nil => simp [like]
  | cons c p ih =>
    obtain ⟨⟨hpercent, hunderscore⟩, hp⟩ := List.forall_mem_cons.mp h
    cases v with
    | nil => simp [like, hpercent]
    | cons d v => simp [like, hpercent, hunderscore, ih hp, List.cons_prefix_cons]

end DubboAdmin.Strings
