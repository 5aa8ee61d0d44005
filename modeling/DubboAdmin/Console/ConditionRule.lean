import DubboAdmin.Lib.Strings

/-!
# Condition expressions

`pkg/console/model/condition_rule.go` writes the routes by arguments of a service as condition
expressions and parses them: `method=m & arguments[0]=v => host=h`. The writer joins conditions by
` & ` and separates destinations by a comma, after which it still joins the next destination's
conditions by ` & `. The parser knows no separator of destinations and returns at most one.

Expressions with at most one destination are parsed back, and no others
(`parseConditionExpression_toExpression_iff`).
-/

namespace DubboAdmin.Console

open Strings

/-! ## Routes -/

def equal : String := "="

def notEqual : String := "!="

/-- A condition on a key of the request. -/
structure RouteCondition where
  index : String
  relation : String
  value : String
deriving DecidableEq, Repr

/-- A condition on the provider. -/
structure DestinationCondition where
  relation : String
  tag : String
  value : String
deriving DecidableEq, Repr

/-- Where requests are routed. -/
structure Destination where
  conditions : List DestinationCondition
  weight : Int32
deriving DecidableEq, Repr

/-- A route by arguments. -/
structure ServiceArgument where
  conditions : List RouteCondition
  destinations : List Destination
  method : String
deriving DecidableEq, Repr

/-! ## Writing -/

/-- What both kinds of conditions write for a relation. -/
def relationText (left relation right : String) : String :=
  if relation = equal then left ++ equal ++ right else left ++ notEqual ++ right

def RouteCondition.string (r : RouteCondition) : String :=
  relationText ("arguments[" ++ r.index ++ "]") r.relation r.value

def DestinationCondition.string (d : DestinationCondition) : String :=
  relationText d.tag d.relation d.value

/-- The inner loop of `ToExpression` over the conditions of a destination. -/
def addConditions (destIdx : ℕ) (expression : String)
    (conditions : List (DestinationCondition × ℕ)) : String :=
  conditions.foldl (fun expression (condition, condIdx) =>
    (if destIdx > 0 ∨ condIdx > 0 then expression ++ " & " else expression) ++ condition.string)
    expression

def ServiceArgument.toExpression (sa : ServiceArgument) : String :=
  let expression := sa.conditions.foldl (fun expression condition =>
    expression ++ (" & " ++ condition.string)) ("method=" ++ sa.method)
  if sa.destinations.length > 0 then
    sa.destinations.zipIdx.foldl (fun expression (destination, destIdx) =>
      let expression := addConditions destIdx expression destination.conditions.zipIdx
      if destIdx < sa.destinations.length - 1 then expression ++ ", " else expression)
      (expression ++ " => ")
  else expression

/-! ## Parsing -/

/-- What `parseRouteCondition` and `parseDestinationCondition` have in common: the text before and
after the relation, which is `!=` where that occurs, and otherwise `=`. -/
def parseRelation (condition : String) : Option (String × String × String) :=
  match cutAt notEqual condition with
  | some (left, right) => some (trimSpace left, notEqual, trimSpace right)
  | none => match cut '=' condition with
    | some (left, right) => some (trimSpace left, equal, trimSpace right)
    | none => none

def parseRouteCondition (condition : String) : RouteCondition :=
  match parseRelation condition with
  | none => ⟨"", "", ""⟩
  | some (leftPart, relation, rightPart) =>
    if hasPrefix leftPart "arguments[" && hasSuffix leftPart "]" then
      ⟨String.ofList (leftPart.toList.drop 10).dropLast, relation, rightPart⟩
    else ⟨leftPart, relation, rightPart⟩

/-- One round of the loop of `parseFromPart`. -/
def parseFromStep (parsed : String × List RouteCondition) (condition : String) :
    String × List RouteCondition :=
  if hasPrefix condition "method=" then
    (trimSpace (String.ofList (condition.toList.drop 7)), parsed.2)
  else
    let routeCond := parseRouteCondition condition
    if routeCond.index ≠ "" then (parsed.1, parsed.2 ++ [routeCond]) else parsed

def parseFromPart (fromPart : String) : String × List RouteCondition :=
  (split '&' fromPart).foldl (fun parsed condition => parseFromStep parsed (trimSpace condition))
    ("", [])

def parseDestinationCondition (condition : String) : DestinationCondition :=
  match parseRelation condition with
  | none => ⟨"", "", ""⟩
  | some (leftPart, relation, rightPart) => ⟨relation, leftPart, rightPart⟩

/-- One round of the loop of `parseToPart`. -/
def parseToStep (parsed : List DestinationCondition) (condition : String) :
    List DestinationCondition :=
  let destCond := parseDestinationCondition condition
  if destCond.tag ≠ "" then parsed ++ [destCond] else parsed

def parseToPart (toPart : String) : List Destination :=
  if toPart = "" then []
  else [⟨(split '&' toPart).foldl (fun parsed condition =>
    parseToStep parsed (trimSpace condition)) [], 0⟩]

/-- The first two parts of `strings.Split(expression, "=>")`; the second one may be missing. -/
def arrowParts (expression : String) : String × Option String :=
  match cutAt "=>" expression with
  | none => (expression, none)
  | some (first, rest) => match cutAt "=>" rest with
    | none => (first, some rest)
    | some (second, _) => (first, some second)

def parseConditionExpression (expression : String) : ServiceArgument :=
  let (first, second) := arrowParts expression
  let fromPart := trimSpace first
  let toPart := (second.map trimSpace).getD ""
  let (method, conditions) := parseFromPart fromPart
  ⟨conditions, parseToPart toPart, method⟩

/-! ## Clean texts -/

/-- A text that is not empty, has no white space at its ends, and has none of the characters that
expressions are built with. -/
def Plain (s : String) : Prop :=
  s ≠ "" ∧ Tight s.toList ∧ ∀ c ∈ ['&', '=', '!', '>', ','], c ∉ s.toList

/-- The relation is `=` or `!=`. -/
def IsRelation (relation : String) : Prop := relation = equal ∨ relation = notEqual

/-- The texts of a route are plain, its relations are relations, and each destination has
conditions and no weight. -/
structure ServiceArgument.Clean (sa : ServiceArgument) : Prop where
  method : Plain sa.method
  conditions : ∀ c ∈ sa.conditions, Plain c.index ∧ IsRelation c.relation ∧ Plain c.value
  destinations : ∀ d ∈ sa.destinations, d.weight = 0 ∧ d.conditions ≠ [] ∧
    ∀ c ∈ d.conditions, Plain c.tag ∧ IsRelation c.relation ∧ Plain c.value

/-- What parts of an expression are like: not empty, without white space at the ends, and without
`&` and `>`. -/
structure Part (l : List Char) : Prop where
  ne_nil : l ≠ []
  tight : Tight l
  ampersand : '&' ∉ l
  greater : '>' ∉ l

theorem Plain.toList_ne_nil {s : String} (h : Plain s) : s.toList ≠ [] :=
  fun hnil => h.1 (String.toList_eq_nil_iff.mp hnil)

theorem Plain.notMem {s : String} (h : Plain s) {c : Char} (hc : c ∈ ['&', '=', '!', '>', ',']) :
    c ∉ s.toList := h.2.2 c hc

theorem tight_append {a b c : List Char} (ha : a ≠ []) (hc : c ≠ []) (hta : Tight a)
    (htc : Tight c) : Tight (a ++ b ++ c) := by
  constructor
  · rw [List.append_assoc, List.head?_append_of_ne_nil _ ha]
    exact hta.1
  · rw [List.getLast?_append_of_ne_nil _ hc]
    exact htc.2

theorem relationText_of_isRelation {relation : String} (h : IsRelation relation)
    (left right : String) : relationText left relation right = left ++ relation ++ right := by
  rcases h with rfl | rfl
  · exact if_pos rfl
  · exact if_neg (by decide)

/-- A condition is parsed into what stands on both sides of its relation. -/
theorem parseRelation_append {left relation right : String} (hrelation : IsRelation relation)
    (hleft : Tight left.toList) (hequal : '=' ∉ left.toList) (hnot : '!' ∉ left.toList)
    (hright : Plain right) :
    parseRelation (left ++ relation ++ right) = some (left, relation, right) := by
  unfold parseRelation
  rcases hrelation with rfl | rfl
  · have hnone : cutAt notEqual (left ++ equal ++ right) = none := by
      refine cutAt_eq_none (c := '!') (by decide) ?_
      simp only [String.toList_append, List.mem_append, not_or]
      exact ⟨⟨hnot, by decide⟩, hright.notMem (by decide)⟩
    rw [hnone]
    rw [show left ++ equal ++ right = left ++ String.singleton '=' ++ right from rfl,
      cut_join hequal]
    dsimp only
    rw [trimSpace_of_tight hleft, trimSpace_of_tight hright.2.1]
  · have hcut : cutAt notEqual (left ++ notEqual ++ right) = some (left, right) := by
      have hlist : left ++ notEqual ++ right =
          String.ofList (left.toList ++ '!' :: '=' :: right.toList) := by
        rw [← String.toList_inj]
        simp [String.toList_append, notEqual]
      rw [hlist, cutAt_pair (by decide) (by decide) hequal, String.ofList_toList,
        String.ofList_toList]
    rw [hcut]
    dsimp only
    rw [trimSpace_of_tight hleft, trimSpace_of_tight hright.2.1]

/-- The text of a condition is a part of an expression. -/
theorem part_relation {left relation right : String} (hleft : Part left.toList)
    (hrelation : IsRelation relation) (hright : Plain right) :
    Part (left ++ relation ++ right).toList := by
  have hrel : '&' ∉ relation.toList ∧ '>' ∉ relation.toList := by
    rcases hrelation with rfl | rfl <;> decide
  simp only [String.toList_append]
  refine ⟨?_, tight_append hleft.ne_nil hright.toList_ne_nil hleft.tight hright.2.1, ?_, ?_⟩
  · exact List.append_ne_nil_of_right_ne_nil _ hright.toList_ne_nil
  · simp only [List.mem_append, not_or]
    exact ⟨⟨hleft.ampersand, hrel.1⟩, hright.notMem (by decide)⟩
  · simp only [List.mem_append, not_or]
    exact ⟨⟨hleft.greater, hrel.2⟩, hright.notMem (by decide)⟩

theorem Plain.notMem_argument {index : String} (h : Plain index) {c : Char}
    (hc : c ∈ ['&', '=', '!', '>', ',']) (hfree : c ∉ "arguments[".toList ++ "]".toList) :
    c ∉ ("arguments[" ++ index ++ "]").toList := by
  rw [List.mem_append, not_or] at hfree
  simp only [String.toList_append, List.mem_append, not_or]
  exact ⟨⟨hfree.1, h.notMem hc⟩, hfree.2⟩

theorem part_argument {index : String} (h : Plain index) :
    Part ("arguments[" ++ index ++ "]").toList := by
  have hspace : Tight "arguments[".toList ∧ Tight "]".toList := ⟨by decide, by decide⟩
  refine ⟨?_, ?_, h.notMem_argument (by decide) (by decide),
    h.notMem_argument (by decide) (by decide)⟩
  · rw [String.toList_append]
    exact List.append_ne_nil_of_right_ne_nil _ (by decide)
  · simp only [String.toList_append]
    exact tight_append (by decide) (by decide) hspace.1 hspace.2

section Conditions

variable {c : RouteCondition} {d : DestinationCondition}

theorem RouteCondition.string_eq (h : IsRelation c.relation) :
    c.string = "arguments[" ++ c.index ++ "]" ++ c.relation ++ c.value :=
  relationText_of_isRelation h _ _

theorem DestinationCondition.string_eq (h : IsRelation d.relation) :
    d.string = d.tag ++ d.relation ++ d.value :=
  relationText_of_isRelation h _ _

theorem RouteCondition.part (hindex : Plain c.index) (hrelation : IsRelation c.relation)
    (hvalue : Plain c.value) : Part c.string.toList := by
  rw [string_eq hrelation]
  exact part_relation (part_argument hindex) hrelation hvalue

theorem DestinationCondition.part (htag : Plain d.tag) (hrelation : IsRelation d.relation)
    (hvalue : Plain d.value) : Part d.string.toList := by
  rw [string_eq hrelation]
  exact part_relation ⟨htag.toList_ne_nil, htag.2.1, htag.notMem (by decide),
    htag.notMem (by decide)⟩ hrelation hvalue

/-- A condition on an argument is parsed back. -/
theorem parseRouteCondition_string (hindex : Plain c.index) (hrelation : IsRelation c.relation)
    (hvalue : Plain c.value) : parseRouteCondition c.string = c := by
  have hleft : "arguments[".toList ++ c.index.toList ++ "]".toList =
      ("arguments[" ++ c.index ++ "]").toList := by
    simp only [String.toList_append]
  have hparse := parseRelation_append hrelation (part_argument hindex).tight
    (hindex.notMem_argument (by decide) (by decide))
    (hindex.notMem_argument (by decide) (by decide)) hvalue
  have hstarts : hasPrefix ("arguments[" ++ c.index ++ "]") "arguments[" = true := by
    rw [hasPrefix_iff, ← hleft, List.append_assoc]
    exact List.prefix_append _ _
  have hsuffix : hasSuffix ("arguments[" ++ c.index ++ "]") "]" = true := by
    unfold hasSuffix
    rw [List.isSuffixOf_iff_suffix, ← hleft]
    exact List.suffix_append _ _
  have hinner : (("arguments[" ++ c.index ++ "]").toList.drop 10).dropLast = c.index.toList := by
    rw [← hleft, List.append_assoc, List.drop_left' (by decide)]
    exact List.dropLast_concat
  unfold parseRouteCondition
  rw [RouteCondition.string_eq hrelation, hparse]
  dsimp only
  rw [hstarts, hsuffix, Bool.and_true, if_pos rfl, hinner, String.ofList_toList]

theorem parseDestinationCondition_string (htag : Plain d.tag) (hrelation : IsRelation d.relation)
    (hvalue : Plain d.value) : parseDestinationCondition d.string = d := by
  unfold parseDestinationCondition
  rw [DestinationCondition.string_eq hrelation, parseRelation_append hrelation htag.2.1
    (htag.notMem (by decide)) (htag.notMem (by decide)) hvalue]

end Conditions

/-! ## Expressions -/

theorem toList_foldl_ampersand {α : Type} (f : α → String) (x : String) (l : List α) :
    (l.foldl (fun expression a => expression ++ (" & " ++ f a)) x).toList =
      joined '&' x.toList (l.map fun a => (f a).toList) := by
  induction l generalizing x with
  | nil => simp [joined]
  | cons a l ih =>
    rw [List.foldl_cons, ih]
    simp [joined, String.toList_append]

theorem addConditions_zipIdx_pos {destIdx n : ℕ} (hn : 0 < n) (expression : String)
    (conditions : List DestinationCondition) :
    addConditions destIdx expression (conditions.zipIdx n) = conditions.foldl
      (fun expression c => expression ++ (" & " ++ c.string)) expression := by
  induction conditions generalizing expression n with
  | nil => rfl
  | cons c conditions ih =>
    rw [List.zipIdx_cons, addConditions, List.foldl_cons, List.foldl_cons]
    dsimp only
    rw [if_pos (Or.inr hn), ← addConditions, ih (Nat.succ_pos n), String.append_assoc]

theorem toList_addConditions_first (expression : String) (c : DestinationCondition)
    (conditions : List DestinationCondition) :
    (addConditions 0 expression (c :: conditions).zipIdx).toList = expression.toList ++
      joined '&' c.string.toList (conditions.map fun c => c.string.toList) := by
  rw [List.zipIdx_cons, addConditions, List.foldl_cons]
  dsimp only
  rw [if_neg (by omega), ← addConditions, addConditions_zipIdx_pos (Nat.succ_pos 0),
    toList_foldl_ampersand]
  simp [joined, String.toList_append]

/-- The text before the arrow. -/
def fromText (sa : ServiceArgument) : List Char :=
  joined '&' ("method=" ++ sa.method).toList (sa.conditions.map fun c => c.string.toList)

theorem toList_toExpression_nil {sa : ServiceArgument} (h : sa.destinations = []) :
    sa.toExpression.toList = fromText sa := by
  unfold ServiceArgument.toExpression
  rw [h, if_neg (by decide)]
  exact toList_foldl_ampersand _ _ _

theorem toList_toExpression_singleton {sa : ServiceArgument} {c : DestinationCondition}
    {conditions : List DestinationCondition} {weight : Int32}
    (h : sa.destinations = [⟨c :: conditions, weight⟩]) :
    sa.toExpression.toList = fromText sa ++ [' '] ++ '=' :: '>' :: ([' '] ++
      joined '&' c.string.toList (conditions.map fun c => c.string.toList)) := by
  have hfrom := toList_foldl_ampersand RouteCondition.string ("method=" ++ sa.method) sa.conditions
  unfold ServiceArgument.toExpression
  rw [h, if_pos (show [(⟨c :: conditions, weight⟩ : Destination)].length > 0 from Nat.one_pos)]
  show (addConditions 0 _ (c :: conditions).zipIdx).toList = _
  rw [toList_addConditions_first, String.toList_append, hfrom]
  simp [fromText]

section Parse

variable {sa : ServiceArgument}

theorem part_method {method : String} (h : Plain method) : Part ("method=" ++ method).toList := by
  have htext : Tight "method=".toList := by decide
  simp only [String.toList_append]
  refine ⟨List.append_ne_nil_of_right_ne_nil _ h.toList_ne_nil, ?_, ?_, ?_⟩
  · have htight := tight_append (b := []) (by decide) h.toList_ne_nil htext h.2.1
    rwa [List.append_nil] at htight
  · rw [List.mem_append, not_or]
    exact ⟨by decide, h.notMem (by decide)⟩
  · rw [List.mem_append, not_or]
    exact ⟨by decide, h.notMem (by decide)⟩

theorem ServiceArgument.Clean.parts (h : sa.Clean) : ∀ z ∈ ("method=" ++ sa.method).toList ::
    sa.conditions.map (fun c => c.string.toList), Part z := by
  intro z hz
  rcases List.mem_cons.mp hz with rfl | hz
  · exact part_method h.method
  · obtain ⟨c, hc, rfl⟩ := List.mem_map.mp hz
    obtain ⟨hindex, hrelation, hvalue⟩ := h.conditions c hc
    exact RouteCondition.part hindex hrelation hvalue

/-- The loop over the conditions on arguments. -/
theorem foldl_parseFromStep {conditions : List RouteCondition}
    (h : ∀ c ∈ conditions, Plain c.index ∧ IsRelation c.relation ∧ Plain c.value)
    (method : String) (parsed : List RouteCondition) :
    (conditions.map RouteCondition.string).foldl parseFromStep (method, parsed) =
      (method, parsed ++ conditions) := by
  induction conditions generalizing parsed with
  | nil => rw [List.append_nil]; rfl
  | cons c conditions ih =>
    obtain ⟨hindex, hrelation, hvalue⟩ := h c List.mem_cons_self
    have hstarts : hasPrefix c.string "method=" = false := by
      rw [RouteCondition.string_eq hrelation]
      unfold hasPrefix
      simp [String.toList_append, List.isPrefixOf]
    have hstep : parseFromStep (method, parsed) c.string = (method, parsed ++ [c]) := by
      unfold parseFromStep
      rw [hstarts, if_neg Bool.false_ne_true, parseRouteCondition_string hindex hrelation hvalue]
      exact if_pos hindex.1
    rw [List.map_cons, List.foldl_cons, hstep, ih fun c hc => h c (List.mem_cons_of_mem _ hc),
      List.append_assoc]
    rfl

theorem pieces_joined {x : List Char} {ys : List (List Char)} (h : ∀ z ∈ x :: ys, Part z) :
    (split '&' (String.ofList (joined '&' x ys))).map trimSpace = (x :: ys).map String.ofList :=
  map_trimSpace_split_joined (by decide) fun z hz => ⟨(h z hz).ampersand, (h z hz).tight⟩

theorem joined_parts {x : List Char} {ys : List (List Char)} (h : ∀ z ∈ x :: ys, Part z) :
    joined '&' x ys ≠ [] ∧ Tight (joined '&' x ys) ∧ '>' ∉ joined '&' x ys := by
  obtain ⟨hne, htight⟩ := tight_joined fun z hz => ⟨(h z hz).ne_nil, (h z hz).tight⟩
  exact ⟨hne, htight, notMem_joined (by decide) (by decide) fun z hz => (h z hz).greater⟩

theorem map_ofList_toList {α : Type} (f : α → String) (l : List α) :
    (l.map fun a => (f a).toList).map String.ofList = l.map f := by
  rw [List.map_map]
  exact List.map_congr_left fun a _ => String.ofList_toList

/-- The text before the arrow is parsed back. -/
theorem parseFromPart_fromText (h : sa.Clean) :
    parseFromPart (String.ofList (fromText sa)) = (sa.method, sa.conditions) := by
  have hmethod : parseFromStep ("", []) ("method=" ++ sa.method) = (sa.method, []) := by
    have hstarts : hasPrefix ("method=" ++ sa.method) "method=" = true := by
      rw [hasPrefix_iff, String.toList_append]
      exact List.prefix_append _ _
    unfold parseFromStep
    rw [hstarts, if_pos rfl, String.toList_append, List.drop_left' (by decide),
      String.ofList_toList, trimSpace_of_tight h.method.2.1]
  unfold parseFromPart fromText
  rw [← List.foldl_map, pieces_joined h.parts, List.map_cons, String.ofList_toList,
    map_ofList_toList, List.foldl_cons, hmethod, foldl_parseFromStep h.conditions, List.nil_append]

variable {conditions : List DestinationCondition}

/-- The loop over the conditions of a destination. -/
theorem foldl_parseToStep
    (h : ∀ c ∈ conditions, Plain c.tag ∧ IsRelation c.relation ∧ Plain c.value)
    (parsed : List DestinationCondition) :
    (conditions.map DestinationCondition.string).foldl parseToStep parsed =
      parsed ++ conditions := by
  induction conditions generalizing parsed with
  | nil => exact (List.append_nil _).symm
  | cons c conditions ih =>
    obtain ⟨htag, hrelation, hvalue⟩ := h c List.mem_cons_self
    have hstep : parseToStep parsed c.string = parsed ++ [c] := by
      unfold parseToStep
      rw [parseDestinationCondition_string htag hrelation hvalue]
      exact if_pos htag.1
    rw [List.map_cons, List.foldl_cons, hstep, ih fun c hc => h c (List.mem_cons_of_mem _ hc),
      List.append_assoc]
    rfl

theorem parts_destination
    (h : ∀ c ∈ conditions, Plain c.tag ∧ IsRelation c.relation ∧ Plain c.value) :
    ∀ z ∈ conditions.map (fun c => c.string.toList), Part z := by
  intro z hz
  obtain ⟨c, hc, rfl⟩ := List.mem_map.mp hz
  obtain ⟨htag, hrelation, hvalue⟩ := h c hc
  exact DestinationCondition.part htag hrelation hvalue

/-- The text after the arrow is parsed back. -/
theorem parseToPart_joined {c : DestinationCondition}
    (h : ∀ d ∈ c :: conditions, Plain d.tag ∧ IsRelation d.relation ∧ Plain d.value) :
    parseToPart (String.ofList (joined '&' c.string.toList
      (conditions.map fun c => c.string.toList))) = [⟨c :: conditions, 0⟩] := by
  have hparts := parts_destination h
  rw [List.map_cons] at hparts
  have hne : String.ofList (joined '&' c.string.toList
      (conditions.map fun c => c.string.toList)) ≠ "" := by
    intro hempty
    have hlist := congrArg String.toList hempty
    rw [String.toList_ofList] at hlist
    exact (joined_parts hparts).1 hlist
  unfold parseToPart
  rw [if_neg hne, ← List.foldl_map, pieces_joined hparts, ← List.map_cons
    (f := fun c : DestinationCondition => c.string.toList), map_ofList_toList,
    foldl_parseToStep h, List.nil_append]

theorem length_parseToPart_le (toPart : String) : (parseToPart toPart).length ≤ 1 := by
  unfold parseToPart
  split_ifs
  · exact Nat.zero_le 1
  · exact Nat.le_refl 1

theorem arrowParts_of_notMem {l : List Char} (h : '>' ∉ l) :
    arrowParts (String.ofList l) = (String.ofList l, none) := by
  have hcut : cutAt "=>" (String.ofList l) = none :=
    cutAt_eq_none (c := '>') (by decide) (by rwa [String.toList_ofList])
  unfold arrowParts
  rw [hcut]

theorem arrowParts_of_arrow {a b : List Char} (ha : '>' ∉ a) (hb : '>' ∉ b) :
    arrowParts (String.ofList (a ++ '=' :: '>' :: b)) =
      (String.ofList a, some (String.ofList b)) := by
  have hfirst : cutAt "=>" (String.ofList (a ++ '=' :: '>' :: b)) =
      some (String.ofList a, String.ofList b) := cutAt_pair (by decide) (by decide) ha
  have hsecond : cutAt "=>" (String.ofList b) = none :=
    cutAt_eq_none (c := '>') (by decide) (by rwa [String.toList_ofList])
  unfold arrowParts
  rw [hfirst]
  dsimp only
  rw [hsecond]

theorem fromText_clean (h : sa.Clean) : Tight (fromText sa) ∧ '>' ∉ fromText sa :=
  (joined_parts h.parts).2

/-- A route without destinations is parsed back. -/
theorem parse_of_no_destination (h : sa.Clean) (hnone : sa.destinations = []) :
    parseConditionExpression sa.toExpression = sa := by
  obtain ⟨htight, hgreater⟩ := fromText_clean h
  have hexpr : sa.toExpression = String.ofList (fromText sa) := by
    rw [← toList_toExpression_nil hnone, String.ofList_toList]
  have htrim : trimSpace (String.ofList (fromText sa)) = String.ofList (fromText sa) :=
    trimSpace_of_tight (by rwa [String.toList_ofList])
  unfold parseConditionExpression
  rw [hexpr, arrowParts_of_notMem hgreater]
  dsimp only
  rw [htrim, parseFromPart_fromText h]
  show (⟨sa.conditions, [], sa.method⟩ : ServiceArgument) = sa
  rw [← hnone]

/-- A route with one destination is parsed back. -/
theorem parse_of_one_destination (h : sa.Clean) {d : Destination} (hone : sa.destinations = [d]) :
    parseConditionExpression sa.toExpression = sa := by
  obtain ⟨hweight, hconditions, hclean⟩ := h.destinations d (by rw [hone]; exact List.mem_cons_self)
  obtain ⟨conditions, weight⟩ := d
  obtain rfl : weight = 0 := hweight
  cases conditions with
  | nil => exact absurd rfl hconditions
  | cons c conditions =>
    obtain ⟨hfrom, hfromGreater⟩ := fromText_clean h
    obtain ⟨toText, htoText⟩ : ∃ l, joined '&' c.string.toList
      (conditions.map fun c => c.string.toList) = l := ⟨_, rfl⟩
    have hparts := parts_destination hclean
    rw [List.map_cons] at hparts
    obtain ⟨-, hto, htoGreater⟩ := joined_parts hparts
    have hparse := parseToPart_joined hclean
    have hexpr := toList_toExpression_singleton hone
    rw [htoText] at hto htoGreater hparse hexpr
    have hblank : ∀ ch ∈ [' '], isSpace ch = true := List.forall_mem_singleton.mpr (by decide)
    have htrimFrom : trimList (fromText sa ++ [' ']) = fromText sa :=
      trimList_pad (u := []) nofun hblank hfrom
    have htrimTo : trimList ([' '] ++ toText) = toText := by
      have hpad := trimList_pad (v := []) hblank nofun hto
      rwa [List.append_nil] at hpad
    have hexpr' : sa.toExpression =
        String.ofList (fromText sa ++ [' '] ++ '=' :: '>' :: ([' '] ++ toText)) := by
      rw [← hexpr, String.ofList_toList]
    have hfree : '>' ∉ fromText sa ++ [' '] ∧ '>' ∉ [' '] ++ toText := by
      simp only [List.mem_append, not_or]
      exact ⟨⟨hfromGreater, by decide⟩, by decide, htoGreater⟩
    unfold parseConditionExpression
    rw [hexpr', arrowParts_of_arrow hfree.1 hfree.2]
    dsimp only
    rw [Option.map_some, Option.getD_some, trimSpace_eq, trimSpace_eq, String.toList_ofList,
      String.toList_ofList, htrimFrom, htrimTo, parseFromPart_fromText h, hparse]
    show (⟨sa.conditions, [⟨c :: conditions, 0⟩], sa.method⟩ : ServiceArgument) = sa
    rw [← hone]

end Parse

/-- A route of plain texts is parsed back from its expression if and only if it has at most one
destination. -/
theorem parseConditionExpression_toExpression_iff (sa : ServiceArgument) (h : sa.Clean) :
    parseConditionExpression sa.toExpression = sa ↔ sa.destinations.length ≤ 1 := by
  constructor
  · intro heq
    have hlength : (parseConditionExpression sa.toExpression).destinations.length ≤ 1 := by
      unfold parseConditionExpression
      exact length_parseToPart_le _
    rwa [heq] at hlength
  · intro hlength
    cases hdest : sa.destinations with
    | nil => exact parse_of_no_destination h hdest
    | cons d rest =>
      rw [hdest, List.length_cons] at hlength
      obtain rfl : rest = [] := List.length_eq_zero_iff.mp (by omega)
      exact parse_of_one_destination h hdest

/-- A route to a host and a port. -/
def sampleRoute : ServiceArgument :=
  ⟨[⟨"0", "!=", "v"⟩], [⟨[⟨"=", "host", "h"⟩, ⟨"=", "port", "1"⟩], 0⟩], "m"⟩

/-- A route to two hosts. -/
def twoDestinations : ServiceArgument :=
  ⟨[], [⟨[⟨"=", "host", "a"⟩], 0⟩, ⟨[⟨"=", "host", "b"⟩], 0⟩], "m"⟩

/-- Decided by the characters. -/
instance (s : String) : Decidable (Plain s) :=
  @instDecidableAnd _ _ inferInstance
    (@instDecidableAnd _ _ inferInstance (@List.decidableBAll _ _ (fun _ => inferInstance) _))

/-- Decided by the characters. -/
instance (relation : String) : Decidable (IsRelation relation) :=
  inferInstanceAs (Decidable (relation = equal ∨ relation = notEqual))

theorem clean_sampleRoute : sampleRoute.Clean := by
  constructor <;> decide

/-- The route to a host and a port is parsed back. -/
theorem parseConditionExpression_sampleRoute :
    sampleRoute.toExpression = "method=m & arguments[0]!=v => host=h & port=1" ∧
      parseConditionExpression sampleRoute.toExpression = sampleRoute :=
  ⟨by decide, (parseConditionExpression_toExpression_iff sampleRoute clean_sampleRoute).mpr
    (by decide)⟩

/-- The hosts of two destinations become conditions of one. -/
theorem twoDestinations_merged :
    twoDestinations.Clean ∧ twoDestinations.toExpression = "method=m => host=a,  & host=b" ∧
      parseConditionExpression twoDestinations.toExpression =
        ⟨[], [⟨[⟨"=", "host", "a,"⟩, ⟨"=", "host", "b"⟩], 0⟩], "m"⟩ ∧
      parseConditionExpression twoDestinations.toExpression ≠ twoDestinations := by
  refine ⟨?_, by decide, by decide, by decide⟩
  constructor <;> decide

end DubboAdmin.Console
