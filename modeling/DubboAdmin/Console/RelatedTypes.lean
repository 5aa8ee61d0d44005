import DubboAdmin.Discovery.Metadata
import DubboAdmin.Lib.DepthFirst

/-!
# The types of a method

`buildRelatedTypes` of `pkg/console/service/service.go` collects, for a method, the declared types
that its parameter and return types lead to. Types may refer to each other in cycles. Whatever the
order of the walks over the maps, it ends, and returns just the types that are related to the
method, by name (`buildRelatedTypes_spec`).
-/

namespace DubboAdmin.Console

open Discovery (MetadataType Method ServiceProviderMetadata ServiceProviderMetadataResource)
open Strings (isBlank)

/-- A `*ServiceProviderMetadataResource`, which may be `nil` or have no spec. -/
abbrev ProviderTypes := Option ServiceProviderMetadataResource

/-- A type as it is returned. -/
structure ServiceMethodTypeResp where
  type : String
  properties : List (String × String)
  items : List String
  enums : List String
deriving DecidableEq

def toServiceMethodTypeResp (typeSpec : MetadataType) : ServiceMethodTypeResp :=
  ⟨typeSpec.type, typeSpec.properties, typeSpec.items, typeSpec.enums⟩

/-- The type declarations that are there, in order. -/
def declarations (metadataList : List ProviderTypes) : List MetadataType :=
  metadataList.flatMap fun metadata =>
    ((metadata.bind Resource.spec).elim [] ServiceProviderMetadata.types).filterMap id

/-- `buildTypeMap`. -/
def buildTypeMap (metadataList : List ProviderTypes) : Keyed MetadataType.type :=
  (declarations metadataList).foldl (fun typesByName typeSpec =>
    if typeSpec.type = "" then typesByName
    else if (typesByName.get? typeSpec.type).isSome then typesByName
    else typesByName.put typeSpec) .empty

/-- The order of the walks over the maps: over the properties of a type, and over `visited`. -/
structure TypeWalks where
  properties : String → WalkOrder (String × String)
  visited : WalkOrder String

/-- The types that `collectRelatedTypes` goes on to, where it does not return at once: the items and
then the properties of the type. -/
def typeReferences (typesByName : Keyed MetadataType.type) (walks : TypeWalks) (typeName : String) :
    Option (List String) :=
  if isBlank typeName then none
  else (typesByName.get? typeName).map fun typeSpec =>
    typeSpec.items ++ ((walks.properties typeName).order typeSpec.properties).map Prod.snd

/-- `collectRelatedTypes`, for a depth of the recursion. -/
def collectRelatedTypes (typesByName : Keyed MetadataType.type) (walks : TypeWalks) :
    ℕ → String → List String → Option (List String) :=
  DepthFirst.collect (typeReferences typesByName walks)

/-- The types that a method names, if there is one. -/
def namedTypes : Option Method → List String
  | none => []
  | some method => method.parameterTypes ++ [method.returnType]

/-- `buildRelatedTypes`, for a depth of the recursion of `collectRelatedTypes`. -/
def buildRelatedTypes (depth : ℕ) (walks : TypeWalks) (metadataList : List ProviderTypes) :
    Option Method → Option (List ServiceMethodTypeResp)
  | none => some []
  | some method => do
    let typesByName := buildTypeMap metadataList
    let visited ← method.parameterTypes.foldlM
      (fun visited typeName => collectRelatedTypes typesByName walks depth typeName visited) []
    let visited ← collectRelatedTypes typesByName walks depth method.returnType visited
    some ((sortBy id (walks.visited.order visited)).filterMap fun typeName =>
      (typesByName.get? typeName).map toServiceMethodTypeResp)

/-! ## What is related to a method -/

variable {metadataList : List ProviderTypes} {walks : TypeWalks}

/-- The first declaration of a type counts. -/
def firstDeclaration (metadataList : List ProviderTypes) (typeName : String) :
    Option MetadataType :=
  (declarations metadataList).find? fun typeSpec => typeSpec.type = typeName

/-- The items and properties of a declared type whose name is not blank. -/
def declaredReferences (metadataList : List ProviderTypes) (typeName : String) :
    Option (List String) :=
  if isBlank typeName then none
  else (firstDeclaration metadataList typeName).map fun typeSpec =>
    typeSpec.items ++ typeSpec.properties.map Prod.snd

/-- A declared type with a name that is not blank can be reached from the types of the method,
through items and properties of such types. -/
def RelatedType (metadataList : List ProviderTypes) (method : Option Method)
    (typeName : String) : Prop :=
  DepthFirst.Reaches (declaredReferences metadataList) (namedTypes method) typeName

theorem get?_buildTypeMap {typeName : String} (hname : typeName ≠ "") :
    (buildTypeMap metadataList).get? typeName = firstDeclaration metadataList typeName := by
  unfold buildTypeMap firstDeclaration
  have hfold : ∀ (l : List MetadataType) (m : Keyed MetadataType.type),
      (l.foldl (fun typesByName typeSpec =>
        if typeSpec.type = "" then typesByName
        else if (typesByName.get? typeSpec.type).isSome then typesByName
        else typesByName.put typeSpec) m).get? typeName =
        (m.get? typeName).or (l.find? fun typeSpec => typeSpec.type = typeName) := by
    intro l
    induction l with
    | nil => exact fun m => (Option.or_none).symm
    | cons typeSpec l ih =>
      intro m
      rw [List.foldl_cons, ih, List.find?_cons]
      by_cases heq : typeSpec.type = typeName
      · subst heq
        rw [if_neg hname]
        cases hget : m.get? typeSpec.type with
        | none => simp [Keyed.get?_put_self]
        | some other => simp [hget]
      · have hput := Keyed.get?_put_ne m (Ne.symm heq)
        split_ifs <;> simp [heq, hput]
  rw [hfold, Keyed.get?_empty, Option.none_or]

theorem ne_empty_of_isBlank {typeName : String} (h : isBlank typeName = false) : typeName ≠ "" := by
  rintro rfl
  cases h

/-- The walks change the order of the references only. -/
theorem typeReferences_cases (walks : TypeWalks) (typeName : String) :
    (typeReferences (buildTypeMap metadataList) walks typeName = none ∧
      declaredReferences metadataList typeName = none) ∨
    ∃ l l', typeReferences (buildTypeMap metadataList) walks typeName = some l ∧
      declaredReferences metadataList typeName = some l' ∧ ∀ name, name ∈ l ↔ name ∈ l' := by
  unfold typeReferences declaredReferences
  cases hblank : isBlank typeName with
  | true => exact .inl ⟨rfl, rfl⟩
  | false =>
    rw [get?_buildTypeMap (ne_empty_of_isBlank hblank)]
    cases firstDeclaration metadataList typeName with
    | none => exact .inl ⟨rfl, rfl⟩
    | some typeSpec =>
      refine .inr ⟨_, _, rfl, rfl, fun name => ?_⟩
      rw [List.mem_append, List.mem_append,
        (((walks.properties typeName).perm typeSpec.properties).map Prod.snd).mem_iff]

theorem reaches_iff_relatedType {method : Option Method} {typeName : String} :
    DepthFirst.Reaches (typeReferences (buildTypeMap metadataList) walks) (namedTypes method)
      typeName ↔ RelatedType metadataList method typeName := by
  refine ⟨fun h => h.mono (fun _ hx => hx) ?_, fun h => h.mono (fun _ hx => hx) ?_⟩
  · intro name l hl
    rcases typeReferences_cases walks name with ⟨hnone, -⟩ | ⟨_, l', hl₁, hl', hmem⟩
    · cases hnone.symm.trans hl
    · cases hl₁.symm.trans hl
      exact ⟨l', hl', fun other => (hmem other).mp⟩
  · intro name l hl
    rcases typeReferences_cases walks name with ⟨-, hnone⟩ | ⟨l', _, hl', hl₁, hmem⟩
    · cases hnone.symm.trans hl
    · cases hl₁.symm.trans hl
      exact ⟨l', hl', fun other => (hmem other).mpr⟩

theorem RelatedType.isBlank {method : Option Method} {typeName : String}
    (h : RelatedType metadataList method typeName) : isBlank typeName = false := by
  have hnode : (declaredReferences metadataList typeName).isSome := by
    cases h with
    | root _ hnode | step _ _ _ hnode => exact hnode
  unfold declaredReferences at hnode
  split_ifs at hnode with hblank
  · cases hnode
  · exact Bool.eq_false_iff.mpr hblank

/-- What is collected, when the recursion may be deeper than there are declarations. -/
theorem exists_visited (walks : TypeWalks) {depth : ℕ}
    (hdepth : (declarations metadataList).length < depth) (method : Option Method) :
    ∃ visited, (namedTypes method).foldlM (fun visited typeName =>
        collectRelatedTypes (buildTypeMap metadataList) walks depth typeName visited) [] =
          some visited ∧
      visited.Nodup ∧ ∀ name, name ∈ visited ↔ RelatedType metadataList method name := by
  let nodes : Finset String := ((declarations metadataList).map MetadataType.type).toFinset
  have hcard : nodes.card ≤ (declarations metadataList).length :=
    (List.toFinset_card_le _).trans (List.length_map _).le
  have hnodes : ∀ typeName, (typeReferences (buildTypeMap metadataList) walks typeName).isSome →
      typeName ∈ nodes := by
    intro typeName hsome
    unfold typeReferences at hsome
    split_ifs at hsome with hblank
    · cases hsome
    · rw [get?_buildTypeMap (ne_empty_of_isBlank (Bool.eq_false_iff.mpr hblank)),
        Option.isSome_map, Option.isSome_iff_exists] at hsome
      obtain ⟨typeSpec, hfound⟩ := hsome
      rw [List.mem_toFinset, List.mem_map]
      exact ⟨typeSpec, List.mem_of_find?_eq_some hfound,
        by simpa using List.find?_some (show List.find? _ _ = some typeSpec from hfound)⟩
  obtain ⟨visited, hcollect, hnodup, hmem⟩ :=
    DepthFirst.exists_collectAll hnodes (hcard.trans_lt hdepth) (namedTypes method)
  exact ⟨visited, hcollect, hnodup, fun typeName => (hmem typeName).trans reaches_iff_relatedType⟩

theorem exists_buildRelatedTypes (walks : TypeWalks) {depth : ℕ}
    (hdepth : (declarations metadataList).length < depth) (method : Option Method) :
    ∃ resp, buildRelatedTypes depth walks metadataList method = some resp ∧
      Ascending ServiceMethodTypeResp.type resp ∧
      ∀ t, t ∈ resp ↔ ∃ typeName typeSpec, RelatedType metadataList method typeName ∧
        firstDeclaration metadataList typeName = some typeSpec ∧
        t = toServiceMethodTypeResp typeSpec := by
  obtain ⟨visited, hcollect, hnodup, hmem⟩ := exists_visited walks hdepth method
  have hperm := walks.visited.perm visited
  have hascending : Ascending id (sortBy id (walks.visited.order visited)) :=
    ascending_sortBy (by rw [List.map_id]; exact hperm.nodup_iff.mpr hnodup)
  refine ⟨(sortBy id (walks.visited.order visited)).filterMap fun typeName =>
    ((buildTypeMap metadataList).get? typeName).map toServiceMethodTypeResp, ?_, ?_, fun t => ?_⟩
  · cases method with
    | none =>
      cases hcollect
      rw [List.perm_nil.mp (walks.visited.perm [])]
      rfl
    | some method =>
      rw [namedTypes, List.foldlM_append] at hcollect
      simp only [List.foldlM_cons, List.foldlM_nil, bind_pure] at hcollect
      unfold buildRelatedTypes
      dsimp only
      rw [← bind_assoc, hcollect]
      rfl
  · refine hascending.filterMap _ fun name name' hlt t ht t' ht' => ?_
    have hname : ∀ {name : String} {t : ServiceMethodTypeResp},
        t ∈ ((buildTypeMap metadataList).get? name).map toServiceMethodTypeResp →
          t.type = name := by
      intro name t ht
      obtain ⟨typeSpec, hget, rfl⟩ := Option.map_eq_some_iff.mp ht
      exact (Keyed.get?_eq_some_iff.mp hget).2
    rw [hname ht, hname ht']
    exact hlt
  · simp only [List.mem_filterMap, mem_sortBy, hperm.mem_iff, hmem, Option.map_eq_some_iff]
    refine exists_congr fun typeName => ?_
    constructor
    · rintro ⟨hrelated, typeSpec, hget, rfl⟩
      rw [get?_buildTypeMap (ne_empty_of_isBlank hrelated.isBlank)] at hget
      exact ⟨typeSpec, hrelated, hget, rfl⟩
    · rintro ⟨typeSpec, hrelated, hfirst, rfl⟩
      rw [← get?_buildTypeMap (ne_empty_of_isBlank hrelated.isBlank)] at hfirst
      exact ⟨hrelated, typeSpec, hfirst, rfl⟩

/-- With any walks over the maps, and however the types refer to each other, the recursion ends, and
the types that are related to the method are returned: sorted by name, each once. -/
theorem buildRelatedTypes_spec (metadataList : List ProviderTypes) (method : Option Method) :
    ∃ resp, (∀ walks depth, (declarations metadataList).length < depth →
        buildRelatedTypes depth walks metadataList method = some resp) ∧
      Ascending ServiceMethodTypeResp.type resp ∧
      ∀ t, t ∈ resp ↔ ∃ typeName typeSpec, RelatedType metadataList method typeName ∧
        firstDeclaration metadataList typeName = some typeSpec ∧
        t = toServiceMethodTypeResp typeSpec := by
  obtain ⟨resp, -, hascending, hmem⟩ := exists_buildRelatedTypes
    ⟨fun _ => .given _, .given _⟩ (Nat.lt_succ_self (declarations metadataList).length) method
  refine ⟨resp, fun walks depth hdepth => ?_, hascending, hmem⟩
  obtain ⟨resp', hresp', hascending', hmem'⟩ := exists_buildRelatedTypes walks hdepth method
  rw [hresp', eq_of_ascending hascending' hascending fun t => (hmem' t).trans (hmem t).symm]

end DubboAdmin.Console
