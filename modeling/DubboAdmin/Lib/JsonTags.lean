import DubboAdmin.Lib.Keyed
import DubboAdmin.Lib.Strings

/-!
# JSON by struct tags

How `encoding/json` writes a value and fills a value, for types that are described by `JsonType`:
strings, Booleans, integers, pointers, slices, maps of strings, and structs whose fields carry a
name and possibly `omitempty`. Decoding is into a value that is there: what the document does not
name is left as it is, and a value that does not fit its type is an error that does not stop the
rest. A `nil` slice, map or pointer is `none`.

`JsonType.Lawful` says what is read back from what was written. For a struct it follows from the
laws of its fields (`Struct.lawful`), also where another struct that embeds it has written the
document (`embed`).
-/

namespace DubboAdmin

/-- A JSON document. A number is kept as it is written. -/
inductive Json where
  | null
  | bool (b : Bool)
  /-- A number, as a literal. -/
  | number (literal : String)
  | string (s : String)
  | array (items : List Json)
  /-- An object, by its entries in order. -/
  | object (entries : List (String × Json))

namespace Json

variable {α β : Type}

/-- What decoding leaves, and whether every value has fitted its type. -/
structure Decoded (α : Type) where
  value : α
  ok : Bool
deriving DecidableEq

/-- How the values of a type are written and read. -/
structure JsonType (α : Type) where
  zero : α
  isEmpty : α → Bool
  encode : α → Json
  decode : Json → α → Decoded α
  stored : α → α

/-- What is written is read back into the zero value. -/
def JsonType.Lawful (t : JsonType α) : Prop :=
  ∀ x, t.decode (t.encode x) t.zero = ⟨t.stored x, true⟩

/-! ## Scalars -/

/-- `string`. -/
def stringType : JsonType String where
  zero := ""
  isEmpty s := s = ""
  encode := .string
  decode j old := match j with
    | .string s => ⟨s, true⟩
    | .null => ⟨old, true⟩
    | _ => ⟨old, false⟩
  stored := id

/-- `bool`. -/
def boolType : JsonType Bool where
  zero := false
  isEmpty b := !b
  encode := .bool
  decode j old := match j with
    | .bool b => ⟨b, true⟩
    | .null => ⟨old, true⟩
    | _ => ⟨old, false⟩
  stored := id

/-- `int32`. -/
def int32Type : JsonType Int32 where
  zero := 0
  isEmpty n := n = 0
  encode n := .number (toString n.toInt)
  decode j old := match j with
    | .number literal => match Strings.parseInt64 literal with
      | some n => if -2 ^ 31 ≤ n ∧ n < 2 ^ 31 then ⟨Int32.ofInt n, true⟩ else ⟨old, false⟩
      | none => ⟨old, false⟩
    | .null => ⟨old, true⟩
    | _ => ⟨old, false⟩
  stored := id

/-- Scalars are read back as they are. -/
@[simp]
theorem stored_scalar :
    stringType.stored = id ∧ boolType.stored = id ∧ int32Type.stored = id := ⟨rfl, rfl, rfl⟩

/-- A string is read back. -/
@[simp]
theorem lawful_stringType : stringType.Lawful := fun _ => rfl

/-- A Boolean is read back. -/
@[simp]
theorem lawful_boolType : boolType.Lawful := fun _ => rfl

/-- An integer is read back, as it is in range. -/
@[simp]
theorem lawful_int32Type : int32Type.Lawful := by
  intro n
  have hle := n.le_toInt
  have hlt := n.toInt_lt
  have hparse : Strings.parseInt64 (toString n.toInt) = some n.toInt :=
    Strings.parseInt64_toString (by omega) (by omega)
  show (match Strings.parseInt64 (toString n.toInt) with
    | some m => if -2 ^ 31 ≤ m ∧ m < 2 ^ 31 then (⟨Int32.ofInt m, true⟩ : Decoded Int32)
      else ⟨0, false⟩
    | none => ⟨0, false⟩) = ⟨n, true⟩
  rw [hparse]
  dsimp only
  rw [if_pos ⟨hle, hlt⟩, Int32.ofInt_toInt]

/-! ## Pointers, slices and maps -/

/-- A pointer. -/
def pointer (t : JsonType α) : JsonType (Option α) where
  zero := none
  isEmpty p := p.isNone
  encode p := match p with
    | none => .null
    | some x => t.encode x
  decode j old := match j with
    | .null => ⟨none, true⟩
    | j =>
      let d := t.decode j (old.getD t.zero)
      ⟨some d.value, d.ok⟩
  stored := Option.map t.stored

/-- A pointer is read back as what it points to. -/
@[simp]
theorem stored_pointer (t : JsonType α) : (pointer t).stored = Option.map t.stored := rfl

/-- A slice. -/
def slice (t : JsonType α) : JsonType (Option (List α)) where
  zero := none
  isEmpty l := l.getD [] = []
  encode l := match l with
    | none => .null
    | some items => .array (items.map t.encode)
  decode j old := match j with
    | .null => ⟨none, true⟩
    | .array items =>
      let ds := items.map fun item => t.decode item t.zero
      ⟨some (ds.map Decoded.value), ds.all Decoded.ok⟩
    | _ => ⟨old, false⟩
  stored := Option.map (List.map t.stored)

/-- A map with string keys and string values. -/
abbrev StringMap := Keyed (Prod.fst : String × String → String)

/-- The value under a key, which is the empty string where there is none. -/
def StringMap.value (m : StringMap) (k : String) : String := ((m.get? k).map Prod.snd).getD ""

/-- The value that was put. -/
@[simp]
theorem StringMap.value_put_self (m : StringMap) (k v : String) :
    StringMap.value (m.put (k, v)) k = v := by
  have hget : (m.put (k, v)).get? k = some (k, v) := Keyed.get?_put_self m (k, v)
  unfold StringMap.value
  rw [hget]
  rfl

/-- The other values stay. -/
theorem StringMap.value_put_ne (m : StringMap) {k k' : String} (v : String) (h : k' ≠ k) :
    StringMap.value (m.put (k, v)) k' = m.value k' := by
  have hget : (m.put (k, v)).get? k' = m.get? k' := Keyed.get?_put_ne m h
  unfold StringMap.value
  rw [hget]

/-- The entries of a map, read one after the other. -/
def decodeMap : List (String × Json) → StringMap → Decoded StringMap
  | [], m => ⟨m, true⟩
  | (k, v) :: entries, m =>
    let d := stringType.decode v ""
    let rest := decodeMap entries (m.put (k, d.value))
    ⟨rest.value, d.ok && rest.ok⟩

/-- `map[string]string`. -/
def stringMap : JsonType (Option StringMap) where
  zero := none
  isEmpty m := (m.getD Keyed.empty).items = []
  encode m := match m with
    | none => .null
    | some m => .object (m.items.map fun e => (e.1, .string e.2))
  decode j old := match j with
    | .null => ⟨none, true⟩
    | .object entries =>
      let d := decodeMap entries (old.getD Keyed.empty)
      ⟨some d.value, d.ok⟩
    | _ => ⟨old, false⟩
  stored := id

/-- A pointer is read back where no value is written as `null`. -/
theorem lawful_pointer {t : JsonType α} (ht : t.Lawful) (hnull : ∀ x, t.encode x ≠ .null) :
    (pointer t).Lawful := by
  intro p
  cases p with
  | none => rfl
  | some x =>
    have hdecode := ht x
    unfold pointer
    dsimp only
    split
    · next hx => exact absurd hx (hnull x)
    · rw [Option.getD_none, hdecode]
      rfl

/-- A slice is read back element by element. -/
@[simp]
theorem lawful_slice {t : JsonType α} (ht : t.Lawful) : (slice t).Lawful := by
  intro l
  cases l with
  | none => rfl
  | some items =>
    have hitems : (items.map t.encode).map (fun item => t.decode item t.zero) =
        items.map fun x => ⟨t.stored x, true⟩ := by
      rw [List.map_map]
      exact List.map_congr_left fun x _ => ht x
    show (⟨some (((items.map t.encode).map fun item => t.decode item t.zero).map Decoded.value),
      ((items.map t.encode).map fun item => t.decode item t.zero).all Decoded.ok⟩ :
        Decoded (Option (List α))) = _
    rw [hitems, List.map_map, List.all_map]
    simp [slice, Function.comp_def]

/-- Entries with new keys are appended to a map. -/
theorem decodeMap_strings (entries : List (String × String)) (m : StringMap)
    (hnew : (m.keys ++ entries.map Prod.fst).Nodup) :
    ∃ m', decodeMap (entries.map fun e => (e.1, .string e.2)) m = ⟨m', true⟩ ∧
      m'.items = m.items ++ entries := by
  induction entries generalizing m with
  | nil => exact ⟨m, rfl, (List.append_nil _).symm⟩
  | cons e entries ih =>
    have habsent : m.get? e.1 = none := by
      refine Keyed.get?_eq_none_iff.mpr fun x hx hkey => ?_
      have hdisjoint := List.disjoint_of_nodup_append hnew
      exact hdisjoint (List.mem_map_of_mem hx) (hkey ▸ List.mem_map_of_mem List.mem_cons_self)
    have hput : (m.put e).items = m.items ++ [e] := Keyed.items_put_of_absent habsent
    have hkeys : (m.put e).keys = m.keys ++ [e.1] := by
      unfold Keyed.keys
      rw [hput, List.map_append]
      rfl
    obtain ⟨m', hdecode, hitems⟩ := ih (m.put e) (by
      rw [hkeys, List.append_assoc]
      exact hnew)
    refine ⟨m', ?_, ?_⟩
    · show (⟨(decodeMap (entries.map fun e => (e.1, .string e.2)) (m.put e)).value,
        true && (decodeMap (entries.map fun e => (e.1, .string e.2)) (m.put e)).ok⟩ :
          Decoded StringMap) = _
      rw [hdecode]
      rfl
    · rw [hitems, hput, List.append_assoc]
      rfl

/-- A map is read back. -/
@[simp]
theorem lawful_stringMap : stringMap.Lawful := by
  intro m
  cases m with
  | none => rfl
  | some m =>
    obtain ⟨m', hdecode, hitems⟩ := decodeMap_strings m.items Keyed.empty m.nodup
    obtain rfl : m' = m := by
      obtain ⟨items, nodup⟩ := m'
      obtain rfl := hitems
      rfl
    show (⟨some (decodeMap (m'.items.map fun e => (e.1, .string e.2)) Keyed.empty).value,
      (decodeMap (m'.items.map fun e => (e.1, .string e.2)) Keyed.empty).ok⟩ :
        Decoded (Option StringMap)) = _
    rw [hdecode]
    rfl

/-- The zero values of scalars. -/
@[simp]
theorem zero_scalar : stringType.zero = "" ∧ boolType.zero = false ∧ int32Type.zero = 0 :=
  ⟨rfl, rfl, rfl⟩

/-- A pointer or a slice is `nil` at first. -/
@[simp]
theorem zero_reference (t : JsonType α) : (pointer t).zero = none ∧ (slice t).zero = none :=
  ⟨rfl, rfl⟩

/-- A map is `nil` at first. -/
@[simp]
theorem zero_stringMap : stringMap.zero = none := rfl

/-! ## What is read back -/

/-- A `nil` slice in the place of an empty one. -/
def nilIfEmpty : Option (List α) → Option (List α)
  | some [] => none
  | l => l

/-- A `nil` map in the place of an empty one. -/
def nilIfEmptyMap : Option StringMap → Option StringMap
  | some m => if m.items = [] then none else some m
  | none => none

/-- What is read back of a value that is left out where it is empty. -/
def JsonType.kept (t : JsonType α) (omitempty : Bool) (v : α) : α :=
  if omitempty && t.isEmpty v then t.zero else t.stored v

/-- Without `omitempty`, a value is read back as it is stored. -/
@[simp]
theorem kept_false (t : JsonType α) (v : α) : t.kept false v = t.stored v := rfl

/-- An empty string may be left out. -/
@[simp]
theorem kept_string (s : String) : stringType.kept true s = s := by
  unfold JsonType.kept stringType
  by_cases h : s = "" <;> simp [h]

/-- `false` may be left out. -/
@[simp]
theorem kept_bool (b : Bool) : boolType.kept true b = b := by
  cases b <;> rfl

/-- Zero may be left out. -/
@[simp]
theorem kept_int32 (n : Int32) : int32Type.kept true n = n := by
  unfold JsonType.kept int32Type
  by_cases h : n = 0 <;> simp [h]

/-- A `nil` pointer may be left out. -/
@[simp]
theorem kept_pointer (t : JsonType α) (p : Option α) :
    (pointer t).kept true p = p.map t.stored := by
  cases p <;> rfl

/-- An empty slice is read back as `nil`. -/
@[simp]
theorem kept_slice (t : JsonType α) (l : Option (List α)) :
    (slice t).kept true l = nilIfEmpty (l.map (List.map t.stored)) := by
  cases l with
  | none => rfl
  | some items =>
    cases items with
    | nil => rfl
    | cons x items => rfl

/-- An empty map is read back as `nil`. -/
@[simp]
theorem kept_stringMap (m : Option StringMap) : stringMap.kept true m = nilIfEmptyMap m := by
  cases m with
  | none => rfl
  | some m =>
    unfold JsonType.kept stringMap nilIfEmptyMap
    by_cases h : m.items = [] <;> simp [h]

/-! ## Structs -/

/-- A field of a struct, with its tag. -/
structure Field (α : Type) where
  Val : Type
  type : JsonType Val
  name : String
  omitempty : Bool
  get : α → Val
  set : Val → α → α

/-- The field is left out of the document. -/
def Field.omitted (f : Field α) (x : α) : Bool := f.omitempty && f.type.isEmpty (f.get x)

/-- The entry of the field in the document. -/
def Field.entry (f : Field α) (x : α) : String × Json := (f.name, f.type.encode (f.get x))

/-- The entries that the fields write. -/
def written (fields : List (Field α)) (x : α) : List (String × Json) :=
  (fields.filter fun f => !f.omitted x).map fun f => f.entry x

/-- One entry of a document is read into the field with its name. -/
def decodeEntry (fields : List (Field α)) (d : Decoded α) (e : String × Json) : Decoded α :=
  match fields.find? fun f => f.name = e.1 with
  | none => d
  | some f =>
    let v := f.type.decode e.2 (f.get d.value)
    ⟨f.set v.value d.value, d.ok && v.ok⟩

/-- A document is read into a struct. -/
def decodeStruct (fields : List (Field α)) (j : Json) (x : α) : Decoded α :=
  match j with
  | .object entries => entries.foldl (decodeEntry fields) ⟨x, true⟩
  | .null => ⟨x, true⟩
  | _ => ⟨x, false⟩

/-- A struct with these fields, a zero value, and what is read back. -/
def struct (fields : List (Field α)) (zero : α) (stored : α → α) : JsonType α where
  zero := zero
  isEmpty _ := false
  encode x := .object (written fields x)
  decode := decodeStruct fields
  stored := stored

/-- What is read back of a field. -/
def Field.kept (f : Field α) (x : α) : f.Val := f.type.kept f.omitempty (f.get x)

/-- What is read back of a field. -/
theorem Field.kept_eq (f : Field α) (x : α) :
    f.kept x = if f.omitted x then f.type.zero else f.type.stored (f.get x) := rfl

/-- A field is read back, is zero in the zero value, and is read as it was set. -/
structure Field.Sound (zero : α) (f : Field α) : Prop where
  lawful : f.type.Lawful
  get_zero : f.get zero = f.type.zero
  get_set : ∀ v x, f.get (f.set v x) = v

/-- The three laws of a field. -/
@[simp]
theorem Field.sound_iff {zero : α} {f : Field α} : f.Sound zero ↔
    f.type.Lawful ∧ f.get zero = f.type.zero ∧ ∀ v x, f.get (f.set v x) = v :=
  ⟨fun h => ⟨h.1, h.2, h.3⟩, fun h => ⟨h.1, h.2.1, h.2.2⟩⟩

/-- Setting one of two fields does not change the other. -/
def Field.Apart (f g : Field α) : Prop :=
  (∀ v x, g.get (f.set v x) = g.get x) ∧ ∀ v x, f.get (g.set v x) = f.get x

/-- The fields are those of a struct with a zero value: they have distinct names, they are
independent of each other, and they determine what is read back. -/
structure Struct (fields : List (Field α)) (zero : α) (stored : α → α) : Prop where
  names : (fields.map Field.name).Nodup
  sound : ∀ f ∈ fields, f.Sound zero
  apart : fields.Pairwise Field.Apart
  /-- A value with the fields that are read back is what is read back. -/
  ext : ∀ x z, (∀ f ∈ fields, f.get z = f.kept x) → z = stored x

section Struct

variable {fields : List (Field α)} {zero : α} {stored : α → α}

/-- Setting a field leaves the others. -/
theorem Struct.get_set_other (h : Struct fields zero stored) {f g : Field α} (hf : f ∈ fields)
    (hg : g ∈ fields) (hne : f.name ≠ g.name) (v : f.Val) (x : α) :
    g.get (f.set v x) = g.get x := by
  have hsymm : Std.Symm (Field.Apart (α := α)) := ⟨fun f g h => ⟨h.2, h.1⟩⟩
  exact (h.apart.forall hf hg fun hsame => hne (congrArg Field.name hsame)).1 v x

/-- What a document does to a struct, where every entry is that of a field of `x`, or of no field:
the fields that have an entry are read back, and the others stay as they are. -/
theorem decode_entries (h : Struct fields zero stored) (x : α) (entries : List (String × Json))
    (hentries : ∀ e ∈ entries, ∀ f ∈ fields, f.name = e.1 → e = f.entry x)
    (hnodup : (entries.map Prod.fst).Nodup) (y : α)
    (hzero : ∀ f ∈ fields, f.name ∈ entries.map Prod.fst → f.get y = f.type.zero) :
    ∃ z, entries.foldl (decodeEntry fields) ⟨y, true⟩ = ⟨z, true⟩ ∧ ∀ f ∈ fields,
      (f.name ∈ entries.map Prod.fst → f.get z = f.type.stored (f.get x)) ∧
      (f.name ∉ entries.map Prod.fst → f.get z = f.get y) := by
  induction entries generalizing y with
  | nil => exact ⟨y, rfl, fun f _ => ⟨fun hmem => absurd hmem List.not_mem_nil, fun _ => rfl⟩⟩
  | cons e entries ih =>
    obtain ⟨hnew, hbehind⟩ := List.nodup_cons.mp hnodup
    have hrest := fun e he => hentries e (List.mem_cons_of_mem _ he)
    cases hfind : fields.find? fun f => f.name = e.1 with
    | none =>
      obtain ⟨z, hz, hget⟩ := ih hrest hbehind y fun f hf hmem =>
        hzero f hf (List.mem_cons_of_mem _ hmem)
      refine ⟨z, ?_, fun f hf => ?_⟩
      · rw [List.foldl_cons, decodeEntry, hfind]
        exact hz
      · have hne : f.name ≠ e.1 := by simpa using List.find?_eq_none.mp hfind f hf
        rw [List.map_cons, List.mem_cons, or_iff_right hne]
        exact hget f hf
    | some f =>
      have hf := List.mem_of_find?_eq_some hfind
      have hname : f.name = e.1 := by simpa using List.find?_some hfind
      have he := hentries e List.mem_cons_self f hf hname
      have hvalue : f.type.decode e.2 (f.get y) = ⟨f.type.stored (f.get x), true⟩ := by
        rw [hzero f hf (hname ▸ List.mem_cons_self), he]
        exact (h.sound f hf).lawful _
      -- The names that follow are others, so that their fields are still zero.
      obtain ⟨z, hz, hget⟩ := ih hrest hbehind (f.set (f.type.stored (f.get x)) y) (by
        intro g hg hmem
        have hne : f.name ≠ g.name := by
          intro hsame
          rw [← hsame, hname] at hmem
          exact hnew hmem
        rw [h.get_set_other hf hg hne]
        exact hzero g hg (List.mem_cons_of_mem _ hmem))
      refine ⟨z, ?_, fun g hg => ?_⟩
      · rw [List.foldl_cons, decodeEntry, hfind]
        dsimp only
        rw [hvalue]
        exact hz
      · rw [List.map_cons, List.mem_cons, ← hname]
        by_cases hsame : f.name = g.name
        · obtain rfl := List.inj_on_of_nodup_map h.names hf hg hsame
          refine ⟨fun _ => ?_, fun hmem => absurd (.inl rfl) hmem⟩
          rw [(hget f hf).2 (hname ▸ hnew), (h.sound f hf).get_set]
        · rw [or_iff_right (Ne.symm hsame)]
          refine ⟨(hget g hg).1, fun hmem => ?_⟩
          rw [(hget g hg).2 hmem, h.get_set_other hf hg hsame]

/-- The document of a struct, with its entries in any order and maybe without some that are
empty, is read back. -/
theorem Struct.decode_of_entries (h : Struct fields zero stored) (x : α)
    {entries : List (String × Json)} (hnodup : (entries.map Prod.fst).Nodup)
    (hentries : ∀ e ∈ entries, ∀ f ∈ fields, f.name = e.1 → e = f.entry x)
    (hkept : ∀ f ∈ fields, (f.name ∈ entries.map Prod.fst ∧ f.kept x = f.type.stored (f.get x)) ∨
      (f.name ∉ entries.map Prod.fst ∧ f.kept x = f.type.zero)) :
    decodeStruct fields (.object entries) zero = ⟨stored x, true⟩ := by
  obtain ⟨z, hz, hget⟩ := decode_entries h x entries hentries hnodup zero
    fun f hf _ => (h.sound f hf).get_zero
  have hfields : ∀ f ∈ fields, f.get z = f.kept x := by
    intro f hf
    rcases hkept f hf with ⟨hmem, hvalue⟩ | ⟨hmem, hvalue⟩
    · rw [(hget f hf).1 hmem, hvalue]
    · rw [(hget f hf).2 hmem, hvalue, (h.sound f hf).get_zero]
  show entries.foldl (decodeEntry fields) ⟨zero, true⟩ = ⟨stored x, true⟩
  rw [hz, h.ext x z hfields]

/-- The names of the fields that are written. -/
theorem map_fst_written (fields : List (Field α)) (x : α) :
    (written fields x).map Prod.fst = (fields.filter fun f => !f.omitted x).map Field.name := by
  unfold written
  rw [List.map_map]
  rfl

/-- A field is written unless it is omitted. -/
theorem Struct.name_mem_written (h : Struct fields zero stored) {f : Field α} (hf : f ∈ fields)
    (x : α) : f.name ∈ (written fields x).map Prod.fst ↔ f.omitted x = false := by
  rw [map_fst_written, List.mem_map]
  constructor
  · rintro ⟨g, hg, hname⟩
    obtain ⟨hg, hwritten⟩ := List.mem_filter.mp hg
    obtain rfl := List.inj_on_of_nodup_map h.names hg hf hname
    simpa using hwritten
  · intro homitted
    exact ⟨f, List.mem_filter.mpr ⟨hf, by simp [homitted]⟩, rfl⟩

/-- An entry is found by its name. -/
theorem Struct.eq_entry_of_mem_written (h : Struct fields zero stored) {f : Field α}
    (hf : f ∈ fields) {x : α} {e : String × Json} (he : e ∈ written fields x)
    (hname : f.name = e.1) : e = f.entry x := by
  obtain ⟨g, hg, rfl⟩ := List.mem_map.mp he
  obtain rfl := List.inj_on_of_nodup_map h.names hf (List.mem_filter.mp hg).1 hname
  rfl

/-- No name is written twice. -/
theorem Struct.nodup_written (h : Struct fields zero stored) (x : α) :
    ((written fields x).map Prod.fst).Nodup := by
  rw [map_fst_written]
  exact h.names.sublist (List.filter_sublist.map Field.name)

/-- A struct is read back where its tags are sound. -/
theorem Struct.lawful (h : Struct fields zero stored) : (struct fields zero stored).Lawful := by
  intro x
  refine h.decode_of_entries x (h.nodup_written x)
    (fun e he f hf => h.eq_entry_of_mem_written hf he) fun f hf => ?_
  rw [h.name_mem_written hf, f.kept_eq]
  cases f.omitted x with
  | false => exact .inl ⟨rfl, rfl⟩
  | true => exact .inr ⟨nofun, rfl⟩

/-- The entries of a struct that embeds another one: an embedded field is left out where the struct
has a field of the same name, and the struct's own fields follow. -/
def embed (embedded own : List (String × Json)) : List (String × Json) :=
  (embedded.filter fun e => e.1 ∉ own.map Prod.fst) ++ own

/-- A struct is read back from a struct that embeds it and whose own fields, which are never left
out, have the values of the embedded ones. -/
theorem Struct.decode_embed (h : Struct fields zero stored) (x : α) {own : List (String × Json)}
    (hown : (own.map Prod.fst).Nodup)
    (hsame : ∀ e ∈ own, ∃ f ∈ fields, e = f.entry x ∧ f.kept x = f.type.stored (f.get x)) :
    decodeStruct fields (.object (embed (written fields x) own)) zero = ⟨stored x, true⟩ := by
  have hmap : (embed (written fields x) own).map Prod.fst =
      ((written fields x).map Prod.fst).filter (fun n => n ∉ own.map Prod.fst) ++
        own.map Prod.fst := by
    unfold embed
    rw [List.map_append, List.filter_map]
    rfl
  -- The names of a struct tell its fields apart, so that an own entry is that of its field.
  have hfield : ∀ f ∈ fields, ∀ e ∈ own, f.name = e.1 →
      e = f.entry x ∧ f.kept x = f.type.stored (f.get x) := by
    intro f hf e he hname
    obtain ⟨g, hg, rfl, hkept⟩ := hsame e he
    obtain rfl := List.inj_on_of_nodup_map h.names hf hg hname
    exact ⟨rfl, hkept⟩
  refine h.decode_of_entries x ?_ ?_ fun f hf => ?_
  · rw [hmap]
    refine ((h.nodup_written x).sublist List.filter_sublist).append hown fun n hn hn' => ?_
    have hfree := (List.mem_filter.mp hn).2
    exact of_decide_eq_true hfree hn'
  · intro e he f hf hname
    rcases List.mem_append.mp he with he | he
    · exact h.eq_entry_of_mem_written hf (List.mem_filter.mp he).1 hname
    · exact (hfield f hf e he hname).1
  · rw [hmap, List.mem_append, List.mem_filter, h.name_mem_written hf]
    by_cases hin : f.name ∈ own.map Prod.fst
    · obtain ⟨e, he, hname⟩ := List.mem_map.mp hin
      exact .inl ⟨.inr hin, (hfield f hf e he hname.symm).2⟩
    · rw [f.kept_eq]
      cases f.omitted x with
      | false => exact .inl ⟨.inl ⟨rfl, decide_eq_true hin⟩, rfl⟩
      | true => exact .inr ⟨fun hmem => hmem.elim (fun hw => nomatch hw.1) hin, rfl⟩

/-- What a struct writes for its own fields is written once. -/
theorem filter_embed {embedded own : List (String × Json)} (hown : (own.map Prod.fst).Nodup)
    {e : String × Json} (he : e ∈ own) :
    (embed embedded own).filter (fun x => x.1 = e.1) = [e] := by
  have hnone : (embedded.filter fun x => x.1 ∉ own.map Prod.fst).filter (fun x => x.1 = e.1) =
      [] := by
    refine List.filter_eq_nil_iff.mpr fun x hx hname => ?_
    have hfree := of_decide_eq_true (List.mem_filter.mp hx).2
    rw [of_decide_eq_true hname] at hfree
    exact hfree (List.mem_map_of_mem he)
  have hone : own.filter (fun x => x.1 = e.1) = [e] := by
    obtain ⟨l, r, rfl⟩ := List.append_of_mem he
    rw [List.map_append, List.map_cons, List.nodup_append] at hown
    obtain ⟨-, hr, hdisjoint⟩ := hown
    have hl : l.filter (fun x => x.1 = e.1) = [] := by
      refine List.filter_eq_nil_iff.mpr fun x hx hname => ?_
      exact hdisjoint x.1 (List.mem_map_of_mem hx) e.1 List.mem_cons_self (of_decide_eq_true hname)
    have hr' : r.filter (fun x => x.1 = e.1) = [] := by
      refine List.filter_eq_nil_iff.mpr fun x hx hname => ?_
      exact (List.nodup_cons.mp hr).1 (of_decide_eq_true hname ▸ List.mem_map_of_mem hx)
    rw [List.filter_append, List.filter_cons, if_pos (decide_eq_true rfl), hl, hr']
    rfl
  unfold embed
  rw [List.filter_append, hnone, hone]
  rfl

end Struct

/-! ## Documents as text -/

/-- A conversion of documents to texts and back that loses nothing. -/
structure Yaml (Text : Type) where
  toYAML : Json → Text
  /-- The document of a text, or `none` where the text is not one. -/
  fromYAML : Text → Option Json
  isBlank : Text → Bool
  fromYAML_toYAML : ∀ j, fromYAML (toYAML j) = some j
  not_blank : ∀ entries, isBlank (toYAML (.object entries)) = false

namespace Yaml

variable {Text : Type}

/-- Documents that are their own text. -/
def plain : Yaml Json where
  toYAML := id
  fromYAML := some
  isBlank _ := false
  fromYAML_toYAML _ := rfl
  not_blank _ := rfl

/-- The text of a value. -/
def marshal (y : Yaml Text) (t : JsonType α) (x : α) : Text := y.toYAML (t.encode x)

/-- `Unmarshal`: the text is read into a value. -/
def unmarshal (y : Yaml Text) (t : JsonType α) (data : Text) (old : α) : Decoded α :=
  match y.fromYAML data with
  | some j => t.decode j old
  | none => ⟨old, false⟩

/-- Reading a text is reading its document. -/
theorem unmarshal_toYAML (y : Yaml Text) (t : JsonType α) (j : Json) (old : α) :
    y.unmarshal t (y.toYAML j) old = t.decode j old := by
  unfold unmarshal
  rw [y.fromYAML_toYAML]

/-- A value is read back from its text. -/
theorem unmarshal_marshal (y : Yaml Text) {t : JsonType α} (ht : t.Lawful) (x : α) :
    y.unmarshal t (y.marshal t x) t.zero = ⟨t.stored x, true⟩ := by
  rw [marshal, unmarshal_toYAML]
  exact ht x

end Yaml

end Json

end DubboAdmin
