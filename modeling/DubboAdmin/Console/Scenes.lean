import DubboAdmin.Console.RuleEffects
import DubboAdmin.Rules.Specs

/-!
# Scenes: settings that are entries of a rule

A setting of an application that the console keeps as entries of a rule, beside entries of other
origin (`pkg/console/service/application.go`). A predicate on their shape tells the entries of the
setting from the others: the getter collects them, and an update removes them and appends new ones.
`Scene` has what the settings do not share.

The rule is read back through its encoding (`Scene.readBack`), which drops empty lists, and
`Scene.putGet_iff` says when an update obeys put-get.
-/

namespace DubboAdmin.Console

open Versioning
open Rules (Slice)
open Json (nilIfEmpty)
open Prog (EnsuresOk)

/-- A setting that is kept as entries of a rule. -/
structure Scene (σ E T : Type) where
  kind : String
  /-- The end of the rule's name, after the name of the application. -/
  suffix : String
  entries : σ → Slice E
  setEntries : Slice E → σ → σ
  store : E → E
  recognises : E → Bool
  /-- The set that the getter reads from an entry, or nothing where it stops there. -/
  read : E → Option T
  /-- The entry that is generated from a set, or nothing where a `nil` pointer is followed. -/
  generate : T → Option E
  newSpec : String → σ

namespace Scene

variable {σ E T S : Type} (x : Scene σ E T)

/-- What is read back of a spec. -/
def stored (spec : σ) : σ :=
  x.setEntries (nilIfEmpty ((x.entries spec).map (List.map x.store))) spec

/-- What is read back of a rule. -/
def readBack (r : Rule σ) : Rule σ := { r with spec := r.spec.map x.stored }

/-- The name of the rule of an application. -/
def ruleName (appName : String) : String := appName ++ x.suffix

/-- The rule of an application, as it is read. -/
def getRule (appName mesh : String) : RuleM σ (Option (Rule σ)) :=
  resourceManagerGetByKey x.kind (buildResourceKey mesh (x.ruleName appName))

/-- The sets that the getter collects from the entries. -/
def collect : List E → List T
  | [] => []
  | e :: rest =>
    if x.recognises e then
      match x.read e with
      | none => []
      | some t => t :: collect rest
    else collect rest

/-- The getter of the setting. -/
def getter (appName mesh : String) : RuleM σ (List T) := do
  match ← x.getRule appName mesh with
  | none => pure []
  | some ⟨_, _, _, none⟩ => throw nilDereference
  | some ⟨_, _, _, some spec⟩ => pure (x.collect (x.entries spec).elements)

/-- The entries after an update: those that are not recognised, and then the new ones. -/
def replaced (entries new : List E) : List E := entries.filter (!x.recognises ·) ++ new

/-- The rule that an update writes, over the rule that it has read. -/
def written (appName mesh : String) (new : List E) : Option (Rule σ) → Option (Rule σ)
  | none => some ⟨x.kind, mesh, x.ruleName appName,
      some (x.setEntries (some new) (x.newSpec appName))⟩
  | some ⟨_, _, _, none⟩ => none
  | some ⟨kind, mesh, name, some spec⟩ => some ⟨kind, mesh, name,
      some (x.setEntries (some (x.replaced (x.entries spec).elements new)) spec)⟩

/-- The update of the setting. The application may be looked up after the read of the rule. -/
def upInsert (ctx : Context σ) (looked : Except Failure Unit) (appName mesh : String)
    (sets : List T) : RuleM σ Unit := do
  let res ← x.getRule appName mesh
  ofExcept looked
  match sets.mapM x.generate with
  | none => throw nilDereference
  | some new =>
    match res, x.written appName mesh new res with
    | _, none => throw nilDereference
    | none, some r => createRule ctx r ""
    | some _, some r => updateRule ctx r ""

/-! ## Put-get -/

/-- The rule of the application, as it is read back. -/
def ruleAt (appName mesh : String) (s : RuleState σ S) : Option (Rule σ) :=
  (s.live.get? (x.kind, buildResourceKey mesh (x.ruleName appName))).map x.readBack

/-- The entries of the application's rule, as they are read back. -/
def entriesAt (appName mesh : String) (s : RuleState σ S) : List E :=
  match (x.ruleAt appName mesh s).bind Resource.spec with
  | none => []
  | some spec => (x.entries spec).elements

/-- What a getter returns, where nothing fails. -/
def returns (st : LedgerStore S) (get : RuleM σ (List T)) (s : RuleState σ S) :
    Except Failure (List T) :=
  (Prog.exec (readStep x.readBack st) get.run s).1

/-- A call from `s` that ended in `s'` has set the sets. The calls to set them are `update i`, where
`i` is what they find of the application. -/
structure PutGet {ι : Type} (st : LedgerStore S) (getSets : RuleM σ (List T))
    (update : ι → RuleM σ Unit) (appName mesh : String) (sets : List T) (s s' : RuleState σ S) :
    Prop where
  get : x.returns st getSets s' = .ok sets
  /-- The entries that are not recognised are as they were. -/
  kept : (x.entriesAt appName mesh s').filter (!x.recognises ·) =
    (x.entriesAt appName mesh s).filter (!x.recognises ·)
  again : ∀ i s'', (update i).run.Runs (ReadSem x.readBack st) s' (.ok ()) s'' →
    x.ruleAt appName mesh s'' = x.ruleAt appName mesh s'

/-- The set that is read from the entry that was generated from a set, after it has been stored. -/
def reread (t : T) : Option T :=
  (x.generate t).bind fun e => if x.recognises (x.store e) then x.read (x.store e) else none

/-- What the parts of a scene have to do with each other. -/
structure Lawful : Prop where
  entries_setEntries : ∀ l spec, x.entries (x.setEntries l spec) = l
  setEntries_setEntries : ∀ l l' spec, x.setEntries l (x.setEntries l' spec) = x.setEntries l spec
  store_store : ∀ e, x.store (x.store e) = x.store e
  /-- The getter does not stop at a generated entry. -/
  read_generated : ∀ t e, x.generate t = some e → x.recognises (x.store e) = true →
    (x.read (x.store e)).isSome

/-! ## Lists of entries -/

section Lists

variable {x}

/-- No element is lost where an empty list becomes `nil`. -/
theorem elements_nilIfEmpty {α : Type} (l : Slice α) :
    Slice.elements (nilIfEmpty l) = l.elements := by
  match l with
  | none | some [] | some (_ :: _) => rfl

/-- The entries that are generated from a list of sets, one after the other. -/
theorem mapM_cons_eq_some {t : T} {ts : List T} {new : List E}
    (h : (t :: ts).mapM x.generate = some new) :
    ∃ e rest, x.generate t = some e ∧ ts.mapM x.generate = some rest ∧ new = e :: rest := by
  rw [List.mapM_cons] at h
  obtain ⟨e, he, h⟩ := Option.bind_eq_some_iff.mp h
  obtain ⟨rest, hrest, h⟩ := Option.bind_eq_some_iff.mp h
  exact ⟨e, rest, he, hrest, (Option.some.inj h).symm⟩

/-- The getter passes over entries that are not recognised. -/
theorem collect_append_of_not (l l' : List E) (h : ∀ e ∈ l, x.recognises e = false) :
    x.collect (l ++ l') = x.collect l' := by
  induction l with
  | nil => rfl
  | cons e l ih =>
    have he : ¬ x.recognises e = true := by
      rw [h e List.mem_cons_self]
      exact Bool.false_ne_true
    show (if x.recognises e then _ else x.collect (l ++ l')) = _
    rw [if_neg he]
    exact ih fun e' he' => h e' (List.mem_cons_of_mem _ he')

/-- What is read again of a set that an entry was generated from. -/
theorem reread_eq {t : T} {e : E} (h : x.generate t = some e) :
    x.reread t = if x.recognises (x.store e) then x.read (x.store e) else none := by
  unfold reread
  rw [h]
  rfl

/-- What the getter collects from the stored new entries. -/
theorem collect_stored (h : x.Lawful) {sets : List T} {new : List E}
    (hnew : sets.mapM x.generate = some new) :
    x.collect (new.map x.store) = sets.filterMap x.reread := by
  induction sets generalizing new with
  | nil =>
    obtain rfl : [] = new := Option.some.inj hnew
    rfl
  | cons t ts ih =>
    obtain ⟨e, rest, he, hrest, rfl⟩ := mapM_cons_eq_some hnew
    rw [List.map_cons, List.filterMap_cons, reread_eq he, ← ih hrest]
    by_cases hrec : x.recognises (x.store e) = true
    · obtain ⟨u, hu⟩ := Option.isSome_iff_exists.mp (h.read_generated t e he hrec)
      rw [collect, if_pos hrec, if_pos hrec, hu]
    · rw [collect, if_neg hrec, if_neg hrec]

/-- A map to options keeps a list exactly if it keeps each element. -/
theorem filterMap_eq_self_iff {f : T → Option T} {l : List T} :
    l.filterMap f = l ↔ ∀ t ∈ l, f t = some t := by
  induction l with
  | nil => exact iff_of_true rfl fun t ht => nomatch ht
  | cons t l ih =>
    rw [List.forall_mem_cons, ← ih]
    cases ht : f t with
    | none =>
      refine iff_of_false (fun heq => ?_) fun h => nomatch h.1
      have hlength := congrArg List.length heq
      have hle := List.length_filterMap_le f l
      rw [List.filterMap_cons_none ht, List.length_cons] at hlength
      omega
    | some u => rw [List.filterMap_cons_some ht, List.cons_eq_cons, Option.some_inj]

/-- An entry from which its set is read again is recognised. -/
theorem recognises_of_reread {sets : List T} {new : List E}
    (hnew : sets.mapM x.generate = some new) (h : ∀ t ∈ sets, x.reread t = some t) :
    ∀ e ∈ new, x.recognises (x.store e) = true := by
  induction sets generalizing new with
  | nil =>
    obtain rfl : [] = new := Option.some.inj hnew
    exact fun e he => nomatch he
  | cons t ts ih =>
    obtain ⟨e, rest, he, hrest, rfl⟩ := mapM_cons_eq_some hnew
    rw [List.forall_mem_cons] at h ⊢
    refine ⟨?_, ih hrest h.2⟩
    have ht := h.1
    rw [reread_eq he] at ht
    by_contra hrec
    rw [if_neg hrec] at ht
    cases ht

end Lists

/-! ## What an update leaves -/

section Calls

variable {x} {st : LedgerStore S} {s s' : RuleState σ S} {appName mesh : String} {sets : List T}

/-- The rule is read as it is read back. -/
theorem ensuresOk_getRule :
    EnsuresOk (ReadSem x.readBack st)
      (fun res s' => s'.live = s.live ∧ res = x.ruleAt appName mesh s)
      (x.getRule appName mesh) s :=
  ensuresOk_resourceManagerGetByKey _ _

/-- The rule that is read has the kind and key that were asked for. -/
theorem ruleId_of_ruleAt {r : Rule σ} (h : x.ruleAt appName mesh s = some r) :
    ruleId r = (x.kind, buildResourceKey mesh (x.ruleName appName)) := by
  obtain ⟨r', hr', rfl⟩ := Option.map_eq_some_iff.mp h
  exact (Keyed.get?_eq_some_iff.mp hr').2

/-- So has the rule that is written. -/
theorem ruleId_written {new : List E} {res : Option (Rule σ)} {r : Rule σ}
    (hres : ∀ r', res = some r' →
      ruleId r' = (x.kind, buildResourceKey mesh (x.ruleName appName)))
    (h : x.written appName mesh new res = some r) :
    ruleId r = (x.kind, buildResourceKey mesh (x.ruleName appName)) := by
  match res, h with
  | none, h =>
    cases h
    rfl
  | some ⟨kind', mesh', name', some spec⟩, h =>
    cases h
    exact hres ⟨kind', mesh', name', some spec⟩ rfl

/-- A rule that was set is read back. -/
theorem ruleAt_put {r : Rule σ}
    (hr : ruleId r = (x.kind, buildResourceKey mesh (x.ruleName appName)))
    (hlive : s'.live = s.live.put r) : x.ruleAt appName mesh s' = some (x.readBack r) := by
  unfold ruleAt
  rw [hlive, ← hr, Keyed.get?_put_self]
  rfl

/-- What an update leaves that returns `nil`: it has written what it should over the rule that was
there. -/
def Leaves (x : Scene σ E T) (appName mesh : String) (sets : List T) (s s' : RuleState σ S) :
    Prop :=
  ∃ new r, sets.mapM x.generate = some new ∧
    x.written appName mesh new (x.ruleAt appName mesh s) = some r ∧
    x.ruleAt appName mesh s' = some (x.readBack r)

/-- An update that returns `nil` has written what it should. -/
theorem ensuresOk_upInsert (ctx : Context σ) (looked : Except Failure Unit) :
    EnsuresOk (ReadSem x.readBack st) (fun _ s' => x.Leaves appName mesh sets s s')
      (x.upInsert ctx looked appName mesh sets) s := by
  unfold Leaves
  refine EnsuresOk.bind ensuresOk_getRule fun res s₁ h₁ => ?_
  obtain ⟨hlive, hres⟩ := h₁
  rw [← hres]
  refine EnsuresOk.bind (keepsLive_ofExcept looked s₁) fun _ s₂ h₂ => ?_
  cases hnew : sets.mapM x.generate with
  | none => exact EnsuresOk.throw _
  | some new =>
    dsimp only
    cases hwritten : x.written appName mesh new res with
    | none =>
      cases res with
      | none | some _ => exact EnsuresOk.throw _
    | some r =>
      have hid := ruleId_written (fun r' hr' => ruleId_of_ruleAt (hres.symm.trans hr')) hwritten
      cases res with
      | none =>
        exact (ensuresOk_createRule ctx r "").mono fun _ _ hput =>
          ⟨new, r, rfl, hwritten, ruleAt_put hid hput⟩
      | some r' =>
        exact (ensuresOk_updateRule ctx r "").mono fun _ _ hput =>
          ⟨new, r, rfl, hwritten, ruleAt_put hid hput.2⟩

end Calls

/-! ## When an update obeys put-get -/

section PutGet

variable {x} {st : LedgerStore S} {s s' : RuleState σ S} {appName mesh : String} {sets : List T}
  {new : List E} {r : Rule σ}

/-- The entries of a rule that is there. -/
theorem entriesAt_of_ruleAt {kind' mesh' name' : String} {spec : σ}
    (h : x.ruleAt appName mesh s = some ⟨kind', mesh', name', some spec⟩) :
    x.entriesAt appName mesh s = (x.entries spec).elements := by
  unfold entriesAt
  rw [h]
  rfl

/-- The getter collects from the entries of a rule that is there. -/
theorem returns_of_ruleAt {kind' mesh' name' : String} {spec : σ}
    (h : x.ruleAt appName mesh s = some ⟨kind', mesh', name', some spec⟩) :
    x.returns st (x.getter appName mesh) s = .ok (x.collect (x.entries spec).elements) := by
  have hread : Prog.exec (readStep x.readBack st) (x.getRule appName mesh).run s =
      (.ok (x.ruleAt appName mesh s), s) := rfl
  unfold returns getter
  rw [Prog.exec_bind_ok hread, h]
  rfl

/-- The entries of a spec that is read back. -/
theorem elements_stored (h : x.Lawful) (spec : σ) :
    (x.entries (x.stored spec)).elements = (x.entries spec).elements.map x.store := by
  unfold stored
  rw [h.entries_setEntries, elements_nilIfEmpty]
  cases x.entries spec with
  | none => rfl
  | some l => rfl

/-- An entry that was read back is stored as it is. -/
theorem store_of_mem_entriesAt (h : x.Lawful) {e : E} (he : e ∈ x.entriesAt appName mesh s) :
    x.store e = e := by
  unfold entriesAt ruleAt at he
  cases hlive : s.live.get? (x.kind, buildResourceKey mesh (x.ruleName appName)) with
  | none =>
    rw [hlive] at he
    cases he
  | some r =>
    obtain ⟨kind', mesh', name', spec⟩ := r
    rw [hlive] at he
    cases spec with
    | none => cases he
    | some spec =>
      have he : e ∈ (x.entries (x.stored spec)).elements := he
      rw [elements_stored h] at he
      obtain ⟨e', -, rfl⟩ := List.mem_map.mp he
      exact h.store_store e'

/-- The rule that an update writes: its entries, over the rule that was there, if there was one. -/
theorem written_eq
    (hwritten : x.written appName mesh new (x.ruleAt appName mesh s) = some r) :
    ∃ base : Rule σ, ∃ spec, r = { base with spec := some (x.setEntries
        (some (x.replaced (x.entriesAt appName mesh s) new)) spec) } ∧
      ∀ r' spec', x.ruleAt appName mesh s = some r' → r'.spec = some spec' →
        base = r' ∧ spec = spec' := by
  match hrule : x.ruleAt appName mesh s, hwritten with
  | none, hwritten =>
    have hnone : x.entriesAt appName mesh s = [] := by
      unfold entriesAt
      rw [hrule]
      rfl
    rw [hnone]
    exact ⟨⟨x.kind, mesh, x.ruleName appName, none⟩, x.newSpec appName,
      (Option.some.inj hwritten).symm, nofun⟩
  | some ⟨kind', mesh', name', some spec⟩, hwritten =>
    rw [entriesAt_of_ruleAt hrule]
    refine ⟨⟨kind', mesh', name', some spec⟩, spec, (Option.some.inj hwritten).symm, ?_⟩
    rintro r' spec' hr' hspec'
    cases hr'
    exact ⟨rfl, Option.some.inj hspec'⟩

/-- The rule that is read back after an update. -/
theorem ruleAt_written (h : x.Lawful)
    (hwritten : x.written appName mesh new (x.ruleAt appName mesh s) = some r)
    (hs' : x.ruleAt appName mesh s' = some (x.readBack r)) :
    ∃ base : Rule σ, ∃ spec, x.ruleAt appName mesh s' = some { base with
        spec := some (x.setEntries (nilIfEmpty (some ((x.entriesAt appName mesh s).filter
          (!x.recognises ·) ++ new.map x.store))) spec) } ∧
      ∀ r' spec', x.ruleAt appName mesh s = some r' → r'.spec = some spec' →
        base = r' ∧ spec = spec' := by
  obtain ⟨base, spec, rfl, hbase⟩ := written_eq hwritten
  refine ⟨base, spec, ?_, hbase⟩
  have hkept : ((x.entriesAt appName mesh s).filter (!x.recognises ·)).map x.store =
      (x.entriesAt appName mesh s).filter (!x.recognises ·) := by
    refine (List.map_congr_left fun e he => ?_).trans (List.map_id _)
    exact store_of_mem_entriesAt h (List.mem_filter.mp he).1
  have hstored : x.stored (x.setEntries (some (x.replaced (x.entriesAt appName mesh s) new)) spec) =
      x.setEntries (nilIfEmpty (some ((x.entriesAt appName mesh s).filter (!x.recognises ·) ++
        new.map x.store))) spec := by
    unfold stored replaced
    rw [h.entries_setEntries, h.setEntries_setEntries, Option.map_some, List.map_append, hkept]
  rw [hs', ← hstored]
  rfl

/-- The entries that are read back after an update. -/
theorem entriesAt_written (h : x.Lawful)
    (hwritten : x.written appName mesh new (x.ruleAt appName mesh s) = some r)
    (hs' : x.ruleAt appName mesh s' = some (x.readBack r)) :
    x.entriesAt appName mesh s' = (x.entriesAt appName mesh s).filter (!x.recognises ·) ++
      new.map x.store := by
  obtain ⟨base, spec, hrule, -⟩ := ruleAt_written h hwritten hs'
  rw [entriesAt_of_ruleAt hrule, h.entries_setEntries, elements_nilIfEmpty]
  rfl

/-- What the getter returns after an update. -/
theorem returns_written (h : x.Lawful) (hnew : sets.mapM x.generate = some new)
    (hwritten : x.written appName mesh new (x.ruleAt appName mesh s) = some r)
    (hs' : x.ruleAt appName mesh s' = some (x.readBack r)) :
    x.returns st (x.getter appName mesh) s' = .ok (sets.filterMap x.reread) := by
  obtain ⟨base, spec, hrule, -⟩ := ruleAt_written h hwritten hs'
  have hkept : ∀ e ∈ (x.entriesAt appName mesh s).filter (!x.recognises ·),
      x.recognises e = false := by
    intro e he
    simpa using (List.mem_filter.mp he).2
  rw [returns_of_ruleAt hrule, h.entries_setEntries, elements_nilIfEmpty]
  show Except.ok (x.collect (_ ++ _)) = _
  rw [collect_append_of_not _ _ hkept, collect_stored h hnew]

/-- Where the new entries are recognised, the others are those that there were. -/
theorem filter_written (hrec : ∀ e ∈ new, x.recognises (x.store e) = true) (l : List E) :
    (l.filter (!x.recognises ·) ++ new.map x.store).filter (!x.recognises ·) =
      l.filter (!x.recognises ·) := by
  have hnone : (new.map x.store).filter (!x.recognises ·) = [] := by
    rw [List.filter_eq_nil_iff]
    intro e he
    obtain ⟨e', he', rfl⟩ := List.mem_map.mp he
    simp [hrec e' he']
  rw [List.filter_append, hnone, List.append_nil, List.filter_filter]
  simp

/-- An update obeys put-get, keeps the other entries and may be repeated exactly if each set is read
back from its stored entry. -/
theorem putGet_iff {ι : Type} (h : x.Lawful) {update : ι → RuleM σ Unit}
    (hupdate : ∀ i (s : RuleState σ S), EnsuresOk (ReadSem x.readBack st)
      (fun _ s' => x.Leaves appName mesh sets s s') (update i) s) {i : ι}
    (hruns : (update i).run.Runs (ReadSem x.readBack st) s (.ok ()) s') :
    x.PutGet st (x.getter appName mesh) update appName mesh sets s s' ↔
      ∀ t ∈ sets, x.reread t = some t := by
  obtain ⟨new, r, hnew, hwritten, hs'⟩ := (hupdate i s).of_runs hruns
  have hreturns : x.returns st (x.getter appName mesh) s' = .ok (sets.filterMap x.reread) :=
    returns_written h hnew hwritten hs'
  constructor
  · intro hput
    exact filterMap_eq_self_iff.mp (Except.ok.inj (hreturns.symm.trans hput.get))
  · intro hreread
    have hrec := recognises_of_reread hnew hreread
    have hentries := entriesAt_written h hwritten hs'
    refine ⟨?_, ?_, fun i' s'' hruns' => ?_⟩
    · rw [hreturns, filterMap_eq_self_iff.mpr hreread]
    · rw [hentries, filter_written hrec]
    · -- The second call removes the new entries and appends them again.
      obtain ⟨new', r', hnew', hwritten', hs''⟩ := (hupdate i' s').of_runs hruns'
      obtain rfl := Option.some.inj (hnew.symm.trans hnew')
      obtain ⟨base, spec, hrule, -⟩ := ruleAt_written h hwritten hs'
      obtain ⟨base', spec', hrule', hbase⟩ := ruleAt_written h hwritten' hs''
      obtain ⟨rfl, rfl⟩ := hbase _ _ hrule rfl
      rw [hrule', hrule, hentries, filter_written hrec, h.setEntries_setEntries]

end PutGet

end Scene

end DubboAdmin.Console
