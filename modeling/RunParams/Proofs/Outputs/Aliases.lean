import Mathlib.Data.List.DropRight
import RunParams.Proofs.Outputs.Enumerations

/-!
# What a label holds after several records

Each time an output is recorded it is kept under its own key, where the last record stands, and
under the label that the key names, where every record may leave something: of objects, the entries
that the label has already win, and a value that is no object takes the place of everything.

`Store.aliasAfter` follows the label from record to record. `Store.earliest` says in one step which
entries the label then has: for each key that of the earliest object since the label was last
replaced (`Store.bind_aliasAfter`). `Store.alias_of_records` says so of an output that is recorded
again and again, while others do what they like with all but the label.
-/

namespace RunParams

/-! ## Objects -/

namespace Json

variable {v : Json} {key : String}

/-- Whether a value is an object. -/
def isObject : Json → Bool
  | object _ => true
  | _ => false

/-- If a value is an object, its members are sorted by key, each key once. -/
def Orderly (v : Json) : Prop := ∀ members, v = .object members → Entries.Sorted members

/-- The object with the entries of a map is orderly. -/
theorem orderly_ofMap (m : KeyMap Json) : (ofMap m).Orderly := by
  intro members hmembers
  cases hmembers
  exact m.sorted

/-- The object with some members is orderly. -/
theorem orderly_ofMembers (members : List (String × Json)) : (ofMembers members).Orderly := by
  intro _ hmembers
  cases hmembers
  exact Entries.sorted_sort members

/-- An orderly object has the entries of a map. -/
theorem Orderly.exists_ofMap (h : v.Orderly) (hobject : v.isObject = true) :
    ∃ m : KeyMap Json, v = ofMap m := by
  cases v with
  | object members => exact ⟨⟨members, h members rfl⟩, rfl⟩
  | null | bool _ | number _ | text _ | array _ => cases hobject

/-- What is no object has no members. -/
theorem member?_of_isObject_eq_false (h : v.isObject = false) (key : String) :
    v.member? key = none := by
  cases v with
  | object members => cases h
  | null | bool _ | number _ | text _ | array _ => rfl

end Json

namespace Store

variable {o : OutputParameter} {label : String} {s t : Store} {v : Json} {before : Option Json}
  {values : List Json}

/-! ## One record -/

/-- The entry that a record brings to a label: its own, but as `output` what has been extracted, if
anything. -/
def mirrored (v : Json) (key : String) : Option Json :=
  if key = "output" then (v.member? extractedKey).or (v.member? key) else v.member? key

/-- An object with its extracted information repeated. -/
theorem withOutput_ofMap (m : KeyMap Json) :
    ∃ m' : KeyMap Json, withOutput (.ofMap m) = .ofMap m' ∧
      ∀ key, m'.get? key = mirrored (.ofMap m) key := by
  -- The output is mirrored only where it was extracted.
  cases hextracted : m.get? extractedKey with
  | none =>
    have hfind : Entries.find extractedKey m.entries = none := hextracted
    refine ⟨m, by simp only [withOutput, Json.ofMap, hfind], fun key => ?_⟩
    unfold mirrored
    rw [Json.member?_ofMap, Json.member?_ofMap, hextracted, Option.none_or, ite_self]
  | some extracted =>
    have hfind : Entries.find extractedKey m.entries = some extracted := hextracted
    refine ⟨m.insert "output" extracted, ?_, fun key => ?_⟩
    · simp only [withOutput, Json.ofMap, hfind]
      rfl
    · unfold mirrored
      rw [KeyMap.get?_insert, Json.member?_ofMap, Json.member?_ofMap, hextracted, Option.some_or]

/-- What is no object takes the place of whatever the label holds. -/
theorem aliased_of_isObject_eq_false (h : v.isObject = false) (current : Option Json) :
    aliased current v = v := by
  cases v with
  | object members => cases h
  | null | bool _ | number _ | text _ | array _ =>
    unfold aliased withOutput
    cases current with
    | none => rfl
    | some value => cases value <;> rfl

/-- An object brings its entries, but those that the label holds already win. -/
theorem aliased_of_isObject {current : Option Json}
    (hcurrent : ∀ value, current = some value → value.Orderly) (hv : v.Orderly)
    (hobject : v.isObject = true) :
    ∃ m : KeyMap Json, aliased current v = .ofMap m ∧
      ∀ key, m.get? key = (current.bind (·.member? key)).or (mirrored v key) := by
  obtain ⟨m, rfl⟩ := hv.exists_ofMap hobject
  obtain ⟨m', houtput, hget⟩ := withOutput_ofMap m
  -- Unless the label holds an object there is nothing that could win.
  have hlatest : (∀ members, current ≠ some (.object members)) →
      aliased current (.ofMap m) = .ofMap m' := by
    intro hnone
    unfold aliased
    rw [houtput]
    cases current with
    | none => rfl
    | some value =>
      cases value with
      | object members => exact absurd rfl (hnone members)
      | null | bool _ | number _ | text _ | array _ => rfl
  -- What the label holds wins entry by entry, if it is an object.
  cases current with
  | none => exact ⟨m', hlatest nofun, hget⟩
  | some value =>
    cases hvalue : value.isObject with
    | false =>
      have hnone : ∀ members, some value ≠ some (.object members) := by
        rintro members ⟨⟩
        cases hvalue
      refine ⟨m', hlatest hnone, fun key => ?_⟩
      rw [Option.bind_some, Json.member?_of_isObject_eq_false hvalue, Option.none_or, hget]
    | true =>
      obtain ⟨existing, rfl⟩ := (hcurrent value rfl).exists_ofMap hvalue
      refine ⟨m'.union existing, ?_, fun key => ?_⟩
      · unfold aliased
        rw [houtput]
        exact congrArg Json.object (KeyMap.entries_union m' existing).symm
      · rw [KeyMap.get?_union, hget, Option.bind_some, Json.member?_ofMap]

/-! ## Several records -/

/-- What a label holds after some records, when it held something or nothing before. -/
def aliasAfter (before : Option Json) (values : List Json) : Option Json :=
  values.foldl (fun current v => some (aliased current v)) before

/-- One more record. -/
theorem aliasAfter_concat (before : Option Json) (values : List Json) (v : Json) :
    aliasAfter before (values ++ [v]) = some (aliased (aliasAfter before values) v) :=
  List.foldl_concat ..

/-- For a key the entry of the earliest source that has one: what the label held before, if no
record has replaced it, and then the records since the last one that is no object. -/
def earliest (before : Option Json) (values : List Json) (key : String) : Option Json :=
  (if values.all Json.isObject then before.bind (·.member? key) else none).or
    ((values.rtakeWhile Json.isObject).findSome? (mirrored · key))

/-- A record that is an object is one more source. -/
theorem earliest_concat (hobject : v.isObject = true) (before : Option Json) (values : List Json)
    (key : String) :
    earliest before (values ++ [v]) key = (earliest before values key).or (mirrored v key) := by
  unfold earliest
  rw [List.rtakeWhile_concat_pos _ _ _ hobject, List.findSome?_append, List.findSome?_singleton,
    List.all_append, List.all_cons, List.all_nil, hobject, Bool.and_self, Bool.and_true,
    Option.or_assoc]

/-- A record that is no object leaves no source. -/
theorem earliest_of_isObject_eq_false (hobject : v.isObject = false) (before : Option Json)
    (values : List Json) (key : String) : earliest before (values ++ [v]) key = none := by
  unfold earliest
  rw [List.rtakeWhile_concat, hobject, if_neg Bool.false_ne_true, List.all_append, List.all_cons,
    hobject, Bool.false_and, Bool.and_false, if_neg Bool.false_ne_true]
  rfl

/-- After some records the label is orderly and has the earliest entry of each key. -/
theorem bind_aliasAfter (hbefore : ∀ value, before = some value → value.Orderly)
    (hvalues : ∀ v ∈ values, v.Orderly) :
    (∀ value, aliasAfter before values = some value → value.Orderly) ∧
      ∀ key, (aliasAfter before values).bind (·.member? key) = earliest before values key := by
  induction values using List.reverseRecOn with
  | nil => exact ⟨hbefore, fun key => (Option.or_none).symm⟩
  | append_singleton rest v ih =>
    have hv : v.Orderly := hvalues v (List.mem_append_right rest (List.mem_singleton_self v))
    obtain ⟨horderly, hentries⟩ := ih fun w hw => hvalues w (List.mem_append_left [v] hw)
    rw [aliasAfter_concat]
    -- What is no object starts the alias anew, and what is one goes under what was there.
    cases hobject : v.isObject with
    | false =>
      rw [aliased_of_isObject_eq_false hobject]
      refine ⟨fun value hvalue => Option.some.inj hvalue ▸ hv, fun key => ?_⟩
      rw [earliest_of_isObject_eq_false hobject]
      exact Json.member?_of_isObject_eq_false hobject key
    | true =>
      obtain ⟨m, halias, hget⟩ := aliased_of_isObject horderly hv hobject
      rw [halias]
      refine ⟨fun value hvalue => Option.some.inj hvalue ▸ Json.orderly_ofMap m, fun key => ?_⟩
      rw [earliest_concat hobject, ← hentries, ← hget]
      exact Json.member?_ofMap m key

/-- An output is recorded again and again, with success or without. In between others may do what
they like, but the label keeps its value, and neither the key of the output nor the label is the key
of a dependent when the output is recorded. -/
inductive Records (o : OutputParameter) (label : String) (s : Store) : List Json → Store → Prop
  | none : Records o label s [] s
  | more {t u : Store} {values : List Json} (earlier : Records o label s values t)
    (others : u.value? label = t.value? label) (own : o.key ∉ u.dependentKeys o)
    (spared : label ∉ u.dependentKeys o) (v : Json) :
    Records o label s (values ++ [v]) (record o v u).state

/-- The records are all that the label shows. -/
theorem Records.value?_label (h : Records o label s values t) (hlabel : o.label? = some label) :
    t.value? label = aliasAfter (s.value? label) values := by
  induction h with
  | none => rfl
  | @more t u values _ others _ spared v ih =>
    rw [aliasAfter_concat, value?_record_of_not_mem spared, value?_holding, held_label hlabel,
      others, ih]

/-- An output that is recorded again and again stands under its key as it was recorded last. Under
the label that the key names stands the last record if it is no object, and otherwise an object that
has for each key the entry of the earliest source: of the object that the label held before, if all
records are objects, and of the records since the last one that is no object, each with what it has
extracted repeated as `output`. -/
theorem alias_of_records (hlabel : o.label? = some label)
    (hbefore : ∀ value, s.value? label = some value → value.Orderly)
    (hvalues : ∀ w ∈ values ++ [v], w.Orderly) (h : Records o label s (values ++ [v]) t) :
    t.value? o.key = some v ∧
    (v.isObject = false → t.value? label = some v) ∧
    (v.isObject = true → ∃ m : KeyMap Json, t.value? label = some (.ofMap m) ∧
      ∀ key, m.get? key = earliest (s.value? label) (values ++ [v]) key) := by
  have halias := h.value?_label hlabel
  obtain ⟨-, hentries⟩ := bind_aliasAfter hbefore hvalues
  refine ⟨?_, fun hobject => ?_, fun hobject => ?_⟩
  · -- Under its own key stands what was recorded last.
    generalize hall : values ++ [v] = all at h
    cases h with
    | none => exact absurd hall (List.concat_ne_nil v values)
    | @more _ u _ _ _ own _ w =>
      obtain ⟨-, hlast⟩ := List.append_inj' hall rfl
      cases hlast
      rw [value?_record_of_not_mem own, value?_holding, held_key]
  · rw [halias, aliasAfter_concat, aliased_of_isObject_eq_false hobject]
  · rw [aliasAfter_concat] at halias
    have hv : v.Orderly := hvalues v (List.mem_append_right values (List.mem_singleton_self v))
    obtain ⟨horderly, -⟩ := bind_aliasAfter hbefore
      fun w hw => hvalues w (List.mem_append_left [v] hw)
    obtain ⟨m, hm, -⟩ := aliased_of_isObject horderly hv hobject
    refine ⟨m, halias.trans (congrArg some hm), fun key => ?_⟩
    rw [← hentries, aliasAfter_concat, hm]
    rfl

/-- The label holds a note, and two objects are recorded: the note stays, and the `output` that
repeats what the first one has extracted wins over the one of the second. -/
theorem alias_of_records_extract :
    let o := OutputParameter.ofLabel "extract"
    let s := Store.empty.set "extract" (.ofMembers [("note", .int 7)])
    let first := Json.ofMembers [("extracted_information", .int 1), ("output", .int 0)]
    let second := Json.ofMembers [("output", .int 2), ("note", .int 3)]
    let t := (record o second (record o first s).state).state
    o.label? = some "extract" ∧ Records o "extract" s ([first] ++ [second]) t ∧
      t.value? o.key = some second ∧
      ∃ m : KeyMap Json, t.value? "extract" = some (.ofMap m) ∧
        m.get? "note" = some (.int 7) ∧ m.get? "output" = some (.int 1) := by
  intro o s first second t
  have hlabel : o.label? = some "extract" := OutputParameter.label?_ofLabel "extract" (by decide)
  have hrecords : Records o "extract" s ([first] ++ [second]) t := by
    have hone : Records o "extract" s ([] ++ [first]) (record o first s).state :=
      .more .none rfl (by decide +kernel) (by decide +kernel) first
    exact .more hone rfl (by decide +kernel) (by decide +kernel) second
  have hbefore : ∀ value, s.value? "extract" = some value → value.Orderly := by
    intro value hvalue
    cases hvalue
    exact Json.orderly_ofMembers _
  have hvalues : ∀ w ∈ [first] ++ [second], w.Orderly := by
    intro w hw
    rcases List.mem_pair.mp hw with rfl | rfl <;> exact Json.orderly_ofMembers _
  obtain ⟨hown, -, hobject⟩ := alias_of_records hlabel hbefore hvalues hrecords
  obtain ⟨m, hm, hget⟩ := hobject rfl
  exact ⟨hlabel, hrecords, hown, m, hm, hget "note", hget "output"⟩

end Store

end RunParams
