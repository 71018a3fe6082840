import RunParams.Proofs.Outputs.Aliases

/-!
# The output of a step that is not finished

An output that reports what has been extracted along with a status other than completed brings its
dependents nothing. It is kept all the same, under its own key and under the label that the key
names, and nothing keeps a context parameter from having one of these keys. So a dependent is left
alone by what is delivered, but not by what is kept (`Store.record_unfinished`,
`Store.unfinished_reaches_dependents`).
-/

namespace RunParams.Store

variable {o : OutputParameter} {s : Store} {v : Json} {current : Option Json}

/-- An unfinished output is an object. -/
theorem Unfinished.isObject (h : Unfinished v) : v.isObject = true := by
  obtain ⟨members, _, _, rfl, -⟩ := h
  rfl

/-- An object leaves a label as it is just when the label has an object with an entry for each of
its keys. -/
theorem aliased_eq_current_iff (hcurrent : ∀ value, current = some value → value.Orderly)
    (hv : v.Orderly) (hobject : v.isObject = true) :
    some (aliased current v) = current ↔
      ∃ existing : KeyMap Json, current = some (.ofMap existing) ∧
        ∀ key, mirrored v key ≠ none → existing.get? key ≠ none := by
  obtain ⟨m, halias, hget⟩ := aliased_of_isObject hcurrent hv hobject
  rw [halias]
  constructor
  · rintro rfl
    -- An entry the output brings and the label lacked would be there now.
    refine ⟨m, rfl, fun key hbrings hnone => hbrings ?_⟩
    have hentry := hget key
    rw [Option.bind_some, Json.member?_ofMap, hnone, Option.none_or] at hentry
    exact hentry.symm
  · rintro ⟨existing, rfl, hcovers⟩
    have hsame : m = existing := by
      -- What the label had wins, so nothing is added if it covers all that the output brings.
      refine KeyMap.ext_get? fun key => ?_
      rw [hget, Option.bind_some, Json.member?_ofMap]
      cases hentry : existing.get? key with
      | some entry => rfl
      | none =>
        rw [Option.none_or]
        exact not_not.mp fun hbrings => hcovers key hbrings hentry
    rw [hsame]

/-- Recording an unfinished output keeps it and does nothing else. -/
theorem value?_record_of_unfinished (h : Unfinished v) (o : OutputParameter) (s : Store)
    (key : String) : (record o v s).state.value? key = s.held o v key := by
  have hrecorded := recorded_record s o v
  by_cases hdependent : key ∈ s.dependentKeys o
  · exact hrecorded.unfinished h key hdependent
  · exact hrecorded.others key hdependent

/-- The recording of an unfinished output succeeds and leaves a dependent as it is, with or without
a value, whose key is neither that of the output nor the label that this names. It leaves all
dependents as they are just when a dependent with the key of the output has this very output as its
value already, and one with the label an object with an entry for each key of the output. -/
theorem record_unfinished (h : Unfinished v) (hv : v.Orderly)
    (hlabels : ∀ label value, o.label? = some label → s.value? label = some value →
      value.Orderly) :
    (record o v s).result = .ok () ∧
    (∀ key ∈ s.dependentKeys o, key ≠ o.key → o.label? ≠ some key →
      (record o v s).state.value? key = s.value? key) ∧
    ((∀ key ∈ s.dependentKeys o, (record o v s).state.value? key = s.value? key) ↔
      (o.key ∈ s.dependentKeys o → s.value? o.key = some v) ∧
      ∀ label ∈ s.dependentKeys o, o.label? = some label →
        ∃ existing : KeyMap Json, s.value? label = some (.ofMap existing) ∧
          ∀ key, mirrored v key ≠ none → existing.get? key ≠ none) := by
  have hvalue := value?_record_of_unfinished h o s
  have halias : ∀ label, o.label? = some label →
      ((record o v s).state.value? label = s.value? label ↔
        ∃ existing : KeyMap Json, s.value? label = some (.ofMap existing) ∧
          ∀ key, mirrored v key ≠ none → existing.get? key ≠ none) := by
    intro label hlabel
    rw [hvalue, held_label hlabel]
    exact aliased_eq_current_iff (fun value => hlabels label value hlabel) hv h.isObject
  refine ⟨record_ok_iff.mpr fun key _ => ?_, fun key _ hkey hlabel => ?_, ?_⟩
  · -- To an unfinished output no delivery is scalar, so nothing can fail.
    rw [delivery_of_unfinished h]
    exact nofun
  · rw [hvalue, held_of_ne hkey hlabel]
  · constructor
    · intro hkept
      refine ⟨fun hown => ?_, fun label hmem hlabel => ?_⟩
      · rw [← hkept o.key hown, hvalue, held_key]
      · exact (halias label hlabel).mp (hkept label hmem)
    · rintro ⟨hown, hlabel⟩ key hmem
      -- What is kept reaches the key of the output and the label only.
      by_cases hkey : key = o.key
      · subst hkey
        rw [hvalue, held_key, hown hmem]
      · by_cases hnamed : o.label? = some key
        · exact (halias key hnamed).mpr (hlabel key hmem hnamed)
        · rw [hvalue, held_of_ne hkey hnamed]

/-- A dependent with a key of its own stays without a value, and one with the label keeps its
object, which has all keys of the output. -/
theorem record_unfinished_covered :
    let o := OutputParameter.ofLabel "extract"
    let v := Json.ofMembers [("status", .text "running"), ("extracted_information", .int 1)]
    let seen := Json.ofMembers
      [("status", .null), ("extracted_information", .null), ("output", .null)]
    let s := ((Store.empty.define (.context (.ofSource "email" ⟨.output, o.key⟩))).define
      (.context (.ofSource "extract" ⟨.output, o.key⟩))).set "extract" seen
    Unfinished v ∧ v.Orderly ∧ s.dependentKeys o = ["email", "extract"] ∧
      (record o v s).state.value? "email" = none ∧
      (record o v s).state.value? "extract" = some seen := by
  intro o v seen s
  have hunfinished : Unfinished v := isUnfinished_iff.mp (by decide +kernel)
  have hlabel : o.label? = some "extract" := OutputParameter.label?_ofLabel "extract" (by decide)
  have hlabels : ∀ label value, o.label? = some label → s.value? label = some value →
      value.Orderly := by
    intro label value hnamed hvalue
    rw [hlabel] at hnamed
    cases hnamed
    cases hvalue
    exact Json.orderly_ofMembers _
  have hkeys : s.dependentKeys o = ["email", "extract"] := by decide +kernel
  obtain ⟨-, hspared, hall⟩ :=
    record_unfinished (o := o) (s := s) hunfinished (Json.orderly_ofMembers _) hlabels
  have hcovers : ∀ key, mirrored v key ≠ none →
      (KeyMap.ofList [("status", Json.null), ("extracted_information", .null),
        ("output", .null)]).get? key ≠ none := by
    intro key hbrings
    by_cases hkey : key = "status" ∨ key = "extracted_information" ∨ key = "output"
    · rcases hkey with rfl | rfl | rfl <;> exact fun hnone => nomatch hnone
    · obtain ⟨hstatus, hextracted, houtput⟩ := not_or.mp hkey |>.imp_right not_or.mp
      refine absurd ?_ hbrings
      unfold mirrored
      rw [if_neg houtput]
      show Entries.find key (Entries.sort _) = none
      rw [Entries.find_sort, Entries.find_eq_none_iff]
      intro e he
      rcases List.mem_pair.mp he with rfl | rfl
      · exact Ne.symm hextracted
      · exact Ne.symm hstatus
  refine ⟨hunfinished, Json.orderly_ofMembers _, hkeys, ?_, ?_⟩
  · exact hspared "email" (by rw [hkeys]; decide) (by decide +kernel) (by rw [hlabel]; decide)
  · refine hall.mpr ⟨fun hown => ?_, fun label hmem hnamed => ?_⟩ "extract"
      (by rw [hkeys]; decide)
    · rw [hkeys] at hown
      exact absurd hown (by decide +kernel)
    · rw [hlabel] at hnamed
      cases hnamed
      exact ⟨_, rfl, hcovers⟩

/-- Two context parameters without values depend on an output; one has the key of the output and the
other the label that it names. An unfinished output is recorded, and both have values. -/
theorem unfinished_reaches_dependents :
    let o := OutputParameter.ofLabel "extract"
    let v := Json.ofMembers [("status", .text "running"),
      ("extracted_information", .ofMembers [("extract", .text "ada")])]
    let s := (Store.empty.define (.context (.ofSource "extract" ⟨.output, o.key⟩))).define
      (.context (.ofSource "extract_output" ⟨.output, o.key⟩))
    Unfinished v ∧ s.dependentKeys o = ["extract", "extract_output"] ∧
      s.hasValue "extract" = false ∧ s.hasValue "extract_output" = false ∧
      (record o v s).state.hasValue "extract" = true ∧
      (record o v s).state.hasValue "extract_output" = true := by
  intro o v s
  refine ⟨isUnfinished_iff.mp ?_, ?_, ?_, ?_, ?_, ?_⟩ <;> decide +kernel

end RunParams.Store
