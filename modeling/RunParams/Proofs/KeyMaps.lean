import Mathlib.Data.List.Induction
import RunParams.KeyMap

/-!
# Finding what a map holds

In sorted entries every entry is found under its key, so what is listed among the values of a map is
what its keys look up (`KeyMap.exists_get?_of_mem_values`), and keeping the entries that pass a test
keeps what is looked up if it passes (`KeyMap.get?_filter`). Sorting entries keeps the last one of
each key (`Entries.find_sort`), and loses nothing if the keys differ (`Entries.sort_perm`). When a
map is added to another, the added entries win (`KeyMap.get?_union`).
-/

namespace RunParams

namespace Entries

variable {α : Type} {entries : List (String × α)} {key : String} {value : α}

/-- What is found stands among the entries. -/
theorem mem_of_find (h : find key entries = some value) : (key, value) ∈ entries := by
  induction entries with
  | nil => cases h
  | cons e rest ih =>
    rw [find_cons] at h
    by_cases hkey : e.1 = key
    · rw [if_pos hkey] at h
      cases h
      exact hkey ▸ List.mem_cons_self
    · rw [if_neg hkey] at h
      exact List.mem_cons_of_mem e (ih h)

/-- What stands among sorted entries is found. -/
theorem Sorted.find_of_mem (hsorted : Sorted entries) (h : (key, value) ∈ entries) :
    find key entries = some value := by
  induction entries with
  | nil => exact absurd h List.not_mem_nil
  | cons e rest ih =>
    obtain ⟨hbelow, hrest⟩ := List.pairwise_cons.mp hsorted
    rw [find_cons]
    rcases List.mem_cons.mp h with rfl | hmem
    · rw [if_pos rfl]
    · have hapart : e.1 ≠ key := by
        intro hsame
        have hless : e.1 < key := hbelow _ hmem
        rw [hsame] at hless
        exact String.lt_irrefl key hless
      rw [if_neg hapart]
      exact ih hrest hmem

/-- What is in sorted entries is in the entries. -/
theorem mem_sort {e : String × α} (h : e ∈ sort entries) : e ∈ entries := by
  -- The fold starts anywhere: what it ends with was there or has been inserted.
  suffices hfold : ∀ start : List (String × α),
      e ∈ entries.foldl (fun sorted e => insert e.1 e.2 sorted) start → e ∈ start ∨ e ∈ entries by
    rcases hfold [] h with hnil | hmem
    · exact absurd hnil List.not_mem_nil
    · exact hmem
  clear h
  induction entries with
  | nil => exact fun _ hstart => Or.inl hstart
  | cons first rest ih =>
    intro start hmem
    rw [List.foldl_cons] at hmem
    rcases ih _ hmem with hinsert | hrest
    · rcases mem_insert hinsert with rfl | hstart
      · exact Or.inr List.mem_cons_self
      · exact Or.inl hstart
    · exact Or.inr (List.mem_cons_of_mem first hrest)

/-- An entry for a new key is one more entry. -/
theorem insert_perm (value : α) (h : find key entries = none) :
    (insert key value entries).Perm ((key, value) :: entries) := by
  induction entries with
  | nil => exact .refl _
  | cons e rest ih =>
    rw [find_cons] at h
    have hkey : e.1 ≠ key := by
      rintro hsame
      rw [if_pos hsame] at h
      cases h
    rw [if_neg hkey] at h
    unfold insert
    by_cases hless : e.1 < key
    · rw [if_pos hless]
      exact ((ih h).cons e).trans (.swap (key, value) e rest)
    · rw [if_neg hless, if_neg hkey]

/-- Nothing is found under a key that no entry has. -/
theorem find_eq_none_iff : find key entries = none ↔ ∀ e ∈ entries, e.1 ≠ key := by
  induction entries with
  | nil => exact ⟨fun _ _ h => absurd h List.not_mem_nil, fun _ => rfl⟩
  | cons e rest ih =>
    rw [find_cons, List.forall_mem_cons]
    by_cases hkey : e.1 = key
    · rw [if_pos hkey]
      exact ⟨nofun, fun h => absurd hkey h.1⟩
    · rw [if_neg hkey, ih]
      exact ⟨fun h => ⟨hkey, h⟩, fun h => h.2⟩

/-- What is found in two lists, one after the other. -/
theorem find_append (key : String) (xs ys : List (String × α)) :
    find key (xs ++ ys) = (find key xs).or (find key ys) := by
  induction xs with
  | nil => rfl
  | cons x xs ih =>
    rw [List.cons_append, find_cons, find_cons]
    by_cases hkey : x.1 = key
    · rw [if_pos hkey, if_pos hkey, Option.some_or]
    · rw [if_neg hkey, if_neg hkey, ih]

/-- Among sorted entries the last one of a key is found. -/
theorem find_sort (key : String) (entries : List (String × α)) :
    find key (sort entries) = find key entries.reverse := by
  induction entries using List.reverseRecOn with
  | nil => rfl
  | append_singleton rest e ih =>
    have hsort : sort (rest ++ [e]) = insert e.1 e.2 (sort rest) := by
      simp only [sort, List.foldl_append, List.foldl_cons, List.foldl_nil]
    rw [hsort, find_insert, List.reverse_concat, find_cons, ih]
    simp only [eq_comm]

/-- Entries with different keys are the same after sorting, but for their order. -/
theorem sort_perm (h : (entries.map Prod.fst).Nodup) : (sort entries).Perm entries := by
  induction entries using List.reverseRecOn with
  | nil => exact .refl _
  | append_singleton rest e ih =>
    have hsort : sort (rest ++ [e]) = insert e.1 e.2 (sort rest) := by
      simp only [sort, List.foldl_append, List.foldl_cons, List.foldl_nil]
    rw [List.map_append, List.map_singleton] at h
    obtain ⟨hrest, -, hapart⟩ := List.nodup_append.mp h
    have hnew : find e.1 (sort rest) = none := by
      rw [find_sort, find_eq_none_iff]
      intro other hother
      exact hapart other.1 (List.mem_map_of_mem (List.mem_reverse.mp hother)) e.1
        (List.mem_singleton.mpr rfl)
    rw [hsort]
    refine (insert_perm e.2 hnew).trans (((ih hrest).cons e).trans ?_)
    exact (List.perm_append_singleton e rest).symm

/-- Dropping a key from sorted entries drops its entries before they are sorted. -/
theorem erase_sort_cons (h : find key entries.reverse = none) (value : α) :
    erase key (sort ((key, value) :: entries)) = sort entries := by
  refine (sorted_sort _).erase.ext (sorted_sort _) fun other => ?_
  rw [find_erase, find_sort, find_sort, List.reverse_cons, find_append, find_cons, find_nil]
  by_cases hother : other = key
  · rw [if_pos hother, hother, h]
  · rw [if_neg hother, if_neg (Ne.symm hother), Option.or_none]

/-- What is found when all values are changed. -/
theorem find_map {β : Type} (f : α → β) (key : String) (entries : List (String × α)) :
    find key (entries.map fun e => (e.1, f e.2)) = (find key entries).map f := by
  induction entries with
  | nil => rfl
  | cons e rest ih =>
    rw [List.map_cons, find_cons, find_cons, ih]
    by_cases hkey : e.1 = key
    · rw [if_pos hkey, if_pos hkey, Option.map_some]
    · rw [if_neg hkey, if_neg hkey]

/-- After its first entry a key does not occur again in sorted entries. -/
theorem Sorted.find_rest {e : String × α} (h : Sorted (e :: entries)) : find e.1 entries = none :=
  find_eq_none_of_below (List.pairwise_cons.mp h).1

end Entries

namespace KeyMap

variable {α : Type} {m : KeyMap α} {key : String} {value : α}

/-- What is listed among the values is what a key looks up. -/
theorem exists_get?_of_mem_values (h : value ∈ m.values) : ∃ key, m.get? key = some value := by
  obtain ⟨⟨key, found⟩, hmem, rfl⟩ := List.mem_map.mp h
  exact ⟨key, m.sorted.find_of_mem hmem⟩

/-- A new key is one more key. -/
theorem size_insert (value : α) (h : m.contains key = false) :
    (m.insert key value).size = m.size + 1 := by
  have hnone : m.get? key = none := Option.not_isSome_iff_eq_none.mp (Bool.eq_false_iff.mp h)
  exact (Entries.insert_perm value hnone).length_eq

/-- Dropping a key that is not there changes nothing. -/
theorem erase_of_get?_eq_none (h : m.get? key = none) : m.erase key = m := by
  refine ext_get? fun other => ?_
  rw [get?_erase]
  by_cases hother : other = key
  · rw [if_pos hother, hother, h]
  · rw [if_neg hother]

/-- Dropping a key that was added restores the map. -/
theorem erase_insert (h : m.get? key = none) : (m.insert key value).erase key = m := by
  refine ext_get? fun other => ?_
  rw [get?_erase, get?_insert]
  by_cases hother : other = key
  · rw [if_pos hother, hother, h]
  · rw [if_neg hother, if_neg hother]

/-- What passes a test is looked up among the entries that do. -/
theorem get?_filter (m : KeyMap α) (keep : String → α → Bool) (key : String) :
    (m.filter keep).get? key = (m.get? key).filter (keep key) := by
  -- Keys are distinct, so nothing else passes the test under the key than what is found there.
  cases hfound : m.get? key with
  | none =>
    cases hfiltered : (m.filter keep).get? key with
    | none => rfl
    | some value =>
      have hmem := (List.mem_filter.mp (Entries.mem_of_find hfiltered)).1
      have hvalue : m.get? key = some value := m.sorted.find_of_mem hmem
      rw [hfound] at hvalue
      cases hvalue
  | some value =>
    have hmem : (key, value) ∈ m.entries := Entries.mem_of_find hfound
    by_cases hkeep : keep key value = true
    · have hfiltered : (m.filter keep).get? key = some value :=
        (m.filter keep).sorted.find_of_mem (List.mem_filter.mpr ⟨hmem, hkeep⟩)
      rw [hfiltered, Option.filter_some, if_pos hkeep]
    · rw [Option.filter_some, if_neg hkeep]
      cases hfiltered : (m.filter keep).get? key with
      | none => rfl
      | some other =>
        obtain ⟨hmem', hkeep'⟩ := List.mem_filter.mp (Entries.mem_of_find hfiltered)
        have hother : m.get? key = some other := m.sorted.find_of_mem hmem'
        rw [hfound] at hother
        cases hother
        exact absurd hkeep' hkeep

/-- What is found where maps are added: the added entries win. -/
theorem get?_union (m new : KeyMap α) (key : String) :
    (m.union new).get? key = (new.get? key).or (m.get? key) := by
  obtain ⟨entries, hsorted⟩ := new
  unfold union get?
  induction entries generalizing m with
  | nil => rfl
  | cons e rest ih =>
    have hrest := ih (m.insert e.1 e.2) (List.pairwise_cons.mp hsorted).2
    rw [List.foldl_cons, hrest, Entries.find_cons]
    show (Entries.find key rest).or ((m.insert e.1 e.2).get? key) = _
    rw [get?_insert]
    by_cases hkey : e.1 = key
    · -- The key is not among the later entries, so this one counts.
      rw [if_pos hkey, if_pos hkey.symm, ← hkey, hsorted.find_rest]
      rfl
    · rw [if_neg hkey, if_neg (Ne.symm hkey)]
      rfl

/-- The entries of a map to which another one is added. -/
theorem entries_union (m new : KeyMap α) :
    (m.union new).entries =
      new.entries.foldl (fun merged e => Entries.insert e.1 e.2 merged) m.entries :=
  (List.foldl_hom KeyMap.entries fun _ _ => rfl).symm

end KeyMap

end RunParams
