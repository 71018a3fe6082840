/-!
# Finite maps from texts

A run keeps everything under text keys: definitions, values, secrets, contexts, outcomes. `KeyMap`
holds such entries sorted by key, each key once, so two maps that answer alike are equal
(`KeyMap.ext_get?`) and no order of insertion ever shows.

The operations on plain entry lists come first, because the members of a JSON object are such a
list too. `Entries.find_insert` and `Entries.find_erase` hold of every list, sorted or not.
-/

namespace RunParams

namespace Entries

variable {α : Type}

/-- The value of the first entry for a key. -/
def find (key : String) : List (String × α) → Option α
  | [] => none
  | (k, v) :: rest => if k = key then some v else find key rest

/-- Puts an entry at its place among sorted entries, in place of the one that has its key. -/
def insert (key : String) (value : α) : List (String × α) → List (String × α)
  | [] => [(key, value)]
  | (k, v) :: rest =>
    if k < key then (k, v) :: insert key value rest
    else if k = key then (key, value) :: rest
    else (key, value) :: (k, v) :: rest

/-- Drops the entries of a key. -/
def erase (key : String) (entries : List (String × α)) : List (String × α) :=
  entries.filter fun e => decide (e.1 ≠ key)

/-- The entries sorted by key; of several with one key the last counts. -/
def sort (entries : List (String × α)) : List (String × α) :=
  entries.foldl (fun sorted e => insert e.1 e.2 sorted) []

/-- Each key is smaller than the keys after it. -/
def Sorted (entries : List (String × α)) : Prop :=
  entries.Pairwise fun a b => a.1 < b.1

@[simp] theorem find_nil (key : String) : find key ([] : List (String × α)) = none := rfl

theorem find_cons (key : String) (e : String × α) (rest : List (String × α)) :
    find key (e :: rest) = if e.1 = key then some e.2 else find key rest := rfl

theorem find_insert (key other : String) (value : α) (entries : List (String × α)) :
    find other (insert key value entries) =
      if other = key then some value else find other entries := by
  induction entries with
  | nil => simp [insert, find, eq_comm]
  | cons e rest ih =>
    simp only [insert]
    split
    next less =>
      have apart : e.1 ≠ key := fun same => String.lt_irrefl key (same ▸ less)
      by_cases h : other = key
      · subst h; simp [find, apart, ih]
      · simp [find, ih, h]
    next =>
      split
      next same =>
        by_cases h : other = key
        · subst h; simp [find]
        · simp [find, h, Ne.symm h, same]
      next =>
        by_cases h : other = key
        · subst h; simp [find]
        · simp [find, h, Ne.symm h]

theorem find_erase (key other : String) (entries : List (String × α)) :
    find other (erase key entries) = if other = key then none else find other entries := by
  induction entries with
  | nil => simp [erase, find]
  | cons e rest ih =>
    unfold erase at ih ⊢
    by_cases same : e.1 = key
    · by_cases h : other = key
      · simp_all
      · rw [List.filter_cons_of_neg (by simp [same]), ih]
        simp [find, h, same, Ne.symm h]
    · rw [List.filter_cons_of_pos (by simp [same])]
      by_cases h : other = key
      · subst h; simp_all [find]
      · simp_all [find]

theorem mem_insert {key : String} {value : α} {entries : List (String × α)} {e : String × α}
    (h : e ∈ insert key value entries) : e = (key, value) ∨ e ∈ entries := by
  induction entries with
  | nil => simpa [insert] using h
  | cons first rest ih =>
    simp only [insert] at h
    split at h
    · rcases List.mem_cons.mp h with rfl | h
      · simp
      · rcases ih h with h | h <;> simp [h]
    · split at h
      · rcases List.mem_cons.mp h with rfl | h <;> simp_all
      · rcases List.mem_cons.mp h with rfl | h <;> simp_all

theorem Sorted.insert {key : String} {value : α} {entries : List (String × α)}
    (h : Sorted entries) : Sorted (insert key value entries) := by
  induction entries with
  | nil => simp [Sorted, Entries.insert]
  | cons first rest ih =>
    obtain ⟨below, restSorted⟩ := List.pairwise_cons.mp h
    simp only [Entries.insert]
    split
    next less =>
      refine List.pairwise_cons.mpr ⟨fun e he => ?_, ih restSorted⟩
      rcases mem_insert he with rfl | he
      · exact less
      · exact below e he
    next notLess =>
      split
      next same => exact List.pairwise_cons.mpr ⟨fun e he => same ▸ below e he, restSorted⟩
      next apart =>
        have greater : key < first.1 :=
          Std.lt_of_le_of_ne (String.not_lt.mp notLess) (Ne.symm apart)
        refine List.pairwise_cons.mpr ⟨fun e he => ?_, h⟩
        rcases List.mem_cons.mp he with rfl | he
        · exact greater
        · exact String.lt_trans greater (below e he)

theorem Sorted.erase {key : String} {entries : List (String × α)} (h : Sorted entries) :
    Sorted (erase key entries) :=
  List.Pairwise.filter _ h

theorem sorted_sort (entries : List (String × α)) : Sorted (sort entries) := by
  suffices h : ∀ start : List (String × α), Sorted start →
      Sorted (entries.foldl (fun sorted e => Entries.insert e.1 e.2 sorted) start) from
    h [] List.Pairwise.nil
  induction entries with
  | nil => exact fun _ h => h
  | cons e rest ih => exact fun _ h => ih _ h.insert

theorem find_eq_none_of_below {key : String} {entries : List (String × α)}
    (h : ∀ e ∈ entries, key < e.1) : find key entries = none := by
  induction entries with
  | nil => rfl
  | cons e rest ih =>
    have apart : e.1 ≠ key := fun same => String.lt_irrefl key (same ▸ h e List.mem_cons_self)
    simp [find, apart, ih fun x hx => h x (List.mem_cons_of_mem _ hx)]

/-- Sorted entries are determined by what is found in them. -/
theorem Sorted.ext {xs ys : List (String × α)} (hx : Sorted xs) (hy : Sorted ys)
    (h : ∀ key, find key xs = find key ys) : xs = ys := by
  induction xs generalizing ys with
  | nil =>
    cases ys with
    | nil => rfl
    | cons y ys => simpa [find] using h y.1
  | cons x xs ih =>
    obtain ⟨xBelow, xsSorted⟩ := List.pairwise_cons.mp hx
    cases ys with
    | nil => simpa [find] using h x.1
    | cons y ys =>
      obtain ⟨yBelow, ysSorted⟩ := List.pairwise_cons.mp hy
      have sameKey : x.1 = y.1 := by
        rcases Classical.em (x.1 = y.1) with same | apart
        · exact same
        · exfalso
          by_cases less : x.1 < y.1
          · have := h x.1
            rw [find_cons, if_pos rfl, find_cons, if_neg (Ne.symm apart),
              find_eq_none_of_below fun e he => String.lt_trans less (yBelow e he)] at this
            exact nomatch this
          · have greater : y.1 < x.1 :=
              Std.lt_of_le_of_ne (String.not_lt.mp less) (Ne.symm apart)
            have := h y.1
            rw [find_cons, if_neg apart, find_cons, if_pos rfl,
              find_eq_none_of_below fun e he => String.lt_trans greater (xBelow e he)] at this
            exact nomatch this
      have sameValue : x.2 = y.2 := by simpa [find_cons, sameKey] using h x.1
      have sameRest : xs = ys := by
        refine ih xsSorted ysSorted fun key => ?_
        by_cases hk : x.1 = key
        · subst hk
          rw [find_eq_none_of_below xBelow, find_eq_none_of_below (sameKey ▸ yBelow)]
        · simpa [find_cons, hk, ← sameKey] using h key
      rw [sameRest, Prod.ext sameKey sameValue]

end Entries

/-- Entries sorted by key, each key once. -/
structure KeyMap (α : Type) where
  /-- The entries in the order of their keys. -/
  entries : List (String × α)
  /-- Each key stands before the greater ones. -/
  sorted : Entries.Sorted entries

namespace KeyMap

variable {α β : Type}

/-- The map without entries. -/
def empty : KeyMap α := ⟨[], List.Pairwise.nil⟩

instance : EmptyCollection (KeyMap α) := ⟨empty⟩

instance : Inhabited (KeyMap α) := ⟨empty⟩

/-- The value under a key. -/
def get? (m : KeyMap α) (key : String) : Option α :=
  Entries.find key m.entries

/-- Whether a key has a value. -/
def contains (m : KeyMap α) (key : String) : Bool :=
  (m.get? key).isSome

/-- Puts a value under a key, in place of the one that is there. -/
def insert (m : KeyMap α) (key : String) (value : α) : KeyMap α :=
  ⟨Entries.insert key value m.entries, m.sorted.insert⟩

/-- Drops a key. -/
def erase (m : KeyMap α) (key : String) : KeyMap α :=
  ⟨Entries.erase key m.entries, m.sorted.erase⟩

/-- Keeps the entries that pass a test. -/
def filter (m : KeyMap α) (keep : String → α → Bool) : KeyMap α :=
  ⟨m.entries.filter fun e => keep e.1 e.2, List.Pairwise.filter _ m.sorted⟩

/-- The number of keys. -/
def size (m : KeyMap α) : Nat := m.entries.length

/-- Whether there is no key. -/
def isEmpty (m : KeyMap α) : Bool := m.entries.isEmpty

/-- The keys in their order. -/
def keys (m : KeyMap α) : List String := m.entries.map (·.1)

/-- The values in the order of their keys. -/
def values (m : KeyMap α) : List α := m.entries.map (·.2)

/-- The map of some entries; of several with one key the last counts. -/
def ofList (entries : List (String × α)) : KeyMap α :=
  ⟨Entries.sort entries, Entries.sorted_sort entries⟩

/-- Adds the entries of `new`, which win over those of `m`. -/
def union (m new : KeyMap α) : KeyMap α :=
  new.entries.foldl (fun merged e => merged.insert e.1 e.2) m

@[simp] theorem get?_empty (key : String) : (∅ : KeyMap α).get? key = none := rfl

@[simp] theorem get?_insert (m : KeyMap α) (key other : String) (value : α) :
    (m.insert key value).get? other = if other = key then some value else m.get? other :=
  Entries.find_insert key other value m.entries

@[simp] theorem get?_erase (m : KeyMap α) (key other : String) :
    (m.erase key).get? other = if other = key then none else m.get? other :=
  Entries.find_erase key other m.entries

/-- Maps that answer alike are equal. -/
theorem ext_get? {m n : KeyMap α} (h : ∀ key, m.get? key = n.get? key) : m = n := by
  obtain ⟨xs, hx⟩ := m
  obtain ⟨ys, hy⟩ := n
  cases Entries.Sorted.ext hx hy h
  rfl

end KeyMap

end RunParams
