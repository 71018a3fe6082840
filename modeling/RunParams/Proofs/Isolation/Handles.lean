import Mathlib.Data.List.Basic
import RunParams.Vault

/-!
# Handles of different ids

The text of an id has 36 characters, whatever the id (`Uuid.length_render`), and different ids have
different texts (`Uuid.render_injective`). Every handle consists of a lead, the text of an id and
something after that: nothing, the name of a field, or the name of a field and the ending for the
seed of a one-time password. So all that matters is that the lead is the same: then handles that are
made from different ids are different, whatever comes after the id (`Vault.MadeFrom.unique`).

A vault is minted from some ids when each of its handles is made from one of them
(`Vault.Minted`). It reveals nothing under a handle that is made from another id
(`Vault.Minted.reveal_eq_none`).
-/

namespace RunParams

namespace Uuid

/-- Different digits have different characters. -/
theorem digit_injective {n m : Nat} (hn : n < 16) (hm : m < 16) (h : digit n = digit m) :
    n = m := by
  have hall : ∀ i j : Fin 16, digit i = digit j → i = j := by decide
  exact congrArg Fin.val (hall ⟨n, hn⟩ ⟨m, hm⟩ h)

/-- There are as many digits as asked for. -/
theorem length_digits (count n : Nat) : (digits count n).length = count := by
  induction count generalizing n with
  | zero => rfl
  | succ count ih =>
    unfold digits
    rw [List.length_append, ih, List.length_singleton]

/-- A number that is not too great is determined by its digits. -/
theorem digits_injective {count n m : Nat} (hn : n < Nat.pow 16 count) (hm : m < Nat.pow 16 count)
    (h : digits count n = digits count m) : n = m := by
  -- By induction on the number of digits, from the last digit on.
  induction count generalizing n m with
  | zero => exact (Nat.lt_one_iff.mp hn).trans (Nat.lt_one_iff.mp hm).symm
  | succ count ih =>
    have hpower : Nat.pow 16 (count + 1) = Nat.pow 16 count * 16 := rfl
    rw [hpower] at hn hm
    unfold digits at h
    -- The last digit tells the remainder, the others the quotient.
    obtain ⟨hinit, hlast⟩ := List.append_inj h (by rw [length_digits, length_digits])
    have hdiv : n / 16 = m / 16 :=
      ih (Nat.div_lt_of_lt_mul (by omega)) (Nat.div_lt_of_lt_mul (by omega)) hinit
    have hmod : n % 16 = m % 16 :=
      digit_injective (Nat.mod_lt n (by decide)) (Nat.mod_lt m (by decide))
        (List.singleton_inj.mp hlast)
    omega

/-- Some of the digits of an id, as they stand in a group of its text. -/
def group (u : Uuid) (start length : Nat) : List Char :=
  ((digits 32 u.value.val).drop start).take length

/-- The text of an id consists of five groups of digits. -/
theorem toList_render (u : Uuid) :
    u.render.toList = u.group 0 8 ++ ('-' :: u.group 8 4 ++ ('-' :: u.group 12 4 ++
      ('-' :: u.group 16 4 ++ '-' :: u.group 20 12))) := by
  unfold render group
  simp only [String.toList_ofList, List.append_assoc]

/-- A group within the digits has its length. -/
theorem length_group (u : Uuid) {start length : Nat} (h : start + length ≤ 32) :
    (u.group start length).length = length := by
  unfold group
  rw [List.length_take, List.length_drop, length_digits]
  omega

/-- The text of an id has 36 characters. -/
theorem length_render (u : Uuid) : u.render.toList.length = 36 := by
  simp [toList_render, length_group]

/-- From a place on, the digits are a group and what comes after it. -/
theorem drop_digits (u : Uuid) (start length : Nat) :
    (digits 32 u.value.val).drop start =
      u.group start length ++ (digits 32 u.value.val).drop (start + length) := by
  unfold group
  rw [← List.drop_drop, List.take_append_drop]

/-- The groups are all the digits. -/
theorem digits_eq_groups (u : Uuid) :
    digits 32 u.value.val =
      u.group 0 8 ++ (u.group 8 4 ++ (u.group 12 4 ++ (u.group 16 4 ++ u.group 20 12))) := by
  have hend : (digits 32 u.value.val).drop 32 = [] :=
    List.drop_of_length_le (Nat.le_of_eq (length_digits 32 u.value.val))
  calc digits 32 u.value.val = u.group 0 8 ++ (digits 32 u.value.val).drop 8 :=
        drop_digits u 0 8
    _ = _ := by
      rw [drop_digits u 8 4, drop_digits u 12 4, drop_digits u 16 4, drop_digits u 20 12, hend,
        List.append_nil]

/-- Different ids have different texts. -/
theorem render_injective {u v : Uuid} (h : u.render = v.render) : u = v := by
  have hgroups := congrArg String.toList h
  rw [toList_render, toList_render] at hgroups
  have hlength : ∀ {start length : Nat}, start + length ≤ 32 →
      (u.group start length).length = (v.group start length).length := by
    intro start length hle
    rw [length_group u hle, length_group v hle]
  -- The dashes stand at the same places, so the texts agree group by group.
  obtain ⟨h₀, hgroups⟩ := List.append_inj hgroups (hlength (by decide))
  obtain ⟨h₁, hgroups⟩ := List.append_inj (List.tail_eq_of_cons_eq hgroups) (hlength (by decide))
  obtain ⟨h₂, hgroups⟩ := List.append_inj (List.tail_eq_of_cons_eq hgroups) (hlength (by decide))
  obtain ⟨h₃, hgroups⟩ := List.append_inj (List.tail_eq_of_cons_eq hgroups) (hlength (by decide))
  have h₄ := List.tail_eq_of_cons_eq hgroups
  -- What is between the dashes are all the digits, so the values agree.
  have hdigits : digits 32 u.value.val = digits 32 v.value.val := by
    rw [digits_eq_groups u, digits_eq_groups v, h₀, h₁, h₂, h₃, h₄]
  have hbound : ∀ w : Uuid, w.value.val < Nat.pow 16 32 := fun w => w.value.isLt
  have hvalue := digits_injective (hbound u) (hbound v) hdigits
  obtain ⟨uvalue⟩ := u
  obtain ⟨vvalue⟩ := v
  exact congrArg Uuid.mk (Fin.ext hvalue)

end Uuid

namespace Vault

/-- A handle consists of a lead, the text of an id and something after that. -/
def MadeFrom (lead : String) (id : Uuid) (handle : String) : Prop :=
  ∃ rest, handle = lead ++ id.render ++ rest

/-- With one lead, a handle is made from one id only. -/
theorem MadeFrom.unique {lead handle : String} {id id' : Uuid} (h : MadeFrom lead id handle)
    (h' : MadeFrom lead id' handle) : id = id' := by
  obtain ⟨rest, rfl⟩ := h
  obtain ⟨rest', hsame⟩ := h'
  have hlists := congrArg String.toList hsame
  simp only [String.toList_append, List.append_assoc] at hlists
  -- After the lead come the ids, which are of the same length.
  have hids := List.append_cancel_left hlists
  have hrender := (List.append_inj hids (by rw [Uuid.length_render, Uuid.length_render])).1
  exact Uuid.render_injective (String.toList_inj.mp hrender)

/-- Whatever is added to a handle, it is made from the same id. -/
theorem MadeFrom.append {lead handle : String} {id : Uuid} (h : MadeFrom lead id handle)
    (more : String) : MadeFrom lead id (handle ++ more) := by
  obtain ⟨rest, rfl⟩ := h
  exact ⟨rest ++ more, String.append_assoc⟩

/-- The handle with an id, for a field or for a whole secret, is made from the id. -/
theorem madeFrom_handle (lead : String) (id : Uuid) (field : Option String) :
    MadeFrom lead id (handle lead id field) := by
  cases field with
  | none => exact ⟨"", String.append_empty.symm⟩
  | some field => exact ⟨"_" ++ field, String.append_assoc⟩

/-- Every handle of a vault is made from one of some ids. -/
def Minted (ids : List Uuid) (v : Vault) : Prop :=
  ∀ handle, v.contains handle = true → ∃ id ∈ ids, MadeFrom v.lead id handle

variable {v : Vault} {ids ids' : List Uuid} {handle : String}

/-- A vault without handles is minted from no ids. -/
theorem minted_ofLead (lead : String) : (ofLead lead).Minted [] := fun _ h => nomatch h

/-- What is minted from some ids is minted from more ids. -/
theorem Minted.mono (h : v.Minted ids) (hids : ids ⊆ ids') : v.Minted ids' := by
  intro handle hcontains
  obtain ⟨id, hid, hmade⟩ := h handle hcontains
  exact ⟨id, hids hid, hmade⟩

/-- A vault has a handle under which a secret is kept. -/
theorem contains_keep (v : Vault) (handle : String) (secret : Secret) :
    (v.keep handle secret).contains handle = true := by
  show ((v.secrets.insert handle secret).get? handle).isSome = true
  rw [KeyMap.get?_insert, if_pos rfl]
  rfl

/-- Which other handles a vault has does not depend on a secret that is kept. -/
theorem contains_keep_of_ne {other : String} {secret : Secret} (h : other ≠ handle) :
    (v.keep handle secret).contains other = v.contains other := by
  show ((v.secrets.insert handle secret).get? other).isSome = _
  rw [KeyMap.get?_insert, if_neg h]
  rfl

/-- A vault stays minted from some ids when a secret is kept under a handle made from one of them.
-/
theorem Minted.keep (h : v.Minted ids) {id : Uuid} (hid : id ∈ ids)
    (hmade : MadeFrom v.lead id handle) (secret : Secret) : (v.keep handle secret).Minted ids := by
  intro other hcontains
  by_cases hother : other = handle
  · exact ⟨id, hid, hother ▸ hmade⟩
  · rw [contains_keep_of_ne hother] at hcontains
    exact h other hcontains

/-- A handle that is made from an id from which a vault is not minted is free. -/
theorem Minted.contains_eq_false (h : v.Minted ids) {id : Uuid}
    (hmade : MadeFrom v.lead id handle) (hid : id ∉ ids) : v.contains handle = false := by
  refine Bool.eq_false_iff.mpr fun hcontains => ?_
  -- The handle would be made from two ids.
  obtain ⟨id', hid', hmade'⟩ := h handle hcontains
  have hsame : id' = id := hmade'.unique hmade
  exact hid (hsame ▸ hid')

/-- A text that is no handle of a vault reveals nothing. -/
theorem reveal_of_contains_eq_false (h : v.contains handle = false) :
    v.reveal (.text handle) = none := by
  have hnone : v.secrets.get? handle = none :=
    Option.not_isSome_iff_eq_none.mp (Bool.eq_false_iff.mp h)
  show (v.secrets.get? handle).map Secret.text = none
  rw [hnone]
  rfl

/-- A vault reveals nothing under a handle that is made from an id from which it is not minted. -/
theorem Minted.reveal_eq_none (h : v.Minted ids) {id : Uuid} (hmade : MadeFrom v.lead id handle)
    (hid : id ∉ ids) : v.reveal (.text handle) = none :=
  reveal_of_contains_eq_false (h.contains_eq_false hmade hid)

end Vault

end RunParams
