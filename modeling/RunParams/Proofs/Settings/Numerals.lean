import Mathlib.Data.List.TakeWhile
import Mathlib.Data.Nat.Digits.Defs
import Mathlib.Tactic.Ring
import RunParams.Text.Numeral

/-!
# The grammar of numerals

A numeral is white space, perhaps a plus sign, one or more decimal digits and white space again, and
it denotes what its digits denote in the decimal system, leading zeros or not. Reading accepts just
the numerals of numbers below `2 ^ 64` (`Numeral.read_eq_ok_iff`).

For one direction a numeral is read: trimming leaves its sign and its digits (`trim_append`), and as
later digits never make the number smaller, the limit is passed on the way just if it is passed in
the end (`Numeral.readDigits_digits`). For the other, a numeral is made of what trimming has removed
and of what was read as digits. The texts without digits, that of a sign alone among them, are told
apart by whether they are blank (`Numeral.read_blank`, `Numeral.read_digitless`).
-/

namespace RunParams.Text

/-! ## White space -/

/-- The code points with the Unicode property of white space. -/
def whiteSpace : List Nat :=
  [0x9, 0xA, 0xB, 0xC, 0xD, 0x20, 0x85, 0xA0, 0x1680, 0x2000, 0x2001, 0x2002, 0x2003, 0x2004,
    0x2005, 0x2006, 0x2007, 0x2008, 0x2009, 0x200A, 0x2028, 0x2029, 0x202F, 0x205F, 0x3000]

/-- The characters that are trimmed are those with the property. -/
theorem isWhite_iff {c : Char} : isWhite c = true ↔ c.toNat ∈ whiteSpace := by
  simp only [isWhite, whiteSpace, Bool.or_eq_true, Bool.and_eq_true, decide_eq_true_eq, beq_iff_eq,
    List.mem_cons, List.not_mem_nil, or_false]
  omega

section Trimming

variable {before core after text white rest : List Char}

/-- White space is dropped up to the first other character. -/
theorem dropWhile_isWhite (hwhite : ∀ c ∈ white, isWhite c = true)
    (hrest : ∀ c ∈ rest.head?, isWhite c = false) :
    (white ++ rest).dropWhile isWhite = rest := by
  rw [List.dropWhile_append_of_pos hwhite]
  cases rest with
  | nil => rfl
  | cons c rest => exact List.dropWhile_cons_of_neg (by simp [hrest c rfl])

/-- Trimming removes the white space around a text in which there is none. -/
theorem trim_append (hbefore : ∀ c ∈ before, isWhite c = true)
    (hcore : ∀ c ∈ core, isWhite c = false) (hne : core ≠ [])
    (hafter : ∀ c ∈ after, isWhite c = true) : trim (before ++ core ++ after) = core := by
  have hleft : (before ++ (core ++ after)).dropWhile isWhite = core ++ after := by
    obtain ⟨first, rest, rfl⟩ := List.exists_cons_of_ne_nil hne
    refine dropWhile_isWhite hbefore fun c hc => ?_
    cases hc
    exact hcore first List.mem_cons_self
  have hright : (after.reverse ++ core.reverse).dropWhile isWhite = core.reverse := by
    refine dropWhile_isWhite (fun c hc => hafter c (List.mem_reverse.mp hc))
      fun c hc => hcore c ?_
    exact List.mem_reverse.mp (List.mem_of_head? hc)
  unfold trim trimRight
  rw [List.append_assoc, hleft, List.reverse_append, hright, List.reverse_reverse]

/-- What trimming removes is white space. -/
theorem exists_trim (text : List Char) :
    ∃ before after, text = before ++ trim text ++ after ∧ (∀ c ∈ before, isWhite c = true) ∧
      ∀ c ∈ after, isWhite c = true := by
  -- The white space at the end is taken from what is left when that at the beginning is gone.
  let left := text.dropWhile isWhite
  refine ⟨text.takeWhile isWhite, (left.reverse.takeWhile isWhite).reverse, ?_,
    fun c hc => List.mem_takeWhile_imp hc, fun c hc => ?_⟩
  · have hleft : left = trim text ++ (left.reverse.takeWhile isWhite).reverse := by
      unfold trim trimRight
      rw [← List.reverse_append, List.takeWhile_append_dropWhile, List.reverse_reverse]
    rw [List.append_assoc, ← hleft, List.takeWhile_append_dropWhile]
  · exact List.mem_takeWhile_imp (List.mem_reverse.mp hc)

/-- Nothing is left of a blank text, and only of a blank one. -/
theorem trim_eq_nil_iff : trim text = [] ↔ ∀ c ∈ text, isWhite c = true := by
  constructor
  · intro h
    obtain ⟨before, after, htext, hbefore, hafter⟩ := exists_trim text
    rw [htext, h, List.append_nil]
    exact List.forall_mem_append.mpr ⟨hbefore, hafter⟩
  · intro h
    unfold trim
    rw [List.dropWhile_eq_nil_iff.mpr h]
    rfl

end Trimming

/-! ## Digits -/

/-- The character of a decimal digit. -/
def digitChar (d : Fin 10) : Char := Nat.digitChar d

/-- The number that digits denote, the last one being that of the units. -/
def denoted (digits : List (Fin 10)) : Nat := Nat.ofDigits 10 (digits.reverse.map (·.val))

/-- The first digit counts for a power of ten. -/
theorem denoted_cons (d : Fin 10) (digits : List (Fin 10)) :
    denoted (d :: digits) = d * 10 ^ digits.length + denoted digits := by
  unfold denoted
  rw [List.reverse_cons, List.map_append, Nat.ofDigits_append, List.length_map, List.length_reverse,
    List.map_singleton, Nat.ofDigits_singleton]
  ring

namespace Numeral

variable {c : Char} {limit value n : Nat} {cs : List Char} {digits : List (Fin 10)} {raw : String}

/-- A digit is read as such. -/
theorem digit?_digitChar (d : Fin 10) : digit? (digitChar d) = some d.val := by
  revert d
  decide

/-- Only digits are read as such. -/
theorem exists_of_digit? (h : digit? c = some n) : ∃ d : Fin 10, digitChar d = c := by
  unfold digit? at h
  split at h
  next hdigit =>
    have hrange : 48 ≤ c.toNat ∧ c.toNat ≤ 57 := by
      simpa [Char.isDigit, UInt32.le_iff_toNat_le] using hdigit
    have hsmall : c.toNat - 48 < 10 := by omega
    refine ⟨⟨c.toNat - 48, hsmall⟩, Char.toNat_inj.mp ?_⟩
    calc (Nat.digitChar (c.toNat - 48)).toNat = 48 + (c.toNat - 48) :=
        Nat.toNat_digitChar_of_lt_ten hsmall
      _ = c.toNat := by omega
  next => cases h

/-- No digit is white space. -/
theorem isWhite_digitChar (d : Fin 10) : isWhite (digitChar d) = false := by
  revert d
  decide

/-- No digit is a plus sign. -/
theorem digitChar_ne_plus (d : Fin 10) : digitChar d ≠ '+' := by
  revert d
  decide

/-- Digits are read as the number that they denote together with those before them, unless it is too
large. -/
theorem readDigits_digits (h : value < limit) (digits : List (Fin 10)) :
    readDigits limit value (digits.map digitChar) =
      if value * 10 ^ digits.length + denoted digits < limit then
        .ok (value * 10 ^ digits.length + denoted digits)
      else .error .tooLarge := by
  induction digits generalizing value with
  | nil =>
    have hnil : value * 10 ^ ([] : List (Fin 10)).length + denoted [] = value := by
      simp [denoted]
    rw [hnil, if_pos h]
    rfl
  | cons d digits ih =>
    have hcons : value * 10 ^ (d :: digits).length + denoted (d :: digits) =
        (10 * value + d) * 10 ^ digits.length + denoted digits := by
      rw [denoted_cons, List.length_cons]
      ring
    rw [hcons, List.map_cons, readDigits, digit?_digitChar]
    dsimp only
    by_cases hnext : 10 * value + d < limit
    · rw [if_pos hnext, ih hnext]
    · -- The digits that follow do not bring the number below the limit again.
      have hgrows : 10 * value + d ≤ (10 * value + d) * 10 ^ digits.length :=
        Nat.le_mul_of_pos_right _ (by positivity)
      rw [if_neg hnext, if_neg (by omega)]

/-- Only digits are read as a number. -/
theorem exists_of_readDigits (h : readDigits limit value cs = .ok n) :
    ∃ digits : List (Fin 10), digits.map digitChar = cs := by
  induction cs generalizing value with
  | nil => exact ⟨[], rfl⟩
  | cons c cs ih =>
    rw [readDigits] at h
    cases hdigit : digit? c with
    | none =>
      rw [hdigit] at h
      cases h
    | some d =>
      rw [hdigit] at h
      dsimp only at h
      split at h
      next =>
        obtain ⟨first, rfl⟩ := exists_of_digit? hdigit
        obtain ⟨digits, rfl⟩ := ih h
        exact ⟨first :: digits, rfl⟩
      next => cases h

/-- A character that is no digit goes wrong at once. -/
theorem readDigits_digitless (h : ∀ d : Fin 10, digitChar d ≠ c) (cs : List Char) :
    readDigits limit value (c :: cs) = .error .invalidDigit := by
  rw [readDigits]
  cases hdigit : digit? c with
  | none => rfl
  | some n =>
    obtain ⟨d, hd⟩ := exists_of_digit? hdigit
    exact absurd hd (h d)

/-! ## Signs -/

/-- The plus sign, or nothing. -/
def sign (hasPlus : Bool) : List Char := if hasPlus then ['+'] else []

/-- Without a plus sign at the beginning the digits are all of it. -/
theorem readUnsigned_of_ne_plus (h : c ≠ '+') (cs : List Char) :
    readUnsigned limit (c :: cs) = readDigits limit 0 (c :: cs) := by
  unfold readUnsigned
  split
  next heq => cases heq
  next heq => exact absurd (List.cons.inj heq).1 h
  next heq => exact absurd (List.cons.inj heq).1 h
  next => rfl

/-- A plus sign before digits makes no difference. -/
theorem readUnsigned_sign (hasPlus : Bool) (hne : digits ≠ []) :
    readUnsigned limit (sign hasPlus ++ digits.map digitChar) =
      readDigits limit 0 (digits.map digitChar) := by
  obtain ⟨d, rest, rfl⟩ := List.exists_cons_of_ne_nil hne
  cases hasPlus with
  | true => rfl
  | false => exact readUnsigned_of_ne_plus (digitChar_ne_plus d) _

/-- Only digits, with or without a plus sign, are read as a number. -/
theorem exists_of_readUnsigned (h : readUnsigned limit cs = .ok n) :
    ∃ (hasPlus : Bool) (digits : List (Fin 10)), digits ≠ [] ∧
      sign hasPlus ++ digits.map digitChar = cs := by
  unfold readUnsigned at h
  split at h
  next => cases h
  next => cases h
  -- After a plus sign there is a digit, as a plus sign alone has been refused.
  next rest hnotAlone =>
    obtain ⟨digits, rfl⟩ := exists_of_readDigits h
    refine ⟨true, digits, ?_, rfl⟩
    rintro rfl
    exact hnotAlone rfl
  -- Without one there is a digit, as the empty text has been refused.
  next hsome _ _ =>
    obtain ⟨digits, rfl⟩ := exists_of_readDigits h
    refine ⟨false, digits, ?_, rfl⟩
    rintro rfl
    exact hsome rfl

/-- Where there is something but no digit, a digit is missed. -/
theorem readUnsigned_digitless (h : ∀ d : Fin 10, digitChar d ∉ cs) (hne : cs ≠ []) :
    readUnsigned limit cs = .error .invalidDigit := by
  obtain ⟨c, rest, rfl⟩ := List.exists_cons_of_ne_nil hne
  by_cases hplus : c = '+'
  · subst hplus
    cases rest with
    | nil => rfl
    -- The sign may be one of a number, so it is what follows that goes wrong.
    | cons c rest => exact readDigits_digitless (fun d hd => h d (by simp [hd])) rest
  · rw [readUnsigned_of_ne_plus hplus]
    exact readDigits_digitless (fun d hd => h d (by simp [hd])) rest

end Numeral

/-! ## Numerals -/

/-- A numeral: one or more digits, perhaps a plus sign before them, and white space around. -/
structure Numeral where
  before : List Char
  hasPlus : Bool
  digits : List (Fin 10)
  after : List Char
  /-- There is a digit. -/
  digits_ne_nil : digits ≠ []
  /-- What is around is white space. -/
  white : ∀ c ∈ before ++ after, c.toNat ∈ whiteSpace

namespace Numeral

variable {n : Nat} {raw : String}

/-- The numeral without the white space around it. -/
def core (x : Numeral) : List Char := sign x.hasPlus ++ x.digits.map digitChar

/-- The text of a numeral. -/
def text (x : Numeral) : String := String.ofList (x.before ++ x.core ++ x.after)

/-- The number that a numeral denotes. -/
def value (x : Numeral) : Nat := denoted x.digits

/-- Trimming leaves the sign and the digits. -/
theorem trim_text (x : Numeral) : trim x.text.toList = x.core := by
  have hwhite := List.forall_mem_append.mp x.white
  have hcore : ∀ c ∈ x.core, isWhite c = false := by
    refine List.forall_mem_append.mpr ⟨fun c hc => ?_, List.forall_mem_map.mpr ?_⟩
    · unfold sign at hc
      split at hc
      · rw [List.mem_singleton.mp hc]
        rfl
      · cases hc
    · exact fun d _ => isWhite_digitChar d
  have hne : x.core ≠ [] := fun h =>
    x.digits_ne_nil (List.map_eq_nil_iff.mp (List.append_eq_nil_iff.mp h).2)
  unfold text
  rw [String.toList_ofList]
  exact trim_append (fun c hc => isWhite_iff.mpr (hwhite.1 c hc)) hcore hne
    fun c hc => isWhite_iff.mpr (hwhite.2 c hc)

/-- A numeral is read as the number that it denotes, unless that is too large. -/
theorem read_text (x : Numeral) :
    read x.text = if x.value < 2 ^ 64 then .ok x.value else .error .tooLarge := by
  have hzero : 0 < 2 ^ 64 := by positivity
  have hread := readDigits_digits hzero x.digits
  rw [Nat.zero_mul, Nat.zero_add] at hread
  unfold read
  rw [trim_text]
  exact (readUnsigned_sign x.hasPlus x.digits_ne_nil).trans hread

/-- Only numerals are read as a number. -/
theorem exists_of_read (h : read raw = .ok n) : ∃ x : Numeral, x.text = raw := by
  obtain ⟨hasPlus, digits, hne, hcore⟩ := exists_of_readUnsigned h
  obtain ⟨before, after, htext, hbefore, hafter⟩ := exists_trim raw.toList
  have hwhite : ∀ c ∈ before ++ after, c.toNat ∈ whiteSpace := by
    intro c hc
    rcases List.mem_append.mp hc with hc | hc
    · exact isWhite_iff.mp (hbefore c hc)
    · exact isWhite_iff.mp (hafter c hc)
  refine ⟨⟨before, hasPlus, digits, after, hne, hwhite⟩, ?_⟩
  unfold text core
  dsimp only
  rw [hcore, ← htext, String.ofList_toList]

/-- What is read is a numeral of the number, which is below the limit. -/
theorem read_eq_ok_iff :
    read raw = .ok n ↔ ∃ x : Numeral, x.text = raw ∧ x.value = n ∧ n < 2 ^ 64 := by
  constructor
  · intro h
    obtain ⟨x, rfl⟩ := exists_of_read h
    rw [read_text] at h
    split at h
    next hsmall =>
      cases h
      exact ⟨x, rfl, rfl, hsmall⟩
    next => cases h
  · rintro ⟨x, rfl, rfl, hsmall⟩
    rw [read_text, if_pos hsmall]

/-- A blank text is refused as empty. -/
theorem read_blank (h : ∀ c ∈ raw.toList, c.toNat ∈ whiteSpace) : read raw = .error .empty := by
  unfold read
  rw [trim_eq_nil_iff.mpr fun c hc => isWhite_iff.mpr (h c hc)]
  rfl

/-- In a text without a digit, such as a sign alone, a digit is missed unless it is blank. -/
theorem read_digitless (h : ∀ d : Fin 10, digitChar d ∉ raw.toList)
    (hsome : ∃ c ∈ raw.toList, c.toNat ∉ whiteSpace) : read raw = .error .invalidDigit := by
  obtain ⟨c, hc, hother⟩ := hsome
  obtain ⟨before, after, htext, -, -⟩ := exists_trim raw.toList
  refine readUnsigned_digitless (fun d hd => h d ?_) fun hblank => ?_
  · rw [htext]
    exact List.mem_append_left _ (List.mem_append_right _ hd)
  · exact hother (isWhite_iff.mp (trim_eq_nil_iff.mp hblank c hc))

end Numeral

end RunParams.Text
