import RunParams.Proofs.Settings.Numerals
import RunParams.Settings

/-!
# Positive numbers in the environment

The variables for milliseconds and those for seconds have one grammar. A text is accepted just if it
is a numeral of a number from 1 to `2 ^ 64 - 1`, and every other text is refused, with a failure
that tells a zero from a text that is no numeral below the limit (`Settings.ReadsPositive`).

Both kinds of variables are read by one function, about which everything is shown
(`Settings.readsPositive_map`), and so they differ in their unit and in a few words only
(`Settings.reads_positive_numerals`).
-/

namespace RunParams.Settings

open Text (Numeral digitChar whiteSpace)

/-- A text spells a number from 1 to `2 ^ 64 - 1`. -/
def Spells (raw : String) (n : Nat) : Prop :=
  ∃ x : Numeral, x.text = raw ∧ x.value = n ∧ 1 ≤ n ∧ n ≤ 2 ^ 64 - 1

/-- The failure of a variable that is no numeral of a number below the limit. -/
def misread (name kind raw : String) (problem : Numeral.Problem) : Failure :=
  (Failure.ofReport problem.message).whileDoing
    (name ++ " must be " ++ kind ++ ", got " ++ Text.quoted raw)

/-- What reading a variable comes to that has to be a positive number of some unit. -/
structure ReadsPositive (name kind raw : String) (unit : Nat → Duration)
    (result : Except Failure (Option Duration)) : Prop where
  /-- It succeeds just if the text spells a number, and then with that many units. -/
  accepts : ∀ d, result = .ok d ↔ ∃ n, Spells raw n ∧ d = some (unit n)
  /-- Every other text is refused. -/
  refuses : (∀ n, ¬ Spells raw n) → ∃ f, result = .error f
  /-- A blank text is refused, the empty one among them. -/
  blank : (∀ c ∈ raw.toList, c.toNat ∈ whiteSpace) →
    result = .error (misread name kind raw .empty)
  /-- Any other text without a digit is refused, a sign alone among them. -/
  digitless : (∀ d : Fin 10, digitChar d ∉ raw.toList) →
    (∃ c ∈ raw.toList, c.toNat ∉ whiteSpace) →
      result = .error (misread name kind raw .invalidDigit)
  /-- Zero is refused, however it is spelled. -/
  zero : ∀ x : Numeral, x.text = raw → x.value = 0 →
    result = .error (.ofReport (name ++ " must be greater than zero"))
  /-- A number from the limit on is refused, however it is spelled. -/
  tooLarge : ∀ x : Numeral, x.text = raw → 2 ^ 64 ≤ x.value →
    result = .error (misread name kind raw .tooLarge)

variable {name kind raw : String} {unit : Nat → Duration} {problem : Numeral.Problem} {n : Nat}
  {d : Option Duration} {env : Environment}

/-! ## Reading a positive number -/

/-- What cannot be read is refused with the reason. -/
theorem readPositive_error (h : Numeral.read raw = .error problem) :
    readPositive name kind raw = .error (misread name kind raw problem) := by
  unfold readPositive
  rw [h]
  rfl

/-- A zero is refused. -/
theorem readPositive_zero (h : Numeral.read raw = .ok 0) :
    readPositive name kind raw = .error (.ofReport (name ++ " must be greater than zero")) := by
  unfold readPositive
  rw [h]
  rfl

/-- Any other number is what was read. -/
theorem readPositive_ok (h : Numeral.read raw = .ok n) (hpos : n ≠ 0) :
    readPositive name kind raw = .ok n := by
  unfold readPositive
  rw [h]
  cases n with
  | zero => exact absurd rfl hpos
  | succ n => rfl

/-- A number is read just from a text that spells it. -/
theorem readPositive_eq_ok_iff : readPositive name kind raw = .ok n ↔ Spells raw n := by
  constructor
  · intro h
    cases hread : Numeral.read raw with
    | error problem =>
      rw [readPositive_error hread] at h
      cases h
    | ok m =>
      -- A zero is a numeral too, but it is refused afterwards.
      by_cases hzero : m = 0
      · rw [readPositive_zero (hzero ▸ hread)] at h
        cases h
      · rw [readPositive_ok hread hzero] at h
        cases h
        obtain ⟨x, htext, hvalue, hsmall⟩ := Numeral.read_eq_ok_iff.mp hread
        exact ⟨x, htext, hvalue, by omega, by omega⟩
  · rintro ⟨x, htext, hvalue, hpos, hsmall⟩
    have hread : Numeral.read raw = .ok n :=
      Numeral.read_eq_ok_iff.mpr ⟨x, htext, hvalue, by omega⟩
    exact readPositive_ok hread (by omega)

/-- A number of units is read just from a text that spells the number. -/
theorem map_readPositive_eq_ok_iff :
    ((readPositive name kind raw).map fun n => some (unit n)) = .ok d ↔
      ∃ n, Spells raw n ∧ d = some (unit n) := by
  constructor
  · intro h
    cases hread : readPositive name kind raw with
    | error f =>
      rw [hread] at h
      cases h
    | ok n =>
      rw [hread] at h
      cases h
      exact ⟨n, readPositive_eq_ok_iff.mp hread, rfl⟩
  · rintro ⟨n, hspells, rfl⟩
    rw [readPositive_eq_ok_iff.mpr hspells]
    rfl

/-- A positive number is read and taken as so many units. -/
theorem readsPositive_map (name kind raw : String) (unit : Nat → Duration) :
    ReadsPositive name kind raw unit
      ((readPositive name kind raw).map fun n => some (unit n)) where
  accepts _ := map_readPositive_eq_ok_iff
  refuses hnone := by
    cases hresult : (readPositive name kind raw).map fun n => some (unit n) with
    | error f => exact ⟨f, rfl⟩
    | ok d =>
      obtain ⟨n, hspells, -⟩ := map_readPositive_eq_ok_iff.mp hresult
      exact absurd hspells (hnone n)
  blank hblank := by
    rw [readPositive_error (Numeral.read_blank hblank)]
    rfl
  digitless hdigitless hsome := by
    rw [readPositive_error (Numeral.read_digitless hdigitless hsome)]
    rfl
  zero x htext hzero := by
    have hread : Numeral.read raw = .ok 0 :=
      Numeral.read_eq_ok_iff.mpr ⟨x, htext, hzero, by omega⟩
    rw [readPositive_zero hread]
    rfl
  tooLarge x htext hlarge := by
    have hread : Numeral.read raw = .error .tooLarge := by
      rw [← htext, Numeral.read_text, if_neg (by omega)]
    rw [readPositive_error hread]
    rfl

/-! ## Variables -/

/-- A variable that is there is read as a positive number of milliseconds. -/
theorem readMillis_eq (h : env.get? name = some raw) :
    readMillis env name = (readPositive name "an integer" raw).map fun n => some (.millis n) := by
  unfold readMillis
  rw [h]
  exact bind_pure_comp ..

/-- A variable that is there is read as a positive number of seconds. -/
theorem readSeconds_eq (h : env.get? name = some raw) :
    readSeconds env name =
      (readPositive name "a number of seconds" raw).map fun n => some (.seconds n) := by
  unfold readSeconds
  rw [h]
  exact bind_pure_comp ..

/-- A variable that is a number of milliseconds and one that is a number of seconds are read alike:
both accept the numerals of the numbers from 1 to `2 ^ 64 - 1` and refuse every other text. -/
theorem reads_positive_numerals (h : env.get? name = some raw) :
    ReadsPositive name "an integer" raw .millis (readMillis env name) ∧
      ReadsPositive name "a number of seconds" raw .seconds (readSeconds env name) := by
  rw [readMillis_eq h, readSeconds_eq h]
  exact ⟨readsPositive_map .., readsPositive_map ..⟩

/-- The greatest number with zeros before it and white space around, the next number, and a sign
alone. -/
theorem reads_positive_numerals_greatest :
    let env : Environment := KeyMap.ofList
      [(fetchLimitName, "\u3000+0018446744073709551615\n"),
        (sweepIntervalName, "18446744073709551616"), (maxRunAgeName, " + ")]
    readMillis env fetchLimitName = .ok (some (.millis 18446744073709551615)) ∧
      readSeconds env sweepIntervalName =
        .error (misread sweepIntervalName "a number of seconds" "18446744073709551616" .tooLarge) ∧
      readSeconds env maxRunAgeName =
        .error (misread maxRunAgeName "a number of seconds" " + " .invalidDigit) := by
  intro env
  let greatest : Numeral := ⟨['\u3000'], true,
    [0, 0, 1, 8, 4, 4, 6, 7, 4, 4, 0, 7, 3, 7, 0, 9, 5, 5, 1, 6, 1, 5], ['\n'],
    List.cons_ne_nil _ _, by simp [whiteSpace]⟩
  let next : Numeral := ⟨[], false,
    [1, 8, 4, 4, 6, 7, 4, 4, 0, 7, 3, 7, 0, 9, 5, 5, 1, 6, 1, 6], [],
    List.cons_ne_nil _ _, by simp⟩
  have hlimit : env.get? fetchLimitName = some greatest.text := rfl
  have hinterval : env.get? sweepIntervalName = some next.text := rfl
  have hage : env.get? maxRunAgeName = some " + " := rfl
  refine ⟨?_, ?_, ?_⟩
  · obtain ⟨hmillis, -⟩ := reads_positive_numerals hlimit
    exact (hmillis.accepts _).mpr ⟨_, ⟨greatest, rfl, rfl, by decide, by decide⟩, rfl⟩
  · obtain ⟨-, hseconds⟩ := reads_positive_numerals hinterval
    exact hseconds.tooLarge next rfl (by decide)
  · obtain ⟨-, hseconds⟩ := reads_positive_numerals hage
    exact hseconds.digitless (by decide) ⟨'+', by decide, by decide⟩

end RunParams.Settings
