/-!
# Durations

Lengths of time in nanoseconds. Timers run in whole milliseconds, so a wait lasts until the first
tick at which the duration is over (`Duration.ticks`).
-/

namespace RunParams

/-- A length of time. -/
structure Duration where
  /-- The number of nanoseconds. -/
  nanos : Nat
  deriving DecidableEq, Repr, Inhabited

namespace Duration

/-- A number of milliseconds. -/
def millis (n : Nat) : Duration := ⟨n * 1000000⟩

/-- A number of seconds. -/
def seconds (n : Nat) : Duration := ⟨n * 1000000000⟩

/-- The whole seconds. -/
def wholeSeconds (d : Duration) : Nat := d.nanos / 1000000000

/-- The ticks that a timer waits for: milliseconds, rounded up. -/
def ticks (d : Duration) : Nat := (d.nanos + 999999) / 1000000

/-- A fraction of `places` decimal places without its trailing zeros. -/
def fraction (value places : Nat) : String :=
  let digits := (toString value).toList
  let padded := List.replicate (places - digits.length) '0' ++ digits
  match (padded.reverse.dropWhile (· == '0')).reverse with
  | [] => ""
  | shown => "." ++ String.ofList shown

/-- The text of a duration in the largest unit that it fills, with the exact fraction. -/
def render (d : Duration) : String :=
  let inUnit (unit places : Nat) (name : String) : String :=
    toString (d.nanos / unit) ++ fraction (d.nanos % unit) places ++ name
  if 1000000000 ≤ d.nanos then inUnit 1000000000 9 "s"
  else if 1000000 ≤ d.nanos then inUnit 1000000 6 "ms"
  else if 1000 ≤ d.nanos then inUnit 1000 3 "µs"
  else toString d.nanos ++ "ns"

@[simp] theorem ticks_millis (n : Nat) : (millis n).ticks = n := by
  show (n * 1000000 + 999999) / 1000000 = n
  omega

end Duration

end RunParams
