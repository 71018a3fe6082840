import RunParams.Proofs.Isolation.Minting
import RunParams.World

/-!
# What a run takes from what all runs share

Of what runs share, a run uses up ids, asks the stores, and reads the calendar, and what it gets
depends on how much others have taken before. `Takings` are the ids, the answers and the readings
that a run has got. What is taken between two states of the surroundings or of the world can be read
off them (`Surroundings.taken`, `World.taken`), and in two stretches one after the other the takings
add up.

`Surroundings.Gives` says that whoever takes something next gets just that.
-/

namespace RunParams

/-- A query and the response to it. -/
structure Answered where
  query : Query
  response : Response query.Answer

/-- What is taken from what all runs share. -/
@[ext] structure Takings where
  ids : List Uuid
  answers : List Answered
  /-- The readings of the calendar. -/
  dates : List Nat

namespace Takings

/-- Nothing. -/
def none : Takings := ⟨[], [], []⟩

instance : Append Takings :=
  ⟨fun a b => ⟨a.ids ++ b.ids, a.answers ++ b.answers, a.dates ++ b.dates⟩⟩

variable (a b c : Takings)

/-- Who takes nothing first takes what comes then. -/
@[simp] theorem none_append : none ++ a = a := rfl

/-- Who takes nothing more has taken what came before. -/
@[simp] theorem append_none : a ++ none = a := by
  ext1 <;> exact List.append_nil _

/-- It does not matter how takings are grouped. -/
theorem append_assoc : a ++ b ++ c = a ++ (b ++ c) := by
  ext1 <;> exact List.append_assoc _ _ _

/-- What does not become more by itself is nothing. -/
theorem eq_none_of_self_append {a : Takings} (h : a = a ++ a) : a = none := by
  ext1
  · exact List.self_eq_append_left.mp (congrArg ids h)
  · exact List.self_eq_append_left.mp (congrArg answers h)
  · exact List.self_eq_append_left.mp (congrArg dates h)

end Takings

/-! ## Ids -/

namespace Draws

/-- The ids that are drawn next. -/
def Gives : Draws → List Uuid → Prop
  | _, [] => True
  | d, id :: rest => d.draw.1 = id ∧ d.draw.2.Gives rest

/-- Whether ids are drawn next can be seen by drawing. -/
instance decidableGives : (d : Draws) → (ids : List Uuid) → Decidable (d.Gives ids)
  | _, [] => isTrue trivial
  | d, id :: rest =>
    have := decidableGives d.draw.2 rest
    inferInstanceAs (Decidable (d.draw.1 = id ∧ d.draw.2.Gives rest))

end Draws

/-! ## Answers -/

namespace Backend

/-- The answers to some queries after others. -/
def answers (b : Backend) : List Query → List Query → List Answered
  | _, [] => []
  | asked, q :: rest => ⟨q, b asked q⟩ :: b.answers (asked ++ [q]) rest

/-- The stores answer in a certain way when they are asked next. -/
def Gives (b : Backend) : List Query → List Answered → Prop
  | _, [] => True
  | asked, a :: rest => b asked a.query = a.response ∧ b.Gives (asked ++ [a.query]) rest

/-- Further queries are answered after the others. -/
theorem answers_append (b : Backend) (asked qs rest : List Query) :
    b.answers asked (qs ++ rest) = b.answers asked qs ++ b.answers (asked ++ qs) rest := by
  induction qs generalizing asked with
  | nil =>
    rw [List.append_nil]
    rfl
  | cons q qs ih =>
    have hqueries : asked ++ [q] ++ qs = asked ++ q :: qs := List.append_assoc asked [q] qs
    rw [List.cons_append, answers, answers, ih, hqueries, List.cons_append]

/-- Stores answer every query in one way, whatever they have been asked before. -/
def Steady (b : Backend) : Prop := ∀ asked q, b asked q = b [] q

variable {b : Backend} {asked qs : List Query} {answers : List Answered} {a : Answered}

/-- What steady stores have answered is what they answer at first. -/
theorem Steady.of_mem_answers (h : b.Steady) (ha : a ∈ b.answers asked qs) :
    b [] a.query = a.response := by
  induction qs generalizing asked with
  | nil => cases ha
  | cons q rest ih =>
    rcases List.mem_cons.mp ha with rfl | hrest
    · exact (h asked q).symm
    · exact ih hrest

/-- Steady stores answer at any time what they answer at first. -/
theorem Steady.gives (h : b.Steady) (hanswers : ∀ a ∈ answers, b [] a.query = a.response)
    (asked : List Query) : b.Gives asked answers := by
  induction answers generalizing asked with
  | nil => trivial
  | cons a rest ih =>
    refine ⟨(h asked a.query).trans (hanswers a List.mem_cons_self), ih ?_ _⟩
    exact fun a' ha' => hanswers a' (List.mem_cons_of_mem a ha')

end Backend

/-! ## Between two states -/

namespace Surroundings

variable {s s' s'' : Surroundings}

/-- Surroundings from which more has been taken. -/
structure Later (s s' : Surroundings) : Prop where
  draws : s.draws.Later s'.draws
  backend : s'.backend = s.backend
  asked : s.asked <+: s'.asked

/-- Nothing is taken in no time. -/
theorem Later.refl (s : Surroundings) : s.Later s := ⟨.refl _, rfl, List.prefix_refl _⟩

/-- More and more is taken. -/
theorem Later.trans (h : s.Later s') (h' : s'.Later s'') : s.Later s'' :=
  ⟨h.draws.trans h'.draws, h'.backend.trans h.backend, h.asked.trans h'.asked⟩

/-- What has been taken in between. -/
def taken (s s' : Surroundings) : Takings :=
  ⟨s.draws.since s'.draws, s.backend.answers s.asked (s'.asked.drop s.asked.length), []⟩

/-- What is taken up to a later moment is taken in two parts. -/
theorem taken_append (h : s.Later s') (h' : s'.Later s'') :
    s.taken s'' = s.taken s' ++ s'.taken s'' := by
  obtain ⟨first, hfirst⟩ := h.asked
  obtain ⟨second, hsecond⟩ := h'.asked
  -- Ids, answers and dates are taken one after another, so each of the three lists is an append.
  ext1
  · exact Draws.since_append h.draws h'.draws
  · show s.backend.answers s.asked (s''.asked.drop s.asked.length) =
      s.backend.answers s.asked (s'.asked.drop s.asked.length) ++
        s'.backend.answers s'.asked (s''.asked.drop s'.asked.length)
    -- What was asked in the second part was asked after what was asked in the first.
    have hboth : s''.asked = s.asked ++ (first ++ second) := by
      rw [← hsecond, ← hfirst, List.append_assoc]
    rw [h.backend, ← hsecond, List.drop_left, hsecond, hboth, List.drop_left, ← hfirst,
      List.drop_left, Backend.answers_append]
  · rfl

/-- Whoever draws ids and asks the stores next gets what others have got. -/
structure Gives (s : Surroundings) (t : Takings) : Prop where
  ids : s.draws.Gives t.ids
  answers : s.backend.Gives s.asked t.answers

end Surroundings

namespace World

variable {w w' w'' : World}

/-- A world from which more has been taken. -/
structure Later (w w' : World) : Prop where
  around : w.around.Later w'.around
  calendar : w.calendar ≤ w'.calendar

/-- Nothing is taken in no time. -/
theorem Later.refl (w : World) : w.Later w := ⟨.refl _, Nat.le_refl _⟩

/-- More and more is taken. -/
theorem Later.trans (h : w.Later w') (h' : w'.Later w'') : w.Later w'' :=
  ⟨h.around.trans h'.around, Nat.le_trans h.calendar h'.calendar⟩

/-- What has been taken in between. -/
def taken (w w' : World) : Takings :=
  { w.around.taken w'.around with
    dates := List.range' (w.calendar + 1) (w'.calendar - w.calendar) }

/-- What is taken up to a later moment is taken in two parts. -/
theorem taken_append (h : w.Later w') (h' : w'.Later w'') :
    w.taken w'' = w.taken w' ++ w'.taken w'' := by
  have haround := Surroundings.taken_append h.around h'.around
  have hids := congrArg Takings.ids haround
  have hanswers := congrArg Takings.answers haround
  ext1
  · exact hids
  · exact hanswers
  · show List.range' (w.calendar + 1) (w''.calendar - w.calendar) =
      List.range' (w.calendar + 1) (w'.calendar - w.calendar) ++
        List.range' (w'.calendar + 1) (w''.calendar - w'.calendar)
    have hfirst := h.calendar
    have hsecond := h'.calendar
    have hplaces : w.calendar + 1 + (w'.calendar - w.calendar) = w'.calendar + 1 := by omega
    have hcount : w''.calendar - w.calendar =
        (w'.calendar - w.calendar) + (w''.calendar - w'.calendar) := by omega
    rw [hcount, ← List.range'_append_1, hplaces]

end World

end RunParams
