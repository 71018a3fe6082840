import RunParams.Proofs.KeyMaps
import RunParams.Proofs.Program.Stretches
import RunParams.Registry

/-!
# What the calls of a registry do

Whoever uses the registry of live contexts makes a `Request`. A request may have to wait: for its
turn at the registry, and a creation also for the stores, as long as its declarations are bound.
`Request.meets` says what it does whatever happens at its waits. Until its last stretch it changes
neither what is live nor the contexts (`Quiet`). In the last stretch it does, at once, what
`Request.Returns` says: a creation inserts a context of its own under a run that has none, or fails
and changes nothing, and the others return what is live at that moment. A creation fails for a
reason only (`Refusal`): its run has an entry when it looks, or its declarations do not let
themselves be bound.
-/

namespace RunParams.Registry

/-- A call of the registry. -/
inductive Request where
  | create (run : String) (organization : Organization) (declarations : Declarations)
  | get (run : String)
  | contains (run : String)
  | discard (run : String)
  | discardExpired (maxAge : Duration)

/-- What a call returns unless it fails. -/
inductive Response where
  /-- The number of a context. -/
  | context (number : Nat)
  | truth (answer : Bool)
  | runs (runs : List String)

/-- The work of a call. -/
def Request.program : Request → Program World BindingError Response
  | create run organization declarations => do
    return .context (← Registry.create run organization declarations)
  | get run => do return .context (← Registry.get run)
  | contains run => do
    .turn
    return .truth (Registry.contains (← .get) run)
  | discard run => do return .truth (← Registry.discard run)
  | discardExpired maxAge => do return .runs (← Registry.discardExpired maxAge)

/-- A world has some settings. -/
def HasSettings (settings : ResolverSettings) (w : World) : Prop := w.settings = settings

/-- Nothing has changed for the registry: what is live, the contexts and the settings. -/
structure Quiet (w w' : World) : Prop where
  live : w'.live = w.live
  contexts : w'.contexts = w.contexts
  settings : w'.settings = w.settings

/-- Nothing changes when nothing happens. -/
theorem Quiet.refl (w : World) : Quiet w w := ⟨rfl, rfl, rfl⟩

/-- A context is one in which the declarations of a run have been bound, from a fresh context of the
run on. -/
def BoundFor (settings : ResolverSettings) (run : String) (organization : Organization)
    (declarations : Declarations) (c : Context) : Prop :=
  ∃ createdAt around around',
    (Desk.bindAll declarations ⟨.fresh settings run organization createdAt, around⟩).CanEnd
      Desk.SameContext ⟨c, around'⟩ (.ok ())

/-- Binding the declarations of a run, from a fresh context of the run on, may end with an error. -/
def BindingFails (settings : ResolverSettings) (run : String) (organization : Organization)
    (declarations : Declarations) (e : BindingError) : Prop :=
  ∃ createdAt around d,
    (Desk.bindAll declarations ⟨.fresh settings run organization createdAt, around⟩).CanEnd
      Desk.SameContext d (.error e)

/-- Why a creation fails: when it looks, its run has an entry, or its declarations do not let
themselves be bound. -/
inductive Refusal (settings : ResolverSettings) (run : String) (organization : Organization)
    (declarations : Declarations) (live : KeyMap Entry) : BindingError → Prop
  | taken (there : live.contains run = true) :
    Refusal settings run organization declarations live (.contextExists run)
  | unbound {e : BindingError} (fails : BindingFails settings run organization declarations e) :
    Refusal settings run organization declarations live e

/-- What a call does in its last stretch, and what it returns. -/
inductive Request.Returns (settings : ResolverSettings) :
    Request → World → World → Except BindingError Response → Prop
  | created {run : String} {organization : Organization} {declarations : Declarations}
    {w w' : World} {c : Context} (free : w.live.get? run = none)
    (own : BoundFor settings run organization declarations c)
    (contexts : w'.contexts = w.contexts ++ [c])
    (live : w'.live = w.live.insert run ⟨w.contexts.length, c.createdAt⟩)
    (same : w'.settings = w.settings) :
    Returns settings (.create run organization declarations) w w'
      (.ok (.context w.contexts.length))
  | refused {run : String} {organization : Organization} {declarations : Declarations}
    {w w' : World} {e : BindingError} (quiet : Quiet w w') :
    Returns settings (.create run organization declarations) w w' (.error e)
  | found {run : String} {w w' : World} {entry : Entry} (quiet : Quiet w w')
    (there : w.live.get? run = some entry) :
    Returns settings (.get run) w w' (.ok (.context entry.context))
  | missing {run : String} {w w' : World} (quiet : Quiet w w') (free : w.live.get? run = none) :
    Returns settings (.get run) w w' (.error (.contextMissing run))
  | answered {run : String} {w w' : World} (quiet : Quiet w w') :
    Returns settings (.contains run) w w' (.ok (.truth (w.live.contains run)))
  | discarded {run : String} {w w' : World} (contexts : w'.contexts = w.contexts)
    (live : w'.live = w.live.erase run) (same : w'.settings = w.settings) :
    Returns settings (.discard run) w w' (.ok (.truth (w.live.contains run)))
  | expired {maxAge : Duration} {w w' : World} {runs : List String}
    (there : ∀ run ∈ runs, w.live.contains run = true) (contexts : w'.contexts = w.contexts)
    (live : w'.live = w.live.filter fun run _ => !runs.contains run)
    (same : w'.settings = w.settings) :
    Returns settings (.discardExpired maxAge) w w' (.ok (.runs runs))

variable {settings : ResolverSettings} {w w' start : World} {run : String}

/-- Looking for a key tells whether a run is live. -/
theorem contains_iff : contains w run = true ↔ ∃ entry, w.live.get? run = some entry :=
  Option.isSome_iff_exists

/-- A run without an entry is not live. -/
theorem contains_eq_false_iff : contains w run = false ↔ w.live.get? run = none :=
  Option.isSome_eq_false_iff.trans Option.isNone_iff_eq_none

/-- A wait for the turn, after which the settings are still the same. -/
theorem meets_turn (hquiet : Quiet start w) :
    (Program.turn w : Paused World BindingError Unit).Meets (HasSettings settings) Quiet
      (fun start s r => s = start ∧ HasSettings settings start ∧ r = .ok ()) start :=
  Paused.Meets.waitFor .turn hquiet

/-- Binding declarations in a context that nobody else has is quiet. If it succeeds the context is
bound, and otherwise the binding fails. -/
theorem meets_bind (createdAt : Nat) (organization : Organization) (declarations : Declarations)
    (hquiet : Quiet start w) :
    (World.bind (.fresh settings run organization createdAt) declarations w).Meets
      (HasSettings settings) Quiet
      (fun start s r => Quiet start s ∧
        (∀ c, r = .ok c → BoundFor settings run organization declarations c) ∧
        ∀ e, r = .error e → BindingFails settings run organization declarations e) start := by
  have hbeside : ((Desk.bindAll declarations).beside
      (fun (context : Context) (w : World) => (⟨context, w.around⟩ : Desk)) Desk.context
      (fun d w => { w with around := d.around })
      (.fresh settings run organization createdAt) w).Meets (HasSettings settings) Quiet
      (fun start s r => Quiet start s ∧
        (∀ c u, r = .ok (c, u) → BoundFor settings run organization declarations c) ∧
        ∀ e, r = .error e → BindingFails settings run organization declarations e) start := by
    have hjoin : ∀ (d : Desk) (w : World), Desk.SameContext d ⟨d.context, w.around⟩ :=
      fun _ _ => rfl
    refine Paused.Meets.beside (fun _ _ _ h => ⟨h.live, h.contexts, h.settings⟩)
      (fun w _ => Quiet.refl w) hjoin ?_ hquiet
    -- At its end the binding has reached the end of a binding of a desk, with stores that others
    -- have used meanwhile.
    intro start s d r hquiet hend
    refine ⟨⟨hquiet.live, hquiet.contexts, hquiet.settings⟩, fun c u hr => ?_, fun e he => ?_⟩
    · -- Only a success has a context to speak of.
      cases r with
      | error e => cases hr
      | ok a =>
        cases hr
        exact ⟨createdAt, w.around, d.around, hend⟩
    · -- A failure of the desk is the failure of the binding.
      cases r with
      | ok a => cases he
      | error e' =>
        cases he
        exact ⟨createdAt, w.around, d, hend⟩
  refine hbeside.bind (fun start s a hmid => ?_) (fun start s e hmid => ?_)
  · obtain ⟨hquiet, hown, -⟩ := hmid
    refine ⟨hquiet, fun c hc => ?_, fun e he => nomatch he⟩
    cases hc
    exact hown a.1 a.2 rfl
  · obtain ⟨hquiet, -, hfails⟩ := hmid
    refine ⟨hquiet, fun c hc => (nomatch hc), fun e' he => ?_⟩
    cases he
    exact hfails e rfl

/-- How a creation ends: it does what the call returns, and when it fails there is a reason. -/
def Settles (settings : ResolverSettings) (run : String) (organization : Organization)
    (declarations : Declarations) (start w : World) (result : Except BindingError Response) :
    Prop :=
  (Request.create run organization declarations).Returns settings start w result ∧
    ∀ e, result = .error e → Refusal settings run organization declarations start.live e

/-- A creation that finds an entry of its run changes nothing. -/
theorem settles_taken {organization : Organization} {declarations : Declarations}
    (hlive : contains w run = true) :
    Settles settings run organization declarations w w (.error (.contextExists run)) := by
  refine ⟨.refused (Quiet.refl w), fun e he => ?_⟩
  cases he
  exact .taken hlive

/-- Inserting a context makes it live under a run that has none, or changes nothing. -/
theorem settles_insert {organization : Organization} {declarations : Declarations} {c : Context}
    (hown : BoundFor settings run organization declarations c) (w : World) :
    ∃ w' r, insert run c w = .ended w' r ∧
      Settles settings run organization declarations w w' (r.map Response.context) := by
  unfold insert
  -- An id that is live by now is refused, and otherwise the context becomes live under it.
  by_cases hlive : contains w run = true
  · rw [if_pos hlive]
    exact ⟨w, _, rfl, settles_taken hlive⟩
  · rw [if_neg hlive]
    have hfree := contains_eq_false_iff.mp (Bool.eq_false_iff.mpr hlive)
    exact ⟨_, _, rfl, .created hfree hown rfl rfl rfl, fun e he => nomatch he⟩

/-- A creation is quiet until it inserts its context, or fails for a reason. -/
theorem meets_create (organization : Organization) (declarations : Declarations)
    (hquiet : Quiet start w) :
    ((Request.create run organization declarations).program w).Meets
      (HasSettings settings) Quiet (Settles settings run organization declarations) start := by
  have hcreate : (Registry.create run organization declarations w).Meets
      (HasSettings settings) Quiet (fun start s r =>
        Settles settings run organization declarations start s (r.map Response.context)) start := by
    refine (meets_turn hquiet).bind ?_ ?_
    · -- The first look at the registry, after which the binding begins in the same stretch.
      rintro _ w _ ⟨rfl, rfl, -⟩
      show Paused.Meets _ _ _ w ((if contains w run then
        (.fail (.contextExists run) : Program World BindingError Nat) else _) w)
      by_cases hlive : contains w run = true
      · rw [if_pos hlive]
        exact settles_taken hlive
      · rw [if_neg hlive]
        have hquiet : Quiet w { w with calendar := w.calendar + 1 } := ⟨rfl, rfl, rfl⟩
        show Paused.Meets _ _ _ w ((World.bind (.fresh w.settings run organization (w.calendar + 1))
          declarations { w with calendar := w.calendar + 1 }).bind fun c =>
            Program.turn >>= fun _ => insert run c)
        refine (meets_bind (w.calendar + 1) organization declarations hquiet).bind ?_ ?_
        · -- The second look and the insertion are one stretch.
          rintro start s c ⟨hquiet, hown, -⟩
          refine (meets_turn hquiet).bind ?_ ?_
          · rintro _ w _ ⟨rfl, -, -⟩
            obtain ⟨w', r, hinsert, hsettles⟩ := settles_insert (hown c rfl) w
            rw [hinsert]
            exact hsettles
          · rintro _ _ e ⟨-, -, he⟩
            cases he
        · rintro start s e ⟨hquiet, -, hfails⟩
          refine ⟨.refused hquiet, fun e' he => ?_⟩
          cases he
          exact .unbound (hfails e rfl)
    · rintro _ _ e ⟨-, -, he⟩
      cases he
  exact hcreate.bind (fun _ _ _ h => h) fun _ _ _ h => h

/-- The look-up of a run is quiet. -/
theorem meets_get (hquiet : Quiet start w) :
    ((Request.get run).program w).Meets (HasSettings settings) Quiet
      ((Request.get run).Returns settings) start := by
  have hget : (Registry.get run w).Meets (HasSettings settings) Quiet
      (fun start s r =>
        (Request.get run).Returns settings start s (r.map Response.context)) start := by
    unfold Registry.get
    refine (meets_turn hquiet).bind ?_ ?_
    · rintro _ w _ ⟨rfl, -, -⟩
      have hseen : ∀ next : World → Program World BindingError Nat,
          (Program.get >>= next) w = next w w := fun _ => rfl
      rw [hseen]
      -- An entry is found as it stands at this turn.
      cases hlive : w.live.get? run with
      | some entry => exact .found (Quiet.refl w) hlive
      | none => exact .missing (Quiet.refl w) hlive
    · rintro _ _ e ⟨-, -, he⟩
      cases he
  exact hget.bind (fun _ _ _ h => h) fun _ _ _ h => h

/-- Asking whether a run is live is quiet. -/
theorem meets_contains (hquiet : Quiet start w) :
    ((Request.contains run).program w).Meets (HasSettings settings) Quiet
      ((Request.contains run).Returns settings) start := by
  refine (meets_turn hquiet).bind ?_ ?_
  · rintro _ w _ ⟨rfl, -, -⟩
    exact .answered (Quiet.refl w)
  · rintro _ _ e ⟨-, -, he⟩
    cases he

/-- Discarding the context of a run drops its entry, if it has one. -/
theorem meets_discard (hquiet : Quiet start w) :
    ((Request.discard run).program w).Meets (HasSettings settings) Quiet
      ((Request.discard run).Returns settings) start := by
  have hnow : ∀ w, (Request.discard run).Returns settings w (discardNow run w).2
      (.ok (.truth (discardNow run w).1)) := by
    intro w
    unfold discardNow
    -- To discard says whether there was an entry.
    cases hlive : contains w run with
    | true =>
      rw [if_pos rfl, ← hlive]
      exact .discarded rfl rfl rfl
    | false =>
      -- Nothing is dropped, which is what dropping an entry that is not there comes to.
      have hnone : w.live.get? run = none := contains_eq_false_iff.mp hlive
      have herase : w.live.erase run = w.live := KeyMap.erase_of_get?_eq_none hnone
      rw [if_neg Bool.false_ne_true, ← hlive]
      exact .discarded rfl herase.symm rfl
  have hdiscard : (Registry.discard run w : Paused World BindingError Bool).Meets
      (HasSettings settings) Quiet (fun start s r =>
        (Request.discard run).Returns settings start s (r.map Response.truth)) start := by
    refine (meets_turn hquiet).bind ?_ ?_
    · rintro _ w _ ⟨rfl, -, -⟩
      exact hnow w
    · rintro _ _ e ⟨-, -, he⟩
      cases he
  exact hdiscard.bind (fun _ _ _ h => h) fun _ _ _ h => h

/-- The runs whose contexts are too old are live, and it is their entries that are dropped. -/
theorem returns_expireAt (now : Nat) (maxAge : Duration) (w : World) :
    (Request.discardExpired maxAge).Returns settings w (expireAt now maxAge w).2
      (.ok (.runs (expireAt now maxAge w).1)) := by
  -- A run is returned just when it has an entry that is too old.
  let isExpired (entry : Entry) : Bool := maxAge.nanos < now - entry.createdAt
  have hmem : ∀ run, run ∈ (expireAt now maxAge w).1 ↔
      ∃ entry, w.live.get? run = some entry ∧ isExpired entry = true := by
    intro run
    constructor
    · intro hrun
      obtain ⟨⟨key, entry⟩, hentry, rfl⟩ := List.mem_map.mp hrun
      obtain ⟨hin, hexpired⟩ := List.mem_filter.mp hentry
      exact ⟨entry, w.live.sorted.find_of_mem hin, hexpired⟩
    · rintro ⟨entry, hentry, hexpired⟩
      exact List.mem_map.mpr
        ⟨(run, entry), List.mem_filter.mpr ⟨Entries.mem_of_find hentry, hexpired⟩, rfl⟩
  refine .expired (fun run hrun => ?_) rfl ?_ rfl
  · -- Who is returned has an entry.
    obtain ⟨entry, hentry, -⟩ := (hmem run).mp hrun
    exact contains_iff.mpr ⟨entry, hentry⟩
  · show w.live.filter (fun _ entry => !isExpired entry) =
      w.live.filter fun run _ => !(expireAt now maxAge w).1.contains run
    refine KeyMap.ext_get? fun run => ?_
    rw [KeyMap.get?_filter, KeyMap.get?_filter]
    -- A run without an entry is not returned, and one with an entry is judged by its age.
    cases hentry : w.live.get? run with
    | none => rfl
    | some entry =>
      have hsame : (expireAt now maxAge w).1.contains run = isExpired entry := by
        rw [Bool.eq_iff_iff, List.contains_iff_mem, hmem run, hentry]
        constructor
        · rintro ⟨_, hsome, hexpired⟩
          rw [Option.some.inj hsome]
          exact hexpired
        · exact fun hexpired => ⟨entry, rfl, hexpired⟩
      rw [Option.filter_some, Option.filter_some, hsame]

/-- Discarding what is too old drops the entries of the runs that it returns. -/
theorem meets_discardExpired (maxAge : Duration) (hquiet : Quiet start w) :
    ((Request.discardExpired maxAge).program w).Meets (HasSettings settings) Quiet
      ((Request.discardExpired maxAge).Returns settings) start := by
  have hdiscard : (Registry.discardExpired maxAge w : Paused World BindingError _).Meets
      (HasSettings settings) Quiet (fun start s r =>
        (Request.discardExpired maxAge).Returns settings start s (r.map Response.runs)) start := by
    -- The calendar is read before the turn, so what is too old is judged by an earlier moment.
    have hquiet' : Quiet start { w with calendar := w.calendar + 1 } :=
      ⟨hquiet.live, hquiet.contexts, hquiet.settings⟩
    refine (meets_turn hquiet').bind ?_ ?_
    · rintro _ w' _ ⟨rfl, -, -⟩
      exact returns_expireAt (w.calendar + 1) maxAge w'
    · rintro _ _ e ⟨-, -, he⟩
      cases he
  exact hdiscard.bind (fun _ _ _ h => h) fun _ _ _ h => h

/-- Every call is quiet until its last stretch, in which it does what it returns. -/
theorem Request.meets (request : Request) (w : World) :
    (request.program w).Meets (HasSettings settings) Quiet (request.Returns settings) w := by
  cases request with
  | create run organization declarations =>
    exact (meets_create organization declarations (Quiet.refl w)).mono fun _ _ _ h => h.1
  | get run => exact meets_get (Quiet.refl w)
  | contains run => exact meets_contains (Quiet.refl w)
  | discard run => exact meets_discard (Quiet.refl w)
  | discardExpired maxAge => exact meets_discardExpired maxAge (Quiet.refl w)

end RunParams.Registry
