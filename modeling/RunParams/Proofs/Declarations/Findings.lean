import RunParams.Proofs.Declarations.Keys
import RunParams.Proofs.Resolving.Answers
import RunParams.Proofs.Resolving.Gains

/-!
# What is found for a declaration

The declarations of a run are bound in one order: workflow parameters, outputs, secrets, context
parameters (`Declarations.inOrder`). What is found for one of them depends on the stores and on what
has been registered before, for the key of an output may be taken, and a credential parameter may
name a key whose value is the id of the credential (`Inquiry.find`).

`Registered` notes what was found for a declaration and what handles the vault has for it, and with
that the value that it has given to its key. From these notes, in their order, everything can be
read off: which keys are defined (`Registered.defines`), which have values (`Registered.valueOf`),
and what the vault holds (`Registered.ledger`).
-/

namespace RunParams

/-- Something that a run declares. -/
inductive Declaration where
  | binding (b : WorkflowBinding)
  | output (p : OutputParameter)
  | secret (p : SecretParameter)
  | context (p : ContextParameter)

/-- The parameter that is declared. -/
def Declaration.parameter : Declaration → Parameter
  | binding b => .workflow b.parameter
  | output p => .output p
  | secret p => p.toParameter
  | context p => .context p

/-- The key of the parameter. -/
def Declaration.key (d : Declaration) : String := d.parameter.key

/-- The declarations of a run, in the order in which they are bound. -/
def Declarations.inOrder (d : Declarations) : List Declaration :=
  d.bindings.map .binding ++ d.outputs.map .output ++ d.secrets.map .secret ++
    d.contexts.map .context

/-- Something holds of one of the declarations when it does of one of some kind. -/
theorem Declarations.exists_mem_inOrder {d : Declarations} {P : Declaration → Prop} :
    (∃ declaration ∈ d.inOrder, P declaration) ↔
      (∃ b ∈ d.bindings, P (.binding b)) ∨ (∃ o ∈ d.outputs, P (.output o)) ∨
        (∃ p ∈ d.secrets, P (.secret p)) ∨ ∃ c ∈ d.contexts, P (.context c) := by
  unfold inOrder
  simp only [List.mem_append, List.mem_map, or_and_right, exists_or, exists_exists_and_eq_and,
    or_assoc]

/-! ## Findings -/

/-- What is found for a declaration. -/
inductive Finding where
  /-- An external secret that the store does not have, so that nothing is defined. -/
  | missing
  /-- The parameter has no value yet. -/
  | unvalued
  | literal (value : Json)
  | credential (secret : CredentialSecret)
  | external (text : String)

/-- What is put into the vault for it. -/
def Finding.deposits : Finding → List Deposit
  | missing | unvalued | literal _ => []
  | credential secret => secret.deposits
  | external text => [.whole text]

/-- Whether the parameter is defined. -/
def Finding.isDefinition : Finding → Bool
  | missing => false
  | unvalued | literal _ | credential _ | external _ => true

/-- Whether the parameter has a value. -/
def Finding.isValue : Finding → Bool
  | missing | unvalued => false
  | literal _ | credential _ | external _ => true

/-- A declaration that has been dealt with: what was found for it, and what was put into the vault
for it, with the handles. -/
structure Registered where
  declaration : Declaration
  finding : Finding
  kept : List (Deposit × String)

namespace Registered

variable {earlier : List Registered} {r : Registered} {key : String}

/-- The value that the declaration gives to its key. -/
def value? (r : Registered) : Option Json :=
  match r.finding with
  | .missing | .unvalued => none
  | .literal value => some value
  | .credential _ => some (handlesValue (Deposit.named r.kept))
  | .external _ => r.kept.head?.map fun k => .text k.2

/-- A declaration has a value when what was found for it is one, and it has been put into the vault.
-/
theorem isSome_value? (hkept : r.kept.map Prod.fst = r.finding.deposits) :
    r.value?.isSome = r.finding.isValue := by
  unfold value?
  cases hfinding : r.finding with
  | missing | unvalued | literal _ | credential _ => rfl
  | external text =>
    rw [hfinding] at hkept
    -- A value found in the stores becomes a handle, so it is there only if the deposit was made.
    cases hhead : r.kept with
    | nil =>
      rw [hhead] at hkept
      cases hkept
    | cons first _ => rfl

/-- Whether a key is defined after some declarations. -/
def defines (earlier : List Registered) (key : String) : Bool :=
  earlier.any fun r => decide (r.declaration.key = key) && r.finding.isDefinition

/-- The value of a key after some declarations: that of the last of them that gives it one. -/
def valueOf (earlier : List Registered) (key : String) : Option Json :=
  earlier.reverse.findSome? fun r => if r.declaration.key = key then r.value? else none

/-- What the vault is to hold after some declarations, those included that have been replaced. -/
def ledger (earlier : List Registered) : List (String × String) :=
  Deposit.ledger (earlier.flatMap (·.kept))

/-- One more declaration may define its own key. -/
theorem defines_concat (earlier : List Registered) (r : Registered) (key : String) :
    defines (earlier ++ [r]) key =
      (defines earlier key || (decide (r.declaration.key = key) && r.finding.isDefinition)) := by
  unfold defines
  rw [List.any_append, List.any_cons, List.any_nil, Bool.or_false]

/-- One more declaration may give its own key another value. -/
theorem valueOf_concat (earlier : List Registered) (r : Registered) (key : String) :
    valueOf (earlier ++ [r]) key =
      if r.declaration.key = key then r.value?.or (valueOf earlier key)
      else valueOf earlier key := by
  unfold valueOf
  rw [List.reverse_concat, List.findSome?_cons]
  by_cases hkey : r.declaration.key = key
  · rw [if_pos hkey, if_pos hkey]
    cases r.value? <;> rfl
  · rw [if_neg hkey, if_neg hkey]

/-- What is put into the vault for one more declaration comes last. -/
theorem ledger_concat (earlier : List Registered) (r : Registered) :
    ledger (earlier ++ [r]) = ledger earlier ++ Deposit.ledger r.kept := by
  unfold ledger Deposit.ledger
  rw [List.flatMap_append, List.flatMap_append, List.flatMap_cons, List.flatMap_nil,
    List.append_nil]

/-- A key has a value when one of the declarations gives it one. -/
theorem isSome_valueOf_iff :
    (valueOf earlier key).isSome = true ↔
      ∃ r ∈ earlier, r.declaration.key = key ∧ r.value?.isSome = true := by
  unfold valueOf
  rw [List.findSome?_isSome_iff]
  constructor
  · -- The order does not matter for whether there is a value, only for which.
    rintro ⟨r, hr, hvalue⟩
    by_cases hkey : r.declaration.key = key
    · rw [if_pos hkey] at hvalue
      exact ⟨r, List.mem_reverse.mp hr, hkey, hvalue⟩
    · rw [if_neg hkey] at hvalue
      cases hvalue
  · rintro ⟨r, hr, hkey, hvalue⟩
    exact ⟨r, List.mem_reverse.mpr hr, by rwa [if_pos hkey]⟩

end Registered

/-! ## Finding something -/

/-- How a run asks the stores: how they answer, how long it waits at most, and for whom it asks. -/
structure Inquiry where
  answer : (q : Query) → Response q.Answer
  limit : Option Duration
  organization : String

namespace Inquiry

/-- The secret of a credential, if there is one that the organization may use. -/
def credential (i : Inquiry) (id : String) : Except BindingError CredentialSecret :=
  CredentialSecret.outcome i.limit id i.organization (i.answer (.credential id i.organization))
    i.answer

/-- An external secret, if the store has it. -/
def secret (i : Inquiry) (key : String) : Except BindingError (Option String) :=
  (i.answer (.secret key)).outcome i.limit (Surroundings.describe key (.secret key))

/-- The credential that a parameter designates after some declarations: the text under the key that
it names, if that key is defined and has a value, and else what it names itself. -/
def designated (earlier : List Registered) (p : CredentialParameter) : Except BindingError String :=
  if p.credentialId = "" then .error (.credentialNotFound p.key)
  else if Registered.defines earlier p.credentialId then
    match Registered.valueOf earlier p.credentialId with
    | none => .ok p.credentialId
    | some (.text id) => .ok id
    | some .null => .error (.credentialNotFound p.key)
    | some _ => .error (.invalidCredentialReference p.credentialId)
  else .ok p.credentialId

/-- What is found for a declaration after some others, or why it cannot be registered. -/
def find (i : Inquiry) (earlier : List Registered) : Declaration → Except BindingError Finding
  | .binding b =>
    if b.parameter.type = .credentialId then
      match b.value.text? with
      | none => .error (.invalidCredentialReference b.parameter.key)
      | some id => (i.credential id).map .credential
    else .ok (.literal b.value)
  | .output p =>
    if Registered.defines earlier p.key then .error (.outputKeyCollision p.key) else .ok .unvalued
  | .secret (.credential p) =>
    (designated earlier p).bind fun id => (i.credential id).map .credential
  | .secret (.externalSecret p) =>
    (i.secret p.secretKey).map fun found => found.elim .missing .external
  | .context p => (Store.checkSource p).map fun _ => .unvalued

variable {i : Inquiry} {earlier done : List Registered} {r : Registered} {key : String}

/-- The id of a credential has to be a text. -/
theorem find_binding_of_no_text {b : WorkflowBinding} (htype : b.parameter.type = .credentialId)
    (htext : b.value.text? = none) :
    i.find earlier (.binding b) = .error (.invalidCredentialReference b.parameter.key) :=
  (if_pos htype).trans (by rw [htext])

/-- Under the id of a credential its secret is found. -/
theorem find_binding_of_text {b : WorkflowBinding} {id : String}
    (htype : b.parameter.type = .credentialId) (htext : b.value.text? = some id) :
    i.find earlier (.binding b) = (i.credential id).map .credential :=
  (if_pos htype).trans (by rw [htext])

/-- Declarations are registered one after the other: for each of them there was what was found, and
that was put into the vault. -/
inductive Registers (i : Inquiry) : List Registered → Prop
  | nil : Registers i []
  | concat {earlier : List Registered} {r : Registered} (before : Registers i earlier)
    (found : i.find earlier r.declaration = .ok r.finding)
    (kept : r.kept.map Prod.fst = r.finding.deposits) : Registers i (earlier ++ [r])

/-- A declaration gives a value to its key: it is a workflow parameter, a credential, or an external
secret that the store has. -/
def Provides (i : Inquiry) : Declaration → Prop
  | .binding _ | .secret (.credential _) => True
  | .secret (.externalSecret p) => ∃ text, i.secret p.secretKey = .ok (some text)
  | .output _ | .context _ => False

/-- Some declaration of a run gives a value to a key: a workflow parameter, a credential, or an
external secret that the store has. -/
theorem provides_iff {declarations : Declarations} :
    (∃ declaration ∈ declarations.inOrder, declaration.key = key ∧ i.Provides declaration) ↔
      (∃ b ∈ declarations.bindings, b.parameter.key = key) ∨
        (∃ p, .credential p ∈ declarations.secrets ∧ p.key = key) ∨
        ∃ p text, .externalSecret p ∈ declarations.secrets ∧ p.key = key ∧
          i.secret p.secretKey = .ok (some text) := by
  rw [Declarations.exists_mem_inOrder]
  constructor
  · rintro (⟨b, hb, hkey, -⟩ | ⟨_, _, _, hno⟩ | ⟨p, hp, hkey, hprovides⟩ | ⟨_, _, _, hno⟩)
    · exact .inl ⟨b, hb, hkey⟩
    · exact hno.elim
    · cases p with
      | credential p => exact .inr (.inl ⟨p, hp, hkey⟩)
      | externalSecret p =>
        obtain ⟨text, htext⟩ := hprovides
        exact .inr (.inr ⟨p, text, hp, hkey, htext⟩)
    · exact hno.elim
  · rintro (⟨b, hb, hkey⟩ | ⟨p, hp, hkey⟩ | ⟨p, text, hp, hkey, htext⟩)
    · exact .inl ⟨b, hb, hkey, trivial⟩
    · exact .inr (.inr (.inl ⟨_, hp, hkey, trivial⟩))
    · exact .inr (.inr (.inl ⟨_, hp, hkey, text, htext⟩))

/-- What is made of something comes from what it was. -/
theorem of_map_ok {ε α β : Type} {f : α → β} {found : Except ε α} {b : β}
    (h : found.map f = .ok b) : ∃ a, found = .ok a ∧ f a = b := by
  cases found with
  | error e => cases h
  | ok a => exact ⟨a, rfl, Except.ok.inj h⟩

/-- What is found for a declaration is a value when it gives one. -/
theorem isValue_iff_provides {declaration : Declaration} {finding : Finding}
    (h : i.find earlier declaration = .ok finding) :
    finding.isValue = true ↔ i.Provides declaration := by
  match declaration with
  | .binding b =>
    refine iff_of_true ?_ trivial
    -- A binding always has a value: the literal one, or the handles of the credential it names.
    by_cases htype : b.parameter.type = .credentialId
    · cases htext : b.value.text? with
      | none =>
        rw [find_binding_of_no_text htype htext] at h
        cases h
      | some id =>
        rw [find_binding_of_text htype htext] at h
        obtain ⟨secret, -, rfl⟩ := of_map_ok h
        rfl
    · cases (if_neg htype).symm.trans h
      rfl
  | .output p =>
    -- Outputs are defined before anything is known of their value.
    refine iff_of_false (fun hvalue => ?_) id
    by_cases hkey : Registered.defines earlier p.key = true
    · cases (if_pos hkey).symm.trans h
    · cases (if_neg hkey).symm.trans h
      cases hvalue
  | .secret (.credential p) =>
    refine iff_of_true ?_ trivial
    have hbind : (designated earlier p).bind
        (fun id => (i.credential id).map .credential) = .ok finding := h
    cases hid : designated earlier p with
    | error e =>
      rw [hid] at hbind
      cases hbind
    | ok id =>
      rw [hid] at hbind
      obtain ⟨secret, -, rfl⟩ := of_map_ok hbind
      rfl
  | .secret (.externalSecret p) =>
    -- An external secret alone can be registered without being there.
    show _ ↔ ∃ text, i.secret p.secretKey = .ok (some text)
    obtain ⟨found, hfound, rfl⟩ := of_map_ok h
    rw [hfound]
    cases found with
    | none => exact iff_of_false nofun nofun
    | some text => exact iff_of_true rfl ⟨text, rfl⟩
  | .context p =>
    obtain ⟨-, -, rfl⟩ := of_map_ok h
    exact iff_of_false nofun id

/-- What was found for each declaration, after the ones before it, is in the vault. -/
theorem Registers.of_mem (h : i.Registers done) (hr : r ∈ done) :
    ∃ earlier, i.find earlier r.declaration = .ok r.finding ∧
      r.kept.map Prod.fst = r.finding.deposits := by
  induction h with
  | nil => cases hr
  | @concat earlier last _ found kept ih =>
    rcases List.mem_append.mp hr with hearlier | hlast
    · exact ih hearlier
    · cases List.mem_singleton.mp hlast
      exact ⟨earlier, found, kept⟩

/-- The keys that have values are those of the declarations that give one. -/
theorem Registers.isSome_valueOf_iff (h : i.Registers done) :
    (Registered.valueOf done key).isSome = true ↔
      ∃ declaration ∈ done.map (·.declaration), declaration.key = key ∧
        i.Provides declaration := by
  have hvalue : ∀ r ∈ done, (r.value?.isSome = true ↔ i.Provides r.declaration) := by
    intro r hr
    obtain ⟨earlier, found, kept⟩ := h.of_mem hr
    rw [Registered.isSome_value? kept, isValue_iff_provides found]
  rw [Registered.isSome_valueOf_iff]
  constructor
  · rintro ⟨r, hr, hkey, hsome⟩
    exact ⟨r.declaration, List.mem_map_of_mem hr, hkey, (hvalue r hr).mp hsome⟩
  · rintro ⟨_, hdeclaration, hkey, hprovides⟩
    obtain ⟨r, hr, rfl⟩ := List.mem_map.mp hdeclaration
    exact ⟨r, hr, hkey, (hvalue r hr).mpr hprovides⟩

end Inquiry

end RunParams
