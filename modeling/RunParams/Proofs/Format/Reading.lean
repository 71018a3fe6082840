import RunParams.Parameter.Format
import RunParams.Proofs.KeyMaps

/-!
# Reading values back

What a decoder reads from a value that is at hand, or was set aside, depends neither on where the
value comes from nor on how deep it is nested (`Decoder.Reads`). Here are the rules by which such
readings are put together: scalars, options, lists, records and tagged alternatives.

A record is read from its members (`Decoder.ReadsMembers`), field by field: in sorted members a key
occurs once, so each field is read from the one value that stands under its key. A tagged
alternative takes the tag out of the members and reads the record from the others.
-/

namespace RunParams

/-! ## Sources without flaws -/

/-- The members of an object as sources. -/
def Source.atHand (origin : Origin) (depth : Nat) (members : List (String × Json)) :
    List (String × Source) :=
  members.map fun m => (m.1, ⟨origin, depth, .whole m.2⟩)

/-- Members stay sorted as sources. -/
theorem Entries.Sorted.atHand {members : List (String × Json)} (h : Entries.Sorted members)
    (origin : Origin) (depth : Nat) : Entries.Sorted (Source.atHand origin depth members) :=
  List.pairwise_map.mpr h

/-- A source that is no text shows an object with some members. -/
def Source.Shows (s : Source) (members : List (String × Json)) : Prop :=
  s.origin ≠ .text ∧ ∃ depth, s.shape = .record (atHand s.origin depth members) none

namespace Decoder

variable {α β : Type} {decoder : Decoder α} {a : α} {value : Json} {origin : Origin}
  {depth : Nat} {members : List (String × Json)}

/-- From a value that is no text a decoder reads something, however deep the value is nested. -/
def Reads (decoder : Decoder α) (value : Json) (a : α) : Prop :=
  ∀ origin depth, origin ≠ .text → decoder ⟨origin, depth, .whole value⟩ = .ok a

/-- From an object with some members a decoder reads something, be it at hand or set aside. -/
def ReadsMembers (decoder : Decoder α) (members : List (String × Json)) (a : α) : Prop :=
  ∀ s : Source, s.Shows members → decoder s = .ok a

/-- What is read from the members of an object is read from the object. -/
theorem ReadsMembers.reads (h : decoder.ReadsMembers members a) :
    decoder.Reads (.object members) a :=
  fun _ depth horigin => h _ ⟨horigin, depth - 1, rfl⟩

/-- Only a text can be nested too deep. -/
theorem enter_of_ne_text {s : Source} (h : s.origin ≠ .text) : s.enter = .ok () :=
  if_neg fun htext => h htext.1

/-! ## Scalars, options and lists -/

/-- A text is read back. -/
theorem reads_text (value : String) : text.Reads (.text value) value := fun _ _ _ => rfl

/-- Any value is read back. -/
theorem reads_any (value : Json) : any.Reads value value := fun _ _ _ => rfl

/-- The name of an alternative is read back. -/
theorem reads_variant {variants : List (String × α)} {name : String}
    (h : Entries.find name variants = some a) : (variant variants).Reads (.text name) a := by
  intro origin depth _
  show choose variants name = .ok a
  unfold choose
  rw [h]

/-- What is read is changed. -/
theorem ReadsMembers.apply (h : decoder.ReadsMembers members a) (f : α → β) :
    (decoder.apply f).ReadsMembers members (f a) := by
  intro s hs
  unfold Decoder.apply
  rw [h s hs]
  rfl

/-- Null is read as nothing. -/
theorem reads_option_null (decoder : Decoder α) : (option decoder).Reads .null none :=
  fun _ _ _ => rfl

/-- A value that is not null is read as something. -/
theorem Reads.option_some (h : decoder.Reads value a) (hnull : value.isNull = false) :
    (option decoder).Reads value (some a) := by
  intro origin depth horigin
  have hread := h origin depth horigin
  unfold option
  cases value with
  | null => cases hnull
  | bool _ | number _ | text _ | array _ | object _ =>
    show some <$> decoder _ = _
    rw [hread]
    rfl

/-- A value that may be missing, and is not written as null, is read back. -/
theorem Reads.option {encode : α → Json} (h : ∀ a, decoder.Reads (encode a) a)
    (hnull : ∀ a, (encode a).isNull = false) (o : Option α) :
    (option decoder).Reads (.option encode o) o := by
  cases o with
  | none => exact reads_option_null decoder
  | some a => exact (h a).option_some (hnull a)

/-- Any value that may be missing is read back, but null is read as nothing. -/
theorem reads_option_any (o : Option Json) :
    (option any).Reads (.option id o) (o.filter fun value => !value.isNull) := by
  cases o with
  | none => exact reads_option_null any
  | some value =>
    cases hnull : value.isNull with
    | true =>
      cases value with
      | null => exact reads_option_null any
      | _ => cases hnull
    | false =>
      rw [Option.filter_some, hnull]
      exact (reads_any value).option_some hnull

/-- What is read from each item of a list. -/
theorem mapM_read {ι κ : Type} {f : ι → Except DecodeError α} {g : κ → ι} {read : κ → α}
    {xs : List κ} (h : ∀ x ∈ xs, f (g x) = .ok (read x)) :
    (xs.map g).mapM f = .ok (xs.map read) := by
  induction xs with
  | nil => rfl
  | cons x xs ih =>
    rw [List.map_cons, List.mapM_cons, h x List.mem_cons_self,
      ih fun y hy => h y (List.mem_cons_of_mem x hy)]
    rfl

/-- A list is read item by item. -/
theorem Reads.list {encode : β → Json} {read : β → α} {xs : List β}
    (h : ∀ x ∈ xs, decoder.Reads (encode x) (read x)) :
    (list decoder).Reads (.array (xs.map encode)) (xs.map read) := by
  intro origin depth horigin
  have hitems : ((xs.map encode).map fun j => (⟨origin, depth - 1, .whole j⟩ : Source)).mapM
      (fun s => decoder s) = .ok (xs.map read) := by
    rw [List.map_map]
    exact mapM_read fun x hx => h x hx origin (depth - 1) horigin
  have hlist : Decoder.list decoder ⟨origin, depth, .whole (.array (xs.map encode))⟩ = (do
      Source.enter ⟨origin, depth, .whole (.array (xs.map encode))⟩
      let values ← ((xs.map encode).map fun j => (⟨origin, depth - 1, .whole j⟩ : Source)).mapM
        (fun s => decoder s)
      stopped none
      return values) := rfl
  rw [hlist, enter_of_ne_text horigin, hitems]
  rfl

/-! ## Records -/

/-- The parts of a record with some members. -/
def Parts.ofMembers (what : String) (names : List String) (origin : Origin) (depth : Nat)
    (members : List (String × Json)) : Parts :=
  ⟨what, names, origin, .inl (Source.atHand origin depth members), none⟩

/-- The members with a key, each with its place, counted from `first`. -/
def Parts.occurrencesFrom (first : Nat) (key : String) (members : List (String × Source)) :
    List (Nat × Source) :=
  (members.zipIdx first).filterMap fun (m, i) => if m.1 = key then some (i, m.2) else none

/-- The first member occurs if it has the key. -/
theorem Parts.occurrencesFrom_cons (first : Nat) (key : String) (m : String × Source)
    (rest : List (String × Source)) :
    occurrencesFrom first key (m :: rest) =
      if m.1 = key then (first, m.2) :: occurrencesFrom (first + 1) key rest
      else occurrencesFrom (first + 1) key rest := by
  unfold occurrencesFrom
  rw [List.zipIdx_cons]
  by_cases hkey : m.1 = key
  · rw [if_pos hkey]
    exact List.filterMap_cons_some (if_pos hkey)
  · rw [if_neg hkey]
    exact List.filterMap_cons_none (if_neg hkey)

/-- A key that is not among some members does not occur in them. -/
theorem Parts.occurrencesFrom_eq_nil {key : String} {members : List (String × Source)}
    (h : Entries.find key members = none) (first : Nat) :
    occurrencesFrom first key members = [] := by
  induction members generalizing first with
  | nil => rfl
  | cons m rest ih =>
    have hkey := Entries.find_eq_none_iff.mp h m List.mem_cons_self
    rw [Entries.find_cons, if_neg hkey] at h
    rw [occurrencesFrom_cons, if_neg hkey, ih h]

/-- In sorted members a key occurs once. -/
theorem Parts.occurrencesFrom_eq_singleton {key : String} {members : List (String × Source)}
    {s : Source} (hsorted : Entries.Sorted members) (h : Entries.find key members = some s)
    (first : Nat) : ∃ i, occurrencesFrom first key members = [(i, s)] := by
  induction members generalizing first with
  | nil => cases h
  | cons m rest ih =>
    rw [Entries.find_cons] at h
    rw [occurrencesFrom_cons]
    -- The names are sorted and so distinct: there is no second member of this name.
    by_cases hkey : m.1 = key
    · rw [if_pos hkey] at h ⊢
      have hrest : Entries.find key rest = none := hkey ▸ hsorted.find_rest
      rw [occurrencesFrom_eq_nil hrest, Option.some.inj h]
      exact ⟨first, rfl⟩
    · rw [if_neg hkey] at h ⊢
      exact ih (List.pairwise_cons.mp hsorted).2 h (first + 1)

/-- From some parts each of some fields can be read, whatever its place. -/
def Parts.Hold (p : Parts) (fields : List (String × Json)) : Prop :=
  ∀ (α : Type) (key : String) (value : Json) (decoder : Decoder α) (a : α) (missing : Option α),
    Entries.find key fields.reverse = some value → decoder.Reads value a →
      p.field key decoder missing = Except.ok a

/-- A field that must be there is read from its value. -/
theorem Parts.Hold.required {p : Parts} {fields : List (String × Json)} {key : String}
    (hp : p.Hold fields) (hfind : Entries.find key fields.reverse = some value)
    (h : decoder.Reads value a) : p.required key decoder = Except.ok a :=
  hp α key value decoder a none hfind h

/-- A field that may be left out is read from its value if it is there. -/
theorem Parts.Hold.defaulted {p : Parts} {fields : List (String × Json)} {key : String}
    (hp : p.Hold fields) (hfind : Entries.find key fields.reverse = some value)
    (h : decoder.Reads value a) (missing : α) :
    p.defaulted key decoder missing = Except.ok a :=
  hp α key value decoder a (some missing) hfind h

/-- From the parts of a record its fields can be read. -/
theorem Parts.hold_ofMembers (what : String) (names : List String) (horigin : origin ≠ .text)
    (depth : Nat) (fields : List (String × Json)) :
    (ofMembers what names origin depth (Entries.sort fields)).Hold fields := by
  intro α key value decoder a missing hfind h
  have hsource : Entries.find key (Source.atHand origin depth (Entries.sort fields)) =
      some ⟨origin, depth, .whole value⟩ := by
    unfold Source.atHand
    rw [Entries.find_map fun j => (⟨origin, depth, .whole j⟩ : Source), Entries.find_sort, hfind]
    rfl
  obtain ⟨i, hoccurs⟩ := Parts.occurrencesFrom_eq_singleton
    ((Entries.sorted_sort fields).atHand origin depth) hsource 0
  -- A member that occurs once is read there and then.
  have honce : occurrences key (Source.atHand origin depth (Entries.sort fields)) =
      [(i, ⟨origin, depth, .whole value⟩)] := hoccurs
  unfold field ofMembers
  simp only [honce]
  rw [h origin depth horigin]
  rfl

/-- Passing over members that are without problems meets no problem. -/
theorem foldr_eq_of_fixed {ι κ : Type} {f : ι → κ → κ} {z : κ} {xs : List ι}
    (h : ∀ x ∈ xs, f x z = z) : xs.foldr f z = z := by
  induction xs with
  | nil => rfl
  | cons x xs ih =>
    rw [List.foldr_cons, ih fun y hy => h y (List.mem_cons_of_mem x hy)]
    exact h x List.mem_cons_self

/-- Members without flaws are passed over without a problem. -/
theorem Parts.others_eq (what : String) (names : List String) (origin : Origin) (depth : Nat)
    (members : List (String × Json)) :
    (ofMembers what names origin depth members).others = Except.ok () := by
  refine foldr_eq_of_fixed fun m hm => ?_
  obtain ⟨⟨key, s⟩, i⟩ := m
  have hmember : (key, s) ∈ Source.atHand origin depth members :=
    List.fst_mem_of_mem_zipIdx (List.mem_filter.mp hm).1
  obtain ⟨j, -, hj⟩ := List.mem_map.mp hmember
  cases hj
  rfl

/-- A record is read when its fields are. -/
theorem readsMembers_record {what : String} {names : List String} {read : Parts → Reading α}
    {fields : List (String × Json)} (h : ∀ p : Parts, p.Hold fields → read p = Except.ok a) :
    (record what names read).ReadsMembers (Entries.sort fields) a := by
  rintro s ⟨horigin, depth, hshape⟩
  have hread := h _ (Parts.hold_ofMembers what names horigin depth fields)
  have hothers := Parts.others_eq what names s.origin depth (Entries.sort fields)
  unfold record
  rw [hshape]
  show (do
    s.enter
    ((fun _ a => a) <$> (Parts.ofMembers what names s.origin depth (Entries.sort fields)).others <*>
      read (Parts.ofMembers what names s.origin depth (Entries.sort fields))).run) = _
  rw [enter_of_ne_text horigin, hothers, hread]
  rfl

/-! ## Tagged alternatives -/

section Tagged

variable {tag name : String} {choose : String → Except DecodeError α}

/-- Members without the tag are set aside. -/
theorem findTag_of_absent (h : Entries.find tag members = none) (found : Option α) :
    findTag tag choose found (Source.atHand origin depth members) = .ok found := by
  induction members with
  | nil => rfl
  | cons m rest ih =>
    have hkey := Entries.find_eq_none_iff.mp h m List.mem_cons_self
    rw [Entries.find_cons, if_neg hkey] at h
    show (if m.1 = tag then _ else do
      setAside _
      findTag tag choose found (Source.atHand origin depth rest)) = _
    rw [if_neg hkey, ih h]
    rfl

/-- The tag of sorted members is found. -/
theorem findTag_of_find (hsorted : Entries.Sorted members)
    (h : Entries.find tag members = some (.text name)) (hchoose : choose name = .ok a) :
    findTag tag choose none (Source.atHand origin depth members) = .ok (some a) := by
  induction members with
  | nil => cases h
  | cons m rest ih =>
    rw [Entries.find_cons] at h
    show (if m.1 = tag then do
        findTag tag choose (some (← identifier choose ⟨origin, depth, .whole m.2⟩))
          (Source.atHand origin depth rest)
      else do
        setAside ⟨origin, depth, .whole m.2⟩
        findTag tag choose none (Source.atHand origin depth rest)) = _
    -- The tag may stand anywhere; what stands before it is set aside.
    by_cases hkey : m.1 = tag
    · rw [if_pos hkey] at h ⊢
      have hidentifier : identifier choose ⟨origin, depth, .whole m.2⟩ = .ok a := by
        rw [Option.some.inj h]
        exact hchoose
      rw [hidentifier]
      exact findTag_of_absent (hkey ▸ hsorted.find_rest) (some a)
    · rw [if_neg hkey] at h ⊢
      exact ih (List.pairwise_cons.mp hsorted).2 h

/-- Members that are set aside show the object that they make up. -/
theorem shows_asideRecord (depth inner : Nat) (origin : Origin) (members : List (String × Json)) :
    (asideRecord depth (Source.atHand origin inner members)).Shows members := by
  have hreadable : ∀ (s : Source) (members : List (String × Json)),
      s.readable ((Source.atHand origin inner members).map fun m => (.ok m.1, m.2.document)) none =
        (Source.atHand s.origin (s.depth - 1) members, none) := by
    intro s members
    induction members with
    | nil => rfl
    | cons m rest ih =>
      have hcons : s.readable ((Source.atHand origin inner (m :: rest)).map fun m =>
            (.ok m.1, m.2.document)) none =
          (fun r => ((m.1, s.inside (.whole m.2)) :: r.1, r.2)) (s.readable
            ((Source.atHand origin inner rest).map fun m => (.ok m.1, m.2.document)) none) := rfl
      rw [hcons, ih]
      rfl
  refine ⟨nofun, depth - 1, ?_⟩
  have hshape : (asideRecord depth (Source.atHand origin inner members)).shape =
      (fun r => Shape.record r.1 r.2) (Source.readable
        (asideRecord depth (Source.atHand origin inner members))
        ((Source.atHand origin inner members).map fun m => (.ok m.1, m.2.document)) none) := rfl
  rw [hshape, hreadable]
  rfl

/-- When the tag has been found, the other members are read as the alternative that it names. -/
theorem tagged_of_found {what : String} {variants : List (String × Decoder α)} {s : Source}
    {members : List (String × Source)} (hshape : s.shape = .record members none)
    (henter : s.enter = .ok ())
    (hfound : findTag tag (Decoder.choose variants) none members = .ok (some decoder)) :
    tagged what tag variants s =
      decoder (asideRecord s.depth (members.filter fun m => m.1 ≠ tag)) := by
  unfold tagged
  rw [hshape]
  simp only [henter, hfound]
  rfl

/-- A tagged alternative is read when the record is that the other members make up. -/
theorem reads_tagged {what : String} {variants : List (String × Decoder α)}
    {fields : List (String × Json)} (habsent : Entries.find tag fields.reverse = none)
    (hvariant : Entries.find name variants = some decoder)
    (h : decoder.ReadsMembers (Entries.sort fields) a) :
    (tagged what tag variants).Reads (.ofMembers ((tag, .text name) :: fields)) a := by
  intro origin depth horigin
  have hchoose : Decoder.choose variants name = .ok decoder := by
    unfold Decoder.choose
    rw [hvariant]
  have htag : Entries.find tag (Entries.sort ((tag, .text name) :: fields)) =
      some (.text name) := by
    rw [Entries.find_sort, List.reverse_cons, Entries.find_append, habsent, Entries.find_cons,
      if_pos rfl]
    rfl
  have hfound : findTag tag (Decoder.choose variants) none (Source.atHand origin (depth - 1)
      (Entries.sort ((tag, .text name) :: fields))) = .ok (some decoder) :=
    findTag_of_find (Entries.sorted_sort _) htag hchoose
  -- What is left without the tag is what the variant was written as.
  have hothers : (Source.atHand origin (depth - 1)
        (Entries.sort ((tag, .text name) :: fields))).filter (fun m => m.1 ≠ tag) =
      Source.atHand origin (depth - 1) (Entries.sort fields) := by
    rw [← Entries.erase_sort_cons habsent (.text name)]
    unfold Source.atHand Entries.erase
    rw [List.filter_map]
    rfl
  have htagged : tagged what tag variants
        ⟨origin, depth, .whole (.ofMembers ((tag, .text name) :: fields))⟩ =
      decoder (asideRecord depth ((Source.atHand origin (depth - 1)
        (Entries.sort ((tag, .text name) :: fields))).filter fun m => m.1 ≠ tag)) :=
    tagged_of_found rfl (enter_of_ne_text horigin) hfound
  rw [htagged, hothers]
  exact h _ (shows_asideRecord depth (depth - 1) origin _)

end Tagged

end Decoder

end RunParams
