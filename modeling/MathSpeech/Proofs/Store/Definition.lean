import MathSpeech.Store

/-!
# Proofs/Store/Definition — a definition registers or does nothing

A definition reaches a store by one of four calls.  Whichever it is, it is **performed** in one of
two ways: it is entered, its precondition at the end of the entries and its actions in the atom of
its key; or the store stays as it is (`Definition.perform_eq`).  A **registration** is what a
definition enters, and a list of definitions leaves a record of those that succeeded.
-/

namespace MathSpeech.Store

open Rule (Action Precondition)

/-! ## Definitions and registrations -/

/-- **A registration**: a key under a precondition, with the actions placed in the atom of the key.
The category counts if the key is new. -/
structure Registration where
  precondition : Precondition
  key : Text
  category : Text
  placed : List (Text × Text × Action)
deriving DecidableEq

/-- The entry of a registration. -/
def Registration.entry (r : Registration) : Entry := (r.precondition, r.key)

/-- **A definition**, as the arguments of the call that makes it. -/
inductive Definition
  /-- A rule text for one domain and style. -/
  | rule (key category domain text query : Text) (constraints : List Text)
  /-- Rule texts for several. -/
  | rules (key category : Text) (texts : Mappings Text) (query : Text) (constraints : List Text)
  /-- Actions that are read already. -/
  | actions (key category : Text) (p : Precondition) (placed : List (Text × Text × Action))
  /-- Another precondition for a rule. -/
  | other (key query : Text) (constraints : List Text)

/-- The action of a rule text, if the text can be used for its domain and style. -/
def usable? : Text × Text × Text → Option (Text × Text × Action)
  | (domain, style, text) =>
    if validPair domain style then
      (Action.parse text).toOption.map fun action => (domain, style, action)
    else none

namespace Definition

/-- **What a definition registers** if it succeeds. -/
def registration : Definition → Registration
  | rule key category domain text query constraints =>
    { key, category, precondition := ⟨query, constraints⟩
      placed := ((splitDomain? domain).bind fun (outer, style) =>
        (Action.parse text).toOption.map fun action => (outer, style, action)).toList }
  | rules key category texts query constraints =>
    { key, category, precondition := ⟨query, constraints⟩
      placed := texts.triples.filterMap usable? }
  | actions key category p placed => { key, category, precondition := p, placed }
  | other key query constraints =>
    { key, category := [], precondition := ⟨query, constraints⟩, placed := [] }

/-- The answer of a call, as success or failure, with the store after it; a refusal is a failure. -/
def settle {α : Type} (s : Store) (succeeded : α → Bool) :
    Except Refusal (Change α) → Bool × Store
  | .ok change => (succeeded change.value, change.store)
  | .error _ => (false, s)

/-- **Performing a definition**: whether it succeeded, and the store after it. -/
def perform (s : Store) : Definition → Bool × Store
  | rule key category domain text query constraints =>
    settle s id (s.define key category domain text query constraints)
  | rules key category texts query constraints =>
    settle s Prod.fst (s.defineMappings key category texts query constraints)
  | actions key category p placed => settle s (fun _ => true) (s.addRule key category p placed)
  | other key query constraints => settle s id (s.defineAlias key query constraints)

/-! ## What a definition does -/

/-- **A definition is in order**: there is something to register. -/
def inOrder (s : Store) : Definition → Bool
  | d@(rule ..) | d@(rules ..) => !d.registration.placed.isEmpty
  | actions .. => true
  | other key _ _ => s.atoms.contains key

/-- **The store with a definition entered.** -/
def enter (s : Store) (d : Definition) : Store :=
  match d with
  | other .. => { s with entries := s.entries ++ [d.registration.entry] }
  | _ => s.register d.registration.key d.registration.category d.registration.precondition
      d.registration.placed

theorem readMappings_fst (key : Text) (ts : List (Text × Text × Text)) :
    (readMappings key ts).1 = ts.filterMap usable? := by
  induction ts with
  | nil => rfl
  | cons t rest ih =>
    obtain ⟨domain, style, text⟩ := t
    simp only [readMappings, List.filterMap_cons, usable?]
    split
    · cases Action.parse text with
      | ok action => exact congrArg _ ih
      | error fault => exact ih
    · exact ih

/-- The texts that are named as dropped are those that cannot be used. -/
theorem readMappings_snd (key : Text) (ts : List (Text × Text × Text)) :
    (readMappings key ts).2.1
      = (ts.filter fun t => (usable? t).isNone).map fun t => joinDomain t.1 t.2.1 := by
  induction ts with
  | nil => rfl
  | cons t rest ih =>
    obtain ⟨domain, style, text⟩ := t
    simp only [readMappings, List.filter_cons, usable?]
    split
    · cases Action.parse text with
      | ok action => exact ih
      | error fault => exact congrArg _ ih
    · exact congrArg _ ih

theorem perform_rule (s : Store) (key category domain text query : Text)
    (constraints : List Text) :
    let d := rule key category domain text query constraints
    d.perform s = if !s.frozen && d.inOrder s then (true, d.enter s) else (false, s) := by
  intro d
  cases hfrozen : s.frozen with
  | true => simp [d, perform, define, settle, hfrozen]
  | false =>
    cases hdomain : splitDomain? domain with
    | none => simp [d, perform, define, settle, inOrder, registration, hfrozen, hdomain]
    | some pair =>
      cases htext : Action.parse text with
      | error fault =>
        simp [d, perform, define, settle, inOrder, registration, hfrozen, hdomain, htext,
          Except.toOption]
      | ok action =>
        simp [d, perform, define, settle, inOrder, enter, registered, registration, hfrozen,
          hdomain, htext, Except.toOption]

theorem perform_rules (s : Store) (key category : Text) (texts : Mappings Text) (query : Text)
    (constraints : List Text) :
    let d := rules key category texts query constraints
    d.perform s = if !s.frozen && d.inOrder s then (true, d.enter s) else (false, s) := by
  intro d
  have hplaced : (readMappings key texts.triples).1 = d.registration.placed :=
    readMappings_fst key texts.triples
  cases hfrozen : s.frozen with
  | true => simp [d, perform, defineMappings, settle, hfrozen]
  | false =>
    cases hempty : d.registration.placed.isEmpty with
    | true => simp [d, perform, defineMappings, settle, inOrder, hfrozen, hplaced, hempty]
    | false =>
      simp only [d, perform, defineMappings, settle, inOrder, hfrozen, hplaced, hempty]
      rfl

/-- **A definition is entered or does nothing**: it is entered if the store is not frozen and the
definition is in order. -/
theorem perform_eq (s : Store) (d : Definition) :
    d.perform s = if !s.frozen && d.inOrder s then (true, d.enter s) else (false, s) := by
  cases d with
  | rule key category domain text query constraints => exact perform_rule ..
  | rules key category texts query constraints => exact perform_rules ..
  | actions key category p placed =>
    cases hfrozen : s.frozen <;>
      simp [perform, addRule, settle, inOrder, enter, registration, hfrozen]
  | other key query constraints =>
    cases hfrozen : s.frozen <;> cases hkey : s.atoms.contains key <;>
      simp [perform, defineAlias, settle, inOrder, enter, registration, Registration.entry, hfrozen,
        hkey]

/-- The two ways to perform a definition. -/
theorem perform_cases (s : Store) (d : Definition) :
    d.perform s = (true, d.enter s) ∧ s.frozen = false ∧ d.inOrder s = true
      ∨ d.perform s = (false, s) := by
  rw [perform_eq]
  cases s.frozen <;> cases d.inOrder s <;> simp

theorem perform_of_frozen {s : Store} (h : s.frozen = true) (d : Definition) :
    d.perform s = (false, s) := by
  rw [perform_eq, h]
  rfl

theorem entries_enter (s : Store) (d : Definition) :
    (d.enter s).entries = s.entries ++ [d.registration.entry] := by
  cases d <;> rfl

theorem frozen_enter (s : Store) (d : Definition) : (d.enter s).frozen = s.frozen := by
  cases d <;> rfl

/-- **The atoms after a definition is entered**: that of its key gained the actions. -/
theorem get?_atoms_enter {s : Store} {d : Definition} (h : d.inOrder s = true) (key : Text) :
    (d.enter s).atoms.get? key = if d.registration.key = key then
      some ((s.atomFor key d.registration.category).addAll d.registration.placed)
      else s.atoms.get? key := by
  by_cases hkey : d.registration.key = key
  · rw [if_pos hkey]
    subst hkey
    cases d with
    | other key query constraints =>
      obtain ⟨atom, hatom⟩ := Option.isSome_iff_exists.mp h
      have hold : s.atomFor key [] = atom := by rw [atomFor, hatom, Option.getD_some]
      exact hatom.trans (congrArg some hold.symm)
    | _ => exact OrderedMap.get?_insert_self ..
  · rw [if_neg hkey]
    cases d with
    | other key query constraints => rfl
    | _ => exact (OrderedMap.get?_insert ..).trans (if_neg hkey)

end Definition

/-! ## Lists of definitions -/

/-- The store after definitions, one after the other. -/
def afterAll (s : Store) (ds : List Definition) : Store :=
  ds.foldl (fun s d => (d.perform s).2) s

/-- **The record of definitions**: the registrations of those that succeed, one after the other. -/
def record (s : Store) : List Definition → List Registration
  | [] => []
  | d :: rest => if (d.perform s).1 then d.registration :: record (d.perform s).2 rest
    else record (d.perform s).2 rest

theorem afterAll_cons (s : Store) (d : Definition) (ds : List Definition) :
    s.afterAll (d :: ds) = (d.perform s).2.afterAll ds := rfl

theorem afterAll_append (s : Store) (ds ds' : List Definition) :
    s.afterAll (ds ++ ds') = (s.afterAll ds).afterAll ds' := List.foldl_append

/-- A frozen store is not changed by definitions. -/
theorem afterAll_of_frozen {s : Store} (h : s.frozen = true) (ds : List Definition) :
    s.afterAll ds = s := by
  induction ds with
  | nil => rfl
  | cons d rest ih => rw [afterAll_cons, d.perform_of_frozen h, ih]

theorem frozen_afterAll (s : Store) (ds : List Definition) :
    (s.afterAll ds).frozen = s.frozen := by
  induction ds generalizing s with
  | nil => rfl
  | cons d rest ih =>
    rw [afterAll_cons, ih]
    obtain ⟨hd, -, -⟩ | hd := d.perform_cases s
    · rw [hd, d.frozen_enter]
    · rw [hd]

/-- The store after a registration. -/
def registerOne (s : Store) (r : Registration) : Store :=
  s.register r.key r.category r.precondition r.placed

/-- **Registrations, one after the other.** -/
def registerAll (s : Store) (rs : List Registration) : Store := rs.foldl registerOne s

theorem registerAll_cons (s : Store) (r : Registration) (rs : List Registration) :
    s.registerAll (r :: rs) = (s.registerOne r).registerAll rs := rfl

theorem entries_registerAll (s : Store) (rs : List Registration) :
    (s.registerAll rs).entries = s.entries ++ rs.map Registration.entry := by
  induction rs generalizing s with
  | nil => exact (List.append_nil s.entries).symm
  | cons r rest ih =>
    rw [registerAll_cons, ih, List.map_cons]
    exact List.append_assoc s.entries [r.entry] _

/-- **Definitions of which it is known beforehand which are in order** enter just these, in their
order.  What makes it known is a property of the store that definitions preserve. -/
theorem afterAll_eq_foldl_enter (Inv : Store → Prop) {inOrder : Definition → Bool}
    {ds : List Definition} (hfrozen : ∀ s, Inv s → s.frozen = false)
    (hstep : ∀ s, Inv s → ∀ d ∈ ds, d.inOrder s = inOrder d ∧ (inOrder d = true → Inv (d.enter s)))
    {s : Store} (hs : Inv s) :
    s.afterAll ds = (ds.filter inOrder).foldl (fun s d => d.enter s) s := by
  induction ds generalizing s with
  | nil => rfl
  | cons d rest ih =>
    have hrest := fun s hs d hd => hstep s hs d (List.mem_cons_of_mem _ hd)
    obtain ⟨horder, hnext⟩ := hstep s hs d List.mem_cons_self
    rw [afterAll_cons, d.perform_eq, hfrozen s hs, horder, List.filter_cons]
    cases hd : inOrder d with
    | true => exact ih hrest (hnext hd)
    | false => exact ih hrest hs

end MathSpeech.Store
