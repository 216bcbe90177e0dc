import MathSpeech.Atom
import MathSpeech.Notice
import MathSpeech.Selection

/-!
# Store — rules under preconditions

A **store** holds an atom for each rule key and, in the order of registration, the preconditions
that lead to the keys.  It is filled by definitions:

* `Store.define` and `Store.defineMappings` read rule texts, one or many;
* `Store.addRule` takes actions that are read already;
* `Store.defineAlias` adds a precondition to a key that has an atom.

A definition that is not well formed is reported and skipped, and changes nothing.  A frozen store
refuses all definitions.
-/

namespace MathSpeech

open Rule (Action Precondition)

/-- **What a store is made for**; a store for MathML has shorthands for its elements. -/
inductive Store.Kind
  | plain
  | mathml
deriving DecidableEq, Repr

/-- The name of a kind of store. -/
def Store.Kind.name : Store.Kind → Text
  | .plain => "SpeechRuleStore"
  | .mathml => "MathmlStore"

/-- **A store** of speech rules. -/
structure Store where
  kind : Store.Kind := .plain
  /-- Whether applied rules are reported. -/
  debug : Bool := false
  /-- The domain and the style of a lookup that names none. -/
  defaultDomain : Text := defaultName
  defaultStyle : Text := defaultName
  /-- The atom of each key. -/
  atoms : OrderedMap Text Atom := .empty
  /-- The preconditions with the keys they lead to, in the order of registration. -/
  entries : List Entry := []
  frozen : Bool := false
  /-- The domains, styles and categories of all atoms. -/
  domains : List Text := []
  styles : List Text := []
  categories : List Text := []
deriving DecidableEq

/-- **A refusal**: the store is frozen. -/
structure Refusal where
  operation : Text
deriving DecidableEq, Repr

/-- The wording of a refusal. -/
def Refusal.message (r : Refusal) : Text := "Cannot " ++ r.operation ++ ": rule store is frozen"

/-- **What a definition brings about**: its answer, the store after it and what it reports. -/
structure Store.Change (α : Type) where
  value : α
  store : Store
  notices : List Notice := []

namespace Store

/-! ## Domains and styles -/

/-- **A domain and a style** joined by a point: both sides are there, and no other point. -/
def splitDomain? (t : Text) : Option (Text × Text) :=
  match Text.parts '.' t with
  | [domain, style] => if domain.isEmpty || style.isEmpty then none else some (domain, style)
  | _ => none

/-- A domain and a style that may be joined by a point. -/
def validPair (domain style : Text) : Bool :=
  !(domain.isEmpty || style.isEmpty || '.' ∈ domain || '.' ∈ style)

/-- A domain and a style joined by a point. -/
def joinDomain (domain style : Text) : Text := domain ++ '.' :: style

/-! ## Definitions -/

/-- Adds to a list what it does not yet hold, one after the other. -/
def appendUnique (known : List Text) : List Text → List Text
  | [] => known
  | t :: rest => appendUnique (if t ∈ known then known else known ++ [t]) rest

/-- The atom of a key, or a new one of that category. -/
def atomFor (s : Store) (key category : Text) : Atom :=
  (s.atoms.get? key).getD (Atom.new key category)

/-- **Registration**: the actions go into the atom of the key, and the precondition to the end of
the entries.  A new atom gets the category; one that exists keeps its own. -/
def register (s : Store) (key category : Text) (p : Precondition)
    (placed : List (Text × Text × Action)) : Store :=
  let atom := (s.atomFor key category).addAll placed
  { s with
    atoms := s.atoms.insert key atom
    entries := s.entries ++ [(p, key)]
    domains := appendUnique s.domains atom.domains
    styles := appendUnique s.styles atom.styles
    categories := if atom.category.isEmpty then s.categories
      else appendUnique s.categories [atom.category] }

/-- The store after a registration, with the report of it. -/
def registered (s : Store) (key category : Text) (p : Precondition)
    (placed : List (Text × Text × Action)) (notices : List Notice) : Change Bool where
  value := true
  store := s.register key category p placed
  notices := notices ++ [.added key p.print]

/-- **Adding a rule** whose actions are read already; the answer is its atom. -/
def addRule (s : Store) (key category : Text) (p : Precondition)
    (placed : List (Text × Text × Action)) : Except Refusal (Change Atom) :=
  if s.frozen then .error ⟨"add rule"⟩
  else .ok {
    value := (s.atomFor key category).addAll placed
    store := s.register key category p placed
    notices := [.added key p.print] }

/-- **Defining a rule** from its text for one domain and style; the answer is whether it was
added. -/
def define (s : Store) (key category domain text query : Text) (constraints : List Text) :
    Except Refusal (Change Bool) :=
  if s.frozen then .error ⟨"define rule"⟩
  else match splitDomain? domain with
    | none =>
      .ok { value := false, store := s
            notices := [.skipped key "definition" ("Invalid domain assignment " ++ domain.quoted)] }
    | some (outer, style) =>
      match Action.parse text with
      | .error fault =>
        .ok { value := false, store := s, notices := [.skipped key "parse" fault.message] }
      | .ok action =>
        .ok (s.registered key category ⟨query, constraints⟩ [(outer, style, action)] [])

/-- **The rule texts that can be used** among those of several domains and styles, and the notices
about the others; the others are named in the second list. -/
def readMappings (key : Text) : List (Text × Text × Text) →
    List (Text × Text × Action) × List Text × List Notice
  | [] => ([], [], [])
  | (domain, style, text) :: rest =>
    let (placed, dropped, notices) := readMappings key rest
    let name := joinDomain domain style
    if validPair domain style then
      match Action.parse text with
      | .ok action => ((domain, style, action) :: placed, dropped, notices)
      | .error fault =>
        (placed, name :: dropped, .skipped key "parse" (name ++ ": " ++ fault.message) :: notices)
    else
      (placed, name :: dropped,
        .skipped key "definition" ("Invalid domain assignment " ++ name) :: notices)

/-- **Defining a rule** from its texts for several domains and styles.  It is added if one of them
can be used; the answer also names the texts that cannot. -/
def defineMappings (s : Store) (key category : Text) (mappings : Mappings Text) (query : Text)
    (constraints : List Text) : Except Refusal (Change (Bool × List Text)) :=
  if s.frozen then .error ⟨"define rule"⟩
  else
    let (placed, dropped, notices) := readMappings key mappings.triples
    if placed.isEmpty then .ok { value := (false, dropped), store := s, notices }
    else
      let change := s.registered key category ⟨query, constraints⟩ placed notices
      .ok { value := (true, dropped), store := change.store, notices := change.notices }

/-- **Defining an alias**: another precondition for a key that has an atom. -/
def defineAlias (s : Store) (key query : Text) (constraints : List Text) :
    Except Refusal (Change Bool) :=
  if s.frozen then .error ⟨"define rule alias"⟩
  else if s.atoms.contains key then
    .ok { value := true, store := { s with entries := s.entries ++ [(⟨query, constraints⟩, key)] } }
  else
    .ok { value := false, store := s
          notices := [.skipped key "alias" "Invalid rules. No alias defined."] }

/-- **Freezing**: from now on the store is only read. -/
def freeze (s : Store) : Store := { s with frozen := true }

/-! ## Shorthands for MathML -/

/-- The category of rules for MathML. -/
def mathmlCategory : Text := "Mathml"

/-- The query that selects a MathML element of a name. -/
def elementQuery (name : Text) : Text := "self::mathml:" ++ name

/-- Defines a rule for the MathML element whose name is the key. -/
def defineMathml (s : Store) (key domain text : Text) : Except Refusal (Change Bool) :=
  s.define key mathmlCategory domain text (elementQuery key) []

/-- Defines the default rule for the MathML element whose name is the key. -/
def defineDefaultMathml (s : Store) (key text : Text) : Except Refusal (Change Bool) :=
  s.defineMathml key (joinDomain defaultName defaultName) text

/-! ## What a store tells about itself -/

/-- The number of rule keys. -/
def size (s : Store) : Nat := s.atoms.size

/-- The preconditions that lead to a key, in the order of registration. -/
def preconditionsFor (s : Store) (key : Text) : List Precondition :=
  (s.entries.filter fun e => e.2 = key).map Prod.fst

/-- The listings of all atoms. -/
def listings (s : Store) : List Text := s.atoms.values.map Atom.listing

/-- The short form of the store. -/
def summary (s : Store) : Text :=
  s.kind.name ++ "(rules=" ++ Text.ofNat s.size
    ++ ", preconditions=" ++ Text.ofNat s.entries.length
    ++ ", frozen=" ++ (if s.frozen then "True".toList else "False".toList) ++ ")"

end Store

end MathSpeech
