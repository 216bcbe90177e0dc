import MathSpeech.Mappings
import MathSpeech.Value.Written

/-!
# Table/Definition — the entries of a rule table

A rule table lists **rule definitions** and **alias definitions**.  Reading one from a value checks
every field and gives either the definition or all that is wrong with it, in the order of the
fields.  Nothing is converted, and fields of other names are passed over.
-/

namespace MathSpeech.Table

/-! ## What can be wrong -/

/-- **A problem** with a value. -/
inductive Problem
  | missing
  | notText
  | tooShort
  | notList
  | notMapping
  | notEntry
  | noRuleText
deriving DecidableEq, Repr

/-- **A step to a place** inside an entry: the name of a field or key, or a number. -/
inductive Step
  | name (t : Text)
  | number (n : Int)
deriving DecidableEq, Repr

/-- The step to the value of a key: truth values count as numbers, and so do integers of sixty-four
bits.  An integer of too many digits only shows as such. -/
def Step.ofKey : Value → Step
  | .text t => .name t
  | .int n =>
    if -9223372036854775808 ≤ n ∧ n ≤ 9223372036854775807 then .number n
    else if (Value.int n).isWritable then .name (.ofInt n)
    else .name "<unprintable int object>"
  | .bool b => .number (if b then 1 else 0)
  | v => .name v.shown

/-- **An issue**: a problem and the place where it is. -/
structure Issue where
  problem : Problem
  place : List Step
deriving DecidableEq, Repr

/-- A value that was checked: the value, or what is wrong with it. -/
abbrev Checked (α : Type) := Except (List Issue) α

namespace Checked

variable {α β : Type}

/-- Checks two things and gathers the issues of both. -/
def both (a : Checked α) (b : Checked β) : Checked (α × β) :=
  match a, b with
  | .ok a, .ok b => .ok (a, b)
  | .ok _, .error es => .error es
  | .error es, .ok _ => .error es
  | .error es, .error es' => .error (es ++ es')

/-- Checks a list of things and gathers the issues of all. -/
def all : List (Checked α) → Checked (List α)
  | [] => .ok []
  | c :: rest => (both c (all rest)).map fun (a, as) => a :: as

end Checked

/-! ## Checking values -/

/-- One issue. -/
def issue {α : Type} (problem : Problem) (place : List Step) : Checked α :=
  .error [{ problem, place }]

/-- A text. -/
def checkText (place : List Step) : Value → Checked Text
  | .text t => .ok t
  | _ => issue .notText place

/-- A text with something in it. -/
def checkFilled (place : List Step) : Value → Checked Text
  | .text [] => issue .tooShort place
  | v => checkText place v

/-- A list of texts. -/
def checkTexts (place : List Step) : Value → Checked (List Text)
  | .list items =>
    .all <| items.zipIdx.map fun (v, i) => checkText (place ++ [.number i]) v
  | _ => issue .notList place

/-- A key of a mapping, which has to be a text. -/
def checkKey (place : List Step) (k : Value) : Checked Text :=
  checkText (place ++ [.ofKey k, .name "[key]"]) k

/-- A mapping from texts; each key is checked before its value. -/
def checkMapping {α : Type} (check : List Step → Value → Checked α) (place : List Step) :
    Value → Checked (OrderedMap Text α)
  | .map entries =>
    (Checked.all <| entries.map fun (k, v) =>
      (checkKey place k).both (check (place ++ [.ofKey k]) v)).map OrderedMap.ofList
  | _ => issue .notMapping place

/-- Some domain has a style with a rule text. -/
def hasRuleText (m : Mappings Text) : Bool :=
  (OrderedMap.values m).any fun styles => !styles.isEmpty

/-- The rule texts of the domains and styles; there is at least one. -/
def checkMappings (place : List Step) (v : Value) : Checked (Mappings Text) :=
  match checkMapping (checkMapping checkText) place v with
  | .ok m => if hasRuleText m then .ok m else issue .noRuleText place
  | .error es => .error es

/-- A field that has to be there. -/
def required {α : Type} (check : List Step → Value → Checked α) (entry : Value) (name : Text) :
    Checked α :=
  match entry.get? name with
  | some v => check [.name name] v
  | none => issue .missing [.name name]

/-- A field that may be left out. -/
def optional {α : Type} (check : List Step → Value → Checked α) (default : α) (entry : Value)
    (name : Text) : Checked α :=
  match entry.get? name with
  | some v => check [.name name] v
  | none => .ok default

/-! ## Definitions -/

/-- **An alias definition**: a key with another precondition for its rule. -/
structure AliasDefinition where
  key : Text
  query : Text
  constraints : List Text := []
deriving DecidableEq

/-- **A rule definition**: a key with a precondition and rule texts. -/
structure RuleDefinition where
  key : Text
  query : Text
  constraints : List Text := []
  category : Text := []
  mappings : Mappings Text
deriving DecidableEq

/-- The fields that both kinds of definitions have. -/
def checkCommon (entry : Value) : Checked (Text × Text × List Text) :=
  (required checkFilled entry "key").both
    ((required checkFilled entry "query").both (optional checkTexts [] entry "constraints"))

/-- **Reading an alias definition.** -/
def AliasDefinition.read (entry : Value) : Checked AliasDefinition :=
  if entry.isMap then
    (checkCommon entry).map fun (key, query, constraints) => { key, query, constraints }
  else issue .notEntry []

/-- **Reading a rule definition.** -/
def RuleDefinition.read (entry : Value) : Checked RuleDefinition :=
  if entry.isMap then
    ((checkCommon entry).both
      ((optional checkText [] entry "category").both
        (required checkMappings entry "mappings"))).map
      fun ((key, query, constraints), category, mappings) =>
        { key, query, constraints, category, mappings }
  else issue .notEntry []

/-- Mappings as a value. -/
def mappingsValue (m : Mappings Text) : Value :=
  .map (m.entries.map fun (domain, styles) =>
    (.text domain, .map (styles.entries.map fun (style, t) => (.text style, .text t))))

/-- **The headline** of the issues of an entry of some kind: how many there are.  It is the first
line of the text that is told about them; the lines behind it, which word each issue, are left
out. -/
def headline (kind : Text) (issues : List Issue) : Text :=
  Text.ofNat issues.length ++ " validation error"
    ++ (if issues.length = 1 then [] else ['s']) ++ " for " ++ kind

end MathSpeech.Table
