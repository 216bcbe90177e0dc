import MathSpeech.Value.Written

/-!
# Settings — the configuration of the engine

Settings are a mapping of sections.  What a settings file gives is merged into the defaults, section
by section and name by name; `Settings.merge` goes into two mappings wherever both sides have one,
and else takes the new value.  `Settings.problems` tells what is wrong with settings.
-/

namespace MathSpeech.Settings

/-! ## Merging -/

mutual

/-- **Merging entries**: every new entry is written, in order, merged with the old value of its
key. -/
def mergeEntries (old : List (Value × Value)) : List (Value × Value) → List (Value × Value)
  | [] => old
  | (k, v) :: rest => mergeEntries (Value.putKey k (mergeOver (Value.findKey k old) v) old) rest

/-- **A new value over an old one**: two mappings are merged, and else the new value counts. -/
def mergeOver (old : Option Value) : Value → Value
  | .map new =>
    match old with
    | some (.map entries) => .map (mergeEntries entries new)
    | _ => .map new
  | v => v

end

/-- The value of a path of keys. -/
def at? (v : Value) : List Value → Option Value
  | [] => some v
  | k :: path =>
    match v with
    | .map entries => (Value.findKey k entries).bind fun w => at? w path
    | _ => none

/-! ## Access -/

/-- **The value of a path of names** joined by points. -/
def nested? (settings : Value) (path : Text) : Option Value :=
  at? settings ((Text.parts '.' path).map .text)

/-- The value of a path of names one inside the other. -/
def attribute? (settings : Value) (names : List Text) : Option Value :=
  at? settings (names.map .text)

/-- **Assigning to the last name of a path.**  What is reached over other names is a copy, so that
only a path of one name changes the settings; there has to be a mapping to assign to. -/
def assign? (settings : Value) (path : List Text) (v : Value) : Option Value :=
  match path.reverse with
  | [] => none
  | [name] =>
    match settings with
    | .map entries => some (.map (Value.putKey (.text name) v entries))
    | _ => none
  | _ :: outer =>
    match attribute? settings outer.reverse with
    | some (.map _) => some settings
    | _ => none

/-! ## Defaults -/

/-- The namespace of MathML. -/
def mathmlNamespace : Text := "http://www.w3.org/1998/Math/MathML"

/-- A section of named values. -/
def sectionOf (entries : List (String × Value)) : Value :=
  .map (entries.map fun (name, v) => (.text name, v))

/-- **The defaults.** -/
def defaults : Value := sectionOf [
  ("logging", sectionOf [("level", .text "INFO"), ("format", .text "readable")]),
  ("rules", sectionOf [
    ("default_domain", .text "default"),
    ("default_style", .text "default"),
    ("debug", .bool false),
    ("tables", .list [.text "mathml.yaml"])]),
  ("xpath", sectionOf [("namespaces", sectionOf [("mathml", .text mathmlNamespace)])])]

/-- **The settings of a file**: what it gives, merged into the defaults; `none` if what it gives
says something but is no mapping. -/
def ofFile? (given : Value) : Option Value :=
  match given with
  | .map _ => some (mergeOver (some defaults) given)
  | v => if v.isTrue then none else some defaults

/-! ## Validation -/

/-- The log levels that settings may name. -/
def levels : List Text := ["DEBUG", "INFO", "WARNING", "ERROR", "CRITICAL"]

/-- The log formats that settings may name. -/
def formats : List Text := ["readable", "json"]

/-- What is wrong with the log level; its letters may be small. -/
def levelProblems (settings : Value) : List Text :=
  let level := ((nested? settings "logging.level").getD (.text [])).written.map Text.capital
  if levels.contains level then [] else ["logging.level must be one of " ++ Text.joined ", " levels]

/-- What is wrong with the log format. -/
def formatProblems (settings : Value) : List Text :=
  let problem : Text := "logging.format must be one of " ++ Text.joined ", " formats
  match nested? settings "logging.format" with
  | some (.text t) => if formats.contains t then [] else [problem]
  | _ => [problem]

/-- What is wrong with the name of the default domain or style. -/
def nameProblems (settings : Value) (name : Text) : List Text :=
  match nested? settings ("rules." ++ name) with
  | some (.text (c :: t)) =>
    if '.' ∈ c :: t then ["rules." ++ name ++ " must not contain '.'"] else []
  | _ => ["rules." ++ name ++ " is not set"]

/-- A text. -/
def isText : Value → Bool
  | .text _ => true
  | _ => false

/-- What is wrong with the names of the tables. -/
def tableProblems (settings : Value) : List Text :=
  let problem : Text := "rules.tables must be a list of file names"
  match (nested? settings "rules.tables").getD (.list []) with
  | .list items => if items.all isText then [] else [problem]
  | _ => [problem]

/-- What is wrong with the namespaces. -/
def namespaceProblems (settings : Value) : List Text :=
  if ((nested? settings "xpath.namespaces").getD (.map [])).isMap then []
  else ["xpath.namespaces must be a mapping of prefix to URI"]

/-- **All that is wrong with settings**, in the order of the sections. -/
def problems (settings : Value) : List Text :=
  levelProblems settings ++ formatProblems settings
    ++ nameProblems settings "default_domain" ++ nameProblems settings "default_style"
    ++ tableProblems settings ++ namespaceProblems settings

/-- **Validating settings**; `none` if the log level, whatever it is, cannot be written. -/
def validate? (settings : Value) : Option (List Text) :=
  if ((nested? settings "logging.level").getD .null).isWritable then some (problems settings)
  else none

end MathSpeech.Settings
