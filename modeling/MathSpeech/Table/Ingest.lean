import MathSpeech.Store
import MathSpeech.Table.Definition
import MathSpeech.Table.Report

/-!
# Table/Ingest — taking a table into a store

The rules of a table are defined first and its aliases after them, so that an alias may refer to any
rule of its table.  An entry that is not well formed, a rule text that cannot be used and an alias
without a rule are reported and skipped; the rest is taken in.  Two things stop an ingest: a frozen
store, at the first entry that is well formed, and an entry that is not well formed and cannot be
reported, since its key cannot be written.  Which values can be written is a parameter (`writes`):
it depends on the stack that is left as well as on the value.

While a table is taken in, the context of the log names it; afterwards the context is empty.
-/

namespace MathSpeech.Table

/-- **Why an ingest stops.** -/
inductive Fault
  /-- The store refuses. -/
  | refused (r : Refusal)
  /-- The table is no mapping. -/
  | notMapping
  /-- The key of an entry that is not well formed cannot be written. -/
  | unwritable
deriving DecidableEq, Repr

/-- **An ingest under way**: the store, the report and the notices so far, and the fault that
stopped it, if one did. -/
structure Ingest where
  store : Store
  report : Report := {}
  notices : List Notice := []
  fault : Option Fault := none

namespace Ingest

/-- Reports something that was skipped. -/
def skip (run : Ingest) (key reason error : Text) : Ingest :=
  { run with
    notices := run.notices ++ [.skipped key "table" reason]
    report := run.report.addError error }

/-- The number sign and number of an entry. -/
def numbered (index : Nat) : Text := '#' :: Text.ofNat index

/-- The name of an entry that is not well formed: its key, or else its number. -/
def nameOf (index : Nat) (entry : Value) : Text :=
  if entry.isMap then ((entry.get? "key").map Value.written).getD (numbered index)
  else numbered index

/-- **An entry that can be named**: its key, if it has one, is a text or can be written. -/
def isNamable (writes : Value → Bool) (entry : Value) : Bool :=
  match entry.get? "key" with
  | none => true
  | some (.text _) => true
  | some key => writes key

/-- The place of an entry in its section. -/
def placeOf (part : Text) (index : Nat) : Text := part ++ '[' :: Text.ofNat index ++ "]: "

/-- The entries of a section.  A section that says nothing has none; one that is no list is
reported. -/
def entries (run : Ingest) (data : Value) (name : Text) : Ingest × List Value :=
  match (data.get? name).getD .null with
  | .list items => (run, items)
  | v =>
    if v.isTrue then
      (run.skip name ("Section '" ++ name ++ "' must be a list")
        (name ++ ": section must be a list"), [])
    else (run, [])

/-- **What comes of an entry that is not well formed**: it is named and skipped, or stops the
ingest. -/
def skipEntry (writes : Value → Bool) (run : Ingest) (part kind : Text) (index : Nat)
    (entry : Value) (issues : List Issue) : Ingest :=
  if isNamable writes entry then
    run.skip (nameOf index entry) (headline kind issues) (placeOf part index ++ "invalid entry")
  else { run with fault := some .unwritable }

/-- What comes of a rule whose definition is well formed. -/
def takeRule (run : Ingest) (index : Nat) (rule : RuleDefinition) : Ingest :=
  match run.store.defineMappings rule.key rule.category rule.mappings rule.query
      rule.constraints with
  | .error refusal => { run with fault := some (.refused refusal) }
  | .ok change =>
    let (added, dropped) := change.value
    let place := placeOf "rules" index ++ rule.key
    let report :=
      if added then
        { run.report with defined := run.report.defined ++ [rule.key] }.addErrors
          (dropped.map fun name => place ++ ' ' :: name ++ " not defined")
      else run.report.addError (place ++ " not defined")
    { run with store := change.store, report, notices := run.notices ++ change.notices }

/-- **One entry of the rules.** -/
def rule (writes : Value → Bool) (run : Ingest) (index : Nat) (entry : Value) : Ingest :=
  if run.fault.isSome then run
  else match RuleDefinition.read entry with
    | .error issues => run.skipEntry writes "rules" "RuleDefinition" index entry issues
    | .ok definition => run.takeRule index definition

/-- What comes of an alias whose definition is well formed. -/
def takeAlias (run : Ingest) (index : Nat) (definition : AliasDefinition) : Ingest :=
  match run.store.defineAlias definition.key definition.query definition.constraints with
  | .error refusal => { run with fault := some (.refused refusal) }
  | .ok change =>
    let report :=
      if change.value then
        { run.report with aliased := run.report.aliased ++ [definition.key] }
      else run.report.addError (placeOf "aliases" index ++ definition.key ++ " has no rule")
    { run with store := change.store, report, notices := run.notices ++ change.notices }

/-- **One entry of the aliases.** -/
def extra (writes : Value → Bool) (run : Ingest) (index : Nat) (entry : Value) : Ingest :=
  if run.fault.isSome then run
  else match AliasDefinition.read entry with
    | .error issues => run.skipEntry writes "aliases" "AliasDefinition" index entry issues
    | .ok definition => run.takeAlias index definition

/-- All entries of the rules. -/
def rules (writes : Value → Bool) (run : Ingest) (data : Value) : Ingest :=
  let (run, items) := run.entries data "rules"
  items.zipIdx.foldl (fun run (v, i) => run.rule writes i v) run

/-- All entries of the aliases; none is looked at once the ingest stopped. -/
def aliases (writes : Value → Bool) (run : Ingest) (data : Value) : Ingest :=
  if run.fault.isSome then run
  else
    let (run, items) := run.entries data "aliases"
    items.zipIdx.foldl (fun run (v, i) => run.extra writes i v) run

/-- The end of an ingest that did not stop. -/
def finish (run : Ingest) : Ingest :=
  if run.fault.isSome then run
  else
    { run with
      notices := run.notices ++
        [.tableLoaded run.report.defined.length run.report.aliased.length run.report.skipped] }

/-- **The ingest of a table** into a store. -/
def run (store : Store) (data : Value) (source : Text)
    (writes : Value → Bool := Value.isWritable) : Ingest :=
  let start : Ingest := { store, report := { sources := if source.isEmpty then [] else [source] } }
  if data.isMap then ((start.rules writes data).aliases writes data).finish
  else { start with fault := some .notMapping }

/-- The report, unless the ingest stopped. -/
def outcome (run : Ingest) : Except Fault Report :=
  match run.fault with
  | some fault => .error fault
  | none => .ok run.report

end Ingest

/-- The name of a table in the log. -/
def sourceName (source : Text) : Text := if source.isEmpty then "<inline>" else source

/-- **The log after an ingest**: its notices in the context of the table, and then no context. -/
def Ingest.logged (run : Ingest) (source : Text) (log : Log) : Log :=
  ((log.setContext (.singleton "table" (.text (sourceName source)))).noticeAll
    run.notices).clearContext

/-- **Taking a table into a store**, with the log: what came of it, the store and the log. -/
def ingest (store : Store) (log : Log) (data : Value) (source : Text)
    (writes : Value → Bool := Value.isWritable) : Except Fault Report × Store × Log :=
  let run := Ingest.run store data source writes
  (run.outcome, run.store, run.logged source log)

end MathSpeech.Table
