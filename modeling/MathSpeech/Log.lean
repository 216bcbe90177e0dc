import MathSpeech.OrderedMap
import MathSpeech.Value.Json
import MathSpeech.Value.Written

/-!
# Log — structured log lines

A log line has a **level** and a body.  A plain body is a text; a structured body is a message with
named fields.  The fields of a line are those of the log's **context**, then those of the call; a
field of the call that the context knows already replaces its value in place.

* `Log.write` — the only way a line gets into the log, if its level passes the threshold;
* `Line.text` — the form of a line, readable or JSON; both show the same fields.
-/

namespace MathSpeech

/-- **Named fields** of a log line, in order. -/
abbrev Fields := OrderedMap Text Value

namespace Log

/-- **The levels**, from the least to the most urgent. -/
inductive Level
  | debug
  | info
  | warning
  | error
  | critical
deriving DecidableEq, Repr

namespace Level

/-- How urgent a level is. -/
def rank : Level → Nat
  | .debug => 0
  | .info => 1
  | .warning => 2
  | .error => 3
  | .critical => 4

/-- The name of a level. -/
def name : Level → Text
  | .debug => "DEBUG"
  | .info => "INFO"
  | .warning => "WARNING"
  | .error => "ERROR"
  | .critical => "CRITICAL"

/-- All levels. -/
def all : List Level := [.debug, .info, .warning, .error, .critical]

/-- The level of a name. -/
def ofName? (name : Text) : Option Level := all.find? fun l => l.name = name

end Level

/-- **The two forms** of structured lines. -/
inductive Format
  | readable
  | json
deriving DecidableEq, Repr

/-- **What a line says.** -/
inductive Body
  /-- A text as it is. -/
  | plain (text : Text)
  /-- A message with fields, under the name of a logger and a label. -/
  | structured (logger label message : Text) (fields : Fields)

/-- **A line** of the log. -/
structure Line where
  level : Level
  body : Body

/-- The members with which a JSON record begins.  The time is not told. -/
def head (logger label message : Text) : Fields :=
  .ofList [("timestamp".toList, .text "T"), ("level".toList, .text label),
    ("logger".toList, .text logger), ("message".toList, .text message)]

/-- **The JSON record** of a structured line: its head, then its fields; a field with the name of a
head member replaces that member's value, except that the time is not told even so. -/
def record (logger label message : Text) (fields : Fields) : Fields :=
  ((head logger label message).update fields).insert "timestamp" (.text "T")

/-- Fields as a mapping. -/
def asValue (fields : Fields) : Value := .map (fields.entries.map fun (name, v) => (.text name, v))

/-- **The readable form**: the message, and the fields in brackets if there are any. -/
def readable (message : Text) (fields : Fields) : Text :=
  if fields.isEmpty then message
  else
    let shown := fields.entries.map fun (name, v) => name ++ '=' :: v.written
    message ++ " [" ++ Text.joined ", " shown ++ "]"

/-- The text of a body. -/
def Body.text (format : Format) : Body → Text
  | .plain text => text
  | .structured logger label message fields =>
    match format with
    | .readable => readable message fields
    | .json => (asValue (record logger label message fields)).json

/-- **The text of a line**, after the name of its level. -/
def Line.text (format : Format) (l : Line) : Text := l.level.name ++ ' ' :: l.body.text format

end Log

/-- **A log**: its form, the least level it takes, its context and the lines it took. -/
structure Log where
  format : Log.Format := .readable
  threshold : Log.Level := .info
  context : Fields := .empty
  lines : List Log.Line := []

namespace Log

/-- Whether a level passes a threshold. -/
def passes (threshold level : Level) : Bool := threshold.rank ≤ level.rank

/-- Sets fields of the context. -/
def setContext (log : Log) (fields : Fields) : Log :=
  { log with context := log.context.update fields }

/-- Sets fields of the context that a caller names; `none` if one has the name that is reserved for
the log itself. -/
def setContext? (log : Log) (fields : Fields) : Option Log :=
  if fields.contains "self" then none else some (log.setContext fields)

/-- Empties the context. -/
def clearContext (log : Log) : Log := { log with context := .empty }

/-- **Writing a line**: it is taken if its level passes the threshold, and a structured one with
the fields of the context before its own. -/
def write (log : Log) (line : Line) : Log :=
  if passes log.threshold line.level then
    let body := match line.body with
      | .plain text => .plain text
      | .structured logger label message fields =>
        .structured logger label message (log.context.update fields)
    { log with lines := log.lines ++ [{ line with body }] }
  else log

/-- The texts of all lines. -/
def texts (log : Log) : List Text := log.lines.map (Line.text log.format)

/-- The log without its lines. -/
def flushed (log : Log) : Log := { log with lines := [] }

/-- Writing leaves the context alone. -/
theorem context_write (log : Log) (line : Line) : (log.write line).context = log.context := by
  unfold write; split <;> rfl

/-- Writing leaves the form alone. -/
theorem format_write (log : Log) (line : Line) : (log.write line).format = log.format := by
  unfold write; split <;> rfl

/-! ## Calls

A call names its level and its message, and gives fields by name.  The names of a call's own
arguments cannot be fields. -/

/-- **A kind of call**: one of the levels, or an event, which is written at level info. -/
inductive Call
  | at (level : Level)
  | event
deriving DecidableEq, Repr

/-- The label of a call in a record. -/
def Call.label : Call → Text
  | .at level => level.name
  | .event => "EVENT"

/-- The level a call is written at. -/
def Call.level : Call → Level
  | .at level => level
  | .event => .info

/-- The names that cannot be fields of a call. -/
def Call.reserved : Call → List Text
  | .at _ => ["self", "message", "level", "log_method"]
  | .event => ["self", "event_type", "message", "level", "log_method"]

/-- Fields whose values can all be written. -/
def areWritable (fields : Fields) : Bool := fields.values.all Value.isWritable

/-- **Calling a logger**; `none` if a field has a reserved name, or if a field of the call or the
context has a value that cannot be written.  The line is put together whatever its level. -/
def call? (log : Log) (logger : Text) (c : Call) (message : Text) (fields : Fields) : Option Log :=
  if fields.keys.any c.reserved.contains then none
  else if areWritable (log.context.update fields) then
    some (log.write { level := c.level, body := .structured logger c.label message fields })
  else none

/-- **The record of a message**, with the fields of the context before its own; `none` if a field
has a reserved name. -/
def structured? (log : Log) (logger label message : Text) (fields : Fields) : Option Fields :=
  if fields.keys.any (["self", "level", "message"] : List Text).contains then none
  else some (record logger label message (log.context.update fields))

end Log

end MathSpeech
