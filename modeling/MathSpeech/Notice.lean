import MathSpeech.Log
import MathSpeech.Text.Quoted

/-!
# Notice — what the engine reports

The engine tells by **notices** what it skipped, applied and loaded.  A notice is a cause; its
wording and its place in the log are given by `Notice.line`.  Notices about rules are structured,
those about the inner workings are plain.
-/

namespace MathSpeech

/-- **A notice.** -/
inductive Notice
  /-- A definition was skipped; `kind` tells at which stage it was found wrong. -/
  | skipped (key kind reason : Text)
  /-- A rule was applied. -/
  | applied (key domain style : Text)
  /-- A table was loaded. -/
  | tableLoaded (defined aliased skipped : Nat)
  /-- A rule was added under a precondition. -/
  | added (key precondition : Text)
  /-- A text for debugging. -/
  | dump (text : Text)
  /-- A store was made although entries were skipped. -/
  | incomplete (skipped : Nat)
  /-- A store is ready. -/
  | ready (store : Text)
  /-- There is no settings file of that name. -/
  | noSettings (path : Text)
  /-- The name of a function lacks the prefix of its store. -/
  | misnamed (name start : Text)

namespace Notice

/-- The name of the engine's own logger. -/
def engine : Text := "speech_rules"

/-- A structured line of the engine. -/
def structured (c : Log.Call) (message : Text) (fields : List (Text × Value)) : Log.Line :=
  { level := c.level, body := .structured engine c.label message (.ofList fields) }

/-- A plain line. -/
def plain (level : Log.Level) (text : Text) : Log.Line := { level, body := .plain text }

/-- **The line of a notice.** -/
def line : Notice → Log.Line
  | .skipped key kind reason =>
    structured (.at .warning) "Rule definition skipped"
      [("key".toList, .text key), ("kind".toList, .text kind), ("reason".toList, .text reason)]
  | .applied key domain style =>
    structured (.at .info) ("Applying rule " ++ key)
      [("domain".toList, .text domain), ("style".toList, .text style)]
  | .tableLoaded defined aliased left =>
    structured .event "table_loaded"
      [("defined".toList, .int defined), ("aliased".toList, .int aliased),
        ("skipped".toList, .int left)]
  | .added key precondition => plain .debug ("Rule added: " ++ key ++ " [" ++ precondition ++ "]")
  | .dump text => plain .debug text
  | .incomplete left =>
    plain .warning ("MathML store created with " ++ Text.ofNat left ++ " skipped entries")
  | .ready store => plain .debug ("MathML store ready: " ++ store)
  | .noSettings path =>
    plain .warning ("Settings file not found: " ++ path ++ ", using defaults")
  | .misnamed name start =>
    plain .warning ("Invalid function name " ++ name.quoted ++ ": expected prefix " ++ start.quoted)

end Notice

namespace Log

/-- Writes a notice.  All its own fields can be written; so can those of the context, which is left
to who sets it. -/
def notice (log : Log) (n : Notice) : Log := log.write n.line

/-- Writes notices in order. -/
def noticeAll (log : Log) (ns : List Notice) : Log := ns.foldl notice log

end Log

end MathSpeech
