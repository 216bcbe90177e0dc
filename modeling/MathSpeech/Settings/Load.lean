import MathSpeech.Folder
import MathSpeech.Notice
import MathSpeech.Settings
import MathSpeech.Yaml.Construction

/-!
# Settings/Load — settings from a file

The settings of a file are merged into the defaults.  Without a file the defaults stand, and this is
told.
-/

namespace MathSpeech.Settings

/-- **Why settings are not loaded.** -/
inductive Trouble
  | unreadable (fault : Yaml.Fault)
  | isFolder
  | notMapping
deriving DecidableEq, Repr

/-- The settings that a text gives. -/
def ofText (t : Text) : Except Trouble Value :=
  match Yaml.read (unifyLineEnds t) with
  | .error fault => .error (.unreadable fault)
  | .ok given =>
    match ofFile? given with
    | some settings => .ok settings
    | none => .error .notMapping

/-- **Loading settings**, and the notices about it. -/
def load (f : Folder) (path : Text) : Except Trouble Value × List Notice :=
  let p := Path.ofText path
  match f.look p with
  | .file t => (ofText t, [])
  | .folder => (.error .isFolder, [])
  | .nothing => (.ok defaults, [.noSettings p.toText])

end MathSpeech.Settings
