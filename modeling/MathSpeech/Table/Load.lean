import MathSpeech.Folder
import MathSpeech.Table.Bundled
import MathSpeech.Table.Ingest
import MathSpeech.Yaml.Construction

/-!
# Table/Load — tables from files

A table is named by a path.  A **bare name** that is not there refers to a bundled table.  Several
tables are loaded one after the other; a table that cannot be read is reported and skipped.

* `Table.load` — the value of a table;
* `Table.loadAll` — several tables taken into a store;
* `Table.createStore` — a frozen store for MathML with several tables.
-/

namespace MathSpeech.Table

/-! ## Places -/

/-- **Where a table is**: a path, or the name of a bundled table. -/
inductive Place
  | path (p : Path)
  | bundled (name : Text)
deriving DecidableEq, Repr

/-- **The place of a table**: a bare name that is not there is the name of a bundled table. -/
def placeOf (f : Folder) (t : Text) : Place :=
  let p := Path.ofText t
  if p.isBare && !f.has p then .bundled p.toText else .path p

/-- The name of the only bundled table. -/
def bundledName : Text := "mathml.yaml"

/-! ## Loading -/

/-- **Why a table is not loaded.** -/
inductive Trouble
  /-- The table is missing or malformed; this is told, and other tables are not affected. -/
  | unreadable (path reason : Text)
  /-- The path leads to a folder. -/
  | isFolder
  /-- A scalar is tagged as something that it is not. -/
  | badScalar (fault : Yaml.Fault)
  /-- The store stops the ingest. -/
  | ingest (fault : Fault)
deriving DecidableEq, Repr

/-- The message about a table that cannot be read. -/
def unreadableMessage (path reason : Text) : Text :=
  "Failed to load rule table '" ++ path ++ "': " ++ reason

/-- The table that a text stands for.  An empty text is an empty table. -/
def ofText (p : Path) (t : Text) : Except Trouble Value :=
  match Yaml.read (unifyLineEnds t) with
  | .error .malformed => .error (.unreadable p.toText "YAML parse error")
  | .error fault => .error (.badScalar fault)
  | .ok .null => .ok (.map [])
  | .ok (.map entries) => .ok (.map entries)
  | .ok _ => .error (.unreadable p.toText "Top level must be a mapping")

/-- **Loading a table.** -/
def load (f : Folder) (path : Text) : Except Trouble Value :=
  let missing : Except Trouble Value := .error (.unreadable path "File not found")
  match placeOf f path with
  | .bundled name => if name = bundledName then .ok bundled else missing
  | .path p =>
    match f.look p with
    | .file t => ofText p t
    | .folder => .error .isFolder
    | .nothing => missing

/-! ## Several tables -/

/-- **Loading tables into a store**: what came of it, the store and the log. -/
def loadAll (f : Folder) (store : Store) (log : Log) (report : Report) :
    List Text → Except Trouble Report × Store × Log
  | [] => (.ok report, store, log)
  | path :: rest =>
    match load f path with
    | .error (.unreadable place reason) =>
      loadAll f store (log.notice (.skipped path "table" reason))
        (report.addError (unreadableMessage place reason)) rest
    | .error trouble => (.error trouble, store, log)
    | .ok data =>
      match ingest store log data path with
      | (.ok found, store, log) => loadAll f store log (report.merge found) rest
      | (.error fault, store, log) => (.error (.ingest fault), store, log)

/-- The tables that settings name. -/
def tablesOf (settings : Value) : List Text :=
  match Settings.nested? settings "rules.tables" with
  | some (.list items) => items.filterMap fun
    | .text t => some t
    | _ => none
  | _ => []

/-- **A frozen store for MathML** with the rules of some tables, and the log. -/
def createStore (f : Folder) (log : Log) (debug : Bool) (paths : List Text) :
    Except Trouble Store × Log :=
  let empty : Store := { kind := .mathml, debug }
  match loadAll f empty log {} paths with
  | (.error trouble, _, log) => (.error trouble, log)
  | (.ok report, store, log) =>
    let log := if report.isClean then log else log.notice (.incomplete report.skipped)
    let store := store.freeze
    (.ok store, log.notice (.ready store.summary))

/-- **The bundled store**: the rules of the bundled table. -/
def bundledStore : Store :=
  (ingest { kind := .mathml } {} bundled bundledName).2.1.freeze

end MathSpeech.Table
