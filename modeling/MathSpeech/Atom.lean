import MathSpeech.Mappings
import MathSpeech.Rule.Action
import MathSpeech.Value.Written

/-!
# Atom — the actions of one rule key

An **atom** gathers the actions defined under one key, one for each domain and style.  It is born
with an action for the default domain and style that says nothing, so that every request can be
resolved:

1. the action of the domain and style asked for;
2. if the domain is unknown, the action of the default domain for that style;
3. the action of the default domain and style.
-/

namespace MathSpeech

open Rule (Action)

/-- **An atom**: a key, a category and the actions of the domains and styles. -/
structure Atom where
  key : Text
  category : Text
  mappings : Mappings Action
deriving DecidableEq

/-- **A request that cannot be resolved**, because the atom lost its default action. -/
structure Unresolved where
  key : Text
  domain : Text
  style : Text
deriving DecidableEq, Repr

/-- The wording of a request that cannot be resolved. -/
def Unresolved.message (u : Unresolved) : Text :=
  "No action for '" ++ u.key ++ "' in " ++ u.domain ++ "." ++ u.style
    ++ " and no default.default fallback"

namespace Atom

/-- **A new atom**: its default action says nothing. -/
def new (key category : Text) : Atom :=
  { key, category
    mappings := .singleton defaultName (.singleton defaultName .silence) }

/-- Sets the action of a domain and style. -/
def add (a : Atom) (domain style : Text) (action : Action) : Atom :=
  { a with mappings := a.mappings.set domain style action }

/-- Sets the actions of several domains and styles, in order. -/
def addAll (a : Atom) (placed : List (Text × Text × Action)) : Atom :=
  { a with mappings := a.mappings.setAll placed }

/-- Removes the action of a domain and style, if there is one. -/
def removeStyle? (a : Atom) (domain style : Text) : Option Atom := do
  let styles ← OrderedMap.get? a.mappings domain
  guard (styles.contains style)
  return { a with mappings := a.mappings.insert domain (styles.erase style) }

/-- Removes a domain with all its styles, if it is known. -/
def removeDomain? (a : Atom) (domain : Text) : Option Atom := do
  guard (OrderedMap.contains a.mappings domain)
  return { a with mappings := OrderedMap.erase a.mappings domain }

/-- **The action that answers a request** for a domain and style. -/
def resolve? (a : Atom) (domain style : Text) : Option Action :=
  let defaults := (OrderedMap.get? a.mappings defaultName).getD .empty
  let wanted := match OrderedMap.get? a.mappings domain with
    | some styles => styles.get? style
    | none => defaults.get? style
  wanted.or (defaults.get? defaultName)

/-- The action that answers a request, or the request as a fault. -/
def resolve (a : Atom) (domain style : Text) : Except Unresolved Action :=
  match a.resolve? domain style with
  | some action => .ok action
  | none => .error { key := a.key, domain, style }

/-- Whether a domain is known and, if a style is given, that style in it. -/
def has (a : Atom) (domain : Text) (style : Option Text) : Bool :=
  match OrderedMap.get? a.mappings domain with
  | none => false
  | some styles => style.all styles.contains

/-- All domains, in order. -/
def domains (a : Atom) : List Text := OrderedMap.keys a.mappings

/-- Adds to a list what it does not yet hold, in order. -/
def union (first second : List Text) : List Text :=
  first ++ second.filter fun t => !first.contains t

/-- All styles of all domains, each once, in order. -/
def styles (a : Atom) : List Text :=
  (OrderedMap.values a.mappings).foldl (fun known styles => union known styles.keys) []

/-- A listing of the atom, one line for each style. -/
def listing (a : Atom) : Text :=
  Text.joined "\n" <|
    ["key:\t\t" ++ a.key, "category:\t" ++ a.category, "mappings:"]
      ++ a.mappings.entries.flatMap fun (domain, styles) =>
        ('\t' :: domain ++ [':'])
          :: styles.entries.map fun (style, action) => "\t\t" ++ style ++ " -> " ++ action.print

/-- The short form of the atom. -/
def summary (a : Atom) : Text :=
  "Atom(key=" ++ a.key.quoted ++ ", category=" ++ a.category.quoted
    ++ ", domains=" ++ Value.shownTexts a.domains ++ ")"

end Atom

end MathSpeech
