import MathSpeech.Proofs.OrderedMap.Writing
import MathSpeech.Proofs.Rule.Attributes
import MathSpeech.Proofs.Rule.CutPlaces

/-!
# Proofs/Rule/Assignments — a block of attributes is a list of assignments

A token **assigns** the value behind its first colon to the name before it, and a bare name is
assigned `true`.  Adding a block of attributes is a left fold of these assignments, over the tokens
that say something and up to the first one without a name (`readTokens_eq`).  Whether the block is
in brackets and its strings are closed is settled before anything is assigned, so a fault of the
block itself leaves the attributes as they were, and a fault of a token leaves exactly what the
tokens before it assigned (`addAttributes_eq_fold`).
-/

namespace MathSpeech.Rule

namespace Attributes

variable {as : Attributes} {name value token block inner : Text}

/-! ## What a token assigns -/

/-- The name of a token: what stands before its first colon, trimmed. -/
def nameOf (token : Text) : Text := Text.trim (token.takeWhile (· ≠ ':'))

/-- The value of a token: what stands behind its first colon, trimmed, and `true` if it has none. -/
def valueOf (token : Text) : Text :=
  if ':' ∈ token then Text.trim (token.dropWhile (· ≠ ':')).tail else "true"

/-- **What a token assigns**: its value to its name. -/
def assignment (token : Text) : Text × Text := (nameOf token, valueOf token)

/-- A token with a name. -/
def isNamed (token : Text) : Bool := !(nameOf token).isEmpty

theorem assignment_append (h : ':' ∉ name) (value : Text) :
    assignment (name ++ ':' :: value) = (name.trim, value.trim) := by
  have hbefore : ∀ c ∈ name, decide (c ≠ ':') = true := fun c hc =>
    decide_eq_true (ne_of_mem_of_not_mem hc h)
  have hcolon : ':' ∈ name ++ ':' :: value := List.mem_append_right name List.mem_cons_self
  rw [assignment, nameOf, valueOf, List.takeWhile_append_of_pos hbefore,
    List.dropWhile_append_of_pos hbefore, if_pos hcolon]
  simp

theorem assignment_of_notMem (h : ':' ∉ token) :
    assignment token = (token.trim, "true".toList) := by
  have hwhole : token.takeWhile (· ≠ ':') = token :=
    List.takeWhile_eq_self_iff.mpr fun c hc => decide_eq_true (ne_of_mem_of_not_mem hc h)
  rw [assignment, nameOf, valueOf, hwhole, if_neg h]

/-- **Reading a token is its assignment**, if it has a name. -/
theorem readToken_eq (as : Attributes) (token : Text) :
    readToken as token = if isNamed token then .ok (as.insert (nameOf token) (valueOf token))
      else .error (.namelessAttribute token) := by
  have hparts : readToken as token = if (assignment token).1.isEmpty
      then .error (.namelessAttribute token)
      else .ok (as.insert (assignment token).1 (assignment token).2) := by
    rw [readToken]
    cases hcut : token.cut ':' with
    | none => rw [assignment_of_notMem (Text.cut_eq_none_iff.mp hcut)]
    | some parts =>
      obtain ⟨name, value⟩ := parts
      have hassignment : assignment token = (name.trim, value.trim) := by
        rw [Text.eq_of_cut hcut, assignment_append (Text.notMem_of_cut hcut)]
      rw [hassignment]
  rw [hparts, isNamed, assignment]
  cases (nameOf token).isEmpty <;> rfl

/-! ## Tokens from left to right -/

/-- The tokens that say something. -/
def spoken (tokens : List Text) : List Text := tokens.filter fun t => !t.trim.isEmpty

theorem spoken_cons (token : Text) (rest : List Text) :
    spoken (token :: rest)
      = if token.trim.isEmpty then spoken rest else token :: spoken rest := by
  rw [spoken, List.filter_cons]
  cases token.trim.isEmpty <;> rfl

/-- **Reading tokens is a left fold of their assignments**, over those that say something and up to
the first of them without a name; that one is the fault. -/
theorem readTokens_eq (as : Attributes) (tokens : List Text) :
    readTokens as tokens
      = (as.insertAll (((spoken tokens).takeWhile isNamed).map assignment),
        ((spoken tokens).find? fun t => !isNamed t).map .namelessAttribute) := by
  induction tokens generalizing as with
  | nil => rfl
  | cons token rest ih =>
    rw [readTokens, spoken_cons]
    split
    case isTrue => exact ih as
    case isFalse =>
      rw [readToken_eq, List.takeWhile_cons, List.find?_cons]
      cases isNamed token with
      | true => exact ih _
      | false => rfl

/-! ## Blocks -/

/-- **The tokens inside a block**: what stands between the commas outside strings, where it says
something. -/
def tokensIn (inner : Text) : List Text := spoken (stretches inner 0 (cutPlaces ',' inner))

/-- An empty token at the end says nothing. -/
theorem spoken_withoutEmptyEnd (ts : List Text) : spoken (withoutEmptyEnd ts) = spoken ts := by
  induction ts with
  | nil => rfl
  | cons t rest ih =>
    cases rest with
    | nil =>
      rw [withoutEmptyEnd]
      split
      · rename_i hempty
        rw [List.isEmpty_iff.mp hempty]
        rfl
      · rfl
    | cons u rest =>
      rw [withoutEmptyEnd_cons (List.cons_ne_nil u rest), spoken_cons, ih, ← spoken_cons]

/-- **A block in brackets with its strings closed** is read by its tokens. -/
theorem readBlock_of_balanced (h : block.trim = '(' :: inner ++ [')']) (hb : Balanced inner)
    (as : Attributes) :
    readBlock as block
      = (as.insertAll (((tokensIn inner).takeWhile isNamed).map assignment),
        ((tokensIn inner).find? fun t => !isNamed t).map .namelessAttribute) := by
  rw [readBlock_bracketed h, if_pos hb, readTokens_eq, spoken_withoutEmptyEnd,
    cuts_eq_stretches (by decide), tokensIn]

/-- …and one with an open string is not read at all. -/
theorem readBlock_of_not_balanced (h : block.trim = '(' :: inner ++ [')']) (hb : ¬Balanced inner)
    (as : Attributes) : readBlock as block = (as, some (.openString inner)) := by
  rw [readBlock_bracketed h, if_neg hb]

/-- **What a block assigns**, and its fault; each block is in one of three cases. -/
structure Assigns (block : Text) (assigned : List Text) (fault : Option Fault) : Prop where
  /-- A block that is not in brackets assigns nothing. -/
  malformed : (¬∃ inner, block.trim = '(' :: inner ++ [')']) →
    assigned = [] ∧ fault = some (.malformedAttributes block.trim)
  /-- A block with an odd number of quotes inside assigns nothing. -/
  openString : ∀ inner, block.trim = '(' :: inner ++ [')'] → inner.count '"' % 2 = 1 →
    assigned = [] ∧ fault = some (.openString inner)
  /-- Any other block assigns its tokens up to the first one without a name, which is the fault. -/
  tokens : ∀ inner, block.trim = '(' :: inner ++ [')'] → inner.count '"' % 2 = 0 →
    assigned = (tokensIn inner).takeWhile isNamed
      ∧ fault = ((tokensIn inner).find? fun t => !isNamed t).map .namelessAttribute

/-- **Reading a block is a left fold** of what it assigns. -/
theorem exists_readBlock_eq (as : Attributes) (block : Text) :
    ∃ assigned fault, Assigns block assigned fault
      ∧ readBlock as block = (as.insertAll (assigned.map assignment), fault) := by
  by_cases hex : ∃ inner, block.trim = '(' :: inner ++ [')']
  · obtain ⟨inner, h⟩ := hex
    -- the inside of a block is one text, so the other cases are about the same one
    have hsame : ∀ inner', block.trim = '(' :: inner' ++ [')'] → inner' = inner := fun inner' h' =>
      List.append_cancel_right (List.cons.inj (h'.symm.trans h)).2
    by_cases hb : Balanced inner
    · refine ⟨_, _, ⟨fun hnone => absurd ⟨inner, h⟩ hnone, fun inner' h' hodd => ?_,
        fun inner' h' _ => ?_⟩, readBlock_of_balanced h hb as⟩
      · rw [hsame inner' h', show inner.count '"' % 2 = 0 from hb] at hodd
        cases hodd
      · rw [hsame inner' h']
        exact ⟨rfl, rfl⟩
    · refine ⟨[], _, ⟨fun hnone => absurd ⟨inner, h⟩ hnone, fun inner' h' _ => ?_,
        fun inner' h' heven => ?_⟩, readBlock_of_not_balanced h hb as⟩
      · rw [hsame inner' h']
        exact ⟨rfl, rfl⟩
      · rw [hsame inner' h'] at heven
        exact absurd heven hb
  · refine ⟨[], _, ⟨fun _ => ⟨rfl, rfl⟩, fun inner h => absurd ⟨inner, h⟩ hex,
      fun inner h => absurd ⟨inner, h⟩ hex⟩, readBlock_of_not_bracketed hex as⟩

end Attributes

namespace Component

open Attributes

/-- **Adding a block of attributes is a left fold with a known failure.**  If the trimmed block is
not in brackets, or its inside has an odd number of quotes, that is the fault and nothing is
assigned.  Else the tokens between the commas outside strings are assigned from left to right, those
that say nothing apart; a token without a name is the fault, and exactly the tokens before the first
such one are assigned.  In each case the names that were there keep their places, the new ones
follow in the order in which they first occur, and each name has the value assigned last, or else
its old one. -/
theorem addAttributes_eq_fold (c : Component) (block : Text) :
    ∃ assigned fault, Assigns block assigned fault
      ∧ c.addAttributes block
        = ({ c with attributes := c.attributes.insertAll (assigned.map assignment) }, fault)
      ∧ (c.addAttributes block).1.attributes.keys
        = c.attributes.keys ++ OrderedMap.newKeys c.attributes.keys (assigned.map nameOf)
      ∧ ∀ name, (c.addAttributes block).1.attributes.get? name
        = (OrderedMap.latest? name (assigned.map assignment)).or (c.attributes.get? name) := by
  obtain ⟨assigned, fault, hassigns, hread⟩ := exists_readBlock_eq c.attributes block
  have hadd : c.addAttributes block
      = ({ c with attributes := c.attributes.insertAll (assigned.map assignment) }, fault) := by
    rw [addAttributes, hread]
  have hnames : (assigned.map assignment).map Prod.fst = assigned.map nameOf := List.map_map
  refine ⟨assigned, fault, hassigns, hadd, ?_, fun name => ?_⟩
  · rw [hadd, OrderedMap.keys_insertAll, hnames]
  · rw [hadd, OrderedMap.get?_insertAll]

/-- The tokens before the one without a name count, with a comma inside a string, a blank token, a
name that was there and a name assigned twice. -/
example :
    let c : Component := { kind := .node, attributes := .ofList [("b", "0")] }
    c.addAttributes " (a:1, b, \"x,y\":z:w, , a: 2, :3, c)"
      = ({ kind := .node, attributes := .ofList [("b", "true"), ("a", "2"), ("\"x,y\"", "z:w")] },
        some (.namelessAttribute " :3")) := by decide +kernel

end Component

end MathSpeech.Rule
