import MathSpeech.Proofs.XPath.Reading
import MathSpeech.Selection
import MathSpeech.XPath.Evaluator
import Mathlib.Data.List.Basic

/-!
# Proofs/XPath/ElementQuery — a precondition for elements of a name

At an element every expression that a document could hold has an answer: what cannot be read or has
no value selects nothing and does not hold (`Setting.exists_holds`).  The query of an element name
selects the node itself exactly if it is a MathML element of that name
(`Setting.query_elementQuery`).  So a precondition with such a query always has a verdict; it is
favourable at no other elements, and without constraints at all of these
(`Setting.exists_verdict`).
-/

namespace MathSpeech.XPath

open Rule (Precondition)
open Reader (isLocalName)
open Store (elementQuery)

/-! ## Expressions -/

theorem isDocumentCharacter_of_continuesName {c : Char} (h : Reader.continuesName c = true) :
    isDocumentCharacter c = true := by
  have hchars : (c = '_' ↔ c.toNat = 95) ∧ (c = '-' ↔ c.toNat = 45) ∧ (c = '.' ↔ c.toNat = 46) :=
    ⟨Char.toNat_inj.symm, Char.toNat_inj.symm, Char.toNat_inj.symm⟩
  have hranges : 'A'.val.toNat = 65 ∧ 'Z'.val.toNat = 90 ∧ 'a'.val.toNat = 97
      ∧ 'z'.val.toNat = 122 ∧ '0'.val.toNat = 48 ∧ '9'.val.toNat = 57 := by decide
  have hletters : c.isAlpha = (decide ('A'.val ≤ c.val ∧ c.val ≤ 'Z'.val)
      || (decide ('a'.val ≤ c.val) && decide (c.val ≤ 'z'.val))) := rfl
  have hdigits : c.isDigit = (decide ('0'.val ≤ c.val) && decide (c.val ≤ '9'.val)) := rfl
  have hval : c.val.toNat = c.toNat := rfl
  simp only [Reader.continuesName, Reader.startsName, isDocumentCharacter, Bool.or_eq_true,
    Bool.and_eq_true, decide_eq_true_eq, hletters, hdigits, UInt32.le_iff_toNat_le, bne_iff_ne,
    hchars, hranges, hval] at h ⊢
  omega

/-- A document could hold the query of an element name. -/
theorem accept_elementQuery {n : Text} (h : isLocalName n = true) :
    accept (elementQuery n) = .ok () := by
  have hname : n.all isDocumentCharacter = true := by
    cases n with
    | nil => rfl
    | cons c t =>
      rw [isLocalName, Bool.and_eq_true, List.all_eq_true] at h
      exact List.all_eq_true.mpr fun d hd => isDocumentCharacter_of_continuesName (h.2 d hd)
  have hstart : ("self::mathml:" : Text).all isDocumentCharacter = true := by decide +kernel
  have hquery : (elementQuery n).all isDocumentCharacter = true :=
    List.all_append.trans (Bool.and_eq_true_iff.mpr ⟨hstart, hname⟩)
  exact if_pos hquery

/-! ## Namespaces -/

/-- **A setting that binds a prefix** to a namespace; all its namespaces can be used. -/
structure Setting.Binds (s : Setting) (label space : Text) : Prop where
  usable : acceptSpaces s.environment.spaces.entries = .ok ()
  space? : s.environment.space? label = some space

/-- With namespaces that can be used, what is accepted depends on the expression alone. -/
theorem Setting.accept_eq {s : Setting}
    (h : acceptSpaces s.environment.spaces.entries = .ok ()) (t : Text) :
    s.accept t = XPath.accept t := by
  rw [accept, h]
  rfl

/-! ## Preconditions -/

/-- **A precondition about the elements of one name**: its query selects them, and its constraints
are expressions that a document could hold. -/
structure IsAbout (p : Precondition) (n : Text) : Prop where
  name : isLocalName n = true
  query : p.query = elementQuery n
  accepted : ∀ c ∈ p.constraints, accept c = .ok ()

/-! ## Elements -/

/-- **There is an element of that name** at an address of a document. -/
def Document.HasElement (d : Document) (address : Address) (name : Name) : Prop :=
  ∃ bindings attributes children,
    d.nodeAt? address = some ⟨address, .tree (.element name bindings attributes children)⟩

/-- **A name that an element query selects**, if the prefix stands for a namespace. -/
def Name.isOf (name : Name) (space n : Text) : Bool := name.label = n && name.space = space

theorem Name.isOf_iff {name : Name} {space n : Text} :
    name.isOf space n = true ↔ name.space = space ∧ elementQuery n = elementQuery name.label := by
  have hquery : elementQuery n = elementQuery name.label ↔ n = name.label :=
    List.append_right_inj _
  rw [hquery, isOf, Bool.and_eq_true, decide_eq_true_iff, decide_eq_true_iff, and_comm]
  exact and_congr_right' eq_comm

/-- The value of the step to an element. -/
theorem Expr.evaluate_toElement {env : Environment} {space : Text}
    (hspace : env.space? "mathml" = some space) (address : Address) (name : Name)
    (bindings : List (Text × Text)) (attributes : List (Name × Text)) (children : List Tree)
    (n : Text) :
    let node : Node := ⟨address, .tree (.element name bindings attributes children)⟩
    (Expr.toElement n).evaluate env ⟨node, none⟩
      = some (.nodes (if name.isOf space n then [node] else [])) := by
  intro node
  have hmatches : matchesName .self space n node = name.isOf space n := by
    simp [node, matchesName, Axis.isPrincipal, Node.isElement, Node.name?, Name.isOf]
  simp only [Expr.toElement, Expr.evaluate, Object.nodes?, Test.resolve?, hspace, gatherNodes,
    Document.onAxis, Expr.keepAll, Option.bind_eq_bind, Option.bind_some, Option.map_some,
    Option.pure_def]
  rw [List.filter_singleton, hmatches]
  cases name.isOf space n <;> rfl

/-! ## Answers at elements -/

namespace Setting

variable {s : Setting} {address : Address} {name : Name}

/-- **At an element every expression that was read has a result or none**, and nothing fails. -/
theorem resultAt_of_hasElement {bindings : List (Text × Text)} {attributes : List (Name × Text)}
    {children : List Tree} (h : s.environment.document.nodeAt? address
      = some ⟨address, .tree (.element name bindings attributes children)⟩) (e : Expr) :
    s.resultAt (some (.node address)) e
      = .ok ((e.evaluate s.environment
        ⟨⟨address, .tree (.element name bindings attributes children)⟩, none⟩).map
          Object.result) := by
  rw [resultAt, Option.bind_some, nodeOf?, h]
  rfl

/-- What is asked about an element with an expression that can be read. -/
theorem result_of_hasElement {bindings : List (Text × Text)} {attributes : List (Name × Text)}
    {children : List Tree} (h : s.environment.document.nodeAt? address
      = some ⟨address, .tree (.element name bindings attributes children)⟩) {c : Text}
    (hc : s.accept c = .ok ()) :
    s.result (some (.node address)) c
      = .ok ((Expr.parse c).bind fun e => (e.evaluate s.environment
        ⟨⟨address, .tree (.element name bindings attributes children)⟩, none⟩).map
          Object.result) := by
  rw [result, hc]
  cases Expr.parse c with
  | none => rfl
  | some e => exact resultAt_of_hasElement h e

/-- **At an element every constraint holds or does not.** -/
theorem exists_holds (h : s.environment.document.HasElement address name) {c : Text}
    (hc : s.accept c = .ok ()) :
    ∃ holds, s.evaluator.holds (some (.node address)) c = .ok holds := by
  obtain ⟨bindings, attributes, children, hnode⟩ := h
  simp only [evaluator, evaluatorWith]
  cases s.custom.lookup c with
  | some f => exact ⟨_, rfl⟩
  | none =>
    rw [result_of_hasElement hnode hc]
    exact ⟨_, rfl⟩

/-- **The query of an element name** selects the node itself, if it is such an element. -/
theorem query_elementQuery (h : s.environment.document.HasElement address name) {space n : Text}
    (hspace : s.Binds "mathml" space) (hn : isLocalName n = true)
    (hcustom : s.custom.lookup (elementQuery n) = none) :
    s.evaluator.query (some (.node address)) (elementQuery n)
      = .ok (if name.isOf space n then some (.node address) else none) := by
  obtain ⟨bindings, attributes, children, hnode⟩ := h
  simp only [evaluator, evaluatorWith, hcustom]
  rw [result_of_hasElement hnode ((accept_eq hspace.usable _).trans (accept_elementQuery hn)),
    Expr.parse_elementQuery hn, Option.bind_some, Expr.evaluate_toElement hspace.space?]
  cases name.isOf space n <;> rfl

/-! ## Verdicts -/

theorem exists_allHold (h : s.environment.document.HasElement address name) {cs : List Text}
    (hcs : ∀ c ∈ cs, s.accept c = .ok ()) :
    ∃ holds, Selection.allHold s.evaluator (some (.node address)) cs = .ok holds := by
  induction cs with
  | nil => exact ⟨true, rfl⟩
  | cons c rest ih =>
    obtain ⟨first, hfirst⟩ := exists_holds h (hcs c List.mem_cons_self)
    obtain ⟨others, hothers⟩ := ih fun c' hc' => hcs c' (List.mem_cons_of_mem c hc')
    rw [Selection.allHold, hfirst]
    cases first with
    | true => exact ⟨others, hothers⟩
    | false => exact ⟨false, rfl⟩

/-- **A precondition on an element of that name has a verdict.**  It is not favourable at another
element, and it is favourable at this one if there are no constraints. -/
theorem exists_verdict (h : s.environment.document.HasElement address name) {space : Text}
    (hspace : s.Binds "mathml" space) {p : Precondition} {n : Text} (hp : IsAbout p n)
    (hcustom : s.custom.lookup (elementQuery n) = none) :
    ∃ verdict, Selection.test s.evaluator (some (.node address)) p = .ok verdict
      ∧ (verdict = true → name.isOf space n = true)
      ∧ (name.isOf space n = true → p.constraints = [] → verdict = true) := by
  obtain ⟨holds, hholds⟩ := exists_allHold h fun c hc =>
    (accept_eq hspace.usable c).trans (hp.accepted c hc)
  rw [Selection.test, hp.query, query_elementQuery h hspace hp.name hcustom]
  cases hname : name.isOf space n with
  | false => exact ⟨false, rfl, nofun, nofun⟩
  | true =>
    have hself : Selection.allHold s.evaluator (some (.node address)) p.constraints
        = (if some (Item.node address) = some (Item.node address) then
          Selection.allHold s.evaluator (some (.node address)) p.constraints
          else pure false) := (if_pos rfl).symm
    refine ⟨holds, hself.symm.trans hholds, fun _ => rfl, fun _ hnone => ?_⟩
    · rw [hnone] at hholds
      cases hholds
      rfl

end Setting

end MathSpeech.XPath
