import MathSpeech.Proofs.Selection.Alike
import MathSpeech.Proofs.XPath.Downward
import MathSpeech.Proofs.XPath.ElementQuery

/-!
# Proofs/XPath/ContextFree — preconditions that see only the element

A precondition about the elements of one name is **context free** if its constraints look only
downwards (`IsContextFree`).  At elements whose trees are alike, in whatever documents they stand,
such a precondition has the same verdict (`AlikeElements.test_congr`).
-/

namespace MathSpeech.XPath

open Rule (Precondition)
open Store (elementQuery)

/-- **A constraint that looks only downwards**; one that cannot be read sees nothing. -/
def looksDown (c : Text) : Bool := (Expr.parse c).all fun e => e.looksDown false

/-- **A context-free precondition**: it is about the elements of one name, and its constraints look
only downwards. -/
structure IsContextFree (p : Precondition) : Prop where
  about : ∃ n, IsAbout p n
  constraints : ∀ c ∈ p.constraints, looksDown c = true

/-- An element with all below it. -/
def Tree.IsElement : Tree → Prop
  | .element .. => True
  | _ => False

/-- What a constraint says at an element. -/
theorem Setting.holds_of_isElement {s : Setting} (hcustom : ∀ e, s.custom.lookup e = none)
    {a : Address} {t : Tree} (hnode : s.environment.document.nodeAt? a = some ⟨a, .tree t⟩)
    (ht : t.IsElement) {c : Text} (hc : s.accept c = .ok ()) :
    s.evaluator.holds (some (.node a)) c
      = .ok (((Expr.parse c).bind fun e => (e.evaluate s.environment ⟨⟨a, .tree t⟩, none⟩).map
          fun x => x.result.holds).getD false) := by
  match t, ht with
  | .element name bindings attributes children, _ =>
    simp only [Setting.evaluator, Setting.evaluatorWith, hcustom]
    rw [Setting.result_of_hasElement hnode hc]
    cases Expr.parse c with
    | none => rfl
    | some e => exact congrArg (fun verdict => Except.ok (verdict.getD false)) (Option.map_map ..)

/-- **Alike elements**, each in the document of a setting.  The settings give the same namespaces to
prefixes, one of them to that of the element queries, and have no custom queries. -/
structure AlikeElements (s s' : Setting) (a a' : Address) (t t' : Tree) : Prop where
  spaces : s.environment.spaces = s'.environment.spaces
  binds : ∃ space, s.Binds "mathml" space
  custom : ∀ e, s.custom.lookup e = none
  custom' : ∀ e, s'.custom.lookup e = none
  nodeAt : s.environment.document.nodeAt? a = some ⟨a, .tree t⟩
  nodeAt' : s'.environment.document.nodeAt? a' = some ⟨a', .tree t'⟩
  isElement : t.IsElement
  alike : t.Alike t'

namespace AlikeElements

variable {s s' : Setting} {a a' : Address} {t t' : Tree}

/-- Alike elements are elements of the same name, but for its prefix. -/
theorem exists_hasElement (h : AlikeElements s s' a a' t t') : ∃ name name' : Name,
    s.environment.document.HasElement a name ∧ s'.environment.document.HasElement a' name'
      ∧ name.expanded = name'.expanded := by
  obtain ⟨-, -, -, -, hnode, hnode', helement, halike⟩ := h
  match t, t', helement, halike with
  | .element name bindings attributes children, .element name' bindings' attributes' children', _,
    halike =>
    exact ⟨name, name', ⟨_, _, _, hnode⟩, ⟨_, _, _, hnode'⟩, halike.1⟩

/-- Both settings bind the prefix. -/
theorem binds' (h : AlikeElements s s' a a' t t') {space : Text} (hspace : s.Binds "mathml" space) :
    s'.Binds "mathml" space where
  usable := h.spaces ▸ hspace.usable
  space? := by rw [← hspace.space?, Environment.space?, Environment.space?, h.spaces]

/-- **The elements are corresponding views.** -/
theorem corresponds (h : AlikeElements s s' a a' t t') :
    Focus.Corresponds a a' ⟨⟨a, .tree t⟩, none⟩ ⟨⟨a', .tree t'⟩, none⟩ where
  node := by
    have hnode := Corresponds.mk (a := a) (b := a') [] h.alike
    rwa [List.append_nil, List.append_nil] at hnode
  place := rfl

theorem isElement' (h : AlikeElements s s' a a' t t') : t'.IsElement := by
  obtain ⟨-, -, -, -, -, -, helement, halike⟩ := h
  match t, t', helement, halike with
  | .element .., .element .., _, _ => trivial

/-- **A constraint that looks only downwards** says the same at alike elements. -/
theorem holds_congr (h : AlikeElements s s' a a' t t') {c : Text} (hc : accept c = .ok ())
    (hdown : looksDown c = true) :
    s.evaluator.holds (some (.node a)) c = s'.evaluator.holds (some (.node a')) c := by
  obtain ⟨space, hspace⟩ := h.binds
  have hspace' := h.binds' hspace
  rw [Setting.holds_of_isElement h.custom h.nodeAt h.isElement
      ((Setting.accept_eq hspace.usable c).trans hc),
    Setting.holds_of_isElement h.custom' h.nodeAt' h.isElement'
      ((Setting.accept_eq hspace'.usable c).trans hc)]
  cases hparse : Expr.parse c with
  | none => rfl
  | some e =>
    rw [looksDown, hparse] at hdown
    have hvalues := Expr.rel_evaluate h.spaces e hdown h.corresponds
    exact congrArg (fun verdict => Except.ok (verdict.getD false))
      (map_eq_of_rel hvalues fun _ _ hx => hx.resembles.holds_result)

theorem allHold_congr (h : AlikeElements s s' a a' t t') {cs : List Text}
    (hcs : ∀ c ∈ cs, accept c = .ok ()) (hdown : ∀ c ∈ cs, looksDown c = true) :
    Selection.allHold s.evaluator (some (.node a)) cs
      = Selection.allHold s'.evaluator (some (.node a')) cs := by
  induction cs with
  | nil => rfl
  | cons c rest ih =>
    rw [Selection.allHold, Selection.allHold,
      h.holds_congr (hcs c List.mem_cons_self) (hdown c List.mem_cons_self),
      ih (fun c' hc' => hcs c' (List.mem_cons_of_mem c hc'))
        fun c' hc' => hdown c' (List.mem_cons_of_mem c hc')]

/-- **A context-free precondition has the same verdict at alike elements.** -/
theorem test_congr (h : AlikeElements s s' a a' t t') {p : Precondition} (hp : IsContextFree p) :
    Selection.test s.evaluator (some (.node a)) p
      = Selection.test s'.evaluator (some (.node a')) p := by
  obtain ⟨n, hn⟩ := hp.about
  obtain ⟨name, name', hname, hname', hexpanded⟩ := h.exists_hasElement
  obtain ⟨space, hspace⟩ := h.binds
  have hspace' := h.binds' hspace
  have hsame : name.isOf space n = name'.isOf space n :=
    congrArg (fun x : Text × Text => decide (x.2 = n) && decide (x.1 = space)) hexpanded
  rw [Selection.test, Selection.test, hn.query,
    Setting.query_elementQuery hname hspace hn.name (h.custom _),
    Setting.query_elementQuery hname' hspace' hn.name (h.custom' _), hsame]
  cases name'.isOf space n with
  | true =>
    have hall := h.allHold_congr hn.accepted hp.constraints
    exact (if_pos rfl).trans (hall.trans (if_pos rfl).symm)
  | false => rfl

end AlikeElements

end MathSpeech.XPath
