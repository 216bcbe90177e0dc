import MathSpeech.Proofs.XPath.Children
import MathSpeech.Proofs.XPath.Coverage

/-!
# Proofs/XPath/Choice — the entry that is chosen at an element

An element affirms a constraint if its value there is true (`Setting.affirms`).  In a store that
covers the elements it is about, the entry chosen at one of them is the most constrained of those
that are about its name and whose constraints are all affirmed (`Store.Covers.exists_retrieve_eq`).
-/

namespace MathSpeech

open Rule (Precondition)
open Store (elementQuery)
open XPath (Address Name Node Tree Object Expr Setting)

namespace XPath

/-- **A node affirms a constraint** if its value there is true; one that cannot be read or has no
value is not affirmed. -/
def Setting.affirms (s : Setting) (n : Node) (c : Text) : Bool :=
  ((Expr.parse c).bind fun e => (e.evaluate s.environment ⟨n, none⟩).map fun x =>
    x.result.holds).getD false

/-- A constraint that can be read is affirmed if its value is true. -/
theorem Setting.affirms_of {s : Setting} {n : Node} {c : Text} {e : Expr} {x : Object}
    (hparse : Expr.parse c = some e) (hx : e.evaluate s.environment ⟨n, none⟩ = some x) :
    s.affirms n c = x.result.holds := by
  rw [affirms, hparse, Option.bind_some, hx]
  rfl

/-- A constraint whose value is a truth value. -/
theorem Setting.affirms_of_boolean {s : Setting} {n : Node} {c : Text} {e : Expr} {b : Bool}
    (hparse : Expr.parse c = some e)
    (hx : e.evaluate s.environment ⟨n, none⟩ = some (.boolean b)) : s.affirms n c = b :=
  affirms_of hparse hx

/-- A constraint that finds trees is affirmed if there are any. -/
theorem Setting.affirms_of_finds {s : Setting} {n : Node} {c : Text} {e : Expr} {ts : List Tree}
    (hparse : Expr.parse c = some e) (h : e.Finds s.environment ⟨n, none⟩ ts) :
    s.affirms n c = !ts.isEmpty := by
  obtain ⟨x, hx, hholds⟩ := h.exists_evaluate
  rw [affirms_of hparse hx, hholds]

theorem Tree.exists_of_isNamed {space label : Text} {t : Tree} (h : t.isNamed space label = true) :
    ∃ name bindings attributes children, t = .element name bindings attributes children
      ∧ name.label = label ∧ name.space = space := by
  cases t with
  | element name bindings attributes children =>
    rw [isNamed, Bool.and_eq_true, decide_eq_true_iff, decide_eq_true_iff] at h
    exact ⟨name, bindings, attributes, children, rfl, h⟩
  | _ => cases h

section

variable {s : Setting} {a : Address} {t : Tree} {space label : Text}
  (hcustom : ∀ e, s.custom.lookup e = none)
  (hnode : s.environment.document.nodeAt? a = some ⟨a, .tree t⟩)
include hcustom hnode

/-- Constraints that can be read all hold if they are all affirmed. -/
theorem Setting.allHold_eq (ht : t.isElement = true) {cs : List Text}
    (hcs : ∀ c ∈ cs, s.accept c = .ok ()) :
    Selection.allHold s.evaluator (some (.node a)) cs = .ok (cs.all (s.affirms ⟨a, .tree t⟩)) := by
  have helement : t.IsElement := by
    cases t with
    | element => trivial
    | _ => cases ht
  induction cs with
  | nil => rfl
  | cons c rest ih =>
    have hfirst : s.evaluator.holds (some (.node a)) c = .ok (s.affirms ⟨a, .tree t⟩ c) :=
      Setting.holds_of_isElement hcustom hnode helement (hcs c List.mem_cons_self)
    rw [Selection.allHold, hfirst, List.all_cons]
    cases s.affirms ⟨a, .tree t⟩ c with
    | true => exact ih fun c' hc' => hcs c' (List.mem_cons_of_mem c hc')
    | false => rfl

/-- **The verdict on a precondition** at an element. -/
theorem Setting.test_eq (hspace : s.Binds "mathml" space)
    (ht : t.isNamed space label = true) {p : Precondition} {n : Text} (hp : IsAbout p n) :
    Selection.test s.evaluator (some (.node a)) p
      = .ok (p.query = elementQuery label && p.constraints.all (s.affirms ⟨a, .tree t⟩)) := by
  obtain ⟨name, bindings, attributes, children, rfl, rfl, rfl⟩ := Tree.exists_of_isNamed ht
  have hall := Setting.allHold_eq hcustom hnode rfl fun c hc =>
    (Setting.accept_eq hspace.usable c).trans (hp.accepted c hc)
  rw [Selection.test, hp.query,
    query_elementQuery ⟨_, _, _, hnode⟩ hspace hp.name (hcustom _)]
  by_cases hname : elementQuery n = elementQuery name.label
  · rw [if_pos (Name.isOf_iff.mpr ⟨rfl, hname⟩), decide_eq_true hname, Bool.true_and, ← hall]
    exact if_pos rfl
  · have hother : ¬name.isOf name.space n = true := fun h => hname (Name.isOf_iff.mp h).2
    rw [if_neg hother, decide_eq_false hname, Bool.false_and]
    rfl

end

end XPath

/-- **The entry chosen at an element** is the most constrained of those that are about its name and
whose constraints are all affirmed. -/
theorem Store.Covers.exists_retrieve_eq {s : Store} (hs : s.Covers) {setting : Setting}
    (hcustom : ∀ e, setting.custom.lookup e = none) {space : Text}
    (hspace : setting.Binds "mathml" space) {a : Address} {t : Tree}
    (hnode : setting.environment.document.nodeAt? a = some ⟨a, .tree t⟩) {label : Text}
    (ht : t.isNamed space label = true) {best : Entry}
    (hbest : Selection.mostConstrained ((s.entries.filter (·.1.query = elementQuery label)).filter
      fun e => e.1.constraints.all (setting.affirms ⟨a, .tree t⟩)) = some best) :
    ∃ atom, s.retrieve setting.evaluator (some (.node a)) = .ok (some atom)
      ∧ s.atoms.get? best.2 = some atom ∧ atom.key = best.2 := by
  have hverdict : ∀ e ∈ s.entries, Selection.test setting.evaluator (some (.node a)) e.1
      = .ok (e.1.query = elementQuery label
        && e.1.constraints.all (setting.affirms ⟨a, .tree t⟩)) := by
    intro e he
    obtain ⟨n, hn⟩ := hs.about e he
    exact Setting.test_eq hcustom hnode hspace ht hn
  have hentries : s.entries.filter (fun e => e.1.query = elementQuery label
        && e.1.constraints.all (setting.affirms ⟨a, .tree t⟩))
      = (s.entries.filter (·.1.query = elementQuery label)).filter
        fun e => e.1.constraints.all (setting.affirms ⟨a, .tree t⟩) := by
    rw [List.filter_filter]
    exact List.filter_congr fun _ _ => Bool.and_comm ..
  rw [← hentries] at hbest
  have hmem : best ∈ s.entries :=
    (List.mem_filter.mp (Selection.mem_of_mostConstrained hbest)).1
  obtain ⟨atom, hatom, hkey, -⟩ := hs.spoken best hmem
  refine ⟨atom, ?_, hatom, hkey⟩
  rw [retrieve, Selection.select_eq_of_verdicts hverdict, hbest]
  exact congrArg Except.ok hatom

end MathSpeech
