import MathSpeech.Proofs.Store.Diagnosis
import MathSpeech.Proofs.Store.Resolution

/-!
# Proofs/Store/Applicability — when a rule applies to a node

Retrieval and lookup both come down to one selection among the entries of a store, so at a node they
agree: an action is found exactly when an atom is retrieved (`Store.applies_alike_to_nodes`).  At no
node they part.  A lookup is silent there.  A retrieval is not: a query that selects nothing gives
no node, which at no node is the very thing it is compared with, so that every precondition applies
whose constraints hold there, one without constraints always.
-/

namespace MathSpeech

namespace Selection

open Rule (Precondition)

variable {ν : Type} [DecidableEq ν] {ev : Evaluator Id ν} {node : Option ν} {p : Precondition}

/-- **A precondition whose query selects nothing** fits no node, and fits where there is no node
exactly if its constraints hold. -/
theorem fits_iff_of_query_eq_none (hnone : (ev.query node p.query).run = none) :
    fits ev node p = true ↔ node = none ∧ ∀ c ∈ p.constraints, (ev.holds none c).run = true := by
  rw [fits, Bool.and_eq_true, decide_eq_true_iff, List.all_eq_true, hnone, eq_comm]
  constructor
  · rintro ⟨rfl, hall⟩
    exact ⟨rfl, hall⟩
  · rintro ⟨rfl, hall⟩
    exact ⟨rfl, hall⟩

/-- A key is selected exactly when some entry fits. -/
theorem isSome_run_select_iff (ev : Evaluator Id ν) (node : Option ν) (entries : List Entry) :
    (select ev node entries).run.isSome ↔ ∃ e ∈ entries, fits ev node e.1 = true := by
  rw [run_select, Option.isSome_map, Option.isSome_iff_ne_none, ne_eq, mostConstrained_eq_none_iff,
    fitting, List.filter_eq_nil_iff]
  simp only [not_forall, not_not, exists_prop]

end Selection

namespace Store

open Rule (Action)

variable {ν : Type} [DecidableEq ν]

/-- **What is retrieved is the atom of the selected key.** -/
theorem Consistent.map_key_retrieve {h : List Registration} {s : Store} (hs : Consistent h s)
    (ev : Evaluator Id ν) (node : Option ν) :
    (s.retrieve ev node).run.map Atom.key = (Selection.select ev node s.entries).run := by
  rw [run_retrieve, ← Selection.run_select]
  cases hkey : (Selection.select ev node s.entries).run with
  | none => rfl
  | some key =>
    obtain ⟨selected, hselected⟩ := Selection.yields_select ev node s.entries
    have hmem : key ∈ s.entries.map Prod.snd :=
      selected.run.2 key ((congrArg Id.run hselected).trans hkey)
    obtain ⟨atom, hatom⟩ := OrderedMap.mem_keys.mp ((hs.keys key).mp hmem)
    have hfound : s.atomOf (some key) = some atom := hatom
    rw [hfound, Option.map_some, hs.key_eq key atom hatom]

/-- **A lookup at a node finds an action exactly when a key is selected**, and never fails. -/
theorem Reflects.exists_action_lookup {h : List Registration} {s : Store} (hs : Reflects h s)
    (ev : Evaluator Id ν) (node : ν) (domain style : Option Text) :
    ∃ action : Option Action, (s.lookup ev (some node) domain style).run.action = .ok action
      ∧ action.isSome = (Selection.select ev (some node) s.entries).run.isSome := by
  have hlookup := congrArg Id.run (hs.lookup ev node domain style)
  exact ⟨_, hlookup, Option.isSome_map⟩

/-- **Lookup and retrieval agree at every node, and part where there is none.**  Whatever run a
store comes from: at a node an action is found exactly when an atom is retrieved, and a query that
selects nothing never makes a precondition hold.  Where there is no node no action is found; but the
query of every precondition gives just that, so an atom is retrieved exactly when all constraints of
some precondition hold there. -/
theorem applies_alike_to_nodes (kind : Kind) (debug : Bool) (defaultDomain defaultStyle : Text)
    (calls : List Call) (ev : Evaluator Id ν) (hnone : ∀ e, (ev.query none e).run = none) :
    let s := run (blank kind debug defaultDomain defaultStyle) calls
    (∀ node domain style, ∃ action : Option Action,
        (s.lookup ev (some node) domain style).run.action = .ok action
          ∧ action.isSome = (s.retrieve ev (some node)).run.isSome)
      ∧ (∀ node p, (ev.query (some node) p.query).run = none →
          (Selection.test ev (some node) p).run = false)
      ∧ (∀ domain style, (s.lookup ev none domain style).run.action = .ok none)
      ∧ ((s.retrieve ev none).run.isSome
          ↔ ∃ e ∈ s.entries, ∀ c ∈ e.1.constraints, (ev.holds none c).run = true) := by
  intro s
  have hs : Reflects _ s := reflects_run kind debug defaultDomain defaultStyle calls
  have hretrieve : ∀ node, (s.retrieve ev node).run.isSome
      = (Selection.select ev node s.entries).run.isSome := fun node => by
    rw [← hs.consistent.map_key_retrieve, Option.isSome_map]
  refine ⟨fun node domain style => ?_, fun node p hquery => ?_, fun _ _ => rfl, ?_⟩
  · rw [hretrieve]
    exact hs.exists_action_lookup ev node domain style
  · rw [Selection.run_test, Bool.eq_false_iff]
    intro hfits
    cases ((Selection.fits_iff_of_query_eq_none hquery).mp hfits).1
  · rw [hretrieve, Selection.isSome_run_select_iff]
    refine exists_congr fun e => and_congr_right fun _ => ?_
    rw [Selection.fits_iff_of_query_eq_none (hnone e.1.query), and_iff_right rfl]

/-- A run with a rule that has no constraints. -/
def plainRun : List Call := [.define (.rule "k" "" "default.default" "[t] \"x\"" "self::mi" [])]

theorem applies_alike_to_nodes_plainRun :
    let s := run (blank .plain false defaultName defaultName) plainRun
    (∀ e, (ListedNode.evaluator.query none e).run = none)
      ∧ (s.lookup ListedNode.evaluator none none none).run.action = .ok none
      ∧ (s.retrieve ListedNode.evaluator none).run.isSome := by
  have hnone : ∀ e, (ListedNode.evaluator.query none e).run = none := fun _ => rfl
  have hagree := applies_alike_to_nodes .plain false defaultName defaultName plainRun
    ListedNode.evaluator hnone
  exact ⟨hnone, hagree.2.2.1 none none, hagree.2.2.2.mpr (by decide +kernel)⟩

/-- **Where there is no node, a rule may be retrieved of which no lookup knows.** -/
theorem not_applies_alike_to_no_node :
    ¬∀ (calls : List Call) (node : Option ListedNode),
      let s := run (blank .plain false defaultName defaultName) calls
      (∃ action, (s.lookup ListedNode.evaluator node none none).run.action = .ok (some action))
        ↔ (s.retrieve ListedNode.evaluator node).run.isSome := by
  intro hagree
  have hsome : ((run (blank .plain false defaultName defaultName) plainRun).retrieve
      ListedNode.evaluator none).run.isSome := by decide +kernel
  obtain ⟨action, haction⟩ := (hagree plainRun none).mpr hsome
  cases haction

end Store

end MathSpeech
