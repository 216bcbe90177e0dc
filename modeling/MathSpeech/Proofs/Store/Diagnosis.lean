import MathSpeech.Evaluator.Listed
import MathSpeech.Proofs.Selection.Traced
import MathSpeech.Proofs.Store.Consistent
import MathSpeech.Store.Lookup

/-!
# Proofs/Store/Diagnosis — a diagnosis explains a retrieval

The diagnosis of a key traces every precondition that leads to the key, and a retrieval selects
among the preconditions of all keys.  In a consistent store every key that is selected has an atom,
so a retrieval fails only if nothing matches: then no diagnosis shows a match, and else the
diagnosis of the key that is found shows one.
-/

namespace MathSpeech.Store

open Selection (fits fitting mostConstrained)

variable {ν : Type} [DecidableEq ν] {ev : Evaluator Id ν} {node : Option ν}

/-! ## What a diagnosis shows -/

theorem map_preconditionsFor (s : Store) (key : Text) :
    ((s.preconditionsFor key).map fun p => (p, key)) = s.entries.filter fun e => e.2 = key := by
  rw [preconditionsFor, List.map_map]
  refine (List.map_congr_left fun e he => ?_).trans (List.map_id _)
  have hkey : e.2 = key := of_decide_eq_true (List.mem_filter.mp he).2
  exact Prod.ext rfl hkey.symm

/-- **The diagnosis of a key shows a match** exactly when an entry of the key fits. -/
theorem exists_matched_diagnose_iff {s : Store} {key : Text} :
    (∃ t ∈ (s.diagnose ev key node).run, t.matched = true)
      ↔ ∃ e ∈ s.entries, e.2 = key ∧ fits ev node e.1 = true := by
  rw [diagnose, map_preconditionsFor, Selection.exists_matched_traces_iff]
  simp only [List.mem_filter, decide_eq_true_eq, and_assoc]

/-! ## What a retrieval finds -/

theorem run_retrieve (s : Store) :
    (s.retrieve ev node).run
      = s.atomOf ((mostConstrained (fitting ev node s.entries)).map Prod.snd) := by
  rw [← Selection.run_select]
  rfl

/-- **What is retrieved** from a consistent store is the atom of an entry that fits. -/
theorem Consistent.retrieve_cases {h : List Registration} {s : Store} (hs : Consistent h s)
    (ev : Evaluator Id ν) (node : Option ν) :
    (s.retrieve ev node).run = none ∧ (∀ e ∈ s.entries, fits ev node e.1 = false)
      ∨ ∃ atom, (s.retrieve ev node).run = some atom
          ∧ ∃ e ∈ s.entries, e.2 = atom.key ∧ fits ev node e.1 = true := by
  rw [run_retrieve]
  cases hbest : mostConstrained (fitting ev node s.entries) with
  | none =>
    have hnone : fitting ev node s.entries = [] := Selection.mostConstrained_eq_none_iff.mp hbest
    refine .inl ⟨rfl, fun e he => ?_⟩
    exact Bool.of_not_eq_true (List.filter_eq_nil_iff.mp hnone e he)
  | some e =>
    obtain ⟨he, hfits⟩ := List.mem_filter.mp (Selection.mem_of_mostConstrained hbest)
    have hkey : e.2 ∈ s.atoms.keys := (hs.keys e.2).mp (List.mem_map_of_mem he)
    obtain ⟨atom, hatom⟩ := OrderedMap.mem_keys.mp hkey
    exact .inr ⟨atom, hatom, e, he, (hs.key_eq e.2 atom hatom).symm, hfits⟩

/-- **A diagnosis explains a retrieval**: nothing is retrieved exactly when no diagnosis shows a
match, and the diagnosis of the key that is retrieved shows one. -/
theorem Consistent.retrieve_iff_diagnose {h : List Registration} {s : Store}
    (hs : Consistent h s) (ev : Evaluator Id ν) (node : Option ν) :
    ((s.retrieve ev node).run = none
        ↔ ∀ key, ∀ t ∈ (s.diagnose ev key node).run, t.matched = false)
      ∧ ∀ atom, (s.retrieve ev node).run = some atom →
          ∃ t ∈ (s.diagnose ev atom.key node).run, t.matched = true := by
  obtain ⟨hnone, hfits⟩ | ⟨atom, hsome, hfits⟩ := hs.retrieve_cases ev node
  · refine ⟨iff_of_true hnone fun key t ht => ?_, fun atom h => ?_⟩
    · by_contra hmatched
      obtain ⟨e, he, -, hfit⟩ := exists_matched_diagnose_iff.mp
        ⟨t, ht, Bool.of_not_eq_false hmatched⟩
      exact Bool.false_ne_true ((hfits e he).symm.trans hfit)
    · cases hnone.symm.trans h
  · obtain ⟨t, ht, hmatched⟩ := exists_matched_diagnose_iff.mpr hfits
    refine ⟨iff_of_false (fun h => ?_) fun h => ?_, fun other h => ?_⟩
    · cases hsome.symm.trans h
    · exact absurd ((h atom.key t ht).symm.trans hmatched) Bool.false_ne_true
    · cases hsome.symm.trans h
      exact ⟨t, ht, hmatched⟩

/-! ## Traced and untraced evaluation -/

/-- **Tracing changes nothing but the questions asked**, and those only at the end.  With a pure
evaluator a trace has the verdict of the test, traced selection selects the same key, the questions
of a test are the first of those of the trace, and what a store retrieves is explained by its
diagnoses, whatever run it comes from. -/
theorem traced_agrees (ev : Evaluator Id ν) (node : Option ν) :
    (∀ p key index, (Selection.trace ev node p key index).run.matched
        = (Selection.test ev node p).run)
      ∧ (∀ entries t, (Selection.selectTraced ev node entries t).run.1
          = (Selection.select ev node entries).run)
      ∧ (∀ p key index,
          Selection.asked (Selection.test ev.recorded node p) = .query p.query
              :: (if (ev.query node p.query).run = node
                then (Selection.tried ev node p.constraints).map .constraint else [])
            ∧ Selection.asked (Selection.trace ev.recorded node p key index)
              = .query p.query :: p.constraints.map .constraint
            ∧ (Selection.asked (Selection.test ev.recorded node p)).IsPrefix
                (Selection.asked (Selection.trace ev.recorded node p key index)))
      ∧ ∀ kind debug defaultDomain defaultStyle calls,
          let s := run (blank kind debug defaultDomain defaultStyle) calls
          ((s.retrieve ev node).run = none
              ↔ ∀ key, ∀ t ∈ (s.diagnose ev key node).run, t.matched = false)
            ∧ ∀ atom, (s.retrieve ev node).run = some atom →
                ∃ t ∈ (s.diagnose ev atom.key node).run, t.matched = true := by
  refine ⟨fun p key index => ?_, Selection.run_selectTraced ev node, fun p key index => ?_, ?_⟩
  · rw [Selection.run_matched_trace, Selection.run_test]
  · exact ⟨Selection.asked_test ev node p, Selection.asked_trace ev node p key index,
      Selection.asked_test_isPrefix ev node p key index⟩
  · intro kind debug defaultDomain defaultStyle calls s
    have hs := (reflects_run kind debug defaultDomain defaultStyle calls).consistent
    exact hs.retrieve_iff_diagnose ev node

/-- A run with a rule for an element and a more special one. -/
def squareRun : List Call :=
  [.define (.rule "msup" "Mathml" "default.default" "[n] ./*[1]" "self::msup" []),
    .define (.rule "square" "Mathml" "default.default" "[t] \"square\"" "self::msup" ["exp2"])]

/-- A node that both rules fit. -/
def squareNode : ListedNode :=
  { address := [0], tag := some "msup", facts := ["exp2"], form := "FakeNode(msup)" }

theorem traced_agrees_square :
    let s := run (blank .plain false defaultName defaultName) squareRun
    (s.retrieve ListedNode.evaluator (some squareNode)).run = some ((Atom.new "square" "Mathml").add
        defaultName defaultName ⟨[{ kind := .text, content := "\"square\"" }]⟩)
      ∧ ∃ t ∈ (s.diagnose ListedNode.evaluator "square" (some squareNode)).run,
          t.matched = true := by
  have hretrieve : ((run (blank .plain false defaultName defaultName) squareRun).retrieve
      ListedNode.evaluator (some squareNode)).run = some ((Atom.new "square" "Mathml").add
        defaultName defaultName ⟨[{ kind := .text, content := "\"square\"" }]⟩) := by
    decide +kernel
  exact ⟨hretrieve, ((traced_agrees ListedNode.evaluator (some squareNode)).2.2.2 .plain false
    defaultName defaultName squareRun).2 _ hretrieve⟩

end MathSpeech.Store
