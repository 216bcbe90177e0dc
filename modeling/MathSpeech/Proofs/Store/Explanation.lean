import MathSpeech.Proofs.Selection.Ranking
import MathSpeech.Proofs.Store.Applicability

/-!
# Proofs/Store/Explanation — what the trace of a lookup tells

A traced lookup writes down a candidate for every entry of the store, the key it selected and the
outcome.  The candidates and the key are as they should be (`Store.Explains`).  The outcome is told
from the selected key and not from the match, and an empty key counts as none: an action that is
found under the empty key is said not to be (`Store.trace_explains_lookup`).
-/

namespace MathSpeech

namespace Selection

variable {ν : Type} [DecidableEq ν] (ev : Evaluator Id ν) (node : Option ν)

/-- **The candidates are the traces of the entries**, numbered. -/
theorem run_traces (index : Nat) (entries : List Entry) :
    (traces ev node index entries).run
      = (entries.zipIdx index).map fun e => (trace ev node e.1.1 e.1.2 e.2).run := by
  induction entries generalizing index with
  | nil => rfl
  | cons e rest ih => rw [run_traces_cons, ih, List.zipIdx_cons, List.map_cons]

/-- The candidate at a place is the trace of the entry at that place. -/
theorem getElem?_run_traces (entries : List Entry) (j : Nat) :
    (traces ev node 0 entries).run[j]?
      = entries[j]?.map fun e => (trace ev node e.1 e.2 j).run := by
  rw [run_traces, List.getElem?_map, List.getElem?_zipIdx, Option.map_map, Nat.zero_add]
  rfl

/-- **The best entry is seen in the candidates**: at its place there is a candidate with its key
that matched, and it is the first of the most constrained ones that did. -/
theorem exists_firstMost_traces {entries : List Entry} {best : Entry}
    (h : mostConstrained (fitting ev node entries) = some best) :
    ∃ i c, FirstMost Trace.Precondition.matched (fun c => c.constraints.length)
        (traces ev node 0 entries).run i c ∧ c.key = best.2 := by
  obtain ⟨i, hi⟩ := exists_firstMost_of_mostConstrained h
  refine ⟨i, (trace ev node best.1 best.2 i).run,
    hi.congr (f := fun j e => (trace ev node e.1 e.2 j).run) (getElem?_run_traces ev node entries)
      (fun j e => run_matched_trace ev node e.1 e.2 j) fun j e => ?_, ?_⟩
  · rw [run_trace]
    rfl
  · rw [run_trace]

/-- Where no entry fits, no candidate matched. -/
theorem matched_eq_false_of_mem_traces {entries : List Entry}
    (h : fitting ev node entries = []) {c : Trace.Precondition}
    (hc : c ∈ (traces ev node 0 entries).run) : c.matched = false := by
  rw [Bool.eq_false_iff]
  intro hmatched
  obtain ⟨e, he, hfits⟩ := (exists_matched_traces_iff ev node 0 entries).mp ⟨c, hc, hmatched⟩
  exact List.filter_eq_nil_iff.mp h e he hfits

/-- The outcome is a match if there is a key, and not the empty one. -/
theorem outcome_eq_ite (key : Option Text) :
    outcome key = if key.isSome ∧ key ≠ some [] then .matched else .noRule := by
  match key with
  | none | some [] | some (_ :: _) => rfl

end Selection

namespace Store

open Rule (Action)
open Selection (FirstMost mostConstrained fitting traces)

variable {ν : Type} [DecidableEq ν]

/-- **A trace explains a lookup** at a node, its outcome apart. -/
structure Explains (s : Store) (ev : Evaluator Id ν) (node : ν) (action : Option Action)
    (t : Trace.Lookup) : Prop where
  /-- There is a candidate for each entry, in order, with its number, key, query and constraints. -/
  candidates : t.candidates.map (fun c => (c.index, c.key, c.query, c.constraints))
    = s.entries.zipIdx.map fun e => ((e.2 : Int), e.1.2, e.1.1.query, e.1.1.constraints)
  /-- The selected key is that of the atom that is retrieved. -/
  selected : t.selected = (s.retrieve ev (some node)).run.map Atom.key
  /-- A key is selected exactly if an action is found. -/
  found : t.selected.isSome = action.isSome
  /-- The key is that of the first of the most constrained candidates that matched. -/
  hit : ∀ key ∈ t.selected, ∃ i c, FirstMost Trace.Precondition.matched
    (fun c => c.constraints.length) t.candidates i c ∧ c.key = key
  /-- Without a key, no candidate matched. -/
  miss : t.selected = none → ∀ c ∈ t.candidates, c.matched = false

section Traced

variable (s : Store) (ev : Evaluator Id ν) (node : ν) (domain style : Option Text)

theorem candidates_lookupTraced :
    (s.lookupTraced ev (some node) domain style {}).run.2.candidates
      = (traces ev (some node) 0 s.entries).run := rfl

theorem selected_lookupTraced :
    (s.lookupTraced ev (some node) domain style {}).run.2.selected
      = (Selection.select ev (some node) s.entries).run :=
  Selection.run_selectTraced ev (some node) s.entries {}

theorem resolution_lookupTraced :
    (s.lookupTraced ev (some node) domain style {}).run.2.resolution
      = Selection.outcome (Selection.select ev (some node) s.entries).run :=
  congrArg Selection.outcome (Selection.run_selectTraced ev (some node) s.entries {})

/-- **A traced lookup finds what the plain one does.** -/
theorem found_lookupTraced :
    (s.lookupTraced ev (some node) domain style {}).run.1
      = (s.lookup ev (some node) domain style).run := by
  refine congrArg (fun key => s.answer (orDefault s.defaultDomain domain)
    (orDefault s.defaultStyle style) (s.atomOf key)) ?_
  exact Selection.run_selectTraced ev (some node) s.entries {}

end Traced

/-- **The trace of a lookup explains it.** -/
theorem Consistent.explains {h : List Registration} {s : Store} (hs : Consistent h s)
    (ev : Evaluator Id ν) (node : ν) (domain style : Option Text) {action : Option Action}
    (hsome : action.isSome = (Selection.select ev (some node) s.entries).run.isSome) :
    s.Explains ev node action (s.lookupTraced ev (some node) domain style {}).run.2 where
  candidates := by
    rw [candidates_lookupTraced, Selection.run_traces, List.map_map]
    refine List.map_congr_left fun e _ => ?_
    rw [Function.comp_apply, Selection.run_trace]
  selected := by rw [selected_lookupTraced, hs.map_key_retrieve]
  found := by rw [selected_lookupTraced, hsome]
  hit key hkey := by
    rw [selected_lookupTraced, Selection.run_select] at hkey
    obtain ⟨best, hbest, rfl⟩ := Option.map_eq_some_iff.mp hkey
    exact Selection.exists_firstMost_traces ev (some node) hbest
  miss hnone c hc := by
    rw [selected_lookupTraced, Selection.run_select, Option.map_eq_none_iff,
      Selection.mostConstrained_eq_none_iff] at hnone
    exact Selection.matched_eq_false_of_mem_traces ev (some node) hnone hc

/-- **The trace of a lookup tells what happened**, whatever run the store comes from.  Only the
outcome may be wrong: it says that a rule matched exactly if an action is found and the selected key
is not the empty one. -/
theorem trace_explains_lookup (kind : Kind) (debug : Bool) (defaultDomain defaultStyle : Text)
    (calls : List Call) (ev : Evaluator Id ν) (node : ν) (domain style : Option Text) :
    let s := run (blank kind debug defaultDomain defaultStyle) calls
    let found := (s.lookupTraced ev (some node) domain style {}).run
    ∃ action : Option Action, found.1.action = .ok action
      ∧ s.Explains ev node action found.2
      ∧ found.2.resolution
          = if action.isSome ∧ found.2.selected ≠ some [] then .matched else .noRule := by
  intro s found
  have hs : Reflects _ s := reflects_run kind debug defaultDomain defaultStyle calls
  obtain ⟨action, haction, hsome⟩ := hs.exists_action_lookup ev node domain style
  refine ⟨action, ?_, hs.consistent.explains ev node domain style hsome, ?_⟩
  · rw [← haction, ← found_lookupTraced]
  · rw [resolution_lookupTraced, selected_lookupTraced, Selection.outcome_eq_ite, hsome]

/-- A run with a rule under the empty key. -/
def namelessRun : List Call := [.define (.rule "" "" "default.default" "[t] \"x\"" "self::mi" [])]

/-- **A rule under the empty key** is applied, and the trace says that there is none. -/
theorem not_trace_tells_outcome :
    ¬∀ (calls : List Call) (node : ListedNode),
      let s := run (blank .plain false defaultName defaultName) calls
      let found := (s.lookupTraced ListedNode.evaluator (some node) none none {}).run
      (∃ action, found.1.action = .ok (some action)) → found.2.resolution = .matched := by
  intro htells
  have hresolution := htells namelessRun { address := [0], tag := some "mi", form := [] }
    ⟨⟨[{ kind := .text, content := "\"x\"" }]⟩, by decide +kernel⟩
  exact absurd hresolution (by decide +kernel)

end Store

end MathSpeech
