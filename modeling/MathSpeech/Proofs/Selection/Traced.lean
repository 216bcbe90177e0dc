import MathSpeech.Proofs.Selection.Fit

/-!
# Proofs/Selection/Traced — a trace changes no verdict

A trace evaluates every constraint, where the plain test stops at the first that fails, and it
computes its verdict from what it recorded.  With a pure evaluator the two agree:

* `run_matched_trace`, `run_selectTraced` — same verdict, same selection;
* `asked_test`, `asked_trace` — the questions asked in each of the two ways, in order; those of the
  test are the first of those of the trace (`asked_test_isPrefix`).
-/

namespace MathSpeech.Selection

open Rule (Precondition)

variable {ν : Type} (ev : Evaluator Id ν) (node : Option ν)

/-! ## Verdicts -/

/-- The record of one constraint. -/
def constraintStep (c : Text) : Trace.Step :=
  { expression := c, kind := .constraint, result := (ev.holds node c).run }

theorem run_traceConstraints (cs : List Text) :
    (traceConstraints ev node cs).run = cs.map (constraintStep ev node) := by
  induction cs with
  | nil => rfl
  | cons c rest ih =>
    rw [traceConstraints, Id.run_bind, Id.run_bind, ih]
    rfl

variable [DecidableEq ν]

/-- The record of a query. -/
def queryStep (query : Text) : Trace.Step :=
  { expression := query, kind := .query, result := decide ((ev.query node query).run = node)
    detail := ev.labelOf (ev.query node query).run }

theorem run_trace (p : Precondition) (key : Text) (index : Nat) :
    (trace ev node p key index).run
      = { key, index, query := p.query, constraints := p.constraints
          steps := queryStep ev node p.query :: p.constraints.map (constraintStep ev node) } := by
  rw [trace, Id.run_bind, Id.run_bind, run_traceConstraints]
  rfl

/-- **The verdict of a trace** is that of the test: whether the precondition fits. -/
theorem run_matched_trace (p : Precondition) (key : Text) (index : Nat) :
    (trace ev node p key index).run.matched = fits ev node p := by
  have hquery : (trace ev node p key index).run.queryMatched
      = decide ((ev.query node p.query).run = node) := by
    rw [run_trace, Trace.Precondition.queryMatched, List.any_cons, List.any_map]
    simp [queryStep, constraintStep, Function.comp_def]
  have hfailed : (trace ev node p key index).run.failed
      = p.constraints.filter fun c => !(ev.holds node c).run := by
    rw [run_trace, Trace.Precondition.failed, List.filter_cons, List.filter_map]
    simp [queryStep, constraintStep, Function.comp_def]
  have hall : (p.constraints.filter fun c => !(ev.holds node c).run).isEmpty
      = p.constraints.all fun c => (ev.holds node c).run := by
    rw [Bool.eq_iff_iff, List.isEmpty_iff, List.filter_eq_nil_iff, List.all_eq_true]
    simp only [Bool.not_eq_true', Bool.not_eq_false]
  rw [Trace.Precondition.matched, hquery, hfailed, hall, fits]

theorem run_traces_cons (index : Nat) (e : Entry) (rest : List Entry) :
    (traces ev node index (e :: rest)).run
      = (trace ev node e.1 e.2 index).run :: (traces ev node (index + 1) rest).run := rfl

theorem map_matched_traces (index : Nat) (entries : List Entry) :
    (traces ev node index entries).run.map Trace.Precondition.matched
      = entries.map fun e => fits ev node e.1 := by
  induction entries generalizing index with
  | nil => rfl
  | cons e rest ih =>
    rw [run_traces_cons, List.map_cons, List.map_cons, run_matched_trace, ih]

theorem matching_cons (e : Entry) (rest : List Entry) (t : Trace.Precondition)
    (ts : List Trace.Precondition) : matching (e :: rest) (t :: ts)
      = if t.matched then e :: matching rest ts else matching rest ts := by
  rw [matching, List.zip_cons_cons, List.filter_cons]
  dsimp only
  split <;> rfl

theorem matching_traces (index : Nat) (entries : List Entry) :
    matching entries (traces ev node index entries).run = fitting ev node entries := by
  induction entries generalizing index with
  | nil => rfl
  | cons e rest ih =>
    rw [run_traces_cons, matching_cons, run_matched_trace, ih, fitting, fitting, List.filter_cons]

/-- **Traced selection selects the same key.** -/
theorem run_selectTraced (entries : List Entry) (t : Trace.Lookup) :
    (selectTraced ev node entries t).run.1 = (select ev node entries).run := by
  have hselected : (selectTraced ev node entries t).run.1
      = (mostConstrained (matching entries (traces ev node 0 entries).run)).map Prod.snd := rfl
  rw [hselected, matching_traces, run_select]

/-- Some trace matches exactly when some entry fits. -/
theorem exists_matched_traces_iff (index : Nat) (entries : List Entry) :
    (∃ t ∈ (traces ev node index entries).run, t.matched = true)
      ↔ ∃ e ∈ entries, fits ev node e.1 = true := by
  have hmap := map_matched_traces ev node index entries
  have hmem : (true ∈ (traces ev node index entries).run.map Trace.Precondition.matched)
      ↔ true ∈ entries.map fun e => fits ev node e.1 := by rw [hmap]
  simpa only [List.mem_map] using hmem

/-! ## Questions

The test asks the query first, and the constraints only if the query gives the node itself; then it
stops behind the first constraint that fails. -/

omit [DecidableEq ν]

/-- **The questions that a computation asks** of a recorded evaluator, in order. -/
def asked {α : Type} (x : StateM (List Question) α) : List Question := (x.run []).run.2

/-- The constraints up to the first that fails, which is the last one tried. -/
def tried (cs : List Text) : List Text :=
  cs.take (cs.findIdx (fun c => !(ev.holds node c).run) + 1)

theorem tried_cons (c : Text) (rest : List Text) :
    tried ev node (c :: rest) = c :: if (ev.holds node c).run then tried ev node rest else [] := by
  rw [tried, tried, List.take_succ_cons, List.findIdx_cons]
  cases (ev.holds node c).run <;> simp

theorem run_holds_recorded (c : Text) (log : List Question) :
    ((ev.recorded.holds node c).run log).run
      = ((ev.holds node c).run, log ++ [.constraint c]) := rfl

theorem run_query_recorded (query : Text) (log : List Question) :
    ((ev.recorded.query node query).run log).run
      = ((ev.query node query).run, log ++ [.query query]) := rfl

theorem run_allHold_recorded (cs : List Text) (log : List Question) :
    ((allHold ev.recorded node cs).run log).run
      = (cs.all fun c => (ev.holds node c).run, log ++ (tried ev node cs).map .constraint) := by
  induction cs generalizing log with
  | nil => simp [allHold, tried]
  | cons c rest ih =>
    have hstep : ((allHold ev.recorded node (c :: rest)).run log).run
        = if (ev.holds node c).run
          then ((allHold ev.recorded node rest).run (log ++ [.constraint c])).run
          else (false, log ++ [.constraint c]) := by
      rw [allHold, StateT.run_bind, Id.run_bind, run_holds_recorded]
      split <;> rfl
    rw [hstep, ih, tried_cons, List.all_cons]
    cases (ev.holds node c).run <;> simp

theorem run_traceConstraints_recorded (cs : List Text) (log : List Question) :
    ((traceConstraints ev.recorded node cs).run log).run
      = (cs.map (constraintStep ev node), log ++ cs.map .constraint) := by
  induction cs generalizing log with
  | nil => simp [traceConstraints]
  | cons c rest ih =>
    rw [traceConstraints, StateT.run_bind, Id.run_bind, run_holds_recorded, StateT.run_bind,
      Id.run_bind, ih]
    exact Prod.ext rfl (List.append_assoc log [.constraint c] _)

variable [DecidableEq ν]

/-- **The questions of a test**: the query, and behind it, if the query gives the node itself, the
constraints up to the first that fails. -/
theorem asked_test (p : Precondition) :
    asked (test ev.recorded node p) = .query p.query
      :: if (ev.query node p.query).run = node then (tried ev node p.constraints).map .constraint
        else [] := by
  rw [asked, test, StateT.run_bind, Id.run_bind, run_query_recorded]
  split
  · rw [run_allHold_recorded]
    rfl
  · rfl

/-- **The questions of a trace**: the query and every constraint. -/
theorem asked_trace (p : Precondition) (key : Text) (index : Nat) :
    asked (trace ev.recorded node p key index)
      = .query p.query :: p.constraints.map .constraint := by
  rw [asked, trace, StateT.run_bind, Id.run_bind, run_query_recorded, StateT.run_bind, Id.run_bind,
    run_traceConstraints_recorded]
  rfl

/-- **A test asks the first of the questions of a trace.** -/
theorem asked_test_isPrefix (p : Precondition) (key : Text) (index : Nat) :
    (asked (test ev.recorded node p)).IsPrefix (asked (trace ev.recorded node p key index)) := by
  rw [asked_test, asked_trace, List.cons_prefix_cons]
  refine ⟨rfl, ?_⟩
  split
  · exact (List.take_prefix _ p.constraints).map Question.constraint
  · exact List.nil_prefix

end MathSpeech.Selection
