import MathSpeech.Evaluator.Listed
import MathSpeech.Proofs.Store.Run
import MathSpeech.Proofs.Table.Frozen
import MathSpeech.Store.Lookup

/-!
# Proofs/Store/Frozen — a frozen store never changes again

A **session** brings a store through operations of every kind, calls that may change it and
questions about it, and gathers the answers.  From the freeze on no operation changes the store,
hence each gives the answer that it would have given right after the freeze: a session of a frozen
store is its operations, answered one by one (`Store.session_freeze`).
-/

namespace MathSpeech.Store

open Rule (Precondition)

variable {ε ν : Type}

/-! ## Sessions -/

/-- **An operation on a store**: a call that may change it, or a question about it. -/
inductive Operation (ν : Type)
  | call (c : Call)
  | retrieve (node : Option ν)
  | lookup (node : Option ν) (domain style : Option Text)
  | lookupTraced (node : Option ν) (domain style : Option Text) (t : Trace.Lookup)
  | diagnose (key : Text) (node : Option ν)
  | list
  | preconditions (key : Text)
  | stats

/-- **What a store tells about its size and names.** -/
structure Stats where
  rules : Nat
  preconditions : Nat
  domains : List Text
  styles : List Text
  categories : List Text
  frozen : Bool

/-- **The answer to a call.** -/
inductive Call.Answer
  | defined (x : Except Refusal Bool)
  | definedSome (x : Except Refusal (Bool × List Text))
  | added (x : Except Refusal Atom)
  | ingested (x : Except Table.Fault Table.Report)
  | done

/-- **The answer to an operation.**  A question for the evaluator fails if the evaluator does. -/
inductive Operation.Answer (ε : Type)
  | called (x : Call.Answer)
  | retrieved (x : Except ε (Option Atom))
  | found (x : Except ε Found)
  | traced (x : Except ε (Found × Trace.Lookup))
  | diagnosed (x : Except ε (List Trace.Precondition))
  | listed (ts : List Text)
  | preconditions (ps : List Precondition)
  | stats (x : Stats)

/-- The answer of a store to a call. -/
def Call.answer (s : Store) : Call → Call.Answer
  | define (.rule key category domain text query constraints) =>
    .defined ((s.define key category domain text query constraints).map Change.value)
  | define (.rules key category texts query constraints) =>
    .definedSome ((s.defineMappings key category texts query constraints).map Change.value)
  | define (.actions key category p placed) =>
    .added ((s.addRule key category p placed).map Change.value)
  | define (.other key query constraints) =>
    .defined ((s.defineAlias key query constraints).map Change.value)
  | mathml key domain text => .defined ((s.defineMathml key domain text).map Change.value)
  | defaultMathml key text => .defined ((s.defineDefaultMathml key text).map Change.value)
  | table data source writes => .ingested (Table.Ingest.run s data source writes).outcome
  | freeze => .done

namespace Operation

/-- **The answer of a store to an operation**, by an evaluator that is a function. -/
def answer [DecidableEq ν] (ev : Evaluator (Except ε) ν) (s : Store) : Operation ν → Answer ε
  | call c => .called (c.answer s)
  | retrieve node => .retrieved (s.retrieve ev node)
  | lookup node domain style => .found (s.lookup ev node domain style)
  | lookupTraced node domain style t => .traced (s.lookupTraced ev node domain style t)
  | diagnose key node => .diagnosed (s.diagnose ev key node)
  | list => .listed (s.listings ++ [s.summary])
  | preconditions key => .preconditions (s.preconditionsFor key)
  | stats => .stats {
      rules := s.size, preconditions := s.entries.length, domains := s.domains,
      styles := s.styles, categories := s.categories, frozen := s.frozen }

/-- The store after an operation; no question changes it. -/
def after (s : Store) : Operation ν → Store
  | call c => c.after s
  | _ => s

end Operation

/-- **A session**: the answers to operations, one after the other, and the store at the end. -/
def session [DecidableEq ν] (ev : Evaluator (Except ε) ν) (s : Store) :
    List (Operation ν) → List (Operation.Answer ε) × Store
  | [] => ([], s)
  | o :: rest => (session ev (o.after s) rest).map (o.answer ev s :: ·) id

/-! ## Frozen stores -/

theorem Call.after_of_frozen {s : Store} (hs : s.frozen = true) (c : Call) : c.after s = s := by
  obtain hc | ⟨hc, -⟩ := c.after_cases s
  · rw [hc, afterAll_of_frozen hs]
  · rw [hc, Store.freeze, ← hs]

theorem Operation.after_of_frozen {s : Store} (hs : s.frozen = true) (o : Operation ν) :
    o.after s = s := by
  cases o with
  | call c => exact c.after_of_frozen hs
  | _ => rfl

/-- **A session of a frozen store** is its operations, answered one by one; the store stays. -/
theorem session_of_frozen [DecidableEq ν] (ev : Evaluator (Except ε) ν) {s : Store}
    (hs : s.frozen = true) (os : List (Operation ν)) :
    session ev s os = (os.map fun o => o.answer ev s, s) := by
  induction os with
  | nil => rfl
  | cons o rest ih =>
    rw [session, o.after_of_frozen hs, ih]
    rfl

/-- **A frozen store refuses every definition**, whatever its arguments. -/
structure RefusesAll (s : Store) : Prop where
  define : ∀ key category domain text query constraints,
    s.define key category domain text query constraints = .error ⟨"define rule"⟩
  defineMappings : ∀ key category mappings query constraints,
    s.defineMappings key category mappings query constraints = .error ⟨"define rule"⟩
  addRule : ∀ key category p placed, s.addRule key category p placed = .error ⟨"add rule"⟩
  defineAlias : ∀ key query constraints,
    s.defineAlias key query constraints = .error ⟨"define rule alias"⟩
  defineMathml : ∀ key domain text, s.defineMathml key domain text = .error ⟨"define rule"⟩
  defineDefaultMathml : ∀ key text, s.defineDefaultMathml key text = .error ⟨"define rule"⟩

theorem refusesAll_of_frozen {s : Store} (hs : s.frozen = true) : s.RefusesAll where
  define _ _ _ _ _ _ := if_pos hs
  defineMappings _ _ _ _ _ := if_pos hs
  addRule _ _ _ _ := if_pos hs
  defineAlias _ _ _ := if_pos hs
  defineMathml _ _ _ := if_pos hs
  defineDefaultMathml _ _ := if_pos hs

/-- **From the freeze on nothing changes.**  In a session of a frozen store every operation gets the
answer that it would have got right after the freeze, so equal questions get equal answers, and the
store stays as it is.  Definitions are refused.  The ingest of a table is refused, or it ends with a
report that names no key; and it is the latter exactly if no entry of the table is well formed.
Left out are the tables with an entry that is not well formed and cannot be named: such an entry
stops the ingest, if no entry before it is well formed. -/
theorem session_freeze [DecidableEq ν] (ev : Evaluator (Except ε) ν) (s : Store)
    (os : List (Operation ν)) :
    let t := (session ev s.freeze os).2
    t = { s with frozen := true }
      ∧ (session ev s.freeze os).1 = os.map (fun o => o.answer ev s.freeze)
      ∧ (∀ node domain style, t.retrieve ev node = s.freeze.retrieve ev node
        ∧ t.lookup ev node domain style = s.freeze.lookup ev node domain style)
      ∧ t.RefusesAll
      ∧ ∀ entries source writes,
        let data : Value := .map entries
        let outcome := (Table.Ingest.run t data source writes).outcome
        let noneIn (part : Value) :=
          (∀ v ∈ Table.sectionItems part "rules",
            ∃ issues, Table.RuleDefinition.read v = .error issues)
          ∧ ∀ v ∈ Table.sectionItems part "aliases",
            ∃ issues, Table.AliasDefinition.read v = .error issues
        ((∃ r, outcome = .error (.refused r)) ∨ outcome = .error .unwritable
            ∨ ∃ report, outcome = .ok report ∧ report.defined = [] ∧ report.aliased = [])
          ∧ ((∃ report, outcome = .ok report)
            ↔ noneIn data ∧ Table.isPassable writes data = true)
          ∧ (outcome = .error .unwritable
            ↔ noneIn (Table.reached writes data) ∧ Table.isPassable writes data = false) := by
  have hfrozen : s.freeze.frozen = true := rfl
  have hsession := session_of_frozen ev hfrozen os
  rw [hsession]
  refine ⟨rfl, rfl, fun _ _ _ => ⟨rfl, rfl⟩, refusesAll_of_frozen hfrozen, ?_⟩
  intro entries source writes data
  have hdata : data.isMap = true := rfl
  have houtcome := Table.Ingest.refused_or_empty_of_frozen hfrozen hdata source writes
  rwa [Table.hasEntry_eq_false_iff, Table.hasEntry_eq_false_iff] at houtcome

/-- A store with a rule for one element. -/
def identifierStore : Store :=
  run (blank .mathml false defaultName defaultName) [.defaultMathml "mi" "[n] ."]

/-- A definition, an empty table and a question, all of them too late. -/
def lateOperations : List (Operation ListedNode) :=
  [.call (.defaultMathml "mo" "[n] ."), .call (.table (.map []) "late"),
    .retrieve (some { address := [], tag := some "mi", form := "" })]

theorem session_freeze_lateOperations :
    let ev : Evaluator (Except Unit) ListedNode := ListedNode.evaluator.lift
    let t := (session ev identifierStore.freeze lateOperations).2
    t = { identifierStore with frozen := true }
      ∧ t.define "mo" "" "default.default" "[n] ." "self::mo" [] = .error ⟨"define rule"⟩
      ∧ ∃ report, (Table.Ingest.run t (.map []) "late").outcome = .ok report := by
  intro ev
  obtain ⟨hstore, -, -, hrefuses, hingest⟩ := session_freeze ev identifierStore lateOperations
  obtain ⟨-, hreport, -⟩ := hingest [] "late" Value.isWritable
  refine ⟨hstore, hrefuses.define .., hreport.mpr ⟨⟨?_, ?_⟩, rfl⟩⟩
  · exact fun _ hv => absurd hv List.not_mem_nil
  · exact fun _ hv => absurd hv List.not_mem_nil

/-- **Not every table is refused or gets a report.**  The key of the first rule stops the ingest
before the second, which is well formed, is refused. -/
theorem not_refused_or_reported :
    let outcome := (Table.Ingest.run identifierStore.freeze Table.unwritableTable "late").outcome
    (¬∃ r, outcome = .error (.refused r)) ∧ ¬∃ report, outcome = .ok report := by
  intro outcome
  have hfault : (Table.Ingest.run identifierStore.freeze Table.unwritableTable "late").fault
      = some .unwritable := by decide +kernel
  refine ⟨?_, Table.Ingest.not_exists_report hfault⟩
  rintro ⟨r, hrefused⟩
  cases (Table.Ingest.outcome_of_fault hfault).symm.trans hrefused

end MathSpeech.Store
