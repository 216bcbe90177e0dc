import MathSpeech.Proofs.Table.Definitions
import MathSpeech.Proofs.Table.Reading
import Mathlib.Data.List.Basic
import Mathlib.Data.List.TakeWhile

/-!
# Proofs/Table/Reached — how far an ingest gets in a table

An entry is **passable** if it is well formed or can be named.  One that is neither stops the
ingest: the entries behind it are not looked at, nor are the aliases, if it is one of the rules.
What comes before it is the part of the table that is **reached**.

So limits on what can be written do nothing to a table whose entries are all passable
(`Ingest.run_of_passable`).  Of any other table the ingest does what it does without limits to the
part that is reached (`Ingest.store_run_reached`), but there is no report (`Ingest.outcome_eq`).
-/

namespace MathSpeech.Table

open Store (Definition)

/-! ## Passable entries -/

/-- **A passable entry**: it is well formed, or it can be named. -/
def passes {α : Type} (read : Value → Checked α) (writes : Value → Bool) (entry : Value) : Bool :=
  (read entry).toOption.isSome || Ingest.isNamable writes entry

/-- All rules are passable. -/
def rulesPass (writes : Value → Bool) (data : Value) : Bool :=
  (sectionItems data "rules").all (passes RuleDefinition.read writes)

/-- All aliases are passable. -/
def aliasesPass (writes : Value → Bool) (data : Value) : Bool :=
  (sectionItems data "aliases").all (passes AliasDefinition.read writes)

/-- **A passable table**: none of its entries stops an ingest. -/
def isPassable (writes : Value → Bool) (data : Value) : Bool :=
  rulesPass writes data && aliasesPass writes data

/-- **Well-formed entries are passable.** -/
theorem all_passes {α : Type} {read : Value → Checked α} {items : List Value}
    (h : ∀ v ∈ items, ∃ d, read v = .ok d) (writes : Value → Bool) :
    items.all (passes read writes) = true := by
  refine List.all_eq_true.mpr fun v hv => ?_
  obtain ⟨d, hd⟩ := h v hv
  rw [passes, hd]
  rfl

/-- A list up to the first item that does not pass. -/
def upTo (passes : Value → Bool) : Value → Value
  | .list items => .list (items.takeWhile passes)
  | v => v

/-- **The part of a table that is reached.** -/
def reached (writes : Value → Bool) (data : Value) : Value :=
  data.amend fun name v =>
    if name = "rules" then upTo (passes RuleDefinition.read writes) v
    else if name = "aliases" then
      if rulesPass writes data then upTo (passes AliasDefinition.read writes) v else .list []
    else v

/-- What a section of a table says; nothing, if it is not there. -/
def sectionValue (data : Value) (name : Text) : Value := (data.get? name).getD .null

/-- The items of a value, if it is a list. -/
def itemsOf : Value → List Value
  | .list items => items
  | _ => []

theorem itemsOf_sectionValue (data : Value) (name : Text) :
    itemsOf (sectionValue data name) = sectionItems data name := by
  rw [sectionItems, ← sectionValue]
  cases sectionValue data name <;> rfl

section Sections

variable (writes : Value → Bool) (data : Value)

theorem isMap_reached : (reached writes data).isMap = data.isMap := Value.isMap_amend ..

theorem rules_reached : sectionValue (reached writes data) "rules"
    = upTo (passes RuleDefinition.read writes) (sectionValue data "rules") := by
  rw [sectionValue, sectionValue, reached, Value.get?_amend]
  cases data.get? "rules" <;> rfl

theorem get?_aliases_reached : (reached writes data).get? "aliases"
    = (data.get? "aliases").map fun v =>
        if rulesPass writes data then upTo (passes AliasDefinition.read writes) v
        else .list [] := by
  have hname : ("aliases" : Text) ≠ "rules" := by decide
  rw [reached, Value.get?_amend]
  simp only [hname, if_false, if_true]

variable {writes data}

theorem aliases_reached (h : rulesPass writes data = true) :
    sectionValue (reached writes data) "aliases"
      = upTo (passes AliasDefinition.read writes) (sectionValue data "aliases") := by
  rw [sectionValue, sectionValue, get?_aliases_reached]
  simp only [h, if_true]
  cases data.get? "aliases" <;> rfl

/-- A list whose items all pass is reached as a whole. -/
theorem upTo_of_all {passes : Value → Bool} {v : Value} (h : (itemsOf v).all passes = true) :
    upTo passes v = v := by
  cases v with
  | list items => exact congrArg Value.list (List.takeWhile_eq_self_iff.mpr (List.all_eq_true.mp h))
  | _ => rfl

/-- A table whose entries are all passable is reached as a whole. -/
theorem sectionValue_reached (h : isPassable writes data = true) :
    sectionValue (reached writes data) "rules" = sectionValue data "rules"
      ∧ sectionValue (reached writes data) "aliases" = sectionValue data "aliases" := by
  obtain ⟨hrules, haliases⟩ := Bool.and_eq_true_iff.mp h
  rw [rulesPass, ← itemsOf_sectionValue] at hrules
  rw [aliasesPass, ← itemsOf_sectionValue] at haliases
  rw [rules_reached, aliases_reached (Bool.and_eq_true_iff.mp h).1]
  exact ⟨upTo_of_all hrules, upTo_of_all haliases⟩

theorem definitions_reached (h : isPassable writes data = true) :
    definitions (reached writes data) = definitions data := by
  obtain ⟨hrules, haliases⟩ := sectionValue_reached h
  simp only [definitions, ruleDefinitions, aliasDefinitions, isMap_reached,
    ← itemsOf_sectionValue, hrules, haliases]

/-- Only a mapping has entries that stop an ingest. -/
theorem isMap_of_not_passable (h : isPassable writes data = false) : data.isMap = true := by
  cases data with
  | map entries => rfl
  | _ => cases h

end Sections

namespace Ingest

/-! ## Stopping -/

/-- **An ingest that stops** at an entry that cannot be named, unless it has stopped before. -/
def stopped (run : Ingest) : Ingest :=
  if run.fault.isSome then run else { run with fault := some .unwritable }

/-- An ingest that goes on if a test is passed, and stops otherwise. -/
def stoppedUnless (passed : Bool) (run : Ingest) : Ingest := if passed then run else run.stopped

theorem store_stopped (run : Ingest) : run.stopped.store = run.store := by
  rw [stopped]
  split <;> rfl

theorem isSome_fault_stopped (run : Ingest) : run.stopped.fault.isSome = true := by
  rw [stopped]
  split
  · assumption
  · rfl

theorem stopped_of_fault {run : Ingest} (h : run.fault.isSome = true) : run.stopped = run :=
  if_pos h

variable {writes : Value → Bool}

theorem skipEntry_eq {run : Ingest} (part kind : Text) (index : Nat) (entry : Value)
    (issues : List Issue) :
    run.skipEntry writes part kind index entry issues
      = if isNamable writes entry then run.skipEntry unlimited part kind index entry issues
        else { run with fault := some .unwritable } := by
  rw [skipEntry_unlimited]
  rfl

/-- **One entry of the rules**: if it is passable, limits do not matter. -/
theorem rule_eq (run : Ingest) (index : Nat) (entry : Value) : run.rule writes index entry
    = if passes RuleDefinition.read writes entry then run.rule unlimited index entry
      else run.stopped := by
  rw [rule, rule, stopped, passes]
  cases run.fault with
  | some fault => simp only [Option.isSome_some, if_true, ite_self]
  | none =>
    cases RuleDefinition.read entry with
    | error issues => exact skipEntry_eq ..
    | ok definition => rfl

/-- **One entry of the aliases**: if it is passable, limits do not matter. -/
theorem extra_eq (run : Ingest) (index : Nat) (entry : Value) : run.extra writes index entry
    = if passes AliasDefinition.read writes entry then run.extra unlimited index entry
      else run.stopped := by
  rw [extra, extra, stopped, passes]
  cases run.fault with
  | some fault => simp only [Option.isSome_some, if_true, ite_self]
  | none =>
    cases AliasDefinition.read entry with
    | error issues => exact skipEntry_eq ..
    | ok definition => rfl

/-- **The entries of a section, one after the other**: those up to the first that does not pass,
which stops the ingest. -/
theorem foldl_eq {step step' : Ingest → Nat → Value → Ingest} {passes : Value → Bool}
    (hstep : ∀ run index entry, step run index entry
      = if passes entry then step' run index entry else run.stopped)
    (hidle : ∀ {run : Ingest}, run.fault.isSome = true → ∀ index entry, step run index entry = run)
    (run : Ingest) (items : List Value) (first : Nat) :
    (items.zipIdx first).foldl (fun run (v, i) => step run i v) run
      = stoppedUnless (items.all passes)
          (((items.takeWhile passes).zipIdx first).foldl (fun run (v, i) => step' run i v)
            run) := by
  induction items generalizing run first with
  | nil => rfl
  | cons entry rest ih =>
    rw [List.zipIdx_cons, List.foldl_cons, List.takeWhile_cons, List.all_cons]
    dsimp only
    rw [hstep]
    cases passes entry with
    | true =>
      rw [if_pos rfl, if_pos rfl, List.zipIdx_cons, List.foldl_cons, Bool.true_and]
      exact ih (step' run first entry) (first + 1)
    | false =>
      rw [if_neg Bool.false_ne_true, if_neg Bool.false_ne_true, Bool.false_and]
      exact List.foldl_fixed' (f := fun run (v, i) => step run i v)
        (fun x => hidle (isSome_fault_stopped run) x.2 x.1) (rest.zipIdx (first + 1))

/-! ## Sections -/

variable {data : Value}

/-- What an ingest looks for in a section depends on what the section says. -/
theorem entries_congr {data' : Value} {name : Text}
    (h : sectionValue data' name = sectionValue data name) (run : Ingest) :
    run.entries data' name = run.entries data name := by
  rw [sectionValue, sectionValue] at h
  rw [entries, entries, h]

/-- A section that is reached up to some entry is looked for like the whole section. -/
theorem entries_upTo {data' : Value} {name : Text} {passes : Value → Bool}
    (h : sectionValue data' name = upTo passes (sectionValue data name)) (run : Ingest) :
    run.entries data' name
      = ((run.entries data name).1, (run.entries data name).2.takeWhile passes) := by
  rw [sectionValue, sectionValue] at h
  rw [entries, entries, h]
  cases (data.get? name).getD .null with
  | list items => rfl
  | _ =>
    dsimp only [upTo]
    split <;> rfl

theorem rules_eq (run : Ingest) (data : Value) : run.rules writes data
    = stoppedUnless (rulesPass writes data) (run.rules unlimited (reached writes data)) := by
  rw [rules, rules, entries_upTo (rules_reached writes data), rulesPass,
    ← (run.entries_spec data "rules").2.2]
  exact foldl_eq rule_eq (fun h _ _ => if_pos h) _ _ 0

theorem aliases_eq (h : rulesPass writes data = true) (run : Ingest) : run.aliases writes data
    = stoppedUnless (aliasesPass writes data) (run.aliases unlimited (reached writes data)) := by
  rw [aliases, aliases]
  split
  · rename_i hfault
    rw [stoppedUnless, stopped_of_fault hfault, ite_self]
  · rw [entries_upTo (aliases_reached h), aliasesPass, ← (run.entries_spec data "aliases").2.2]
    exact foldl_eq extra_eq (fun h _ _ => if_pos h) _ _ 0

/-- If one of the rules is not passable, the aliases are not reached. -/
theorem aliases_of_not_rulesPass (h : rulesPass writes data = false) (run : Ingest) :
    run.aliases unlimited (reached writes data) = run := by
  have hvalue : sectionValue (reached writes data) "aliases" = .null
      ∨ sectionValue (reached writes data) "aliases" = .list [] := by
    rw [sectionValue, get?_aliases_reached, h]
    cases data.get? "aliases" with
    | none => exact .inl rfl
    | some v => exact .inr rfl
  have hentries : run.entries (reached writes data) "aliases" = (run, []) := by
    rw [sectionValue] at hvalue
    rw [entries]
    obtain hvalue | hvalue := hvalue
    · rw [hvalue]
      exact if_neg Bool.false_ne_true
    · rw [hvalue]
  rw [aliases, hentries]
  exact ite_self _

/-- **The sections of a table**: the ingest does with them what it does without limits with the part
that is reached, and then it stops unless that is all. -/
theorem sections_eq (run : Ingest) (data : Value) :
    (run.rules writes data).aliases writes data = stoppedUnless (isPassable writes data)
      ((run.rules unlimited (reached writes data)).aliases unlimited (reached writes data)) := by
  rw [rules_eq, isPassable]
  cases hrules : rulesPass writes data with
  | true => exact aliases_eq hrules _
  | false =>
    rw [aliases_of_not_rulesPass hrules]
    exact if_pos (isSome_fault_stopped _)

/-! ## Ingests -/

theorem finish_stopped (run : Ingest) : run.stopped.finish = run.stopped :=
  if_pos (isSome_fault_stopped run)

/-- A passable table is reached as a whole. -/
theorem run_reached (h : isPassable writes data = true) (store : Store) (source : Text) :
    run store (reached writes data) source unlimited = run store data source unlimited := by
  obtain ⟨hrules, haliases⟩ := sectionValue_reached h
  have hsections : ∀ start : Ingest,
      (start.rules unlimited (reached writes data)).aliases unlimited (reached writes data)
        = (start.rules unlimited data).aliases unlimited data := by
    intro start
    rw [rules, entries_congr hrules, aliases, entries_congr haliases]
    rfl
  rw [run, run, isMap_reached, hsections]

/-- **Limits do not matter to a passable table.** -/
theorem run_of_passable (h : isPassable writes data = true) (store : Store) (source : Text) :
    run store data source writes = run store data source unlimited := by
  have hsections : ∀ start : Ingest, (start.rules writes data).aliases writes data
      = (start.rules unlimited (reached writes data)).aliases unlimited (reached writes data) := by
    intro start
    rw [sections_eq, h, stoppedUnless, if_pos rfl]
  rw [← run_reached h, run, run, isMap_reached, hsections]

/-- **A table that is not passable**: the part that is reached is taken in, and then the ingest
stops. -/
theorem run_of_not_passable (h : isPassable writes data = false) (store : Store) (source : Text) :
    ∃ sections : Ingest, run store data source writes = sections.stopped
      ∧ run store (reached writes data) source unlimited = sections.finish := by
  have hdata := isMap_of_not_passable h
  let start : Ingest := { store, report := { sources := if source.isEmpty then [] else [source] } }
  refine ⟨(start.rules unlimited (reached writes data)).aliases unlimited (reached writes data),
    ?_, ?_⟩
  · rw [run, if_pos hdata, sections_eq, h]
    exact finish_stopped _
  · rw [run, if_pos ((isMap_reached writes data).trans hdata)]

/-- **The store after an ingest** is that after the definitions of the part that is reached. -/
theorem store_run_reached (store : Store) (data : Value) (source : Text) (writes : Value → Bool) :
    (run store data source writes).store = store.afterAll (definitions (reached writes data)) := by
  cases h : isPassable writes data with
  | true => rw [run_of_passable h, store_run, definitions_reached h]
  | false =>
    obtain ⟨sections, hrun, hreached⟩ := run_of_not_passable h store source
    rw [hrun, store_stopped, ← store_run store (reached writes data) source, hreached,
      store_finish]

/-- **What comes of an ingest** is what comes of the part that is reached, but that there is a
report only of a passable table: behind any other part there is an entry that stops the ingest. -/
theorem outcome_eq (store : Store) (data : Value) (source : Text) (writes : Value → Bool) :
    (run store data source writes).outcome
      = (run store (reached writes data) source unlimited).outcome.bind fun report =>
          if isPassable writes data then .ok report else .error .unwritable := by
  cases h : isPassable writes data with
  | true =>
    rw [run_of_passable h, ← run_reached h]
    simp only [if_true]
    cases (run store (reached writes data) source unlimited).outcome <;> rfl
  | false =>
    obtain ⟨sections, hrun, hreached⟩ := run_of_not_passable h store source
    rw [hrun, hreached, outcome, outcome, stopped, finish]
    cases hfault : sections.fault with
    | some fault =>
      rw [Option.isSome_some, if_pos rfl, if_pos rfl, hfault]
      rfl
    | none =>
      simp only [Option.isSome_none, Bool.false_eq_true, if_false]
      rfl

/-- An ingest that stopped ends with its fault. -/
theorem outcome_of_fault {run : Ingest} {fault : Fault} (h : run.fault = some fault) :
    run.outcome = .error fault := by
  rw [outcome, h]

/-- **There is no report of an ingest that stopped.** -/
theorem not_exists_report {run : Ingest} {fault : Fault} (h : run.fault = some fault) :
    ¬∃ report, run.outcome = .ok report := by
  rintro ⟨report, hreport⟩
  cases (outcome_of_fault h).symm.trans hreport

end Ingest

/-- A table whose first rule has no text as its key, but an integer that cannot be written, and
whose second rule is well formed. -/
def unwritableTable : Value :=
  .map [(.text "rules", .list [
    .map [(.text "key", .int (.ofNat (Nat.pow 16 4000)))],
    .map [(.text "key", .text "a"), (.text "query", .text "self::a"),
      (.text "mappings", .map [(.text "default", .map [(.text "default", .text "[n] .")])])]])]

end MathSpeech.Table
