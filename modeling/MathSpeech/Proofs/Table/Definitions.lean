import MathSpeech.Proofs.Store.Definition
import MathSpeech.Table.Ingest

/-!
# Proofs/Table/Definitions — a table is a list of definitions

The entries of a table that are well formed are definitions, those of the rules before those of the
aliases.  Taking the table into a store performs them one after the other, and does nothing else to
the store (`Ingest.store_run`): what is not well formed leaves no trace in it, and after a refusal
there is nothing left that could be performed.

This is about ingests that can name every entry (`Ingest.unlimited`); where some keys cannot be
written, only a part of the table is reached.
-/

namespace MathSpeech.Table

open Store (Definition)

/-! ## The definitions of a table -/

/-- The entries of a section; a section that is no list has none. -/
def sectionItems (data : Value) (name : Text) : List Value :=
  match (data.get? name).getD .null with
  | .list items => items
  | _ => []

/-- The definition of a rule entry, if it is well formed. -/
def ruleOf? (entry : Value) : Option Definition :=
  (RuleDefinition.read entry).toOption.map fun rule =>
    .rules rule.key rule.category rule.mappings rule.query rule.constraints

/-- The definition of an alias entry, if it is well formed. -/
def aliasOf? (entry : Value) : Option Definition :=
  (AliasDefinition.read entry).toOption.map fun definition =>
    .other definition.key definition.query definition.constraints

/-- The definitions of the rules. -/
def ruleDefinitions (data : Value) : List Definition :=
  (sectionItems data "rules").filterMap ruleOf?

/-- The definitions of the aliases. -/
def aliasDefinitions (data : Value) : List Definition :=
  (sectionItems data "aliases").filterMap aliasOf?

/-- **The definitions of a table**, in the order in which they are performed. -/
def definitions (data : Value) : List Definition :=
  if data.isMap then ruleDefinitions data ++ aliasDefinitions data else []

namespace Ingest

/-! ## No limits -/

/-- Every value can be written. -/
def unlimited (_ : Value) : Bool := true

/-- Without limits, an entry that is not well formed is always skipped. -/
theorem skipEntry_unlimited (run : Ingest) (part kind : Text) (index : Nat) (entry : Value)
    (issues : List Issue) : run.skipEntry unlimited part kind index entry issues
      = run.skip (nameOf index entry) (headline kind issues)
          (placeOf part index ++ "invalid entry") := by
  refine if_pos ?_
  unfold isNamable
  split <;> rfl

/-! ## One entry -/

/-- An ingest stops only on a frozen store. -/
def StopsFrozen (run : Ingest) : Prop := run.fault.isSome → run.store.frozen = true

/-- An ingest that did not stop goes on. -/
theorem ite_fault_of_none {α : Type} {run : Ingest} (h : run.fault = none) (stopped goesOn : α) :
    (if run.fault.isSome then stopped else goesOn) = goesOn := by
  rw [h]
  rfl

theorem stopsFrozen_of_fault {run : Ingest} (h : run.fault = none) : run.StopsFrozen := by
  rw [StopsFrozen, h]
  exact fun hstop => absurd hstop Bool.false_ne_true

/-- **An ingest performs definitions** on its way from `run` to `run'`. -/
structure Performs (run run' : Ingest) (ds : List Definition) : Prop where
  store : run'.store = run.store.afterAll ds
  stopsFrozen : run'.StopsFrozen

theorem Performs.trans {run run' run'' : Ingest} {ds ds' : List Definition}
    (h : Performs run run' ds) (h' : Performs run' run'' ds') :
    Performs run run'' (ds ++ ds') where
  store := by rw [h'.store, h.store, Store.afterAll_append]
  stopsFrozen := h'.stopsFrozen

theorem performs_nil {run run' : Ingest} (h : run.StopsFrozen) (hstore : run'.store = run.store)
    (hfault : run'.fault = run.fault) : Performs run run' [] where
  store := hstore
  stopsFrozen := by rwa [StopsFrozen, hstore, hfault]

theorem performs_of_stopped {run : Ingest} (h : run.StopsFrozen) (hfault : run.fault.isSome)
    (ds : List Definition) : Performs run run ds where
  store := (Store.afterAll_of_frozen (h hfault) ds).symm
  stopsFrozen := h

theorem frozen_of_refused {s : Store} {key category : Text} {texts : Mappings Text} {query : Text}
    {constraints : List Text} {r : Refusal}
    (h : s.defineMappings key category texts query constraints = .error r) : s.frozen = true := by
  cases hfrozen : s.frozen with
  | true => rfl
  | false =>
    rw [Store.defineMappings, hfrozen, if_neg Bool.false_ne_true] at h
    dsimp only at h
    split at h <;> cases h

theorem frozen_of_alias_refused {s : Store} {key query : Text} {constraints : List Text}
    {r : Refusal} (h : s.defineAlias key query constraints = .error r) : s.frozen = true := by
  cases hfrozen : s.frozen with
  | true => rfl
  | false =>
    rw [Store.defineAlias, hfrozen, if_neg Bool.false_ne_true] at h
    split at h <;> cases h

theorem performs_one {run run' : Ingest} {d : Definition}
    (hstore : run'.store = (d.perform run.store).2)
    (hstop : run'.fault.isSome → run.store.frozen = true) : Performs run run' [d] where
  store := hstore
  stopsFrozen hfault := by
    rw [hstore, d.perform_of_frozen (hstop hfault)]
    exact hstop hfault

theorem performs_takeRule {run : Ingest} (hfault : run.fault = none) (index : Nat)
    (rule : RuleDefinition) :
    Performs run (run.takeRule index rule)
      [.rules rule.key rule.category rule.mappings rule.query rule.constraints] := by
  unfold takeRule
  cases h : run.store.defineMappings rule.key rule.category rule.mappings rule.query
      rule.constraints with
  | error refusal =>
    refine performs_one ?_ fun _ => frozen_of_refused h
    rw [Definition.perform, h]
    rfl
  | ok change =>
    refine performs_one ?_ (stopsFrozen_of_fault hfault)
    rw [Definition.perform, h]
    rfl

theorem performs_takeAlias {run : Ingest} (hfault : run.fault = none) (index : Nat)
    (definition : AliasDefinition) :
    Performs run (run.takeAlias index definition)
      [.other definition.key definition.query definition.constraints] := by
  unfold takeAlias
  cases h : run.store.defineAlias definition.key definition.query definition.constraints with
  | error refusal =>
    refine performs_one ?_ fun _ => frozen_of_alias_refused h
    rw [Definition.perform, h]
    rfl
  | ok change =>
    refine performs_one ?_ (stopsFrozen_of_fault hfault)
    rw [Definition.perform, h]
    rfl

theorem performs_rule {run : Ingest} (h : run.StopsFrozen) (index : Nat) (entry : Value) :
    Performs run (run.rule unlimited index entry) (ruleOf? entry).toList := by
  cases hfault : run.fault with
  | some fault =>
    rw [rule, hfault, Option.isSome_some, if_pos rfl]
    exact performs_of_stopped h (by rw [hfault, Option.isSome_some]) _
  | none =>
    rw [rule, ite_fault_of_none hfault, ruleOf?]
    cases RuleDefinition.read entry with
    | error issues =>
      dsimp only
      rw [skipEntry_unlimited]
      exact performs_nil h rfl rfl
    | ok definition => exact performs_takeRule hfault index definition

theorem performs_extra {run : Ingest} (h : run.StopsFrozen) (index : Nat) (entry : Value) :
    Performs run (run.extra unlimited index entry) (aliasOf? entry).toList := by
  cases hfault : run.fault with
  | some fault =>
    rw [extra, hfault, Option.isSome_some, if_pos rfl]
    exact performs_of_stopped h (by rw [hfault, Option.isSome_some]) _
  | none =>
    rw [extra, ite_fault_of_none hfault, aliasOf?]
    cases AliasDefinition.read entry with
    | error issues =>
      dsimp only
      rw [skipEntry_unlimited]
      exact performs_nil h rfl rfl
    | ok definition => exact performs_takeAlias hfault index definition

/-! ## All entries -/

/-- **The entries of a section, one after the other**: what each performs, all perform. -/
theorem performs_foldl {step : Ingest → Nat → Value → Ingest} {read : Value → Option Definition}
    (hstep : ∀ {run : Ingest}, run.StopsFrozen → ∀ index entry,
      Performs run (step run index entry) (read entry).toList)
    {run : Ingest} (h : run.StopsFrozen) (items : List Value) (first : Nat) :
    Performs run ((items.zipIdx first).foldl (fun run (v, i) => step run i v) run)
      (items.filterMap read) := by
  induction items generalizing run first with
  | nil => exact performs_nil h rfl rfl
  | cons entry rest ih =>
    have hfirst := hstep h first entry
    have hrest := ih hfirst.stopsFrozen (first + 1)
    have hds : (entry :: rest).filterMap read = (read entry).toList ++ rest.filterMap read := by
      rw [List.filterMap_cons]
      cases read entry <;> rfl
    rw [List.zipIdx_cons, List.foldl_cons, hds]
    exact hfirst.trans hrest

/-- Looking for the entries of a section reports at most. -/
theorem entries_spec (run : Ingest) (data : Value) (name : Text) :
    (run.entries data name).1.store = run.store ∧ (run.entries data name).1.fault = run.fault
      ∧ (run.entries data name).2 = sectionItems data name := by
  unfold entries sectionItems
  cases (data.get? name).getD .null with
  | list items => exact ⟨rfl, rfl, rfl⟩
  | _ =>
    dsimp only
    split <;> exact ⟨rfl, rfl, rfl⟩

theorem performs_rules {run : Ingest} (h : run.StopsFrozen) (data : Value) :
    Performs run (run.rules unlimited data) (ruleDefinitions data) := by
  obtain ⟨hstore, hfault, hitems⟩ := run.entries_spec data "rules"
  have hentries : Performs run (run.entries data "rules").1 [] := performs_nil h hstore hfault
  rw [rules, ruleDefinitions, ← hitems]
  exact hentries.trans (performs_foldl performs_rule hentries.stopsFrozen _ 0)

theorem performs_aliases {run : Ingest} (h : run.StopsFrozen) (data : Value) :
    Performs run (run.aliases unlimited data) (aliasDefinitions data) := by
  rw [aliases]
  split
  · rename_i hfault
    exact performs_of_stopped h hfault _
  · obtain ⟨hstore, hfault, hitems⟩ := run.entries_spec data "aliases"
    have hentries : Performs run (run.entries data "aliases").1 [] := performs_nil h hstore hfault
    rw [aliasDefinitions, ← hitems]
    exact hentries.trans (performs_foldl performs_extra hentries.stopsFrozen _ 0)

theorem store_finish (run : Ingest) : run.finish.store = run.store := by
  rw [finish]
  split <;> rfl

theorem store_sections {run : Ingest} (h : run.fault = none) (data : Value) :
    ((run.rules unlimited data).aliases unlimited data).finish.store
      = run.store.afterAll (ruleDefinitions data ++ aliasDefinitions data) := by
  have hrules := performs_rules (stopsFrozen_of_fault h) data
  have haliases := performs_aliases hrules.stopsFrozen data
  rw [store_finish]
  exact (hrules.trans haliases).store

/-- **The store after an ingest** is that after the definitions of the table. -/
theorem store_run (store : Store) (data : Value) (source : Text) :
    (run store data source unlimited).store = store.afterAll (definitions data) := by
  rw [run, definitions]
  split
  · exact store_sections rfl data
  · rfl

end Ingest

end MathSpeech.Table
