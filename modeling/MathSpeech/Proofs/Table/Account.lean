import MathSpeech.Proofs.Table.Reached
import MathSpeech.Proofs.Table.Taken
import Mathlib.Algebra.Ring.Nat
import Mathlib.Data.List.Basic

/-!
# Proofs/Table/Account — every entry of a table is accounted for

Each section and each entry of a table has a **report** of its own, and the report of an ingest is
all of these in one (`Ingest.report_run`).  Reports add up: keys and errors of the whole are those
of the parts, in order, and as many things are skipped as there are errors.  So what becomes of
every entry can be read off the report of the table, if the ingest comes to its end
(`accounts_for_every_entry`).
-/

namespace MathSpeech.Table

open Store (Definition)

/-! ## Reports add up -/

namespace Report

/-- A report that tells errors only. -/
def ofErrors (errors : List Text) : Report := { skipped := errors.length, errors }

/-- **All reports of a list in one.** -/
def all (rs : List Report) : Report := rs.foldr merge {}

theorem merge_assoc (r s t : Report) : (r.merge s).merge t = r.merge (s.merge t) := by
  simp only [merge, List.append_assoc, Nat.add_assoc]

theorem merge_none (r : Report) : r.merge {} = r := by
  simp only [merge, List.append_nil, Nat.add_zero]

theorem none_merge (r : Report) : ({} : Report).merge r = r := by
  simp only [merge, List.nil_append, Nat.zero_add]

theorem all_append (rs rs' : List Report) : all (rs ++ rs') = (all rs).merge (all rs') := by
  induction rs with
  | nil => exact (none_merge _).symm
  | cons r rest ih => exact (congrArg r.merge ih).trans (merge_assoc r (all rest) (all rs')).symm

theorem addErrors_eq (r : Report) (errors : List Text) :
    r.addErrors errors = r.merge (ofErrors errors) := by
  induction errors generalizing r with
  | nil => exact (merge_none r).symm
  | cons e rest ih =>
    have hstep : r.addErrors (e :: rest) = (r.addError e).addErrors rest := rfl
    rw [hstep, ih]
    simp only [addError, merge, ofErrors, List.length_cons, List.append_nil, List.append_assoc,
      List.singleton_append, Nat.add_assoc, Nat.add_comm 1]

theorem defined_all (rs : List Report) : (all rs).defined = rs.flatMap defined := by
  induction rs with
  | nil => rfl
  | cons r rest ih => exact congrArg (r.defined ++ ·) ih

theorem aliased_all (rs : List Report) : (all rs).aliased = rs.flatMap aliased := by
  induction rs with
  | nil => rfl
  | cons r rest ih => exact congrArg (r.aliased ++ ·) ih

theorem length_errors_all (rs : List Report) :
    (all rs).errors.length = (rs.map fun r => r.errors.length).sum := by
  induction rs with
  | nil => rfl
  | cons r rest ih =>
    have hstep : (all (r :: rest)).errors = r.errors ++ (all rest).errors := rfl
    rw [hstep, List.length_append, ih, List.map_cons, List.sum_cons]

/-- As many things are skipped as there are errors. -/
def Balanced (r : Report) : Prop := r.skipped = r.errors.length

theorem Balanced.merge {r s : Report} (hr : r.Balanced) (hs : s.Balanced) :
    (r.merge s).Balanced := by
  rw [Balanced, Report.merge, hr, hs, List.length_append]

theorem balanced_all {rs : List Report} (h : ∀ r ∈ rs, r.Balanced) : (all rs).Balanced := by
  induction rs with
  | nil => rfl
  | cons r rest ih =>
    exact (h r List.mem_cons_self).merge (ih fun s hs => h s (List.mem_cons_of_mem r hs))

end Report

/-! ## The reports of a table -/

/-- A section that says something, but is no list. -/
def isFaulty (data : Value) (name : Text) : Bool :=
  match (data.get? name).getD .null with
  | .list _ => false
  | v => v.isTrue

/-- The report on a section itself. -/
def sectionReport (data : Value) (name : Text) : Report :=
  .ofErrors (if isFaulty data name then [name ++ ": section must be a list"] else [])

/-- The report on a well-formed rule: its key, if it is taken, and the texts that are dropped. -/
def RuleDefinition.report (index : Nat) (d : RuleDefinition) : Report :=
  let place := Ingest.placeOf "rules" index ++ d.key
  if d.placed.isEmpty then .ofErrors [place ++ " not defined"]
  else ({ defined := [d.key] } : Report).merge <| .ofErrors <|
    d.dropped.map fun t => place ++ ' ' :: Store.joinDomain t.1 t.2.1 ++ " not defined"

/-- **The report on an entry of the rules.** -/
def ruleReport (index : Nat) (entry : Value) : Report :=
  match RuleDefinition.read entry with
  | .error _ => .ofErrors [Ingest.placeOf "rules" index ++ "invalid entry"]
  | .ok d => d.report index

/-- The report on a well-formed alias, where some atoms are known. -/
def AliasDefinition.report (atoms : OrderedMap Text Atom) (index : Nat) (d : AliasDefinition) :
    Report :=
  if atoms.contains d.key then { aliased := [d.key] }
  else .ofErrors [Ingest.placeOf "aliases" index ++ d.key ++ " has no rule"]

/-- **The report on an entry of the aliases**, where some atoms are known. -/
def aliasReport (atoms : OrderedMap Text Atom) (index : Nat) (entry : Value) : Report :=
  match AliasDefinition.read entry with
  | .error _ => .ofErrors [Ingest.placeOf "aliases" index ++ "invalid entry"]
  | .ok d => d.report atoms index

/-- The reports on the items of a section, which are numbered. -/
def itemReports (tell : Nat → Value → Report) (items : List Value) : List Report :=
  items.zipIdx.map fun (v, i) => tell i v

/-- **The reports on a table**, where some atoms are known once its rules are in. -/
def reports (atoms : OrderedMap Text Atom) (data : Value) : List Report :=
  sectionReport data "rules" :: itemReports ruleReport (sectionItems data "rules")
    ++ sectionReport data "aliases"
      :: itemReports (aliasReport atoms) (sectionItems data "aliases")

namespace Ingest

/-! ## The report of an ingest -/

/-- **An ingest that goes on**: nothing stopped it, and the store takes definitions. -/
structure GoesOn (run : Ingest) : Prop where
  fault : run.fault = none
  frozen : run.store.frozen = false

/-- **An ingest tells a report** on its way from `run` to `run'`, and goes on. -/
structure Tells (run run' : Ingest) (r : Report) : Prop where
  goesOn : run'.GoesOn
  report : run'.report = run.report.merge r

theorem Tells.trans {run run' run'' : Ingest} {r s : Report} (h : Tells run run' r)
    (h' : Tells run' run'' s) : Tells run run'' (r.merge s) where
  goesOn := h'.goesOn
  report := by rw [h'.report, h.report, Report.merge_assoc]

/-- **Defining the rules of a well-formed entry** succeeds if one of the texts can be used, and
names the others. -/
theorem exists_defineMappings {s : Store} (hs : s.frozen = false) (d : RuleDefinition) :
    ∃ change, s.defineMappings d.key d.category d.mappings d.query d.constraints = .ok change
      ∧ change.value = (!d.placed.isEmpty, d.dropped.map fun t => Store.joinDomain t.1 t.2.1)
      ∧ change.store.frozen = false := by
  have hplaced : (Store.readMappings d.key d.mappings.triples).1 = d.placed :=
    Definition.readMappings_fst d.key d.mappings.triples
  rw [Store.defineMappings, if_neg (Bool.eq_false_iff.mp hs)]
  simp only [hplaced, Definition.readMappings_snd]
  split
  · rename_i hempty
    exact ⟨_, rfl, by rw [hempty]; rfl, hs⟩
  · rename_i hfilled
    exact ⟨_, rfl, by rw [Bool.of_not_eq_true hfilled]; rfl, hs⟩

theorem exists_defineAlias {s : Store} (hs : s.frozen = false) (d : AliasDefinition) :
    ∃ change, s.defineAlias d.key d.query d.constraints = .ok change
      ∧ change.value = s.atoms.contains d.key ∧ change.store.frozen = false
      ∧ change.store.atoms = s.atoms := by
  rw [Store.defineAlias, if_neg (Bool.eq_false_iff.mp hs)]
  split
  · rename_i hknown
    exact ⟨_, rfl, hknown.symm, hs, rfl⟩
  · rename_i hunknown
    exact ⟨_, rfl, (Bool.of_not_eq_true hunknown).symm, hs, rfl⟩

theorem tells_takeRule {run : Ingest} (h : run.GoesOn) (index : Nat) (d : RuleDefinition) :
    Tells run (run.takeRule index d) (d.report index) := by
  obtain ⟨change, hchange, hvalue, hfrozen⟩ := exists_defineMappings h.frozen d
  simp only [takeRule, hchange, hvalue, RuleDefinition.report]
  refine ⟨⟨h.fault, hfrozen⟩, ?_⟩
  cases d.placed.isEmpty with
  | true => exact Report.addErrors_eq run.report [_]
  | false =>
    have hkey : run.report.merge { defined := [d.key] }
        = { run.report with defined := run.report.defined ++ [d.key] } := by
      simp only [Report.merge, List.append_nil, Nat.add_zero]
    simp only [Bool.not_false, if_true, Bool.false_eq_true, if_false]
    rw [← Report.merge_assoc, hkey, ← Report.addErrors_eq, List.map_map]
    rfl

theorem tells_skip {run : Ingest} (h : run.GoesOn) (key reason error : Text) :
    Tells run (run.skip key reason error) (.ofErrors [error]) where
  goesOn := ⟨h.fault, h.frozen⟩
  report := Report.addErrors_eq run.report [error]

theorem tells_rule {run : Ingest} (h : run.GoesOn) (index : Nat) (entry : Value) :
    Tells run (run.rule unlimited index entry) (ruleReport index entry) := by
  rw [rule, ite_fault_of_none h.fault, ruleReport]
  cases RuleDefinition.read entry with
  | error issues =>
    dsimp only
    rw [skipEntry_unlimited]
    exact tells_skip h ..
  | ok d => exact tells_takeRule h index d

theorem tells_takeAlias {run : Ingest} (h : run.GoesOn) (index : Nat) (d : AliasDefinition) :
    Tells run (run.takeAlias index d) (d.report run.store.atoms index)
      ∧ (run.takeAlias index d).store.atoms = run.store.atoms := by
  obtain ⟨change, hchange, hvalue, hfrozen, hatoms⟩ := exists_defineAlias h.frozen d
  simp only [takeAlias, hchange, hvalue, AliasDefinition.report]
  refine ⟨⟨⟨h.fault, hfrozen⟩, ?_⟩, hatoms⟩
  cases run.store.atoms.contains d.key with
  | true => simp only [if_true, Report.merge, List.append_nil, Nat.add_zero]
  | false => exact Report.addErrors_eq run.report [_]

theorem tells_extra {run : Ingest} (h : run.GoesOn) (index : Nat) (entry : Value) :
    Tells run (run.extra unlimited index entry) (aliasReport run.store.atoms index entry)
      ∧ (run.extra unlimited index entry).store.atoms = run.store.atoms := by
  rw [extra, ite_fault_of_none h.fault, aliasReport]
  cases AliasDefinition.read entry with
  | error issues =>
    dsimp only
    rw [skipEntry_unlimited]
    exact ⟨tells_skip h .., rfl⟩
  | ok d => exact tells_takeAlias h index d

theorem tells_entries {run : Ingest} (h : run.GoesOn) (data : Value) (name : Text) :
    Tells run (run.entries data name).1 (sectionReport data name) := by
  unfold entries sectionReport isFaulty
  cases (data.get? name).getD .null with
  | list items => exact ⟨h, (Report.merge_none run.report).symm⟩
  | _ =>
    dsimp only
    split
    · exact tells_skip h ..
    · exact ⟨h, (Report.merge_none run.report).symm⟩

/-! ## All entries -/

/-- **The entries of a section, one after the other**, tell their reports, if what they tell is
known beforehand by a property of the ingest that they preserve. -/
theorem tells_foldl (Inv : Ingest → Prop) {step : Ingest → Nat → Value → Ingest}
    {tell : Nat → Value → Report}
    (hstep : ∀ {run : Ingest}, run.GoesOn → Inv run → ∀ index entry,
      Tells run (step run index entry) (tell index entry) ∧ Inv (step run index entry))
    {run : Ingest} (h : run.GoesOn) (hinv : Inv run) (items : List Value) (first : Nat) :
    Tells run ((items.zipIdx first).foldl (fun run (v, i) => step run i v) run)
      (.all ((items.zipIdx first).map fun (v, i) => tell i v)) := by
  induction items generalizing run first with
  | nil => exact ⟨h, (Report.merge_none run.report).symm⟩
  | cons entry rest ih =>
    obtain ⟨hfirst, hnext⟩ := hstep h hinv first entry
    exact hfirst.trans (ih hfirst.goesOn hnext (first + 1))

theorem tells_rules {run : Ingest} (h : run.GoesOn) (data : Value) :
    Tells run (run.rules unlimited data)
      (.all (sectionReport data "rules"
        :: itemReports ruleReport (sectionItems data "rules"))) := by
  obtain ⟨-, -, hitems⟩ := run.entries_spec data "rules"
  have hsection := tells_entries h data "rules"
  rw [rules, ← hitems]
  exact hsection.trans (tells_foldl (fun _ => True)
    (fun h _ index entry => ⟨tells_rule h index entry, trivial⟩) hsection.goesOn trivial _ 0)

theorem tells_aliases {run : Ingest} (h : run.GoesOn) (data : Value) :
    Tells run (run.aliases unlimited data)
      (.all (sectionReport data "aliases"
        :: itemReports (aliasReport run.store.atoms) (sectionItems data "aliases"))) := by
  obtain ⟨hstore, -, hitems⟩ := run.entries_spec data "aliases"
  have hsection := tells_entries h data "aliases"
  rw [aliases, ite_fault_of_none h.fault, ← hitems]
  refine hsection.trans (tells_foldl (fun run' => run'.store.atoms = run.store.atoms)
    (fun {run'} h' hatoms index entry => ?_) hsection.goesOn (congrArg Store.atoms hstore) _ 0)
  obtain ⟨htells, hkept⟩ := tells_extra h' index entry
  rw [hatoms] at htells hkept
  exact ⟨htells, hkept⟩

theorem tells_sections {run : Ingest} (h : run.GoesOn) (data : Value) :
    Tells run ((run.rules unlimited data).aliases unlimited data)
      (.all (reports (withRules run.store data).atoms data)) := by
  have hrules := tells_rules h data
  have hstore : (run.rules unlimited data).store = withRules run.store data :=
    (performs_rules (stopsFrozen_of_fault h.fault) data).store
  have hall := hrules.trans (tells_aliases hrules.goesOn data)
  rwa [hstore, ← Report.all_append] at hall

theorem finish_spec (run : Ingest) :
    run.finish.fault = run.fault ∧ run.finish.report = run.report := by
  rw [finish]
  split <;> exact ⟨rfl, rfl⟩

/-- **The report of an ingest** into a store that is not frozen is that of its sections and entries;
nothing stops it. -/
theorem report_run {s : Store} (hs : s.frozen = false) {data : Value} (hdata : data.isMap = true)
    (source : Text) :
    (run s data source unlimited).fault = none ∧ (run s data source unlimited).report
      = ({ sources := if source.isEmpty then [] else [source] } : Report).merge
          (.all (reports (withRules s data).atoms data)) := by
  have hstart : GoesOn { store := s, report :=
      { sources := if source.isEmpty then [] else [source] } } := ⟨rfl, hs⟩
  have hall := tells_sections hstart data
  rw [run, if_pos hdata, (finish_spec _).1, (finish_spec _).2]
  exact ⟨hall.goesOn.fault, hall.report⟩

end Ingest

/-! ## Reading the reports -/

theorem map_itemReports {α : Type} {tell : Nat → Value → Report} {f : Report → α} {g : Value → α}
    (h : ∀ index entry, f (tell index entry) = g entry) (items : List Value) :
    (itemReports tell items).map f = items.map g := by
  have hnumbers : items.zipIdx.map Prod.fst = items := List.zipIdx_map_fst 0 items
  rw [itemReports, List.map_map]
  calc items.zipIdx.map (f ∘ fun (v, i) => tell i v)
      = items.zipIdx.map (g ∘ Prod.fst) := List.map_congr_left fun x _ => h x.2 x.1
    _ = items.map g := by rw [← List.map_map, hnumbers]

theorem flatMap_itemReports {α : Type} {tell : Nat → Value → Report} {f : Report → List α}
    {g : Value → Option α} (h : ∀ index entry, f (tell index entry) = (g entry).toList)
    (items : List Value) : (itemReports tell items).flatMap f = items.filterMap g := by
  rw [List.flatMap_def, map_itemReports h, ← List.flatMap_def, List.filterMap_eq_flatMap_toList]

theorem sectionReport_spec (data : Value) (name : Text) :
    (sectionReport data name).defined = [] ∧ (sectionReport data name).aliased = []
      ∧ (sectionReport data name).errors.length = (isFaulty data name).toNat
      ∧ (sectionReport data name).Balanced := by
  rw [sectionReport]
  cases isFaulty data name <;> exact ⟨rfl, rfl, rfl, rfl⟩

/-- **What the report on an entry of the rules says.** -/
theorem ruleReport_spec (index : Nat) (entry : Value) :
    (ruleReport index entry).defined = ((takenRule? entry).map RuleDefinition.key).toList
      ∧ (ruleReport index entry).aliased = []
      ∧ (ruleReport index entry).errors.length
        = (takenRule? entry).elim 1 (fun d => d.dropped.length)
      ∧ (ruleReport index entry).Balanced := by
  rw [ruleReport, takenRule?]
  cases RuleDefinition.read entry with
  | error issues => exact ⟨rfl, rfl, rfl, rfl⟩
  | ok d =>
    have hread : (Except.ok d : Checked RuleDefinition).toOption = some d := rfl
    simp only [hread, Option.filter_some, RuleDefinition.report]
    cases d.placed.isEmpty with
    | true => exact ⟨rfl, rfl, rfl, rfl⟩
    | false =>
      simp only [Report.Balanced, Report.merge, Report.ofErrors, Bool.not_false, if_true,
        Bool.false_eq_true, if_false, List.nil_append, List.length_map, Nat.zero_add,
        Option.elim_some, List.append_nil, Option.map_some, Option.toList_some, and_self]

/-- **What the report on an entry of the aliases says.** -/
theorem aliasReport_spec (s : Store) (index : Nat) (entry : Value) :
    (aliasReport s.atoms index entry).defined = []
      ∧ (aliasReport s.atoms index entry).aliased
        = ((takenAlias? s entry).map AliasDefinition.key).toList
      ∧ (aliasReport s.atoms index entry).errors.length = (takenAlias? s entry).elim 1 (fun _ => 0)
      ∧ (aliasReport s.atoms index entry).Balanced := by
  rw [aliasReport, takenAlias?]
  cases AliasDefinition.read entry with
  | error issues => exact ⟨rfl, rfl, rfl, rfl⟩
  | ok d =>
    have hread : (Except.ok d : Checked AliasDefinition).toOption = some d := rfl
    simp only [hread, Option.filter_some, AliasDefinition.report]
    cases s.atoms.contains d.key <;> exact ⟨rfl, rfl, rfl, rfl⟩

section Reports

variable (s : Store) (data : Value)

theorem defined_reports :
    (Report.all (reports s.atoms data)).defined = (takenRules data).map RuleDefinition.key := by
  have hrules := flatMap_itemReports (fun i v => (ruleReport_spec i v).1)
    (sectionItems data "rules")
  have haliases := flatMap_itemReports (g := fun _ => (none : Option Text))
    (fun i v => (aliasReport_spec s i v).1) (sectionItems data "aliases")
  rw [Report.defined_all, reports, List.flatMap_append, List.flatMap_cons, List.flatMap_cons,
    hrules, haliases, (sectionReport_spec data _).1, (sectionReport_spec data _).1, takenRules,
    List.map_filterMap]
  simp

theorem aliased_reports :
    (Report.all (reports s.atoms data)).aliased
      = ((sectionItems data "aliases").filterMap (takenAlias? s)).map AliasDefinition.key := by
  have hrules := flatMap_itemReports (g := fun _ => (none : Option Text))
    (fun i v => (ruleReport_spec i v).2.1) (sectionItems data "rules")
  have haliases := flatMap_itemReports (fun i v => (aliasReport_spec s i v).2.1)
    (sectionItems data "aliases")
  rw [Report.aliased_all, reports, List.flatMap_append, List.flatMap_cons, List.flatMap_cons,
    hrules, haliases, (sectionReport_spec data _).2.1, (sectionReport_spec data _).2.1,
    List.map_filterMap]
  simp

theorem balanced_reports : (Report.all (reports s.atoms data)).Balanced := by
  refine Report.balanced_all fun r hr => ?_
  simp only [reports, itemReports, List.mem_append, List.mem_cons, List.mem_map, Prod.exists] at hr
  rcases hr with (rfl | ⟨v, i, -, rfl⟩) | (rfl | ⟨v, i, -, rfl⟩)
  · exact (sectionReport_spec data _).2.2.2
  · exact (ruleReport_spec i v).2.2.2
  · exact (sectionReport_spec data _).2.2.2
  · exact (aliasReport_spec s i v).2.2.2

/-- A sum over entries, of which each that is not taken counts one. -/
theorem sum_map_elim {α : Type} (take? : Value → Option α) (size : α → Nat) (items : List Value) :
    (items.map fun v => (take? v).elim 1 size).sum
      = (items.countP fun v => (take? v).isNone) + ((items.filterMap take?).map size).sum := by
  induction items with
  | nil => rfl
  | cons v rest ih =>
    rw [List.map_cons, List.sum_cons, ih, List.countP_cons, List.filterMap_cons]
    cases take? v with
    | none => simp only [Option.elim_none, Option.isNone_none, if_true]; omega
    | some d =>
      simp only [Option.elim_some, Option.isNone_some, Bool.false_eq_true, if_false, List.map_cons,
        List.sum_cons]
      omega

/-- **The number of errors**: one for each faulty section, each rule and each alias that is not
taken, and each text that is dropped from a rule that is. -/
theorem length_errors_reports :
    (Report.all (reports s.atoms data)).errors.length
      = (isFaulty data "rules").toNat + (isFaulty data "aliases").toNat
        + ((sectionItems data "rules").countP fun v => (takenRule? v).isNone)
        + ((takenRules data).map fun d => d.dropped.length).sum
        + ((sectionItems data "aliases").countP fun v => (takenAlias? s v).isNone) := by
  have hrules := (congrArg List.sum (map_itemReports (f := fun r => r.errors.length)
    (fun i v => (ruleReport_spec i v).2.2.1) (sectionItems data "rules"))).trans
      (sum_map_elim takenRule? _ _)
  have haliases := (congrArg List.sum (map_itemReports (f := fun r => r.errors.length)
    (fun i v => (aliasReport_spec s i v).2.2.1) (sectionItems data "aliases"))).trans
      (sum_map_elim (takenAlias? s) _ _)
  rw [Report.length_errors_all, reports, List.map_append, List.map_cons, List.map_cons,
    List.sum_append, List.sum_cons, List.sum_cons, hrules, haliases,
    (sectionReport_spec data _).2.2.1, (sectionReport_spec data _).2.2.1, takenRules]
  simp only [List.map_const', List.sum_replicate_nat, Nat.mul_zero]
  omega

end Reports

/-! ## What the report of an ingest says -/

namespace Ingest

variable {s : Store} {data : Value}

/-- **An ingest without limits** into a store that is not frozen ends with its report. -/
theorem outcome_run (hs : s.frozen = false) (hdata : data.isMap = true) (source : Text) :
    (run s data source unlimited).outcome = .ok (run s data source unlimited).report := by
  rw [outcome, (report_run hs hdata source).1]

/-- The keys that are defined are those of the rules that are taken. -/
theorem defined_run (hs : s.frozen = false) (hdata : data.isMap = true) (source : Text) :
    (run s data source unlimited).report.defined = (takenRules data).map RuleDefinition.key := by
  rw [(report_run hs hdata source).2]
  exact defined_reports (withRules s data) data

/-- The keys that are aliased are those of the aliases that are taken. -/
theorem aliased_run (hs : s.frozen = false) (hdata : data.isMap = true) (source : Text) :
    (run s data source unlimited).report.aliased
      = (takenAliases s data).map AliasDefinition.key := by
  rw [(report_run hs hdata source).2]
  exact aliased_reports (withRules s data) data

theorem balanced_run (hs : s.frozen = false) (hdata : data.isMap = true) (source : Text) :
    (run s data source unlimited).report.Balanced := by
  rw [(report_run hs hdata source).2]
  exact Report.Balanced.merge rfl (balanced_reports (withRules s data) data)

/-- **An ingest with limits** into a store that is not frozen ends with the report of the one
without limits, if the table is passable, and else it stops at an entry that cannot be named. -/
theorem outcome_of_not_frozen (hs : s.frozen = false) (hdata : data.isMap = true) (source : Text)
    (writes : Value → Bool) : (run s data source writes).outcome
      = if isPassable writes data then .ok (run s data source unlimited).report
        else .error .unwritable := by
  cases h : isPassable writes data with
  | true => rw [run_of_passable h, outcome_run hs hdata, if_pos rfl]
  | false =>
    rw [outcome_eq, outcome_run hs ((isMap_reached writes data).trans hdata), h]
    rfl

/-- There is a report exactly of a passable table. -/
theorem exists_report_iff (hs : s.frozen = false) (hdata : data.isMap = true) (source : Text)
    (writes : Value → Bool) :
    (∃ report, (run s data source writes).outcome = .ok report)
      ↔ isPassable writes data = true := by
  rw [outcome_of_not_frozen hs hdata]
  cases isPassable writes data with
  | true => exact iff_of_true ⟨_, rfl⟩ rfl
  | false => exact iff_of_false (fun ⟨_, h⟩ => nomatch h) Bool.false_ne_true

theorem length_errors_run (hs : s.frozen = false) (hdata : data.isMap = true) (source : Text) :
    (run s data source unlimited).report.errors.length
      = (isFaulty data "rules").toNat + (isFaulty data "aliases").toNat
        + ((sectionItems data "rules").countP fun v => (takenRule? v).isNone)
        + ((takenRules data).map fun d => d.dropped.length).sum
        + ((sectionItems data "aliases").countP
            fun v => (takenAlias? (withRules s data) v).isNone) := by
  rw [(report_run hs hdata source).2]
  exact length_errors_reports (withRules s data) data

end Ingest

/-- **Every entry of a table is accounted for, if the ingest gets past it.**  The ingest of a table
into a store that is not frozen ends with a report exactly if every entry is well formed or can be
named.  The report names the rules and the aliases that were taken, which are those that were
registered, in order; and it counts one error for each faulty section, for each entry that was not
taken and for each text that was dropped from a rule that was.  Any other table stops the ingest at
the first entry that is neither, and only what is taken from the part before it is registered. -/
theorem accounts_for_every_entry {s : Store} (hs : s.frozen = false) {data : Value}
    (hdata : data.isMap = true) (source : Text) (writes : Value → Bool) :
    let outcome := (Ingest.run s data source writes).outcome
    let entries := (Ingest.run s data source writes).store.entries
    ((∃ report, outcome = .ok report) ↔ isPassable writes data = true)
      ∧ (isPassable writes data = false → outcome = .error .unwritable
        ∧ entries = s.entries ++ takenEntries s (reached writes data))
      ∧ ∀ report, outcome = .ok report →
        report.defined = (takenRules data).map RuleDefinition.key
          ∧ report.aliased = (takenAliases s data).map AliasDefinition.key
          ∧ entries = s.entries ++ ((takenRules data).map RuleDefinition.entry
            ++ (takenAliases s data).map AliasDefinition.entry)
          ∧ report.skipped = report.errors.length
          ∧ report.errors.length
            = (isFaulty data "rules").toNat + (isFaulty data "aliases").toNat
              + ((sectionItems data "rules").countP fun v => (takenRule? v).isNone)
              + ((takenRules data).map fun d => d.dropped.length).sum
              + ((sectionItems data "aliases").countP
                  fun v => (takenAlias? (withRules s data) v).isNone) := by
  intro outcome entries
  have houtcome := Ingest.outcome_of_not_frozen hs hdata source writes
  have hentries : entries = s.entries ++ takenEntries s (reached writes data) := by
    simp only [entries]
    rw [Ingest.store_run_reached, entries_definitions hs ((isMap_reached writes data).trans hdata)]
  refine ⟨Ingest.exists_report_iff hs hdata source writes, fun h => ⟨?_, hentries⟩,
    fun report hreport => ?_⟩
  · rw [h] at houtcome
    exact houtcome
  · have h := (Ingest.exists_report_iff hs hdata source writes).mp ⟨report, hreport⟩
    rw [h, if_pos rfl] at houtcome
    obtain rfl := Except.ok.inj (houtcome.symm.trans hreport)
    refine ⟨Ingest.defined_run hs hdata source, Ingest.aliased_run hs hdata source, ?_,
      Ingest.balanced_run hs hdata source, Ingest.length_errors_run hs hdata source⟩
    simp only [entries]
    rw [Ingest.run_of_passable h, Ingest.store_run]
    exact entries_definitions hs hdata

/-- A table with a rule of which one text is dropped, three rules that are not taken, and an alias
for each of two keys, of which one has no rule. -/
def mixedTable : Value :=
  .map [
    (.text "rules", .list [
      .int 5,
      .map [(.text "key", .text "a"), (.text "query", .text "self::a")],
      .map [(.text "key", .text "b"), (.text "query", .text "self::b"),
        (.text "mappings", .map [(.text "default", .map [(.text "default", .text "[x]")])])],
      .map [(.text "key", .text "c"), (.text "query", .text "self::c"),
        (.text "mappings", .map [(.text "default", .map [
          (.text "default", .text "[n] ./*[1]"), (.text "short", .text "[t] \"")])])]]),
    (.text "aliases", .list [
      .map [(.text "key", .text "b"), (.text "query", .text "self::d")],
      .map [(.text "key", .text "c"), (.text "query", .text "self::d")]])]

theorem accounts_for_every_entry_mixedTable :
    ∃ report, (Ingest.run {} mixedTable "").outcome = .ok report
      ∧ report.defined = [("c" : Text)] ∧ report.aliased = [("c" : Text)] ∧ report.skipped = 5 := by
  obtain ⟨hends, -, hreport⟩ := accounts_for_every_entry (s := {}) rfl
    (show mixedTable.isMap = true from rfl) "" Value.isWritable
  obtain ⟨report, houtcome⟩ := hends.mpr (by decide +kernel)
  obtain ⟨hdefined, haliased, -, hskipped, hlength⟩ := hreport report houtcome
  exact ⟨report, houtcome, hdefined.trans (by decide +kernel), haliased.trans (by decide +kernel),
    (hskipped.trans hlength).trans (by decide +kernel)⟩

/-- **Not every table gets a report.**  The key of the first rule stops the ingest, and the second
rule, which is well formed, is not registered. -/
theorem not_accounts_for_every_table :
    let run := Ingest.run {} unwritableTable ""
    (∃ d, takenRules unwritableTable = [d]) ∧ (¬∃ report, run.outcome = .ok report)
      ∧ run.outcome = .error .unwritable ∧ run.store.entries = [] := by
  intro run
  have hfault : run.fault = some .unwritable := by decide +kernel
  exact ⟨List.length_eq_one_iff.mp (by decide +kernel), Ingest.not_exists_report hfault,
    Ingest.outcome_of_fault hfault, by decide +kernel⟩

end MathSpeech.Table
