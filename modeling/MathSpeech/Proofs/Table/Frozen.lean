import MathSpeech.Proofs.Table.Reached

/-!
# Proofs/Table/Frozen — a table for a frozen store

The ingest of a table validates an entry before it asks the store, so a frozen store stops it at the
first entry that is well formed, if it gets there.  If there is none, and no entry that cannot be
named either, the ingest comes to its end, and its report names no key
(`Ingest.refused_or_empty_of_frozen`).
-/

namespace MathSpeech.Table

/-! ## Well-formed entries -/

/-- A rule entry that is well formed. -/
def isRule (entry : Value) : Bool := (RuleDefinition.read entry).toOption.isSome

/-- An alias entry that is well formed. -/
def isAlias (entry : Value) : Bool := (AliasDefinition.read entry).toOption.isSome

/-- **Some entry of a table is well formed.** -/
def hasEntry (data : Value) : Bool :=
  (sectionItems data "rules").any isRule || (sectionItems data "aliases").any isAlias

theorem hasEntry_eq_false_iff {data : Value} :
    hasEntry data = false
      ↔ (∀ v ∈ sectionItems data "rules", ∃ issues, RuleDefinition.read v = .error issues)
        ∧ ∀ v ∈ sectionItems data "aliases", ∃ issues, AliasDefinition.read v = .error issues := by
  have hread : ∀ {α : Type} (x : Checked α),
      ¬x.toOption.isSome = true ↔ ∃ issues, x = .error issues := by
    intro α x
    cases x <;> simp [Except.toOption]
  simp only [hasEntry, Bool.or_eq_false_iff, List.any_eq_false, isRule, isAlias, hread]

namespace Ingest

/-! ## One entry -/

/-- **An ingest only skips** on its way from `run` to `run'`. -/
structure Skips (run run' : Ingest) : Prop where
  store : run'.store = run.store
  fault : run'.fault = run.fault
  defined : run'.report.defined = run.report.defined
  aliased : run'.report.aliased = run.report.aliased

theorem skips_self (run : Ingest) : Skips run run := ⟨rfl, rfl, rfl, rfl⟩

theorem Skips.trans {run run' run'' : Ingest} (h : Skips run run') (h' : Skips run' run'') :
    Skips run run'' where
  store := h'.store.trans h.store
  fault := h'.fault.trans h.fault
  defined := h'.defined.trans h.defined
  aliased := h'.aliased.trans h.aliased

/-- A frozen store has stopped the ingest. -/
def IsRefused (run : Ingest) : Prop := ∃ r, run.fault = some (.refused r)

theorem IsRefused.isSome_fault {run : Ingest} (h : run.IsRefused) : run.fault.isSome = true := by
  obtain ⟨r, hr⟩ := h
  rw [hr, Option.isSome_some]

/-- **An ingest comes to a halt at the first of its tests**: it is refused if one of them is passed,
and else it only skips. -/
def HaltsAt (run run' : Ingest) (passed : Bool) : Prop :=
  if passed then run'.IsRefused else Skips run run'

variable {run : Ingest}

theorem haltsAt_rule (hfault : run.fault = none) (hfrozen : run.store.frozen = true) (index : Nat)
    (entry : Value) : HaltsAt run (run.rule unlimited index entry) (isRule entry) := by
  rw [HaltsAt, isRule, rule, ite_fault_of_none hfault]
  cases RuleDefinition.read entry with
  | error issues =>
    dsimp only
    rw [skipEntry_unlimited]
    exact ⟨rfl, rfl, rfl, rfl⟩
  | ok d =>
    refine ⟨⟨"define rule"⟩, ?_⟩
    simp only [takeRule, Store.defineMappings, hfrozen, if_true]

theorem haltsAt_extra (hfault : run.fault = none) (hfrozen : run.store.frozen = true)
    (index : Nat) (entry : Value) :
    HaltsAt run (run.extra unlimited index entry) (isAlias entry) := by
  rw [HaltsAt, isAlias, extra, ite_fault_of_none hfault]
  cases AliasDefinition.read entry with
  | error issues =>
    dsimp only
    rw [skipEntry_unlimited]
    exact ⟨rfl, rfl, rfl, rfl⟩
  | ok d =>
    refine ⟨⟨"define rule alias"⟩, ?_⟩
    simp only [takeAlias, Store.defineAlias, hfrozen, if_true]

/-! ## All entries -/

/-- **The entries of a section, one after the other**: the first that passes the test halts the
ingest, and the others behind it are not looked at. -/
theorem haltsAt_foldl {step : Ingest → Nat → Value → Ingest} {passes : Value → Bool}
    (hstopped : ∀ {run : Ingest}, run.fault.isSome = true → ∀ index entry,
      step run index entry = run)
    (hstep : ∀ {run : Ingest}, run.fault = none → run.store.frozen = true → ∀ index entry,
      HaltsAt run (step run index entry) (passes entry))
    (hfault : run.fault = none) (hfrozen : run.store.frozen = true) (items : List Value)
    (first : Nat) :
    HaltsAt run ((items.zipIdx first).foldl (fun run (v, i) => step run i v) run)
      (items.any passes) := by
  induction items generalizing run first with
  | nil => exact skips_self run
  | cons entry rest ih =>
    have hentry := hstep hfault hfrozen first entry
    rw [List.zipIdx_cons, List.foldl_cons, List.any_cons]
    cases hpasses : passes entry with
    | true =>
      rw [hpasses] at hentry
      have hrefused : (step run first entry).IsRefused := hentry
      have hrest := List.foldl_fixed' (f := fun run (v, i) => step run i v)
        (fun x => hstopped hrefused.isSome_fault x.2 x.1) (rest.zipIdx (first + 1))
      exact hrest.symm ▸ hrefused
    | false =>
      rw [hpasses] at hentry
      have hskips : Skips run (step run first entry) := hentry
      have hothers := ih (hskips.fault.trans hfault)
        (by rw [hskips.store, hfrozen]) (first + 1)
      rw [Bool.false_or]
      cases hany : rest.any passes with
      | true =>
        rw [hany] at hothers
        exact hothers
      | false =>
        rw [hany] at hothers
        exact hskips.trans hothers

theorem skips_entries (run : Ingest) (data : Value) (name : Text) :
    Skips run (run.entries data name).1 := by
  unfold entries
  cases (data.get? name).getD .null with
  | list items => exact skips_self run
  | _ =>
    dsimp only
    split <;> exact ⟨rfl, rfl, rfl, rfl⟩

theorem HaltsAt.of_skips {run run' run'' : Ingest} {passed : Bool} (h : Skips run run')
    (h' : HaltsAt run' run'' passed) : HaltsAt run run'' passed := by
  cases passed with
  | true => exact h'
  | false => exact h.trans h'

theorem haltsAt_rules (hfault : run.fault = none) (hfrozen : run.store.frozen = true)
    (data : Value) :
    HaltsAt run (run.rules unlimited data) ((sectionItems data "rules").any isRule) := by
  have hentries := run.skips_entries data "rules"
  rw [rules, ← (run.entries_spec data "rules").2.2]
  refine .of_skips hentries (haltsAt_foldl (fun h _ _ => if_pos h) haltsAt_rule
    (hentries.fault.trans hfault) (by rw [hentries.store, hfrozen]) _ 0)

theorem haltsAt_aliases (hfault : run.fault = none) (hfrozen : run.store.frozen = true)
    (data : Value) :
    HaltsAt run (run.aliases unlimited data) ((sectionItems data "aliases").any isAlias) := by
  have hentries := run.skips_entries data "aliases"
  rw [aliases, ite_fault_of_none hfault, ← (run.entries_spec data "aliases").2.2]
  refine .of_skips hentries (haltsAt_foldl (fun h _ _ => if_pos h) haltsAt_extra
    (hentries.fault.trans hfault) (by rw [hentries.store, hfrozen]) _ 0)

/-- **The sections of a table for a frozen store**: a well-formed entry of the rules halts the
ingest before the aliases. -/
theorem haltsAt_sections (hfault : run.fault = none) (hfrozen : run.store.frozen = true)
    (data : Value) :
    HaltsAt run ((run.rules unlimited data).aliases unlimited data) (hasEntry data) := by
  have hrules := haltsAt_rules hfault hfrozen data
  rw [hasEntry]
  cases hany : (sectionItems data "rules").any isRule with
  | true =>
    rw [hany] at hrules
    have hrefused : (run.rules unlimited data).IsRefused := hrules
    rw [aliases, if_pos hrefused.isSome_fault]
    exact hrefused
  | false =>
    rw [hany] at hrules
    have hskips : Skips run (run.rules unlimited data) := hrules
    rw [Bool.false_or]
    exact .of_skips hskips (haltsAt_aliases (hskips.fault.trans hfault)
      (by rw [hskips.store, hfrozen]) data)

/-- **A table for a frozen store, without limits**, is refused if some entry is well formed; else
its ingest ends with a report that names no key. -/
theorem outcome_of_frozen {s : Store} (hs : s.frozen = true) {data : Value}
    (hdata : data.isMap = true) (source : Text) :
    if hasEntry data then ∃ r, (Ingest.run s data source unlimited).outcome = .error (.refused r)
      else ∃ report, (Ingest.run s data source unlimited).outcome = .ok report
        ∧ report.defined = [] ∧ report.aliased = [] := by
  let start : Ingest := { store := s, report :=
    { sources := if source.isEmpty then [] else [source] } }
  have hsections : HaltsAt start ((start.rules unlimited data).aliases unlimited data)
    (hasEntry data) := haltsAt_sections rfl hs data
  have hrun : Ingest.run s data source unlimited
    = ((start.rules unlimited data).aliases unlimited data).finish := if_pos hdata
  rw [hrun, outcome, finish]
  cases hhas : hasEntry data with
  | true =>
    rw [hhas] at hsections
    have hrefused : ((start.rules unlimited data).aliases unlimited data).IsRefused := hsections
    rw [if_pos hrefused.isSome_fault]
    obtain ⟨r, hr⟩ := hrefused
    exact ⟨r, by rw [hr]⟩
  | false =>
    rw [hhas] at hsections
    have hskips : Skips start ((start.rules unlimited data).aliases unlimited data) := hsections
    rw [hskips.fault]
    exact ⟨_, rfl, hskips.defined, hskips.aliased⟩

/-- **What comes of a table for a frozen store**: it is refused if an entry that is reached is well
formed; else an entry that cannot be named stops the ingest, or there is a report that names no
key. -/
theorem outcome_cases_of_frozen {s : Store} (hs : s.frozen = true) {data : Value}
    (hdata : data.isMap = true) (source : Text) (writes : Value → Bool) :
    let outcome := (Ingest.run s data source writes).outcome
    if hasEntry (reached writes data) then ∃ r, outcome = .error (.refused r)
      else if isPassable writes data then
        ∃ report, outcome = .ok report ∧ report.defined = [] ∧ report.aliased = []
      else outcome = .error .unwritable := by
  intro outcome
  have hreached := outcome_of_frozen hs ((isMap_reached writes data).trans hdata) source
  have houtcome : outcome = _ := outcome_eq s data source writes
  cases hhas : hasEntry (reached writes data) with
  | true =>
    rw [hhas] at hreached
    obtain ⟨r, hr⟩ := hreached
    rw [hr] at houtcome
    exact ⟨r, houtcome⟩
  | false =>
    rw [hhas] at hreached
    obtain ⟨report, hreport, hkeys⟩ := hreached
    rw [hreport] at houtcome
    cases hpassable : isPassable writes data with
    | true => exact ⟨report, houtcome.trans (if_pos hpassable), hkeys⟩
    | false => exact houtcome.trans (if_neg (Bool.eq_false_iff.mp hpassable))

theorem hasEntry_reached {writes : Value → Bool} {data : Value}
    (h : isPassable writes data = true) : hasEntry (reached writes data) = hasEntry data := by
  obtain ⟨hrules, haliases⟩ := sectionValue_reached h
  simp only [hasEntry, ← itemsOf_sectionValue, hrules, haliases]

/-- **A table for a frozen store** is refused, or stopped by an entry that cannot be named, or it
names no key.  It is the latter exactly if no entry is well formed and all can be named; and it is
stopped exactly if no entry that is reached is well formed and there is one behind them. -/
theorem refused_or_empty_of_frozen {s : Store} (hs : s.frozen = true) {data : Value}
    (hdata : data.isMap = true) (source : Text) (writes : Value → Bool) :
    let outcome := (Ingest.run s data source writes).outcome
    ((∃ r, outcome = .error (.refused r)) ∨ outcome = .error .unwritable
        ∨ ∃ report, outcome = .ok report ∧ report.defined = [] ∧ report.aliased = [])
      ∧ ((∃ report, outcome = .ok report) ↔ hasEntry data = false ∧ isPassable writes data = true)
      ∧ (outcome = .error .unwritable
        ↔ hasEntry (reached writes data) = false ∧ isPassable writes data = false) := by
  intro outcome
  have houtcome : if hasEntry (reached writes data) then ∃ r, outcome = .error (.refused r)
      else if isPassable writes data then
        ∃ report, outcome = .ok report ∧ report.defined = [] ∧ report.aliased = []
      else outcome = .error .unwritable := outcome_cases_of_frozen hs hdata source writes
  cases hhas : hasEntry (reached writes data) with
  | true =>
    have hrefused : isPassable writes data = true → hasEntry data = true :=
      fun h => (hasEntry_reached h).symm.trans hhas
    rw [hhas, if_pos rfl] at houtcome
    obtain ⟨r, hr⟩ := houtcome
    rw [hr]
    refine ⟨.inl ⟨r, rfl⟩, iff_of_false nofun fun h => ?_, iff_of_false nofun nofun⟩
    exact Bool.false_ne_true (h.1.symm.trans (hrefused h.2))
  | false =>
    cases hpassable : isPassable writes data with
    | true =>
      rw [hhas, hpassable, if_neg Bool.false_ne_true, if_pos rfl] at houtcome
      obtain ⟨report, hreport, hkeys⟩ := houtcome
      rw [hreport]
      refine ⟨.inr (.inr ⟨report, rfl, hkeys⟩), iff_of_true ⟨report, rfl⟩ ⟨?_, rfl⟩,
        iff_of_false nofun nofun⟩
      exact (hasEntry_reached hpassable).symm.trans hhas
    | false =>
      rw [hhas, hpassable, if_neg Bool.false_ne_true, if_neg Bool.false_ne_true] at houtcome
      rw [houtcome]
      exact ⟨.inr (.inl rfl), iff_of_false nofun nofun, iff_of_true rfl ⟨rfl, rfl⟩⟩

end Ingest

end MathSpeech.Table
