import MathSpeech.Proofs.Log.Lines
import MathSpeech.Proofs.Store.Failure
import MathSpeech.Proofs.Store.Repetition
import MathSpeech.Proofs.Table.Cleaned

/-!
# Proofs/Table/Clean — a clean report means that nothing was lost

An ingest keeps account three times over: the report counts, the store drops, and the log warns.
Entry for entry these differ, since a rule of which no text can be used warns once for each text and
counts one error.  But nothing is dropped without an error, and there is no error without a warning
(`Ingest.InStep`).  So there is a clean report exactly when the table is taken whole (`TakenWhole`),
and exactly when no warning is written and nothing stops the ingest (`clean_iff`).
-/

namespace MathSpeech

open Rule (Action)

/-! ## Levels of notices -/

namespace Notice

/-- A warning. -/
def IsWarning (n : Notice) : Prop := n.line.level = .warning

end Notice

namespace Log

/-- **The lines that notices write** have the levels of those notices that pass the threshold. -/
theorem exists_lines_noticeAll (log : Log) (ns : List Notice) :
    ∃ lines, (log.noticeAll ns).lines = log.lines ++ lines
      ∧ lines.map Line.level = (ns.map fun n => n.line.level).filter (passes log.threshold) := by
  refine ⟨log.taken (ns.map Notice.line), by rw [noticeAll_eq], ?_⟩
  have hlevel : Line.level ∘ Line.under log.context = Line.level := rfl
  have hpasses : (ns.map fun n => n.line.level).filter (passes log.threshold)
      = ((ns.map Notice.line).filter fun line =>
          passes log.threshold line.level).map Line.level := by
    rw [List.filter_map, List.filter_map, List.map_map]
    rfl
  rw [taken, List.map_map, hlevel, hpasses]

/-- **A warning is written** exactly when there is a notice that is one, if warnings pass. -/
theorem exists_lines_warning_iff {log : Log} (hwarning : passes log.threshold .warning = true)
    (ns : List Notice) : ∃ lines, (log.noticeAll ns).lines = log.lines ++ lines
      ∧ ((∃ line ∈ lines, line.level = .warning) ↔ ∃ n ∈ ns, n.IsWarning) := by
  obtain ⟨lines, hlines, hlevels⟩ := exists_lines_noticeAll log ns
  refine ⟨lines, hlines, ?_⟩
  have hmem : Level.warning ∈ lines.map Line.level
      ↔ Level.warning ∈ ns.map fun n => n.line.level := by
    rw [hlevels, List.mem_filter, and_iff_left hwarning]
  simpa only [List.mem_map, Notice.IsWarning] using hmem

end Log

/-- **A store holds an action** under a key, for a domain and a style. -/
def Store.Holds (s : Store) (key domain style : Text) (action : Action) : Prop :=
  ∃ atom, s.atoms.get? key = some atom ∧ atom.mappings.find? domain style = some action

namespace Table

open Store (Definition readMappings usable? placedUnder)

/-! ## Errors and warnings in step -/

/-- The notices about rule texts are warnings, and there is one exactly if some text cannot be
used. -/
theorem exists_isWarning_readMappings_iff (key : Text) (ts : List (Text × Text × Text)) :
    (∃ n ∈ (readMappings key ts).2.2, n.IsWarning) ↔ ∃ t ∈ ts, usable? t = none := by
  induction ts with
  | nil => simp [readMappings]
  | cons t rest ih =>
    obtain ⟨domain, style, text⟩ := t
    rw [List.exists_mem_cons_iff, ← ih]
    simp only [readMappings, usable?]
    split
    · cases Action.parse text with
      | ok action => simp [Except.toOption]
      | error fault =>
        rw [List.exists_mem_cons_iff]
        exact iff_of_true (.inl rfl) (.inl rfl)
    · rw [List.exists_mem_cons_iff]
      exact iff_of_true (.inl rfl) (.inl rfl)

/-- Defining rules warns exactly if some text cannot be used. -/
theorem exists_isWarning_defineMappings_iff {s : Store} {d : RuleDefinition}
    {change : Store.Change (Bool × List Text)}
    (h : s.defineMappings d.key d.category d.mappings d.query d.constraints = .ok change) :
    (∃ n ∈ change.notices, n.IsWarning) ↔ ∃ t ∈ d.mappings.triples, usable? t = none := by
  rw [← exists_isWarning_readMappings_iff d.key]
  rw [Store.defineMappings] at h
  split at h
  · cases h
  · dsimp only at h
    split at h
    · cases h
      rfl
    · cases h
      simp [Store.registered, Notice.IsWarning, Notice.line, Notice.plain]

namespace RuleDefinition

theorem triples_ne_nil {entry : Value} {d : RuleDefinition} (h : read entry = .ok d) :
    d.mappings.triples ≠ [] := by
  obtain ⟨-, -, -, -, -, hmappings⟩ := read_eq_ok_iff.mp h
  rw [required] at hmappings
  cases hget : entry.get? "mappings" with
  | none =>
    rw [hget] at hmappings
    cases hmappings
  | some v =>
    rw [hget] at hmappings
    exact triples_ne_nil_of_hasRuleText (checkMappings_eq_ok_iff.mp hmappings).2

theorem mem_dropped {d : RuleDefinition} {t : Text × Text × Text} :
    t ∈ d.dropped ↔ t ∈ d.mappings.triples ∧ usable? t = none := by
  rw [dropped, List.mem_filter, Option.isNone_iff_eq_none]

/-- **The report on a rule with texts tells errors** exactly if some text cannot be used. -/
theorem errors_report_ne_nil_iff (d : RuleDefinition) (index : Nat)
    (htexts : d.mappings.triples ≠ []) :
    (d.report index).errors ≠ [] ↔ ∃ t ∈ d.mappings.triples, usable? t = none := by
  have hdropped : d.dropped ≠ [] ↔ ∃ t ∈ d.mappings.triples, usable? t = none := by
    rw [ne_eq, List.eq_nil_iff_forall_not_mem, not_forall]
    simp only [mem_dropped, not_not]
  rw [report]
  split
  · rename_i hplaced
    obtain ⟨t, ht⟩ := List.exists_mem_of_ne_nil _ htexts
    rw [List.isEmpty_iff, placed, List.filterMap_eq_nil_iff] at hplaced
    exact iff_of_true (List.cons_ne_nil _ _) ⟨t, ht, hplaced t ht⟩
  · rw [← hdropped]
    exact not_congr List.map_eq_nil_iff

end RuleDefinition

namespace Ingest

/-- **Errors and warnings are in step**: there are errors exactly if there are warnings. -/
structure InStep (run : Ingest) : Prop extends run.GoesOn where
  warned : run.report.errors ≠ [] ↔ ∃ n ∈ run.notices, n.IsWarning

/-- What is reported from `run` to `run'` keeps errors and warnings in step. -/
theorem InStep.next {run run' : Ingest} (h : run.InStep) (hgoesOn : run'.GoesOn)
    {errors : List Text} (herrors : run'.report.errors = run.report.errors ++ errors)
    {notices : List Notice} (hnotices : run'.notices = run.notices ++ notices)
    (hwarned : errors ≠ [] ↔ ∃ n ∈ notices, n.IsWarning) : run'.InStep where
  toGoesOn := hgoesOn
  warned := by
    rw [herrors, hnotices, ne_eq, List.append_eq_nil_iff, not_and_or]
    simp only [List.mem_append, or_and_right, exists_or]
    exact or_congr h.warned hwarned

theorem InStep.skip {run : Ingest} (h : run.InStep) (key reason error : Text) :
    (run.skip key reason error).InStep :=
  h.next (tells_skip h.toGoesOn key reason error).goesOn rfl rfl
    (iff_of_true (List.cons_ne_nil error []) ⟨_, List.mem_singleton_self _, rfl⟩)

theorem InStep.entries {run : Ingest} (h : run.InStep) (data : Value) (name : Text) :
    (run.entries data name).1.InStep := by
  unfold Ingest.entries
  cases (data.get? name).getD .null with
  | list items => exact h
  | _ =>
    dsimp only
    split
    · exact h.skip ..
    · exact h

theorem InStep.takeRule {run : Ingest} (h : run.InStep) (index : Nat) {d : RuleDefinition}
    (htexts : d.mappings.triples ≠ []) : (run.takeRule index d).InStep := by
  have htells := tells_takeRule h.toGoesOn index d
  obtain ⟨change, hchange, -, -⟩ := exists_defineMappings h.frozen d
  have hnotices : (run.takeRule index d).notices = run.notices ++ change.notices := by
    rw [Ingest.takeRule, hchange]
  refine h.next htells.goesOn (congrArg Report.errors htells.report) hnotices ?_
  rw [d.errors_report_ne_nil_iff index htexts, exists_isWarning_defineMappings_iff hchange]

theorem InStep.rule {run : Ingest} (h : run.InStep) (index : Nat) (entry : Value) :
    (run.rule unlimited index entry).InStep := by
  rw [Ingest.rule, ite_fault_of_none h.fault]
  cases hread : RuleDefinition.read entry with
  | error issues =>
    dsimp only
    rw [skipEntry_unlimited]
    exact h.skip ..
  | ok d => exact h.takeRule index (RuleDefinition.triples_ne_nil hread)

theorem InStep.takeAlias {run : Ingest} (h : run.InStep) (index : Nat) (d : AliasDefinition) :
    (run.takeAlias index d).InStep := by
  have htells := (tells_takeAlias h.toGoesOn index d).1
  have hdefine : run.store.defineAlias d.key d.query d.constraints
      = if run.store.atoms.contains d.key then _ else _ := if_neg (Bool.eq_false_iff.mp h.frozen)
  by_cases hknown : run.store.atoms.contains d.key = true
  · have hnotices : (run.takeAlias index d).notices = run.notices ++ [] := by
      rw [Ingest.takeAlias, hdefine, if_pos hknown]
    refine h.next htells.goesOn (congrArg Report.errors htells.report) hnotices ?_
    rw [AliasDefinition.report, if_pos hknown]
    simp
  · have hnotices : (run.takeAlias index d).notices
        = run.notices ++ [.skipped d.key "alias" "Invalid rules. No alias defined."] := by
      rw [Ingest.takeAlias, hdefine, if_neg hknown]
    refine h.next htells.goesOn (congrArg Report.errors htells.report) hnotices ?_
    rw [AliasDefinition.report, if_neg hknown]
    exact iff_of_true (List.cons_ne_nil _ _) ⟨_, List.mem_singleton_self _, rfl⟩

theorem InStep.extra {run : Ingest} (h : run.InStep) (index : Nat) (entry : Value) :
    (run.extra unlimited index entry).InStep := by
  rw [Ingest.extra, ite_fault_of_none h.fault]
  cases AliasDefinition.read entry with
  | error issues =>
    dsimp only
    rw [skipEntry_unlimited]
    exact h.skip ..
  | ok d => exact h.takeAlias index d

theorem InStep.foldl {step : Ingest → Nat → Value → Ingest}
    (hstep : ∀ {run : Ingest}, run.InStep → ∀ index entry, (step run index entry).InStep)
    {run : Ingest} (h : run.InStep) (items : List (Value × Nat)) :
    (items.foldl (fun run (v, i) => step run i v) run).InStep := by
  induction items generalizing run with
  | nil => exact h
  | cons item rest ih => exact ih (hstep h item.2 item.1)

theorem InStep.rules {run : Ingest} (h : run.InStep) (data : Value) :
    (run.rules unlimited data).InStep :=
  InStep.foldl InStep.rule (h.entries data "rules") _

theorem InStep.aliases {run : Ingest} (h : run.InStep) (data : Value) :
    (run.aliases unlimited data).InStep := by
  rw [Ingest.aliases, ite_fault_of_none h.fault]
  exact InStep.foldl InStep.extra (h.entries data "aliases") _

theorem InStep.finish {run : Ingest} (h : run.InStep) : run.finish.InStep := by
  rw [Ingest.finish, ite_fault_of_none h.fault]
  refine h.next ⟨h.fault, h.frozen⟩ (List.append_nil _).symm rfl (iff_of_false (fun h => h rfl) ?_)
  rintro ⟨n, hn, hwarning⟩
  obtain rfl := List.mem_singleton.mp hn
  cases hwarning

/-- **Errors and warnings are in step at the end of an ingest** without limits. -/
theorem inStep_run {s : Store} (hs : s.frozen = false) {data : Value} (hdata : data.isMap = true)
    (source : Text) : (run s data source unlimited).InStep := by
  have hstart : InStep { store := s, report :=
      { sources := if source.isEmpty then [] else [source] } } :=
    ⟨⟨rfl, hs⟩, iff_of_false (fun h => h rfl) fun ⟨_, hn, _⟩ => List.not_mem_nil hn⟩
  rw [run, if_pos hdata]
  exact ((hstart.rules data).aliases data).finish

end Ingest

/-! ## Tables that are taken whole -/

/-- **A table is taken whole** from one store to another: its sections are lists or say nothing,
every entry is well formed, every rule text is stored, and every precondition is added. -/
structure TakenWhole (data : Value) (s s' : Store) (rules : List RuleDefinition)
    (aliases : List AliasDefinition) : Prop where
  sections : isFaulty data "rules" = false ∧ isFaulty data "aliases" = false
  rules_read : (sectionItems data "rules").map RuleDefinition.read = rules.map .ok
  aliases_read : (sectionItems data "aliases").map AliasDefinition.read = aliases.map .ok
  /-- A rule text can be used, and what it says is stored for its domain and style, unless a later
  rule of the same key has a text for them too. -/
  texts : ∀ before d later, rules = before ++ d :: later → ∀ t ∈ d.mappings.triples,
    Store.IsName t.1 ∧ Store.IsName t.2.1 ∧ ∃ action, Action.parse t.2.2 = .ok action
      ∧ (s'.Holds d.key t.1 t.2.1 action
        ∨ ∃ d' ∈ later, d'.key = d.key ∧ ∃ t' ∈ d'.mappings.triples, t'.1 = t.1 ∧ t'.2.1 = t.2.1)
  entries : s'.entries
    = s.entries ++ (rules.map RuleDefinition.entry ++ aliases.map AliasDefinition.entry)

/-- Entries that are all taken are read as what is taken. -/
theorem map_read_of_taken {α : Type} {read : Value → Checked α} {take? : Value → Option α}
    {items : List Value} (h : ∀ v ∈ items, ∃ d, take? v = some d ∧ read v = .ok d) :
    items.map read = (items.filterMap take?).map .ok := by
  induction items with
  | nil => rfl
  | cons v rest ih =>
    obtain ⟨d, htaken, hread⟩ := h v List.mem_cons_self
    rw [List.map_cons, List.filterMap_cons, htaken, hread, List.map_cons,
      ih fun v' hv' => h v' (List.mem_cons_of_mem v hv')]

/-- What is read as a list of things is each read as one of them. -/
theorem exists_read_of_map_eq {α : Type} {read : Value → Checked α} {items : List Value}
    {ds : List α} (h : items.map read = ds.map .ok) {v : Value} (hv : v ∈ items) :
    ∃ d ∈ ds, read v = .ok d := by
  have hmem : read v ∈ ds.map .ok := h ▸ List.mem_map_of_mem hv
  obtain ⟨d, hd, hread⟩ := List.mem_map.mp hmem
  exact ⟨d, hd, hread.symm⟩

theorem Report.Balanced.isClean_iff {r : Report} (h : r.Balanced) :
    r.isClean = true ↔ r.errors = [] := by
  rw [isClean, h, Bool.and_eq_true, beq_iff_eq, List.length_eq_zero_iff, List.isEmpty_iff, and_self]

section Whole

variable {s : Store} {data : Value}

/-- **No errors**: no section is faulty, every rule is taken with all its texts, and every alias is
taken. -/
theorem errors_run_eq_nil_iff (hs : s.frozen = false) (hdata : data.isMap = true) (source : Text) :
    (Ingest.run s data source Ingest.unlimited).report.errors = []
      ↔ (isFaulty data "rules" = false ∧ isFaulty data "aliases" = false)
        ∧ (∀ v ∈ sectionItems data "rules", ∃ d, takenRule? v = some d ∧ d.dropped = [])
        ∧ ∀ v ∈ sectionItems data "aliases", (takenAlias? (withRules s data) v).isSome := by
  have hrules : (((sectionItems data "rules").countP fun v => (takenRule? v).isNone) = 0
        ∧ ((takenRules data).map fun d => d.dropped.length).sum = 0)
      ↔ ∀ v ∈ sectionItems data "rules", ∃ d, takenRule? v = some d ∧ d.dropped = [] := by
    rw [List.countP_eq_zero, List.sum_eq_zero_iff_forall_eq_nat, List.forall_mem_map]
    simp only [takenRules, List.mem_filterMap, List.length_eq_zero_iff, Option.isNone_iff_eq_none,
      ← ne_eq, Option.ne_none_iff_exists']
    constructor
    · rintro ⟨htaken, hdropped⟩ v hv
      obtain ⟨d, hd⟩ := htaken v hv
      exact ⟨d, hd, hdropped d ⟨v, hv, hd⟩⟩
    · intro h
      refine ⟨fun v hv => (h v hv).imp fun _ => And.left, ?_⟩
      rintro d ⟨v, hv, hd⟩
      obtain ⟨d', hd', hdropped⟩ := h v hv
      rwa [Option.some.inj (hd.symm.trans hd')]
  have haliases : ((sectionItems data "aliases").countP
        fun v => (takenAlias? (withRules s data) v).isNone) = 0
      ↔ ∀ v ∈ sectionItems data "aliases", (takenAlias? (withRules s data) v).isSome := by
    rw [List.countP_eq_zero]
    simp only [Option.isNone_iff_eq_none, Option.isSome_iff_ne_none, ne_eq]
  rw [← List.length_eq_zero_iff, Ingest.length_errors_run hs hdata, ← hrules, ← haliases]
  simp only [Nat.add_eq_zero_iff, Bool.toNat_eq_zero, and_assoc]

/-- **No errors, if the table is taken whole.** -/
theorem TakenWhole.errors_run_eq_nil (hs : s.frozen = false) (hdata : data.isMap = true)
    (source : Text) {rules : List RuleDefinition} {aliases : List AliasDefinition}
    (h : TakenWhole data s (Ingest.run s data source Ingest.unlimited).store rules aliases) :
    (Ingest.run s data source Ingest.unlimited).report.errors = [] := by
  have hrules : ∀ v ∈ sectionItems data "rules",
      ∃ d, takenRule? v = some d ∧ RuleDefinition.read v = .ok d ∧ d.dropped = [] := by
    intro v hv
    obtain ⟨d, hd, hread⟩ := exists_read_of_map_eq h.rules_read hv
    obtain ⟨before, later, hsplit⟩ := List.append_of_mem hd
    have husable : ∀ t ∈ d.mappings.triples, (usable? t).isSome = true := fun t ht => by
      obtain ⟨hdomain, hstyle, action, hparse, -⟩ := h.texts before d later hsplit t ht
      exact Store.isSome_usable?_iff.mpr ⟨hdomain, hstyle, action, hparse⟩
    obtain ⟨t, ht⟩ := List.exists_mem_of_ne_nil _ (RuleDefinition.triples_ne_nil hread)
    obtain ⟨placed, hplaced⟩ := Option.isSome_iff_exists.mp (husable t ht)
    refine ⟨d, takenRule?_eq_some_iff.mpr ⟨hread, ?_⟩, hread, ?_⟩
    · exact List.ne_nil_of_mem (List.mem_filterMap.mpr ⟨t, ht, hplaced⟩)
    · rw [RuleDefinition.dropped, List.filter_eq_nil_iff]
      intro t ht
      rw [Option.isNone_iff_eq_none, ← ne_eq, ← Option.isSome_iff_ne_none]
      exact husable t ht
  have htaken : takenRules data = rules := by
    refine List.map_injective_iff.mpr (fun _ _ => Except.ok.inj) (Eq.trans ?_ h.rules_read)
    exact (map_read_of_taken fun v hv => (hrules v hv).imp fun d hd => ⟨hd.1, hd.2.1⟩).symm
  have haliases : (takenAliases s data).map AliasDefinition.entry
      = aliases.map AliasDefinition.entry := by
    have hentries := h.entries
    rw [Ingest.store_run, entries_definitions hs hdata, takenEntries, htaken] at hentries
    exact List.append_cancel_left (List.append_cancel_left hentries)
  have hlength : (takenAliases s data).length = (sectionItems data "aliases").length := by
    have hread := congrArg List.length h.aliases_read
    have hentries := congrArg List.length haliases
    rw [List.length_map, List.length_map] at hread hentries
    rw [hentries, hread]
  refine (errors_run_eq_nil_iff hs hdata source).mpr ⟨h.sections, fun v hv => ?_, ?_⟩
  · obtain ⟨d, htaken, -, hdropped⟩ := hrules v hv
    exact ⟨d, htaken, hdropped⟩
  · exact List.filterMap_length_eq_length.mp hlength

/-- **What is placed under the key of a rule** comes from the rules before it, from the rule itself
and from those after it. -/
theorem placedUnder_registrations {before later : List RuleDefinition} {d : RuleDefinition} :
    placedUnder ((before ++ d :: later).map fun d => d.definition.registration) d.key
      = placedUnder (before.map fun d => d.definition.registration) d.key
        ++ (d.placed ++ placedUnder (later.map fun d => d.definition.registration) d.key) := by
  have hkey : d.definition.registration.key = d.key := rfl
  rw [placedUnder, List.map_append, List.filter_append, List.flatMap_append, List.map_cons,
    List.filter_cons, if_pos (decide_eq_true hkey), List.flatMap_cons]
  rfl

theorem mem_placedUnder_registrations {rules : List RuleDefinition} {key : Text}
    {t : Text × Text × Action} :
    t ∈ placedUnder (rules.map fun d => d.definition.registration) key
      ↔ ∃ d ∈ rules, d.key = key ∧ t ∈ d.placed := by
  simp only [placedUnder, List.filter_map, List.flatMap_map, List.mem_flatMap, List.mem_filter,
    Function.comp_apply, decide_eq_true_iff, and_assoc]
  rfl

/-- **The latest action of a rule for a domain and style is that of its text for them.** -/
theorem RuleDefinition.latest?_placed {d : RuleDefinition} {t : Text × Text × Text}
    {action : Action} (ht : t ∈ d.mappings.triples)
    (husable : usable? t = some (t.1, t.2.1, action)) :
    Mappings.latest? d.placed t.1 t.2.1 = some action := by
  have hmem : (t.1, t.2.1, action) ∈ d.placed := List.mem_filterMap.mpr ⟨t, ht, husable⟩
  obtain ⟨other, hother⟩ := Option.isSome_iff_exists.mp (Mappings.isSome_latest? hmem)
  obtain ⟨t', ht', husable'⟩ := List.mem_filterMap.mp (Mappings.mem_of_latest? hother)
  obtain ⟨hdomain, hstyle, -⟩ := Store.of_usable?_eq_some husable'
  have htext : t.2.2 = t'.2.2 := by
    have hfind := Mappings.find?_of_mem_triples ht'
    rw [← hdomain, ← hstyle, Mappings.find?_of_mem_triples ht] at hfind
    exact Option.some.inj hfind
  have hsame : t = t' := Prod.ext hdomain (Prod.ext hstyle htext)
  rw [← hsame, husable] at husable'
  rw [hother]
  exact congrArg (Option.map fun u => u.2.2) husable'.symm

/-- **What a rule says is stored**, unless a later rule of its key says something for the same
domain and style. -/
theorem holds_or_overwritten (hs : s.frozen = false) (hdata : data.isMap = true)
    {before later : List RuleDefinition} {d : RuleDefinition}
    (hsplit : takenRules data = before ++ d :: later) {t : Text × Text × Text}
    (ht : t ∈ d.mappings.triples) {action : Action}
    (husable : usable? t = some (t.1, t.2.1, action)) :
    (s.afterAll (definitions data)).Holds d.key t.1 t.2.1 action
      ∨ ∃ d' ∈ later, d'.key = d.key
          ∧ ∃ t' ∈ d'.mappings.triples, t'.1 = t.1 ∧ t'.2.1 = t.2.1 := by
  let rs := (takenRules data).map fun d => d.definition.registration
  have hatoms : (s.afterAll (definitions data)).atoms = (s.registerAll rs).atoms := by
    rw [afterAll_definitions hs hdata, withRules_eq hs]
  cases hlater : Mappings.latest?
      (placedUnder (later.map fun d => d.definition.registration) d.key) t.1 t.2.1 with
  | some other =>
    obtain ⟨d', hd', hkey, hplaced⟩ :=
      mem_placedUnder_registrations.mp (Mappings.mem_of_latest? hlater)
    obtain ⟨t', ht', husable'⟩ := List.mem_filterMap.mp hplaced
    obtain ⟨hdomain, hstyle, -⟩ := Store.of_usable?_eq_some husable'
    exact .inr ⟨d', hd', hkey, t', ht', hdomain.symm, hstyle.symm⟩
  | none =>
    have hmem : d.definition.registration ∈ rs :=
      List.mem_map_of_mem (hsplit ▸ List.mem_append_right before List.mem_cons_self)
    obtain ⟨founder, hfounder⟩ := Store.exists_founder? s hmem
    refine .inl ⟨founder.addAll (placedUnder rs d.key), ?_, ?_⟩
    · rw [hatoms, Store.get?_atoms_registerAll]
      exact congrArg (Option.map _) hfounder
    · have hlatest : Mappings.latest? (placedUnder rs d.key) t.1 t.2.1 = some action := by
        simp only [rs]
        rw [hsplit, placedUnder_registrations, Mappings.latest?_append, Mappings.latest?_append,
          hlater, Option.none_or, RuleDefinition.latest?_placed ht husable, Option.some_or]
      rw [Atom.find?_addAll, hlatest, Option.some_or]

/-- **A table without errors is taken whole.** -/
theorem takenWhole_of_errors_eq_nil (hs : s.frozen = false) (hdata : data.isMap = true)
    (source : Text) (h : (Ingest.run s data source Ingest.unlimited).report.errors = []) :
    TakenWhole data s (Ingest.run s data source Ingest.unlimited).store (takenRules data)
      (takenAliases s data) := by
  obtain ⟨hsections, hrules, haliases⟩ := (errors_run_eq_nil_iff hs hdata source).mp h
  rw [Ingest.store_run]
  refine ⟨hsections, map_read_of_taken fun v hv => ?_, map_read_of_taken fun v hv => ?_,
    fun before d later hsplit t ht => ?_, entries_definitions hs hdata⟩
  · obtain ⟨d, htaken, -⟩ := hrules v hv
    exact ⟨d, htaken, (takenRule?_eq_some_iff.mp htaken).1⟩
  · obtain ⟨d, htaken⟩ := Option.isSome_iff_exists.mp (haliases v hv)
    exact ⟨d, htaken, (takenAlias?_eq_some_iff.mp htaken).1⟩
  · have hd : d ∈ takenRules data := hsplit ▸ List.mem_append_right before List.mem_cons_self
    obtain ⟨v, hv, htaken⟩ := List.mem_filterMap.mp hd
    obtain ⟨d', htaken', hdropped⟩ := hrules v hv
    obtain rfl : d' = d := Option.some.inj (htaken'.symm.trans htaken)
    have husable : usable? t ≠ none := fun hnone =>
      List.not_mem_nil (hdropped ▸ RuleDefinition.mem_dropped.mpr ⟨ht, hnone⟩)
    obtain ⟨u, hu⟩ := Option.ne_none_iff_exists'.mp husable
    obtain ⟨hdomain, hstyle, hname, hname', hparse⟩ := Store.of_usable?_eq_some hu
    refine ⟨hname, hname', u.2.2, hparse, holds_or_overwritten hs hdata hsplit ht ?_⟩
    rw [hu, ← hdomain, ← hstyle]

end Whole

/-! ## Clean reports -/

/-- **A table that is taken whole is passable.** -/
theorem TakenWhole.isPassable {data : Value} {s s' : Store} {rules : List RuleDefinition}
    {aliases : List AliasDefinition} (h : TakenWhole data s s' rules aliases)
    (writes : Value → Bool) : isPassable writes data = true := by
  have hrules : rulesPass writes data = true := all_passes (fun v hv =>
    (exists_read_of_map_eq h.rules_read hv).imp fun _ => And.right) writes
  have haliases : aliasesPass writes data = true := all_passes (fun v hv =>
    (exists_read_of_map_eq h.aliases_read hv).imp fun _ => And.right) writes
  exact Bool.and_eq_true_iff.mpr ⟨hrules, haliases⟩

/-- **There is a clean report** exactly of a passable table without errors. -/
theorem exists_clean_report_iff {s : Store} (hs : s.frozen = false) {data : Value}
    (hdata : data.isMap = true) (source : Text) (writes : Value → Bool) :
    (∃ report, (Ingest.run s data source writes).outcome = .ok report ∧ report.isClean = true)
      ↔ isPassable writes data = true
        ∧ (Ingest.run s data source Ingest.unlimited).report.errors = [] := by
  rw [Ingest.outcome_of_not_frozen hs hdata,
    ← (Ingest.balanced_run hs hdata source).isClean_iff]
  cases isPassable writes data <;> simp

/-- **A clean report means that nothing was lost.**  The ingest of a mapping into a store that is
not frozen ends with a report exactly if every entry is well formed or can be named.  There is a
clean report exactly when the table is taken whole; and, if the log takes warnings, exactly when
there is a report and no warning is written.  An entry that stops the ingest is not warned of. -/
theorem clean_iff {s : Store} (hs : s.frozen = false) {data : Value} (hdata : data.isMap = true)
    {log : Log} (hlog : Log.passes log.threshold .warning = true) (source : Text)
    (writes : Value → Bool) :
    ∃ outcome s' log' lines, ingest s log data source writes = (outcome, s', log')
      ∧ log'.lines = log.lines ++ lines
      ∧ ((∃ report, outcome = .ok report) ↔ isPassable writes data = true)
      ∧ ((∃ report, outcome = .ok report ∧ report.isClean = true)
        ↔ ∃ rules aliases, TakenWhole data s s' rules aliases)
      ∧ ((∃ report, outcome = .ok report ∧ report.isClean = true)
        ↔ isPassable writes data = true ∧ ∀ line ∈ lines, line.level ≠ .warning) := by
  let named := log.setContext (.singleton "table" (.text (sourceName source)))
  have hnamed : Log.passes named.threshold .warning = true := hlog
  obtain ⟨lines, hlines, hwarning⟩ :=
    Log.exists_lines_warning_iff hnamed (Ingest.run s data source writes).notices
  have hclean := exists_clean_report_iff hs hdata source writes
  refine ⟨(Ingest.run s data source writes).outcome, (Ingest.run s data source writes).store,
    (Ingest.run s data source writes).logged source log, lines, rfl, hlines,
    Ingest.exists_report_iff hs hdata source writes, hclean.trans ⟨?_, ?_⟩,
    hclean.trans (and_congr_right fun hpassable => ?_)⟩
  · rintro ⟨hpassable, herrors⟩
    rw [Ingest.run_of_passable hpassable]
    exact ⟨_, _, takenWhole_of_errors_eq_nil hs hdata source herrors⟩
  · rintro ⟨rules, aliases, hwhole⟩
    have hpassable := hwhole.isPassable writes
    rw [Ingest.run_of_passable hpassable] at hwhole
    exact ⟨hpassable, hwhole.errors_run_eq_nil hs hdata source⟩
  · rw [Ingest.run_of_passable hpassable] at hwarning
    rw [← not_iff_not, ← ne_eq, (Ingest.inStep_run hs hdata source).warned, ← hwarning]
    simp only [ne_eq, not_forall, not_not, exists_prop]

/-- A table that gives one key two rules, of which the second overwrites the first, and an alias. -/
def rewrittenTable : Value :=
  .map [
    (.text "rules", .list [
      .map [(.text "key", .text "a"), (.text "query", .text "self::a"),
        (.text "mappings", .map [(.text "default", .map [(.text "default", .text "[n] .")])])],
      .map [(.text "key", .text "a"), (.text "query", .text "self::b"),
        (.text "mappings", .map [(.text "default", .map [(.text "default", .text "[t] x")])])]]),
    (.text "aliases", .list [.map [(.text "key", .text "a"), (.text "query", .text "self::c")]])]

theorem clean_iff_rewrittenTable :
    ∃ report s' log' lines, ingest {} {} rewrittenTable "" = (.ok report, s', log')
      ∧ log'.lines = lines ∧ report.isClean = true
      ∧ (∃ rules aliases, TakenWhole rewrittenTable {} s' rules aliases)
      ∧ ∀ line ∈ lines, line.level ≠ .warning := by
  have hlog : Log.passes ({} : Log).threshold .warning = true := rfl
  obtain ⟨outcome, s', log', lines, hingest, hlines, hends, hwhole, hwarning⟩ := clean_iff (s := {})
    rfl (show rewrittenTable.isMap = true from rfl) hlog "" Value.isWritable
  obtain ⟨report, rfl⟩ := hends.mpr (by decide +kernel)
  have hcomputed : (ingest {} {} rewrittenTable "").1.toOption.map Report.isClean = some true := by
    decide +kernel
  rw [hingest] at hcomputed
  have hclean : report.isClean = true := Option.some.inj hcomputed
  have hexists : ∃ r, Except.ok report = (.ok r : Except Fault Report) ∧ r.isClean = true :=
    ⟨report, rfl, hclean⟩
  exact ⟨report, s', log', lines, hingest, hlines, hclean, hwhole.mp hexists,
    (hwarning.mp hexists).2⟩

/-- **Silence is not always a clean report.**  The key of the first rule stops the ingest, and
nothing is written. -/
theorem not_clean_of_silent :
    let result := ingest {} {} unwritableTable ""
    result.2.2.texts = [] ∧ ¬∃ report, result.1 = .ok report := by
  intro result
  have hfault : (Ingest.run {} unwritableTable "").fault = some .unwritable := by decide +kernel
  refine ⟨by decide +kernel, ?_⟩
  simp only [result, ingest]
  exact Ingest.not_exists_report hfault

end Table

end MathSpeech
