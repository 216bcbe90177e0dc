import MathSpeech.Evaluator.Listed
import MathSpeech.Proofs.Store.Repetition
import MathSpeech.Proofs.Table.Account

/-!
# Proofs/Table/Repetition — a table that is taken in twice

What a store takes from a table depends on the store only by the keys that have an atom, and after a
first ingest these are the same before and after the rules of the table.  So a second ingest
registers the same once more: it ends the same, and but for the entries, which are those of the
first once more, it leaves the store as it is (`run_twice`).
-/

namespace MathSpeech.Table

variable {s : Store} {data : Value}

/-- **Rules that are in** change only the entries. -/
theorem withRules_afterAll (hs : s.frozen = false) (hdata : data.isMap = true) :
    withRules (s.afterAll (definitions data)) data = { s.afterAll (definitions data) with
      entries := (s.afterAll (definitions data)).entries
        ++ (takenRules data).map RuleDefinition.entry } := by
  have hfrozen : (s.afterAll (definitions data)).frozen = false :=
    (s.frozen_afterAll _).trans hs
  rw [withRules_eq hfrozen, afterAll_definitions hs hdata, withRules_eq hs,
    Store.registerAll_entries, Store.registerAll_registerAll, List.map_map]
  rfl

/-- **The store after a table was taken in twice**: that after the first time, with the entries of
the table once more. -/
theorem afterAll_afterAll_definitions (hs : s.frozen = false) (hdata : data.isMap = true) :
    (s.afterAll (definitions data)).afterAll (definitions data)
      = { s.afterAll (definitions data) with
          entries := (s.afterAll (definitions data)).entries ++ takenEntries s data } := by
  have hfrozen : (s.afterAll (definitions data)).frozen = false :=
    (s.frozen_afterAll _).trans hs
  have hatoms : (s.afterAll (definitions data)).atoms = (withRules s data).atoms := by
    rw [afterAll_definitions hs hdata]
  have haliases : takenAliases (s.afterAll (definitions data)) data = takenAliases s data := by
    rw [takenAliases, withRules_afterAll hs hdata]
    exact congrArg (fun atoms : OrderedMap Text Atom => (sectionItems data "aliases").filterMap
      fun v => (AliasDefinition.read v).toOption.filter fun d => atoms.contains d.key) hatoms
  rw [afterAll_definitions hfrozen hdata, haliases, withRules_afterAll hs hdata, List.append_assoc,
    takenEntries]

theorem reports_afterAll (hs : s.frozen = false) (hdata : data.isMap = true) :
    reports (withRules (s.afterAll (definitions data)) data).atoms data
      = reports (withRules s data).atoms data := by
  rw [withRules_afterAll hs hdata, afterAll_definitions hs hdata]

/-- **Taking a table in once more changes nothing but the entries.**  The second ingest ends as the
first: with the same report, if every entry of the table is well formed or can be named, and else at
the same entry.  The store after it is that after the first, with the entries that were taken once
more at the end; and for every evaluator that is a function, whether it answers or fails, the same
is retrieved and the same is looked up. -/
theorem run_twice {ε ν : Type} [DecidableEq ν] (ev : Evaluator (Except ε) ν) (node : Option ν)
    (hs : s.frozen = false) (hdata : data.isMap = true) (source : Text) (writes : Value → Bool) :
    let first := Ingest.run s data source writes
    let second := Ingest.run first.store data source writes
    second.outcome = first.outcome
      ∧ ((∃ report, first.outcome = .ok report) ↔ isPassable writes data = true)
      ∧ (isPassable writes data = false → first.outcome = .error .unwritable)
      ∧ second.store = { first.store with
          entries := first.store.entries ++ takenEntries s (reached writes data) }
      ∧ second.store.retrieve ev node = first.store.retrieve ev node
      ∧ ∀ domain style,
          second.store.lookup ev node domain style = first.store.lookup ev node domain style := by
  intro first second
  have hreached : (reached writes data).isMap = true := (isMap_reached writes data).trans hdata
  have hfirst : first.store = s.afterAll (definitions (reached writes data)) :=
    Ingest.store_run_reached s data source writes
  have hfrozen : first.store.frozen = false := by rw [hfirst, s.frozen_afterAll, hs]
  have hsecond : second.store = { first.store with
      entries := first.store.entries ++ takenEntries s (reached writes data) } := by
    rw [Ingest.store_run_reached, hfirst]
    exact afterAll_afterAll_definitions hs hreached
  have hagain : takenEntries s (reached writes data) ⊆ first.store.entries := by
    rw [hfirst, entries_definitions hs hreached]
    exact List.subset_append_right ..
  have houtcome := Ingest.outcome_of_not_frozen hs hdata source writes
  have houtcome' := Ingest.outcome_of_not_frozen hfrozen hdata source writes
  refine ⟨?_, Ingest.exists_report_iff hs hdata source writes, fun h => ?_, hsecond, ?_,
    fun domain style => ?_⟩
  · refine houtcome'.trans (Eq.trans ?_ houtcome.symm)
    cases h : isPassable writes data with
    | true =>
      rw [(Ingest.report_run hs hdata source).2, (Ingest.report_run hfrozen hdata source).2, hfirst,
        definitions_reached h, reports_afterAll hs hdata]
    | false => rfl
  · rw [h] at houtcome
    exact houtcome
  · rw [hsecond]
    exact Store.retrieve_append_of_subset ev node hagain
  · rw [hsecond]
    exact Store.lookup_append_of_subset ev node hagain domain style

/-- A table that defines one key twice, with the second text in place of the first, and with an
alias for the key and one for a key that has no rule. -/
def overwritingTable : Value :=
  .map [
    (.text "rules", .list [
      .map [(.text "key", .text "a"), (.text "query", .text "self::a"),
        (.text "mappings", .map [(.text "default", .map [(.text "default", .text "[n] .")])])],
      .map [(.text "key", .text "a"), (.text "query", .text "self::b"),
        (.text "mappings", .map [(.text "default", .map [(.text "default", .text "[t] x")])])]]),
    (.text "aliases", .list [
      .map [(.text "key", .text "a"), (.text "query", .text "self::c")],
      .map [(.text "key", .text "b"), (.text "query", .text "self::c")]])]

/-- A node that the alias fits. -/
def aliasedNode : ListedNode := { address := [0], tag := some "c", form := "FakeNode(c)" }

/-- The pure evaluator of listed nodes, as one that may fail and never does. -/
def listedEvaluator : Evaluator (Except Empty) ListedNode := ListedNode.evaluator.lift

theorem run_twice_overwritingTable :
    let first := Ingest.run {} overwritingTable ""
    let second := Ingest.run first.store overwritingTable ""
    (∃ report, first.outcome = .ok report ∧ second.outcome = .ok report)
      ∧ second.store.entries = first.store.entries ++ first.store.entries
      ∧ second.store.retrieve listedEvaluator (some aliasedNode)
        = .ok (some ((Atom.new "a" "").add defaultName defaultName
            ⟨[{ kind := .text, content := "x" }]⟩)) := by
  intro first second
  have hentries : first.store.entries
      = takenEntries {} (reached Value.isWritable overwritingTable) := by decide +kernel
  have hretrieve : first.store.retrieve listedEvaluator (some aliasedNode)
      = .ok (some ((Atom.new "a" "").add defaultName defaultName
          ⟨[{ kind := .text, content := "x" }]⟩)) := by decide +kernel
  obtain ⟨houtcome, hends, -, hstore, hagain, -⟩ := run_twice listedEvaluator (some aliasedNode)
    (s := {}) rfl (show overwritingTable.isMap = true from rfl) "" Value.isWritable
  obtain ⟨report, hreport⟩ := hends.mpr (by decide +kernel)
  refine ⟨⟨report, hreport, houtcome.trans hreport⟩, ?_, hagain.trans hretrieve⟩
  rw [hstore, ← hentries]

/-- **Not every table gets a second report.**  The key of the first rule stops either ingest. -/
theorem not_run_twice_reported :
    let first := Ingest.run {} unwritableTable ""
    let second := Ingest.run first.store unwritableTable ""
    first.fault = some .unwritable ∧ second.fault = some .unwritable
      ∧ ¬∃ report, second.outcome = .ok report := by
  intro first second
  have hfault : second.fault = some .unwritable := by decide +kernel
  exact ⟨by decide +kernel, hfault, Ingest.not_exists_report hfault⟩

end MathSpeech.Table
