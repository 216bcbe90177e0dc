import MathSpeech.Proofs.Log.Lines
import MathSpeech.Table.Ingest

/-!
# Proofs/Table/LogContext — the log knows the table while it is taken in

An ingest gathers its notices, and they are written when it is over.  That is the same as writing
each at once (`ingest_eq_live`): no step of an ingest takes a notice back, so what a step tells is
what its notices have in addition to those before it, wherever the ingest stops.  So every record of
an ingest is written in the context of the table, and as no notice has a field for the table itself,
the record carries the name of the table.  Afterwards there is no context
(`ingest_scopes_context`).
-/

namespace MathSpeech.Table

open Log (Line)

/-! ## An ingest that writes as it goes -/

/-- **An ingest that writes as it goes**: how far it is, and the log as it stands. -/
structure Live where
  run : Ingest
  log : Log

namespace Live

/-- The ingest goes on to `run`, and what that tells in addition is written at once. -/
def next (live : Live) (run : Ingest) : Live where
  run := run
  log := live.log.noticeAll (run.notices.drop live.run.notices.length)

/-- The entries of a section, one after the other. -/
def entries (step : Ingest → Nat → Value → Ingest) (data : Value) (name : Text) (live : Live) :
    Live :=
  let (run, items) := live.run.entries data name
  items.zipIdx.foldl (fun live (v, i) => live.next (step live.run i v)) (live.next run)

/-- The rules of a table. -/
def rules (writes : Value → Bool) (data : Value) (live : Live) : Live :=
  live.entries (Ingest.rule writes) data "rules"

/-- The aliases of a table; none is looked at once the ingest stopped. -/
def aliases (writes : Value → Bool) (data : Value) (live : Live) : Live :=
  if live.run.fault.isSome then live else live.entries (Ingest.extra writes) data "aliases"

/-- **A table**, up to its end or to the fault that stops the ingest. -/
def table (writes : Value → Bool) (data : Value) (live : Live) : Live :=
  if data.isMap then
    let live := (live.rules writes data).aliases writes data
    live.next live.run.finish
  else live.next { live.run with fault := some .notMapping }

end Live

/-! ## No notice is taken back -/

namespace Ingest

theorem notices_isPrefix_entries (run : Ingest) (data : Value) (name : Text) :
    run.notices <+: (run.entries data name).1.notices := by
  unfold entries
  cases (data.get? name).getD .null with
  | list items => exact List.prefix_rfl
  | _ =>
    dsimp only
    split
    · exact List.prefix_append ..
    · exact List.prefix_rfl

theorem notices_isPrefix_skipEntry (writes : Value → Bool) (run : Ingest) (part kind : Text)
    (index : Nat) (entry : Value) (issues : List Issue) :
    run.notices <+: (run.skipEntry writes part kind index entry issues).notices := by
  rw [skipEntry]
  split
  · exact List.prefix_append ..
  · exact List.prefix_rfl

theorem notices_isPrefix_rule (writes : Value → Bool) (run : Ingest) (index : Nat)
    (entry : Value) : run.notices <+: (run.rule writes index entry).notices := by
  rw [rule]
  split
  · exact List.prefix_rfl
  · cases RuleDefinition.read entry with
    | error issues => exact notices_isPrefix_skipEntry ..
    | ok d =>
      dsimp only
      rw [takeRule]
      cases run.store.defineMappings d.key d.category d.mappings d.query d.constraints with
      | error refusal => exact List.prefix_rfl
      | ok change => exact List.prefix_append ..

theorem notices_isPrefix_extra (writes : Value → Bool) (run : Ingest) (index : Nat)
    (entry : Value) : run.notices <+: (run.extra writes index entry).notices := by
  rw [extra]
  split
  · exact List.prefix_rfl
  · cases AliasDefinition.read entry with
    | error issues => exact notices_isPrefix_skipEntry ..
    | ok d =>
      dsimp only
      rw [takeAlias]
      cases run.store.defineAlias d.key d.query d.constraints with
      | error refusal => exact List.prefix_rfl
      | ok change => exact List.prefix_append ..

theorem notices_isPrefix_finish (run : Ingest) : run.notices <+: run.finish.notices := by
  rw [finish]
  split
  · exact List.prefix_rfl
  · exact List.prefix_append ..

end Ingest

/-! ## Writing at once is writing in the end -/

namespace Live

variable {named : Log} {live : Live} {writes : Value → Bool}

/-- **All is written** that was told so far, to the log as it was named for the table. -/
def UpToDate (named : Log) (live : Live) : Prop := live.log = named.noticeAll live.run.notices

theorem UpToDate.next (h : live.UpToDate named) {run : Ingest}
    (hnotices : live.run.notices <+: run.notices) : (live.next run).UpToDate named := by
  obtain ⟨told, htold⟩ := hnotices
  have hlog : (live.next run).log = live.log.noticeAll told := by
    rw [Live.next, ← htold, List.drop_left]
  have hrun : (live.next run).run.notices = live.run.notices ++ told := htold.symm
  rw [UpToDate, hlog, hrun, h, Log.noticeAll_append]

/-- **Each entry of a section is written up to date**, and the ingest goes on as if nothing were
written. -/
theorem UpToDate.entries (h : live.UpToDate named) {step : Ingest → Nat → Value → Ingest}
    (hstep : ∀ run index entry, run.notices <+: (step run index entry).notices) (data : Value)
    (name : Text) : (live.entries step data name).UpToDate named := by
  have hall : ∀ (items : List (Value × Nat)) (live : Live), live.UpToDate named →
      (items.foldl (fun live (v, i) => live.next (step live.run i v)) live).UpToDate named := by
    intro items
    induction items with
    | nil => exact fun live h => h
    | cons item rest ih => exact fun live h => ih _ (h.next (hstep live.run item.2 item.1))
  exact hall _ _ (h.next (live.run.notices_isPrefix_entries data name))

theorem run_entries (live : Live) (step : Ingest → Nat → Value → Ingest) (data : Value)
    (name : Text) : (live.entries step data name).run
      = (live.run.entries data name).2.zipIdx.foldl (fun run (v, i) => step run i v)
          (live.run.entries data name).1 :=
  (List.foldl_hom Live.run fun _ _ => rfl).symm

theorem run_aliases (live : Live) (data : Value) :
    (live.aliases writes data).run = live.run.aliases writes data := by
  rw [aliases, Ingest.aliases, apply_ite Live.run, run_entries]

theorem UpToDate.aliases (h : live.UpToDate named) (data : Value) :
    (live.aliases writes data).UpToDate named := by
  rw [Live.aliases]
  split
  · exact h
  · exact h.entries (Ingest.notices_isPrefix_extra writes) data "aliases"

theorem UpToDate.table (h : live.UpToDate named) (data : Value) :
    (live.table writes data).UpToDate named := by
  rw [Live.table]
  split
  · have hrules : (live.rules writes data).UpToDate named :=
      h.entries (Ingest.notices_isPrefix_rule writes) data "rules"
    exact (hrules.aliases data).next (Ingest.notices_isPrefix_finish _)
  · exact h.next List.prefix_rfl

/-- **A table is taken in as if nothing were written.** -/
theorem run_table (live : Live) (data : Value) :
    (live.table writes data).run
      = if data.isMap then ((live.run.rules writes data).aliases writes data).finish
        else { live.run with fault := some .notMapping } := by
  have hrules : (live.rules writes data).run = live.run.rules writes data :=
    live.run_entries (Ingest.rule writes) data "rules"
  rw [table, apply_ite Live.run]
  dsimp only [next]
  rw [run_aliases, hrules]

end Live

/-- **The beginning of an ingest**: nothing is done, and the context of the log names the table. -/
def Live.start (store : Store) (log : Log) (source : Text) : Live where
  run := { store, report := { sources := if source.isEmpty then [] else [source] } }
  log := log.setContext (.singleton "table" (.text (sourceName source)))

/-- The ingest of a table that writes as it goes, at its end or at the fault that stops it. -/
def live (store : Store) (log : Log) (data : Value) (source : Text) (writes : Value → Bool) :
    Live :=
  (Live.start store log source).table writes data

section

variable (store : Store) (log : Log) (data : Value) (source : Text) (writes : Value → Bool)

theorem upToDate_live :
    (live store log data source writes).UpToDate (Live.start store log source).log :=
  have hstart : (Live.start store log source).UpToDate (Live.start store log source).log := rfl
  hstart.table data

theorem run_live :
    (live store log data source writes).run = Ingest.run store data source writes :=
  (Live.start store log source).run_table data

/-- **Writing each notice at once is writing all in the end**, wherever the ingest stops. -/
theorem ingest_eq_live : ingest store log data source writes
    = ((live store log data source writes).run.outcome,
      (live store log data source writes).run.store,
      (live store log data source writes).log.clearContext) := by
  rw [upToDate_live, run_live]
  rfl

end

/-! ## The context of the table -/

/-- No notice has a field for the table. -/
theorem get?_table_of_notice {n : Notice} {logger label message : Text} {fields : Fields}
    (h : n.line.body = .structured logger label message fields) : fields.get? "table" = none := by
  cases n <;> cases h <;> rfl

/-- **The log is in the context of the table while it is taken in, and in none afterwards.**  The
ingest is one that writes each notice at once and empties the context wherever it stops: at its end,
at a refusal, at an entry that cannot be named, or at a table that is no mapping.  Up to there the
context is what it was, but for the name of the table.  What is added to the log are the notices
whose level passes, each in that context, and each record carries the name of the table.  Afterwards
the context is empty, and lines are taken as they are written. -/
theorem ingest_scopes_context (store : Store) (log : Log) (data : Value) (source : Text)
    (writes : Value → Bool) :
    let name : Text := if source.isEmpty then "<inline>" else source
    let context := log.context.insert "table" (.text name)
    let told := (Ingest.run store data source writes).notices.map Notice.line
    let live := live store log data source writes
    let after := (ingest store log data source writes).2.2
    ingest store log data source writes
        = (live.run.outcome, live.run.store, live.log.clearContext)
      ∧ live.log.context = context
      ∧ after.lines = log.lines
          ++ (told.filter fun line => Log.passes log.threshold line.level).map (Line.under context)
      ∧ (∀ line ∈ told, (line.under context).Carries "table" (.text name))
      ∧ after.context = .empty
      ∧ ∀ later : List Line, (later.foldl Log.write after).lines
          = after.lines ++ later.filter fun line => Log.passes log.threshold line.level := by
  intro name context told live after
  have hlog : live.log = { log with
      context
      lines := log.lines
        ++ (told.filter fun line => Log.passes log.threshold line.level).map
            (Line.under context) } := by
    simp only [live]
    rw [upToDate_live, run_live, Log.noticeAll_eq]
    rfl
  have hafter : after = live.log.clearContext :=
    congrArg (fun result => result.2.2) (ingest_eq_live store log data source writes)
  have hcontext : after.context = .empty := by rw [hafter, Log.clearContext]
  have hthreshold : after.threshold = log.threshold := by rw [hafter, hlog, Log.clearContext]
  refine ⟨ingest_eq_live store log data source writes, by rw [hlog],
    by rw [hafter, hlog, Log.clearContext], fun line hline => ?_, hcontext, fun later => ?_⟩
  · obtain ⟨n, -, rfl⟩ := List.mem_map.mp hline
    exact Line.carries_under (by decide) (OrderedMap.get?_insert_self ..)
      fun logger label message fields hbody => get?_table_of_notice hbody
  · rw [Log.foldl_write, Log.taken_of_no_context hcontext, hthreshold]

/-- A table whose second entry is well formed. -/
def haltingTable : Value :=
  .map [(.text "rules", .list [.null,
    .map [(.text "key", .text "a"), (.text "query", .text "self::a"),
      (.text "mappings", .map [(.text "default", .map [(.text "default", .text "[n] .")])])]])]

/-- A frozen store refuses the second entry.  The first was told in the context of the table, and
its own key stands in place of the one that was there. -/
example :
    let log : Log := { context := .ofList [("table".toList, .text "old"), ("key".toList, .int 1)] }
    let result := ingest ({} : Store).freeze log haltingTable "t.yaml"
    result.1.toOption.isNone ∧ result.2.2.context.isEmpty
      ∧ result.2.2.texts = ["WARNING Rule definition skipped [table=t.yaml, key=#0, kind=table, "
          ++ "reason=1 validation error for RuleDefinition]"] := by decide +kernel

end MathSpeech.Table
