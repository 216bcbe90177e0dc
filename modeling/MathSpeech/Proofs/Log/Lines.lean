import MathSpeech.Notice
import MathSpeech.Proofs.OrderedMap.Writing

/-!
# Proofs/Log/Lines — what a log takes of the lines that are written

A log takes the lines whose level passes its threshold, each **under its context**: a structured
line has the fields of the context before its own.  Nothing else about the log changes
(`foldl_write`).  So a field of the context is carried by every record, unless the record has a
field of that name itself (`Line.carries_under`).
-/

namespace MathSpeech.Log

variable {logger label message name : Text} {fields context : Fields} {v : Value}

/-! ## Lines under a context -/

/-- **A line under a context**: a structured one has the fields of the context before its own. -/
def Line.under (context : Fields) (line : Line) : Line :=
  { line with body := match line.body with
      | .plain text => .plain text
      | .structured logger label message fields =>
        .structured logger label message (context.update fields) }

theorem Line.under_empty (line : Line) : line.under .empty = line := by
  obtain ⟨level, body⟩ := line
  cases body with
  | plain text => rfl
  | structured logger label message fields =>
    exact congrArg (fun fields => (⟨level, .structured logger label message fields⟩ : Line))
      (OrderedMap.ofList_entries fields)

/-- **The lines that a log takes** of those that are written. -/
def taken (log : Log) (lines : List Line) : List Line :=
  (lines.filter fun line => passes log.threshold line.level).map (Line.under log.context)

theorem write_eq (log : Log) (line : Line) :
    log.write line = { log with lines := log.lines ++ log.taken [line] } := by
  rw [write, taken, List.filter_singleton]
  cases passes log.threshold line.level with
  | true => rfl
  | false => exact (congrArg (fun lines => { log with lines }) (List.append_nil log.lines)).symm

/-- **Writing lines** adds those that are taken, and changes nothing else. -/
theorem foldl_write (log : Log) (lines : List Line) :
    lines.foldl write log = { log with lines := log.lines ++ log.taken lines } := by
  induction lines generalizing log with
  | nil => rw [taken, List.filter_nil, List.map_nil, List.append_nil, List.foldl_nil]
  | cons line rest ih =>
    have htaken : log.taken (line :: rest) = log.taken [line] ++ log.taken rest := by
      rw [taken, ← List.singleton_append, List.filter_append, List.map_append, taken, taken]
    rw [List.foldl_cons, ih, write_eq, htaken, ← List.append_assoc]
    rfl

theorem noticeAll_eq (log : Log) (ns : List Notice) :
    log.noticeAll ns = { log with lines := log.lines ++ log.taken (ns.map Notice.line) } := by
  rw [← foldl_write, List.foldl_map]
  rfl

theorem noticeAll_append (log : Log) (ns ms : List Notice) :
    log.noticeAll (ns ++ ms) = (log.noticeAll ns).noticeAll ms := List.foldl_append

/-- A log without context takes lines as they are. -/
theorem taken_of_no_context {log : Log} (h : log.context = .empty) (lines : List Line) :
    log.taken lines = lines.filter fun line => passes log.threshold line.level := by
  have hself : Line.under .empty = id := funext Line.under_empty
  rw [taken, h, hself, List.map_id]

/-! ## Records that carry a field -/

/-- **A line carries a field** if it is plain, or its fields and its record have it. -/
def Line.Carries (line : Line) (name : Text) (v : Value) : Prop :=
  ∀ logger label message fields, line.body = .structured logger label message fields →
    fields.get? name = some v ∧ (record logger label message fields).get? name = some v

/-- A record has the fields of its line; only the time is not told. -/
theorem get?_record (hname : name ≠ "timestamp".toList) (h : fields.get? name = some v) :
    (record logger label message fields).get? name = some v := by
  rw [record, OrderedMap.get?_insert, if_neg hname.symm, OrderedMap.get?_update, h, Option.some_or]

/-- **A field of the context is carried** by a line that has no field of that name itself. -/
theorem Line.carries_under {line : Line} (hname : name ≠ "timestamp".toList)
    (hcontext : context.get? name = some v)
    (hline : ∀ logger label message fields, line.body = .structured logger label message fields →
      fields.get? name = none) : (line.under context).Carries name v := by
  intro logger label message fields hbody
  obtain ⟨level, body⟩ := line
  cases body with
  | plain text => cases hbody
  | structured logger' label' message' own =>
    cases hbody
    have hfields : (context.update own).get? name = some v := by
      rw [OrderedMap.get?_update, hline _ _ _ own rfl, Option.none_or, hcontext]
    exact ⟨hfields, get?_record hname hfields⟩

end MathSpeech.Log
