import MathSpeech.Proofs.Log.Lines

/-!
# Proofs/Log/Formats — both forms of a line show the same fields

The context of a log is written by its callers, and what was assigned in it since it was last
emptied tells all about it (`context_performAll`).  A line of a call shows these assignments and
then those of the call: each name once, where it was first assigned, with the value assigned last.
A JSON record begins with a head of four members and goes on with just these fields, as long as none
of them has the name of a member of the head (`entries_record`); it makes no difference whether the
context and the call are written into the record one after the other or into each other first.
-/

namespace MathSpeech.Log

open OrderedMap (newKeys latest?)

variable {log log' : Log} {logger label message : Text} {fields : Fields}

/-! ## The context after a history -/

/-- **A call that changes the context.** -/
inductive ContextCall
  | set (fields : Fields)
  | clear

/-- The log after a call; one that sets a field with a reserved name fails and changes nothing. -/
def perform (log : Log) : ContextCall → Log
  | .set fields => (log.setContext? fields).getD log
  | .clear => log.clearContext

/-- The log after calls. -/
def performAll (log : Log) (calls : List ContextCall) : Log := calls.foldl perform log

/-- **What is assigned** in the context after a call, in order, since it was last emptied. -/
def ContextCall.assign (assigned : List (Text × Value)) : ContextCall → List (Text × Value)
  | .set fields => if fields.contains "self" then assigned else assigned ++ fields.entries
  | .clear => []

/-- What is assigned in the context after calls. -/
def assignments (assigned : List (Text × Value)) (calls : List ContextCall) :
    List (Text × Value) := calls.foldl ContextCall.assign assigned

/-- A call makes the context of its assignments. -/
theorem context_perform {assigned : List (Text × Value)} (h : log.context = .ofList assigned)
    (call : ContextCall) : (log.perform call).context = .ofList (call.assign assigned) := by
  cases call with
  | clear => rfl
  | set fields =>
    rw [perform, setContext?, ContextCall.assign]
    split
    · exact h
    · have hset : (log.setContext fields).context = log.context.update fields := rfl
      rw [Option.getD_some, hset, h, OrderedMap.update, ← OrderedMap.ofList_append]

/-- **The context after a history** is made of what was assigned since it was last emptied. -/
theorem context_performAll (log : Log) (calls : List ContextCall) :
    (log.performAll calls).context = .ofList (assignments log.context.entries calls) := by
  have hall : ∀ (log : Log) (assigned : List (Text × Value)),
      log.context = .ofList assigned →
        (log.performAll calls).context = .ofList (assignments assigned calls) := by
    induction calls with
    | nil => exact fun log assigned h => h
    | cons call rest ih => exact fun log assigned h => ih _ _ (context_perform h call)
  exact hall log _ (OrderedMap.ofList_entries log.context).symm

/-- The fields of a line: the assignments of the context, then those of the call. -/
theorem update_context_performAll (log : Log) (calls : List ContextCall) (fields : Fields) :
    (log.performAll calls).context.update fields
      = .ofList (assignments log.context.entries calls ++ fields.entries) := by
  rw [context_performAll, OrderedMap.ofList_append, OrderedMap.update]

/-! ## The two forms -/

/-- **The fields in brackets**, as the readable form lists them. -/
def listed (entries : List (Text × Value)) : Text :=
  if entries.isEmpty then []
  else " [" ++ Text.joined ", " (entries.map fun (name, v) => name ++ '=' :: v.written) ++ "]"

theorem readable_eq (message : Text) (fields : Fields) :
    readable message fields = message ++ listed fields.entries := by
  rw [readable, listed, OrderedMap.isEmpty]
  split
  · exact (List.append_nil message).symm
  · simp only [List.append_assoc]

/-- The names of the members of a head. -/
def headNames : List Text := ["timestamp", "level", "logger", "message"]

/-- Fields of other names leave the time as it is. -/
theorem record_eq (h : ∀ name ∈ fields.keys, name ∉ headNames) :
    record logger label message fields = (head logger label message).update fields := by
  refine OrderedMap.insert_of_get? ?_
  have hnone : fields.get? "timestamp" = none := by
    refine Option.eq_none_iff_forall_ne_some.mpr fun v hv => ?_
    exact h "timestamp" (OrderedMap.mem_keys.mpr ⟨v, hv⟩) List.mem_cons_self
  rw [OrderedMap.get?_update, hnone]
  rfl

/-- **A record is its head and then its fields**, if no field has the name of a member of the
head. -/
theorem entries_record (h : ∀ name ∈ fields.keys, name ∉ headNames) :
    (record logger label message fields).entries
      = [("timestamp".toList, .text "T"), ("level".toList, .text label),
          ("logger".toList, .text logger), ("message".toList, .text message)]
        ++ fields.entries := by
  rw [record_eq h]
  exact OrderedMap.entries_update_of_disjoint h

/-- **A record is written in turn**: its head, the context, and the fields of the call. -/
theorem record_update {context : Fields}
    (h : ∀ name ∈ (context.update fields).keys, name ∉ headNames) :
    record logger label message (context.update fields)
      = ((head logger label message).update context).update fields := by
  rw [record_eq h, OrderedMap.update_update]

/-- **A call fails** if a field has a reserved name or a value that cannot be written, and only
then. -/
theorem call?_eq_some_iff {c : Call} : log.call? logger c message fields = some log'
    ↔ fields.keys.any c.reserved.contains = false ∧ areWritable (log.context.update fields) = true
      ∧ log.write { level := c.level, body := .structured logger c.label message fields }
        = log' := by
  rw [call?]
  cases fields.keys.any c.reserved.contains <;> cases areWritable (log.context.update fields) <;>
    simp

/-- A call that does not fail writes one line, if its level passes. -/
theorem lines_of_call? {c : Call} (h : log.call? logger c message fields = some log') :
    log'.lines = log.lines ++ if passes log.threshold c.level then
      [{ level := c.level
         body := .structured logger c.label message (log.context.update fields) }] else [] := by
  obtain ⟨-, -, rfl⟩ := call?_eq_some_iff.mp h
  rw [write_eq, taken, List.filter_singleton]
  cases passes log.threshold c.level <;> rfl

/-- A name that cannot be a field of a record cannot be one of a call. -/
theorem Call.structured_subset_reserved (c : Call) :
    (["self", "level", "message"] : List Text) ⊆ c.reserved := by
  cases c <;> rw [reserved] <;> decide

/-- A call that does not fail makes the record of its line. -/
theorem structured?_of_call? {c : Call} (h : log.call? logger c message fields = some log') :
    log.structured? logger c.label message fields
      = some (record logger c.label message (log.context.update fields)) := by
  obtain ⟨hfree, -⟩ := call?_eq_some_iff.mp h
  refine if_neg fun hany => Bool.eq_false_iff.mp hfree ?_
  obtain ⟨name, hname, hreserved⟩ := List.any_eq_true.mp hany
  rw [List.contains_iff_mem] at hreserved
  exact List.any_eq_true.mpr
    ⟨name, hname, List.contains_iff_mem.mpr (c.structured_subset_reserved hreserved)⟩

/-- **Both forms of a line show the same fields.**  After any history of the context, a call that
does not fail writes one line, if its level passes.  Its fields are what was assigned in the context
since it was last emptied and then by the call: each name once, where it was first assigned, with
the value assigned last.  The readable form lists them in brackets, and the JSON record, which is
written in turn from the head, the context and the call, has them in the same order behind the four
members of the head. -/
theorem formats_show_same_fields {log log' : Log} {calls : List ContextCall}
    {logger message : Text} {c : Call} {fields : Fields}
    (hcall : (log.performAll calls).call? logger c message fields = some log')
    (hnames : ∀ name ∈ (log.performAll calls).context.keys ++ fields.keys, name ∉ headNames) :
    let before := log.performAll calls
    let assigned := assignments log.context.entries calls ++ fields.entries
    let shown : Fields := .ofList assigned
    let line : Line := { level := c.level, body := .structured logger c.label message shown }
    let members := [("timestamp".toList, .text "T"), ("level".toList, .text c.label),
      ("logger".toList, .text logger), ("message".toList, .text message)] ++ shown.entries
    log'.lines = before.lines ++ (if passes before.threshold c.level then [line] else [])
      ∧ line.text .readable = c.level.name ++ ' ' :: (message ++ listed shown.entries)
      ∧ line.text .json = c.level.name ++ ' ' ::
          Value.json (.map (members.map fun (name, v) => (.text name, v)))
      ∧ (∃ r, before.structured? logger c.label message fields = some r ∧ r.entries = members
        ∧ r = ((head logger c.label message).update before.context).update fields)
      ∧ shown.keys.Nodup
      ∧ shown.keys = newKeys [] (assigned.map Prod.fst)
      ∧ ∀ name, shown.get? name = latest? name assigned := by
  intro before assigned shown line members
  have hshown : before.context.update fields = shown :=
    update_context_performAll log calls fields
  have hkeys : ∀ name ∈ shown.keys, name ∉ headNames := fun name hname => by
    rw [← hshown, OrderedMap.mem_keys_update, ← List.mem_append] at hname
    exact hnames name hname
  have hmembers : (record logger c.label message shown).entries = members := entries_record hkeys
  refine ⟨?_, ?_, ?_, ⟨_, structured?_of_call? hcall, ?_, record_update (hshown ▸ hkeys)⟩,
    shown.nodup, OrderedMap.keys_ofList assigned, OrderedMap.get?_ofList assigned⟩
  · rw [lines_of_call? hcall, hshown]
  · rw [← readable_eq]
    rfl
  · rw [← hmembers]
    rfl
  · rw [hshown, hmembers]

/-- A history that sets a field again, empties the context and fails to set a reserved field. -/
def crowdedHistory : List ContextCall :=
  [.set (.ofList [("user".toList, .int 1), ("table".toList, .text "a")]), .clear,
    .set (.ofList [("table".toList, .text "b"), ("rule".toList, .null)]),
    .set (.ofList [("self".toList, .int 0)]), .set (.ofList [("table".toList, .text "c")])]

theorem formats_show_same_fields_crowdedHistory :
    let fields : Fields := .ofList [("rule".toList, .text "msup"), ("left".toList, .int 2)]
    let before := ({} : Log).performAll crowdedHistory
    (∀ name ∈ before.context.keys ++ fields.keys, name ∉ headNames)
      ∧ ∃ log' line, before.call? "speech" .event "done" fields = some log'
        ∧ log'.lines = [line]
        ∧ line.text .readable = "INFO done [table=c, rule=msup, left=2]"
        ∧ line.text .json = "INFO \x7b\"timestamp\": \"T\", \"level\": \"EVENT\", "
          ++ "\"logger\": \"speech\", \"message\": \"done\", "
          ++ "\"table\": \"c\", \"rule\": \"msup\", \"left\": 2\x7d" := by
  intro fields before
  have hnames : ∀ name ∈ before.context.keys ++ fields.keys, name ∉ headNames := by decide
  have hcall : before.call? "speech" .event "done" fields = some (before.write
      { level := .info, body := .structured "speech" "EVENT" "done" fields }) :=
    call?_eq_some_iff.mpr ⟨by decide, by decide +kernel, rfl⟩
  obtain ⟨hlines, hreadable, hjson, -⟩ := formats_show_same_fields hcall hnames
  exact ⟨hnames, _, _, hcall, hlines, hreadable.trans (by decide +kernel),
    hjson.trans (by decide +kernel)⟩

end MathSpeech.Log
