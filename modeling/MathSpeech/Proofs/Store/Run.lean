import MathSpeech.Proofs.Table.Reached

/-!
# Proofs/Store/Run — runs and their history

A **run** brings a new store through calls of every kind; a call may succeed, fail, be refused or
stop midway.  The **history** of a run is the record of what its calls registered.  Every call comes
down to definitions, so a relation between history and store holds at the end of every run if
entering a definition and freezing preserve it (`Store.run_induction`).
-/

namespace MathSpeech.Store

/-- **A new store**, in which nothing is defined. -/
def blank (kind : Kind) (debug : Bool) (defaultDomain defaultStyle : Text) : Store :=
  { kind, debug, defaultDomain, defaultStyle }

/-! ## Calls -/

/-- **A call** that may change a store.  What can be written may differ from one table to
another. -/
inductive Call
  | define (d : Definition)
  | mathml (key domain text : Text)
  | defaultMathml (key text : Text)
  | table (data : Value) (source : Text) (writes : Value → Bool := Value.isWritable)
  | freeze

namespace Call

/-- **The store after a call**, however the call ends. -/
def after (s : Store) : Call → Store
  | define d => (d.perform s).2
  | mathml key domain text => (Definition.settle s id (s.defineMathml key domain text)).2
  | defaultMathml key text => (Definition.settle s id (s.defineDefaultMathml key text)).2
  | table data source writes => (Table.Ingest.run s data source writes).store
  | freeze => s.freeze

/-- The definitions that a call makes. -/
def definitions : Call → List Definition
  | define d => [d]
  | mathml key domain text => [.rule key mathmlCategory domain text (elementQuery key) []]
  | defaultMathml key text =>
    [.rule key mathmlCategory (joinDomain defaultName defaultName) text (elementQuery key) []]
  | table data _ writes => Table.definitions (Table.reached writes data)
  | freeze => []

/-- **A call performs its definitions**, unless it freezes the store. -/
theorem after_cases (s : Store) (c : Call) :
    c.after s = s.afterAll c.definitions ∨ c.after s = s.freeze ∧ c.definitions = [] := by
  cases c with
  | table data source writes =>
    exact .inl (Table.Ingest.store_run_reached s data source writes)
  | freeze => exact .inr ⟨rfl, rfl⟩
  | _ => exact .inl rfl

end Call

/-! ## Runs -/

/-- **The store after a run.** -/
def run (s : Store) (calls : List Call) : Store := calls.foldl Call.after s

/-- **The history of a run**: the registrations of its calls, one after the other. -/
def history (s : Store) : List Call → List Registration
  | [] => []
  | c :: rest => s.record c.definitions ++ history (c.after s) rest

section Induction

variable (Inv : List Registration → Store → Prop)
  (henter : ∀ h s (d : Definition), Inv h s → d.inOrder s = true →
    Inv (h ++ [d.registration]) (d.enter s))
include henter

theorem record_induction {h : List Registration} {s : Store} (hs : Inv h s)
    (ds : List Definition) : Inv (h ++ s.record ds) (s.afterAll ds) := by
  induction ds generalizing h s with
  | nil => rwa [record, List.append_nil]
  | cons d rest ih =>
    rw [record, afterAll_cons]
    obtain ⟨hd, -, horder⟩ | hd := d.perform_cases s
    · rw [hd, if_pos rfl, List.append_cons]
      exact ih (henter h s d hs horder)
    · rw [hd, if_neg Bool.false_ne_true]
      exact ih hs

/-- **Induction along a run**: what holds of the new store and is preserved by entering a definition
and by freezing holds of every history and store of a run. -/
theorem run_induction (hfreeze : ∀ h s, Inv h s → Inv h s.freeze) {h : List Registration}
    {s : Store} (hs : Inv h s) (calls : List Call) : Inv (h ++ history s calls) (run s calls) := by
  induction calls generalizing h s with
  | nil => rwa [history, List.append_nil]
  | cons c rest ih =>
    have hstep : Inv (h ++ s.record c.definitions) (c.after s) := by
      obtain hc | ⟨hc, hds⟩ := c.after_cases s
      · rw [hc]
        exact record_induction Inv henter hs c.definitions
      · rw [hc, hds, record, List.append_nil]
        exact hfreeze h s hs
    rw [history, ← List.append_assoc]
    exact ih hstep

end Induction

end MathSpeech.Store
