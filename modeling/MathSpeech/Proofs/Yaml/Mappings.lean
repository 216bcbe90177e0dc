import MathSpeech.Proofs.Store.Selected
import MathSpeech.Proofs.Value.Keys
import MathSpeech.Yaml.Construction

/-!
# Proofs/Yaml/Mappings — the mappings of a document

The entries of a mapping are written one by one, those that it merges first, and a key that comes
again is overwritten in its place.  So a document has **single keys** throughout
(`Yaml.hasSingleKeys_of_read`), however often its text repeats one.
-/

namespace MathSpeech.Yaml

open Value (HasSingleKeys)

variable {α : Type} {P : α → Prop}

theorem yields_error (fault : Fault) : Yields P (.error fault : Except Fault α) :=
  ⟨.error fault, rfl⟩

theorem of_yields {x : Except Fault α} {a : α} (h : Yields P x) (hx : x = .ok a) : P a := by
  obtain ⟨_ | y, rfl⟩ := h
  · cases hx
  · cases hx
    exact y.2

/-- A scalar is no mapping. -/
theorem yields_scalarValue (tag : Tag) (t : Text) : Yields HasSingleKeys (scalarValue tag t) := by
  have hok {v : Value} (hv : v.isMap = false) :
      Yields HasSingleKeys (.ok v : Except Fault Value) := yields_pure (.other hv)
  unfold scalarValue
  split
  case h_2 => cases truth? t <;> first | exact yields_error _ | exact hok rfl
  case h_3 => cases integer? t <;> first | exact yields_error _ | exact hok rfl
  case h_4 => cases float? t <;> first | exact yields_error _ | exact hok rfl
  all_goals first | exact yields_error _ | exact hok rfl

/-- **Entries are written** into what was written before, key by key. -/
theorem yields_entriesOf {fuel : ℕ} (hvalue : ∀ n, Yields HasSingleKeys (valueOf fuel n))
    (entries : Entries) {written : List (Value × Value)} (h : HasSingleKeys (.map written)) :
    Yields (fun es => HasSingleKeys (.map es)) (entriesOf fuel written entries) := by
  induction entries generalizing written with
  | nil =>
    rw [entriesOf]
    exact yields_pure h
  | cons e rest ih =>
    obtain ⟨k, v⟩ := e
    rw [entriesOf]
    refine yields_bind fun key => (hvalue v).bind fun value hv => ?_
    have hput : Yields (fun es => HasSingleKeys (.map es)) (putEntry key value written) := by
      rw [putEntry]
      split
      · exact yields_pure (h.putKey hv key)
      · exact yields_error _
    exact hput.bind fun es hes => ih hes

/-- **The value of a node**, at whatever depth. -/
theorem yields_valueOf (fuel : ℕ) (n : Node) : Yields HasSingleKeys (valueOf fuel n) := by
  induction fuel generalizing n with
  | zero =>
    rw [valueOf]
    exact yields_error _
  | succ fuel ih =>
    unfold valueOf
    split
    · exact yields_scalarValue _ _
    · rename_i items
      cases valuesOf fuel items with
      | error fault => exact yields_error fault
      | ok values => exact yields_pure (.other rfl)
    · refine yields_bind fun merged => (yields_entriesOf ih _ .nil).bind fun es hes => ?_
      exact yields_pure hes
    · split <;> first | exact yields_error _ | exact yields_scalarValue _ _

/-- **A document has single keys.** -/
theorem hasSingleKeys_of_read {t : Text} {v : Value} (h : read t = .ok v) : v.HasSingleKeys := by
  refine of_yields ?_ h
  rw [read]
  refine yields_bind fun tokens => ?_
  split
  · exact yields_error _
  · exact yields_pure (.other rfl)
  · exact yields_valueOf _ _

end MathSpeech.Yaml
