import MathSpeech.OrderedMap
import MathSpeech.Text

/-!
# Mappings — something for every domain and style

Rules are spoken differently in different **domains** and, within a domain, in different **styles**.
`Mappings α` holds one `α` for each pair of a domain and a style, domains in order and the styles of
a domain in order.
-/

namespace MathSpeech

/-- The name of the domain and of the style that stand in for all others. -/
def defaultName : Text := "default"

/-- **Mappings**: from domains to styles to `α`. -/
abbrev Mappings (α : Type) := OrderedMap Text (OrderedMap Text α)

namespace Mappings

variable {α : Type}

/-- The value of a domain and style. -/
def find? (m : Mappings α) (domain style : Text) : Option α :=
  (OrderedMap.get? m domain).bind fun styles => styles.get? style

/-- Writes the value of a domain and style. -/
def set (m : Mappings α) (domain style : Text) (a : α) : Mappings α :=
  m.adjust domain .empty fun styles => styles.insert style a

/-- **The triples** of domain, style and value, in order. -/
def triples (m : Mappings α) : List (Text × Text × α) :=
  m.entries.flatMap fun (domain, styles) => styles.entries.map fun (style, a) => (domain, style, a)

/-- Writes triples in order. -/
def setAll (m : Mappings α) (ts : List (Text × Text × α)) : Mappings α :=
  ts.foldl (fun m t => m.set t.1 t.2.1 t.2.2) m

/-- The domains, each with its styles. -/
def outline (m : Mappings α) : List (Text × List Text) :=
  m.entries.map fun (domain, styles) => (domain, styles.keys)

/-- **Reading after writing.** -/
theorem find?_set (m : Mappings α) (domain style : Text) (a : α) (d s : Text) :
    find? (set m domain style a) d s
      = if domain = d ∧ style = s then some a else find? m d s := by
  unfold find? set OrderedMap.adjust
  rw [OrderedMap.get?_insert]
  by_cases hd : domain = d
  · subst hd
    simp only [if_true, true_and, Option.bind_some, OrderedMap.get?_insert]
    by_cases hs : style = s
    · simp [hs]
    · simp only [if_neg hs]
      cases m.get? domain <;> simp
  · simp [hd]

end Mappings

end MathSpeech
