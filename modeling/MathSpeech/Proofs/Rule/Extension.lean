import MathSpeech.Proofs.Rule.Canonical

/-!
# Proofs/Rule/Extension — a component stays legible whatever is added to it

A component that was read from a text of its own, and not from among others in an action, may hold
semicolons and open strings in its content.  It is legible all the same, and this is all that its
round trip needs.  Reading a further block keeps a component legible: every attribute the block adds
before its first fault is legible, and the names that were there stay (`Legible.addAttributes`).
Hence a component is read back from its written form after any number of blocks
(`parse_print_addBlocks`).
-/

namespace MathSpeech.Rule.Component

variable {t : Text} {c : Component}

/-- **Adding blocks** one after the other.  A block with a fault adds what stands before the fault,
and the next one is read as if nothing had happened. -/
def addBlocks (c : Component) (blocks : List Text) : Component :=
  blocks.foldl (fun c block => (c.addAttributes block).1) c

/-- **One block keeps a component legible**, whether or not it has a fault. -/
theorem Legible.addAttributes (h : Legible c) (block : Text) :
    Legible (c.addAttributes block).1 where
  content := h.content
  attributes := Attributes.legible_of_mem_readBlock block h.attributes
  voiced hk := by
    -- a change of voice has a name before the block, and names stay
    have hnames : c.attributes.keys ≠ [] := fun he =>
      h.voiced hk (OrderedMap.keys_eq_nil_iff.mp he)
    intro he
    have hstay : c.attributes.keys <+: (c.addAttributes block).1.attributes.keys :=
      Attributes.keys_isPrefix_readBlock c.attributes block
    rw [OrderedMap.keys_eq_nil_iff.mpr he] at hstay
    exact hnames (List.prefix_nil.mp hstay)

/-- **Any number of blocks keeps a component legible.** -/
theorem Legible.addBlocks (h : Legible c) (blocks : List Text) : Legible (c.addBlocks blocks) := by
  induction blocks generalizing c with
  | nil => exact h
  | cons block blocks ih => exact ih (h.addAttributes block)

/-- **The round trip of an extended component.**  A component that is read from any text, and to
which any blocks are added, with or without faults, is read back from its written form: the same
kind and content, and the same attributes in the same order. -/
theorem parse_print_addBlocks (t : Text) (c : Component) (blocks : List Text)
    (h : parse t = .ok c) : parse (c.addBlocks blocks).print = .ok (c.addBlocks blocks) :=
  ((legible_of_parse h).addBlocks blocks).parse_print

/-- A component with a semicolon and an open string in its content. -/
def openText : Text := "[n] it\"s; x (a:1)"

/-- What `openText` says. -/
def openComponent : Component where
  kind := .node
  content := "it\"s; x"
  attributes := .ofList [("a".toList, "1".toList)]

/-- A block with a nameless attribute, one without brackets, and one that says a name anew. -/
def furtherBlocks : List Text := ["(b:2, :3, d:4)", "c:5", "(a:\"6,7\")"]

theorem parse_print_addBlocks_openComponent :
    parse openText = .ok openComponent
      ∧ (openComponent.addAttributes "(b:2, :3, d:4)").2 = some (.namelessAttribute " :3")
      ∧ (openComponent.addBlocks furtherBlocks).print = "[n] it\"s; x (a:\"6,7\", b:2)".toList
      ∧ parse (openComponent.addBlocks furtherBlocks).print
          = .ok (openComponent.addBlocks furtherBlocks) := by
  have h : parse openText = .ok openComponent := by decide +kernel
  exact ⟨h, by decide +kernel, by decide +kernel,
    parse_print_addBlocks openText openComponent furtherBlocks h⟩

end MathSpeech.Rule.Component
