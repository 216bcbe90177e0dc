import MathSpeech.Proofs.Table.Choice
import MathSpeech.Proofs.XPath.OwnValues
import MathSpeech.Proofs.XPath.Sameness

/-!
# Proofs/Table/Variants — rules that depend on attributes

The bundled table has a variant for each token element, which applies if there is a font variant
other than the normal one; and it has four rules for fences, which are told apart by the
separators.  Which of them is chosen follows from the attributes of the element alone
(`Table.attributes_decide_the_rule`).
-/

namespace MathSpeech.Table

open Rule (Precondition)
open Store (elementQuery)
open XPath (Document Address Tree Setting Expr)

/-! ## Font variants -/

/-- **A token element**: its name, and the keys of its rule and of the rule for font variants. -/
structure Token where
  name : Text
  plain : Text
  variant : Text
deriving DecidableEq

/-- **The token elements**; numbers share the variant of identifiers. -/
def tokens : List Token := [⟨"mtext", "mtext", "mtext-variant"⟩, ⟨"mi", "mi", "mi-variant"⟩,
  ⟨"mo", "mo", "mo-variant"⟩, ⟨"mn", "mn", "mi-variant"⟩]

/-- **A font variant**: some value is not the normal one. -/
def IsVariant (values : List Text) : Prop := ∃ v ∈ values, v ≠ "normal"

instance (values : List Text) : Decidable (IsVariant values) :=
  inferInstanceAs (Decidable (∃ v ∈ values, _))

/-- The constraints on font variants. -/
def variantConstraints : List Text := ["@mathvariant", "@mathvariant!=\"normal\""]

theorem entriesAbout_tokens : ∀ token ∈ tokens, entriesAbout bundled token.name
    = [(⟨elementQuery token.name, []⟩, token.plain),
      (⟨elementQuery token.name, variantConstraints⟩, token.variant)] := by
  simp only [entriesAbout_eq]
  decide +kernel

/-- **The choice between two entries**, the first of them without constraints. -/
theorem chosen?_pair {label plain variant : Text} {constraints : List Text}
    (hentries : entriesAbout bundled label = [(⟨elementQuery label, []⟩, plain),
      (⟨elementQuery label, constraints⟩, variant)]) (hconstraints : constraints ≠ [])
    (affirmed : Text → Bool) :
    chosen? bundled label affirmed
      = some (if constraints.all affirmed = true then variant else plain) := by
  rw [chosen?, hentries, List.filter_cons_of_pos rfl, List.filter_singleton]
  cases constraints.all affirmed with
  | true =>
    have hmore : Precondition.specificity ⟨elementQuery label, []⟩
        < Precondition.specificity ⟨elementQuery label, constraints⟩ :=
      List.length_pos_iff.mpr hconstraints
    simp [Selection.mostConstrained, hmore]
  | false => rfl

section

variable {s : Setting} {a : Address} {t : Tree}

/-- The constraint on an attribute is affirmed if the attribute is there. -/
theorem affirms_toOwn {c label : Text} (hparse : Expr.parse c = some (.toOwn label)) :
    s.affirms ⟨a, .tree t⟩ c = !(t.ownValues label).isEmpty := by
  obtain ⟨x, hx, hholds⟩ : ∃ x, (Expr.toOwn label).evaluate s.environment ⟨⟨a, .tree t⟩, none⟩
      = some x ∧ x.result.holds = !(t.ownValues label).isEmpty :=
    Expr.exists_evaluate_toOwn_holds rfl label
  rw [Setting.affirms_of hparse hx, hholds]

/-- **Font variants affirm the constraints on them.** -/
theorem all_variantConstraints : variantConstraints.all (s.affirms ⟨a, .tree t⟩)
    = decide (IsVariant (t.ownValues "mathvariant")) := by
  have hattribute : Expr.parse "@mathvariant" = some (.toOwn "mathvariant") := by decide
  have hunequal : Expr.parse "@mathvariant!=\"normal\""
      = some (.compare .unequal (.toOwn "mathvariant") (.literal "normal")) := by decide
  have hother : s.affirms ⟨a, .tree t⟩ "@mathvariant!=\"normal\""
      = (t.ownValues "mathvariant").any fun v => v ≠ "normal" :=
    Setting.affirms_of_boolean hunequal (Expr.evaluate_toOwn_unequal rfl "mathvariant" "normal")
  have hall : variantConstraints.all (s.affirms ⟨a, .tree t⟩)
      = (s.affirms ⟨a, .tree t⟩ "@mathvariant"
        && s.affirms ⟨a, .tree t⟩ "@mathvariant!=\"normal\"") := by
    rw [variantConstraints, List.all_cons, List.all_cons, List.all_nil, Bool.and_true]
  rw [hall, affirms_toOwn hattribute, hother, Bool.eq_iff_iff, Bool.and_eq_true,
    Bool.not_eq_true', List.isEmpty_eq_false_iff, List.any_eq_true, decide_eq_true_iff]
  simp only [decide_eq_true_eq]
  refine and_iff_right_of_imp ?_
  rintro ⟨v, hv, -⟩
  exact List.ne_nil_of_mem hv

end

/-! ## Fences -/

/-- **The rule for fences**, by the first value of their separators. -/
def fenceKey : Option Text → Text
  | none => "mfenced-comma"
  | some v =>
    if v.length = 1 then
      if v = " " then "mfenced-empty" else "mfenced-single"
    else "mfenced-multi"

/-- The constraint that the separators are a single character. -/
def isSingle : Text := "string-length(string(@separators))=1"

/-- The constraint that the separators are a blank. -/
def isBlankSeparator : Text := "string(@separators)=\" \""

/-- The entries for fences. -/
def fenceEntries : List Entry := [
  (⟨elementQuery "mfenced", [isSingle]⟩, "mfenced-single"),
  (⟨elementQuery "mfenced", [isSingle, isBlankSeparator]⟩, "mfenced-empty"),
  (⟨elementQuery "mfenced", []⟩, "mfenced-comma"),
  (⟨elementQuery "mfenced", ["@separators"]⟩, "mfenced-multi")]

theorem entriesAbout_mfenced : entriesAbout bundled "mfenced" = fenceEntries := by
  rw [entriesAbout_eq]
  decide +kernel

/-- **The choice between the rules for fences**: a single character comes before any others. -/
theorem chosen?_fences (affirmed : Text → Bool) :
    chosen? bundled "mfenced" affirmed = some (
      if affirmed isSingle then
        if affirmed isBlankSeparator then ("mfenced-empty" : Text) else ("mfenced-single" : Text)
      else
        if affirmed "@separators" then ("mfenced-multi" : Text) else ("mfenced-comma" : Text)) := by
  rw [chosen?, entriesAbout_mfenced, fenceEntries]
  simp only [List.filter_cons, List.filter_nil, List.all_cons, List.all_nil, Bool.and_true]
  cases affirmed isSingle <;> cases affirmed isBlankSeparator <;>
    cases affirmed "@separators" <;> rfl

section

variable {s : Setting} {a : Address} {t : Tree}

theorem affirms_isSingle : s.affirms ⟨a, .tree t⟩ isSingle
    = decide (((t.ownValues "separators").head?.getD []).length = 1) := by
  have hparse : Expr.parse isSingle = some (.compare .equal
      (.call none "string-length" [.call none "string" [.toOwn "separators"]])
      (.number (Float.ofNat 1))) := by decide +kernel
  exact Setting.affirms_of_boolean hparse
    (Expr.evaluate_stringOwn_length rfl "separators" (by decide))

theorem affirms_isBlankSeparator : s.affirms ⟨a, .tree t⟩ isBlankSeparator
    = decide ((t.ownValues "separators").head?.getD [] = " ") := by
  have hparse : Expr.parse isBlankSeparator = some (.compare .equal
      (.call none "string" [.toOwn "separators"]) (.literal " ")) := by decide
  exact Setting.affirms_of_boolean hparse (Expr.evaluate_stringOwn_equal rfl "separators" " ")

/-- **The separators decide** between the rules for fences. -/
theorem chosen?_mfenced : chosen? bundled "mfenced" (s.affirms ⟨a, .tree t⟩)
    = some (fenceKey (t.ownValues "separators").head?) := by
  have hattribute : Expr.parse "@separators" = some (.toOwn "separators") := by decide
  have hsingle := affirms_isSingle (s := s) (a := a) (t := t)
  have hblank := affirms_isBlankSeparator (s := s) (a := a) (t := t)
  have hpresent := affirms_toOwn (s := s) (a := a) (t := t) hattribute
  rw [chosen?_fences]
  unfold fenceKey
  cases hvalues : t.ownValues "separators" with
  | nil =>
    rw [hvalues] at hsingle hpresent
    rw [hsingle, hpresent]
    rfl
  | cons v rest =>
    rw [hvalues] at hsingle hblank hpresent
    replace hsingle : s.affirms ⟨a, .tree t⟩ isSingle = decide (v.length = 1) := hsingle
    replace hblank : s.affirms ⟨a, .tree t⟩ isBlankSeparator = decide (v = " ") := hblank
    replace hpresent : s.affirms ⟨a, .tree t⟩ "@separators" = true := hpresent
    rw [hsingle, hblank, hpresent]
    simp only [List.head?_cons, decide_eq_true_eq, if_true]

end

/-! ## What is retrieved -/

/-- **The attributes of an element decide the rule.**  The store that is made by default is asked
about an element of any document, by an evaluator with the default namespaces, whatever its cache
has read before.  A token element gets the rule for font variants if it has a font variant other
than the normal one, and else its plain rule; a fence gets the rule for its separators. -/
theorem attributes_decide_the_rule {f : Folder}
    (hf : f.has (Path.ofText bundledName) = false) (log : Log) (debug : Bool) :
    ∃ s, (createStore f log debug (tablesOf Settings.defaults)).1 = .ok s
      ∧ ∀ d a t, d.nodeAt? a = some ⟨a, .tree t⟩ →
        (∀ token ∈ tokens, t.isNamed Settings.mathmlNamespace token.name = true →
          Retrieves s d a
            (if IsVariant (t.ownValues "mathvariant") then token.variant else token.plain))
        ∧ (t.isNamed Settings.mathmlNamespace "mfenced" = true →
          Retrieves s d a (fenceKey (t.ownValues "separators").head?)) := by
  refine ⟨_, createStore_defaults hf log debug, fun d a t hnode => ⟨fun token htoken ht => ?_,
    fun ht => retrieves_of_chosen hnode ht chosen?_mfenced debug⟩⟩
  refine retrieves_of_chosen hnode ht ?_ debug
  rw [chosen?_pair (entriesAbout_tokens token htoken) (List.cons_ne_nil _ _),
    all_variantConstraints]
  simp only [decide_eq_true_eq]

/-- A fence whose separators are empty, about a number in bold. -/
def fenceDocument : Document where
  children := [.element ⟨Settings.mathmlNamespace, "mfenced", "mfenced"⟩ []
    [(.plain "separators", "")]
    [.element ⟨Settings.mathmlNamespace, "mn", "mn"⟩ [] [(.plain "mathvariant", "bold")]
      [.text "1"]]]

theorem attributes_decide_the_rule_fenceDocument :
    ∃ s, (createStore ⟨.empty⟩ {} false (tablesOf Settings.defaults)).1 = .ok s
      ∧ (∃ atom, ((s.retrieve (defaultSetting fenceDocument).cachedEvaluator
          (some (.node [.child 0]))).run.run .empty).run.1 = .ok (some atom)
        ∧ atom.key = "mfenced-multi")
      ∧ ∃ atom, ((s.retrieve (defaultSetting fenceDocument).cachedEvaluator
          (some (.node [.child 0, .child 0]))).run.run .empty).run.1 = .ok (some atom)
        ∧ atom.key = "mi-variant" := by
  obtain ⟨s, hs, hrule⟩ := attributes_decide_the_rule (f := ⟨.empty⟩) rfl {} false
  refine ⟨s, hs, ?_, ?_⟩
  · obtain ⟨atom, hgives, hkey⟩ := (hrule fenceDocument [.child 0] _ rfl).2 rfl
    exact ⟨atom, hgives.run_empty, hkey⟩
  · obtain ⟨atom, hgives, hkey⟩ := (hrule fenceDocument [.child 0, .child 0] _ rfl).1
      ⟨"mn", "mn", "mi-variant"⟩ (.tail _ (.tail _ (.tail _ (.head _)))) rfl
    exact ⟨atom, hgives.run_empty, hkey⟩

end MathSpeech.Table
