import MathSpeech.Proofs.Store.Applicability
import MathSpeech.Proofs.Store.Reordering

/-!
# Proofs/Store/Conservative — a new rule changes no more than it has to

A definition that succeeds adds one entry behind all others, so at a node it is either selected or
of no account: it is selected exactly if it matches and has more constraints than every match so far
(`Selection.select_concat`).  And it touches one key only.  So where another key stays selected,
what is found there stays, for every domain and style (`Store.addition_is_conservative`).
-/

namespace MathSpeech

open Rule (Precondition)

namespace Selection

variable {ν : Type} [DecidableEq ν] (ev : Evaluator Id ν) (node : Option ν)

/-! ## One more entry -/

/-- **The largest number of constraints** among the preconditions that match, if any does. -/
def largestCount (entries : List Entry) : Option Nat :=
  ((entries.filter fun e => (test ev node e.1).run).map fun e => e.1.specificity).max?

/-- It is that of the most constrained match. -/
theorem largestCount_eq (entries : List Entry) :
    largestCount ev node entries
      = (mostConstrained (fitting ev node entries)).map fun e => e.1.specificity := by
  have hfitting : largestCount ev node entries
      = ((fitting ev node entries).map fun e => e.1.specificity).max? := by
    simp only [largestCount, fitting, run_test]
  rw [hfitting]
  cases hbest : mostConstrained (fitting ev node entries) with
  | none => rw [mostConstrained_eq_none_iff.mp hbest, List.map_nil, List.max?_nil, Option.map_none]
  | some best =>
    refine List.max?_eq_some_iff.mpr ⟨List.mem_map_of_mem (mem_of_mostConstrained hbest), ?_⟩
    intro count hcount
    obtain ⟨e, he, rfl⟩ := List.mem_map.mp hcount
    exact specificity_le_of_mostConstrained hbest he

/-- **A precondition prevails over entries** at a node: it matches, and it has more constraints than
every match among them. -/
def Prevails (entries : List Entry) (p : Precondition) : Prop :=
  (test ev node p).run = true ∧ ∀ most ∈ largestCount ev node entries, most < p.specificity

instance (entries : List Entry) (p : Precondition) : Decidable (Prevails ev node entries p) :=
  inferInstanceAs (Decidable (_ ∧ _))

/-- An entry behind others is the most constrained one if it has more constraints than theirs. -/
theorem mostConstrained_concat (es : List Entry) (e : Entry) :
    mostConstrained (es ++ [e])
      = if ∀ best ∈ mostConstrained es, best.1.specificity < e.1.specificity then some e
        else mostConstrained es := by
  rw [mostConstrained_append, mostConstrained_cons, mostConstrained, better]
  cases mostConstrained es with
  | none => simp only [better, Option.not_mem_none, false_implies, implies_true, if_true]
  | some best => simp only [better, Option.mem_some_iff, forall_eq']

/-- **An entry behind all others** is selected exactly if it prevails over them. -/
theorem select_concat (entries : List Entry) (e : Entry) :
    (select ev node (entries ++ [e])).run
      = if Prevails ev node entries e.1 then some e.2 else (select ev node entries).run := by
  rw [run_select, run_select]
  by_cases hmatch : fits ev node e.1 = true
  · have hfitting : fitting ev node (entries ++ [e]) = fitting ev node entries ++ [e] := by
      rw [fitting, List.filter_append, List.filter_singleton, hmatch]
      rfl
    have hprevails : Prevails ev node entries e.1
        ↔ ∀ best ∈ mostConstrained (fitting ev node entries),
            best.1.specificity < e.1.specificity := by
      rw [Prevails, run_test, and_iff_right hmatch, largestCount_eq]
      exact Option.forall_mem_map
    simp only [hfitting, mostConstrained_concat, hprevails]
    split <;> rfl
  · have hfitting : fitting ev node (entries ++ [e]) = fitting ev node entries := by
      rw [fitting, List.filter_append, List.filter_singleton, Bool.eq_false_iff.mpr hmatch]
      exact List.append_nil _
    rw [hfitting, if_neg fun h => hmatch (run_test ev node e.1 ▸ h.1)]

end Selection

namespace Store

variable {ν : Type} [DecidableEq ν]

/-! ## One more definition -/

theorem settings_perform (s : Store) (d : Definition) : (d.perform s).2.debug = s.debug
    ∧ (d.perform s).2.defaultDomain = s.defaultDomain
    ∧ (d.perform s).2.defaultStyle = s.defaultStyle := s.settings_afterAll [d]

/-- **A definition changes nothing that is found under another key.** -/
theorem answer_perform_of_ne (s : Store) (d : Definition) {key : Option Text}
    (hkey : key ≠ some d.registration.key) (domain style : Text) :
    (d.perform s).2.answer domain style ((d.perform s).2.atomOf key)
      = s.answer domain style (s.atomOf key) := by
  have hatom : (d.perform s).2.atomOf key = s.atomOf key := by
    cases key with
    | none => rfl
    | some k => exact (AgreesAt.perform_apart s fun h => hkey (congrArg some h.symm)).atom
  rw [hatom, answer_congr (s.settings_perform d).1]

/-- **Where the same key stays selected**, and is not that of the definition, the same is found. -/
theorem run_lookup_perform (s : Store) (d : Definition) (ev : Evaluator Id ν) (node : ν)
    (hsame : (Selection.select ev (some node) (d.perform s).2.entries).run
      = (Selection.select ev (some node) s.entries).run)
    (hother : (Selection.select ev (some node) s.entries).run ≠ some d.registration.key)
    (domain style : Option Text) :
    ((d.perform s).2.lookup ev (some node) domain style).run
      = (s.lookup ev (some node) domain style).run := by
  have hlookup : ∀ u : Store, (u.lookup ev (some node) domain style).run
      = u.answer (orDefault u.defaultDomain domain) (orDefault u.defaultStyle style)
        (u.atomOf (Selection.select ev (some node) u.entries).run) := fun _ => rfl
  obtain ⟨-, hdomain, hstyle⟩ := s.settings_perform d
  rw [hlookup, hlookup, hsame, hdomain, hstyle]
  exact s.answer_perform_of_ne d hother _ _

/-- **A new rule is conservative.**  Whatever run a store comes from: let a definition succeed, of
whichever kind, with a precondition and a key.  At every node its key is then the one retrieved if
the precondition matches and has more constraints than every match before, or if there was none; and
else the same key is retrieved as before, or still none.  Where the same key stays and is not that
of the definition, the same is found as before, for every domain and style. -/
theorem addition_is_conservative (kind : Kind) (debug : Bool) (defaultDomain defaultStyle : Text)
    (calls : List Call) (d : Definition) (ev : Evaluator Id ν) (node : ν) :
    let s := run (blank kind debug defaultDomain defaultStyle) calls
    let t := (d.perform s).2
    let before := (s.retrieve ev (some node)).run.map Atom.key
    let after := (t.retrieve ev (some node)).run.map Atom.key
    (d.perform s).1 = true →
      after = (if Selection.Prevails ev (some node) s.entries d.registration.precondition
          then some d.registration.key else before)
        ∧ (after = before → before ≠ some d.registration.key → ∀ domain style,
          (t.lookup ev (some node) domain style).run
            = (s.lookup ev (some node) domain style).run) := by
  intro s t before after hsuccess
  have hs : Reflects _ s := reflects_run kind debug defaultDomain defaultStyle calls
  obtain ⟨hperform, -, horder⟩ | hfailed := d.perform_cases s
  · have ht : t = d.enter s := congrArg Prod.snd hperform
    have hbefore : before = (Selection.select ev (some node) s.entries).run :=
      hs.consistent.map_key_retrieve ev (some node)
    have hafter : after = (Selection.select ev (some node) t.entries).run := by
      have hentered := (hs.enter horder).consistent.map_key_retrieve ev (some node)
      rwa [← ht] at hentered
    rw [hafter, hbefore]
    refine ⟨?_, s.run_lookup_perform d ev node⟩
    rw [ht, d.entries_enter]
    exact Selection.select_concat ev (some node) s.entries d.registration.entry
  · rw [hfailed] at hsuccess
    exact absurd hsuccess Bool.false_ne_true

/-- A rule that matches where the more special one of `squareRun` does, with as many constraints. -/
def equalRule : Definition :=
  .rule "power" "Mathml" "default.default" "[t] \"power\"" "self::msup" ["exp2"]

theorem addition_is_conservative_equalRule :
    let s := run (blank .plain false defaultName defaultName) squareRun
    let t := (equalRule.perform s).2
    let before := (s.retrieve ListedNode.evaluator (some squareNode)).run.map Atom.key
    let after := (t.retrieve ListedNode.evaluator (some squareNode)).run.map Atom.key
    (equalRule.perform s).1 = true ∧ before = some "square".toList ∧ after = before
      ∧ before ≠ some equalRule.registration.key
      ∧ (t.lookup ListedNode.evaluator (some squareNode) none none).run
        = (s.lookup ListedNode.evaluator (some squareNode) none none).run := by
  intro s t before after
  have hsuccess : (equalRule.perform s).1 = true := by decide +kernel
  have hbefore : before = some "square".toList := by decide +kernel
  have hother : before ≠ some equalRule.registration.key := by rw [hbefore]; decide +kernel
  obtain ⟨hafter, hfound⟩ := addition_is_conservative .plain false defaultName defaultName squareRun
    equalRule ListedNode.evaluator squareNode hsuccess
  -- the new rule matches, but does not prevail over the one with as many constraints
  have hsame : after = before := hafter.trans (if_neg (by decide +kernel))
  exact ⟨hsuccess, hbefore, hsame, hother, hfound hsame hother none none⟩

end Store

end MathSpeech
