import MathSpeech.Proofs.Store.Selected
import Mathlib.Data.List.Basic

/-!
# Proofs/Selection/Fit — selection by a pure evaluator

A pure evaluator gives every question one answer, so whether a precondition **fits** a node is a
truth value (`Selection.fits`), and a selection is the most constrained of the entries that fit.
Of the most constrained entry two facts are enough:

* `mostConstrained_append` — of two lists one after the other it is that of the second only if it
  has more constraints than that of the first;
* `select_append_of_subset` — entries that are there already change no selection, even if the
  evaluator may fail.
-/

namespace MathSpeech.Selection

open Rule (Precondition)

/-! ## Verdicts

An evaluator may fail or keep a state; where it does neither, the entries that apply are those with
a favourable verdict. -/

section Verdicts

variable {m : Type → Type} [Monad m] [LawfulMonad m] {ν : Type} [DecidableEq ν]
  {ev : Evaluator m ν} {node : Option ν}

/-- **Entries with known verdicts**: those apply whose verdict is favourable. -/
theorem applicable_eq_filter {verdict : Entry → Bool} {entries : List Entry}
    (h : ∀ e ∈ entries, test ev node e.1 = pure (verdict e)) :
    applicable ev node entries = pure (entries.filter verdict) := by
  induction entries with
  | nil => rfl
  | cons e rest ih =>
    have hrest := ih fun e' he' => h e' (List.mem_cons_of_mem e he')
    rw [applicable, h e List.mem_cons_self, pure_bind, hrest, List.filter_cons]
    cases verdict e with
    | true => rw [if_pos rfl, pure_bind, if_pos rfl]
    | false => rw [if_neg Bool.false_ne_true, if_neg Bool.false_ne_true]

theorem applicable_append (entries again : List Entry) :
    applicable ev node (entries ++ again)
      = applicable ev node entries >>= fun found =>
          applicable ev node again >>= fun others => pure (found ++ others) := by
  induction entries with
  | nil => simp only [List.nil_append, applicable, pure_bind, bind_pure]
  | cons e rest ih =>
    simp only [List.cons_append, applicable, ih, bind_assoc]
    refine congrArg (test ev node e.1 >>= ·) (funext fun holds => ?_)
    cases holds with
    | true => simp only [if_true, bind_assoc, pure_bind, List.cons_append]
    | false => rfl

end Verdicts

/-! ## Pure evaluators -/

section Pure

variable {ν : Type} (ev : Evaluator Id ν) (node : Option ν)

theorem run_allHold (cs : List Text) :
    (allHold ev node cs).run = cs.all fun c => (ev.holds node c).run := by
  induction cs with
  | nil => rfl
  | cons c rest ih =>
    have hstep : (allHold ev node (c :: rest)).run
        = if (ev.holds node c).run then (allHold ev node rest).run else false := by
      rw [allHold, Id.run_bind]
      split <;> rfl
    rw [hstep, ih, List.all_cons]
    cases (ev.holds node c).run <;> rfl

variable [DecidableEq ν]

/-- **A precondition fits a node**: its query gives the node itself, and all constraints hold. -/
def fits (p : Precondition) : Bool :=
  decide ((ev.query node p.query).run = node) && p.constraints.all fun c => (ev.holds node c).run

/-- The entries that fit a node, in order. -/
def fitting (entries : List Entry) : List Entry := entries.filter fun e => fits ev node e.1

theorem run_test (p : Precondition) : (test ev node p).run = fits ev node p := by
  rw [test, Id.run_bind, fits]
  split
  · rename_i hself
    rw [run_allHold, decide_eq_true hself, Bool.true_and]
  · rename_i hother
    rw [decide_eq_false hother, Bool.false_and]
    rfl

theorem run_applicable (entries : List Entry) :
    (applicable ev node entries).run = fitting ev node entries :=
  applicable_eq_filter fun e _ => run_test ev node e.1

/-- **A selection is the most constrained of the entries that fit.** -/
theorem run_select (entries : List Entry) :
    (select ev node entries).run = (mostConstrained (fitting ev node entries)).map Prod.snd := by
  rw [select, Id.run_bind, run_applicable]
  rfl

end Pure

/-! ## The most constrained entry -/

/-- The better of two entries: the first, unless the second has more constraints. -/
def better (first second : Option Entry) : Option Entry :=
  match first, second with
  | some e, some e' => if e.1.specificity < e'.1.specificity then some e' else some e
  | some e, none => some e
  | none, second => second

theorem better_none (second : Option Entry) : better none second = second := by
  cases second <;> rfl

theorem mostConstrained_cons (e : Entry) (rest : List Entry) :
    mostConstrained (e :: rest) = better (some e) (mostConstrained rest) := by
  rw [mostConstrained]
  cases mostConstrained rest <;> rfl

theorem mostConstrained_eq_none_iff {es : List Entry} : mostConstrained es = none ↔ es = [] := by
  cases es with
  | nil => exact iff_of_true rfl rfl
  | cons e rest =>
    refine iff_of_false (fun h => ?_) (List.cons_ne_nil e rest)
    rw [mostConstrained_cons] at h
    cases hrest : mostConstrained rest with
    | none => cases hrest ▸ h
    | some best =>
      rw [hrest, better] at h
      split at h <;> cases h

theorem better_assoc (a b c : Option Entry) : better (better a b) c = better a (better b c) := by
  cases a <;> cases b <;> cases c <;> grind [better]

/-- **The most constrained entry of two lists** is the better of theirs. -/
theorem mostConstrained_append (es es' : List Entry) :
    mostConstrained (es ++ es') = better (mostConstrained es) (mostConstrained es') := by
  induction es with
  | nil => exact (better_none _).symm
  | cons e rest ih =>
    rw [List.cons_append, mostConstrained_cons, ih, mostConstrained_cons, better_assoc]

theorem specificity_le_of_mostConstrained {es : List Entry} {best : Entry}
    (h : mostConstrained es = some best) {e : Entry} (he : e ∈ es) :
    e.1.specificity ≤ best.1.specificity := by
  induction es generalizing best with
  | nil => cases he
  | cons first rest ih =>
    rw [mostConstrained_cons] at h
    cases hrest : mostConstrained rest with
    | none =>
      obtain rfl := mostConstrained_eq_none_iff.mp hrest
      obtain rfl : e = first := List.mem_singleton.mp he
      obtain rfl : e = best := by simpa [better, hrest] using h
      exact Nat.le_refl _
    | some other =>
      rw [hrest, better] at h
      rcases List.mem_cons.mp he with rfl | he
      · split at h <;> cases h <;> omega
      · have hother := ih hrest he
        split at h <;> cases h <;> omega

/-- Entries that are in a list already do not change its most constrained entry. -/
theorem mostConstrained_append_of_subset {es again : List Entry} (h : again ⊆ es) :
    mostConstrained (es ++ again) = mostConstrained es := by
  rw [mostConstrained_append]
  cases hagain : mostConstrained again with
  | none => cases mostConstrained es <;> rfl
  | some e =>
    have he : e ∈ es := h (mem_of_mostConstrained hagain)
    cases hes : mostConstrained es with
    | none => exact absurd (mostConstrained_eq_none_iff.mp hes ▸ he) List.not_mem_nil
    | some best =>
      rw [better, if_neg (Nat.not_lt.mpr (specificity_le_of_mostConstrained hes he))]

/-! ## Entries that are there already -/

/-- An evaluator that did not fail has given a verdict on every entry. -/
theorem exists_verdicts {ε ν : Type} [DecidableEq ν] {ev : Evaluator (Except ε) ν}
    {node : Option ν} {entries found : List Entry} (h : applicable ev node entries = .ok found) :
    ∃ verdict : Entry → Bool, ∀ e ∈ entries, test ev node e.1 = .ok (verdict e) := by
  suffices hanswers : ∀ e ∈ entries, ∃ holds, test ev node e.1 = .ok holds by
    refine ⟨fun e => (test ev node e.1).toOption.getD false, fun e he => ?_⟩
    obtain ⟨holds, hholds⟩ := hanswers e he
    simp only [hholds]
    rfl
  induction entries generalizing found with
  | nil => exact fun _ he => absurd he List.not_mem_nil
  | cons first rest ih =>
    rw [applicable] at h
    cases hfirst : test ev node first.1 with
    | error fault =>
      rw [hfirst] at h
      cases h
    | ok holds =>
      cases hrest : applicable ev node rest with
      | ok others => exact List.forall_mem_cons.mpr ⟨⟨holds, hfirst⟩, ih hrest⟩
      | error fault =>
        rw [hfirst, hrest] at h
        cases holds <;> cases h

/-- **Entries that are there already change no selection**, by an evaluator that is a function,
whether it gives an answer or fails. -/
theorem select_append_of_subset {ε ν : Type} [DecidableEq ν] (ev : Evaluator (Except ε) ν)
    (node : Option ν) {entries again : List Entry} (h : again ⊆ entries) :
    select ev node (entries ++ again) = select ev node entries := by
  rw [select, select, applicable_append]
  cases hfound : applicable ev node entries with
  | error fault => rfl
  | ok found =>
    obtain ⟨verdict, hverdict⟩ := exists_verdicts hfound
    have hagain : applicable ev node again = .ok (again.filter verdict) :=
      applicable_eq_filter fun e he => hverdict e (h he)
    obtain rfl : found = entries.filter verdict :=
      Except.ok.inj (hfound.symm.trans (applicable_eq_filter hverdict))
    have hbest := mostConstrained_append_of_subset (List.filter_subset verdict h)
    rw [hagain]
    exact congrArg (fun best : Option Entry => Except.ok (best.map Prod.snd)) hbest

end MathSpeech.Selection
