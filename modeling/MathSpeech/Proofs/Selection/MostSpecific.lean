import MathSpeech.Evaluator.Listed
import MathSpeech.Proofs.Selection.Ranking

/-!
# Proofs/Selection/MostSpecific — the first most specific match is selected

Selection goes through the entries that match and keeps the better of two.  What it ends with can be
said in two other ways:

* `mostConstrained_eq_head?_mergeSort` — it is the head of these entries, sorted by falling number
  of constraints by a sort that leaves equals in order;
* `selects_first_most_specific` — it stands at the one place such that no match has more
  constraints and every match before it has fewer.
-/

namespace MathSpeech.Selection

open Rule (Precondition)

/-! ## The head of a stable sort -/

/-- **The falling order** of entries, by their numbers of constraints. -/
def atLeastAsSpecific (e e' : Entry) : Bool := decide (e'.1.specificity ≤ e.1.specificity)

theorem atLeastAsSpecific_iff {e e' : Entry} :
    atLeastAsSpecific e e' = true ↔ e'.1.specificity ≤ e.1.specificity := decide_eq_true_iff

theorem atLeastAsSpecific_trans (a b c : Entry) (hab : atLeastAsSpecific a b = true)
    (hbc : atLeastAsSpecific b c = true) : atLeastAsSpecific a c = true :=
  atLeastAsSpecific_iff.mpr <|
    Nat.le_trans (atLeastAsSpecific_iff.mp hbc) (atLeastAsSpecific_iff.mp hab)

theorem atLeastAsSpecific_total (a b : Entry) :
    (atLeastAsSpecific a b || atLeastAsSpecific b a) = true := by
  rw [Bool.or_eq_true, atLeastAsSpecific_iff, atLeastAsSpecific_iff]
  exact Nat.le_total ..

/-- **The most constrained entry is the head of the sorted entries**; the sort is stable. -/
theorem mostConstrained_eq_head?_mergeSort (entries : List Entry) :
    mostConstrained entries = (entries.mergeSort atLeastAsSpecific).head? := by
  induction entries with
  | nil => rw [List.mergeSort_nil, mostConstrained, List.head?_nil]
  | cons e rest ih =>
    -- `e` is put before the first that does not have more constraints
    obtain ⟨above, below, hsort, hrest, habove⟩ :=
      List.mergeSort_cons atLeastAsSpecific_trans atLeastAsSpecific_total e rest
    rw [mostConstrained_cons, ih, hsort, hrest]
    cases above with
    | cons first above =>
      have hless : e.1.specificity < first.1.specificity := by
        have hfirst := habove first List.mem_cons_self
        rwa [Bool.not_eq_true', ← Bool.not_eq_true, atLeastAsSpecific_iff, Nat.not_le] at hfirst
      rw [List.cons_append, List.cons_append, List.head?_cons, List.head?_cons, better,
        if_pos hless]
    | nil =>
      have hsorted := List.pairwise_mergeSort atLeastAsSpecific_trans atLeastAsSpecific_total
        (e :: rest)
      rw [hsort] at hsorted
      cases below with
      | nil => rfl
      | cons second below =>
        have hmost := atLeastAsSpecific_iff.mp
          (List.rel_of_pairwise_cons hsorted List.mem_cons_self)
        rw [List.nil_append, List.nil_append, List.head?_cons, List.head?_cons, better,
          if_neg (Nat.not_lt.mpr hmost)]

/-! ## The selected entry -/

variable {ν : Type} [DecidableEq ν]

/-- **A precondition holds of a node** exactly if its query gives this very node and all constraints
hold. -/
theorem run_test_eq_true_iff (ev : Evaluator Id ν) (node : Option ν) (p : Precondition) :
    (test ev node p).run = true ↔ (ev.query node p.query).run = node
      ∧ ∀ c ∈ p.constraints, (ev.holds node c).run = true := by
  rw [run_test, fits, Bool.and_eq_true, decide_eq_true_iff, List.all_eq_true]

/-- Nothing is selected exactly if nothing matches. -/
theorem run_select_eq_none_iff (ev : Evaluator Id ν) (node : Option ν) (entries : List Entry) :
    (select ev node entries).run = none ↔ ∀ e ∈ entries, (test ev node e.1).run = false := by
  rw [run_select, Option.map_eq_none_iff, mostConstrained_eq_none_iff, fitting,
    List.filter_eq_nil_iff]
  simp only [run_test, Bool.not_eq_true]

/-- Where something matches, the key of the first most specific match is selected. -/
theorem exists_firstMost_of_match (ev : Evaluator Id ν) (node : Option ν) {entries : List Entry}
    {e : Entry} (he : e ∈ entries) (hmatch : (test ev node e.1).run = true) :
    ∃ i best, FirstMost (fun e => (test ev node e.1).run) (fun e => e.1.specificity) entries i best
      ∧ (select ev node entries).run = some best.2 := by
  rw [run_select]
  cases hbest : mostConstrained (fitting ev node entries) with
  | none =>
    have hnone := mostConstrained_eq_none_iff.mp hbest
    exact absurd (run_test ev node e.1 ▸ hmatch) (List.filter_eq_nil_iff.mp hnone e he)
  | some best =>
    obtain ⟨i, hi⟩ := exists_firstMost_of_mostConstrained hbest
    simp only [run_test]
    exact ⟨i, best, hi, rfl⟩

/-- **The first most specific match is selected.**  By a pure evaluator, at every node, and also
where there is none, an entry matches exactly if its query gives that very node (nodes are compared
as what they are, not by what they look like) and all its constraints hold.  The selected key is
that of the head of the matches, stably sorted by falling number of constraints.  There is none
exactly if nothing matches; else it stands at the one place where a match has as many constraints as
any, and more than every match before it. -/
theorem selects_first_most_specific (ev : Evaluator Id ν) (node : Option ν)
    (entries : List Entry) :
    let matched : Entry → Bool := fun e => (test ev node e.1).run
    let selected := (select ev node entries).run
    (∀ e : Entry, matched e = true ↔ (ev.query node e.1.query).run = node
        ∧ ∀ c ∈ e.1.constraints, (ev.holds node c).run = true)
      ∧ selected = ((entries.filter matched).mergeSort atLeastAsSpecific).head?.map Prod.snd
      ∧ (selected = none ↔ ∀ e ∈ entries, matched e = false)
      ∧ ∀ e ∈ entries, matched e = true →
          ∃ i best, FirstMost matched (fun e => e.1.specificity) entries i best
            ∧ selected = some best.2
            ∧ ∀ j other, FirstMost matched (fun e => e.1.specificity) entries j other →
                j = i ∧ other = best := by
  intro matched selected
  refine ⟨fun e => run_test_eq_true_iff ev node e.1, ?_, run_select_eq_none_iff ev node entries,
    fun e he hmatch => ?_⟩
  · have hfitting : fitting ev node entries = entries.filter matched :=
      List.filter_congr fun e _ => (run_test ev node e.1).symm
    rw [← mostConstrained_eq_head?_mergeSort, ← hfitting]
    exact run_select ev node entries
  · obtain ⟨i, best, hbest, hselected⟩ := exists_firstMost_of_match ev node he hmatch
    exact ⟨i, best, hbest, hselected, fun j other hother => hbest.unique hother⟩

/-- A node that has a twin, which looks the same. -/
def twinNode : ListedNode :=
  { address := [0], tag := some "mi", facts := ["a", "b"], others := ["twin"], form := [] }

/-- A rule without constraints, the most constrained one, which leads to the twin, and two rules
with one constraint each. -/
def twinEntries : List Entry :=
  [({ query := "self::mi" }, "plain"), ({ query := "twin", constraints := ["a", "b"] }, "twin"),
    ({ query := "self::mi", constraints := ["b"] }, "first"),
    ({ query := "self::mi", constraints := ["a"] }, "second")]

theorem selects_first_most_specific_twin :
    let e : Entry := ({ query := "self::mi" }, "plain")
    let selected := (select ListedNode.evaluator (some twinNode) twinEntries).run
    e ∈ twinEntries ∧ (test ListedNode.evaluator (some twinNode) e.1).run = true
      ∧ selected = some "first".toList
      ∧ ∃ i best, FirstMost (fun e => (test ListedNode.evaluator (some twinNode) e.1).run)
          (fun e => e.1.specificity) twinEntries i best ∧ selected = some best.2 := by
  intro e selected
  have he : e ∈ twinEntries := List.mem_cons_self
  have hmatch : (test ListedNode.evaluator (some twinNode) e.1).run = true := by decide +kernel
  obtain ⟨-, -, -, hselects⟩ :=
    selects_first_most_specific ListedNode.evaluator (some twinNode) twinEntries
  obtain ⟨i, best, hbest, hselected, -⟩ := hselects e he hmatch
  exact ⟨he, hmatch, by decide +kernel, i, best, hbest, hselected⟩

end MathSpeech.Selection
