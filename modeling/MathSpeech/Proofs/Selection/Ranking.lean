import MathSpeech.Proofs.Selection.Fit

/-!
# Proofs/Selection/Ranking — what the order of the entries decides

The most constrained entry is the first among those with as many constraints as it has, and no other
has more.  So the order of the entries counts only among entries with equally many constraints: two
lists in which these stand in the same order have the same most constrained entry
(`mostConstrained_congr`), and an evaluator that is a function selects the same from both, unless it
fails on both (`toOption_select_congr`).  `FirstMost` says the same by places in a list, of which
some items match.
-/

namespace MathSpeech.Selection

/-- The entries with a given number of constraints, in order. -/
def ranked (entries : List Entry) (count : Nat) : List Entry :=
  entries.filter fun e => e.1.specificity = count

theorem mem_ranked {entries : List Entry} {count : Nat} {e : Entry} :
    e ∈ ranked entries count ↔ e ∈ entries ∧ e.1.specificity = count := by
  rw [ranked, List.mem_filter, decide_eq_true_iff]

theorem mem_ranked_self {entries : List Entry} {e : Entry} :
    e ∈ ranked entries e.1.specificity ↔ e ∈ entries := by
  rw [mem_ranked, and_iff_left rfl]

/-- Lists with the same entries of every rank have the same entries. -/
theorem mem_iff_of_ranked {entries entries' : List Entry}
    (h : ∀ count, ranked entries' count = ranked entries count) (e : Entry) :
    e ∈ entries' ↔ e ∈ entries := by
  rw [← mem_ranked_self, h, mem_ranked_self]

/-- What is filtered from entries is filtered from those of each rank. -/
theorem ranked_filter (entries : List Entry) (verdict : Entry → Bool) (count : Nat) :
    ranked (entries.filter verdict) count = (ranked entries count).filter verdict :=
  List.filter_comm ..

/-- The most constrained entry is the first of its rank. -/
theorem head?_ranked_of_mostConstrained {entries : List Entry} {best : Entry}
    (h : mostConstrained entries = some best) :
    (ranked entries best.1.specificity).head? = some best := by
  induction entries with
  | nil => cases h
  | cons e rest ih =>
    rw [mostConstrained_cons] at h
    cases hrest : mostConstrained rest with
    | none =>
      rw [hrest, better] at h
      cases h
      rw [ranked, List.filter_cons, if_pos (decide_eq_true rfl), List.head?_cons]
    | some other =>
      rw [hrest, better] at h
      split at h
      · rename_i hless
        cases h
        rw [ranked, List.filter_cons, if_neg (by simpa using Nat.ne_of_lt hless)]
        exact ih hrest
      · cases h
        rw [ranked, List.filter_cons, if_pos (decide_eq_true rfl), List.head?_cons]

/-- **The most constrained entry** is the first of its rank, and no entry has a higher one. -/
theorem mostConstrained_eq_some_iff {entries : List Entry} {best : Entry} :
    mostConstrained entries = some best
      ↔ (ranked entries best.1.specificity).head? = some best
        ∧ ∀ e ∈ entries, e.1.specificity ≤ best.1.specificity := by
  constructor
  · intro h
    exact ⟨head?_ranked_of_mostConstrained h, fun _ he => specificity_le_of_mostConstrained h he⟩
  · rintro ⟨hhead, hmax⟩
    have hmem : best ∈ entries := mem_ranked_self.mp (List.mem_of_head? hhead)
    cases hfound : mostConstrained entries with
    | none => exact absurd (mostConstrained_eq_none_iff.mp hfound ▸ hmem) List.not_mem_nil
    | some found =>
      have hrank : found.1.specificity = best.1.specificity :=
        Nat.le_antisymm (hmax found (mem_of_mostConstrained hfound))
          (specificity_le_of_mostConstrained hfound hmem)
      have hfirst := head?_ranked_of_mostConstrained hfound
      rw [hrank] at hfirst
      exact hfirst.symm.trans hhead

/-- **Lists with the same entries of every rank have the same most constrained entry.** -/
theorem mostConstrained_congr {entries entries' : List Entry}
    (h : ∀ count, ranked entries' count = ranked entries count) :
    mostConstrained entries' = mostConstrained entries := by
  refine Option.ext fun best => ?_
  rw [mostConstrained_eq_some_iff, mostConstrained_eq_some_iff, h]
  simp only [mem_iff_of_ranked h]

/-! ## Places -/

/-- **The first of the greatest items that match**, and its place in the list: no item that matches
has a higher count, and those that match before it have lower ones. -/
structure FirstMost {α : Type} (verdict : α → Bool) (count : α → Nat) (xs : List α) (i : Nat)
    (x : α) : Prop where
  place : xs[i]? = some x
  matched : verdict x = true
  le : ∀ (j : Nat) y, xs[j]? = some y → verdict y = true → count y ≤ count x
  lt : ∀ (j : Nat) y, j < i → xs[j]? = some y → verdict y = true → count y < count x

section FirstMost

variable {α : Type} {verdict : α → Bool} {count : α → Nat} {xs : List α} {x first : α} {i : Nat}

/-- An item that is not counted before the others. -/
theorem FirstMost.cons (h : FirstMost verdict count xs i x)
    (hfirst : verdict first = true → count first < count x) :
    FirstMost verdict count (first :: xs) (i + 1) x where
  place := h.place
  matched := h.matched
  le j y hy hmatched := by
    cases j with
    | zero =>
      obtain rfl : first = y := Option.some.inj hy
      exact Nat.le_of_lt (hfirst hmatched)
    | succ j => exact h.le j y hy hmatched
  lt j y hj hy hmatched := by
    cases j with
    | zero =>
      obtain rfl : first = y := Option.some.inj hy
      exact hfirst hmatched
    | succ j => exact h.lt j y (Nat.lt_of_succ_lt_succ hj) hy hmatched

/-- An item that matches, before items with no higher count. -/
theorem firstMost_zero (hfirst : verdict first = true)
    (hle : ∀ y ∈ xs, verdict y = true → count y ≤ count first) :
    FirstMost verdict count (first :: xs) 0 first where
  place := rfl
  matched := hfirst
  le j y hy hmatched := by
    cases j with
    | zero =>
      obtain rfl : first = y := Option.some.inj hy
      exact Nat.le_refl _
    | succ j => exact hle y (List.mem_of_getElem? hy) hmatched
  lt j _ hj := absurd hj (Nat.not_lt_zero j)

/-- **The first of the greatest is one item**, at one place. -/
theorem FirstMost.unique {j : Nat} {y : α} (h : FirstMost verdict count xs i x)
    (h' : FirstMost verdict count xs j y) : j = i ∧ y = x := by
  have hplace : j = i := by
    obtain hlt | heq | hgt := Nat.lt_trichotomy j i
    · have hless := h.lt j y hlt h'.place h'.matched
      have hmost := h'.le i x h.place h.matched
      omega
    · exact heq
    · have hless := h'.lt i x hgt h.place h.matched
      have hmost := h.le j y h'.place h'.matched
      omega
  subst hplace
  exact ⟨rfl, Option.some.inj (h'.place.symm.trans h.place)⟩

/-- Lists whose items match and count alike, place by place, have the first greatest item at the
same place. -/
theorem FirstMost.congr {β : Type} {verdict' : β → Bool} {count' : β → Nat} {ys : List β}
    (h : FirstMost verdict count xs i x) {f : Nat → α → β}
    (hys : ∀ j : Nat, ys[j]? = xs[j]?.map (f j))
    (hverdict : ∀ j y, verdict' (f j y) = verdict y) (hcount : ∀ j y, count' (f j y) = count y) :
    FirstMost verdict' count' ys i (f i x) where
  place := by rw [hys, h.place, Option.map_some]
  matched := by rw [hverdict, h.matched]
  le j z hz hz' := by
    rw [hys] at hz
    obtain ⟨y, hy, rfl⟩ := Option.map_eq_some_iff.mp hz
    rw [hcount, hcount]
    exact h.le j y hy (hverdict j y ▸ hz')
  lt j z hj hz hz' := by
    rw [hys] at hz
    obtain ⟨y, hy, rfl⟩ := Option.map_eq_some_iff.mp hz
    rw [hcount, hcount]
    exact h.lt j y hj hy (hverdict j y ▸ hz')

/-- **The first greatest image** is that of the first greatest item, where these match as their
images do and are counted in the same order. -/
theorem FirstMost.of_map {β : Type} {f : β → α} {ys : List β}
    (h : FirstMost verdict count (ys.map f) i x) {verdict' : β → Bool} {count' : β → Nat}
    (hverdict : ∀ y ∈ ys, verdict (f y) = verdict' y)
    (hcount : ∀ y ∈ ys, ∀ z ∈ ys, count (f y) < count (f z) ↔ count' y < count' z) :
    ∃ y, f y = x ∧ FirstMost verdict' count' ys i y := by
  have hplace : ∀ {j : Nat} {z : β}, ys[j]? = some z → (ys.map f)[j]? = some (f z) := by
    intro j z hz
    rw [List.getElem?_map, hz, Option.map_some]
  obtain ⟨y, hy, rfl⟩ : ∃ y, ys[i]? = some y ∧ f y = x := by
    rw [← Option.map_eq_some_iff, ← List.getElem?_map]
    exact h.place
  have hmem := List.mem_of_getElem? hy
  refine ⟨y, rfl, hy, hverdict y hmem ▸ h.matched, fun j z hz hz' => ?_, fun j z hj hz hz' => ?_⟩
  · have hmem' := List.mem_of_getElem? hz
    have hle := h.le j (f z) (hplace hz) ((hverdict z hmem').trans hz')
    exact Nat.not_lt.mp fun hlt => Nat.not_lt.mpr hle ((hcount y hmem z hmem').mpr hlt)
  · have hmem' := List.mem_of_getElem? hz
    exact (hcount z hmem' y hmem).mp (h.lt j (f z) hj (hplace hz) ((hverdict z hmem').trans hz'))

end FirstMost

/-- **The most constrained of the entries that match** is the first of the greatest among them. -/
theorem exists_firstMost_of_mostConstrained {verdict : Entry → Bool} {entries : List Entry}
    {best : Entry} (h : mostConstrained (entries.filter verdict) = some best) :
    ∃ i, FirstMost verdict (fun e => e.1.specificity) entries i best := by
  induction entries with
  | nil => cases h
  | cons e rest ih =>
    by_cases he : verdict e = true
    · rw [List.filter_cons, if_pos he, mostConstrained_cons] at h
      cases hrest : mostConstrained (rest.filter verdict) with
      | none =>
        obtain rfl : e = best := by simpa [better, hrest] using h
        have hnone := List.filter_eq_nil_iff.mp (mostConstrained_eq_none_iff.mp hrest)
        exact ⟨0, firstMost_zero he fun y hy hmatched => absurd hmatched (hnone y hy)⟩
      | some other =>
        rw [hrest, better] at h
        split at h
        · rename_i hless
          obtain rfl : other = best := Option.some.inj h
          obtain ⟨i, hi⟩ := ih hrest
          exact ⟨i + 1, hi.cons fun _ => hless⟩
        · rename_i hless
          obtain rfl : e = best := Option.some.inj h
          refine ⟨0, firstMost_zero he fun y hy hmatched => ?_⟩
          have hother := specificity_le_of_mostConstrained hrest
            (List.mem_filter.mpr ⟨hy, hmatched⟩)
          exact Nat.le_trans hother (Nat.not_lt.mp hless)
    · rw [List.filter_cons, if_neg he] at h
      obtain ⟨i, hi⟩ := ih h
      exact ⟨i + 1, hi.cons fun hmatched => absurd hmatched he⟩

section Failing

variable {ε ν : Type} [DecidableEq ν] {ev : Evaluator (Except ε) ν} {node : Option ν}

/-- A selection fails, or there are verdicts on all entries. -/
theorem toOption_select_cases (ev : Evaluator (Except ε) ν) (node : Option ν)
    (entries : List Entry) :
    (select ev node entries).toOption = none
      ∨ ∃ verdict : Entry → Bool, ∀ e ∈ entries, test ev node e.1 = .ok (verdict e) := by
  cases hfound : applicable ev node entries with
  | error fault =>
    refine .inl ?_
    rw [select, hfound]
    rfl
  | ok found => exact .inr (exists_verdicts hfound)

/-- The selection from entries with known verdicts. -/
theorem select_eq_of_verdicts {verdict : Entry → Bool} {entries : List Entry}
    (h : ∀ e ∈ entries, test ev node e.1 = .ok (verdict e)) :
    select ev node entries = .ok ((mostConstrained (entries.filter verdict)).map Prod.snd) := by
  rw [select, applicable_eq_filter h]
  rfl

/-- **From lists with the same entries of every rank the same is selected**, by an evaluator that is
a function; where it fails on one list, it fails on the other. -/
theorem toOption_select_congr (ev : Evaluator (Except ε) ν) (node : Option ν)
    {entries entries' : List Entry} (h : ∀ count, ranked entries' count = ranked entries count) :
    (select ev node entries').toOption = (select ev node entries).toOption := by
  have hmem := mem_iff_of_ranked h
  have hboth : ∀ {verdict : Entry → Bool},
      (∀ e ∈ entries, test ev node e.1 = .ok (verdict e)) →
        select ev node entries' = select ev node entries := by
    intro verdict hverdict
    have hverdict' : ∀ e ∈ entries', test ev node e.1 = .ok (verdict e) :=
      fun e he => hverdict e ((hmem e).mp he)
    rw [select_eq_of_verdicts hverdict, select_eq_of_verdicts hverdict',
      mostConstrained_congr fun count => ?_]
    rw [ranked_filter, ranked_filter, h]
  obtain hfail' | ⟨verdict, hverdict⟩ := toOption_select_cases ev node entries'
  · obtain hfail | ⟨verdict, hverdict⟩ := toOption_select_cases ev node entries
    · rw [hfail, hfail']
    · rw [hboth hverdict]
  · rw [hboth fun e he => hverdict e ((hmem e).mpr he)]

end Failing

end MathSpeech.Selection
