import MathSpeech.Proofs.Text.Trim
import MathSpeech.Rule.Splitting

/-!
# Proofs/Rule/Quotation — a text is cut where its quotes are balanced

A place of a text lies **outside its strings** if the quotes before it are balanced.  `Clear` says
that a character never stands there; `cuts` reads a text once, from left to right, and cuts at every
separator that does.  Main statements:

* `split_eq` — looking for the next separator and skipping the string around it, as `split` does, is
  that one pass;
* `of_mem_cuts` — a piece is balanced, clear of the separator, and clear of whatever the text is;
* `cuts_joined` — clear and balanced pieces are read back from the text that joins them.
-/

namespace MathSpeech.Rule

open Text (joined)

variable {mark separator c : Char} {inside : Bool} {s t : Text}

/-! ## Inside and outside

One bit tells whether a place is inside a string, and a quote flips it.  The bit before a text is
carried along, so that a fact about a text in the middle of another needs no prefix. -/

/-- The bit behind a character. -/
def toggle (inside : Bool) (c : Char) : Bool := if c = '"' then !inside else inside

/-- **The bit behind a text**, if `inside` is the bit before it. -/
def insideAfter (inside : Bool) (t : Text) : Bool := t.foldl toggle inside

@[simp] theorem insideAfter_nil : insideAfter inside [] = inside := rfl

@[simp] theorem insideAfter_cons :
    insideAfter inside (c :: t) = insideAfter (toggle inside c) t := rfl

@[simp] theorem insideAfter_append :
    insideAfter inside (s ++ t) = insideAfter (insideAfter inside s) t := List.foldl_append

@[simp] theorem toggle_quote : toggle inside '"' = !inside := if_pos rfl

theorem toggle_of_ne (h : c ≠ '"') : toggle inside c = inside := if_neg h

/-- A text without quotes stays on its side. -/
theorem insideAfter_of_notMem (h : '"' ∉ t) : insideAfter inside t = inside := by
  induction t with
  | nil => rfl
  | cons c t ih =>
    rw [List.mem_cons, not_or] at h
    rw [insideAfter_cons, toggle_of_ne (Ne.symm h.1), ih h.2]

theorem insideAfter_of_blank (h : Text.Blank t) : insideAfter inside t = inside :=
  insideAfter_of_notMem (h.notMem (by decide))

/-- **The bit counts quotes**: it changes over a text exactly when that is not balanced. -/
theorem insideAfter_eq (inside : Bool) (t : Text) :
    insideAfter inside t = if Balanced t then inside else !inside := by
  induction t generalizing inside with
  | nil => rfl
  | cons c t ih =>
    rw [insideAfter_cons, ih]
    by_cases hc : c = '"'
    · subst hc
      have hflip : Balanced ('"' :: t) ↔ ¬ Balanced t := by
        simp only [Balanced, List.count_cons_self]
        omega
      simp only [toggle_quote, hflip, Bool.not_not, ite_not]
    · have hkeep : Balanced (c :: t) ↔ Balanced t := by
        simp only [Balanced, List.count_cons_of_ne hc]
      rw [toggle_of_ne hc]
      simp only [hkeep]

theorem balanced_iff : Balanced t ↔ insideAfter false t = false := by
  rw [insideAfter_eq]
  split <;> simp_all

theorem insideAfter_of_balanced (h : Balanced t) : insideAfter inside t = inside := by
  rw [insideAfter_eq, if_pos h]

@[simp] theorem balanced_nil : Balanced [] := rfl

theorem balanced_of_notMem (h : '"' ∉ t) : Balanced t := balanced_iff.mpr (insideAfter_of_notMem h)

theorem balanced_of_blank (h : Text.Blank t) : Balanced t :=
  balanced_iff.mpr (insideAfter_of_blank h)

/-- Behind a balanced text it is the rest that counts. -/
theorem balanced_append_iff (hs : Balanced s) : Balanced (s ++ t) ↔ Balanced t := by
  rw [balanced_iff, balanced_iff, insideAfter_append, insideAfter_of_balanced hs]

/-- …and in front of one, the beginning. -/
theorem balanced_append_iff_left (ht : Balanced t) : Balanced (s ++ t) ↔ Balanced s := by
  rw [balanced_iff, balanced_iff, insideAfter_append, insideAfter_of_balanced ht]

/-- Trimming takes no quote away. -/
theorem insideAfter_trim (inside : Bool) (t : Text) :
    insideAfter inside t.trim = insideAfter inside t := by
  obtain ⟨l, r, hl, hr, ht⟩ := t.exists_eq_trim
  have h := congrArg (insideAfter inside) ht
  rw [insideAfter_append, insideAfter_append, insideAfter_of_blank hr,
    insideAfter_of_blank hl] at h
  exact h.symm

theorem balanced_trim_iff : Balanced t.trim ↔ Balanced t := by
  rw [balanced_iff, balanced_iff, insideAfter_trim]

/-! ## Characters that stay inside -/

/-- **Clear of a mark**: wherever the mark stands, the quotes before it are not balanced. -/
def Clear (mark : Char) (t : Text) : Prop :=
  ∀ before after, t = before ++ mark :: after → ¬ Balanced before

/-- The same from either side: `inside` is the bit before the text. -/
def Sheltered (mark : Char) : Bool → Text → Prop
  | _, [] => True
  | inside, c :: rest => (c = mark → inside = true) ∧ Sheltered mark (toggle inside c) rest

@[simp] theorem sheltered_nil : Sheltered mark inside [] := trivial

@[simp] theorem sheltered_cons :
    Sheltered mark inside (c :: t)
      ↔ (c = mark → inside = true) ∧ Sheltered mark (toggle inside c) t := Iff.rfl

@[simp] theorem sheltered_append :
    Sheltered mark inside (s ++ t)
      ↔ Sheltered mark inside s ∧ Sheltered mark (insideAfter inside s) t := by
  induction s generalizing inside with
  | nil => simp only [List.nil_append, sheltered_nil, insideAfter_nil, true_and]
  | cons c s ih => simp only [List.cons_append, sheltered_cons, insideAfter_cons, ih, and_assoc]

theorem sheltered_iff :
    Sheltered mark inside t
      ↔ ∀ before after, t = before ++ mark :: after → insideAfter inside before = true := by
  constructor
  · rintro h before after rfl
    exact (sheltered_append.mp h).2.1 rfl
  · induction t generalizing inside with
    | nil => exact fun _ => trivial
    | cons c t ih =>
      intro h
      refine ⟨fun hc => h [] t (by rw [hc]; rfl), ih fun before after ht => ?_⟩
      exact h (c :: before) after (by rw [ht]; rfl)

theorem clear_iff : Clear mark t ↔ Sheltered mark false t := by
  rw [sheltered_iff]
  simp only [Clear, balanced_iff, Bool.not_eq_false]

theorem sheltered_of_notMem (h : mark ∉ t) : Sheltered mark inside t :=
  sheltered_iff.mpr fun _ _ ht => absurd (by rw [ht]; simp) h

theorem clear_of_notMem (h : mark ∉ t) : Clear mark t := clear_iff.mpr (sheltered_of_notMem h)

/-- Inside a string a mark may stand anywhere up to the closing quote. -/
theorem sheltered_inside (h : '"' ∉ t) : Sheltered mark true t :=
  sheltered_iff.mpr fun before after ht => insideAfter_of_notMem fun hm =>
    h (by rw [ht]; exact List.mem_append_left _ hm)

theorem clear_append_iff (hs : Balanced s) : Clear mark (s ++ t) ↔ Clear mark s ∧ Clear mark t := by
  rw [clear_iff, clear_iff, clear_iff, sheltered_append, insideAfter_of_balanced hs]

/-- Trimming moves no mark out of a string. -/
theorem Sheltered.trim (h : Sheltered mark inside t) : Sheltered mark inside t.trim := by
  obtain ⟨l, r, hl, hr, ht⟩ := t.exists_eq_trim
  rw [ht, sheltered_append, sheltered_append, insideAfter_of_blank hl] at h
  exact h.1.2

theorem Clear.trim (h : Clear mark t) : Clear mark t.trim := clear_iff.mpr (clear_iff.mp h).trim

/-! ## One pass -/

/-- **The pieces between the separators outside strings**, in one pass; there is at least one. -/
def cuts (separator : Char) : Bool → Text → List Text
  | _, [] => [[]]
  | inside, c :: rest =>
    if c = separator ∧ inside = false then [] :: cuts separator false rest
    else (cuts separator (toggle inside c) rest).modifyHead (c :: ·)

theorem cuts_ne_nil (separator : Char) (inside : Bool) (t : Text) :
    cuts separator inside t ≠ [] := by
  induction t generalizing inside with
  | nil => exact List.cons_ne_nil _ _
  | cons c t ih =>
    rw [cuts]
    split
    · exact List.cons_ne_nil _ _
    · rw [ne_eq, List.modifyHead_eq_nil_iff]
      exact ih _

/-- A beginning in which the separator stays inside belongs to the first piece. -/
theorem cuts_append (h : Sheltered separator inside s) (t : Text) :
    cuts separator inside (s ++ t)
      = (cuts separator (insideAfter inside s) t).modifyHead (s ++ ·) := by
  induction s generalizing inside with
  | nil => exact (congrFun List.modifyHead_id _).symm
  | cons c s ih =>
    obtain ⟨hc, hs⟩ := h
    have hstep : ¬ (c = separator ∧ inside = false) := fun ⟨he, hi⟩ =>
      Bool.false_ne_true (hi.symm.trans (hc he))
    rw [List.cons_append, cuts, if_neg hstep, ih hs, List.modifyHead_modifyHead,
      insideAfter_cons]
    rfl

/-- **A text that is clear of the separator is one piece.** -/
theorem cuts_of_sheltered (h : Sheltered separator inside t) : cuts separator inside t = [t] := by
  have := cuts_append h []
  rwa [List.append_nil, cuts, List.modifyHead_cons, List.append_nil] at this

theorem cuts_separator (t : Text) :
    cuts separator false (separator :: t) = [] :: cuts separator false t := if_pos ⟨rfl, rfl⟩

/-- **A separator outside strings ends a piece.** -/
theorem cuts_cut (hs : Balanced s) (h : Clear separator s) (t : Text) :
    cuts separator false (s ++ separator :: t) = s :: cuts separator false t := by
  rw [cuts_append (clear_iff.mp h), insideAfter_of_balanced hs, cuts_separator,
    List.modifyHead_cons, List.append_nil]

/-- A text shelters the separator, or there is a first one outside its strings. -/
theorem sheltered_or_exists_cut (separator : Char) (inside : Bool) (t : Text) :
    Sheltered separator inside t
      ∨ ∃ s rest, t = s ++ separator :: rest ∧ Sheltered separator inside s
          ∧ insideAfter inside s = false := by
  induction t generalizing inside with
  | nil => exact .inl trivial
  | cons c t ih =>
    by_cases hc : c = separator ∧ inside = false
    · obtain ⟨rfl, rfl⟩ := hc
      exact .inr ⟨[], t, rfl, trivial, rfl⟩
    · have hsafe : c = separator → inside = true := fun he => by
        by_contra hi
        exact hc ⟨he, Bool.eq_false_iff.mpr hi⟩
      rcases ih (toggle inside c) with h | ⟨s, rest, rfl, hs, hi⟩
      · exact .inl ⟨hsafe, h⟩
      · exact .inr ⟨c :: s, rest, rfl, ⟨hsafe, hs⟩, hi⟩

/-- **Induction along the cuts**: a text clear of the separator is its only piece, and a first cut
leaves a shorter text. -/
theorem cuts_induction {motive : Text → List Text → Prop} (separator : Char)
    (last : ∀ t, Clear separator t → motive t [t])
    (cut : ∀ s rest, Clear separator s → Balanced s →
      motive rest (cuts separator false rest) →
        motive (s ++ separator :: rest) (s :: cuts separator false rest)) :
    ∀ t, motive t (cuts separator false t) := by
  intro t
  induction hn : t.length using Nat.strongRecOn generalizing t with
  | ind n ih =>
    rcases sheltered_or_exists_cut separator false t with h | ⟨s, rest, rfl, hs, hb⟩
    · rw [cuts_of_sheltered h]
      exact last t (clear_iff.mpr h)
    · have hlt : rest.length < n := by
        rw [← hn, List.length_append, List.length_cons]
        omega
      have hclear := clear_iff.mpr hs
      have hbal := balanced_iff.mpr hb
      rw [cuts_cut hbal hclear]
      exact cut s rest hclear hbal (ih rest.length hlt rest rfl)

/-- The rest behind a cut inherits from the text. -/
theorem balanced_of_cut (hq : separator ≠ '"') (hs : Balanced s) :
    Balanced (s ++ separator :: t) ↔ Balanced t := by
  rw [balanced_append_iff hs, balanced_iff, balanced_iff, insideAfter_cons, toggle_of_ne hq]

theorem Clear.of_cut (hq : separator ≠ '"') (hs : Balanced s)
    (h : Clear mark (s ++ separator :: t)) : Clear mark t := by
  have := ((clear_append_iff hs).mp h).2
  rw [clear_iff, sheltered_cons, toggle_of_ne hq] at this
  exact clear_iff.mpr this.2

/-- **What a piece inherits**: it is clear of the separator, balanced if the text is, and clear of
every mark of which the text is. -/
theorem of_mem_cuts (hq : separator ≠ '"') :
    ∀ t, ∀ p ∈ cuts separator false t,
      Clear separator p ∧ (Balanced t → Balanced p) ∧ ∀ mark, Clear mark t → Clear mark p := by
  refine cuts_induction (motive := fun t ps => ∀ p ∈ ps,
    Clear separator p ∧ (Balanced t → Balanced p) ∧ ∀ mark, Clear mark t → Clear mark p)
    separator ?_ ?_
  · intro t ht p hp
    obtain rfl := List.mem_singleton.mp hp
    exact ⟨ht, id, fun _ => id⟩
  · intro s rest hs hb ih p hp
    rcases List.mem_cons.mp hp with rfl | hp
    · exact ⟨hs, fun _ => hb, fun mark h => ((clear_append_iff hb).mp h).1⟩
    · obtain ⟨h₁, h₂, h₃⟩ := ih p hp
      exact ⟨h₁, fun h => h₂ ((balanced_of_cut hq hb).mp h), fun mark h => h₃ mark (h.of_cut hq hb)⟩

/-! ## Joining -/

@[simp] theorem joined_singleton (sep p : Text) : joined sep [p] = p := List.intercalate_singleton

theorem joined_cons_cons (sep p q : Text) (ps : List Text) :
    joined sep (p :: q :: ps) = p ++ (sep ++ joined sep (q :: ps)) := by
  rw [joined, joined, List.intercalate_cons_cons, List.append_assoc]

/-- Balanced pieces, joined by a balanced text, are balanced. -/
theorem balanced_joined {sep : Text} (hsep : Balanced sep) {ps : List Text}
    (h : ∀ p ∈ ps, Balanced p) : Balanced (joined sep ps) := by
  induction ps with
  | nil => rfl
  | cons p ps ih =>
    have hp := h p List.mem_cons_self
    cases ps with
    | nil => rwa [joined_singleton]
    | cons q ps =>
      rw [joined_cons_cons, balanced_append_iff hp, balanced_append_iff hsep]
      exact ih fun r hr => h r (List.mem_cons_of_mem p hr)

/-- …and clear of a mark, if they and what joins them are. -/
theorem clear_joined {sep : Text} (hsep : Balanced sep) (hmark : Clear mark sep) {ps : List Text}
    (h : ∀ p ∈ ps, Balanced p ∧ Clear mark p) : Clear mark (joined sep ps) := by
  induction ps with
  | nil => exact clear_of_notMem List.not_mem_nil
  | cons p ps ih =>
    obtain ⟨hp, hclear⟩ := h p List.mem_cons_self
    cases ps with
    | nil => rwa [joined_singleton]
    | cons q ps =>
      rw [joined_cons_cons, clear_append_iff hp, clear_append_iff hsep]
      exact ⟨hclear, hmark, ih fun r hr => h r (List.mem_cons_of_mem p hr)⟩

/-- **Joined pieces are cut apart again**, each but the first behind the space it was joined
with. -/
theorem cuts_joined (hb : separator ≠ ' ') {p : Text} {ps : List Text}
    (h : ∀ q ∈ p :: ps, Balanced q ∧ Clear separator q) :
    cuts separator false (joined [separator, ' '] (p :: ps)) = p :: ps.map (' ' :: ·) := by
  induction ps generalizing p with
  | nil =>
    rw [joined_singleton, cuts_of_sheltered (clear_iff.mp (h p List.mem_cons_self).2),
      List.map_nil]
  | cons q ps ih =>
    obtain ⟨hp, hclear⟩ := h p List.mem_cons_self
    have hspace : Sheltered separator false [' '] := ⟨fun he => absurd he.symm hb, trivial⟩
    have hjoined : joined [separator, ' '] (p :: q :: ps)
        = p ++ separator :: ([' '] ++ joined [separator, ' '] (q :: ps)) :=
      joined_cons_cons [separator, ' '] p q ps
    rw [hjoined, cuts_cut hp hclear, cuts_append hspace,
      show insideAfter false [' '] = false from rfl,
      ih fun r hr => h r (List.mem_cons_of_mem p hr)]
    rfl

/-! ## Looking for the next separator

`pieces?` does not read characters one by one: it looks for the next separator, and behind a quote
that is open there for the closing one.  An empty last piece is left out. -/

/-- The pieces without an empty one at the end. -/
def withoutEmptyEnd : List Text → List Text
  | [] => []
  | [t] => if t.isEmpty then [] else [t]
  | t :: u :: rest => t :: withoutEmptyEnd (u :: rest)

theorem withoutEmptyEnd_cons {ts : List Text} (h : ts ≠ []) :
    withoutEmptyEnd (s :: ts) = s :: withoutEmptyEnd ts := by
  cases ts with
  | nil => exact absurd rfl h
  | cons u rest => rfl

theorem withoutEmptyEnd_of_ne_nil {ts : List Text} (h : ∀ t ∈ ts, t ≠ []) :
    withoutEmptyEnd ts = ts := by
  induction ts with
  | nil => rfl
  | cons t ts ih =>
    cases ts with
    | nil => exact if_neg (by simpa using h t List.mem_cons_self)
    | cons u rest =>
      rw [withoutEmptyEnd_cons (List.cons_ne_nil u rest),
        ih fun v hv => h v (List.mem_cons_of_mem t hv)]

theorem mem_of_mem_withoutEmptyEnd {ts : List Text} (h : t ∈ withoutEmptyEnd ts) : t ∈ ts := by
  induction ts with
  | nil => exact h
  | cons u ts ih =>
    cases ts with
    | nil =>
      rw [withoutEmptyEnd] at h
      split at h
      · exact absurd h List.not_mem_nil
      · exact h
    | cons v rest =>
      rw [withoutEmptyEnd_cons (List.cons_ne_nil v rest)] at h
      rcases List.mem_cons.mp h with rfl | h
      · exact List.mem_cons_self
      · exact List.mem_cons_of_mem u (ih h)

/-- A string left open by `s` is closed by the next quote. -/
theorem insideAfter_of_open (hb : ¬Balanced s) : insideAfter false s = true := by
  rw [insideAfter_eq, if_neg hb, Bool.not_false]

theorem balanced_closed (hb : ¬Balanced s) (hu : '"' ∉ u) : Balanced (s ++ u ++ ['"']) := by
  rw [balanced_iff, insideAfter_append, insideAfter_append, insideAfter_of_open hb,
    insideAfter_of_notMem hu]
  rfl

theorem sheltered_closed (hs : separator ∉ s) (hb : ¬Balanced s) (hu : '"' ∉ u) :
    Sheltered separator false (s ++ u ++ ['"']) := by
  rw [sheltered_append, sheltered_append, insideAfter_append, insideAfter_of_open hb,
    insideAfter_of_notMem hu]
  exact ⟨⟨sheltered_of_notMem hs, sheltered_inside hu⟩, ⟨fun _ => rfl, trivial⟩⟩

/-- **The search finds the pieces of the one pass.** -/
theorem pieces?_eq (hq : separator ≠ '"') (carried rest : Text) :
    pieces? separator carried rest
      = if Balanced rest then
          some (withoutEmptyEnd ((cuts separator false rest).modifyHead (carried ++ ·)))
        else none := by
  fun_induction pieces? separator carried rest with
  | case1 carried rest h =>
    obtain rfl := List.isEmpty_iff.mp h
    rw [if_pos balanced_nil, cuts, List.modifyHead_cons, List.append_nil, withoutEmptyEnd]
  | case2 carried rest h hc hb =>
    have hne : carried ++ rest ≠ [] := fun he =>
      h (List.isEmpty_iff.mpr (List.append_eq_nil_iff.mp he).2)
    rw [if_pos hb, cuts_of_sheltered (sheltered_of_notMem (Text.cut_eq_none_iff.mp hc)),
      List.modifyHead_cons, withoutEmptyEnd_of_ne_nil (by simpa using hne)]
  | case3 carried rest h hc hb => rw [if_neg hb]
  | case4 carried rest h before after hc hb ih =>
    have hclear : Clear separator before := clear_of_notMem (Text.notMem_of_cut hc)
    rw [Text.eq_of_cut hc, cuts_cut hb hclear, List.modifyHead_cons,
      withoutEmptyEnd_cons (cuts_ne_nil separator false after), ih]
    simp only [balanced_of_cut hq hb]
    split
    · rw [Option.map_some, show (fun x : Text => [] ++ x) = id from rfl, List.modifyHead_id]
      rfl
    · rfl
  | case5 carried rest h before after hc hb hclose =>
    -- no quote follows, so the string around the separator stays open
    have hquote : Balanced (separator :: after) :=
      balanced_of_notMem (Text.cut_eq_none_iff.mp hclose)
    rw [Text.eq_of_cut hc, if_neg fun h => hb ((balanced_append_iff_left hquote).mp h)]
  | case6 carried rest h before after hc hb inside after' hclose ih =>
    -- `skipped` ends with the quote that closes the string around the separator
    obtain ⟨skipped, hskipped⟩ : ∃ w, w = before ++ inside ++ ['"'] := ⟨_, rfl⟩
    have hin : '"' ∉ inside := Text.notMem_of_cut hclose
    have hbal : Balanced skipped := hskipped ▸ balanced_closed hb hin
    have hshelter : Sheltered separator false skipped :=
      hskipped ▸ sheltered_closed (Text.notMem_of_cut hc) hb hin
    have hrest : rest = skipped ++ after' := by
      rw [Text.eq_of_cut hc, Text.eq_of_cut hclose, hskipped]
      simp only [List.append_assoc, List.singleton_append]
    have hcarried : carried ++ before ++ inside ++ ['"'] = carried ++ skipped := by
      rw [hskipped]
      simp only [List.append_assoc]
    rw [ih, hcarried, hrest, cuts_append hshelter, insideAfter_of_balanced hbal,
      List.modifyHead_modifyHead]
    simp only [balanced_append_iff hbal, Function.comp_def, List.append_assoc]

/-- **Splitting is one pass**: it fails exactly if a string is not closed, and else gives the pieces
between the separators outside strings, but for an empty one at the end. -/
theorem split_eq (hq : separator ≠ '"') (t : Text) :
    split separator t
      = if Balanced t then .ok (withoutEmptyEnd (cuts separator false t))
        else .error (.openString t) := by
  have h := pieces?_eq hq [] t
  rw [show (fun x : Text => [] ++ x) = id from rfl, List.modifyHead_id] at h
  rw [split, h]
  by_cases hb : Balanced t
  · rw [if_pos hb, if_pos hb]
    rfl
  · rw [if_neg hb, if_neg hb]

/-- **The first piece** begins the text, and if a text follows, it begins with the separator. -/
theorem exists_first_piece (separator : Char) (ht : t ≠ []) :
    ∃ p rest, t = p ++ rest ∧ (rest = [] ∨ ∃ u, rest = separator :: u)
      ∧ p ∈ cuts separator false t
      ∧ (withoutEmptyEnd (cuts separator false t)).headD [] = p := by
  rcases sheltered_or_exists_cut separator false t with h | ⟨s, rest, rfl, hs, hb⟩
  · refine ⟨t, [], (List.append_nil t).symm, .inl rfl, ?_, ?_⟩
    · rw [cuts_of_sheltered h]
      exact List.mem_singleton_self t
    · rw [cuts_of_sheltered h, withoutEmptyEnd_of_ne_nil (by simpa using ht), List.headD_cons]
  · have hcut := cuts_cut (balanced_iff.mpr hb) (clear_iff.mpr hs) rest
    refine ⟨s, separator :: rest, rfl, .inr ⟨rest, rfl⟩, ?_, ?_⟩
    · rw [hcut]
      exact List.mem_cons_self
    · rw [hcut, withoutEmptyEnd_cons (cuts_ne_nil separator false rest), List.headD_cons]

theorem split_of_balanced (hq : separator ≠ '"') (ht : Balanced t) :
    split separator t = .ok (withoutEmptyEnd (cuts separator false t)) := by
  rw [split_eq hq, if_pos ht]

/-- A split that succeeds gives pieces of the one pass of a balanced text. -/
theorem of_split (hq : separator ≠ '"') {ps : List Text} (h : split separator t = .ok ps) :
    Balanced t ∧ ps = withoutEmptyEnd (cuts separator false t) := by
  rw [split_eq hq] at h
  split at h
  case isTrue ht => exact ⟨ht, (Except.ok.inj h).symm⟩
  case isFalse => exact nomatch h

end MathSpeech.Rule
