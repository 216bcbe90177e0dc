import MathSpeech.Proofs.Rule.Quotation

/-!
# Proofs/Rule/CutPlaces — the places at which a text is cut

Whether a text is cut at a separator can be told from the whole text at once: the quotes before it
are balanced.  `cutPlaces` lists these places, and `stretches` what lies between them.  The one pass
through a text gives just these stretches (`cuts_eq_stretches`), because a first cut leaves a rest
whose places are those of the whole text, counted from behind the cut; and the search for the next
separator gives what the one pass gives.
-/

namespace MathSpeech.Rule

open Text (joined)

variable {separator : Char} {s t : Text}

/-! ## Places -/

/-- **The places to cut**: those of the separators with balanced quotes before them in the whole
text. -/
def cutPlaces (separator : Char) (t : Text) : List Nat :=
  (List.range t.length).filter fun i => t[i]? = some separator ∧ Balanced (t.take i)

/-- **The stretches of a text** between places, the first one from `start` on.  What stands at the
places is left out. -/
def stretches (t : Text) (start : Nat) : List Nat → List Text
  | [] => [t.drop start]
  | place :: rest => (t.take place).drop start :: stretches t (place + 1) rest

/-- A text that is clear of the separator is not cut. -/
theorem cutPlaces_of_clear (h : Clear separator t) : cutPlaces separator t = [] := by
  refine List.filter_eq_nil_iff.mpr fun i _ => ?_
  rw [decide_eq_true_iff]
  rintro ⟨hat, hbefore⟩
  obtain ⟨hlt, hi⟩ := List.getElem?_eq_some_iff.mp hat
  refine h (t.take i) (t.drop (i + 1)) ?_ hbefore
  rw [← hi, List.getElem_cons_drop, List.take_append_drop]

/-- **Behind a balanced text** the places are those of the rest. -/
theorem cutPlaces_append (hs : Balanced s) (t : Text) :
    cutPlaces separator (s ++ t)
      = cutPlaces separator s ++ (cutPlaces separator t).map (s.length + ·) := by
  rw [cutPlaces, List.length_append, List.range_add, List.filter_append, List.filter_map]
  congr 1
  · refine List.filter_congr fun i hi => ?_
    have hlt : i < s.length := List.mem_range.mp hi
    rw [List.getElem?_append_left hlt, List.take_append_of_le_length (Nat.le_of_lt hlt)]
  · refine congrArg (List.map _) (List.filter_congr fun i _ => ?_)
    rw [Function.comp_apply, List.getElem?_append_right (Nat.le_add_right ..),
      Nat.add_sub_cancel_left, List.take_length_add_append]
    exact decide_eq_decide.mpr (and_congr_right fun _ => balanced_append_iff hs)

/-- A first cut is at the end of what it cuts off. -/
theorem cutPlaces_cut (hq : separator ≠ '"') (hs : Balanced s) (h : Clear separator s) (t : Text) :
    cutPlaces separator (s ++ separator :: t)
      = s.length :: (cutPlaces separator t).map (s.length + 1 + ·) := by
  have hmark : Balanced (s ++ [separator]) :=
    (balanced_append_iff hs).mpr (balanced_of_notMem (by simpa using hq.symm))
  have hplace : cutPlaces separator [separator] = [0] := by
    simp [cutPlaces, List.range_succ]
  rw [List.append_cons, cutPlaces_append hmark, cutPlaces_append hs, cutPlaces_of_clear h, hplace,
    List.length_append]
  rfl

/-- The stretches behind a text, counted from its end. -/
theorem stretches_append (s t : Text) (start : Nat) (places : List Nat) :
    stretches (s ++ t) (s.length + start) (places.map (s.length + ·))
      = stretches t start places := by
  induction places generalizing start with
  | nil => rw [List.map_nil, stretches, stretches, List.drop_length_add_append]
  | cons place rest ih =>
    rw [List.map_cons, stretches, stretches, List.take_length_add_append,
      List.drop_length_add_append, Nat.add_assoc, ih]

/-- **The one pass cuts at the places.** -/
theorem cuts_eq_stretches (hq : separator ≠ '"') :
    ∀ t, cuts separator false t = stretches t 0 (cutPlaces separator t) := by
  refine cuts_induction (motive := fun t ps => ps = stretches t 0 (cutPlaces separator t))
    separator (fun t ht => ?_) fun s rest hs hb ih => ?_
  · rw [cutPlaces_of_clear ht, stretches, List.drop_zero]
  · have hrest : stretches (s ++ separator :: rest) (s.length + 1)
        ((cutPlaces separator rest).map (s.length + 1 + ·))
          = stretches rest 0 (cutPlaces separator rest) := by
      have hbehind := stretches_append (s ++ [separator]) rest 0 (cutPlaces separator rest)
      rwa [List.append_assoc, List.singleton_append, List.length_append, List.length_singleton,
        Nat.add_zero] at hbehind
    rw [cutPlaces_cut hq hb hs, stretches, hrest, ← ih, List.drop_zero, List.take_left]

/-! ## Nothing is lost -/

/-- **The pieces, with the separator between them, are the text.** -/
theorem joined_cuts (separator : Char) :
    ∀ t, joined [separator] (cuts separator false t) = t := by
  refine cuts_induction (motive := fun t ps => joined [separator] ps = t) separator
    (fun t _ => joined_singleton _ t) fun s rest _ _ ih => ?_
  obtain ⟨p, ps, hps⟩ := List.exists_cons_of_ne_nil (cuts_ne_nil separator false rest)
  rw [hps, joined_cons_cons, ← hps, ih, List.singleton_append]

/-- The last piece is left out exactly if it is empty. -/
theorem withoutEmptyEnd_eq (ts : List Text) :
    withoutEmptyEnd ts = if ts.getLast? = some [] then ts.dropLast else ts := by
  induction ts with
  | nil => rfl
  | cons t rest ih =>
    cases rest with
    | nil =>
      simp only [withoutEmptyEnd, List.isEmpty_iff, List.getLast?_singleton, Option.some_inj,
        List.dropLast_singleton]
    | cons u rest =>
      rw [withoutEmptyEnd_cons (List.cons_ne_nil u rest), ih, List.getLast?_cons_cons,
        List.dropLast_cons_cons]
      split <;> rfl

/-- **A text is cut at every separator with balanced quotes before it**, and nowhere else.
Splitting ends for every text.  It fails exactly if the number of quotes is odd, and names the text;
else it gives the stretches between the places to cut, of which the last is left out exactly if it
is empty.  The stretches, with the separator between them, are the text, so that nothing else is
lost; each is balanced, and the separator stands in it inside strings only. -/
theorem split_eq_stretches (hq : separator ≠ '"') (t : Text) :
    let all := stretches t 0 (cutPlaces separator t)
    ((∃ fault, split separator t = .error fault) ↔ t.count '"' % 2 = 1)
      ∧ split separator t
        = (if Balanced t then .ok (if all.getLast? = some [] then all.dropLast else all)
          else .error (.openString t))
      ∧ joined [separator] all = t
      ∧ (Balanced t → ∀ p ∈ all, Balanced p ∧ Clear separator p) := by
  intro all
  have hall : cuts separator false t = all := cuts_eq_stretches hq t
  have hsplit : split separator t
      = (if Balanced t then .ok (if all.getLast? = some [] then all.dropLast else all)
        else .error (.openString t)) := by
    rw [split_eq hq, hall, withoutEmptyEnd_eq]
  refine ⟨?_, hsplit, hall ▸ joined_cuts separator t, fun hb p hp => ?_⟩
  · have hodd : t.count '"' % 2 = 1 ↔ ¬Balanced t := by
      rw [Balanced]
      omega
    rw [hodd, hsplit]
    by_cases hb : Balanced t
    · rw [if_pos hb]
      refine iff_of_false ?_ (not_not_intro hb)
      rintro ⟨fault, hfault⟩
      cases hfault
    · rw [if_neg hb]
      exact iff_of_true ⟨_, rfl⟩ hb
  · obtain ⟨hclear, hbalanced, -⟩ := of_mem_cuts hq t p (hall ▸ hp)
    exact ⟨hbalanced hb, hclear⟩

/-- A text with a separator inside a string, two separators side by side and one at the end. -/
def crowdedText : Text := "[t] \"a;b\";; [n] x;"

theorem split_eq_stretches_crowdedText :
    ';' ≠ '"' ∧ Balanced crowdedText ∧ cutPlaces ';' crowdedText = [9, 10, 17]
      ∧ split ';' crowdedText = .ok ["[t] \"a;b\"", "", " [n] x"] := by
  have hq : ';' ≠ '"' := by decide
  obtain ⟨-, hsplit, -, -⟩ := split_eq_stretches hq crowdedText
  exact ⟨hq, by decide +kernel, by decide +kernel, hsplit.trans (by decide +kernel)⟩

end MathSpeech.Rule
