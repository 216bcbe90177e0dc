import MathSpeech.Selection

/-!
# Proofs/Store/Selected — only a registered key is selected

An evaluator may fail, keep a state or depend on what it was asked before, so a selection is a
computation and not a value.  What can still be said of it is that it **yields** only certain
results: it runs through the values that have a property (`Yields`).  Whatever the evaluator, the
key that a selection yields is one of the entries it was made from (`Selection.yields_select`).
-/

namespace MathSpeech

/-! ## What a computation yields -/

section Yields

variable {m : Type → Type} [Monad m] {α β : Type} {P : α → Prop} {Q : β → Prop}

/-- **All results of a computation have a property**: it runs through the values that have it. -/
def Yields (P : α → Prop) (x : m α) : Prop := ∃ y : m {a // P a}, Subtype.val <$> y = x

variable [LawfulMonad m]

theorem yields_pure {a : α} (h : P a) : Yields P (pure a : m α) := ⟨pure ⟨a, h⟩, map_pure _ _⟩

theorem Yields.map {x : m α} (h : Yields P x) {f : α → β} (hf : ∀ a, P a → Q (f a)) :
    Yields Q (f <$> x) := by
  obtain ⟨y, rfl⟩ := h
  refine ⟨(fun a => ⟨f a.1, hf a.1 a.2⟩) <$> y, ?_⟩
  rw [Functor.map_map, Functor.map_map]

theorem Yields.mono {x : m α} (h : Yields P x) {P' : α → Prop} (hP : ∀ a, P a → P' a) :
    Yields P' x := by
  rw [← id_map x]
  exact h.map hP

theorem Yields.bind {x : m α} (h : Yields P x) {f : α → m β} (hf : ∀ a, P a → Yields Q (f a)) :
    Yields Q (x >>= f) := by
  obtain ⟨y, rfl⟩ := h
  refine ⟨y >>= fun a => (hf a.1 a.2).choose, ?_⟩
  rw [map_bind, bind_map_left]
  exact bind_congr fun a => (hf a.1 a.2).choose_spec

theorem yields_bind {x : m α} {f : α → m β} (hf : ∀ a, Yields Q (f a)) : Yields Q (x >>= f) := by
  have hx : Yields (fun _ => True) x := by
    refine ⟨(⟨·, trivial⟩) <$> x, ?_⟩
    rw [Functor.map_map]
    exact id_map x
  exact hx.bind fun a _ => hf a

/-- Functions that agree on all results of a computation give the same. -/
theorem Yields.map_congr {x : m α} (h : Yields P x) {f g : α → β} (hfg : ∀ a, P a → f a = g a) :
    f <$> x = g <$> x := by
  obtain ⟨y, rfl⟩ := h
  rw [Functor.map_map, Functor.map_map]
  exact congrArg (· <$> y) (funext fun a => hfg a.1 a.2)

end Yields

namespace Selection

theorem mem_of_mostConstrained {entries : List Entry} {e : Entry}
    (h : mostConstrained entries = some e) : e ∈ entries := by
  induction entries generalizing e with
  | nil => cases h
  | cons first rest ih =>
    rw [mostConstrained] at h
    cases hrest : mostConstrained rest with
    | none =>
      rw [hrest] at h
      cases h
      exact List.mem_cons_self
    | some best =>
      simp only [hrest] at h
      split at h
      · cases h
        exact List.mem_cons_of_mem first (ih hrest)
      · cases h
        exact List.mem_cons_self

variable {m : Type → Type} [Monad m] [LawfulMonad m] {ν : Type} [DecidableEq ν]

/-- **Only entries apply.** -/
theorem yields_applicable (ev : Evaluator m ν) (node : Option ν) (entries : List Entry) :
    Yields (· ⊆ entries) (applicable ev node entries) := by
  induction entries with
  | nil => exact yields_pure (List.Subset.refl [])
  | cons e rest ih =>
    refine yields_bind fun holds => ?_
    split
    · exact ih.bind fun es hes => yields_pure (List.cons_subset_cons e hes)
    · exact ih.mono fun es hes => List.subset_cons_of_subset e hes

/-- **Only a registered key is selected**, whatever the evaluator. -/
theorem yields_select (ev : Evaluator m ν) (node : Option ν) (entries : List Entry) :
    Yields (fun key => ∀ k ∈ key, k ∈ entries.map Prod.snd) (select ev node entries) := by
  refine (yields_applicable ev node entries).bind fun es hes => yields_pure fun k hk => ?_
  obtain ⟨e, he, rfl⟩ := Option.map_eq_some_iff.mp hk
  exact List.mem_map_of_mem (hes (mem_of_mostConstrained he))

end Selection

end MathSpeech
