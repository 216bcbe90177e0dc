import MathSpeech.Proofs.Selection.Alike
import MathSpeech.XPath.Evaluator

/-!
# Proofs/XPath/Cache — a cache changes no answer

A cache of expressions is **faithful** if it says of each expression what reading it would give.  An
evaluation that starts from a faithful cache comes to the same answer as one that reads every
expression anew, and leaves a faithful cache (`Cached.Gives`).  Since such evaluations can follow
one another, selections and lookups with the cache give the same as without it.
-/

namespace MathSpeech.XPath

/-- **A faithful cache** knows nothing but what reading gives. -/
def Cache.Faithful (cache : Cache) : Prop := ∀ t e, cache.get? t = some e → e = Expr.parse t

theorem Cache.faithful_empty : Cache.Faithful .empty := nofun

/-- Whatever is read may be kept. -/
theorem Cache.Faithful.insert {cache : Cache} (h : cache.Faithful) (t : Text) :
    Cache.Faithful (OrderedMap.insert cache t (Expr.parse t)) := by
  intro t' e he
  rw [OrderedMap.get?_insert] at he
  split at he
  · rename_i heq
    cases he
    rw [heq]
  · exact h t' e he

/-- **What a cached evaluation gives**, from whatever faithful cache it starts. -/
def Cached.Gives (α : Type) (x : Cached α) (y : Except Fault α) : Prop :=
  ∀ cache : Cache, cache.Faithful → ∃ cache' : Cache, cache'.Faithful
    ∧ (x.run.run cache).run = (y, cache')

namespace Cached

section

variable {α β : Type} {x : Cached α} {f : α → Cached β}

/-- **Cached evaluations follow one another** as those without a cache do. -/
theorem Gives.bind {y : Except Fault α} {g : α → Except Fault β} (hx : Gives α x y)
    (hf : ∀ a, y = .ok a → Gives β (f a) (g a)) : Gives β (x >>= f) (y >>= g) := by
  intro cache hcache
  obtain ⟨next, hnext, hrun⟩ := hx cache hcache
  have hstep : ((x >>= f).run.run cache).run
      = ((ExceptT.bindCont f (x.run.run cache).run.1).run (x.run.run cache).run.2).run := rfl
  rw [hstep, hrun]
  cases y with
  | error fault => exact ⟨next, hnext, rfl⟩
  | ok a => exact hf a rfl next hnext

/-- After a step that gives a value, an evaluation goes on with the value. -/
theorem Gives.bind_ok {a : α} {y : Except Fault β} (hx : Gives α x (.ok a))
    (hf : Gives β (f a) y) : Gives β (x >>= f) y :=
  hx.bind (g := fun _ => y) (by rintro _ ⟨⟩; exact hf)

end

/-- What is given where nothing has been read before. -/
theorem Gives.run_empty {α : Type} {x : Cached α} {y : Except Fault α} (h : Gives α x y) :
    (x.run.run .empty).run.1 = y := by
  obtain ⟨_, -, hrun⟩ := h .empty Cache.faithful_empty
  exact congrArg Prod.fst hrun

theorem congruent_gives : Congruent Gives where
  pure _ cache hcache := ⟨cache, hcache, rfl⟩
  bind hx hf := hx.bind fun a _ => hf a

theorem gives_lift {α : Type} (y : Except Fault α) : Gives α (ExceptT.mk (pure y)) y :=
  fun cache hcache => ⟨cache, hcache, rfl⟩

/-- An evaluation that first looks at the cache. -/
theorem run_get_bind {α : Type} (f : Cache → Cached α) (cache : Cache) :
    (get >>= f : Cached α).run.run cache = (f cache).run.run cache := rfl

/-- **Looking an expression up gives what reading it gives.** -/
theorem gives_lookUp (t : Text) : Gives (Option Expr) (lookUp t) (.ok (Expr.parse t)) := by
  intro cache hcache
  rw [lookUp, run_get_bind]
  cases hknown : cache.get? t with
  | some e => exact ⟨cache, hcache, by rw [hcache t e hknown]; rfl⟩
  | none => exact ⟨OrderedMap.insert cache t (Expr.parse t), hcache.insert t, rfl⟩

/-- **The result of an expression** does not depend on the cache. -/
theorem gives_result (s : Setting) (item : Option Item) (expression : Text) :
    Gives (Option Result) (s.cachedResult item expression) (s.result item expression) := by
  refine congruent_gives.bind (gives_lift (s.accept expression)) fun _ => ?_
  refine (gives_lookUp expression).bind_ok ?_
  cases Expr.parse expression with
  | some e => exact gives_lift (s.resultAt item e)
  | none => exact congruent_gives.pure none

/-- **The evaluator with a cache answers like the one without.** -/
theorem alike_evaluator (s : Setting) : Evaluator.Alike Gives s.cachedEvaluator s.evaluator where
  query item expression := by
    simp only [Setting.cachedEvaluator, Setting.evaluator, Setting.evaluatorWith]
    cases s.custom.lookup expression with
    | some f => exact congruent_gives.pure _
    | none =>
      exact congruent_gives.bind (gives_result s item expression) fun _ => congruent_gives.pure _
  holds item expression := by
    simp only [Setting.cachedEvaluator, Setting.evaluator, Setting.evaluatorWith]
    cases s.custom.lookup expression with
    | some f => exact congruent_gives.pure _
    | none =>
      exact congruent_gives.bind (gives_result s item expression) fun _ => congruent_gives.pure _

end Cached

end MathSpeech.XPath
