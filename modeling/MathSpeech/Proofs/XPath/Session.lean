import MathSpeech.Proofs.XPath.Cache
import Mathlib.Data.List.DropRight

/-!
# Proofs/XPath/Session — what a cache knows after a run of calls

An evaluator with a cache is called again and again, at nodes of whatever documents, and its cache
is cleared now and then.  Two things hold of every such **session** (`session_eq`):

* every call is answered as an evaluator with an empty cache would answer it;
* the cache knows just the expressions that were **evaluated** since it was last cleared, readable
  or not, and those answered by a custom query are not among them.

Some expressions are evaluated and yet not kept: one with characters that no document can hold is a
fault before it is looked up (`not_every_evaluated_is_known`), and so is every expression where a
namespace cannot be used.
-/

namespace MathSpeech.XPath

/-- **What an evaluation comes to**, from a cache: its outcome, and the cache after it. -/
def Cached.comesTo {α : Type} (x : Cached α) (cache : Cache) : Except Fault α × Cache :=
  (x.run.run cache).run

/-- The setting with another document. -/
def Setting.over (s : Setting) (d : Document) : Setting :=
  { s with environment := { s.environment with document := d } }

/-! ## Calls -/

/-- **A call** to an evaluator with a cache, at a node of some document. -/
inductive Call
  | evaluate (document : Document) (item : Option Item) (expression : Text)
  | query (document : Document) (item : Option Item) (expression : Text)
  | holds (document : Document) (item : Option Item) (expression : Text)
  | clear

namespace Call

/-- What a call is answered. -/
inductive Answer
  | result (r : Option Result)
  | found (item : Option Item)
  | verdict (b : Bool)
  | done

/-- **The evaluation that a call asks for.** -/
def evaluation (s : Setting) : Call → Cached Answer
  | evaluate d item expression => do return .result (← (s.over d).cachedResult item expression)
  | query d item expression => do return .found (← (s.over d).cachedEvaluator.query item expression)
  | holds d item expression => do
    return .verdict (← (s.over d).cachedEvaluator.holds item expression)
  | clear => do
    set (OrderedMap.empty : Cache)
    return .done

/-- **The answer to a call** from a cache, and the cache after it. -/
def answer (s : Setting) (cache : Cache) (c : Call) : Except Fault Answer × Cache :=
  (c.evaluation s).comesTo cache

/-- The answer of an evaluator that has read nothing before. -/
def freshAnswer (s : Setting) (c : Call) : Except Fault Answer := (c.answer s .empty).1

/-- The expression that a call evaluates; the name of a custom query is none, unless it is evaluated
outright. -/
def expression? (s : Setting) : Call → Option Text
  | evaluate _ _ expression => some expression
  | query _ _ expression | holds _ _ expression =>
    if (s.custom.lookup expression).isSome then none else some expression
  | clear => none

/-- Whether a call leaves in the cache what is there. -/
def keeps : Call → Bool
  | clear => false
  | _ => true

end Call

/-- **A session**: the answers to calls, one after the other, and the cache at the end. -/
def session (s : Setting) (cache : Cache) : List Call → List (Except Fault Call.Answer) × Cache
  | [] => ([], cache)
  | c :: rest =>
    let (answer, next) := c.answer s cache
    (session s next rest).map (answer :: ·) id

/-- **The expressions evaluated since the last clear**, in order. -/
def evaluated (s : Setting) (calls : List Call) : List Text :=
  (calls.rtakeWhile Call.keeps).filterMap (Call.expression? s)

/-! ## The cache after a call -/

namespace Cache

/-- The cache once an expression has been looked up. -/
def remember (cache : Cache) (t : Text) : Cache :=
  match cache.get? t with
  | some _ => cache
  | none => OrderedMap.insert cache t (Expr.parse t)

/-- The cache once an expression has been evaluated in a setting; a fault comes before the look at
the cache. -/
def afterReading (s : Setting) (cache : Cache) (t : Text) : Cache :=
  match s.accept t with
  | .ok _ => cache.remember t
  | .error _ => cache

variable {s : Setting} {cache : Cache}

theorem Faithful.remember (h : cache.Faithful) (t : Text) : (cache.remember t).Faithful := by
  rw [Cache.remember]
  split
  · exact h
  · exact h.insert t

theorem Faithful.afterReading (h : cache.Faithful) (t : Text) :
    (cache.afterReading s t).Faithful := by
  rw [Cache.afterReading]
  split
  · exact h.remember t
  · exact h

theorem mem_keys_remember {t t' : Text} :
    t' ∈ (cache.remember t).keys ↔ t' = t ∨ t' ∈ cache.keys := by
  rw [remember]
  split
  · rename_i e hknown
    have hmem : t ∈ cache.keys := OrderedMap.mem_keys.mpr ⟨e, hknown⟩
    refine (or_iff_right_of_imp ?_).symm
    rintro rfl
    exact hmem
  · rename_i hnew
    have hnotMem : t ∉ cache.keys := by
      intro hmem
      obtain ⟨e, he⟩ := OrderedMap.mem_keys.mp hmem
      rw [hnew] at he
      cases he
    rw [OrderedMap.keys_insert, if_neg hnotMem, List.mem_append, List.mem_singleton, or_comm]

/-- **Evaluating an expression makes it known**, if it is accepted. -/
theorem mem_keys_afterReading {t t' : Text} :
    t' ∈ (cache.afterReading s t).keys ↔ t' = t ∧ s.accept t' = .ok () ∨ t' ∈ cache.keys := by
  rw [afterReading]
  cases haccept : s.accept t with
  | ok u =>
    rw [mem_keys_remember]
    refine or_congr_left (and_iff_left_of_imp ?_).symm
    rintro rfl
    exact haccept
  | error fault =>
    refine (or_iff_right ?_).symm
    rintro ⟨rfl, hok⟩
    rw [haccept] at hok
    cases hok

end Cache

/-- The cache after a call. -/
def Call.after (s : Setting) (cache : Cache) (c : Call) : Cache :=
  if c.keeps then (c.expression? s).elim cache (cache.afterReading s) else .empty

/-! ## Evaluations and what they leave -/

namespace Cached

variable {α β : Type} {x : Cached α} {f : α → Cached β} {cache next : Cache}

theorem comesTo_bind_ok {a : α} (h : x.comesTo cache = (.ok a, next)) :
    comesTo (x >>= f) cache = (f a).comesTo next := by
  have hstep : comesTo (x >>= f) cache
      = ((ExceptT.bindCont f (x.comesTo cache).1).run (x.comesTo cache).2).run := rfl
  rw [hstep, h]
  rfl

theorem comesTo_bind_error {fault : Fault} (h : x.comesTo cache = (.error fault, next)) :
    comesTo (x >>= f) cache = (.error fault, next) := by
  have hstep : comesTo (x >>= f) cache
      = ((ExceptT.bindCont f (x.comesTo cache).1).run (x.comesTo cache).2).run := rfl
  rw [hstep, h]
  rfl

/-- What becomes of a result does not touch the cache. -/
theorem comesTo_bind_pure {y : Except Fault α} (h : x.comesTo cache = (y, next)) (g : α → β) :
    comesTo (x >>= fun a => pure (g a)) cache = (y.map g, next) := by
  cases y with
  | ok a => exact comesTo_bind_ok h
  | error fault => exact comesTo_bind_error h

/-- **Looking an expression up** gives what reading it gives, and it is known from then on. -/
theorem comesTo_lookUp (hcache : cache.Faithful) (t : Text) :
    (lookUp t).comesTo cache = (.ok (Expr.parse t), cache.remember t) := by
  rw [comesTo, lookUp, run_get_bind, Cache.remember]
  cases hknown : cache.get? t with
  | some e =>
    rw [← hcache t e hknown]
    rfl
  | none => rfl

/-- **The result of an expression**, and the cache after it. -/
theorem comesTo_cachedResult (s : Setting) (item : Option Item) (t : Text)
    (hcache : cache.Faithful) :
    (s.cachedResult item t).comesTo cache = (s.result item t, cache.afterReading s t) := by
  rw [Setting.cachedResult, Setting.result, Cache.afterReading]
  cases haccept : s.accept t with
  | error fault => rfl
  | ok u =>
    have haccepted : Cached.comesTo (ExceptT.mk (pure (.ok u))) cache = (.ok u, cache) := rfl
    refine (comesTo_bind_ok haccepted).trans ?_
    refine (comesTo_bind_ok (comesTo_lookUp hcache t)).trans ?_
    cases hparse : Expr.parse t with
    | some e => rfl
    | none => rfl

/-- **A query and a constraint** look at the cache unless the expression names a custom query. -/
theorem comesTo_query (s : Setting) (item : Option Item) (t : Text) (hcache : cache.Faithful) :
    (s.cachedEvaluator.query item t).comesTo cache
      = (s.evaluator.query item t,
          if (s.custom.lookup t).isSome then cache else cache.afterReading s t) := by
  simp only [Setting.cachedEvaluator, Setting.evaluator, Setting.evaluatorWith]
  cases s.custom.lookup t with
  | some f => rfl
  | none => exact comesTo_bind_pure (comesTo_cachedResult s item t hcache) _

theorem comesTo_holds (s : Setting) (item : Option Item) (t : Text) (hcache : cache.Faithful) :
    (s.cachedEvaluator.holds item t).comesTo cache
      = (s.evaluator.holds item t,
          if (s.custom.lookup t).isSome then cache else cache.afterReading s t) := by
  simp only [Setting.cachedEvaluator, Setting.evaluator, Setting.evaluatorWith]
  cases s.custom.lookup t with
  | some f => rfl
  | none => exact comesTo_bind_pure (comesTo_cachedResult s item t hcache) _

end Cached

/-! ## Sessions -/

namespace Call

/-- The answer of an evaluator that keeps nothing. -/
def plainAnswer (s : Setting) : Call → Except Fault Answer
  | evaluate d item t => ((s.over d).result item t).map .result
  | query d item t => ((s.over d).evaluator.query item t).map .found
  | holds d item t => ((s.over d).evaluator.holds item t).map .verdict
  | clear => .ok .done

variable {s : Setting} {cache : Cache}

/-- **One call**: it is answered as if nothing were kept, and it leaves what it has read. -/
theorem answer_eq (hcache : cache.Faithful) (c : Call) :
    c.answer s cache = (c.plainAnswer s, c.after s cache) := by
  have hafter : ∀ t, (if (s.custom.lookup t).isSome then none else some t : Option Text).elim cache
      (cache.afterReading s)
      = if (s.custom.lookup t).isSome then cache else cache.afterReading s t := by
    intro t
    split <;> rfl
  cases c with
  | evaluate d item t =>
    exact Cached.comesTo_bind_pure (Cached.comesTo_cachedResult (s.over d) item t hcache) _
  | query d item t =>
    refine (Cached.comesTo_bind_pure (Cached.comesTo_query (s.over d) item t hcache) _).trans ?_
    exact congrArg (Prod.mk _) (hafter t).symm
  | holds d item t =>
    refine (Cached.comesTo_bind_pure (Cached.comesTo_holds (s.over d) item t hcache) _).trans ?_
    exact congrArg (Prod.mk _) (hafter t).symm
  | clear => rfl

theorem freshAnswer_eq (c : Call) : c.freshAnswer s = c.plainAnswer s :=
  congrArg Prod.fst (answer_eq Cache.faithful_empty c)

theorem faithful_after (hcache : cache.Faithful) (c : Call) : (c.after s cache).Faithful := by
  rw [after]
  split
  · cases c.expression? s with
    | some t => exact hcache.afterReading t
    | none => exact hcache
  · exact Cache.faithful_empty

end Call

/-- **A session answers call by call** as if nothing were kept. -/
theorem session_eq (s : Setting) {cache : Cache} (hcache : cache.Faithful) (calls : List Call) :
    session s cache calls = (calls.map (Call.freshAnswer s), calls.foldl (Call.after s) cache) := by
  induction calls generalizing cache with
  | nil => rfl
  | cons c rest ih =>
    have hstep : session s cache (c :: rest)
        = (session s (c.answer s cache).2 rest).map ((c.answer s cache).1 :: ·) id := rfl
    rw [hstep, c.answer_eq hcache, ih (c.faithful_after hcache), ← c.freshAnswer_eq]
    rfl

/-- Every session leaves a faithful cache. -/
theorem faithful_session (s : Setting) {cache : Cache} (hcache : cache.Faithful)
    (calls : List Call) : (session s cache calls).2.Faithful := by
  rw [session_eq s hcache]
  induction calls generalizing cache with
  | nil => exact hcache
  | cons c rest ih => exact ih (c.faithful_after hcache)

/-- **What a session knows** is what was evaluated since the last clear, as far as it is
accepted. -/
theorem mem_keys_session (s : Setting) (calls : List Call) (t : Text) :
    t ∈ (session s .empty calls).2.keys ↔ t ∈ evaluated s calls ∧ s.accept t = .ok () := by
  rw [session_eq s Cache.faithful_empty]
  -- by the last call, since what comes before a clear does not count
  induction calls using List.reverseRecOn with
  | nil => exact iff_of_false List.not_mem_nil fun h => List.not_mem_nil h.1
  | append_singleton calls c ih =>
    rw [List.foldl_append, List.foldl_cons, List.foldl_nil, Call.after, evaluated,
      List.rtakeWhile_concat]
    split
    · rw [List.filterMap_append, List.mem_append, ← evaluated, or_and_right, ← ih]
      cases hexpression : c.expression? s with
      | some u =>
        rw [List.filterMap_cons_some hexpression, List.filterMap_nil, List.mem_singleton, or_comm]
        exact Cache.mem_keys_afterReading
      | none =>
        rw [List.filterMap_cons_none hexpression, List.filterMap_nil]
        exact (or_iff_left fun h => List.not_mem_nil h.1).symm
    · exact iff_of_false List.not_mem_nil fun h => List.not_mem_nil h.1

/-- A call that evaluates the name of a custom query evaluates it outright. -/
theorem Call.exists_evaluate {s : Setting} {c : Call} {t : Text} (hc : c.expression? s = some t)
    (hcustom : (s.custom.lookup t).isSome) : ∃ d item, c = .evaluate d item t := by
  cases c with
  | evaluate d item u => exact ⟨d, item, by rw [Option.some.inj hc]⟩
  | query d item u | holds d item u =>
    simp only [expression?] at hc
    split at hc
    · cases hc
    · rename_i hplain
      cases hc
      exact absurd hcustom hplain
  | clear => cases hc

/-- **A cache changes no answer, and knows what was evaluated.**  In a session from an empty cache
every call gets the answer that it gets from an evaluator that has read nothing before, be it a
fault.  At the end, and so at every point, the cache has one entry for each expression evaluated
since the last clear, readable or not, and no others; the entry tells what reading the expression
gives.  So there is none for an expression that only custom queries have answered since then.  Left
out are the expressions that are not accepted, a fault before they are looked up: those that no
document could hold, and all if the setting has a namespace that cannot be used. -/
theorem session_transparent (s : Setting) (calls : List Call) :
    let (answers, cache) := session s .empty calls
    answers = calls.map (Call.freshAnswer s)
      ∧ cache.keys.Nodup
      ∧ (∀ t, t ∈ cache.keys ↔ t ∈ evaluated s calls ∧ s.accept t = .ok ())
      ∧ (∀ t e, cache.get? t = some e → e = Expr.parse t)
      ∧ ∀ t, (s.custom.lookup t).isSome →
        (∀ d item, .evaluate d item t ∉ calls.rtakeWhile Call.keeps) → t ∉ cache.keys := by
  refine ⟨?_, (session s .empty calls).2.nodup, mem_keys_session s calls,
    faithful_session s Cache.faithful_empty calls, ?_⟩
  · rw [session_eq s Cache.faithful_empty]
  · intro t hcustom hbare hmem
    have hevaluated : t ∈ evaluated s calls := ((mem_keys_session s calls t).mp hmem).1
    obtain ⟨c, hc, hexpression⟩ := List.mem_filterMap.mp hevaluated
    obtain ⟨d, item, rfl⟩ := Call.exists_evaluate hexpression hcustom
    exact hbare d item hc

/-- The setting of an evaluator for a document with one empty element. -/
def emptyElementSetting : Setting where
  environment := { document := ⟨[.element (.plain "mi") [] [] []]⟩, spaces := .empty }
  custom := .customQueries

/-- **Not every expression that is evaluated is kept.**  One that cannot be read is; but a control
character makes its evaluation a fault, and nothing is known of it. -/
theorem not_every_evaluated_is_known :
    let element : Option Item := some (.node [.child 0])
    let document := emptyElementSetting.environment.document
    let calls : List Call := [.evaluate document element "mi[", .evaluate document element "\x01"]
    let (answers, cache) := session emptyElementSetting .empty calls
    answers = [.ok (.result none), .error .forbiddenCharacter]
      ∧ evaluated emptyElementSetting calls = ["mi[".toList, "\x01".toList]
      ∧ cache.keys = ["mi[".toList] :=
  ⟨rfl, rfl, rfl⟩

end MathSpeech.XPath
