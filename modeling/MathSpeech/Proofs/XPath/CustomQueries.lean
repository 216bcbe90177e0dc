import MathSpeech.Proofs.XPath.Session

/-!
# Proofs/XPath/CustomQueries — custom queries and the expressions beside them

Custom queries are added under names that all begin alike, and a name without that prefix is
refused.  So whatever is added, in whatever order, a text is the name of a query only if it has the
prefix, and then of the one **added last** under it (`NamedFunctions.lookup_addAll`).  An evaluator
therefore answers every other text as if there were no custom queries at all
(`custom_queries_capture_no_expression`).
-/

namespace MathSpeech

namespace NamedFunctions

variable {α : Type}

/-- The store after functions are added one after the other, some of them in vain. -/
def addAll (s : NamedFunctions α) (fs : List (Text × α)) : NamedFunctions α :=
  fs.foldl (fun s f => (s.add f.1 f.2).1) s

/-- **The function added last** under exactly this name. -/
def lastAdded? (fs : List (Text × α)) (name : Text) : Option α :=
  (fs.reverse.find? fun f => f.1 = name).map Prod.snd

theorem lastAdded?_concat (fs : List (Text × α)) (f : Text × α) (name : Text) :
    lastAdded? (fs ++ [f]) name = if f.1 = name then some f.2 else lastAdded? fs name := by
  rw [lastAdded?, List.reverse_append, List.reverse_singleton, List.singleton_append,
    List.find?_cons]
  split
  · rename_i hname
    rw [if_pos (of_decide_eq_true hname), Option.map_some]
  · rename_i hname
    rw [if_neg (of_decide_eq_false hname), lastAdded?]

theorem addAll_concat (s : NamedFunctions α) (fs : List (Text × α)) (f : Text × α) :
    s.addAll (fs ++ [f]) = ((s.addAll fs).add f.1 f.2).1 := by
  rw [addAll, List.foldl_append]
  rfl

/-- Nothing that is added changes what is admitted. -/
theorem start_add (s : NamedFunctions α) (name : Text) (f : α) :
    (s.add name f).1.start = s.start := by
  rw [add]
  split <;> rfl

theorem start_addAll (s : NamedFunctions α) (fs : List (Text × α)) :
    (s.addAll fs).start = s.start := by
  induction fs using List.reverseRecOn with
  | nil => rfl
  | append_singleton fs f ih => rw [addAll_concat, start_add, ih]

/-- **Looking up after adding**: an admitted name leads to what was added, a refused one nowhere
new. -/
theorem lookup_add (s : NamedFunctions α) (name : Text) (f : α) (name' : Text) :
    (s.add name f).1.lookup name'
      = if s.admits name' ∧ name = name' then some f else s.lookup name' := by
  rw [add]
  split
  · rename_i hadmits
    rw [lookup, OrderedMap.get?_insert]
    refine ite_congr (propext ?_) (fun _ => rfl) fun _ => rfl
    refine (and_iff_right_of_imp ?_).symm
    rintro rfl
    exact hadmits
  · rename_i hrefused
    refine (if_neg ?_).symm
    rintro ⟨hadmits, rfl⟩
    exact hrefused hadmits

/-- **A name leads to the function added last under it**, if the store admits it. -/
theorem lookup_addAll (s : NamedFunctions α) (fs : List (Text × α)) (name : Text) :
    (s.addAll fs).lookup name
      = if s.admits name then (lastAdded? fs name).or (s.lookup name) else s.lookup name := by
  induction fs using List.reverseRecOn with
  | nil => exact (ite_self _).symm
  | append_singleton fs f ih =>
    have hadmits : (s.addAll fs).admits name = s.admits name := by
      rw [admits, admits, start_addAll]
    rw [addAll_concat, lookup_add, hadmits, ih, lastAdded?_concat]
    by_cases hname : f.1 = name <;> by_cases hstart : s.admits name = true <;>
      simp [hname, hstart]

end NamedFunctions

namespace XPath

/-! ## Answers -/

/-- The answers to a text as a query and as a constraint, from a cache. -/
def Setting.answersFrom (s : Setting) (cache : Cache) (item : Option Item) (t : Text) :
    Except Fault (Option Item) × Except Fault Bool :=
  (((s.cachedEvaluator.query item t).comesTo cache).1,
    ((s.cachedEvaluator.holds item t).comesTo cache).1)

/-- The answers that a custom query gives: the first of its nodes, and whether it has any. -/
def CustomQuery.answers (f : CustomQuery) (item : Option Item) :
    Except Fault (Option Item) × Except Fault Bool :=
  (.ok ((f item).head?.bind id), .ok !(f item).isEmpty)

namespace Setting

variable {s : Setting} {t : Text}

/-- **The name of a custom query** is answered by the query. -/
theorem answersFrom_of_some {f : CustomQuery} (h : s.custom.lookup t = some f) (cache : Cache)
    (item : Option Item) : s.answersFrom cache item t = f.answers item := by
  simp only [answersFrom, cachedEvaluator, evaluatorWith, h]
  rfl

/-- **Any other text** is answered by what it is as an expression. -/
theorem answersFrom_of_none (h : s.custom.lookup t = none) {cache : Cache}
    (hcache : cache.Faithful) (item : Option Item) :
    s.answersFrom cache item t = ((s.result item t).map fun r => r.bind Result.first?,
      (s.result item t).map fun r => (r.map Result.holds).getD false) := by
  rw [answersFrom, Cached.comesTo_query s item t hcache, Cached.comesTo_holds s item t hcache]
  simp only [evaluator, evaluatorWith, h]
  cases s.result item t <;> rfl

end Setting

/-! ## Custom queries and expressions -/

/-- The prefix of the names of custom queries. -/
def queryStart : Text := "CQF"

theorem lookup_customQueries (fs : List (Text × CustomQuery)) (t : Text) :
    (NamedFunctions.customQueries.addAll fs).lookup t
      = if queryStart <+: t then NamedFunctions.lastAdded? fs t else none := by
  have hnone : (NamedFunctions.customQueries : NamedFunctions CustomQuery).lookup t = none := rfl
  have hadmits : (NamedFunctions.customQueries : NamedFunctions CustomQuery).admits t = true
      ↔ queryStart <+: t := List.isPrefixOf_iff_prefix
  rw [NamedFunctions.lookup_addAll, hnone, Option.or_none]
  exact if_congr hadmits rfl rfl

/-- **Custom queries capture no expression.**  Whatever functions are added under whatever names,
some of them refused and some replaced, a text without the prefix is answered as by an evaluator
without custom queries.  A text with the prefix is answered by the function added last under exactly
this name, or else as without custom queries too.  What the two evaluators have read before does not
matter, since every session leaves a faithful cache. -/
theorem custom_queries_capture_no_expression (environment : Environment)
    (fs : List (Text × CustomQuery)) (item : Option Item) (t : Text) {cache cache' : Cache}
    (hcache : cache.Faithful) (hcache' : cache'.Faithful) :
    let s : Setting := ⟨environment, NamedFunctions.customQueries.addAll fs⟩
    let plain : Setting := ⟨environment, .customQueries⟩
    (¬queryStart <+: t → s.answersFrom cache item t = plain.answersFrom cache' item t)
      ∧ (queryStart <+: t →
        s.answersFrom cache item t = (NamedFunctions.lastAdded? fs t).elim
          (plain.answersFrom cache' item t) fun f => f.answers item) := by
  intro s plain
  have hlookup : s.custom.lookup t
      = if queryStart <+: t then NamedFunctions.lastAdded? fs t else none :=
    lookup_customQueries fs t
  have hplain : plain.custom.lookup t = none := rfl
  have hsame : s.custom.lookup t = none →
      s.answersFrom cache item t = plain.answersFrom cache' item t := by
    intro hnone
    rw [Setting.answersFrom_of_none hnone hcache, Setting.answersFrom_of_none hplain hcache']
    rfl
  constructor
  · intro hstart
    exact hsame (hlookup.trans (if_neg hstart))
  · intro hstart
    rw [if_pos hstart] at hlookup
    cases hlast : NamedFunctions.lastAdded? fs t with
    | some f => exact Setting.answersFrom_of_some (hlookup.trans hlast) cache item
    | none => exact hsame (hlookup.trans hlast)

/-- Custom queries of which one is refused and one is replaced. -/
def customQueries : List (Text × CustomQuery) :=
  [("CQFself", fun _ => []), ("self::mi", fun _ => []), ("CQFself", fun item => [item])]

theorem custom_queries_capture_no_expression_customQueries :
    let element : Option Item := some (.node [.child 0])
    let s : Setting :=
      ⟨emptyElementSetting.environment, NamedFunctions.customQueries.addAll customQueries⟩
    let known : Cache := OrderedMap.insert .empty "self::mi" (Expr.parse "self::mi")
    known.Faithful
      ∧ s.answersFrom known element "self::mi" = (.ok element, .ok true)
      ∧ s.answersFrom known element "CQFself" = (.ok element, .ok true)
      ∧ s.answersFrom known element "CQFother" = (.ok none, .ok false) := by
  intro element s known
  have hknown : known.Faithful := Cache.faithful_empty.insert "self::mi"
  have hcapture := fun t =>
    custom_queries_capture_no_expression emptyElementSetting.environment customQueries element t
      hknown Cache.faithful_empty
  refine ⟨hknown, ?_, ?_, ?_⟩
  · exact ((hcapture "self::mi").1 (by decide)).trans rfl
  · exact ((hcapture "CQFself").2 (by decide)).trans rfl
  · exact ((hcapture "CQFother").2 (by decide)).trans rfl

end XPath

end MathSpeech
