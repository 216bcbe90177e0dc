import MathSpeech.Proofs.Store.Consistent
import MathSpeech.Store.Lookup

/-!
# Proofs/Store/Resolution — requests are answered from the history

What a store says of a key in a domain and a style is what was last registered for them.  The reply
to a request is a function of the history of the run alone (`Atom.reply` of the actions placed under
the key), and there always is one: silence, if nothing else.  A lookup asks for the domain and the
style it is given, or for those of the store where it is given none.
-/

namespace MathSpeech.Store

open Rule (Action)

/-- **The reply of a history** to a request. -/
def replyOf (h : List Registration) (key domain style : Text) : Action :=
  Atom.reply (placedUnder h key) domain style

/-- An atom of a run replies from the history. -/
theorem Reflects.resolve {h : List Registration} {s : Store} (hs : Reflects h s) {key : Text}
    {atom : Atom} (hatom : s.atoms.get? key = some atom) (domain style : Text) :
    atom.resolve domain style = .ok (replyOf h key domain style) := by
  rw [hs.atoms] at hatom
  obtain ⟨category, rfl⟩ := exists_of_atomOf? hatom
  exact Atom.resolve_addAll_new key category (placedUnder h key) domain style

/-- What is answered for a key that has an atom, or for none. -/
theorem Reflects.action_answer {h : List Registration} {s : Store} (hs : Reflects h s)
    (domain style : Text) {key : Option Text} (hkey : ∀ k ∈ key, k ∈ s.entries.map Prod.snd) :
    (s.answer domain style (s.atomOf key)).action
      = .ok (key.map fun k => replyOf h k domain style) := by
  cases key with
  | none => rfl
  | some k =>
    have hk : k ∈ s.atoms.keys := (hs.consistent.keys k).mp (hkey k rfl)
    obtain ⟨atom, hatom⟩ := OrderedMap.mem_keys.mp hk
    have hanswer : s.atomOf (some k) = some atom := hatom
    rw [hanswer, answer, hs.resolve hatom]
    rfl

variable {m : Type → Type} [Monad m] [LawfulMonad m] {ν : Type} [DecidableEq ν]

/-- **A lookup answers from the history** for the key it selects. -/
theorem Reflects.lookup {h : List Registration} {s : Store} (hs : Reflects h s)
    (ev : Evaluator m ν) (node : ν) (domain style : Option Text) :
    Found.action <$> s.lookup ev (some node) domain style
      = (fun key => .ok (key.map fun k =>
          replyOf h k (orDefault s.defaultDomain domain) (orDefault s.defaultStyle style)))
        <$> Selection.select ev (some node) s.entries := by
  have hlookup : Found.action <$> s.lookup ev (some node) domain style
      = (fun key => (s.answer (orDefault s.defaultDomain domain)
          (orDefault s.defaultStyle style) (s.atomOf key)).action)
        <$> Selection.select ev (some node) s.entries := by
    simp only [Store.lookup, retrieve, bind_pure_comp, Functor.map_map]
  rw [hlookup]
  exact (Selection.yields_select ev (some node) s.entries).map_congr fun key hkey =>
    hs.action_answer _ _ hkey

/-- **Every request is resolved from the history**, whatever run the store comes from: by the atom
of a key, and by a lookup for the key that is selected.  In a lookup a domain or a style that is
left out or empty means that of the store. -/
theorem resolve_run (kind : Kind) (debug : Bool) (defaultDomain defaultStyle : Text)
    (calls : List Call) (ev : Evaluator m ν) (node : ν) :
    let s := run (blank kind debug defaultDomain defaultStyle) calls
    let h := history (blank kind debug defaultDomain defaultStyle) calls
    (∀ key atom, s.atoms.get? key = some atom → ∀ domain style,
        atom.resolve domain style = .ok (replyOf h key domain style))
      ∧ ∀ domain style, Found.action <$> s.lookup ev (some node) domain style
          = (fun key => .ok (key.map fun k =>
              replyOf h k (orDefault s.defaultDomain domain) (orDefault s.defaultStyle style)))
            <$> Selection.select ev (some node) s.entries := by
  intro s h
  have hs : Reflects h s := reflects_run kind debug defaultDomain defaultStyle calls
  exact ⟨fun _ _ hatom => hs.resolve hatom, hs.lookup ev node⟩

/-- A run with a rule in a domain of its own. -/
def geoRun : List Call := [.define (.rule "k" "" "geo.default" "[t] \"x\"" "self::mi" [])]

theorem resolve_run_geoRun :
    let s := run (blank .plain false defaultName defaultName) geoRun
    (Id.run (s.lookup agreeing (some 0) (some "geo") none)).action
      = .ok (some ⟨[{ kind := .text, content := "\"x\"" }]⟩) :=
  have hlookup := (resolve_run .plain false defaultName defaultName geoRun agreeing 0).2
    (some "geo") none
  (congrArg Id.run hlookup).trans (by decide +kernel)

/-- **An empty style is not looked for as such**: no style is empty, so a request for it would fall
back to silence, where the lookup finds an action of the default style. -/
theorem not_lookup_of_given_names :
    ¬∀ (calls : List Call) (node : Nat) (key domain style : Text),
      let s := run (blank .plain false defaultName defaultName) calls
      let h := history (blank .plain false defaultName defaultName) calls
      Id.run (Selection.select agreeing (some node) s.entries) = some key →
        (Id.run (s.lookup agreeing (some node) (some domain) (some style))).action
          = .ok (some (replyOf h key domain style)) := by
  intro hlookup
  have hgeo := hlookup geoRun 0 "k" "geo" "" (by decide +kernel)
  exact absurd hgeo (by decide +kernel)

end MathSpeech.Store
