import MathSpeech.Proofs.Settings.Merge
import MathSpeech.Proofs.Store.Naming
import MathSpeech.Proofs.Yaml.Mappings
import MathSpeech.Settings.Load

/-!
# Proofs/Settings/Load — what loaded settings hold

What a file gives is merged into a copy of the defaults, and a setting is read by the names on its
path, joined by points.  For a setting that has a default which is no mapping, the file counts where
it says something of the same path; else the default stands, unless the file has put something that
is no mapping in the place of a section around it (`Settings.settings_by_path`).
-/

namespace MathSpeech.Settings

open Value (HasSingleKeys Apart)

/-- **Reading by a text** is reading by the names that it joins. -/
theorem nested?_joined (settings : Value) {names : List Text} (hne : names ≠ [])
    (h : ∀ name ∈ names, '.' ∉ name) :
    nested? settings (Text.joined "." names) = attribute? settings names := by
  have hparts : Text.parts '.' (Text.joined ['.'] names) = names := Text.parts_joined hne h
  exact congrArg (attribute? settings) hparts

/-- The entries of the defaults. -/
theorem exists_defaults : ∃ base, defaults = .map base ∧ Apart base :=
  ⟨_, rfl, by decide⟩

/-- **A copy of the defaults** is no other value. -/
theorem mergeOver_defaults : mergeOver (some (.map [])) defaults = defaults := by
  obtain ⟨base, hbase, hkeys⟩ := exists_defaults
  rw [hbase, mergeOver_empty hkeys]

/-- **The settings of a file that gives a mapping**: it is merged into the defaults. -/
theorem load_eq {f : Folder} {file t : Text} {given : List (Value × Value)}
    (hfile : f.look (Path.ofText file) = .file t)
    (hgiven : Yaml.read (unifyLineEnds t) = .ok (.map given)) :
    load f file = (.ok (mergeOver (some defaults) (.map given)), []) := by
  rw [load]
  simp only [hfile, ofText, hgiven, ofFile?]

/-- **A setting with a default**, which is no mapping: the file counts, and else the default stands
unless the file cuts its path off. -/
theorem attribute?_of_default {given : List (Value × Value)} (hgiven : HasSingleKeys (.map given))
    {names : List Text} {d : Value} (hdefault : attribute? defaults names = some d)
    (hd : d.isMap = false) {w : Value} :
    attribute? (mergeOver (some defaults) (.map given)) names = some w
      ↔ attribute? (.map given) names = some w
        ∨ attribute? (.map given) names = none ∧ ¬ IsCutOff (.map given) (names.map .text)
          ∧ d = w := by
  simp only [attribute?] at hdefault ⊢
  rw [at?_mergeOver_eq_some_iff hgiven, Option.bind_some, hdefault]
  simp only [mergeOver_some_of_isMap_eq_false hd, exists_eq_right, Option.some.injEq]

/-- **What settings hold, path by path.**  Of two merged mappings, the new one counts where it binds
a path; where it does not, the old one does, unless the new one has put something that is no mapping
in the place of a mapping on the path.  So do the settings of a file with the defaults. -/
theorem settings_by_path :
    (∀ base new path v, HasSingleKeys (.map new) → v.isMap = false →
      (at? (mergeOver (some (.map base)) (.map new)) path = some v
        ↔ at? (.map new) path = some v
          ∨ at? (.map base) path = some v ∧ at? (.map new) path = none
            ∧ ¬ IsCutOff (.map new) path))
      ∧ ∀ (f : Folder) file t given, f.look (Path.ofText file) = .file t →
        Yaml.read (unifyLineEnds t) = .ok (.map given) →
        ∃ settings, load f file = (.ok settings, [])
          ∧ settings = mergeOver (some (mergeOver (some (.map [])) defaults)) (.map given)
          ∧ ∀ names d, names ≠ [] → (∀ name ∈ names, '.' ∉ name) →
            attribute? defaults names = some d → d.isMap = false →
            (∀ w, attribute? (.map given) names = some w →
              nested? settings (Text.joined "." names) = some w)
            ∧ (attribute? (.map given) names = none →
              ¬ IsCutOff (.map given) (names.map .text) →
              nested? settings (Text.joined "." names) = some d) := by
  refine ⟨fun base new path v hnew hv => at?_merge_eq_some_iff hnew hv, ?_⟩
  intro f file t given hfile hgiven
  have hkeys : HasSingleKeys (.map given) := Yaml.hasSingleKeys_of_read hgiven
  rw [mergeOver_defaults]
  refine ⟨_, load_eq hfile hgiven, rfl, ?_⟩
  intro names d hne hdots hdefault hd
  rw [nested?_joined _ hne hdots]
  constructor
  · intro w hw
    exact (attribute?_of_default hkeys hdefault hd).mpr (.inl hw)
  · intro hnone hcut
    exact (attribute?_of_default hkeys hdefault hd).mpr (.inr ⟨hnone, hcut, rfl⟩)

section Geo

open Yaml (Token Node)

/-- A file that sets one name and leaves a section empty. -/
def geoFile : Text := "rules:\n  default_domain: geo\nlogging:\n"

/-- The tokens of that file. -/
def geoTokens : List Token := [.blockMappingStart, .key, .scalar "rules" true, .value,
  .blockMappingStart, .key, .scalar "default_domain" true, .value, .scalar "geo" true, .blockEnd,
  .key, .scalar "logging" true, .value, .blockEnd]

/-- The tree of that file. -/
def geoNode : Node := .mapping .mapping [
  (.scalar .text "rules",
    .mapping .mapping [(.scalar .text "default_domain", .scalar .text "geo")]),
  (.scalar .text "logging", .missing)]

/-- What that file gives. -/
def geoEntries : List (Value × Value) :=
  [(.text "rules", sectionOf [("default_domain", .text "geo")]), (.text "logging", .null)]

theorem read_geoFile : Yaml.read (unifyLineEnds geoFile) = .ok (.map geoEntries) := by
  have htokens : Token.scan (unifyLineEnds geoFile) = .ok geoTokens := by decide +kernel
  have hnode : Node.ofTokens? geoTokens = some (some geoNode) := rfl
  have hdepth : geoNode.depth = 3 := by
    simp [geoNode, Node.depth, Yaml.depthOfEntries, Node.missing]
  have hvalue : Yaml.valueOf 4 geoNode = .ok (.map geoEntries) := by
    simp [geoNode, Node.missing, Yaml.valueOf, Yaml.mergedEntries, Yaml.entriesOf, Node.tag,
      Yaml.asKey, Yaml.scalarValue, Yaml.putEntry, Value.isKey, Value.putKey, Value.sameKey, bind,
      Except.bind, pure, Except.pure, geoEntries, sectionOf]
  rw [Yaml.read, htokens]
  simp only [bind, Except.bind, hnode, hdepth, hvalue]

theorem settings_by_path_geoFile :
    let f := Folder.ofFiles [("settings.yaml", geoFile)]
    f.look (Path.ofText "settings.yaml") = .file geoFile
      ∧ Yaml.read (unifyLineEnds geoFile) = .ok (.map geoEntries)
      ∧ HasSingleKeys (.map geoEntries)
      ∧ at? (mergeOver (some (.map [])) (.map geoEntries)) [.text "logging"] = some .null
      ∧ ∃ settings, load f "settings.yaml" = (.ok settings, [])
        ∧ nested? settings "rules.default_domain" = some (.text "geo")
        ∧ nested? settings "rules.default_style" = some (.text "default") := by
  intro f
  have hfile : f.look (Path.ofText "settings.yaml") = .file geoFile := by decide +kernel
  have hkeys : HasSingleKeys (.map geoEntries) := Yaml.hasSingleKeys_of_read read_geoFile
  obtain ⟨hmerge, hload⟩ := settings_by_path
  obtain ⟨settings, hsettings, -, hpaths⟩ := hload f "settings.yaml" geoFile geoEntries hfile
    read_geoFile
  obtain ⟨hset, -⟩ := hpaths ["rules".toList, "default_domain".toList] (.text "default")
    (List.cons_ne_nil _ _) (by decide) rfl rfl
  obtain ⟨-, hunset⟩ := hpaths ["rules".toList, "default_style".toList] (.text "default")
    (List.cons_ne_nil _ _) (by decide) rfl rfl
  have hnull : at? (mergeOver (some (.map [])) (.map geoEntries)) [.text "logging"] = some .null :=
    (hmerge [] geoEntries [.text "logging"] .null hkeys rfl).mpr (.inl rfl)
  have hopen : ¬ IsCutOff (.map geoEntries) [.text "rules", .text "default_style"] := by
    rw [geoEntries, isCutOff_cons_iff]
    rintro ⟨w, hw, hcut⟩
    obtain rfl : sectionOf [("default_domain", .text "geo")] = w := Option.some.inj hw
    obtain ⟨u, hu, -⟩ := isCutOff_cons_iff.mp hcut
    cases hu
  exact ⟨hfile, read_geoFile, hkeys, hnull, settings, hsettings, hset _ rfl, hunset rfl hopen⟩

end Geo

end MathSpeech.Settings
