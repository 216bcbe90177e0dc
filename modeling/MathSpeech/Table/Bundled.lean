import MathSpeech.Settings

/-!
# Table/Bundled — the rule table for MathML

The **bundled table** has a rule for every element of presentation MathML that is spoken, and for
some of them more special rules: letters in another font, fences with separators, indices before
their base, squares and cubes.  Its aliases apply special rules in more cases.
-/

namespace MathSpeech.Table.Bundled

/-! ## Entries -/

/-- The query that selects a MathML element of a name. -/
def selfQuery (element : String) : Value := .text ("self::mathml:" ++ element).toList

/-- Texts as a list of values. -/
def texts (ts : List String) : Value := .list (ts.map fun t => .text t.toList)

/-- The constraints of an entry, where there are any. -/
def constraintsField (constraints : List String) : List (String × Value) :=
  if constraints.isEmpty then [] else [("constraints", texts constraints)]

/-- **A rule** for an element: for each style of the default domain the components of its action. -/
def rule (key element : String) (constraints : List String)
    (styles : List (String × List String)) : Value :=
  Settings.sectionOf <|
    [("key", .text key), ("category", .text "Mathml"), ("query", selfQuery element)]
      ++ constraintsField constraints
      ++ [("mappings", Settings.sectionOf [("default", Settings.sectionOf <|
          styles.map fun (style, components) =>
            (style, .text (Text.joined "; " (components.map String.toList))))])]

/-- **An alias** for a rule: other constraints for an element. -/
def extra (key element : String) (constraints : List String) : Value :=
  Settings.sectionOf <|
    [("key", .text key), ("query", selfQuery element)] ++ constraintsField constraints

/-! ## The table -/

/-- The rules. -/
def rules : List Value := [
  rule "math" "math" []
    [("default", ["[m] ./*"])],
  rule "mspace" "mspace" []
    [("default", ["[p] (pause:250)"])],
  rule "mstyle" "mstyle" []
    [("default", ["[m] ./*"])],
  rule "mpadded" "mpadded" []
    [("default", ["[m] ./*"])],
  rule "merror" "merror" []
    [("default", ["[m] ./*"])],
  rule "mphantom" "mphantom" []
    [("default", ["[m] ./*"])],
  rule "mtext" "mtext" []
    [("default", ["[t] text()", "[p] (pause:200)"])],
  rule "mi" "mi" []
    [("default", ["[n] text()"])],
  rule "mo" "mo" []
    [("default", ["[n] text() (rate:-0.1)"])],
  rule "mn" "mn" []
    [("default", ["[n] text()"])],
  rule "mtext-variant" "mtext" ["@mathvariant", "@mathvariant!=\"normal\""]
    [("default", ["[t] \"begin\"", "[t] @mathvariant (pause:150)", "[t] text() (pause:150)",
        "[t] \"end\"", "[t] @mathvariant (pause:200)"])],
  rule "mi-variant" "mi" ["@mathvariant", "@mathvariant!=\"normal\""]
    [("default", ["[t] @mathvariant", "[n] text()"])],
  rule "mo-variant" "mo" ["@mathvariant", "@mathvariant!=\"normal\""]
    [("default", ["[t] @mathvariant", "[n] text() (rate:-0.1)"])],
  rule "ms" "ms" []
    [("default", ["[t] \"string\" (pitch:0.5, rate:0.5)", "[t] text()"])],
  rule "msup" "msup" []
    [("default", ["[n] ./*[1]", "[t] \"super\"", "[n] ./*[2] (pitch:0.35)", "[p] (pause:300)"])],
  rule "msubsup" "msubsup" []
    [("default", ["[n] ./*[1]", "[t] \"sub\"", "[n] ./*[2] (pitch:-0.35)", "[p] (pause:200)",
        "[t] \"super\"", "[n] ./*[3] (pitch:0.35)", "[p] (pause:300)"])],
  rule "msub" "msub" []
    [("default", ["[n] ./*[1]", "[t] \"sub\"", "[n] ./*[2] (pitch:-0.35)", "[p] (pause:300)"])],
  rule "mover" "mover" []
    [("default", ["[n] ./*[2] (pitch:0.35)", "[p] (pause:200)", "[t] \"over\"", "[n] ./*[1]",
        "[p] (pause:400)"])],
  rule "munder" "munder" []
    [("default", ["[n] ./*[2] (pitch:-0.35)", "[t] \"under\"", "[n] ./*[1]", "[p] (pause:400)"])],
  rule "munderover" "munderover" []
    [("default", ["[n] ./*[2] (pitch:-0.35)", "[t] \"under and\"", "[n] ./*[3] (pitch:0.35)",
        "[t] \"over\"", "[n] ./*[1]", "[p] (pause:400)"])],
  rule "mrow" "mrow" []
    [("default", ["[m] ./*"])],
  rule "msqrt" "msqrt" []
    [("default", ["[t] \"Square root of\"", "[n] ./*[1] (rate:0.2)", "[p] (pause:400)"])],
  rule "mroot" "mroot" []
    [("default", ["[t] \"root of order\"", "[n] ./*[2]", "[t] \"of\"", "[n] ./*[1] (rate:0.2)",
        "[p] (pause:400)"])],
  rule "mfrac" "mfrac" []
    [("default", ["[p] (pause:400)", "[n] ./*[1] (pitch:0.3)", "[t] \"divided by\"",
        "[n] ./*[2] (pitch:-0.3)", "[p] (pause:400)"])],
  rule "mfenced-single" "mfenced" ["string-length(string(@separators))=1"]
    [("default", ["[t] @open (context:\"opening\")", "[m] ./* (separator:@separators)",
        "[t] @close (context:\"closing\")"])],
  rule "mfenced-empty" "mfenced"
    ["string-length(string(@separators))=1", "string(@separators)=\" \""]
    [("default", ["[t] @open (context:\"opening\")", "[m] ./*",
        "[t] @close (context:\"closing\")"])],
  rule "mfenced-comma" "mfenced" []
    [("default", ["[t] @open (context:\"opening\")", "[m] ./* (separator:\"comma\")",
        "[t] @close (context:\"closing\")"])],
  rule "mfenced-multi" "mfenced" ["@separators"]
    [("default", ["[t] @open (context:\"opening\")", "[m] ./* (ctxtfunc:mfSeparators)",
        "[t] @close (context:\"closing\")"])],
  rule "mtable" "mtable" []
    [("default", ["[t] \"matrix\"", "[m] ./* (ctxtfunc:nodeCounter, context:\"row\", pause:100)"]),
     ("superbrief", ["[t] count(child::mathml:mtr)", "[t] \"by\"",
        "[t] count(child::mathml:mtr[1]/mathml:mtd)", "[t] \"matrix\""]),
     ("short", ["[t] \"matrix\"", "[m] ./*"])],
  rule "mtr" "mtr" []
    [("default", ["[m] ./* (ctxtfunc:nodeCounter, context:\"column\", pause:100)"]),
     ("short", ["[m] ./*"])],
  rule "mtd" "mtd" []
    [("default", ["[m] ./*"]),
     ("short", ["[t] \"Element\"", "[t] count(./preceding-sibling::mathml:mtd)+1",
        "[t] count(./parent::mathml:mtr/preceding-sibling::mathml:mtr)+1", "[p] (pause:500)",
        "[m] ./*"])],
  rule "mmultiscripts-4" "mmultiscripts" []
    [("default", ["[n] ./*[1]", "[p] (pause:200)", "[t] \"left sub\"", "[n] ./*[5] (pitch:-0.35)",
        "[p] (pause:200)", "[t] \"left super\"", "[n] ./*[6] (pitch:0.35)", "[p] (pause:200)",
        "[t] \"right sub\"", "[n] ./*[2] (pitch:-0.35)", "[p] (pause:200)", "[t] \"right super\"",
        "[n] ./*[3] (pitch:0.35)", "[p] (pause:300)"])],
  rule "mmultiscripts-3-1" "mmultiscripts" ["./mathml:none=./*[2]", "./mathml:mprescripts=./*[4]"]
    [("default", ["[n] ./*[1]", "[p] (pause:200)", "[t] \"left sub\"", "[n] ./*[5] (pitch:-0.35)",
        "[p] (pause:200)", "[t] \"left super\"", "[n] ./*[6] (pitch:0.35)", "[p] (pause:200)",
        "[t] \"right super\"", "[n] ./*[3] (pitch:0.35)", "[p] (pause:300)"])],
  rule "mmultiscripts-3-2" "mmultiscripts" ["./mathml:none=./*[3]", "./mathml:mprescripts=./*[4]"]
    [("default", ["[n] ./*[1]", "[p] (pause:200)", "[t] \"left sub\"", "[n] ./*[5] (pitch:-0.35)",
        "[p] (pause:200)", "[t] \"left super\"", "[n] ./*[6] (pitch:0.35)", "[p] (pause:200)",
        "[t] \"right sub\"", "[n] ./*[2] (pitch:-0.35)", "[p] (pause:200)"])],
  rule "mmultiscripts-3-3" "mmultiscripts" ["./mathml:none=./*[5]", "./mathml:mprescripts=./*[4]"]
    [("default", ["[n] ./*[1]", "[p] (pause:200)", "[t] \"left super\"", "[n] ./*[6] (pitch:0.35)",
        "[p] (pause:200)", "[t] \"right sub\"", "[n] ./*[2] (pitch:-0.35)", "[p] (pause:200)",
        "[t] \"right super\"", "[n] ./*[3] (pitch:0.35)", "[p] (pause:300)"])],
  rule "mmultiscripts-3-4" "mmultiscripts" ["./mathml:none=./*[6]", "./mathml:mprescripts=./*[4]"]
    [("default", ["[n] ./*[1]", "[p] (pause:200)", "[t] \"left sub\"", "[n] ./*[5] (pitch:-0.35)",
        "[p] (pause:200)", "[t] \"right sub\"", "[n] ./*[2] (pitch:-0.35)", "[p] (pause:200)",
        "[t] \"right super\"", "[n] ./*[3] (pitch:0.35)", "[p] (pause:300)"])],
  rule "mmultiscripts-2-1" "mmultiscripts"
    ["./mathml:none=./*[2]", "./mathml:none=./*[3]", "./mathml:mprescripts=./*[4]"]
    [("default", ["[n] ./*[1]", "[p] (pause:200)", "[t] \"left sub\"", "[n] ./*[5] (pitch:-0.35)",
        "[p] (pause:200)", "[t] \"left super\"", "[n] ./*[6] (pitch:0.35)", "[p] (pause:300)"])],
  rule "mmultiscripts-1-1" "mmultiscripts"
    ["./mathml:none=./*[2]", "./mathml:none=./*[3]", "./mathml:mprescripts=./*[4]",
      "./mathml:none=./*[5]"]
    [("default", ["[n] ./*[1]", "[p] (pause:200)", "[t] \"left super\"", "[n] ./*[6] (pitch:0.35)",
        "[p] (pause:300)"])],
  rule "mmultiscripts-1-2" "mmultiscripts"
    ["./mathml:none=./*[2]", "./mathml:none=./*[3]", "./mathml:mprescripts=./*[4]",
      "./mathml:none=./*[6]"]
    [("default", ["[n] ./*[1]", "[p] (pause:200)", "[t] \"left sub\"", "[n] ./*[5] (pitch:-0.35)",
        "[p] (pause:200)"])],
  rule "square" "msup" ["./*[2][text()=2]"]
    [("default", ["[n] ./*[1]", "[t] \"square\" (pitch:0.35)", "[p] (pause:300)"])],
  rule "cube" "msup" ["./*[2][text()=3]"]
    [("default", ["[n] ./*[1]", "[t] \"cube\" (pitch:0.35)", "[p] (pause:300)"])],
  rule "square-sub" "msubsup" ["./*[3][text()=2]"]
    [("default", ["[n] ./*[1]", "[t] \"sub\"", "[n] ./*[2] (pitch:-0.35)", "[p] (pause:300)",
        "[t] \"square\" (pitch:0.35)", "[p] (pause:400)"])],
  rule "cube-sub" "msubsup" ["./*[3][text()=3]"]
    [("default", ["[n] ./*[1]", "[t] \"sub\"", "[n] ./*[2] (pitch:-0.35)", "[p] (pause:300)",
        "[t] \"cube\" (pitch:0.35)", "[p] (pause:400)"])]]

/-- The aliases. -/
def aliases : List Value := [
  extra "mi-variant" "mn" ["@mathvariant", "@mathvariant!=\"normal\""],
  extra "square" "msup" ["./mathml:mrow=./*[2]", "count(./*[2]/*)=1", "./*[2]/*[1][text()=2]"],
  extra "cube" "msup" ["./mathml:mrow=./*[2]", "count(./*[2]/*)=1", "./*[2]/*[1][text()=3]"],
  extra "square-sub" "msubsup"
    ["./mathml:mrow=./*[3]", "count(./*[3]/*)=1", "./*[3]/*[1][text()=2]"],
  extra "cube-sub" "msubsup" ["./mathml:mrow=./*[3]", "count(./*[3]/*)=1", "./*[3]/*[1][text()=3]"]]

end MathSpeech.Table.Bundled

namespace MathSpeech.Table

/-- **The bundled table.** -/
def bundled : Value :=
  Settings.sectionOf [("rules", .list Bundled.rules), ("aliases", .list Bundled.aliases)]

end MathSpeech.Table
