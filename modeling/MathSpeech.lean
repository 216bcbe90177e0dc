import MathSpeech.Atom
import MathSpeech.Decimal.Binary
import MathSpeech.Decimal.Layout
import MathSpeech.Decimal.Read
import MathSpeech.Decimal.Rounded
import MathSpeech.Decimal.Shortest
import MathSpeech.Evaluator
import MathSpeech.Evaluator.Listed
import MathSpeech.Folder
import MathSpeech.Log
import MathSpeech.Mappings
import MathSpeech.NamedFunctions
import MathSpeech.Notice
import MathSpeech.OrderedMap
import MathSpeech.Proofs.Decimal.Quantity
import MathSpeech.Proofs.Decimal.Whole
import MathSpeech.Proofs.Log.Formats
import MathSpeech.Proofs.Log.Lines
import MathSpeech.Proofs.OrderedMap.Writing
import MathSpeech.Proofs.Rule.Assignments
import MathSpeech.Proofs.Rule.Attributes
import MathSpeech.Proofs.Rule.Canonical
import MathSpeech.Proofs.Rule.Composition
import MathSpeech.Proofs.Rule.Content
import MathSpeech.Proofs.Rule.CutPlaces
import MathSpeech.Proofs.Rule.Extension
import MathSpeech.Proofs.Rule.Quotation
import MathSpeech.Proofs.Rule.RoundTrip
import MathSpeech.Proofs.Rule.Source
import MathSpeech.Proofs.Selection.Alike
import MathSpeech.Proofs.Selection.Fit
import MathSpeech.Proofs.Selection.MostSpecific
import MathSpeech.Proofs.Selection.Ranking
import MathSpeech.Proofs.Selection.Traced
import MathSpeech.Proofs.Settings.Load
import MathSpeech.Proofs.Settings.Merge
import MathSpeech.Proofs.Settings.Naming
import MathSpeech.Proofs.Store.Applicability
import MathSpeech.Proofs.Store.Atom
import MathSpeech.Proofs.Store.Conservative
import MathSpeech.Proofs.Store.Consistent
import MathSpeech.Proofs.Store.Definition
import MathSpeech.Proofs.Store.Diagnosis
import MathSpeech.Proofs.Store.Explanation
import MathSpeech.Proofs.Store.Failure
import MathSpeech.Proofs.Store.Frozen
import MathSpeech.Proofs.Store.Naming
import MathSpeech.Proofs.Store.OneByOne
import MathSpeech.Proofs.Store.Reordering
import MathSpeech.Proofs.Store.Repetition
import MathSpeech.Proofs.Store.Resolution
import MathSpeech.Proofs.Store.Run
import MathSpeech.Proofs.Store.Selected
import MathSpeech.Proofs.Table.Account
import MathSpeech.Proofs.Table.Bundled
import MathSpeech.Proofs.Table.Choice
import MathSpeech.Proofs.Table.Clean
import MathSpeech.Proofs.Table.Cleaned
import MathSpeech.Proofs.Table.ContextFree
import MathSpeech.Proofs.Table.Covering
import MathSpeech.Proofs.Table.Definitions
import MathSpeech.Proofs.Table.Frozen
import MathSpeech.Proofs.Table.LogContext
import MathSpeech.Proofs.Table.Multiscripts
import MathSpeech.Proofs.Table.Places
import MathSpeech.Proofs.Table.Powers
import MathSpeech.Proofs.Table.Reached
import MathSpeech.Proofs.Table.Reading
import MathSpeech.Proofs.Table.Repetition
import MathSpeech.Proofs.Table.Taken
import MathSpeech.Proofs.Table.Variants
import MathSpeech.Proofs.Text.Trim
import MathSpeech.Proofs.Value.Keys
import MathSpeech.Proofs.XPath.Alike
import MathSpeech.Proofs.XPath.Cache
import MathSpeech.Proofs.XPath.Children
import MathSpeech.Proofs.XPath.Choice
import MathSpeech.Proofs.XPath.ContextFree
import MathSpeech.Proofs.XPath.Coverage
import MathSpeech.Proofs.XPath.CustomQueries
import MathSpeech.Proofs.XPath.Downward
import MathSpeech.Proofs.XPath.ElementQuery
import MathSpeech.Proofs.XPath.OwnValues
import MathSpeech.Proofs.XPath.Reading
import MathSpeech.Proofs.XPath.Resembling
import MathSpeech.Proofs.XPath.Sameness
import MathSpeech.Proofs.XPath.Session
import MathSpeech.Proofs.XPath.Truth
import MathSpeech.Proofs.Yaml.Mappings
import MathSpeech.Rule.Action
import MathSpeech.Rule.Component
import MathSpeech.Rule.Component.Parser
import MathSpeech.Rule.Fault
import MathSpeech.Rule.Precondition
import MathSpeech.Rule.Splitting
import MathSpeech.Selection
import MathSpeech.Settings
import MathSpeech.Settings.Load
import MathSpeech.Store
import MathSpeech.Store.Lookup
import MathSpeech.Table.Bundled
import MathSpeech.Table.Definition
import MathSpeech.Table.Ingest
import MathSpeech.Table.Load
import MathSpeech.Table.Report
import MathSpeech.Text
import MathSpeech.Text.Hidden
import MathSpeech.Text.Quoted
import MathSpeech.Trace
import MathSpeech.Value
import MathSpeech.Value.Json
import MathSpeech.Value.Written
import MathSpeech.XPath.Axis
import MathSpeech.XPath.Document
import MathSpeech.XPath.Evaluation
import MathSpeech.XPath.Evaluator
import MathSpeech.XPath.Expression
import MathSpeech.XPath.Function
import MathSpeech.XPath.Markup
import MathSpeech.XPath.Number
import MathSpeech.XPath.Numbering
import MathSpeech.XPath.Object
import MathSpeech.XPath.Parser
import MathSpeech.Yaml.Construction
import MathSpeech.Yaml.Cursor
import MathSpeech.Yaml.Node
import MathSpeech.Yaml.Scalar
import MathSpeech.Yaml.Token
