import Switchboard.Binary64
import Switchboard.Command.Arguments
import Switchboard.Command.Basic
import Switchboard.Command.Documents
import Switchboard.Command.Eval
import Switchboard.Command.Fault
import Switchboard.Command.Run
import Switchboard.Decimal.Numeral
import Switchboard.Decimal.Shortest
import Switchboard.Files
import Switchboard.Files.Host
import Switchboard.Glob.Basic
import Switchboard.Glob.Expand
import Switchboard.Glob.Parse
import Switchboard.Host
import Switchboard.Json.Basic
import Switchboard.Json.Fault
import Switchboard.Json.Pointer
import Switchboard.Json.Printer
import Switchboard.Json.Reader
import Switchboard.Json.Readers
import Switchboard.Keyed
import Switchboard.Main
import Switchboard.Path
import Switchboard.Pattern.Basic
import Switchboard.Pattern.Elements
import Switchboard.Pattern.Form
import Switchboard.Pattern.Literal
import Switchboard.Pattern.Parse
import Switchboard.Pattern.Strict
import Switchboard.Proofs.Pattern.Balance
import Switchboard.Proofs.Pattern.Grammar
import Switchboard.Proofs.Pattern.Pieces
import Switchboard.Proofs.Pattern.Reading
import Switchboard.Proofs.Pattern.StrictReading
import Switchboard.Proofs.Text.Joined
import Switchboard.Proofs.Text.Names
import Switchboard.Proofs.Text.Trim
import Switchboard.Jq.Datum
import Switchboard.Jq.Filter
import Switchboard.Jq.Parse
import Switchboard.Jq.Run
import Switchboard.Jq.Step
import Switchboard.Jq.Token
import Switchboard.Query
import Switchboard.Registry
import Switchboard.Routes.Arity
import Switchboard.Routes.Basic
import Switchboard.Routes.Match
import Switchboard.Routes.Shown
import Switchboard.Scope
import Switchboard.Sequence
import Switchboard.Template
import Switchboard.Text.Blank
import Switchboard.Text.Escaped
import Switchboard.Text.Name
import Switchboard.Text.Unprintable
import Switchboard.Value.Basic
import Switchboard.Value.Json
import Switchboard.Word
import Switchboard.Wrapper.Action
import Switchboard.Wrapper.Branches
import Switchboard.Wrapper.Maybe
import Switchboard.Wrapper.Reader
import Switchboard.Wrapper.State
import Switchboard.Proofs.Routes.Lookup
import Switchboard.Proofs.Pattern.Places
import Switchboard.Proofs.Routes.History
import Switchboard.Proofs.Routes.Selection
import Switchboard.Proofs.Routes.Arguments
import Switchboard.Proofs.Routes.First
import Switchboard.Proofs.Routes.Relevance
import Switchboard.Proofs.Routes.Growth
import Switchboard.Proofs.Scope.Resolution
import Switchboard.Proofs.Routes.Specificity
import Switchboard.Proofs.Pattern.Closure
import Switchboard.Proofs.Routes.Alike
import Switchboard.Proofs.Routes.Keys
import Switchboard.Proofs.Command.Line
import Switchboard.Proofs.Gathers
import Switchboard.Proofs.Json.Compact
import Switchboard.Proofs.Text.Lines
import Switchboard.Proofs.Command.Output
import Switchboard.Proofs.Command.AllOrNothing
import Switchboard.Proofs.Wrapper.Laws
import Switchboard.Proofs.Binary64.Whole
import Switchboard.Proofs.Decimal.Integers
import Switchboard.Proofs.Pattern.IntegerLiterals
import Switchboard.Proofs.Routes.Dispatch
import Switchboard.Proofs.Pattern.Tidying
import Switchboard.Proofs.Pattern.Rendering
import Switchboard.Proofs.Pattern.Holes
import Switchboard.Proofs.Pattern.Culprit
import Switchboard.Proofs.Routes.Renaming
import Switchboard.Proofs.Decimal.Numerals
import Switchboard.Proofs.Pattern.NumericLiterals
import Switchboard.Proofs.Value.RoundTrip
import Switchboard.Proofs.Keyed.Order
import Switchboard.Proofs.Sequence.Merging
import Switchboard.Proofs.Template.Substitution
import Switchboard.Proofs.Routes.Enclosure
import Switchboard.Proofs.Json.Readers
import Switchboard.Proofs.Value.Rounding
import Switchboard.Proofs.Sequence.Flattening
import Switchboard.Proofs.Json.Quoted
import Switchboard.Proofs.Pattern.Printed
import Switchboard.Proofs.Pattern.Bytes
import Switchboard.Proofs.Pattern.Cuts
