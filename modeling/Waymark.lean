import Waymark.CommandLine
import Waymark.Context
import Waymark.Dict
import Waymark.Json.Binary64
import Waymark.Json.Decoder
import Waymark.Json.Event
import Waymark.Json.Value
import Waymark.Json.Writer
import Waymark.Main
import Waymark.Pattern.Builder
import Waymark.Pattern.Error
import Waymark.Pattern.Expression
import Waymark.Pattern.Matcher
import Waymark.Pattern.Options
import Waymark.Pattern.Params
import Waymark.Pattern.Segment
import Waymark.Pattern.Token
import Waymark.Proofs.Dict
import Waymark.Proofs.Except
import Waymark.Proofs.Json.Value
import Waymark.Proofs.Pattern.Building
import Waymark.Proofs.Pattern.Captures
import Waymark.Proofs.Pattern.Delimited
import Waymark.Proofs.Pattern.Gathering
import Waymark.Proofs.Pattern.Grammar
import Waymark.Proofs.Pattern.Items
import Waymark.Proofs.Pattern.Language
import Waymark.Proofs.Pattern.Matching
import Waymark.Proofs.Pattern.Parsing
import Waymark.Proofs.Pattern.RoundTrip
import Waymark.Proofs.Pattern.Spelling
import Waymark.Proofs.Pattern.Tokens
import Waymark.Proofs.Regex.Assembling
import Waymark.Proofs.Regex.Closure
import Waymark.Proofs.Regex.Language
import Waymark.Proofs.Regex.Reading
import Waymark.Proofs.Regex.Repetition
import Waymark.Proofs.Regex.Row
import Waymark.Proofs.Regex.Runs
import Waymark.Proofs.Store.Draining
import Waymark.Proofs.Store.Paths
import Waymark.Proofs.Store.Replacing
import Waymark.Proofs.Store.Reports
import Waymark.Proofs.Store.Spellings
import Waymark.Proofs.Store.Touching
import Waymark.Proofs.Store.Overlapping
import Waymark.Proofs.Store.Trees
import Waymark.Proofs.Unicode.CaseFolding
import Waymark.Regex.Assembly
import Waymark.Regex.CharClass
import Waymark.Regex.CharSet
import Waymark.Regex.Effort
import Waymark.Regex.Expr
import Waymark.Regex.Outcomes
import Waymark.Regex.Search
import Waymark.Regex.Token
import Waymark.Registry
import Waymark.Route.Config
import Waymark.Route.Error
import Waymark.Route.Navigation
import Waymark.Route.Table
import Waymark.Route.Template
import Waymark.Schema.Options
import Waymark.Schema.Params
import Waymark.Schema.Routes
import Waymark.Schema.Stores
import Waymark.Store.Basic
import Waymark.Store.Bindable
import Waymark.Store.Changes
import Waymark.Store.Config
import Waymark.Store.Element
import Waymark.Store.Error
import Waymark.Store.Layered
import Waymark.Store.Observable
import Waymark.Store.Path
import Waymark.Store.Rows
import Waymark.Store.Script
import Waymark.Store.Tree
import Waymark.Store.Write
import Waymark.Unicode.Alphabetic
import Waymark.Unicode.CaseFolding
import Waymark.Unicode.Category
import Waymark.Unicode.Category.Letter
import Waymark.Unicode.Category.Mark
import Waymark.Unicode.Category.Number
import Waymark.Unicode.Category.Punctuation
import Waymark.Unicode.Category.Symbol
import Waymark.Unicode.Classes
import Waymark.Unicode.Property
import Waymark.Unicode.Run
import Waymark.Unicode.Script
import Waymark.Unicode.Span
import Waymark.Unicode.Uppercase
import Waymark.Unicode.Utf8
import Waymark.Url.Basic
import Waymark.Url.Domain
import Waymark.Url.Form
import Waymark.Url.Host
import Waymark.Url.Origin
import Waymark.Url.Path
import Waymark.Url.Percent
import Waymark.Url.Punycode
import Waymark.Url.Split
import Waymark.Proofs.Route.Documents
import Waymark.Proofs.Store.Binding
import Waymark.Proofs.Store.Apart
import Waymark.Proofs.Store.Delivery
import Waymark.Proofs.Store.Keeping
import Waymark.Proofs.Store.Views
import Waymark.Proofs.Store.Histories
import Waymark.Proofs.Store.Ordering
import Waymark.Proofs.Regex.Enclosed
import Waymark.Proofs.Pattern.Custom
import Waymark.Proofs.Pattern.Grouping
import Waymark.Proofs.Route.Priority
import Waymark.Proofs.Store.Attachment
import Waymark.Proofs.Pattern.Normal
import Waymark.Proofs.Pattern.Printing
import Waymark.Proofs.Regex.Exhaustion
import Waymark.Proofs.Regex.Regular
import Waymark.Proofs.Pattern.Meaning
import Waymark.Proofs.Pattern.Agreement
import Waymark.Proofs.Store.Cycles
import Waymark.Proofs.Store.Failing
import Waymark.Proofs.Store.Effective
import Waymark.Proofs.Regex.Relocating
import Waymark.Proofs.Regex.Inheriting
import Waymark.Proofs.Regex.Trying
import Waymark.Proofs.Regex.Alternatives
import Waymark.Proofs.Regex.Joining
import Waymark.Proofs.Pattern.Alternatives
import Waymark.Proofs.Store.Freezing
import Waymark.Proofs.Route.Whereabouts
import Waymark.Proofs.Store.Fibers
import Waymark.Proofs.Store.Nesting
import Waymark.Proofs.Regex.Choosing
import Waymark.Proofs.Pattern.Several
import Waymark.Proofs.Route.Routing
import Waymark.Proofs.Registry
import Waymark.Proofs.Store.Direction
import Waymark.Proofs.Store.Merging
import Waymark.Proofs.Store.Overlays
import Waymark.Proofs.Regex.Spans
import Waymark.Proofs.Pattern.Splitting
import Waymark.Proofs.Pattern.Repeating
import Waymark.Proofs.Pattern.Refusing
import Waymark.Proofs.Pattern.Faults
import Waymark.Proofs.Pattern.Scanning
import Waymark.Proofs.Store.Diverging
import Waymark.Proofs.Store.Lens
import Waymark.Proofs.Store.Removing
import Waymark.Proofs.Store.Truthful
import Waymark.Proofs.Route.Interpolation
import Waymark.Proofs.Store.Pointwise
import Waymark.Proofs.Route.Caching
import Waymark.Proofs.Pattern.Boundary
import Waymark.Proofs.Json.Numerals
import Waymark.Proofs.Json.Scanning
import Waymark.Proofs.Json.Normal
import Waymark.Proofs.Json.Decoding
import Waymark.Proofs.Json.Taking
import Waymark.Proofs.Json.Writing
import Waymark.Proofs.Schema.Reading
import Waymark.Proofs.Schema.Accepting
import Waymark.Proofs.Schema.RoundTrip
