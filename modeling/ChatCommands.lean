import ChatCommands.Bot.Builtin
import ChatCommands.Bot.Delivery
import ChatCommands.Bot.Embed
import ChatCommands.Bot.Handlers
import ChatCommands.Bot.Invocation
import ChatCommands.Bot.Routing
import ChatCommands.Bot.Scene
import ChatCommands.Bot.Word
import ChatCommands.Crash
import ChatCommands.Expr.Basic
import ChatCommands.Expr.Error
import ChatCommands.Expr.Eval
import ChatCommands.Expr.Parser
import ChatCommands.Expr.Token
import ChatCommands.Gateway.Attribute
import ChatCommands.Gateway.Snapshot
import ChatCommands.Instant.Basic
import ChatCommands.Instant.Read
import ChatCommands.Json.Basic
import ChatCommands.Json.Read
import ChatCommands.Json.Write
import ChatCommands.Number.Basic
import ChatCommands.Number.Binary64
import ChatCommands.Number.Numeral
import ChatCommands.Number.Shortest
import ChatCommands.Proofs.Bot.Authority
import ChatCommands.Proofs.Bot.Delivery
import ChatCommands.Proofs.Bot.Handling
import ChatCommands.Proofs.Bot.Limits
import ChatCommands.Proofs.Bot.Pages
import ChatCommands.Proofs.Bot.Trigger
import ChatCommands.Proofs.Expr.Acceptance
import ChatCommands.Proofs.Expr.Brackets
import ChatCommands.Proofs.Expr.Chains
import ChatCommands.Proofs.Expr.Congruence
import ChatCommands.Proofs.Expr.Derivation
import ChatCommands.Proofs.Expr.Digits
import ChatCommands.Proofs.Expr.Evaluation
import ChatCommands.Proofs.Expr.Names
import ChatCommands.Proofs.Expr.Negation
import ChatCommands.Proofs.Expr.Quotation
import ChatCommands.Proofs.Expr.Reading
import ChatCommands.Proofs.Expr.Relocation
import ChatCommands.Proofs.Expr.Scanning
import ChatCommands.Proofs.Expr.Secrecy
import ChatCommands.Proofs.Expr.Sources
import ChatCommands.Proofs.Expr.Spacing
import ChatCommands.Proofs.Expr.Tiling
import ChatCommands.Proofs.Expr.Totality
import ChatCommands.Proofs.Gateway.Complement
import ChatCommands.Proofs.Gateway.Membership
import ChatCommands.Proofs.Gateway.Reading
import ChatCommands.Proofs.Instant.RoundTrip
import ChatCommands.Proofs.Json.Distinct
import ChatCommands.Proofs.Json.Escapes
import ChatCommands.Proofs.Json.Likeness
import ChatCommands.Proofs.Json.Magnitude
import ChatCommands.Proofs.Json.Quoting
import ChatCommands.Proofs.Json.Reading
import ChatCommands.Proofs.Json.RoundTrip
import ChatCommands.Proofs.Number.Order
import ChatCommands.Proofs.Number.Quotient
import ChatCommands.Proofs.Resolution.Agreement
import ChatCommands.Proofs.Resolution.Arguments
import ChatCommands.Proofs.Resolution.Assignment
import ChatCommands.Proofs.Resolution.Bodies
import ChatCommands.Proofs.Resolution.Boundary
import ChatCommands.Proofs.Resolution.Cap
import ChatCommands.Proofs.Resolution.Composition
import ChatCommands.Proofs.Resolution.Course
import ChatCommands.Proofs.Resolution.Descent
import ChatCommands.Proofs.Resolution.Equivalence
import ChatCommands.Proofs.Resolution.Escape
import ChatCommands.Proofs.Resolution.Failure
import ChatCommands.Proofs.Resolution.Frame
import ChatCommands.Proofs.Resolution.Handling
import ChatCommands.Proofs.Resolution.Literal
import ChatCommands.Proofs.Resolution.Local
import ChatCommands.Proofs.Resolution.Rendering
import ChatCommands.Proofs.Resolution.Requests
import ChatCommands.Proofs.Resolution.Secrecy
import ChatCommands.Proofs.Resolution.Simulation
import ChatCommands.Proofs.Resolution.Single
import ChatCommands.Proofs.Resolution.Structured
import ChatCommands.Proofs.Resolution.Tour
import ChatCommands.Proofs.Resolution.Trace
import ChatCommands.Proofs.Resolution.Validation
import ChatCommands.Proofs.Resolution.Verbatim
import ChatCommands.Proofs.Settings.Sources
import ChatCommands.Proofs.Store.Call
import ChatCommands.Proofs.Store.Contents
import ChatCommands.Proofs.Store.Interleaving
import ChatCommands.Proofs.Store.Isolation
import ChatCommands.Proofs.Store.KeyMap
import ChatCommands.Proofs.Store.Loading
import ChatCommands.Proofs.Store.Persistence
import ChatCommands.Proofs.Store.Refusal
import ChatCommands.Proofs.Store.Reload
import ChatCommands.Proofs.Store.Survival
import ChatCommands.Proofs.Template.Blocks
import ChatCommands.Proofs.Template.Choosing
import ChatCommands.Proofs.Template.Closed
import ChatCommands.Proofs.Template.Cutting
import ChatCommands.Proofs.Template.Grammar
import ChatCommands.Proofs.Template.Height
import ChatCommands.Proofs.Template.Layout
import ChatCommands.Proofs.Template.Marking
import ChatCommands.Proofs.Template.Nesting
import ChatCommands.Proofs.Template.Occurrence
import ChatCommands.Proofs.Template.Pairing
import ChatCommands.Proofs.Template.Passing
import ChatCommands.Proofs.Template.Piece
import ChatCommands.Proofs.Template.Place
import ChatCommands.Proofs.Template.Ranges
import ChatCommands.Proofs.Template.Rewriting
import ChatCommands.Proofs.Template.Scanning
import ChatCommands.Proofs.Template.Script
import ChatCommands.Proofs.Template.Spans
import ChatCommands.Proofs.Template.Splicing
import ChatCommands.Proofs.Template.Writing
import ChatCommands.Proofs.Text.Lower
import ChatCommands.Proofs.Text.Upper
import ChatCommands.Proofs.Value.Equality
import ChatCommands.Proofs.Value.Inclusion
import ChatCommands.Proofs.Value.Order
import ChatCommands.Resolution.Basic
import ChatCommands.Resolution.Descent
import ChatCommands.Resolution.Error
import ChatCommands.Resolution.Gate
import ChatCommands.Resolution.Run
import ChatCommands.Resolution.Tour
import ChatCommands.Resolution.Verb
import ChatCommands.Settings.Basic
import ChatCommands.Settings.Environment
import ChatCommands.Settings.FilePath
import ChatCommands.Snapshot.Literal
import ChatCommands.Snapshot.Record
import ChatCommands.Snapshot.Uptime
import ChatCommands.Store.Basic
import ChatCommands.Store.Command
import ChatCommands.Store.File
import ChatCommands.Store.Keeper
import ChatCommands.Store.Work
import ChatCommands.Template.Arena
import ChatCommands.Template.Block
import ChatCommands.Template.Buffer
import ChatCommands.Template.Error
import ChatCommands.Template.Escape
import ChatCommands.Template.Instruction
import ChatCommands.Template.Span
import ChatCommands.Text.Basic
import ChatCommands.Text.Blank
import ChatCommands.Text.Case
import ChatCommands.Text.CaseTable
import ChatCommands.Text.Digit
import ChatCommands.Text.Printable
import ChatCommands.Text.Quoted
import ChatCommands.Text.Range
import ChatCommands.Value.Access
import ChatCommands.Value.Basic
import ChatCommands.Value.Compare
import ChatCommands.Value.Convert
import ChatCommands.Value.Placement
import ChatCommands.Value.Scalar
import ChatCommands.Warning
import ChatCommands.Web.Transport
import ChatCommands.Web.Url
import ChatCommands.Yaml.Atom
import ChatCommands.Yaml.Datum
import ChatCommands.Yaml.Held
import ChatCommands.Yaml.Lexeme
import ChatCommands.Yaml.Mark
import ChatCommands.Yaml.Node
import ChatCommands.Yaml.Plain
import ChatCommands.Yaml.Tag
import ChatCommands.Yaml.Token
