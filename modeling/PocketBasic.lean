import PocketBasic.Access.Admin
import PocketBasic.Access.HashedPassword
import PocketBasic.Access.SignedToken
import PocketBasic.Access.Token
import PocketBasic.Calculator.Basic
import PocketBasic.Calculator.KeyMap
import PocketBasic.Calculator.KeyTable
import PocketBasic.Calculator.Snapshot
import PocketBasic.Command.Arguments
import PocketBasic.Command.Folder
import PocketBasic.Command.Packages
import PocketBasic.Command.Run
import PocketBasic.Command.Script
import PocketBasic.Command.Work
import PocketBasic.Console.Cells
import PocketBasic.Console.Key
import PocketBasic.Console.Layout
import PocketBasic.Console.View
import PocketBasic.Crypto.Base64
import PocketBasic.Crypto.Blowfish
import PocketBasic.Crypto.Constants
import PocketBasic.Crypto.Hmac
import PocketBasic.Crypto.Password
import PocketBasic.Crypto.Sha2
import PocketBasic.Document.Json
import PocketBasic.Document.Toml.Basic
import PocketBasic.Document.Toml.Integer
import PocketBasic.Document.Toml.Outline
import PocketBasic.Document.Toml.Reader
import PocketBasic.Document.Yaml.Cursor
import PocketBasic.Document.Yaml.Lexer
import PocketBasic.Document.Yaml.Meaning
import PocketBasic.Document.Yaml.Node
import PocketBasic.Document.Yaml.Reader
import PocketBasic.Document.Yaml.Scalar
import PocketBasic.Document.Yaml.Timestamp
import PocketBasic.Document.Yaml.Token
import PocketBasic.Journal.Basic
import PocketBasic.Library.Api
import PocketBasic.Library.Builtin
import PocketBasic.Library.Catalog
import PocketBasic.Library.CatalogDocument
import PocketBasic.Library.Name
import PocketBasic.Library.Store
import PocketBasic.Machine.Eval
import PocketBasic.Machine.Memory
import PocketBasic.Machine.State
import PocketBasic.Machine.Step
import PocketBasic.Main
import PocketBasic.Number.Binary64
import PocketBasic.Number.Integer
import PocketBasic.Number.Literal
import PocketBasic.Number.Shortest
import PocketBasic.Program.Compile
import PocketBasic.Program.Expr
import PocketBasic.Program.Fault
import PocketBasic.Program.Scan
import PocketBasic.Program.Statement
import PocketBasic.Program.Syntax
import PocketBasic.Program.Token
import PocketBasic.Program.Value
import PocketBasic.Proofs.Block.Basic
import PocketBasic.Proofs.Block.Play
import PocketBasic.Proofs.Block.Simulation
import PocketBasic.Proofs.Calculator.Confirmed
import PocketBasic.Proofs.Calculator.Grain
import PocketBasic.Proofs.Calculator.Highlight
import PocketBasic.Proofs.Calculator.Hosting
import PocketBasic.Proofs.Calculator.InStep
import PocketBasic.Proofs.Calculator.Keys
import PocketBasic.Proofs.Calculator.Modes
import PocketBasic.Proofs.Calculator.Reload
import PocketBasic.Proofs.Calculator.Repeats
import PocketBasic.Proofs.Calculator.Selection
import PocketBasic.Proofs.Calculator.Typing
import PocketBasic.Proofs.Calculator.Version
import PocketBasic.Proofs.Console.Cursor
import PocketBasic.Proofs.Entries
import PocketBasic.Proofs.Evaluation.Acts
import PocketBasic.Proofs.Evaluation.Bindings
import PocketBasic.Proofs.Evaluation.KeyRegister
import PocketBasic.Proofs.Journal.Latest
import PocketBasic.Proofs.Journal.Shelf
import PocketBasic.Proofs.Library.History
import PocketBasic.Proofs.Library.Seeding
import PocketBasic.Proofs.Machine.Alike
import PocketBasic.Proofs.Machine.Balance
import PocketBasic.Proofs.Machine.Ending
import PocketBasic.Proofs.Machine.Entries
import PocketBasic.Proofs.Machine.FirstUse
import PocketBasic.Proofs.Machine.Iteration
import PocketBasic.Proofs.Machine.Lockstep
import PocketBasic.Proofs.Machine.LoopStart
import PocketBasic.Proofs.Machine.Passing
import PocketBasic.Proofs.Machine.Prompting
import PocketBasic.Proofs.Machine.Safety
import PocketBasic.Proofs.Machine.Stream
import PocketBasic.Proofs.Nesting.Agreement
import PocketBasic.Proofs.Nesting.Moves
import PocketBasic.Proofs.Program.Along
import PocketBasic.Proofs.Program.AlongExpr
import PocketBasic.Proofs.Program.AlongStatement
import PocketBasic.Proofs.Program.Arrows
import PocketBasic.Proofs.Program.ArrowsStatement
import PocketBasic.Proofs.Program.Compiled
import PocketBasic.Proofs.Program.Deeper
import PocketBasic.Proofs.Program.ExprLines
import PocketBasic.Proofs.Program.ExprRoundTrip
import PocketBasic.Proofs.Program.Following
import PocketBasic.Proofs.Program.FollowingExpr
import PocketBasic.Proofs.Program.FollowingStatement
import PocketBasic.Proofs.Program.Indexed
import PocketBasic.Proofs.Program.Labels
import PocketBasic.Proofs.Program.Layout
import PocketBasic.Proofs.Program.Levels
import PocketBasic.Proofs.Program.LineBreak
import PocketBasic.Proofs.Program.OneLine
import PocketBasic.Proofs.Program.Reading
import PocketBasic.Proofs.Program.Reads
import PocketBasic.Proofs.Program.RoundTrip
import PocketBasic.Proofs.Program.Spaced
import PocketBasic.Proofs.Program.Spans
import PocketBasic.Proofs.Program.Spelling
import PocketBasic.Proofs.Program.Stretches
import PocketBasic.Proofs.Program.TypedLine
import PocketBasic.Proofs.Remote.Attached
import PocketBasic.Proofs.Remote.Decisions
import PocketBasic.Proofs.Remote.Feed
import PocketBasic.Proofs.Remote.Window
import PocketBasic.Proofs.Screen.Grid
import PocketBasic.Proofs.Screen.Overwriting
import PocketBasic.Proofs.Screen.Scrolling
import PocketBasic.Proofs.Server.Events
import PocketBasic.Proofs.Server.Feeding
import PocketBasic.Proofs.Server.Guarded
import PocketBasic.Proofs.Server.Isolation
import PocketBasic.Proofs.Server.Receiving
import PocketBasic.Proofs.Server.Seats
import PocketBasic.Proofs.Session.Bookkeeping
import PocketBasic.Proofs.Session.Counting
import PocketBasic.Proofs.Session.Tracking
import PocketBasic.Proofs.Settings.Layering
import PocketBasic.Proofs.Settings.Legible
import PocketBasic.Proofs.Settings.Overriding
import PocketBasic.Proofs.Settings.RoundTrip
import PocketBasic.Proofs.Settings.Writable
import PocketBasic.Remote.Exchange
import PocketBasic.Remote.Message
import PocketBasic.Remote.Outbox
import PocketBasic.Remote.RateLimit
import PocketBasic.Remote.Registry
import PocketBasic.Screen.Home
import PocketBasic.Screen.Menu
import PocketBasic.Secure.Basic
import PocketBasic.Server.Basic
import PocketBasic.Server.Handle
import PocketBasic.Session.Basic
import PocketBasic.Settings.Basic
import PocketBasic.Settings.Defaults
import PocketBasic.Settings.Duration
import PocketBasic.Settings.File
import PocketBasic.Text.Blank
import PocketBasic.Text.Case
import PocketBasic.Text.CellWidth
import PocketBasic.Text.Cluster
import PocketBasic.Text.ClusterBreak
import PocketBasic.Text.Lines
import PocketBasic.Text.Path
import PocketBasic.Text.Printable
import PocketBasic.Text.Quoted
import PocketBasic.Text.Ranges
import PocketBasic.Text.Scanner
import PocketBasic.Text.Timestamp
import PocketBasic.Text.Typeface
import PocketBasic.Text.Utf8
import PocketBasic.Web.Address
import PocketBasic.Web.Handshake
import PocketBasic.Web.Request
import PocketBasic.Web.Response
import PocketBasic.Web.Url
