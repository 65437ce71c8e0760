import LayeredAccess.Agenda
import LayeredAccess.Bus.Action
import LayeredAccess.Bus.Basic
import LayeredAccess.Bus.Delivery
import LayeredAccess.Compiler.Basic
import LayeredAccess.Compiler.Client
import LayeredAccess.Compiler.Envelope
import LayeredAccess.Compiler.Lines
import LayeredAccess.Compiler.Service
import LayeredAccess.Compliance.Builtin
import LayeredAccess.Compliance.Engine
import LayeredAccess.Compliance.Loading
import LayeredAccess.Compliance.Report
import LayeredAccess.Compliance.Rule
import LayeredAccess.Compliance.Rulebook
import LayeredAccess.Compliance.Schema
import LayeredAccess.Config
import LayeredAccess.Decimal.Binary
import LayeredAccess.Decimal.Notation
import LayeredAccess.Decimal.Reading
import LayeredAccess.Decimal.Shortest
import LayeredAccess.Decode
import LayeredAccess.Dependency.Graph
import LayeredAccess.Encode
import LayeredAccess.Entitlement.Basic
import LayeredAccess.Entitlement.Codec
import LayeredAccess.Entitlement.Node
import LayeredAccess.Error
import LayeredAccess.Flags
import LayeredAccess.Json.Basic
import LayeredAccess.Json.Parser
import LayeredAccess.Json.Printer
import LayeredAccess.Json.Token
import LayeredAccess.JsonSchema.Basic
import LayeredAccess.JsonSchema.Document
import LayeredAccess.JsonSchema.Draft
import LayeredAccess.JsonSchema.Keyword
import LayeredAccess.JsonSchema.Number
import LayeredAccess.JsonSchema.Reader
import LayeredAccess.JsonSchema.TextFormat
import LayeredAccess.JsonSchema.TextPattern
import LayeredAccess.JsonSchema.Uri
import LayeredAccess.KeyMap
import LayeredAccess.Main
import LayeredAccess.Merge
import LayeredAccess.Pattern.Automaton
import LayeredAccess.Pattern.Basic
import LayeredAccess.Pattern.Class
import LayeredAccess.Pattern.Escape
import LayeredAccess.Pattern.Footprint
import LayeredAccess.Pattern.LookAround
import LayeredAccess.Pattern.Meaning
import LayeredAccess.Pattern.Reader
import LayeredAccess.Pattern.Search
import LayeredAccess.Pattern.Written
import LayeredAccess.Profile.Basic
import LayeredAccess.Profile.Codec
import LayeredAccess.Profile.Node
import LayeredAccess.Proofs.Agenda
import LayeredAccess.Proofs.Agenda.Moments
import LayeredAccess.Proofs.Bus.Audience
import LayeredAccess.Proofs.Bus.Nesting
import LayeredAccess.Proofs.Codec.Layout
import LayeredAccess.Proofs.Codec.Records
import LayeredAccess.Proofs.Codec.Uuid
import LayeredAccess.Proofs.Codec.Wire
import LayeredAccess.Proofs.Compiler
import LayeredAccess.Proofs.Compiler.Closure
import LayeredAccess.Proofs.Compiler.Connection
import LayeredAccess.Proofs.Compiler.Correlation
import LayeredAccess.Proofs.Compiler.Lines
import LayeredAccess.Proofs.Compiler.Relay
import LayeredAccess.Proofs.Compliance.Bounds
import LayeredAccess.Proofs.Compliance.Catalogue
import LayeredAccess.Proofs.Compliance.Enforcement
import LayeredAccess.Proofs.Compliance.Preorder
import LayeredAccess.Proofs.Compliance.Reporting
import LayeredAccess.Proofs.Compliance.Scoping
import LayeredAccess.Proofs.Compliance.Separation
import LayeredAccess.Proofs.Compliance.Verdicts
import LayeredAccess.Proofs.Decimal.Doubles
import LayeredAccess.Proofs.Decimal.Nearest
import LayeredAccess.Proofs.Dependency.Acyclic
import LayeredAccess.Proofs.Dependency.Decision
import LayeredAccess.Proofs.Dependency.Fault
import LayeredAccess.Proofs.Dependency.Walk
import LayeredAccess.Proofs.KeyMap
import LayeredAccess.Proofs.Merge.Again
import LayeredAccess.Proofs.Merge.Alike
import LayeredAccess.Proofs.Merge.Clean
import LayeredAccess.Proofs.Merge.PerKey
import LayeredAccess.Proofs.Node.Announcement
import LayeredAccess.Proofs.Node.Answers
import LayeredAccess.Proofs.Node.Bare
import LayeredAccess.Proofs.Node.Effects
import LayeredAccess.Proofs.Node.Entitlement
import LayeredAccess.Proofs.Node.Patching
import LayeredAccess.Proofs.Node.Profile
import LayeredAccess.Proofs.Registry.Announcements
import LayeredAccess.Proofs.Registry.Arrivals
import LayeredAccess.Proofs.Registry.Batch
import LayeredAccess.Proofs.Registry.CacheReads
import LayeredAccess.Proofs.Registry.CacheWrites
import LayeredAccess.Proofs.Registry.CallSteps
import LayeredAccess.Proofs.Registry.CascadePhases
import LayeredAccess.Proofs.Registry.Changing
import LayeredAccess.Proofs.Registry.Coherence
import LayeredAccess.Proofs.Registry.Compilation
import LayeredAccess.Proofs.Registry.Definitions
import LayeredAccess.Proofs.Registry.Delegation
import LayeredAccess.Proofs.Registry.DeletionOrder
import LayeredAccess.Proofs.Registry.Directory
import LayeredAccess.Proofs.Registry.Driving
import LayeredAccess.Proofs.Registry.Ending
import LayeredAccess.Proofs.Registry.Evaluation
import LayeredAccess.Proofs.Registry.Exchange
import LayeredAccess.Proofs.Registry.Expectation
import LayeredAccess.Proofs.Registry.Falling
import LayeredAccess.Proofs.Registry.Invalidation
import LayeredAccess.Proofs.Registry.LastActions
import LayeredAccess.Proofs.Registry.Ledger
import LayeredAccess.Proofs.Registry.Locality
import LayeredAccess.Proofs.Registry.LossOrder
import LayeredAccess.Proofs.Registry.LostJobs
import LayeredAccess.Proofs.Registry.Matching
import LayeredAccess.Proofs.Registry.Mirror
import LayeredAccess.Proofs.Registry.Operation
import LayeredAccess.Proofs.Registry.Outbox
import LayeredAccess.Proofs.Registry.Outcome
import LayeredAccess.Proofs.Registry.PendingJobs
import LayeredAccess.Proofs.Registry.Precedence
import LayeredAccess.Proofs.Registry.Readings
import LayeredAccess.Proofs.Registry.Recovery
import LayeredAccess.Proofs.Registry.Refusal
import LayeredAccess.Proofs.Registry.Removing
import LayeredAccess.Proofs.Registry.Replacing
import LayeredAccess.Proofs.Registry.Rereading
import LayeredAccess.Proofs.Registry.Returning
import LayeredAccess.Proofs.Registry.Rising
import LayeredAccess.Proofs.Registry.Session
import LayeredAccess.Proofs.Registry.Sharing
import LayeredAccess.Proofs.Registry.Steady
import LayeredAccess.Proofs.Registry.Structure
import LayeredAccess.Proofs.Registry.Switching
import LayeredAccess.Proofs.Registry.Tally
import LayeredAccess.Proofs.Registry.Truthful
import LayeredAccess.Proofs.Registry.ValueStages
import LayeredAccess.Proofs.Registry.ValueState
import LayeredAccess.Proofs.Registry.Wiring
import LayeredAccess.Proofs.Sandbox.Impartial
import LayeredAccess.Proofs.Sandbox.SoleCaller
import LayeredAccess.Proofs.Sandbox.Workroom
import LayeredAccess.Proofs.Script.Conversion
import LayeredAccess.Registry.Basic
import LayeredAccess.Registry.Cascade
import LayeredAccess.Registry.Drive
import LayeredAccess.Registry.Hub
import LayeredAccess.Registry.Node
import LayeredAccess.Registry.Operations
import LayeredAccess.Sandbox.Basic
import LayeredAccess.Sandbox.Scripts
import LayeredAccess.Script.Evaluation
import LayeredAccess.Script.Expr
import LayeredAccess.Script.Function
import LayeredAccess.Script.Parser
import LayeredAccess.Script.Token
import LayeredAccess.Script.Value
import LayeredAccess.Text.Age
import LayeredAccess.Text.Blank
import LayeredAccess.Text.CaseFold
import LayeredAccess.Text.Category
import LayeredAccess.Text.Hidden
import LayeredAccess.Text.Property
import LayeredAccess.Text.Quoted
import LayeredAccess.Text.Ranges
import LayeredAccess.Text.Script
import LayeredAccess.Text.Word
import LayeredAccess.Uuid
