import Toolsmith.Diagnostic
import Toolsmith.Expansion.Accessor
import Toolsmith.Expansion.Basic
import Toolsmith.Expansion.Dispatch
import Toolsmith.Expansion.Draft
import Toolsmith.Expansion.Generated
import Toolsmith.Expansion.Evaluation
import Toolsmith.Expansion.Meaning
import Toolsmith.Expansion.MemberSet
import Toolsmith.Expansion.PeerSet
import Toolsmith.Expansion.Routine
import Toolsmith.Expansion.Stripped
import Toolsmith.Expansion.Toolbox
import Toolsmith.Json.Mismatch
import Toolsmith.Json.Scan
import Toolsmith.Json.Shape
import Toolsmith.Json.Value
import Toolsmith.Json.Write
import Toolsmith.Marking.Argument
import Toolsmith.Marking.Schema
import Toolsmith.Marking.Tag
import Toolsmith.Number.Binary64
import Toolsmith.Number.Estimate
import Toolsmith.Number.Shortest
import Toolsmith.Outline
import Toolsmith.Protocol.Content
import Toolsmith.Protocol.Error
import Toolsmith.Protocol.Message
import Toolsmith.Protocol.Method
import Toolsmith.Protocol.Peer
import Toolsmith.Protocol.Resource
import Toolsmith.Protocol.Tool
import Toolsmith.Samples.Basic
import Toolsmith.Samples.Handlers
import Toolsmith.Samples.Servers
import Toolsmith.Samples.Toolboxes
import Toolsmith.Samples.Weather
import Toolsmith.Server.Basic
import Toolsmith.Server.Lifecycle
import Toolsmith.Server.Loop
import Toolsmith.Server.Session
import Toolsmith.Source.Attribute
import Toolsmith.Source.Function
import Toolsmith.Source.Generics
import Toolsmith.Source.Grammar
import Toolsmith.Source.Grammar.Basic
import Toolsmith.Source.Grammar.Expression
import Toolsmith.Source.Grammar.Item
import Toolsmith.Source.Grammar.Path
import Toolsmith.Source.Grammar.Pattern
import Toolsmith.Source.Grammar.Statement
import Toolsmith.Source.Grammar.Type
import Toolsmith.Source.ImplBlock
import Toolsmith.Source.Lexer
import Toolsmith.Source.Literal
import Toolsmith.Source.Lookahead
import Toolsmith.Source.Piece
import Toolsmith.Source.Quote
import Toolsmith.Source.Reader
import Toolsmith.Source.Signature
import Toolsmith.Source.Tree
import Toolsmith.Text.Blank
import Toolsmith.Text.CodeSet
import Toolsmith.Text.Escaped
import Toolsmith.Text.Identifier
import Toolsmith.Text.Quoted
import Toolsmith.Transport.Basic
import Toolsmith.Transport.Channel
import Toolsmith.Transport.Lines
import Toolsmith.Transport.Script
import Toolsmith.Proofs.Expansion.Repetition
import Toolsmith.Proofs.Expansion.NestedTool
import Toolsmith.Proofs.Expansion.Routines
import Toolsmith.Proofs.Expansion.ToolboxDispatch
import Toolsmith.Proofs.Server.FailedStart
import Toolsmith.Proofs.Expansion.Factory
import Toolsmith.Proofs.Source.StringLiteral
import Toolsmith.Proofs.Expansion.Conservation
import Toolsmith.Proofs.Server.Serving
import Toolsmith.Proofs.Number.Rounding
import Toolsmith.Proofs.Number.Estimate
import Toolsmith.Proofs.Json.Scanning
import Toolsmith.Proofs.Json.Numeral
import Toolsmith.Proofs.Json.ReadBack
import Toolsmith.Proofs.Protocol.RequestText
import Toolsmith.Proofs.Server.Answering
import Toolsmith.Proofs.Expansion.TargetKind
import Toolsmith.Proofs.Server.Registry
import Toolsmith.Proofs.Expansion.Guard
import Toolsmith.Proofs.Source.References
import Toolsmith.Proofs.Expansion.Callees
import Toolsmith.Proofs.Expansion.Stability
import Toolsmith.Proofs.Server.Placeholders
import Toolsmith.Proofs.Server.Strictness
import Toolsmith.Proofs.Json.Structure
import Toolsmith.Proofs.Json.Depth
import Toolsmith.Proofs.Json.Skipping
import Toolsmith.Proofs.Protocol.RequestGrammar
import Toolsmith.Proofs.Server.Admission
import Toolsmith.Proofs.Stepwise
import Toolsmith.Proofs.Json.Records
import Toolsmith.Proofs.Protocol.WireTypes
import Toolsmith.Proofs.Server.Lifetime
import Toolsmith.Proofs.Transport.Crossing
import Toolsmith.Proofs.Transport.Framing
import Toolsmith.Proofs.Marking.Exactness
import Toolsmith.Proofs.Expansion.Receivers
import Toolsmith.Proofs.Expansion.ToolNames
import Toolsmith.Proofs.Source.Attributes
import Toolsmith.Proofs.Source.Locality
import Toolsmith.Proofs.Source.LocalGrammar
import Toolsmith.Proofs.Marking.ArgumentList
import Toolsmith.Proofs.Source.LocalSignature
import Toolsmith.Proofs.Source.Printing
import Toolsmith.Proofs.Source.Rereading
import Toolsmith.Proofs.Source.Follow.Sight
import Toolsmith.Proofs.Source.Follow.Relation
import Toolsmith.Proofs.Source.Follow.AngleList
import Toolsmith.Proofs.Source.Follow.Path
import Toolsmith.Proofs.Source.Follow.Type
import Toolsmith.Proofs.Source.Follow.Pattern
import Toolsmith.Proofs.Source.Follow.Generics
import Toolsmith.Proofs.Source.Follow.Parameter
import Toolsmith.Proofs.Source.Follow.Declaration
import Toolsmith.Proofs.Expansion.Rewriting
import Toolsmith.Proofs.Expansion.Preparation
import Toolsmith.Proofs.Expansion.Acceptance
import Toolsmith.Proofs.Expansion.ServerMembers
import Toolsmith.Proofs.Server.ServedToolbox
import Toolsmith.Proofs.Server.OmittedParams
