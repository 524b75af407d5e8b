import Lifeline.Main
import Lifeline.Proofs.Session
import Lifeline.Proofs.Share.Expansion
import Lifeline.Proofs.Share.Faults
import Lifeline.Proofs.Share.Session
import Lifeline.Proofs.Share.TokenText
import Lifeline.Proofs.Text.Lines
import Lifeline.Service.Handler
import Lifeline.Store.Stream
import Lifeline.Store.Watch
import Lifeline.Proofs.Share.Ambiguity
import Lifeline.Proofs.Binary64.Rounding
import Lifeline.Proofs.Json.Numbers
import Lifeline.Proofs.Json.Prefix
import Lifeline.Proofs.Share.Truncation
import Lifeline.Proofs.Record
import Lifeline.Proofs.Json.Parsed
import Lifeline.Proofs.Store.Persistence
import Lifeline.Proofs.Store.Recency
import Lifeline.Proofs.Store.Identifiers
import Lifeline.Proofs.Share.Transport
import Lifeline.Proofs.Mermaid.Conversion
import Lifeline.Proofs.Mermaid.Strictness
import Lifeline.Proofs.PlantUml.MessageLines
import Lifeline.Proofs.PlantUml.Directives
import Lifeline.Proofs.Mermaid.Concatenation
import Lifeline.Proofs.Mermaid.Compaction
import Lifeline.Proofs.Store.Watching
import Lifeline.Proofs.Store.Streaming
import Lifeline.Proofs.Mermaid.Refusal
import Lifeline.Proofs.Mermaid.Endpoints
import Lifeline.Proofs.Store.StateFile
import Lifeline.Proofs.Store.HandEdited
import Lifeline.Proofs.PlantUml.NoteClosers
import Lifeline.Proofs.Json.Sendable
import Lifeline.Proofs.Json.Depth
import Lifeline.Proofs.Json.Octets
import Lifeline.Proofs.Share.PackedIntegers
import Lifeline.Proofs.Service.Exporting
import Lifeline.Proofs.Service.Outlining
import Lifeline.Proofs.Share.AcceptedCodes
import Lifeline.Proofs.Share.TokenLength
import Lifeline.Proofs.Share.Shortening
import Lifeline.Proofs.Record.Naming
import Lifeline.Proofs.PlantUml.HyphenatedNames
import Lifeline.Proofs.Mermaid.Declaration
import Lifeline.Proofs.Document
import Lifeline.Proofs.Command.Strictness
import Lifeline.Proofs.Mermaid.HyphenatedNames
import Lifeline.Proofs.Record.NormalForm
import Lifeline.Proofs.Theme
import Lifeline.Proofs.PlantUml.Nesting
import Lifeline.Proofs.Share.Parameters
import Lifeline.Proofs.Store.Slugs
