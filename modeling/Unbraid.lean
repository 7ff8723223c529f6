import Unbraid.Main
import Unbraid.Server
import Unbraid.Service
import Unbraid.Tag.Words
import Unbraid.Proofs.Tag.Lexer
import Unbraid.Proofs.Json.Reading
import Unbraid.Proofs.Frame.Window
import Unbraid.Proofs.Frame.Buffer
import Unbraid.Proofs.Frame.Arrival
import Unbraid.Proofs.Frame.Passes
import Unbraid.Proofs.Session.Account
import Unbraid.Proofs.Session.Handling
import Unbraid.Proofs.Session.Pass
import Unbraid.Proofs.Session.Run
import Unbraid.Proofs.Session.Framing
import Unbraid.Proofs.Session.Fragmentation
import Unbraid.Proofs.Frame.Segments
import Unbraid.Proofs.Session.Splitter
import Unbraid.Proofs.Frame.Sent
import Unbraid.Proofs.Json.Keys
import Unbraid.Proofs.Frame.Truncation
import Unbraid.Proofs.Session.Truncation
import Unbraid.Proofs.Session.Delivery
import Unbraid.Proofs.Session.Calls
import Unbraid.Proofs.Session.Signals
import Unbraid.Proofs.Frame.Held
import Unbraid.Proofs.Session.Held
import Unbraid.Proofs.Frame.Closing
import Unbraid.Proofs.Json.Blanks
import Unbraid.Proofs.Session.Closing
import Unbraid.Proofs.Session.Accepting
import Unbraid.Proofs.Session.Refusal
import Unbraid.Proofs.Session.CutOff
import Unbraid.Proofs.Relay.Direct
import Unbraid.Proofs.Relay.Forwarding
import Unbraid.Proofs.Session.Steps
import Unbraid.Proofs.Session.Text
import Unbraid.Proofs.Session.Announcing
import Unbraid.Proofs.Session.Limit
import Unbraid.Proofs.Session.Counts
import Unbraid.Proofs.Session.Inert
import Unbraid.Proofs.EventStream
import Unbraid.Proofs.Frame.Embedded
import Unbraid.Proofs.Json.Completion
import Unbraid.Proofs.Json.Overflow
import Unbraid.Proofs.Json.Range
import Unbraid.Proofs.Json.Building
import Unbraid.Proofs.Json.Decoding
import Unbraid.Proofs.Frame.Trimmed
import Unbraid.Proofs.Tag.Chain
import Unbraid.Proofs.Json.Ordered
import Unbraid.Proofs.Json.Spelling
import Unbraid.Proofs.Notice
import Unbraid.Proofs.Json.RoundTrip
import Unbraid.Proofs.Tag.Windowed
import Unbraid.Proofs.Tag.InOrder
import Unbraid.Proofs.Frame.InBounds
import Unbraid.Proofs.Session.InBounds
import Unbraid.Proofs.Tag.Leaping
