import Relay.Main
import Relay.Scene
import Relay.Exchange
import Relay.Envelope.Parser
import Relay.Proofs.Hub.Posting
import Relay.Proofs.Exchange.DeliveryLog
import Relay.Proofs.Json.Literals
import Relay.Proofs.Json.Numbers
import Relay.Proofs.Json.Strings
import Relay.Proofs.Json.Nesting
import Relay.Proofs.Json.Normal
import Relay.Proofs.Envelope.RoundTrip
import Relay.Proofs.Hub.Replies
import Relay.Proofs.Session.Expiry
import Relay.Proofs.Server.Sessions
import Relay.Proofs.Server.Lifecycle
import Relay.Proofs.Exchange.Copies
import Relay.Proofs.Exchange.Isolation
import Relay.Proofs.Server.Signals
import Relay.Proofs.Server.Keepalive
import Relay.Proofs.Server.Liveness
import Relay.Proofs.Server.Shutdown
import Relay.Proofs.Threads.Greeting
import Relay.Proofs.Exchange.Membership
import Relay.Proofs.Exchange.Interleaving
import Relay.Proofs.Exchange.Beats
import Relay.Proofs.Config.Entries
import Relay.Proofs.Config.Assignment
import Relay.Proofs.Config.Environment
import Relay.Proofs.Config.Layers
import Relay.Proofs.Exchange.Octets
import Relay.Proofs.Hub.Payloads
import Relay.Proofs.Json.Grammar
import Relay.Proofs.Json.Items
import Relay.Proofs.Json.Tokens
import Relay.Proofs.Json.Recognition
import Relay.Proofs.Json.Unambiguity
import Relay.Proofs.Json.Writing
import Relay.Proofs.Json.RoundTrip
import Relay.Proofs.Double.Rounding
import Relay.Proofs.Json.Range
import Relay.Proofs.Request.Decoding
import Relay.Proofs.Json.Meaning
import Relay.Proofs.Double.Shortest
import Relay.Proofs.Json.Reprinting
import Relay.Proofs.Hub.Echoes
import Relay.Proofs.Utf8.Defects
import Relay.Proofs.Utf8.Replacement
import Relay.Proofs.Hub.Routing
import Relay.Proofs.Hub.Refusals
import Relay.Proofs.Double.Intervals
import Relay.Proofs.Json.Printing
import Relay.Proofs.Json.Spelling
import Relay.Proofs.Hub.Spellings
import Relay.Proofs.Exchange.Rearrangement
import Relay.Proofs.Hub.Recipients
import Relay.Proofs.Envelope.Edits
import Relay.Proofs.Double.Nearest
import Relay.Proofs.Double.Extended
import Relay.Proofs.Config.Spelling
