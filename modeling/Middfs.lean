import Middfs.Prefix
import Middfs.BigEndian
import Middfs.Sorting
import Middfs.Runs
import Middfs.Layout
import Middfs.Stores
import Middfs.Numeral
import Middfs.Lib.Util
import Middfs.Lib.Pkt
import Middfs.Lib.Deserialize
import Middfs.Lib.Serialize
import Middfs.Lib.Buf
import Middfs.Lib.Sock
import Middfs.Lib.Conn
import Middfs.Lib.Conf
import Middfs.Wire
import Middfs.Wire.Laws
import Middfs.Wire.Pkt
import Middfs.Decode.Tracks
import Middfs.Decode.Fields
import Middfs.Decode.Payload
import Middfs.Decode.Pkt
import Middfs.Decode.Outcome
import Middfs.Decode.Soundness
import Middfs.Decode.Allocation
import Middfs.Decode.Attempt
import Middfs.Decode.Stale
import Middfs.Encode
import Middfs.RoundTrip
import Middfs.Buffers
import Middfs.Reception
import Middfs.Uninitialised
import Middfs.Client.Pkt
import Middfs.Exchange
import Middfs.Server.Client
import Middfs.Server.Handler
import Middfs.Registry
import Middfs.Polling
import Middfs.LexicalPath
import Middfs.Client.Rsrc
import Middfs.Splitting
import Middfs.Client.Ops
import Middfs.Client.Handler
import Middfs.Containment
import Middfs.RemoteErrors
import Middfs.Naming
import Middfs.SymbolicLinks
import Middfs.Network
import Middfs.Renaming
import Middfs.RemoteFiles
import Middfs.Transitions
import Middfs.Running
import Middfs.PollSet
import Middfs.Raising
import Middfs.Releasing
import Middfs.Replies
import Middfs.Descriptors
import Middfs.Sessions
import Middfs.Histories
import Middfs.Provenance
import Middfs.Calm
import Middfs.Survival
import Middfs.Relay
import Middfs.Relaying
import Middfs.Serving
import Middfs.Enrolment
import Middfs.Isolation
import Middfs.EndToEnd
import Middfs.Refinement
import Middfs.Packing
import Middfs.ByteQueue
import Middfs.Membership
import Middfs.Sizing
import Middfs.Appending
import Middfs.Sending
import Middfs.Listing
import Middfs.Neutrality
import Middfs.Configuration
import Middfs.ConfiguredNumbers
import Middfs.Completion
import Middfs.Mounting
import Middfs.Separation
import Middfs.RemoteCalls
import Middfs.Sharing
