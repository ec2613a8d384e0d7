import Unroxy.Lib.Bytes
import Unroxy.Lib.Task
import Unroxy.Lib.Run
import Unroxy.Lib.Loop
import Unroxy.Lib.Insertion
import Unroxy.Lib.Reorder
import Unroxy.Lib.Rotation
import Unroxy.Lib.Arena
import Unroxy.Lib.Slab
import Unroxy.Lib.Graph
import Unroxy.Lib.Lru
import Unroxy.Lib.Multimap
import Unroxy.Lib.Base64
import Unroxy.Lib.Countdown
import Unroxy.Lib.Keystream
import Unroxy.Lib.Blocks
import Unroxy.Lib.Fifo
import Unroxy.Lib.Transducer
import Unroxy.Lib.Dialogue
import Unroxy.Lib.Sha1
import Unroxy.Lib.Utf8
import Unroxy.Lib.Address
import Unroxy.Lib.Text
import Unroxy.Lib.IpReader
import Unroxy.Lib.Dedup
import Unroxy.OpenVpn.Config
import Unroxy.OpenVpn.Profile
import Unroxy.OpenVpn.Push
import Unroxy.OpenVpn.Replay
import Unroxy.OpenVpn.Packet
import Unroxy.OpenVpn.DataCipher
import Unroxy.OpenVpn.Control
import Unroxy.OpenVpn.ControlStream
import Unroxy.OpenVpn.ControlDelivery
import Unroxy.OpenVpn.ControlTransfer
import Unroxy.OpenVpn.ControlAck
import Unroxy.OpenVpn.ControlWire
import Unroxy.OpenVpn.Intake
import Unroxy.OpenVpn.ForeignPackets
import Unroxy.OpenVpn.ForeignRuns
import Unroxy.OpenVpn.Negotiation
import Unroxy.OpenVpn.NegotiationRun
import Unroxy.OpenVpn.DataSend
import Unroxy.OpenVpn.DataLayout
import Unroxy.OpenVpn.DataReceive
import Unroxy.OpenVpn.DataRoundTrip
import Unroxy.OpenVpn.Framing
import Unroxy.OpenVpn.Stack
import Unroxy.OpenVpn.StreamRead
import Unroxy.OpenVpn.StackLoop
import Unroxy.OpenVpn.StackTable
import Unroxy.OpenVpn.StackRuns
import Unroxy.OpenVpn.Prf
import Unroxy.OpenVpn.TlsPipe
import Unroxy.OpenVpn.ControlCalls
import Unroxy.OpenVpn.ControlLink
import Unroxy.OpenVpn.Establish
import Unroxy.Proxy.Pool
import Unroxy.Proxy.Rotation
import Unroxy.Proxy.Priorities
import Unroxy.Proxy.Select
import Unroxy.Proxy.Request
import Unroxy.Proxy.Pools
import Unroxy.Proxy.PoolGraph
import Unroxy.Proxy.Views
import Unroxy.Proxy.Server
import Unroxy.Proxy.Target
import Unroxy.Proxy.RewritePath
import Unroxy.Proxy.TargetUri
import Unroxy.Proxy.Headers
import Unroxy.Proxy.Forwarding
import Unroxy.Proxy.Credentials
import Unroxy.Proxy.Geo
import Unroxy.Proxy.SplitAuthority
import Unroxy.Proxy.Regions
import Unroxy.Proxy.Provenance
import Unroxy.Proxy.Merging
import Unroxy.Proxy.Provider
import Unroxy.Proxy.Isolation
import Unroxy.Proxy.Registry
import Unroxy.Proxy.Supervision
import Unroxy.Proxy.Routes
import Unroxy.Proxy.Agreement
import Unroxy.Vpn.AccountProfile
import Unroxy.Vpn.Account
import Unroxy.Vpn.Runtime
import Unroxy.Vpn.Recovery
import Unroxy.Vpn.History
import Unroxy.Vpn.IdleClock
import Unroxy.Vpn.Backoff
import Unroxy.Vpn.Interleaving
import Unroxy.Vpn.Counters
import Unroxy.Vpn.Retirement
import Unroxy.Vpn.ClientCache
import Unroxy.Ssh.Manager
import Unroxy.Ssh.PoolBound
import Unroxy.Ssh.Custody
import Unroxy.Ssh.Handshakes
import Unroxy.Ssh.Refresh
import Unroxy.Ssh.PickAccount
import Unroxy.Ssh.Exits
import Unroxy.Ssh.ExitEvents
import Unroxy.Ssh.ExitOrigin
import Unroxy.Ssh.Socks
import Unroxy.Ssh.SocksServe
import Unroxy.Ssh.ExitKey
import Unroxy.Ssh.Rc4
import Unroxy.Ssh.Rc4Stream
import Unroxy.Ssh.Ossh
import Unroxy.Ssh.OsshWrite
import Unroxy.Ssh.OsshRead
import Unroxy.Ssh.Normalize
import Unroxy.Ssh.OsshServer
import Unroxy.Ssh.OsshDecode
import Unroxy.Ssh.OsshCorrupt
import Unroxy.Ssh.OsshLoops
import Unroxy.Ssh.OsshFraming
import Unroxy.Ssh.OsshPanic
import Unroxy.Ssh.OsshRetry
import Unroxy.Proxy.Handle
import Unroxy.Proxy.Growth
import Unroxy.Proxy.Serving
import Unroxy.Proxy.ServingRuns
