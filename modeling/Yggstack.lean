import Yggstack.Library.Store
import Yggstack.Library.Slices
import Yggstack.Library.Segments
import Yggstack.Library.Sweep
import Yggstack.Library.Outcomes
import Yggstack.Library.Runs
import Yggstack.Library.Fifo
import Yggstack.Library.Dialogue
import Yggstack.Library.Ledger
import Yggstack.Library.Tables
import Yggstack.Library.Broadcast
import Yggstack.Library.Inet
import Yggstack.Library.InetText
import Yggstack.Library.InetExact
import Yggstack.Library.InetLocal
import Yggstack.Library.Text
import Yggstack.Library.Sorting
import Yggstack.Library.Lines
import Yggstack.Frag.Packet
import Yggstack.Frag.Reassembler
import Yggstack.Frag.Slots
import Yggstack.Frag.Semantics
import Yggstack.Frag.Delivery
import Yggstack.Frag.Holes
import Yggstack.Frag.Isolation
import Yggstack.Frag.Assembly
import Yggstack.Frag.Outputs
import Yggstack.Netstack.Sockets
import Yggstack.Netstack.State
import Yggstack.Netstack.Ops
import Yggstack.Netstack.System
import Yggstack.Netstack.Passes
import Yggstack.Netstack.Service
import Yggstack.Netstack.Cycle
import Yggstack.Netstack.Access
import Yggstack.Netstack.Invariant
import Yggstack.Netstack.Moves
import Yggstack.Netstack.Ownership
import Yggstack.Netstack.Listening
import Yggstack.Netstack.Promotion
import Yggstack.Netstack.Wakers
import Yggstack.Netstack.Pools
import Yggstack.Netstack.Growth
import Yggstack.Netstack.Dialing
import Yggstack.Netstack.Ports
import Yggstack.Netstack.Halted
import Yggstack.Netstack.Stopped
import Yggstack.Netstack.Abandoned
import Yggstack.Netstack.Hiding
import Yggstack.Netstack.Mirror
import Yggstack.Netstack.Leaks
import Yggstack.Netstack.Objects
import Yggstack.Netstack.Streams
import Yggstack.Netstack.Parked
import Yggstack.Netstack.Reaping
import Yggstack.Netstack.Device
import Yggstack.Netstack.Tasks
import Yggstack.Netstack.Pipeline
import Yggstack.Relay.Copy
import Yggstack.Relay.Flow
import Yggstack.Resolver.Failover
import Yggstack.Resolver.Lookups
import Yggstack.Resolver.Cooldown
import Yggstack.Resolver.Wire
import Yggstack.Resolver.Scan
import Yggstack.Resolver.Message
import Yggstack.Resolver.Resolve
import Yggstack.Resolver.Servers
import Yggstack.Resolver.Answers
import Yggstack.Resolver.Keys
import Yggstack.Forward.Mapping
import Yggstack.Forward.Specs
import Yggstack.Forward.Stats
import Yggstack.Forward.Listener
import Yggstack.Forward.Udp
import Yggstack.Forward.Sessions
import Yggstack.Forward.Eviction
import Yggstack.Forward.Orphans
import Yggstack.Http.Head
import Yggstack.Http.Padding
import Yggstack.Http.Rewrite
import Yggstack.Http.Client
import Yggstack.Http.Reach
import Yggstack.Http.Tunnel
import Yggstack.Http.Pipelining
import Yggstack.Http.Authority
import Yggstack.Http.Host
import Yggstack.Http.Limit
import Yggstack.Http.Refusals
import Yggstack.Socks.Client
import Yggstack.Socks.Connect
import Yggstack.Socks.Datagram
import Yggstack.Socks.Associate
import Yggstack.Socks.Agreement
import Yggstack.Ping.Session
import Yggstack.Ping.Reports
import Yggstack.Ping.Socket
import Yggstack.Mobile.System
import Yggstack.Mobile.Moves
import Yggstack.Mobile.Holders
import Yggstack.Mobile.Signals
import Yggstack.Mobile.Registry
import Yggstack.Mobile.Completed
import Yggstack.Mobile.Recorded
import Yggstack.Mobile.Starts
import Yggstack.Mobile.Additions
import Yggstack.Mobile.Connections
import Yggstack.Mobile.Proxies
import Yggstack.Mobile.PeerEvents
import Yggstack.Mobile.Addresses
import Yggstack.Mobile.Quic
import Yggstack.Mobile.Pings
import Yggstack.Mobile.Probe
import Yggstack.Netstack.Cidr
