import Yggstack.Resolver.Failover
import Yggstack.Resolver.Scan

/-! `NameResolver`: literals, keys and names. How the network treats each exchange is given. -/

namespace Yggstack.Resolver

open Library Inet

-- The calls of one exchange over UDP. Nothing received is a deadline that passed.
structure UdpTrip where
  openUdp : Except String Unit
  sendTo : Except String Unit
  recvFrom : Option (Except String (List UInt8))

-- The calls of one exchange over TCP. A read behind the end of `stream` fails with `broken`.
structure TcpTrip where
  dialTcp : Except String Unit
  writeAll : Except String Unit
  stream : List UInt8
  broken : String

structure Trips where
  first : UdpTrip
  retry : UdpTrip
  tcp : TcpTrip

inductive Packet where
  | udp (target : SocketAddr) (payload : List UInt8)
  | tcp (target : SocketAddr) (framed : List UInt8)

def Packet.query : Packet → List UInt8
  | .udp _ payload => payload
  | .tcp _ framed => framed.drop 2

def dnsLookupUdp (query : List UInt8) (nsAddr : SocketAddr) (trip : UdpTrip) :
    List Packet × Except String (List UInt8) :=
  match trip.openUdp with
  | .error e => ([], .error ("UDP open: " ++ e))
  | .ok () =>
    match trip.sendTo with
    | .error e => ([], .error ("DNS UDP send: " ++ e))
    | .ok () =>
      ([.udp nsAddr query],
        match trip.recvFrom with
        | none => .error "DNS UDP timeout"
        | some (.error e) => .error ("DNS UDP recv: " ++ e)
        | some (.ok resp) => .ok resp)

def TcpTrip.readExact (trip : TcpTrip) (stream : List UInt8) (n : ℕ) :
    Except String (List UInt8 × List UInt8) :=
  if n ≤ stream.length then .ok (stream.take n, stream.drop n) else .error trip.broken

def dnsLookupTcp (query : List UInt8) (nsAddr : SocketAddr) (trip : TcpTrip) :
    List Packet × Except String (List UInt8) :=
  let framed := beBytes16 (.ofNat query.length) ++ query
  match trip.dialTcp with
  | .error e => ([], .error ("DNS connect: " ++ e))
  | .ok () =>
    match trip.writeAll with
    | .error e => ([], .error ("DNS write: " ++ e))
    | .ok () =>
      ([.tcp nsAddr framed], do
        let (lenBuf, rest) ← (trip.readExact trip.stream 2).mapError ("DNS read len: " ++ ·)
        let (resp, _) ← (trip.readExact rest (bigEndian lenBuf)).mapError ("DNS read body: " ++ ·)
        return resp)

def nameserverAddr (nameserver : String) : Except String SocketAddr :=
  match parseSocket nameserver <|> parseSocket ("[" ++ nameserver ++ "]:53") with
  | some nsAddr => .ok nsAddr
  | none => .error ("invalid nameserver address '" ++ nameserver ++ "'")

def truncated (resp : List UInt8) : Bool := 3 ≤ resp.length ∧ resp.getD 2 0 &&& 0x02 ≠ 0

def udpExchange (query : List UInt8) (nsAddr : SocketAddr) (trips : Trips) :
    List Packet × Except String (List UInt8) :=
  match dnsLookupUdp query nsAddr trips.first with
  | (sent, .ok resp) => (sent, .ok resp)
  | (sent, .error _) =>
    let (resent, result) := dnsLookupUdp query nsAddr trips.retry
    (sent ++ resent, result)

def exchange (query : List UInt8) (nsAddr : SocketAddr) (trips : Trips) :
    List Packet × Except String (List UInt8) :=
  let (streamed, tcpResult) := dnsLookupTcp query nsAddr trips.tcp
  match udpExchange query nsAddr trips with
  | (sent, .ok resp) => if truncated resp then (sent ++ streamed, tcpResult) else (sent, .ok resp)
  | (sent, .error _) => (sent ++ streamed, tcpResult)

def scanAaaa (resp : List UInt8) : Option (BitVec 128) :=
  match h : parseDnsAaaaResponse resp with
  | .ok result => result
  | .error p => absurd (parseDnsAaaaResponse_ok resp) (by simp [h])

def classify (resp : List UInt8) : DnsAnswer :=
  match scanAaaa resp with
  | some ip => .ip ip
  | none => .noRecord

def dnsLookupIpv6 (name nameserver : String) (trips : Trips) :
    List Packet × Except String DnsAnswer :=
  match nameserverAddr nameserver with
  | .error e => ([], .error e)
  | .ok nsAddr =>
    let (sent, result) := exchange (buildDnsQuery name 28) nsAddr trips
    (sent, result.map classify)

def nameMappingSuffix : List Char := ".pk.ygg".toList

def lastLabel (cs : List Char) : List Char := cs.rtakeWhile (· ≠ '.')

-- Functions of other crates: `hex::decode` and `addr_for_key`.
structure Crates where
  hexDecode : List Char → Except String (List UInt8)
  addrForKey : List UInt8 → BitVec 128

def resolveKey (crates : Crates) (name : List Char) : Except String (BitVec 128) :=
  match crates.hexDecode (lastLabel (trimEndMatches nameMappingSuffix name)) with
  | .error e => .error ("hex decode: " ++ e)
  | .ok bytes =>
    if bytes.length ≠ 32 then
      .error ("public key must be 32 bytes, got " ++ toString bytes.length)
    else .ok (crates.addrForKey bytes)

-- What happens around a lookup: on the way to each server, and at what time. `late` is a server on
-- which the attempt runs into its deadline.
structure Surroundings where
  trips : ℕ → Trips
  late : ℕ → Bool
  now : ℕ
  clock : ℕ → ℕ

structure NameResolver where
  nameservers : List String
  failover : Option FailoverState
  paired : 1 < nameservers.length → failover.isSome
  cursor : ∀ f ∈ failover, f.current < nameservers.length

def attemptOn (name : String) (servers : List String) (around : Surroundings) (i : ℕ) : Attempt :=
  if around.late i then .timedOut
  else .exchanged (dnsLookupIpv6 name (servers.getD i "") (around.trips i)).2

namespace NameResolver

variable (r : NameResolver) (name : String) (around : Surroundings)

def query : Query := ⟨name, r.nameservers, attemptTimeout⟩

def failoverWalk (h : 1 < r.nameservers.length) : Lookup × FailoverState :=
  resolveWithFailover (r.query name) (r.failover.get (r.paired h)) around.now
    (attemptOn name r.nameservers around) around.clock

def resolveDns : Except String (BitVec 128) × Option FailoverState :=
  if hempty : r.nameservers = [] then
    (.error ("no nameserver configured; cannot resolve '" ++ name ++ "'"), r.failover)
  else if hone : r.nameservers.length = 1 then
    (match (dnsLookupIpv6 name (r.nameservers.head hempty) (around.trips 0)).2 with
      | .ok (.ip ip) => .ok ip
      | .ok .noRecord => .error (r.query name).noRecordError
      | .error e => .error e, r.failover)
  else
    have hmany : 1 < r.nameservers.length := by
      have := List.length_pos_of_ne_nil hempty
      omega
    let (walk, failover) := r.failoverWalk name around hmany
    (walk.result.getD (.error (walk.query.allFailedError walk.lastErr)), some failover)

def resolve (crates : Crates) : Except String (BitVec 128) × Option FailoverState :=
  match parseIpv6 name with
  | some ip => (.ok ip, r.failover)
  | none =>
    if nameMappingSuffix <:+ name.toList then (resolveKey crates name.toList, r.failover)
    else r.resolveDns name around

end NameResolver

end Yggstack.Resolver
