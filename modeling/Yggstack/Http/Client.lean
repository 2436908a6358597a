import Yggstack.Http.Head
import Yggstack.Library.Inet
import Yggstack.Relay.Flow

/-! `handle_client` of the HTTP proxy, from the first byte of the client to the end of the relay.
The environment decides what the endpoints send, how much each read and write moves, and how names
and dials turn out. -/

namespace Yggstack.Http

open Library Inet Relay

inductive Job where
  | connect (host : List Char) (port : UInt16)
  | forward (req : Request) (target : ForwardTarget)
  deriving DecidableEq

namespace Job

def host : Job → List Char
  | .connect host _ => host
  | .forward _ target => target.host

def port : Job → UInt16
  | .connect _ port => port
  | .forward _ target => target.port

def lead : Job → List UInt8
  | .connect _ _ => []
  | .forward req target => utf8 (rewriteHead req target)

end Job

-- Where `handle_client` is waiting. Behind a `write_all` stands what it was given, and what of it
-- is still to go.
inductive Phase where
  | head (buf : List UInt8)
  | resolving (job : Job) (extra : List UInt8)
  | dialing (job : Job) (remote : SocketAddr) (extra : List UInt8)
  | refusing (rest : List UInt8) (error : IoError)
  | establishing (rest extra : List UInt8)
  | sendingHead (outHead rest extra : List UInt8)
  | sendingExtra (extra rest : List UInt8)
  | relaying
  | done (result : Except IoError Unit)

def Phase.dialed : Phase → Bool
  | .establishing _ _ | .sendingHead _ _ _ | .sendingExtra _ _ | .relaying => true
  | _ => false

def simpleResponse (code : ℕ) (reason : String) : List UInt8 :=
  utf8 ("HTTP/1.1 " ++ toString code ++ " " ++ reason ++
    "\r\nContent-Length: 0\r\nConnection: close\r\n\r\n").toList

def badRequest : List UInt8 := simpleResponse 400 "Bad Request"

def badGateway : List UInt8 := simpleResponse 502 "Bad Gateway"

def connectMethod : List Char := "CONNECT".toList

def handleClient (head extra : List UInt8) : Phase :=
  match parseRequest head with
  | .error e => .refusing badRequest e
  | .ok req =>
    if req.method = connectMethod then
      match splitAuthority req.target 443 with
      | none => .done (.error .badConnectAuthority)
      | some (host, port) => .resolving (.connect host port) extra
    else
      match forwardTarget req with
      | .error e => .refusing badRequest e
      | .ok target => .resolving (.forward req target) extra

def headTurn (buf : List UInt8) : Phase :=
  match headOf buf with
  | none => .head buf
  | some (.error e) => .done (.error e)
  | some (.ok (head, extra)) => handleClient head extra

def resolveRemote (host : List Char) (port : UInt16) (answer : Except String (BitVec 128)) :
    Except String SocketAddr :=
  match parseWith readIpv6 host with
  | some ip => .ok ⟨.v6 ip, port⟩
  | none =>
    match parseWith readIpv4 host with
    | some ip => .ok ⟨.v4 ip, port⟩
    | none => answer.map fun ip => ⟨.v6 ip, port⟩

def afterHead (extra : List UInt8) : Phase :=
  if extra = [] then .relaying else .sendingExtra extra extra

def onDialed (extra : List UInt8) : Job → Phase
  | .connect _ _ => .establishing connectionEstablished extra
  | .forward req target =>
    .sendingHead (utf8 (rewriteHead req target)) (utf8 (rewriteHead req target)) extra

def writeAll (rest : List UInt8) : Io → Option (Except IoError (List UInt8 × List UInt8))
  | .write k =>
    if k = 0 then some (.error .writeZero)
    else if k ≤ rest.length then some (.ok (rest.take k, rest.drop k))
    else none
  | .writeError => some (.error .write)
  | _ => none

-- The `tx` leg of the relay is the stream from the client to the origin from its first byte on, the
-- `rx` leg the one back.
structure Client where
  relay : Relay
  phase : Phase

namespace Client

variable (c : Client)

def sent : List UInt8 := c.relay.tx.sent

def consumed : ℕ := c.relay.tx.consumed

def output : List UInt8 := c.relay.tx.output

def toClient (bytes : List UInt8) : Relay :=
  { c.relay with rx := { c.relay.rx with output := c.relay.rx.output ++ bytes } }

def toOrigin (bytes : List UInt8) : Relay :=
  { c.relay with tx := { c.relay.tx with output := c.relay.tx.output ++ bytes } }

def counted (r : Relay) (n : ℕ) : Relay := { r with entry := r.entry.count n .tx }

def fail (e : IoError) : Client := { c with phase := .done (.error e) }

def readHead (buf : List UInt8) : Io → Option Client
  | .read n =>
    if n = 0 then
      if c.relay.tx.closed ∧ c.relay.tx.unread = [] then some (c.fail .eofInHead) else none
    else if n ≤ chunkLen ∧ n ≤ c.relay.tx.unread.length then
      some { relay := { c.relay with tx := { c.relay.tx with consumed := c.consumed + n } },
             phase := headTurn (buf ++ c.relay.tx.unread.take n) }
    else none
  | .readError => some (c.fail .read)
  | _ => none

def io (answer : Io) : Option Client :=
  match c.phase with
  | .head buf => c.readHead buf answer
  | .refusing rest e =>
    match writeAll rest answer with
    | none => none
    | some (.error _) => some (c.fail e)
    | some (.ok (bytes, rest)) =>
      some { relay := c.toClient bytes,
             phase := if rest = [] then .done (.error e) else .refusing rest e }
  | .establishing rest extra =>
    match writeAll rest answer with
    | none => none
    | some (.error e) => some (c.fail e)
    | some (.ok (bytes, rest)) =>
      some { relay := c.toClient bytes,
             phase := if rest = [] then afterHead extra else .establishing rest extra }
  | .sendingHead outHead rest extra =>
    match writeAll rest answer with
    | none => none
    | some (.error e) => some (c.fail e)
    | some (.ok (bytes, rest)) =>
      if rest = [] then
        some { relay := counted (c.toOrigin bytes) outHead.length, phase := afterHead extra }
      else some { relay := c.toOrigin bytes, phase := .sendingHead outHead rest extra }
  | .sendingExtra extra rest =>
    match writeAll rest answer with
    | none => none
    | some (.error e) => some (c.fail e)
    | some (.ok (bytes, rest)) =>
      if rest = [] then
        some { relay := counted (c.toOrigin bytes) extra.length, phase := .relaying }
      else some { relay := c.toOrigin bytes, phase := .sendingExtra extra rest }
  | _ => none

def resolved (answer : Except String (BitVec 128)) : Option Client :=
  match c.phase with
  | .resolving job extra =>
    match resolveRemote job.host job.port answer with
    | .error e => some { c with phase := .refusing badGateway (.unresolved e) }
    | .ok remote => some { c with phase := .dialing job remote extra }
  | _ => none

def dialed (ok : Bool) : Option Client :=
  match c.phase with
  | .dialing job _ extra =>
    if ok then some { c with phase := onDialed extra job }
    else some { c with phase := .refusing badGateway .dial }
  | _ => none

def relayed (ev : Relay.Event) : Option Client :=
  match c.phase with
  | .relaying =>
    match c.relay.exec ev with
    | none => none
    | some r => some { relay := r, phase := if r.ended.isSome then .done (.ok ()) else .relaying }
  | _ => none

def endpoint (dir : Dir) (ev : Relay.Event) : Option Client :=
  if dir = .tx ∨ c.phase.dialed then
    match c.relay.exec ev with
    | none => none
    | some r => some { c with relay := r }
  else none

end Client

inductive Event where
  | send (dir : Dir) (bytes : List UInt8)
  | close (dir : Dir)
  | reset
  | io (answer : Io)
  | resolved (answer : Except String (BitVec 128))
  | dialed (ok : Bool)
  | copy (dir : Dir) (answer : Io)
  | stop
  | elsewhere (dir : Dir) (n : ℕ)

namespace Client

def exec (c : Client) : Event → Option Client
  | .send dir bytes => c.endpoint dir (.send dir bytes)
  | .close dir => c.endpoint dir (.close dir)
  | .reset => c.endpoint .rx .reset
  | .io answer => c.io answer
  | .resolved answer => c.resolved answer
  | .dialed ok => c.dialed ok
  | .copy dir answer => c.relayed (.io dir answer)
  | .stop => c.relayed .stop
  | .elsewhere dir n => some { c with relay := { c.relay with entry := c.relay.entry.count n dir } }

def Step (c : Client) (ev : Event) (c' : Client) : Prop := c.exec ev = some c'

def start (entry : ListenerStats) : Client :=
  { relay := .start [] [] entry, phase := headTurn [] }

end Client

inductive Asks (req : Request) : Job → Prop
  | connect {host : List Char} {port : UInt16} : req.method = connectMethod →
      splitAuthority req.target 443 = some (host, port) → Asks req (.connect host port)
  | forward {target : ForwardTarget} : req.method ≠ connectMethod →
      forwardTarget req = .ok target → Asks req (.forward req target)

def Phase.ending : Phase → Bool
  | .refusing _ _ | .done _ => true
  | _ => false

lemma handleClient_cases (head extra : List UInt8) :
    (handleClient head extra).ending = true ∨ ∃ req job, parseRequest head = .ok req ∧ Asks req job ∧
      handleClient head extra = .resolving job extra := by
  rw [handleClient]
  split
  · exact .inl rfl
  · next req hreq =>
    split
    · next hconnect =>
      split
      · exact .inl rfl
      · next host port hsplit => exact .inr ⟨req, _, hreq, .connect hconnect hsplit, rfl⟩
    · next hconnect =>
      split
      · exact .inl rfl
      · next target htarget => exact .inr ⟨req, _, hreq, .forward hconnect htarget, rfl⟩

end Yggstack.Http
