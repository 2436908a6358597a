import Yggstack.Library.Dialogue
import Yggstack.Library.Inet
import Yggstack.Library.Text

/-! `handle_client` of the SOCKS5 server, up to the relay. The environment cuts the client's stream
into reads, and says how names, dials and binds turn out. -/

namespace Yggstack.Socks

open Library Inet

def socks5Version : UInt8 := 5
def authNoAuth : UInt8 := 0x00
def authNoAcceptable : UInt8 := 0xFF
def cmdConnect : UInt8 := 0x01
def cmdUdpAssociate : UInt8 := 0x03
def atypIpv4 : UInt8 := 0x01
def atypDomain : UInt8 := 0x03
def atypIpv6 : UInt8 := 0x04
def repSuccess : UInt8 := 0x00
def repGeneralFailure : UInt8 := 0x01
def repConnRefused : UInt8 := 0x05
def repAddrTypeUnsupported : UInt8 := 0x08

inductive ErrorKind where
  | invalidData
  | permissionDenied
  | unsupported
  | connectionRefused
  | unexpectedEof
  | other
  deriving DecidableEq

structure IoError where
  kind : ErrorKind
  message : String
  deriving DecidableEq

inductive Destination where
  | ip (ip : IpAddr)
  | domain (name : List Char)
  deriving DecidableEq

-- What a client's handler asks of the rest of the program and of the system. A bind answers with
-- the address that was bound.
inductive Question where
  | resolve (name : List Char)
  | dialTcp (remote : SocketAddr)
  | localAddr
  | bindUdp (addr : SocketAddr)
  deriving DecidableEq

def Answer : Question → Type
  | .resolve _ => Except String (BitVec 128)
  | .dialTcp _ => Except IoError Unit
  | .localAddr => Except IoError SocketAddr
  | .bindUdp _ => Except IoError SocketAddr

instance (q : Question) : Nonempty (Answer q) := by
  cases q with
  | resolve name => exact ⟨.error ""⟩
  | dialTcp remote => exact ⟨.ok ()⟩
  | localAddr => exact ⟨.ok ⟨unspecified, 0⟩⟩
  | bindUdp addr => exact ⟨.ok addr⟩

inductive Ended where
  | relaying (remote : SocketAddr)
  | associated (relay : SocketAddr)
  deriving DecidableEq

abbrev Io (α : Type) := Dialogue IoError UInt8 Question Answer α

abbrev Item := Dialogue.Item UInt8 Question Answer

def eof : IoError := ⟨.unexpectedEof, "early eof"⟩

def resolve (name : List Char) : Io (Except String (BitVec 128)) := 
  Dialogue.question (Question.resolve name)

def dialTcp (remote : SocketAddr) : Io (Except IoError Unit) := 
  Dialogue.question (Question.dialTcp remote)

def localAddr : Io (Except IoError SocketAddr) := Dialogue.question Question.localAddr

def bindUdp (addr : SocketAddr) : Io (Except IoError SocketAddr) := 
  Dialogue.question (Question.bindUdp addr)

def readU8 : Io UInt8 := do
  let bytes ← Dialogue.read 1
  return bytes.headD 0

def readU16 : Io UInt16 := do
  let bytes ← Dialogue.read 2
  return .ofNat (bigEndian bytes)

def domainOf (buf : List UInt8) : Except IoError Destination :=
  match fromUtf8 buf with
  | some name => .ok (.domain name)
  | none => .error ⟨.invalidData, "invalid domain"⟩

def readAddress (atyp : UInt8) : Io Destination :=
  if atyp = atypIpv4 then do
    let buf ← Dialogue.read 4
    return .ip (.v4 (.ofNat 32 (bigEndian buf)))
  else if atyp = atypIpv6 then do
    let buf ← Dialogue.read 16
    return .ip (.v6 (.ofNat 128 (bigEndian buf)))
  else if atyp = atypDomain then do
    let len ← readU8
    let buf ← Dialogue.read len.toNat
    .done (domainOf buf)
  else Dialogue.fail ⟨.invalidData, "unknown ATYP " ++ toString atyp.toNat⟩

def portOctets (port : UInt16) : List UInt8 := toBigEndian 2 port.toNat

def addrOctets (addr : SocketAddr) : List UInt8 :=
  match addr.ip with
  | .v4 ip => atypIpv4 :: (ipv4Octets ip ++ portOctets addr.port)
  | .v6 ip => atypIpv6 :: (ipv6Octets ip ++ portOctets addr.port)

def replyBytes (rep : UInt8) (bound : Option SocketAddr) : List UInt8 :=
  [socks5Version, rep, 0x00] ++
    match bound with
    | some addr => addrOctets addr
    | none => atypIpv6 :: (List.replicate 16 0 ++ List.replicate 2 0)

def sendReply (rep : UInt8) (bound : Option SocketAddr) : Io Unit :=
  Dialogue.write (replyBytes rep bound)

def connectTo (remote : SocketAddr) : Io Ended := do
  match ← dialTcp remote with
  | .ok () =>
    sendReply repSuccess (some remote)
    return .relaying remote
  | .error e =>
    sendReply (if e.kind = .connectionRefused then repConnRefused else repGeneralFailure) none
    Dialogue.fail e

def handleConnect (dest : Destination) (port : UInt16) : Io Ended :=
  match dest with
  | .ip ip => connectTo ⟨ip, port⟩
  | .domain name => do
    match ← resolve name with
    | .ok ip6 => connectTo ⟨.v6 ip6, port⟩
    | .error e =>
      sendReply repGeneralFailure none
      Dialogue.fail ⟨.other, e⟩

def handleUdpAssociate : Io Ended := do
  match ← localAddr with
  | .error e => Dialogue.fail e
  | .ok localTcpAddr =>
    match ← bindUdp ⟨localTcpAddr.ip, 0⟩ with
    | .error e => Dialogue.fail e
    | .ok relayAddr =>
      sendReply repSuccess (some relayAddr)
      return .associated relayAddr

def handleRequest (cmd : UInt8) (dest : Destination) (port : UInt16) : Io Ended :=
  if cmd = cmdConnect then handleConnect dest port
  else if cmd = cmdUdpAssociate then handleUdpAssociate
  else do
    sendReply repGeneralFailure none
    Dialogue.fail ⟨.unsupported, "unsupported CMD " ++ toString cmd.toNat⟩

def readRequest : Io Ended := do
  let ver ← readU8
  if ver ≠ socks5Version then Dialogue.fail ⟨.invalidData, "bad version"⟩
  else do
    let cmd ← readU8
    let _rsv ← readU8
    let atyp ← readU8
    match ← (readAddress atyp).attempt with
    | .error e =>
      sendReply repAddrTypeUnsupported none
      Dialogue.fail e
    | .ok dest =>
      let port ← readU16
      handleRequest cmd dest port

def handleClient : Io Ended := do
  let ver ← readU8
  if ver ≠ socks5Version then Dialogue.fail ⟨.invalidData, "not SOCKS5"⟩
  else do
    let nmethods ← readU8
    let methods ← Dialogue.read nmethods.toNat
    if authNoAuth ∈ methods then do
      Dialogue.write [socks5Version, authNoAuth]
      readRequest
    else do
      Dialogue.write [socks5Version, authNoAcceptable]
      Dialogue.fail ⟨.permissionDenied, "no acceptable auth"⟩

end Yggstack.Socks
