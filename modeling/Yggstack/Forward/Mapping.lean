import Yggstack.Library.Inet

namespace Yggstack.Forward

open Library.Inet

structure Mapping where
  listen : SocketAddr
  target : SocketAddr
  deriving DecidableEq

def quoted (s : String) : String := "'" ++ s ++ "'"

def except {α : Type} (e : String) : Option α → Except String α
  | some a => .ok a
  | none => .error e

def rsplitOnce (c : Char) (cs : List Char) : Option (List Char × List Char) :=
  if c ∈ cs then
    let after := cs.reverse.takeWhile (· ≠ c)
    some (cs.take (cs.length - after.length - 1), after.reverse)
  else none

def trimEndMatches (p : Char → Bool) (cs : List Char) : List Char :=
  (cs.reverse.dropWhile p).reverse

def trimMatches (p : Char → Bool) (cs : List Char) : List Char :=
  trimEndMatches p (cs.dropWhile p)

def parsePort (cs : List Char) : Option UInt16 := parseU16 (String.ofList cs)

def parseHostPort (s : List Char) : Option (String × UInt16) :=
  match parseSocket (String.ofList s) with
  | some sa => some (sa.ip.display, sa.port)
  | none => do
    let (host, port) ← rsplitOnce ':' s
    let port ← parsePort port
    return (String.ofList (trimMatches (fun c => c = '[' ∨ c = ']') host), port)

def splitRemoteAddr (value : String) (rest : List Char) :
    Except String (List Char × List Char) :=
  if rest.getLast? = some ']' then do
    let (before, addr) ← except ("unmatched '[' in " ++ quoted value) (rsplitOnce '[' rest)
    return (addr.dropLast, trimEndMatches (· = ':') before)
  else
    match rsplitOnce ':' rest with
    | some (before, addr) => return (addr, trimEndMatches (· = ':') before)
    | none => return (rest, [])

def parseMapping (value : String) : Except String (Option String × UInt16 × String × UInt16) := do
  let (rest, port) ← except ("malformed mapping " ++ quoted value) (rsplitOnce ':' value.toList)
  let remotePort ← except ("invalid port in " ++ quoted value) (parsePort port)
  let (addr, rest) ← splitRemoteAddr value rest
  if addr = [] then
    throw ("missing remote address in " ++ quoted value)
  if ':' ∉ addr then
    throw ("remote address " ++ quoted (String.ofList addr) ++
      " must be an IPv6 address (Yggdrasil)")
  let (localAddr, localPort) ←
    if rest = [] then pure (none, remotePort)
    else
      match parseHostPort rest with
      | some (h, p) => pure (if h = "" then none else some h, p)
      | none => do
        let p ← except ("invalid local spec " ++ quoted (String.ofList rest) ++ " in " ++
          quoted value) (parsePort rest)
        pure (none, p)
  return (localAddr, localPort, String.ofList addr, remotePort)

def splitParts (cs : List Char) : List (List Char) :=
  let cut (cs : List Char) : Option (List Char × List Char) :=
    if ':' ∈ cs then
      let first := cs.takeWhile (· ≠ ':')
      some (first, cs.drop (first.length + 1))
    else none
  match cut cs with
  | none => [cs]
  | some (a, cs) =>
    match cut cs with
    | none => [a, cs]
    | some (b, cs) => [a, b, cs]

def invalidPort (part : List Char) : String := "invalid port " ++ quoted (String.ofList part)

def parseRemoteMapping (value : String) : Except String (UInt16 × Option String × UInt16) :=
  match splitParts value.toList with
  | [a] => do
    let port ← except (invalidPort a) (parsePort a)
    return (port, none, port)
  | [a, b] => do
    let rport ← except (invalidPort a) (parsePort a)
    let lport ← except (invalidPort b) (parsePort b)
    return (rport, none, lport)
  | [a, _, _] => do
    let rport ← except (invalidPort a) (parsePort a)
    let rest := value.toList.drop (a.length + 1)
    let (host, lport) ← except ("invalid local spec " ++ quoted (String.ofList rest) ++ " in " ++
      quoted value) (parseHostPort rest)
    return (rport, some host, lport)
  | _ => .error ("too many tokens in " ++ quoted value)

def hostAddr (host : Option String) (default : IpAddr) : Except String IpAddr :=
  match host with
  | some a => except ("invalid address " ++ quoted a) (parseIp a)
  | none => .ok default

namespace Mapping

def parseLocal (value : String) : Except String Mapping := do
  let (localAddr, localPort, remoteAddr, remotePort) ← parseMapping value
  let listenIp ← hostAddr localAddr unspecified
  let remoteIp ← except ("invalid IPv6 " ++ quoted remoteAddr) (parseIpv6 remoteAddr)
  return { listen := ⟨listenIp, localPort⟩, target := ⟨.v6 remoteIp, remotePort⟩ }

def parseRemote (value : String) : Except String Mapping := do
  let (remotePort, localAddr, localPort) ← parseRemoteMapping value
  let localIp ← hostAddr localAddr localhost
  return { listen := ⟨unspecified, remotePort⟩, target := ⟨localIp, localPort⟩ }

end Mapping

inductive Kind where
  | localTcp
  | localUdp
  | remoteTcp
  | remoteUdp
  deriving DecidableEq

namespace Kind

def isUdp : Kind → Bool
  | .localUdp | .remoteUdp => true
  | _ => false

def isRemote : Kind → Bool
  | .remoteTcp | .remoteUdp => true
  | _ => false

def parse (kind : Kind) (spec : String) : Except String Mapping :=
  if kind.isRemote then Mapping.parseRemote spec else Mapping.parseLocal spec

end Kind

def mappingKey (label listen : String) (m : Mapping) : String :=
  label ++ ":" ++ listen ++ "->" ++ m.target.display

def localTcpKey (m : Mapping) : String := mappingKey "ltcp" m.listen.display m

def remoteTcpKey (m : Mapping) : String := mappingKey "rtcp" (toString m.listen.port.toNat) m

def localUdpKey (m : Mapping) : String := mappingKey "ludp" m.listen.display m

def remoteUdpKey (m : Mapping) : String := mappingKey "rudp" (toString m.listen.port.toNat) m

def Kind.key : Kind → Mapping → String
  | .localTcp => localTcpKey
  | .localUdp => localUdpKey
  | .remoteTcp => remoteTcpKey
  | .remoteUdp => remoteUdpKey

lemma label_append_ne {a b : String} (h : a.toList ≠ b.toList)
    (hlen : a.toList.length = b.toList.length) (x y : String) : a ++ x ≠ b ++ y := by
  intro he
  have hl := congrArg String.toList he
  rw [String.toList_append, String.toList_append] at hl
  exact h (List.append_inj_left hl hlen)

lemma Kind.key_ne {k k' : Kind} (h : k ≠ k') (m m' : Mapping) : k.key m ≠ k'.key m' := by
  cases k <;> cases k' <;> first
    | exact absurd rfl h
    | simp only [Kind.key, localTcpKey, localUdpKey, remoteTcpKey, remoteUdpKey, mappingKey,
        String.append_assoc]
      exact label_append_ne (by decide) (by decide) _ _

end Yggstack.Forward
