import Yggstack.Socks.Client

namespace Yggstack.Socks

open Library Inet Dialogue

def greeting (methods : List UInt8) : List UInt8 :=
  socks5Version :: .ofNat methods.length :: methods

namespace Destination

def atyp : Destination → UInt8
  | .ip (.v4 _) => atypIpv4
  | .ip (.v6 _) => atypIpv6
  | .domain _ => atypDomain

def octets : Destination → List UInt8
  | .ip (.v4 bits) => ipv4Octets bits
  | .ip (.v6 bits) => ipv6Octets bits
  | .domain name => .ofNat (utf8 name).length :: utf8 name

def Fits : Destination → Prop
  | .ip _ => True
  | .domain name => (utf8 name).length ≤ 255

end Destination

def connectRequest (rsv : UInt8) (dest : Destination) (port : UInt16) : List UInt8 :=
  [socks5Version, cmdConnect, rsv, dest.atyp] ++ (dest.octets ++ portOctets port)

def received (bytes : List UInt8) : List Item := bytes.map .received

def sent (bytes : List UInt8) : List Item := bytes.map .sent

def CompleteReply (rep : UInt8) (bytes : List UInt8) : Prop :=
  ∃ atyp addr port, bytes = [5, rep, 0, atyp] ++ addr ++ port ∧ port.length = 2 ∧
    (atyp = 1 ∧ addr.length = 4 ∨ atyp = 4 ∧ addr.length = 16 ∨
      ∃ name, atyp = 3 ∧ addr = .ofNat name.length :: name ∧ name.length ≤ 255)

inductive Resolution : Destination → List Item → Option IpAddr → Prop
  | ip (ip : IpAddr) : Resolution (.ip ip) [] (some ip)
  | resolved (name : List Char) (ip6 : BitVec 128) :
      Resolution (.domain name) [.asked (.resolve name) (.ok ip6 : Except String (BitVec 128))]
        (some (.v6 ip6))
  | failed (name : List Char) (e : String) :
      Resolution (.domain name) [.asked (.resolve name) (.error e : Except String (BitVec 128))] none

inductive Connecting (dest : Destination) (port : UInt16) : List Item → Bool → Prop
  | unresolved {asked : List Item} : Resolution dest asked none → Connecting dest port asked false
  | dialed {asked : List Item} {ip : IpAddr} (answer : Except IoError Unit) :
      Resolution dest asked (some ip) →
      Connecting dest port (asked ++ [.asked (.dialTcp ⟨ip, port⟩) answer]) answer.isOk

abbrev Connection := Config IoError UInt8 Question Answer Ended

def Answered (dest : Destination) (port : UInt16) (further : List UInt8) (log : List Item)
    (c : Connection) : Prop :=
  ∃ asked rep reply success result,
    c = ⟨.done result, further, log ++ asked ++ sent reply⟩ ∧ Connecting dest port asked success ∧
      CompleteReply rep reply ∧ (rep = 0 ↔ success = true) ∧ result.isOk = success

section Rules

variable {P : Connection → Prop} {rest : List UInt8} {log : List Item}

lemma inevitable_readU8 {b : UInt8} {f : UInt8 → Io Ended}
    (h : Inevitable (CleanStep eof) P ⟨f b, rest, log ++ received [b]⟩) :
    Inevitable (CleanStep eof) P ⟨readU8 >>= f, b :: rest, log⟩ :=
  inevitable_readExact (rfl : [b].length = 1) h

lemma inevitable_readU16 {port : UInt16} {f : UInt16 → Io Ended}
    (h : Inevitable (CleanStep eof) P ⟨f port, rest, log ++ received (portOctets port)⟩) :
    Inevitable (CleanStep eof) P ⟨readU16 >>= f, portOctets port ++ rest, log⟩ := by
  have hport : UInt16.ofNat (bigEndian (portOctets port)) = port := by
    rw [portOctets, bigEndian_toBigEndian 2 port.toNat_lt, UInt16.ofNat_toNat]
  apply inevitable_readExact (length_toBigEndian 2 _)
  change Inevitable _ P ⟨f (.ofNat (bigEndian (portOctets port))), _, _⟩
  rw [hport]
  exact h

lemma inevitable_read {n : ℕ} {items : List UInt8} {f : List UInt8 → Io Ended}
    (hn : items.length = n)
    (h : Inevitable (CleanStep eof) P ⟨f items, rest, log ++ received items⟩) :
    Inevitable (CleanStep eof) P ⟨Dialogue.read n >>= f, items ++ rest, log⟩ :=
  inevitable_readExact hn h

lemma inevitable_write {items : List UInt8} {f : Unit → Io Ended}
    (h : Inevitable (CleanStep eof) P ⟨f (), rest, log ++ sent items⟩) :
    Inevitable (CleanStep eof) P ⟨Dialogue.write items >>= f, rest, log⟩ :=
  inevitable_writeAll h

lemma inevitable_readAddress {dest : Destination} (hfits : dest.Fits)
    {f : Except IoError Destination → Io Ended}
    (h : Inevitable (CleanStep eof) P ⟨f (.ok dest), rest, log ++ received dest.octets⟩) :
    Inevitable (CleanStep eof) P
      ⟨(readAddress dest.atyp).attempt >>= f, dest.octets ++ rest, log⟩ := by
  match dest with
  | .ip (.v4 bits) =>
    apply inevitable_readExact (length_ipv4Octets bits)
    change Inevitable _ P ⟨f (.ok (.ip (.v4 (.ofNat 32 (bigEndian (ipv4Octets bits)))))), _, _⟩
    rw [ofNat_bigEndian_ipv4Octets]
    exact h
  | .ip (.v6 bits) =>
    apply inevitable_readExact (length_ipv6Octets bits)
    change Inevitable _ P ⟨f (.ok (.ip (.v6 (.ofNat 128 (bigEndian (ipv6Octets bits)))))), _, _⟩
    rw [ofNat_bigEndian_ipv6Octets]
    exact h
  | .domain name =>
    have hlen : (utf8 name).length = (UInt8.ofNat (utf8 name).length).toNat := by
      rw [UInt8.toNat_ofNat', Nat.mod_eq_of_lt (Nat.lt_succ_of_le hfits)]
    apply inevitable_readExact (rfl : [UInt8.ofNat (utf8 name).length].length = 1)
    apply inevitable_readExact hlen
    change Inevitable _ P ⟨(Dialogue.done (domainOf (utf8 name))).attempt >>= f, _, _⟩
    rw [domainOf, fromUtf8_utf8]
    change Inevitable _ P ⟨f (.ok (.domain name)), _, _⟩
    rw [List.append_assoc]
    exact h

end Rules

lemma completeReply_replyBytes (rep : UInt8) (bound : Option SocketAddr) :
    CompleteReply rep (replyBytes rep bound) := by
  match bound with
  | some ⟨.v4 ip, port⟩ =>
    refine ⟨atypIpv4, ipv4Octets ip, portOctets port, ?_, length_toBigEndian 2 _, ?_⟩
    · simp [replyBytes, addrOctets, socks5Version]
    · exact .inl ⟨rfl, length_ipv4Octets ip⟩
  | some ⟨.v6 ip, port⟩ =>
    refine ⟨atypIpv6, ipv6Octets ip, portOctets port, ?_, length_toBigEndian 2 _, ?_⟩
    · simp [replyBytes, addrOctets, socks5Version]
    · exact .inr (.inl ⟨rfl, length_ipv6Octets ip⟩)
  | none => exact ⟨_, List.replicate 16 0, List.replicate 2 0, rfl, rfl, .inr (.inl ⟨rfl, rfl⟩)⟩

variable {dest : Destination} {port : UInt16} {further : List UInt8} {log : List Item}

lemma inevitable_reply {asked : List Item} {rep : UInt8} {bound : Option SocketAddr}
    {success : Bool} {result : Except IoError Ended} (hconnecting : Connecting dest port asked success)
    (hrep : rep = 0 ↔ success = true) (hresult : result.isOk = success) :
    Inevitable (CleanStep eof) (Answered dest port further log)
      ⟨sendReply rep bound >>= fun _ => .done result, further, log ++ asked⟩ := by
  apply inevitable_write
  exact .here ⟨asked, rep, _, success, result, rfl, hconnecting, completeReply_replyBytes rep bound,
    hrep, hresult⟩

lemma inevitable_connectTo {asked : List Item} {ip : IpAddr}
    (h : Resolution dest asked (some ip)) :
    Inevitable (CleanStep eof) (Answered dest port further log)
      ⟨connectTo ⟨ip, port⟩, further, log ++ asked⟩ := by
  apply inevitable_ask
  intro answer
  rw [List.append_assoc]
  match answer with
  | .error e =>
    have hrep : (if e.kind = .connectionRefused then repConnRefused else repGeneralFailure) ≠ 0 := by
      split <;> decide
    exact inevitable_reply (.dialed (.error e) h) (iff_of_false hrep nofun) rfl
  | .ok () => exact inevitable_reply (.dialed (.ok ()) h) (by decide) rfl

lemma inevitable_handleConnect :
    Inevitable (CleanStep eof) (Answered dest port further log)
      ⟨handleConnect dest port, further, log⟩ := by
  match dest with
  | .ip ip =>
    have h : Inevitable (CleanStep eof) (Answered (.ip ip) port further log)
        ⟨connectTo ⟨ip, port⟩, further, log ++ []⟩ := inevitable_connectTo (.ip ip)
    rw [List.append_nil] at h
    exact h
  | .domain name =>
    apply inevitable_ask
    intro answer
    match answer with
    | .error e => exact inevitable_reply (.unresolved (.failed name e)) (by decide) rfl
    | .ok ip6 => exact inevitable_connectTo (.resolved name ip6)

lemma inevitable_readRequest {rsv : UInt8} (hfits : dest.Fits) :
    Inevitable (CleanStep eof)
      (· = ⟨handleConnect dest port, further, log ++ received (connectRequest rsv dest port)⟩)
      ⟨readRequest, connectRequest rsv dest port ++ further, log⟩ := by
  rw [connectRequest, List.append_assoc, List.append_assoc]
  apply inevitable_readU8
  rw [if_neg (by decide)]
  apply inevitable_readU8
  apply inevitable_readU8
  apply inevitable_readU8
  apply inevitable_readAddress hfits
  apply inevitable_readU16
  refine .here ?_
  simp [received, handleRequest]

lemma inevitable_handleClient {methods : List UInt8} {rsv : UInt8} (hlen : methods.length ≤ 255)
    (hauth : authNoAuth ∈ methods) (hfits : dest.Fits) :
    Inevitable (CleanStep eof)
      (· = ⟨handleConnect dest port, further,
        received (greeting methods) ++ sent [5, 0] ++ received (connectRequest rsv dest port)⟩)
      (Dialogue.start handleClient (greeting methods ++ connectRequest rsv dest port ++ further)) := by
  have hcount : methods.length = (UInt8.ofNat methods.length).toNat := by
    rw [UInt8.toNat_ofNat', Nat.mod_eq_of_lt (Nat.lt_succ_of_le hlen)]
  rw [List.append_assoc (greeting methods) _ further]
  apply inevitable_readU8
  rw [if_neg (by decide)]
  apply inevitable_readU8
  apply inevitable_read hcount
  rw [if_pos hauth]
  apply inevitable_write
  exact inevitable_readRequest hfits

/-- In every run without a failure of the client's stream, whatever the pieces and the answers. -/
theorem connect_request_answered {methods : List UInt8} (rsv : UInt8) {dest : Destination}
    (port : UInt16) (further : List UInt8) (hlen : methods.length ≤ 255)
    (hauth : authNoAuth ∈ methods) (hfits : dest.Fits) :
    let client := Dialogue.start handleClient
      (greeting methods ++ connectRequest rsv dest port ++ further)
    let shaken := received (greeting methods) ++ sent [5, 0] ++ received (connectRequest rsv dest port)
    Inevitable (CleanStep eof) (· = ⟨handleConnect dest port, further, shaken⟩) client ∧
      ∀ events c, Run (CleanStep eof) client events c →
        Inevitable (CleanStep eof) (Answered dest port further shaken) c := by
  intro client shaken
  have hhanded : Inevitable (CleanStep eof) (· = ⟨handleConnect dest port, further, shaken⟩) client :=
    inevitable_handleClient hlen hauth hfits
  refine ⟨hhanded, ?_⟩
  intro events c hrun
  have hanswered : Inevitable (CleanStep eof) (Answered dest port further shaken) client := by
    apply hhanded.trans
    rintro c rfl
    exact inevitable_handleConnect
  refine hanswered.along ?_ hrun
  rintro c ev c' ⟨asked, rep, reply, success, result, rfl, -⟩
  exact not_cleanStep_done

def namedRequest : List UInt8 := connectRequest 7 (.domain ['y', 'g', 'g']) 80

theorem named_request_answered :
    Inevitable (CleanStep eof)
      (· = ⟨handleConnect (.domain ['y', 'g', 'g']) 80, [71, 69, 84],
        received (greeting [2, 0]) ++ sent [5, 0] ++ received namedRequest⟩)
      (Dialogue.start handleClient (greeting [2, 0] ++ namedRequest ++ [71, 69, 84])) ∧
    Inevitable (CleanStep eof)
      (Answered (.domain ['y', 'g', 'g']) 80 [71, 69, 84]
        (received (greeting [2, 0]) ++ sent [5, 0] ++ received namedRequest))
      (Dialogue.start handleClient (greeting [2, 0] ++ namedRequest ++ [71, 69, 84])) := by
  have hfits : (Destination.domain ['y', 'g', 'g']).Fits := by
    change (utf8 ['y', 'g', 'g']).length ≤ 255
    decide
  obtain ⟨hhanded, hall⟩ := connect_request_answered 7 80 [71, 69, 84]
    (by decide : ([2, 0] : List UInt8).length ≤ 255) (by decide) hfits
  exact ⟨hhanded, hall [] _ (.nil _)⟩

end Yggstack.Socks
