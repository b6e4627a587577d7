import Cronet.Lib.Segments
import Cronet.Request.Options
import Cronet.Socks.Settling

namespace Cronet.Socks

open Cronet.Native (Bytes)
open Cronet.Request (utf8 utf8_eq_nil)
open Cronet.Url (Str)

namespace Probe

def VERSION : UInt8 := 0x05
def AUTH_NONE : UInt8 := 0x00
def AUTH_USERNAME_PASSWORD : UInt8 := 0x02
def AUTH_UNACCEPTABLE : UInt8 := 0xFF
def AUTH_SUBNEGOTIATION_VERSION : UInt8 := 0x01

def COMMAND_UDP_ASSOCIATE : UInt8 := 0x03
def ADDRESS_IPV4 : UInt8 := 0x01
def ADDRESS_DOMAIN : UInt8 := 0x03
def ADDRESS_IPV6 : UInt8 := 0x04

def REPLY_NAMES : List (UInt8 × String) := [
  (0x00, "succeeded"),
  (0x01, "general failure"),
  (0x02, "connection not allowed by ruleset"),
  (0x03, "network unreachable"),
  (0x04, "host unreachable"),
  (0x05, "connection refused"),
  (0x06, "TTL expired"),
  (0x07, "command not supported"),
  (0x08, "address type not supported")]

inductive Raised where
  | probeFailed (message : String)
  | valueError
  | unicodeDecodeError
  deriving DecidableEq

/-- The host to send datagrams to: an address, which `inet_ntoa` or `inet_ntop` puts in words, or a name. -/
inductive Host where
  | address (bytes : Bytes)
  | name (host : String)
  deriving DecidableEq

abbrev Talk (β : Type) := Segments.Reader Raised UInt8 β

def fail {β : Type} (message : String) : Talk β := throw (.probeFailed message)

def receiveExactly (count : Nat) : Talk Bytes :=
  Segments.receiveExactly (fun arrived => .probeFailed ("the proxy closed the connection after " ++ toString arrived ++
    " of " ++ toString count ++ " expected bytes")) count

/-- What `bytes` makes of a length. -/
def byte (n : Nat) : Except Raised UInt8 := if n < 2 ^ 8 then .ok (UInt8.ofNat n) else .error .valueError

def greeting (offerCredentials : Bool) : Bytes :=
  let methods := if offerCredentials then [AUTH_NONE, AUTH_USERNAME_PASSWORD] else [AUTH_NONE]
  [VERSION, UInt8.ofNat methods.length] ++ methods

def greet (offerCredentials : Bool) : Talk UInt8 := do
  match ← receiveExactly 2 with
  | [version, chosen] =>
    if version ≠ VERSION then fail ("expected SOCKS5, the proxy answered version " ++ toString version)
    if chosen = AUTH_UNACCEPTABLE then
      fail ("the proxy accepted none of the methods offered" ++
        if offerCredentials then "" else " — try passing credentials")
    return chosen
  | _ => throw .valueError

def credentials (username password : Str) : Except Raised Bytes := do
  let name := utf8 username
  let secret := utf8 password
  let nameLength ← byte name.length
  let secretLength ← byte secret.length
  return [AUTH_SUBNEGOTIATION_VERSION, nameLength] ++ name ++ [secretLength] ++ secret

def authenticate (username password : Str) : Talk Unit := do
  let _ ← (credentials username password : Except Raised Bytes)
  match ← receiveExactly 2 with
  | [_version, status] =>
    if status ≠ 0x00 then fail ("the proxy rejected the credentials (status " ++ toString status ++ ")")
  | _ => throw .valueError

def associate : Bytes := [VERSION, COMMAND_UDP_ASSOCIATE, 0x00, ADDRESS_IPV4, 0, 0, 0, 0, 0, 0]

def relayHost (addressType : UInt8) : Talk Host := do
  if addressType = ADDRESS_IPV4 then return .address (← receiveExactly 4)
  else if addressType = ADDRESS_IPV6 then return .address (← receiveExactly 16)
  else if addressType = ADDRESS_DOMAIN then
    match ← receiveExactly 1 with
    | [length] =>
      match String.fromUTF8? (← receiveExactly length.toNat).toByteArray with
      | some host => return .name host
      | none => throw .unicodeDecodeError
    | _ => throw .valueError
  else fail ("the proxy named an address type this cannot read: " ++ toString addressType)

def relayPort : Talk Nat := do
  match ← receiveExactly 2 with
  | [high, low] => return high.toNat * 256 + low.toNat
  | _ => throw .valueError

def requestUdpAssociate : Talk (Host × Nat) := do
  match ← receiveExactly 4 with
  | [version, reply, _reserved, addressType] =>
    if version ≠ VERSION then fail ("the proxy answered version " ++ toString version ++ ", not SOCKS5")
    if reply ≠ 0x00 then
      fail ("the proxy refused UDP ASSOCIATE: " ++ (REPLY_NAMES.lookup reply).getD (toString reply) ++
        if reply = 0x07 then " — this proxy does not relay UDP, so it cannot carry HTTP/3" else "")
    let host ← relayHost addressType
    let port ← relayPort
    return (host, port)
  | _ => throw .valueError

/-- `probe`, from the open connection to where the relay is known. -/
def probe (username password : Str) : Talk (Host × Nat) := do
  let chosen ← greet (username ≠ [])
  if chosen = AUTH_USERNAME_PASSWORD then
    if username = [] then fail "the proxy demands credentials and none were given"
    authenticate username password
  requestUdpAssociate

open Segments (Reads)

theorem greet_reads (offerCredentials : Bool) :
    Reads (greet offerCredentials) fun taken chosen => taken = [VERSION, chosen] ∧ chosen ≠ AUTH_UNACCEPTABLE := by
  refine (Reads.bind (D := fun bytes taken chosen => taken = [] ∧ bytes = [VERSION, chosen] ∧ chosen ≠ AUTH_UNACCEPTABLE)
    (Reads.receiveExactly _ 2) fun bytes => ?_).congr fun taken chosen => ?_
  · rcases bytes with _ | ⟨version, _ | ⟨chosen, _ | ⟨more, rest⟩⟩⟩
    · exact (Reads.throw _).congr (by simp)
    · exact (Reads.throw _).congr (by simp)
    · refine (Reads.check _ _ (Reads.check _ _ (Reads.pure chosen))).congr fun taken given => ?_
      simp only [not_not, List.cons.injEq, and_true]
      constructor
      · rintro ⟨rfl, acceptable, rfl, rfl⟩
        exact ⟨rfl, ⟨rfl, rfl⟩, acceptable⟩
      · rintro ⟨rfl, ⟨rfl, rfl⟩, acceptable⟩
        exact ⟨rfl, acceptable, rfl, rfl⟩
    · exact (Reads.throw _).congr (by simp)
  · constructor
    · rintro ⟨first, second, bytes, rfl, ⟨rfl, _⟩, rfl, rfl, acceptable⟩
      exact ⟨rfl, acceptable⟩
    · rintro ⟨rfl, acceptable⟩
      exact ⟨_, [], _, rfl, ⟨rfl, rfl⟩, rfl, rfl, acceptable⟩

theorem authenticate_reads {username password : Str} (usernameFits : (utf8 username).length < 2 ^ 8)
    (passwordFits : (utf8 password).length < 2 ^ 8) :
    Reads (authenticate username password) fun taken _ => ∃ version, taken = [version, 0x00] := by
  have encoded : ∃ frame, credentials username password = .ok frame := by
    rw [credentials, byte, byte, if_pos usernameFits, if_pos passwordFits]
    exact ⟨_, rfl⟩
  obtain ⟨frame, encoded⟩ := encoded
  rw [authenticate, encoded]
  refine Reads.lift frame ?_
  refine (Reads.bind (D := fun bytes taken _ => taken = [] ∧ ∃ version, bytes = [version, 0x00])
    (Reads.receiveExactly _ 2) fun bytes => ?_).congr fun taken _ => ?_
  · rcases bytes with _ | ⟨version, _ | ⟨status, _ | ⟨more, rest⟩⟩⟩
    · exact (Reads.throw _).congr (by simp)
    · exact (Reads.throw _).congr (by simp)
    · by_cases accepted : status = 0x00
      · subst accepted
        exact (Reads.pure ()).congr fun taken _ => by simp
      · dsimp only
        rw [if_pos accepted]
        exact (Reads.throw _).congr fun taken _ => by simp [accepted]
    · exact (Reads.throw _).congr (by simp)
  · constructor
    · rintro ⟨first, second, bytes, rfl, ⟨rfl, _⟩, rfl, version, rfl⟩
      exact ⟨version, rfl⟩
    · rintro ⟨version, rfl⟩
      exact ⟨_, [], _, rfl, ⟨rfl, rfl⟩, rfl, version, rfl⟩

inductive Names : UInt8 → Bytes → Host → Prop where
  | ipv4 {address : Bytes} (length : address.length = 4) : Names ADDRESS_IPV4 address (.address address)
  | ipv6 {address : Bytes} (length : address.length = 16) : Names ADDRESS_IPV6 address (.address address)
  | domain {length : UInt8} {name : Bytes} {host : String} (size : name.length = length.toNat)
      (decoded : String.fromUTF8? name.toByteArray = some host) :
      Names ADDRESS_DOMAIN (length :: name) (.name host)

inductive Granted : Bytes → Host → Nat → Prop where
  | mk {reserved addressType high low : UInt8} {bytes : Bytes} {host : Host} (named : Names addressType bytes host) :
      Granted ([VERSION, 0x00, reserved, addressType] ++ (bytes ++ [high, low])) host (high.toNat * 256 + low.toNat)

theorem relayPort_reads :
    Reads relayPort fun taken port => ∃ high low : UInt8, taken = [high, low] ∧ port = high.toNat * 256 + low.toNat := by
  refine (Reads.bind (D := fun bytes taken port => taken = [] ∧ ∃ high low : UInt8, bytes = [high, low] ∧
    port = high.toNat * 256 + low.toNat) (Reads.receiveExactly _ 2) fun bytes => ?_).congr fun taken port => ?_
  · rcases bytes with _ | ⟨high, _ | ⟨low, _ | ⟨more, rest⟩⟩⟩
    · exact (Reads.throw _).congr (by simp)
    · exact (Reads.throw _).congr (by simp)
    · refine (Reads.pure _).congr fun taken port => and_congr_right fun _ => ?_
      constructor
      · rintro rfl
        exact ⟨high, low, rfl, rfl⟩
      · rintro ⟨_, _, same, rfl⟩
        cases same
        rfl
    · exact (Reads.throw _).congr (by simp)
  · constructor
    · rintro ⟨first, second, bytes, rfl, ⟨rfl, _⟩, rfl, high, low, rfl, rfl⟩
      exact ⟨high, low, rfl, rfl⟩
    · rintro ⟨high, low, rfl, rfl⟩
      exact ⟨_, [], _, rfl, ⟨rfl, rfl⟩, rfl, high, low, rfl, rfl⟩

theorem named_reads (length : UInt8) :
    Reads (do
      match String.fromUTF8? (← receiveExactly length.toNat).toByteArray with
      | some host => return .name host
      | none => throw .unicodeDecodeError : Talk Host) fun taken host =>
      taken.length = length.toNat ∧ ∃ name, String.fromUTF8? taken.toByteArray = some name ∧ host = .name name := by
  refine (Reads.bind (D := fun bytes taken host => taken = [] ∧ ∃ name, String.fromUTF8? bytes.toByteArray = some name ∧
    host = .name name) (Reads.receiveExactly _ length.toNat) fun bytes => ?_).congr fun taken host => ?_
  · cases decoded : String.fromUTF8? bytes.toByteArray with
    | none => exact (Reads.throw _).congr (by simp)
    | some name => exact (Reads.pure _).congr (by simp)
  · constructor
    · rintro ⟨first, second, bytes, rfl, ⟨rfl, size⟩, rfl, name, decoded, rfl⟩
      rw [List.append_nil]
      exact ⟨size, name, decoded, rfl⟩
    · rintro ⟨size, name, decoded, rfl⟩
      exact ⟨taken, [], taken, (List.append_nil _).symm, ⟨rfl, size⟩, rfl, name, decoded, rfl⟩

theorem relayHost_reads (addressType : UInt8) : Reads (relayHost addressType) (Names addressType) := by
  have sized (size : Nat) : Reads (do return .address (← receiveExactly size) : Talk Host) fun taken host =>
      taken.length = size ∧ host = .address taken := by
    refine (Reads.bind (Reads.receiveExactly _ size) fun bytes => Reads.pure (Host.address bytes)).congr fun taken host => ?_
    constructor
    · rintro ⟨first, second, bytes, rfl, ⟨rfl, length⟩, rfl, rfl⟩
      rw [List.append_nil]
      exact ⟨length, rfl⟩
    · rintro ⟨length, rfl⟩
      exact ⟨taken, [], taken, (List.append_nil _).symm, ⟨rfl, length⟩, rfl, rfl⟩
  unfold relayHost
  by_cases ipv4 : addressType = ADDRESS_IPV4
  · subst ipv4
    refine (sized 4).congr fun taken host => ⟨?_, fun named => ?_⟩
    · rintro ⟨length, rfl⟩
      exact .ipv4 length
    · cases named with
      | ipv4 length => exact ⟨length, rfl⟩
  rw [if_neg ipv4]
  by_cases ipv6 : addressType = ADDRESS_IPV6
  · subst ipv6
    refine (sized 16).congr fun taken host => ⟨?_, fun named => ?_⟩
    · rintro ⟨length, rfl⟩
      exact .ipv6 length
    · cases named with
      | ipv6 length => exact ⟨length, rfl⟩
  rw [if_neg ipv6]
  by_cases domain : addressType = ADDRESS_DOMAIN
  · subst domain
    rw [if_pos rfl]
    refine (Reads.bind (D := fun bytes taken host => ∃ length, bytes = [length] ∧ Names ADDRESS_DOMAIN (length :: taken) host)
      (Reads.receiveExactly _ 1) fun bytes => ?_).congr fun taken host => ?_
    · rcases bytes with _ | ⟨length, _ | ⟨more, rest⟩⟩
      · exact (Reads.throw _).congr (by simp)
      · refine (named_reads length).congr fun taken host => ⟨?_, ?_⟩
        · rintro ⟨size, name, decoded, rfl⟩
          exact ⟨length, rfl, .domain size decoded⟩
        · rintro ⟨_, same, named⟩
          cases same
          cases named with
          | domain size decoded => exact ⟨size, _, decoded, rfl⟩
      · exact (Reads.throw _).congr (by simp)
    · constructor
      · rintro ⟨first, second, bytes, rfl, ⟨rfl, _⟩, length, rfl, named⟩
        exact named
      · intro named
        cases named with
        | domain size decoded => exact ⟨[_], _, [_], rfl, ⟨rfl, rfl⟩, _, rfl, .domain size decoded⟩
  · rw [if_neg domain]
    refine (Reads.throw _).congr fun taken host => iff_of_false id fun named => ?_
    cases named with
    | ipv4 => exact ipv4 rfl
    | ipv6 => exact ipv6 rfl
    | domain => exact domain rfl

theorem requestUdpAssociate_reads :
    Reads requestUdpAssociate fun taken relay => Granted taken relay.1 relay.2 := by
  refine (Reads.bind (D := fun bytes taken relay => ∃ reserved addressType, bytes = [VERSION, 0x00, reserved, addressType] ∧
    Granted (bytes ++ taken) relay.1 relay.2) (Reads.receiveExactly _ 4) fun bytes => ?_).congr fun taken relay => ?_
  · rcases bytes with _ | ⟨version, _ | ⟨reply, _ | ⟨reserved, _ | ⟨addressType, _ | ⟨more, rest⟩⟩⟩⟩⟩
    · exact (Reads.throw _).congr (by simp)
    · exact (Reads.throw _).congr (by simp)
    · exact (Reads.throw _).congr (by simp)
    · exact (Reads.throw _).congr (by simp)
    · refine (Reads.check _ _ (Reads.check _ _ (Reads.bind (relayHost_reads addressType) fun host =>
        Reads.bind relayPort_reads fun port => Reads.pure (host, port)))).congr fun taken relay => ?_
      obtain ⟨host, port⟩ := relay
      rw [not_not, not_not]
      constructor
      · rintro ⟨rfl, rfl, named, behind, _, rfl, within, _, _, _, rfl, ⟨high, low, rfl, rfl⟩, rfl, given⟩
        cases given
        rw [List.append_nil]
        exact ⟨reserved, addressType, rfl, .mk within⟩
      · rintro ⟨_, _, same, granted⟩
        cases same
        generalize whole : [VERSION, 0x00, reserved, addressType] ++ taken = reply at granted
        cases granted with
        | mk within =>
          cases whole
          exact ⟨rfl, rfl, _, _, host, rfl, within, _, [], _, (List.append_nil _).symm, ⟨_, _, rfl, rfl⟩, rfl, rfl⟩
    · exact (Reads.throw _).congr (by simp)
  · obtain ⟨host, port⟩ := relay
    constructor
    · rintro ⟨first, second, bytes, rfl, ⟨rfl, _⟩, _, _, _, granted⟩
      exact granted
    · intro granted
      cases granted with
      | mk named => exact ⟨_, _, _, rfl, ⟨rfl, rfl⟩, _, _, rfl, .mk named⟩

inductive Grants (credentials : Bool) : Bytes → Host → Nat → Prop where
  | plain {method : UInt8} {reply : Bytes} {host : Host} {port : Nat} (other : method ≠ AUTH_USERNAME_PASSWORD)
      (acceptable : method ≠ AUTH_UNACCEPTABLE) (granted : Granted reply host port) :
      Grants credentials ([VERSION, method] ++ reply) host port
  | authenticated {version : UInt8} {reply : Bytes} {host : Host} {port : Nat} (held : credentials = true)
      (granted : Granted reply host port) :
      Grants credentials ([VERSION, AUTH_USERNAME_PASSWORD] ++ ([version, 0x00] ++ reply)) host port

theorem probe_reads {username password : Str} (usernameFits : (utf8 username).length < 2 ^ 8)
    (passwordFits : (utf8 password).length < 2 ^ 8) :
    Reads (probe username password) fun taken relay => Grants (username ≠ []) taken relay.1 relay.2 := by
  refine (Reads.bind (D := fun chosen taken relay =>
    chosen = AUTH_USERNAME_PASSWORD ∧ username ≠ [] ∧ (∃ version reply, taken = [version, 0x00] ++ reply ∧
      Granted reply relay.1 relay.2) ∨ chosen ≠ AUTH_USERNAME_PASSWORD ∧ Granted taken relay.1 relay.2)
    (greet_reads _) fun chosen => ?_).congr fun taken relay => ?_
  · by_cases demanded : chosen = AUTH_USERNAME_PASSWORD
    · rw [if_pos demanded]
      refine (Reads.check _ _ (Reads.bind (authenticate_reads usernameFits passwordFits)
        fun _ => requestUdpAssociate_reads)).congr fun taken relay => ?_
      constructor
      · rintro ⟨some, _, reply, _, rfl, ⟨version, rfl⟩, granted⟩
        exact .inl ⟨demanded, some, version, reply, rfl, granted⟩
      · rintro (⟨_, some, version, reply, rfl, granted⟩ | ⟨other, _⟩)
        · exact ⟨some, _, reply, (), rfl, ⟨version, rfl⟩, granted⟩
        · exact absurd demanded other
    · rw [if_neg demanded]
      exact requestUdpAssociate_reads.congr fun taken relay => by simp [demanded]
  · obtain ⟨host, port⟩ := relay
    constructor
    · rintro ⟨_, second, chosen, rfl, ⟨rfl, acceptable⟩, ⟨rfl, some, version, reply, rfl, granted⟩ | ⟨other, granted⟩⟩
      · exact .authenticated (decide_eq_true some) granted
      · exact .plain other acceptable granted
    · intro grants
      cases grants with
      | plain other acceptable granted =>
        exact ⟨_, _, _, rfl, ⟨rfl, acceptable⟩, .inr ⟨other, granted⟩⟩
      | authenticated held granted =>
        exact ⟨_, _, _, rfl, ⟨rfl, by decide⟩, .inl ⟨rfl, of_decide_eq_true held, _, _, rfl, granted⟩⟩

theorem hasCredentials_utf8 (username password : Str) (stream : Bytes) :
    (Association.initial (utf8 username) (utf8 password) stream).socket.hasCredentials = decide (username ≠ []) := by
  rw [Bool.eq_iff_iff, decide_eq_true_iff, Ne, ← utf8_eq_nil]
  simp [Socket.hasCredentials, Association.initial]

theorem asks_alike (username password : Str) (stream : Bytes) :
    greeting (username ≠ []) = (Association.initial (utf8 username) (utf8 password) stream).socket.greeting ∧
      associate = Socket.associateRequest ∧
      ∀ frame, credentials username password = .ok frame ↔
        (Association.initial (utf8 username) (utf8 password) stream).socket.authRequest = .ok frame := by
  refine ⟨?_, rfl, fun frame => ?_⟩
  · rw [Socket.greeting, hasCredentials_utf8, greeting]
    split <;> rfl
  · show _ ↔ authFrame (utf8 username) (utf8 password) = _
    unfold credentials authFrame byte Checked.uint8
    dsimp only
    by_cases usernameFits : (utf8 username).length < 2 ^ 8
    · by_cases passwordFits : (utf8 password).length < 2 ^ 8
      · rw [if_pos usernameFits, if_pos passwordFits, if_pos usernameFits, if_pos passwordFits]
        constructor
        · intro ok
          cases ok
          rfl
        · intro ok
          cases ok
          rfl
      · rw [if_pos usernameFits, if_neg passwordFits, if_pos usernameFits, if_neg passwordFits]
        exact iff_of_false (fun ok => by cases ok) fun ok => by cases ok
    · rw [if_neg usernameFits, if_neg usernameFits]
      exact iff_of_false (fun ok => by cases ok) fun ok => by cases ok

/-- The relay the probe names is the one the client goes on to, or both refuse. -/
def SameResult (a : Association) : Except Raised ((Host × Nat) × Segments UInt8) → Prop
  | .ok ((host, port), _) =>
    ∃ relay, a.socket.nextState = .udpConnect ∧ a.answer = .code OK ∧ a.socket.relay = some relay ∧
      host = .address relay.address ∧ port = relay.port
  | .error _ => ∃ rv, a.Reports (.error rv)

/-- However what the proxy sends is cut, for the probe and for the client, they come to the same. -/
def Predicts (peer : Except Int Bytes) (username password : Str) (stream : Bytes) : Prop :=
  ∀ (s : Segments UInt8) (labels : List AssociationLabel) (a : Association), s.stream = stream →
    (Association.machine peer).run (.initial (utf8 username) (utf8 password) stream) labels = some a →
    (Association.machine peer).Meets (fun a _ => a.settled = false) (.initial (utf8 username) (utf8 password) stream) labels →
    labels.any AssociationLabel.fails = false → a.settled = true → SameResult a ((probe username password).run s)

/-- What the two read alike: credentials are not asked for and answered, and a relay is granted without them, by its
    address, which is not the unspecified one unless that is the peer's. -/
structure Plain (peer : Except Int Bytes) (username : Str) (stream : Bytes) : Prop where
  unauthenticated : ¬(username ≠ [] ∧ stream.take 2 = [VERSION, AUTH_USERNAME_PASSWORD] ∧ 4 ≤ stream.length)
  direct : ∀ method reply rest host port, stream = [VERSION, method] ++ (reply ++ rest) → Granted reply host port →
    method ≠ AUTH_USERNAME_PASSWORD → method ≠ AUTH_UNACCEPTABLE →
    method = AUTH_NONE ∧ ∃ address, host = .address address ∧ (isZero address = true → peer = .ok address)

section

variable {peer : Except Int Bytes} {username password : Str} {stream reply rest : Bytes} {host : Host} {port : Nat}

theorem granted_address {address : Bytes} (granted : Granted reply (.address address) port) :
    afterAssociate peer (reply ++ rest) = settleRelay peer address port rest := by
  generalize named : Host.address address = host at granted
  obtain ⟨within⟩ := granted
  cases within with
  | ipv4 length =>
    cases named
    rw [← relayFrom_append, length, List.append_assoc]
    rfl
  | ipv6 length =>
    cases named
    rw [← relayFrom_append, length, List.append_assoc]
    rfl
  | domain => cases named

theorem associateReply_granted {relay : IPEndPoint} (replied : AssociateReply peer reply relay) :
    ∃ address, Granted reply (.address address) relay.port := by
  obtain ⟨sized, _⟩ := replied
  rcases sized with ⟨rfl, length⟩ | ⟨rfl, length⟩
  · exact ⟨_, .mk (.ipv4 length)⟩
  · exact ⟨_, .mk (.ipv6 length)⟩

def verdict (peer : Except Int Bytes) (username password : Str) (stream : Bytes) : Checked Outcome :=
  afterGreet peer (Association.initial (utf8 username) (utf8 password) stream).socket stream

theorem client_ends {labels : List AssociationLabel} {a : Association}
    (ran : (Association.machine peer).run (.initial (utf8 username) (utf8 password) stream) labels = some a)
    (met : (Association.machine peer).Meets (fun a _ => a.settled = false)
      (.initial (utf8 username) (utf8 password) stream) labels)
    (clean : labels.any AssociationLabel.fails = false) (settled : a.settled = true) :
    (∃ outcome, verdict peer username password stream = .ok outcome ∧ a.Reports outcome) ∨
      ∃ fault, verdict peer username password stream = .error fault ∧ a.answer = .aborted fault := by
  obtain ⟨n, _, heads⟩ := Association.run_heads ran met
  rw [clean] at heads
  rcases heads.ended settled with ⟨outcome, same, reports⟩ | ⟨fault, same, answer⟩ | ⟨_, same, _⟩
  · exact .inl ⟨outcome, Option.some.inj same, reports⟩
  · exact .inr ⟨fault, Option.some.inj same, answer⟩
  · cases same

theorem client_reaches (peer : Except Int Bytes) (username password : Str) (stream : Bytes) :
    ∃ labels a, (Association.machine peer).run (.initial (utf8 username) (utf8 password) stream) labels = some a ∧
      (Association.machine peer).Meets (fun a _ => a.settled = false)
        (.initial (utf8 username) (utf8 password) stream) labels ∧
      labels.any AssociationLabel.fails = false ∧ a.settled = true := by
  have heads : Association.Heads peer (Association.initial (utf8 username) (utf8 password) stream).socket stream _ _ _ :=
    Association.initial_heads
  obtain ⟨labels, a, _, ran, met, clean, settled, _⟩ := heads.reaches rfl
  exact ⟨labels, a, ran, met, clean, settled⟩

def Meets (username : Str) (stream : Bytes) : Checked Outcome → Prop
  | .ok (.ok (relay, _)) =>
    ∃ taken rest, Grants (username ≠ []) taken (.address relay.address) relay.port ∧ stream = taken ++ rest
  | .ok (.error _) => ∀ taken rest host port, stream = taken ++ rest → ¬Grants (username ≠ []) taken host port
  | .error _ => False

theorem predicts_iff_meets (usernameFits : (utf8 username).length < 2 ^ 8) (passwordFits : (utf8 password).length < 2 ^ 8) :
    Predicts peer username password stream ↔ Meets username stream (verdict peer username password stream) := by
  have reads := probe_reads usernameFits passwordFits
  constructor
  · intro predicts
    obtain ⟨labels, a, ran, met, clean, settled⟩ := client_reaches peer username password stream
    obtain ⟨s, rfl⟩ := Segments.exists_stream stream
    have same := predicts s labels a rfl ran met clean settled
    rcases client_ends ran met clean settled with ⟨outcome, came, reports⟩ | ⟨fault, came, answer⟩
    · rw [came]
      cases probed : (probe username password).run s with
      | ok found =>
        obtain ⟨⟨host, port⟩, t⟩ := found
        rw [probed] at same
        obtain ⟨relay, state, _, settledOn, rfl, rfl⟩ := same
        obtain ⟨taken, grants, whole⟩ := reads.sound s _ t probed
        cases outcome with
        | ok given =>
          obtain rfl : given.1 = relay := Option.some.inj (reports.2.2.1.symm.trans settledOn)
          exact ⟨taken, t.stream, grants, whole⟩
        | error rv => cases reports.1.symm.trans state
      | error raised =>
        rw [probed] at same
        obtain ⟨rv, refused⟩ := same
        cases outcome with
        | ok given => cases reports.1.symm.trans refused.1
        | error rv =>
          intro taken rest host port whole grants
          obtain ⟨t, read, _⟩ := reads.complete s taken (host, port) rest grants whole
          cases probed.symm.trans read
    · cases probed : (probe username password).run s with
      | ok found =>
        rw [probed] at same
        obtain ⟨relay, _, code, _⟩ := same
        cases answer.symm.trans code
      | error raised =>
        rw [probed] at same
        obtain ⟨rv, _, code⟩ := same
        cases answer.symm.trans code
  · intro meets s labels a whole ran met clean settled
    rcases client_ends ran met clean settled with ⟨outcome, came, reports⟩ | ⟨fault, came, _⟩
    · rw [came] at meets
      cases outcome with
      | ok given =>
        obtain ⟨taken, rest, grants, split⟩ := meets
        obtain ⟨t, probed, _⟩ := reads.complete s taken (.address given.1.address, given.1.port) rest grants (whole.trans split)
        rw [probed]
        exact ⟨given.1, reports.1, reports.2.1, reports.2.2.1, rfl, rfl⟩
      | error rv =>
        cases probed : (probe username password).run s with
        | ok found =>
          obtain ⟨taken, grants, split⟩ := reads.sound s found.1 found.2 probed
          exact absurd grants (meets taken _ _ _ (whole.symm.trans split))
        | error raised => exact ⟨rv, reports⟩
    · rw [came] at meets
      exact meets.elim

theorem grants_unique (usernameFits : (utf8 username).length < 2 ^ 8) (passwordFits : (utf8 password).length < 2 ^ 8)
    {first second : Bytes} {host host' : Host} {port port' : Nat} {rest rest' : Bytes}
    (grants : Grants (username ≠ []) first host port) (grants' : Grants (username ≠ []) second host' port')
    (same : first ++ rest = second ++ rest') : host = host' ∧ port = port' := by
  have reads := probe_reads usernameFits passwordFits
  obtain ⟨s, whole⟩ := Segments.exists_stream (first ++ rest)
  obtain ⟨t, read, _⟩ := reads.complete s first (host, port) rest grants whole
  obtain ⟨t', read', _⟩ := reads.complete s second (host', port') rest' grants' (whole.trans same)
  cases read.symm.trans read'
  exact ⟨rfl, rfl⟩

theorem plain_of_meets (usernameFits : (utf8 username).length < 2 ^ 8) (passwordFits : (utf8 password).length < 2 ^ 8)
    (meets : Meets username stream (verdict peer username password stream)) : Plain peer username stream := by
  cases came : verdict peer username password stream with
  | error fault =>
    rw [came] at meets
    exact meets.elim
  | ok outcome =>
    rw [came] at meets
    constructor
    · rintro ⟨some, asked, long⟩
      have breaks : AuthBreaks (utf8 username) (utf8 password) stream :=
        ⟨fun none => some (utf8_eq_nil.mp none), asked, .inr (.inr long)⟩
      have broken : ∃ fault, verdict peer username password stream = .error fault := afterGreet_breaks_iff.mpr breaks
      obtain ⟨fault, broken⟩ := broken
      cases came.symm.trans broken
    · intro method reply rest host port whole granted other acceptable
      have grants : Grants (username ≠ []) ([VERSION, method] ++ reply) host port := .plain other acceptable granted
      rw [← List.append_assoc] at whole
      cases outcome with
      | error rv => exact absurd grants (meets _ rest host port whole)
      | ok given =>
        obtain ⟨relay, left⟩ := given
        obtain ⟨taken, rest', grants', split⟩ := meets
        obtain ⟨rfl, rfl⟩ := grants_unique usernameFits passwordFits grants grants' (whole.symm.trans split)
        rw [List.append_assoc] at whole
        subst whole
        have client := (afterGreet_grants came).mp rfl
        generalize whole : [VERSION, method] ++ (reply ++ rest) = bytes at client
        cases client with
        | plain replied =>
          have same := (List.cons.inj whole).2
          obtain ⟨rfl, behind⟩ := List.cons.inj same
          refine ⟨rfl, relay.address, rfl, fun zero => ?_⟩
          have settled : settleRelay peer relay.address relay.port rest = .ok (relay, left) := by
            rw [← granted_address granted, show reply ++ rest = _ from behind]
            exact afterAssociate_iff.mpr ⟨_, replied, rfl⟩
          obtain ⟨named, named', same', _⟩ := settleRelay_iff.mp settled
          rw [if_pos zero] at named'
          rw [named', same']
        | authenticated held replied => exact absurd (List.cons.inj (List.cons.inj whole).2).1 other

theorem authenticated_asked {version : UInt8} (held : username ≠ [])
    (whole : stream = [VERSION, AUTH_USERNAME_PASSWORD] ++ ([version, 0x00] ++ reply) ++ rest) :
    username ≠ [] ∧ stream.take 2 = [VERSION, AUTH_USERNAME_PASSWORD] ∧ 4 ≤ stream.length := by
  subst whole
  exact ⟨held, rfl, by simp⟩

theorem meets_of_plain (usernameFits : (utf8 username).length < 2 ^ 8) (passwordFits : (utf8 password).length < 2 ^ 8)
    (plain : Plain peer username stream) : Meets username stream (verdict peer username password stream) := by
  cases came : verdict peer username password stream with
  | error fault =>
    have breaks : AuthBreaks (utf8 username) (utf8 password) stream := afterGreet_breaks_iff.mp ⟨fault, came⟩
    obtain ⟨some, asked, wide | wide | long⟩ := breaks
    · exact absurd wide (Nat.not_le.mpr usernameFits)
    · exact absurd wide (Nat.not_le.mpr passwordFits)
    · exact plain.unauthenticated ⟨fun none => some (utf8_eq_nil.mpr none), asked, long⟩
  | ok outcome =>
    cases outcome with
    | ok given =>
      obtain ⟨relay, left⟩ := given
      have client := (afterGreet_grants came).mp rfl
      rw [hasCredentials_utf8] at client
      cases client with
      | plain replied =>
        obtain ⟨address, granted⟩ := associateReply_granted replied
        obtain ⟨_, _, same, zero⟩ := plain.direct _ _ _ _ _ rfl granted (by decide) (by decide)
        cases same
        have settled : settleRelay peer address relay.port left = .ok (relay, left) := by
          rw [← granted_address granted]
          exact afterAssociate_iff.mpr ⟨_, replied, rfl⟩
        obtain ⟨named, names, same, _⟩ := settleRelay_iff.mp settled
        have direct : relay.address = address := by
          rw [same]
          by_cases unspecified : isZero address = true
          · rw [if_pos unspecified, zero unspecified] at names
            exact (Except.ok.inj names).symm
          · rwa [if_neg unspecified] at names
        rw [← direct] at granted
        exact ⟨_, left, .plain (by decide) (by decide) granted, (List.append_assoc ..).symm⟩
      | authenticated held replied =>
        exact absurd (authenticated_asked (of_decide_eq_true held) (by simp only [List.append_assoc]; rfl))
          plain.unauthenticated
    | error rv =>
      intro taken rest host port whole grants
      cases grants with
      | plain other acceptable granted =>
        rw [List.append_assoc] at whole
        obtain ⟨rfl, address, rfl, zero⟩ := plain.direct _ _ _ _ _ whole granted other acceptable
        have refused : settleRelay peer address port rest = .error rv := by
          rw [← granted_address granted]
          rw [whole] at came
          exact Except.ok.inj came
        unfold settleRelay at refused
        split at refused
        · rename_i unspecified
          rw [zero unspecified] at refused
          cases refused
        · cases refused
      | authenticated held granted =>
        exact plain.unauthenticated (authenticated_asked (of_decide_eq_true held) whole)

/-- The probe foretells the client exactly if the proxy neither has credentials to answer for nor picks a method that was
    not offered, and grants a relay, if it does, by an address that is not the unspecified one. -/
theorem probe_predicts_iff (usernameFits : (utf8 username).length < 2 ^ 8)
    (passwordFits : (utf8 password).length < 2 ^ 8) :
    Predicts peer username password stream ↔ Plain peer username stream := by
  rw [predicts_iff_meets usernameFits passwordFits]
  exact ⟨plain_of_meets usernameFits passwordFits, meets_of_plain usernameFits passwordFits⟩

theorem probe_predicts_ipv4 : Predicts (.ok [127, 0, 0, 1]) [] [] [5, 0, 5, 0, 0, 1, 10, 0, 0, 1, 4, 56] := by
  refine (probe_predicts_iff (by decide) (by decide)).mpr ⟨by decide, ?_⟩
  intro method reply rest host port whole granted _ _
  cases granted with
  | mk named =>
    cases named with
    | ipv4 length =>
      obtain ⟨a, b, c, d, rfl⟩ := List.length_eq_four.mp length
      cases whole
      exact ⟨rfl, _, rfl, fun zero => by cases zero⟩
    | ipv6 length => cases whole
    | domain size decoded => cases whole

/-- The relay is at the unspecified address: the client takes the proxy's for it, and the probe does not. -/
theorem unspecified_relay_differs :
    (probe [] []).run [⟨[5, 0, 5, 0, 0, 1, 0, 0, 0, 0, 4, 56], by decide⟩] = .ok ((.address [0, 0, 0, 0], 1080), []) ∧
      verdict (.ok [127, 0, 0, 1]) [] [] [5, 0, 5, 0, 0, 1, 0, 0, 0, 0, 4, 56] =
        .ok (.ok (⟨[127, 0, 0, 1], 1080⟩, [])) ∧
      ¬Predicts (.ok [127, 0, 0, 1]) [] [] [5, 0, 5, 0, 0, 1, 0, 0, 0, 0, 4, 56] := by
  refine ⟨by rfl, rfl, fun predicts => ?_⟩
  have plain := plain_of_meets (by decide) (by decide) ((predicts_iff_meets (by decide) (by decide)).mp predicts)
  have granted : Granted [5, 0, 0, 1, 0, 0, 0, 0, 4, 56] (.address [0, 0, 0, 0]) 1080 :=
    show Granted ([5, 0, 0, 1] ++ ([0, 0, 0, 0] ++ [4, 56])) _ _ from .mk (.ipv4 rfl)
  obtain ⟨_, address, same, zero⟩ := plain.direct 0 _ [] _ _ rfl granted (by decide) (by decide)
  cases same
  cases zero (by decide)

end

end Probe

end Cronet.Socks
