import Cronet.Lib.Machine
import Cronet.Socks.Datagram

namespace Cronet.Socks

open Cronet.Native (Bytes)

def OK : Int := 0
def ERR_IO_PENDING : Int := -1
def ERR_NAME_NOT_RESOLVED : Int := -105
def ERR_PROXY_AUTH_UNSUPPORTED : Int := -115

def kSOCKS5Version : UInt8 := 0x05
def kAuthMethodNone : UInt8 := 0x00
def kAuthMethodUsernamePassword : UInt8 := 0x02
def kAuthSubnegotiationVersion : UInt8 := 0x01
def kUdpAssociateCommand : UInt8 := 0x03

def kGreetReplySize : Nat := 2
def kAuthReplySize : Nat := 2
def kReplyPrefixSize : Nat := 4

/-- An `IPEndPoint`, its address as 4 or 16 bytes. -/
structure IPEndPoint where
  address : Bytes
  port : Nat
  deriving DecidableEq

def isZero (address : Bytes) : Bool := address.all (· = 0)

structure DrainableIOBuffer where
  data : Bytes
  consumed : Nat
  deriving DecidableEq

def DrainableIOBuffer.remaining (b : DrainableIOBuffer) : Bytes := b.data.drop b.consumed

/-- A `GrowableIOBuffer`; what a read stores behind `offset` is in `data` already. -/
structure GrowableIOBuffer where
  capacity : Nat
  offset : Nat
  data : Bytes
  deriving DecidableEq

namespace GrowableIOBuffer

def remainingCapacity (b : GrowableIOBuffer) : Nat := b.capacity - b.offset

def spanBeforeOffset (b : GrowableIOBuffer) : Bytes := b.data.take b.offset

def store (b : GrowableIOBuffer) (chunk : Bytes) : GrowableIOBuffer := { b with data := b.data.take b.offset ++ chunk }

end GrowableIOBuffer

def authFrame (username password : Bytes) : Checked Bytes := do
  let usernameLength ← Checked.uint8 username.length
  let passwordLength ← Checked.uint8 password.length
  return [kAuthSubnegotiationVersion, usernameLength] ++ username ++ [passwordLength] ++ password

inductive State where
  | resolveProxy
  | resolveProxyComplete
  | tcpConnect
  | tcpConnectComplete
  | greetWrite
  | greetWriteComplete
  | greetRead
  | greetReadComplete
  | authWrite
  | authWriteComplete
  | authRead
  | authReadComplete
  | associateWrite
  | associateWriteComplete
  | associateRead
  | associateReadComplete
  | udpConnect
  | none
  deriving DecidableEq

/-- What a state of `DoLoop` asks of the network; it completes at once or later. -/
inductive Request where
  | resolve
  | connect (addresses : List IPEndPoint)
  | write (bytes : Bytes)
  | read (capacity : Nat)
  | udpConnect (relay : IPEndPoint)
  deriving DecidableEq

/-- How one turn of `DoLoop` ends: with something to wait for, with a code, or not at all. -/
inductive Answer where
  | awaits (request : Request)
  | code (rv : Int)
  | aborted (fault : Fault)
  deriving DecidableEq

/-- A `SOCKS5UDPClientSocket`; `literal` is the host of the proxy where it is an address. -/
structure Socket where
  literal : Option Bytes
  proxyPort : Nat
  username : Bytes
  password : Bytes
  nextState : State
  resolved : Option (List IPEndPoint)
  proxyAddresses : List IPEndPoint
  writeBuf : Option DrainableIOBuffer
  readBuf : Option GrowableIOBuffer
  associateReplyRemaining : Nat
  relay : Option IPEndPoint
  deriving DecidableEq

namespace Socket

def hasCredentials (s : Socket) : Bool := !s.username.isEmpty

def goto (s : Socket) (state : State) : Socket := { s with nextState := state }

/-- The elements of a view into `read_buf_`, which are gone once it has been let go. -/
def view (s : Socket) (reply : Span UInt8) : Checked (Span UInt8) :=
  if s.readBuf.isSome then .ok reply else .error .released

def inspect (s : Socket) (reply : Span UInt8) (i : Nat) : Checked UInt8 := do
  let bytes ← s.view reply
  bytes.get i

/-- `Do*Write`: the request is made once, and what is left of it is written. -/
def doWrite (s : Socket) (complete : State) (request : Checked Bytes) : Checked (Socket × Answer) := do
  let s := s.goto complete
  let buf ← match s.writeBuf with
    | some buf => pure buf
    | none => do
      let data ← request
      pure ⟨data, 0⟩
  return ({ s with writeBuf := some buf }, .awaits (.write buf.remaining))

def doWriteComplete (s : Socket) (result : Int) (again next : State) : Checked (Socket × Answer) :=
  if result < 0 then return (s, .code result)
  else
    match s.writeBuf with
    | none => .error .released
    | some buf =>
      let buf := { buf with consumed := buf.consumed + result.toNat }
      if buf.remaining = [] then return ({ s with writeBuf := none, nextState := next }, .code OK)
      else return ({ s with writeBuf := some buf, nextState := again }, .code OK)

def doRead (s : Socket) (complete : State) (size : Nat) : Checked (Socket × Answer) :=
  let s := s.goto complete
  let buf := s.readBuf.getD ⟨size, 0, []⟩
  return ({ s with readBuf := some buf }, .awaits (.read buf.remainingCapacity))

/-- The start of `Do*ReadComplete`, up to where a whole reply is at hand. -/
def doReadComplete (s : Socket) (result : Int) (again : State)
    (whole : Socket → Span UInt8 → Checked (Socket × Answer)) : Checked (Socket × Answer) :=
  if result < 0 then return (s, .code result)
  else if result = 0 then return (s, .code ERR_SOCKS_CONNECTION_FAILED)
  else
    match s.readBuf with
    | none => .error .released
    | some buf =>
      let buf := { buf with offset := buf.offset + result.toNat }
      let s := { s with readBuf := some buf }
      if 0 < buf.remainingCapacity then return (s.goto again, .code OK)
      else whole s buf.spanBeforeOffset

def doResolveProxy (s : Socket) : Checked (Socket × Answer) :=
  let s := s.goto .resolveProxyComplete
  match s.literal with
  | some address => return ({ s with proxyAddresses := [⟨address, s.proxyPort⟩] }, .code OK)
  | none => return (s, .awaits .resolve)

def doResolveProxyComplete (s : Socket) (result : Int) : Checked (Socket × Answer) :=
  if result ≠ OK then return (s, .code result)
  else
    match s.resolved with
    | some [] => return (s, .code ERR_NAME_NOT_RESOLVED)
    | some addresses =>
      return ({ s with proxyAddresses := addresses, resolved := none, nextState := .tcpConnect }, .code OK)
    | none => return (s.goto .tcpConnect, .code OK)

def doTcpConnect (s : Socket) : Checked (Socket × Answer) :=
  return (s.goto .tcpConnectComplete, .awaits (.connect s.proxyAddresses))

def doTcpConnectComplete (s : Socket) (result : Int) : Checked (Socket × Answer) :=
  if result ≠ OK then return (s, .code result) else return (s.goto .greetWrite, .code OK)

def greeting (s : Socket) : Bytes :=
  if s.hasCredentials then [kSOCKS5Version, 0x02, kAuthMethodNone, kAuthMethodUsernamePassword]
  else [kSOCKS5Version, 0x01, kAuthMethodNone]

def doGreetWrite (s : Socket) : Checked (Socket × Answer) := s.doWrite .greetWriteComplete (.ok s.greeting)

def doGreetWriteComplete (s : Socket) (result : Int) : Checked (Socket × Answer) :=
  s.doWriteComplete result .greetWrite .greetRead

def doGreetRead (s : Socket) : Checked (Socket × Answer) := s.doRead .greetReadComplete kGreetReplySize

def greetReply (s : Socket) (reply : Span UInt8) : Checked (Socket × Answer) := do
  if (← s.inspect reply 0) ≠ kSOCKS5Version then return (s, .code ERR_SOCKS_CONNECTION_FAILED)
  let method ← s.inspect reply 1
  let s := { s with readBuf := none }
  if method = kAuthMethodUsernamePassword ∧ s.hasCredentials then return (s.goto .authWrite, .code OK)
  else if method ≠ kAuthMethodNone then return (s, .code ERR_SOCKS_CONNECTION_FAILED)
  else return (s.goto .associateWrite, .code OK)

def doGreetReadComplete (s : Socket) (result : Int) : Checked (Socket × Answer) :=
  s.doReadComplete result .greetRead greetReply

def authRequest (s : Socket) : Checked Bytes := authFrame s.username s.password

def doAuthWrite (s : Socket) : Checked (Socket × Answer) := s.doWrite .authWriteComplete s.authRequest

def doAuthWriteComplete (s : Socket) (result : Int) : Checked (Socket × Answer) :=
  s.doWriteComplete result .authWrite .authRead

def doAuthRead (s : Socket) : Checked (Socket × Answer) := s.doRead .authReadComplete kAuthReplySize

def authReply (s : Socket) (reply : Span UInt8) : Checked (Socket × Answer) := do
  let s := { s with readBuf := none }
  if (← s.inspect reply 0) ≠ kAuthSubnegotiationVersion then return (s, .code ERR_SOCKS_CONNECTION_FAILED)
  if (← s.inspect reply 1) ≠ 0x00 then return (s, .code ERR_PROXY_AUTH_UNSUPPORTED)
  return (s.goto .associateWrite, .code OK)

def doAuthReadComplete (s : Socket) (result : Int) : Checked (Socket × Answer) :=
  s.doReadComplete result .authRead authReply

def associateRequest : Bytes := [kSOCKS5Version, kUdpAssociateCommand, 0x00, kAddressTypeIPv4, 0, 0, 0, 0, 0, 0]

def doAssociateWrite (s : Socket) : Checked (Socket × Answer) :=
  s.doWrite .associateWriteComplete (.ok associateRequest)

def doAssociateWriteComplete (s : Socket) (result : Int) : Checked (Socket × Answer) := do
  let (s, answer) ← s.doWriteComplete result .associateWrite .associateRead
  return (if s.nextState = .associateRead then { s with associateReplyRemaining := 0 } else s, answer)

def doAssociateRead (s : Socket) : Checked (Socket × Answer) := s.doRead .associateReadComplete kReplyPrefixSize

def setCapacity (s : Socket) (capacity : Nat) : Socket :=
  { s with readBuf := s.readBuf.map fun buf => { buf with capacity } }

def associateHead (s : Socket) (reply : Span UInt8) : Checked (Socket × Answer) := do
  if (← s.inspect reply 0) ≠ kSOCKS5Version then return (s, .code ERR_SOCKS_CONNECTION_FAILED)
  if (← s.inspect reply 1) ≠ 0x00 then return (s, .code ERR_SOCKS_CONNECTION_FAILED)
  let addressType ← s.inspect reply 3
  let grow (remaining : Nat) : Socket × Answer :=
    ({ (s.setCapacity (kReplyPrefixSize + remaining)).goto .associateRead with associateReplyRemaining := remaining },
      .code OK)
  if addressType = kAddressTypeIPv4 then return grow (4 + 2)
  else if addressType = kAddressTypeIPv6 then return grow (16 + 2)
  else return (s, .code ERR_SOCKS_CONNECTION_FAILED)

/-- The whole reply is in hand; `peer` is what `GetPeerAddress` answers. -/
def associateWhole (peer : Except Int Bytes) (s : Socket) (reply : Span UInt8) : Checked (Socket × Answer) := do
  let addressType ← s.inspect reply 3
  let rest ← (← s.view reply).subspan kReplyPrefixSize
  let addressLength := if addressType = kAddressTypeIPv4 then 4 else 16
  let address ← rest.first addressLength
  let portBytes ← (← rest.subspan addressLength).first 2
  let port := (← portBytes.get 0).toNat * 256 + (← portBytes.get 1).toNat
  let settle (address : Bytes) : Socket × Answer :=
    ({ s with relay := some ⟨address, port⟩, readBuf := none, nextState := .udpConnect }, .code OK)
  if isZero address then
    match peer with
    | .error rv => return (s, .code rv)
    | .ok peerAddress => return settle peerAddress
  else return settle address

def associateReply (peer : Except Int Bytes) (s : Socket) (reply : Span UInt8) : Checked (Socket × Answer) :=
  if s.associateReplyRemaining = 0 then s.associateHead reply else s.associateWhole peer reply

def doAssociateReadComplete (peer : Except Int Bytes) (s : Socket) (result : Int) : Checked (Socket × Answer) :=
  s.doReadComplete result .associateRead (associateReply peer)

def doUdpConnect (s : Socket) : Checked (Socket × Answer) :=
  match s.relay with
  | some relay => return (s, .awaits (.udpConnect relay))
  | none => .error .released

/-- One turn of the loop in `DoLoop`. -/
def turn (peer : Except Int Bytes) (s : Socket) (rv : Int) : Checked (Socket × Answer) :=
  let state := s.nextState
  let s := s.goto .none
  match state with
  | .resolveProxy => s.doResolveProxy
  | .resolveProxyComplete => s.doResolveProxyComplete rv
  | .tcpConnect => s.doTcpConnect
  | .tcpConnectComplete => s.doTcpConnectComplete rv
  | .greetWrite => s.doGreetWrite
  | .greetWriteComplete => s.doGreetWriteComplete rv
  | .greetRead => s.doGreetRead
  | .greetReadComplete => s.doGreetReadComplete rv
  | .authWrite => s.doAuthWrite
  | .authWriteComplete => s.doAuthWriteComplete rv
  | .authRead => s.doAuthRead
  | .authReadComplete => s.doAuthReadComplete rv
  | .associateWrite => s.doAssociateWrite
  | .associateWriteComplete => s.doAssociateWriteComplete rv
  | .associateRead => s.doAssociateRead
  | .associateReadComplete => s.doAssociateReadComplete peer rv
  | .udpConnect => s.doUdpConnect
  | .none => .error .outOfBounds

end Socket

inductive Traffic where
  | sent (state : State) (bytes : Bytes)
  | received (state : State) (bytes : Bytes)
  deriving DecidableEq

namespace Traffic

def sentIn (state : State) : Traffic → Bytes
  | .sent place bytes => if place = state then bytes else []
  | .received _ _ => []

def receivedIn (state : State) : Traffic → Bytes
  | .sent _ _ => []
  | .received place bytes => if place = state then bytes else []

end Traffic

/-- A socket with its control connection; `incoming` is what the proxy sends and has not been
    read, after which it closes. -/
structure Association where
  socket : Socket
  answer : Answer
  incoming : Bytes
  traffic : List Traffic
  deriving DecidableEq

inductive AssociationLabel where
  | turn
  | resolved (addresses : List IPEndPoint)
  | connected
  | wrote (count : Nat)
  | received (count : Nat)
  | closed
  | udpConnected (rv : Int)
  | failed (rv : Int)
  deriving DecidableEq

def AssociationLabel.fails : AssociationLabel → Bool
  | .failed _ => true
  | _ => false

namespace Association

def initial (username password incoming : Bytes) : Association where
  socket := {
    literal := none, proxyPort := 0, username, password, nextState := .greetWrite, resolved := none
    proxyAddresses := [], writeBuf := none, readBuf := none, associateReplyRemaining := 0, relay := none }
  answer := .code OK
  incoming
  traffic := []

def sent (a : Association) (state : State) : Bytes := a.traffic.flatMap (Traffic.sentIn state)

def received (a : Association) (state : State) : Bytes := a.traffic.flatMap (Traffic.receivedIn state)

def resume (a : Association) : Checked (Socket × Answer) → Association
  | .ok (socket, answer) => { a with socket, answer }
  | .error fault => { a with answer := .aborted fault }

def step (peer : Except Int Bytes) (a : Association) : AssociationLabel → Option Association
  | .turn =>
    match a.answer with
    | .code rv => if a.socket.nextState = .none then none else some (a.resume (a.socket.turn peer rv))
    | _ => none
  | .resolved addresses =>
    if a.answer = .awaits .resolve then some { a with answer := .code OK, socket.resolved := some addresses } else none
  | .connected =>
    match a.answer with
    | .awaits (.connect _) => some { a with answer := .code OK }
    | _ => none
  | .wrote count =>
    match a.answer with
    | .awaits (.write bytes) =>
      if 0 < count ∧ count ≤ bytes.length then
        some { a with
          answer := .code count
          traffic := a.traffic ++ [.sent a.socket.nextState (bytes.take count)] }
      else none
    | _ => none
  | .received count =>
    match a.answer with
    | .awaits (.read capacity) =>
      if 0 < count ∧ count ≤ capacity ∧ count ≤ a.incoming.length then
        some { a with
          answer := .code count
          socket.readBuf := a.socket.readBuf.map (·.store (a.incoming.take count))
          incoming := a.incoming.drop count
          traffic := a.traffic ++ [.received a.socket.nextState (a.incoming.take count)] }
      else none
    | _ => none
  | .closed =>
    match a.answer with
    | .awaits (.read _) => if a.incoming = [] then some { a with answer := .code 0 } else none
    | _ => none
  | .udpConnected rv =>
    match a.answer with
    | .awaits (.udpConnect _) => if rv ≤ 0 ∧ rv ≠ ERR_IO_PENDING then some { a with answer := .code rv } else none
    | _ => none
  | .failed rv =>
    match a.answer with
    | .awaits _ => if rv < 0 ∧ rv ≠ ERR_IO_PENDING then some { a with answer := .code rv } else none
    | _ => none

/-- The handshake is over: the relay is known, an error is on its way to the caller, or the process has stopped. -/
def settled (a : Association) : Bool :=
  match a.answer with
  | .aborted _ => true
  | .code _ => a.socket.nextState = .none || a.socket.nextState = .udpConnect
  | .awaits _ => false

def machine (peer : Except Int Bytes) : Machine Association AssociationLabel := ⟨step peer⟩

end Association

end Cronet.Socks
