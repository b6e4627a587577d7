import Cronet.Lib.Datagrams
import Cronet.Lib.Machine
import Cronet.Socks.Relaying

namespace Cronet.Socks

open Cronet.Native (Bytes)

namespace Server

def ADDRESS_IPV4 : UInt8 := 0x01
def ADDRESS_IPV6 : UInt8 := 0x04

inductive ValueError where
  | packedLength
  deriving DecidableEq

/-- `int.from_bytes(data, "big")` -/
def fromBytes (data : Bytes) : Nat := data.foldl (fun n byte => n * 2 ^ 8 + byte.toNat) 0

/-- `bytes[i:j]` -/
def slice (bytes : Bytes) (i j : Nat) : Bytes := (bytes.take j).drop i

/-- `socket.inet_ntop`; an address stands for its text. -/
def inetNtop (size : Nat) (packed : Bytes) : Except ValueError Bytes :=
  if packed.length = size then .ok packed else .error .packedLength

def parseUdpHeader (datagram : Bytes) : Except ValueError (Option (IPEndPoint × Bytes)) := do
  if datagram.length < 10 ∨ datagram[2]? ≠ some 0x00 then return none
  else if datagram[3]? = some ADDRESS_IPV4 then
    let host ← inetNtop 4 (slice datagram 4 8)
    return some (⟨host, fromBytes (slice datagram 8 10)⟩, datagram.drop 10)
  else if datagram[3]? = some ADDRESS_IPV6 then
    let host ← inetNtop 16 (slice datagram 4 20)
    return some (⟨host, fromBytes (slice datagram 20 22)⟩, datagram.drop 22)
  else return none

/-- `_udp_header` of where an answer came from: for an `AF_INET` socket that is an IPv4 address. -/
def udpHeader (source : IPEndPoint) : Bytes :=
  [0x00, 0x00, 0x00, ADDRESS_IPV4] ++ source.address ++ u16ToBigEndian source.port

end Server

open Server (parseUdpHeader udpHeader)

/-- How far `_relay_datagrams` is: it serves until the control connection ends or an exception does. -/
inductive RelayStage where
  | serving
  | returned
  | raised
  deriving DecidableEq

/-- A call of the client's `Read`, and the datagram it finds. -/
structure ReadCall where
  userBuf : Bytes
  bufLen : Nat
  datagram : Bytes

def ReadCall.outcome (call : ReadCall) : Checked (Int × Bytes) := read call.userBuf call.bufLen call.datagram

/-- An association between a client at `me`, the relay of a `Socks5Server` and the hosts behind it, over a network that
    hands over each datagram once, often or not at all. An entry is an address and a datagram: to the relay the address it
    comes from, to the hosts the one it goes to, from them the one that answers, and to the client the one it goes to. -/
structure Relay where
  stage : RelayStage
  clientAddress : Option IPEndPoint
  datagramsRelayed : List IPEndPoint
  toRelay : Datagrams (IPEndPoint × Bytes)
  toHosts : Datagrams (IPEndPoint × Bytes)
  fromHosts : Datagrams (IPEndPoint × Bytes)
  toClient : Datagrams (IPEndPoint × Bytes)
  written : Multiset (IPEndPoint × Bytes)
  /-- What others have sent to the relay. -/
  strange : Multiset Bytes
  /-- Where `upstream.sendto` raised an `OSError`. -/
  unsent : Multiset (IPEndPoint × Bytes)
  /-- Answers without a client to go to, or where `relay.sendto` raised an `OSError`. -/
  dropped : Multiset (IPEndPoint × Bytes)
  reads : List ReadCall

inductive Route where
  | toRelay
  | toHosts
  | fromHosts
  | toClient

inductive RelayLabel where
  | write (destination : Destination) (payload beyond : Bytes) (result : Int)
  | intrude (source : IPEndPoint) (datagram : Bytes)
  | forward (source : IPEndPoint) (datagram : Bytes) (sent : Bool)
  | arrive (destination : IPEndPoint) (payload : Bytes)
  | answer (source : IPEndPoint) (payload : Bytes)
  | giveBack (source : IPEndPoint) (answer : Bytes) (sent : Bool)
  | read (datagram userBuf : Bytes) (bufLen : Nat)
  | suffer (route : Route) (entry : IPEndPoint × Bytes) (fate : Datagrams.Fate)
  | hangUp

namespace Relay

def initial : Relay where
  stage := .serving
  clientAddress := none
  datagramsRelayed := []
  toRelay := .empty
  toHosts := .empty
  fromHosts := .empty
  toClient := .empty
  written := 0
  strange := 0
  unsent := 0
  dropped := 0
  reads := []

/-- What the relay does with a datagram; an `AF_INET` socket does not send to an IPv6 address. -/
def forward (s : Relay) (source : IPEndPoint) (datagram : Bytes) (sent : Bool) : Relay :=
  let s := { s with clientAddress := some source }
  match parseUdpHeader datagram with
  | .error _ => { s with stage := .raised }
  | .ok none => s
  | .ok (some (destination, payload)) =>
    let s := { s with datagramsRelayed := s.datagramsRelayed ++ [destination] }
    if sent ∧ destination.address.length = 4 then { s with toHosts := s.toHosts.send (destination, payload) }
    else { s with unsent := (destination, payload) ::ₘ s.unsent }

def giveBack (s : Relay) (source : IPEndPoint) (answer : Bytes) (sent : Bool) : Relay :=
  match s.clientAddress with
  | some address =>
    if sent then { s with toClient := s.toClient.send (address, udpHeader source ++ answer) }
    else { s with dropped := (source, answer) ::ₘ s.dropped }
  | none => { s with dropped := (source, answer) ::ₘ s.dropped }

/-- An address of `AF_INET`, with a port that fits a datagram. -/
def isIPv4 (source : IPEndPoint) : Bool := source.address.length = 4 && source.port < 2 ^ 16

/-- The client's UDP socket sends all of a datagram or fails, and takes only what comes to its own address. -/
def step (me : IPEndPoint) (s : Relay) : RelayLabel → Option Relay
  | .write destination payload beyond result =>
    match write destination (payload ++ beyond) payload.length result with
    | .error _ => none
    | .ok (wire, _) =>
      if destination.port < 2 ^ 16 then
        if result = wire.length then
          some { s with
            toRelay := s.toRelay.send (me, wire)
            written := (destination.toIPEndPoint, payload) ::ₘ s.written }
        else if result < 0 then some s
        else none
      else none
  | .intrude source datagram =>
    if source ≠ me then
      some { s with toRelay := s.toRelay.send (source, datagram), strange := datagram ::ₘ s.strange }
    else none
  | .forward source datagram sent =>
    if there : (source, datagram) ∈ s.toRelay.flying then
      if s.stage = .serving then
        some (forward { s with toRelay := s.toRelay.take (source, datagram) there } source datagram sent)
      else none
    else none
  | .arrive destination payload =>
    if there : (destination, payload) ∈ s.toHosts.flying then
      some { s with toHosts := s.toHosts.take (destination, payload) there }
    else none
  | .answer source payload =>
    if isIPv4 source then some { s with fromHosts := s.fromHosts.send (source, payload) } else none
  | .giveBack source answer sent =>
    if there : (source, answer) ∈ s.fromHosts.flying then
      if s.stage = .serving then
        some (giveBack { s with fromHosts := s.fromHosts.take (source, answer) there } source answer sent)
      else none
    else none
  | .read datagram userBuf bufLen =>
    if there : (me, datagram) ∈ s.toClient.flying then
      if bufLen ≤ userBuf.length ∧ bufLen + kUdpHeaderSizeIPv6 < 2 ^ 31 then
        some { s with
          toClient := s.toClient.take (me, datagram) there
          reads := s.reads ++ [⟨userBuf, bufLen, datagram⟩] }
      else none
    else none
  | .suffer .toRelay entry fate =>
    if there : entry ∈ s.toRelay.flying then some { s with toRelay := s.toRelay.suffer entry there fate } else none
  | .suffer .toHosts entry fate =>
    if there : entry ∈ s.toHosts.flying then some { s with toHosts := s.toHosts.suffer entry there fate } else none
  | .suffer .fromHosts entry fate =>
    if there : entry ∈ s.fromHosts.flying then some { s with fromHosts := s.fromHosts.suffer entry there fate } else none
  | .suffer .toClient entry fate =>
    if there : entry ∈ s.toClient.flying then some { s with toClient := s.toClient.suffer entry there fate } else none
  | .hangUp => if s.stage = .serving then some { s with stage := .returned } else none

def machine (me : IPEndPoint) : Machine Relay RelayLabel := ⟨step me⟩

end Relay

end Cronet.Socks
