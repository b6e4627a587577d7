import Mathlib.Data.Finset.Insert
import Cronet.Socks.Negotiating

namespace Cronet.Socks.Server

open Cronet.Native (Bytes)

def VERSION : UInt8 := 0x05
def AUTH_NONE : UInt8 := 0x00
def AUTH_USERNAME_PASSWORD : UInt8 := 0x02
def AUTH_UNACCEPTABLE : UInt8 := 0xFF
def AUTH_SUBNEGOTIATION_VERSION : UInt8 := 0x01

/-- What a `Socks5Server` asks of its clients; no username asks for nothing. -/
structure Config where
  username : String
  password : String

/-- `bytes.decode()`. -/
def decode (bytes : Bytes) : Option String := String.fromUTF8? bytes.toByteArray

/-- Where `_greet` and `_authenticate` wait in `_receive_exactly`, or how they have ended: with what `_greet` returned, with
    a `ValueError`, or with the `OSError` of a client that hung up. -/
inductive Stage where
  | greetHead
  | greetMethods (count : Nat)
  | authVersion
  | authUsernameLength
  | authUsername (count : Nat)
  | authPasswordLength (username : String)
  | authPassword (username : String) (count : Nat)
  | greeted (accepted : Bool)
  | raised
  | hungUp
  deriving DecidableEq

/-- The count `_receive_exactly` waits for. -/
def Stage.count : Stage → Option Nat
  | greetHead => some 2
  | greetMethods count | authUsername count | authPassword _ count => some count
  | authVersion | authUsernameLength | authPasswordLength _ => some 1
  | greeted _ | raised | hungUp => none

def Stage.refuses : Stage → Bool
  | greeted accepted => !accepted
  | raised => true
  | _ => false

/-- A `_Handler`, with what its server has noted of it. -/
structure Handler where
  stage : Stage
  data : Bytes
  offeredMethods : List (Finset UInt8)
  credentialsSeen : List (String × String)
  deriving DecidableEq

namespace Handler

def initial : Handler := ⟨.greetHead, [], [], []⟩

def await (h : Handler) (stage : Stage) : Handler := { h with stage, data := [] }

def wanted (cfg : Config) : UInt8 := if cfg.username ≠ "" then AUTH_USERNAME_PASSWORD else AUTH_NONE

/-- From one `_receive_exactly` to the next, with what is sent on the way. -/
def resume (cfg : Config) (h : Handler) : Handler × Bytes :=
  match h.stage, h.data with
  | .greetHead, [version, count] =>
    if version ≠ VERSION then (h.await .raised, []) else (h.await (.greetMethods count.toNat), [])
  | .greetMethods _, methods =>
    let h := { h with offeredMethods := h.offeredMethods ++ [methods.toFinset] }
    if wanted cfg ∉ methods.toFinset then (h.await (.greeted false), [VERSION, AUTH_UNACCEPTABLE])
    else (h.await (if cfg.username ≠ "" then .authVersion else .greeted true), [VERSION, wanted cfg])
  | .authVersion, [version] =>
    if version ≠ AUTH_SUBNEGOTIATION_VERSION then (h.await .raised, []) else (h.await .authUsernameLength, [])
  | .authUsernameLength, [count] => (h.await (.authUsername count.toNat), [])
  | .authUsername _, bytes =>
    match decode bytes with
    | none => (h.await .raised, [])
    | some username => (h.await (.authPasswordLength username), [])
  | .authPasswordLength username, [count] => (h.await (.authPassword username count.toNat), [])
  | .authPassword username _, bytes =>
    match decode bytes with
    | none => (h.await .raised, [])
    | some password =>
      let h := { h with credentialsSeen := h.credentialsSeen ++ [(username, password)] }
      let accepted := username = cfg.username ∧ password = cfg.password
      (h.await (.greeted accepted), [AUTH_SUBNEGOTIATION_VERSION, if accepted then 0x00 else 0x01])
  | _, _ => (h, [])

end Handler

end Cronet.Socks.Server

namespace Cronet.Socks.Tcp

open Cronet.Native (Bytes)
open Cronet.Socks.Server (Config Handler)

structure Dialogue where
  client : Connection
  server : Handler
  outgoing : Bytes
  incoming : Bytes

inductive DialogueLabel where
  | client (label : Label)
  | recv (count : Nat)
  | resume
  | hangUp

namespace Dialogue

def initial (host username password : Bytes) : Dialogue where
  client := .initial host username password
  server := .initial
  outgoing := []
  incoming := []

def puts (c : Connection) : Label → Bytes
  | .wrote count =>
    match c.answer with
    | .awaits (.write bytes) => bytes.take count
    | _ => []
  | _ => []

/-- A read brings some of the bytes on their way, or the end of a connection the proxy has closed; the transport itself
    does not fail. -/
def mayStep (d : Dialogue) : Label → Bool
  | .received [] => d.incoming = [] && d.server.stage.refuses
  | .received bytes => bytes.isPrefixOf d.incoming
  | .failed _ => false
  | _ => true

def step (upstream : Upstream) (cfg : Config) (d : Dialogue) : DialogueLabel → Option Dialogue
  | .client label =>
    if d.client.settled = false ∧ d.mayStep label then
      (Connection.step upstream d.client label).map fun client =>
        { d with client, outgoing := d.outgoing ++ puts d.client label, incoming := d.incoming.drop label.bytes.length }
    else none
  | .recv count =>
    match d.server.stage.count with
    | some needed =>
      if 0 < count ∧ d.server.data.length + count ≤ needed ∧ count ≤ d.outgoing.length then
        some { d with
          server.data := d.server.data ++ d.outgoing.take count
          outgoing := d.outgoing.drop count }
      else none
    | none => none
  | .resume =>
    if d.server.stage.count = some d.server.data.length then
      some { d with server := (d.server.resume cfg).1, incoming := d.incoming ++ (d.server.resume cfg).2 }
    else none
  | .hangUp =>
    match d.server.stage.count with
    | some needed =>
      if d.server.data.length < needed ∧ d.outgoing = [] ∧ d.client.settled = true ∧ d.client.socket.nextState = .none then
        some { d with server := d.server.await .hungUp }
      else none
    | none => none

def machine (upstream : Upstream) (cfg : Config) : Machine Dialogue DialogueLabel := ⟨step upstream cfg⟩

end Dialogue

end Cronet.Socks.Tcp
