import Cronet.Socks.Udp

namespace Cronet.Socks

open Cronet.Native (Bytes)

inductive Effect where
  | opens (addresses : List IPEndPoint)
  | writes (bytes : Bytes)
  | connectsUdp (relay : IPEndPoint)
  | calls (rv : Int)
  deriving DecidableEq

def Answer.effects : Answer → List Effect
  | .awaits (.connect addresses) => [.opens addresses]
  | .awaits (.write bytes) => [.writes bytes]
  | .awaits (.udpConnect relay) => [.connectsUdp relay]
  | _ => []

/-- Whether an operation may return `ERR_IO_PENDING`; `Connect` of a UDP socket completes at once. -/
def Request.defers : Request → Bool
  | .udpConnect _ => false
  | _ => true

/-- Where the machine is: inside `DoLoop`, back from it with an operation outstanding, or done. -/
inductive Standing where
  | looping
  | pending
  | done
  deriving DecidableEq

/-- A `SOCKS5UDPClientSocket` from `ConnectAsync` on; `control` and `callback` say whether it
    holds a `control_socket_` and a `user_callback_`. -/
structure Client where
  socket : Socket
  answer : Answer
  standing : Standing
  control : Bool
  callback : Bool
  deriving DecidableEq

inductive ClientLabel where
  | turn
  | pends
  | resolved (addresses : List IPEndPoint)
  | connected
  | wrote (count : Nat)
  | received (chunk : Bytes)
  | udpConnected (rv : Int)
  | failed (rv : Int)
  | returns
  | close
  deriving DecidableEq

namespace Client

/-- What `ConnectAsync` enters `DoLoop` with. -/
def initial (literal : Option Bytes) (proxyPort : Nat) (username password : Bytes) : Client where
  socket := {
    literal, proxyPort, username, password, nextState := .resolveProxy, resolved := none
    proxyAddresses := [], writeBuf := none, readBuf := none, associateReplyRemaining := 0, relay := none }
  answer := .code OK
  standing := .looping
  control := false
  callback := false

/-- Connecting makes a `control_socket_` first. -/
def resume (c : Client) : Checked (Socket × Answer) → Client
  | .ok (socket, .awaits (.connect addresses)) =>
    { c with socket, answer := .awaits (.connect addresses), control := true }
  | .ok (socket, answer) => { c with socket, answer }
  | .error fault => { c with answer := .aborted fault }

/-- Whether the object an operation belongs to is still there to complete it. A stream socket
    that is disconnected and destroyed completes nothing. -/
def owns (c : Client) : Request → Bool
  | .resolve => true
  | .udpConnect _ => true
  | _ => c.control

/-- An operation completes, inside `DoLoop` or through `OnIOComplete`, which enters it again. -/
def complete (c : Client) (rv : Int) : Client := { c with answer := .code rv, standing := .looping }

/-- `Close`; neither `resolve_request_` nor the weak pointers to the socket are let go. -/
def close (c : Client) : Client := { c with control := false }

def step (peer : Except Int Bytes) (c : Client) : ClientLabel → Option Client
  | .turn =>
    match c.standing, c.answer with
    | .looping, .code rv => if c.socket.nextState = .none then none else some (c.resume (c.socket.turn peer rv))
    | _, _ => none
  | .pends =>
    match c.standing, c.answer with
    | .looping, .awaits request => if request.defers then some { c with standing := .pending, callback := true } else none
    | _, _ => none
  | .resolved addresses =>
    if c.answer = .awaits .resolve then some { c.complete OK with socket.resolved := some addresses } else none
  | .connected =>
    match c.answer with
    | .awaits (.connect addresses) => if c.owns (.connect addresses) then some (c.complete OK) else none
    | _ => none
  | .wrote count =>
    match c.answer with
    | .awaits (.write bytes) =>
      if c.owns (.write bytes) ∧ 0 < count ∧ count ≤ bytes.length then some (c.complete count) else none
    | _ => none
  | .received chunk =>
    match c.answer with
    | .awaits (.read capacity) =>
      if c.owns (.read capacity) ∧ chunk.length ≤ capacity then
        some { c.complete chunk.length with socket.readBuf := c.socket.readBuf.map (·.store chunk) }
      else none
    | _ => none
  | .udpConnected rv =>
    match c.answer with
    | .awaits (.udpConnect _) => if rv ≤ 0 ∧ rv ≠ ERR_IO_PENDING then some (c.complete rv) else none
    | _ => none
  | .failed rv =>
    match c.answer with
    | .awaits request => if c.owns request ∧ rv < 0 ∧ rv ≠ ERR_IO_PENDING then some (c.complete rv) else none
    | _ => none
  | .returns =>
    match c.standing, c.answer with
    | .looping, .code _ => if c.socket.nextState = .none then some { c with standing := .done, callback := false } else none
    | _, _ => none
  | .close => if c.standing = .looping then none else some c.close

/-- What a step does; `returns` is `DoCallback`, or `ConnectAsync` itself where nothing was awaited. -/
def effects (peer : Except Int Bytes) (c : Client) : ClientLabel → List Effect
  | .turn => ((step peer c .turn).map (·.answer.effects)).getD []
  | .returns =>
    match c.answer with
    | .code rv => if c.callback then [.calls rv] else []
    | _ => []
  | _ => []

def machine (peer : Except Int Bytes) : Machine Client ClientLabel := ⟨step peer⟩

/-- Whatever completes from here on, in whatever order, nothing is done about it. -/
def Silent (peer : Except Int Bytes) (c : Client) : Prop :=
  ∀ labels d, (machine peer).run c labels = some d → (machine peer).outputs (effects peer) c labels = []

end Client

def Computes (result : Checked (Socket × Answer)) : Prop :=
  ∀ t answer, result = .ok (t, answer) → ∃ rv, answer = .code rv

namespace Computes

theorem code {s : Socket} {rv : Int} : Computes (pure (s, .code rv)) := by
  intro t answer ok
  cases ok
  exact ⟨rv, rfl⟩

theorem fault {fault : Fault} : Computes (.error fault) := by
  intro t answer ok
  cases ok

theorem bind {α : Type} {x : Checked α} {f : α → Checked (Socket × Answer)} (rest : ∀ a, Computes (f a)) :
    Computes (x >>= f) := by
  intro t answer ok
  obtain ⟨a, -, ok⟩ := Checked.bind_ok ok
  exact rest a t answer ok

theorem ite {p : Prop} [Decidable p] {x y : Checked (Socket × Answer)} (yes : Computes x) (no : Computes y) :
    Computes (if p then x else y) := by
  split
  · exact yes
  · exact no

end Computes

namespace Socket

variable {peer : Except Int Bytes} {s t : Socket} {rv : Int}

theorem doWriteComplete_computes {again next : State} : Computes (s.doWriteComplete rv again next) := by
  apply Computes.ite .code
  cases s.writeBuf with
  | none => exact .fault
  | some buf => exact .ite .code .code

theorem doReadComplete_computes {again : State} {whole : Socket → Span UInt8 → Checked (Socket × Answer)}
    (computes : ∀ s reply, Computes (whole s reply)) : Computes (s.doReadComplete rv again whole) := by
  apply Computes.ite .code
  apply Computes.ite .code
  cases s.readBuf with
  | none => exact .fault
  | some buf => exact .ite .code (computes _ _)

theorem greetReply_computes (s : Socket) (reply : Span UInt8) : Computes (s.greetReply reply) := by
  apply Computes.bind
  intro version
  apply Computes.ite .code
  apply Computes.bind
  intro method
  exact .ite .code (.ite .code .code)

theorem authReply_computes (s : Socket) (reply : Span UInt8) : Computes (s.authReply reply) := by
  apply Computes.bind
  intro version
  apply Computes.ite .code
  apply Computes.bind
  intro status
  exact .ite .code .code

theorem associateHead_computes (s : Socket) (reply : Span UInt8) : Computes (s.associateHead reply) := by
  apply Computes.bind
  intro version
  apply Computes.ite .code
  apply Computes.bind
  intro status
  apply Computes.ite .code
  apply Computes.bind
  intro addressType
  exact .ite .code (.ite .code .code)

theorem associateWhole_computes (s : Socket) (reply : Span UInt8) : Computes (associateWhole peer s reply) := by
  -- Seven checked reads of the reply, none of which can answer for the client.
  iterate 7
    apply Computes.bind
    intro read
  apply Computes.bind
  intro port
  apply Computes.ite _ .code
  cases peer with
  | error rv => exact .code
  | ok address => exact .code

theorem associateReply_computes (s : Socket) (reply : Span UInt8) : Computes (associateReply peer s reply) :=
  .ite (associateHead_computes s reply) (associateWhole_computes s reply)

theorem associateWriteComplete_computes : Computes (s.doAssociateWriteComplete rv) := by
  intro t answer ok
  obtain ⟨⟨u, same⟩, wrote, ok⟩ := Checked.bind_ok ok
  cases ok
  exact doWriteComplete_computes _ _ wrote

theorem doWrite_writes {complete : State} {request : Checked Bytes} {answer : Answer}
    (ok : s.doWrite complete request = .ok (t, answer)) : ∃ bytes, answer = .awaits (.write bytes) := by
  simp only [doWrite] at ok
  split at ok
  · cases ok
    exact ⟨_, rfl⟩
  · obtain ⟨data, -, ok⟩ := Checked.bind_ok ok
    cases ok
    exact ⟨_, rfl⟩

theorem turn_resolve (ok : s.turn peer rv = .ok (t, .awaits .resolve)) : t.nextState = .resolveProxyComplete := by
  have computed {result : Checked (Socket × Answer)} (computes : Computes result)
      (ok : result = .ok (t, .awaits .resolve)) : t.nextState = .resolveProxyComplete := by
    obtain ⟨rv, code⟩ := computes _ _ ok
    cases code
  have wrote {s : Socket} {complete : State} {request : Checked Bytes}
      (ok : s.doWrite complete request = .ok (t, .awaits .resolve)) : t.nextState = .resolveProxyComplete := by
    obtain ⟨bytes, write⟩ := doWrite_writes ok
    cases write
  unfold turn at ok
  -- Every other state has an answer of its own, or asks for something else.
  cases state : s.nextState with
  | resolveProxy =>
    simp only [state, doResolveProxy] at ok
    split at ok <;> cases ok
    rfl
  | resolveProxyComplete =>
    simp only [state, doResolveProxyComplete] at ok
    split at ok
    · cases ok
    · split at ok <;> cases ok
  | tcpConnect =>
    simp only [state] at ok
    cases ok
  | tcpConnectComplete =>
    simp only [state] at ok
    exact computed (.ite .code .code) ok
  | greetWrite | authWrite | associateWrite =>
    simp only [state] at ok
    exact wrote ok
  | greetWriteComplete | authWriteComplete =>
    simp only [state] at ok
    exact computed doWriteComplete_computes ok
  | associateWriteComplete =>
    simp only [state] at ok
    exact computed associateWriteComplete_computes ok
  | greetRead | authRead | associateRead =>
    simp only [state] at ok
    cases ok
  | greetReadComplete =>
    simp only [state] at ok
    exact computed (doReadComplete_computes greetReply_computes) ok
  | authReadComplete =>
    simp only [state] at ok
    exact computed (doReadComplete_computes authReply_computes) ok
  | associateReadComplete =>
    simp only [state] at ok
    exact computed (doReadComplete_computes associateReply_computes) ok
  | udpConnect =>
    simp only [state, doUdpConnect] at ok
    split at ok <;> cases ok
  | none =>
    simp only [state] at ok
    cases ok

end Socket

namespace Client

variable {peer : Except Int Bytes} {literal : Option Bytes} {proxyPort : Nat} {username password : Bytes}
  {past : List ClientLabel} {a b c d : Client} {label : ClientLabel} {rv : Int}

structure Sound (c : Client) : Prop where
  deferred : c.standing = .pending → ∃ request, c.answer = .awaits request ∧ request.defers
  ended : c.standing = .done → ∃ rv, c.answer = .code rv
  resolving : c.answer = .awaits .resolve → c.socket.nextState = .resolveProxyComplete

theorem initial_sound : (initial literal proxyPort username password).Sound where
  deferred pending := by cases pending
  ended finished := by cases finished
  resolving answer := by cases answer

theorem complete_sound {socket : Socket} : { c.complete rv with socket }.Sound where
  deferred pending := by cases pending
  ended finished := by cases finished
  resolving answer := by cases answer

@[simp] theorem resume_standing (result : Checked (Socket × Answer)) : (c.resume result).standing = c.standing := by
  unfold resume
  split <;> rfl

theorem resume_answers {s : Socket} {answer : Answer} :
    (c.resume (.ok (s, answer))).socket = s ∧ (c.resume (.ok (s, answer))).answer = answer := by
  unfold resume
  split <;> simp_all

theorem turn_sound (looping : c.standing = .looping) : (c.resume (c.socket.turn peer rv)).Sound := by
  refine ⟨fun pending => ?_, fun finished => ?_, fun answer => ?_⟩
  · rw [resume_standing, looping] at pending
    cases pending
  · rw [resume_standing, looping] at finished
    cases finished
  · cases turned : c.socket.turn peer rv with
    | error fault =>
      rw [turned] at answer
      cases answer
    | ok result =>
      obtain ⟨t, answered⟩ := result
      rw [turned, resume_answers.2] at answer
      subst answer
      rw [resume_answers.1]
      exact Socket.turn_resolve turned

theorem step_sound (sound : c.Sound) (stepped : step peer c label = some d) : d.Sound := by
  cases label with
  | turn =>
    simp only [step] at stepped
    split at stepped
    · rename_i looping answer
      obtain ⟨-, ⟨⟩⟩ := Option.ite_none_left_eq_some.mp stepped
      exact turn_sound looping
    · cases stepped
  | pends =>
    simp only [step] at stepped
    split at stepped
    · rename_i request looping answer
      obtain ⟨defers, ⟨⟩⟩ := Option.ite_none_right_eq_some.mp stepped
      exact ⟨fun _ => ⟨request, answer, defers⟩, nofun, sound.resolving⟩
    · cases stepped
  | resolved addresses =>
    obtain ⟨-, ⟨⟩⟩ := Option.ite_none_right_eq_some.mp stepped
    exact complete_sound
  | close =>
    obtain ⟨-, ⟨⟩⟩ := Option.ite_none_left_eq_some.mp stepped
    exact ⟨sound.deferred, sound.ended, sound.resolving⟩
  | returns =>
    simp only [step] at stepped
    split at stepped
    · rename_i rv looping answer
      obtain ⟨-, ⟨⟩⟩ := Option.ite_none_right_eq_some.mp stepped
      exact ⟨nofun, fun _ => ⟨rv, answer⟩, sound.resolving⟩
    · cases stepped
  | connected | wrote | received | udpConnected | failed =>
    simp only [step] at stepped
    split at stepped
    · obtain ⟨-, ⟨⟩⟩ := Option.ite_none_right_eq_some.mp stepped
      exact complete_sound
    · cases stepped

theorem run_sound (ran : (machine peer).run (initial literal proxyPort username password) past = some c) : c.Sound :=
  Machine.invariant Sound initial_sound (fun _ _ _ sound stepped => step_sound sound stepped) ran

/-- A machine that is not inside `DoLoop` and waits for nothing that is still there. -/
structure Dead (c : Client) : Prop where
  away : c.standing ≠ .looping
  orphaned : ∀ request, c.answer = .awaits request → c.owns request = false

theorem dead_step (dead : c.Dead) (stepped : step peer c label = some d) :
    d.Dead ∧ effects peer c label = [] := by
  obtain ⟨away, orphaned⟩ := dead
  cases label with
  | close =>
    obtain ⟨-, ⟨⟩⟩ := Option.ite_none_left_eq_some.mp stepped
    refine ⟨⟨away, fun request answer => ?_⟩, rfl⟩
    have lost := orphaned request answer
    cases request <;> first | exact lost | rfl
  | turn | pends | returns =>
    simp only [step] at stepped
    split at stepped
    · rename_i looping answer
      exact absurd looping away
    · cases stepped
  | resolved addresses =>
    obtain ⟨answer, -⟩ := Option.ite_none_right_eq_some.mp stepped
    cases orphaned _ answer
  -- What would complete belongs to an object that is gone.
  | connected | wrote | received | failed =>
    simp only [step] at stepped
    split at stepped
    · rename_i answer
      simp [orphaned _ answer] at stepped
    · cases stepped
  | udpConnected rv =>
    simp only [step] at stepped
    split at stepped
    · rename_i relay answer
      cases orphaned _ answer
    · cases stepped

theorem Dead.silent (dead : c.Dead) : Silent peer c := by
  intro labels d ran
  induction labels generalizing c with
  | nil => rfl
  | cons label labels ih =>
    obtain ⟨u, stepped, rest⟩ := Machine.run_cons.mp ran
    obtain ⟨deadNext, quiet⟩ := dead_step dead stepped
    have stepped : (machine peer).step c label = some u := stepped
    simp only [Machine.outputs, quiet, stepped, ih deadNext rest, List.append_nil]

theorem closed_dead (sound : a.Sound) (closed : step peer a .close = some b) (settled : a.answer ≠ .awaits .resolve) :
    b.Dead := by
  obtain ⟨away, ⟨⟩⟩ := Option.ite_none_left_eq_some.mp closed
  refine ⟨away, fun request answer => ?_⟩
  have answer : a.answer = .awaits request := answer
  cases standing : a.standing with
  | looping => exact absurd standing away
  | done =>
    obtain ⟨rv, code⟩ := sound.ended standing
    rw [code] at answer
    cases answer
  | pending =>
    obtain ⟨awaited, waits, defers⟩ := sound.deferred standing
    rw [waits] at answer
    cases answer
    cases request with
    | resolve => exact absurd waits settled
    | udpConnect relay => cases defers
    | connect | write | read => rfl

theorem resolving_opens (proxy : IPEndPoint) (answer : c.answer = .awaits .resolve)
    (state : c.socket.nextState = .resolveProxyComplete) :
    ∃ d, (machine peer).run c [.resolved [proxy], .turn, .turn] = some d ∧
      (machine peer).outputs (effects peer) c [.resolved [proxy], .turn, .turn] = [.opens [proxy]] := by
  obtain ⟨socket, answered, standing, control, callback⟩ := c
  obtain ⟨literal, proxyPort, username, password, nextState, resolved⟩ := socket
  cases answer
  cases state
  exact ⟨_, rfl, rfl⟩

/-- `Close` lets go of the control connection and of what is outstanding on it, and misses the
    request for the name of the proxy. -/
theorem close_silences_iff (ran : (machine peer).run (initial literal proxyPort username password) past = some a)
    (closed : step peer a .close = some b) : Silent peer b ↔ a.answer ≠ .awaits .resolve := by
  have sound := run_sound ran
  constructor
  · intro silent resolving
    obtain ⟨-, ⟨⟩⟩ := Option.ite_none_left_eq_some.mp closed
    obtain ⟨d, later, opens⟩ := @resolving_opens peer a.close ⟨[192, 0, 2, 1], 1080⟩ resolving
      (sound.resolving resolving)
    rw [silent _ d later] at opens
    cases opens
  · intro settled
    exact (closed_dead sound closed settled).silent

theorem close_silences_connecting :
    ∃ a b, (machine (.error 0)).run (initial (some [127, 0, 0, 1]) 1080 [] []) [.turn, .turn, .turn, .pends] = some a ∧
      step (.error 0) a .close = some b ∧ Silent (.error 0) b := by
  obtain ⟨a, ran, away, settled⟩ : ∃ a, (machine (.error 0)).run (initial (some [127, 0, 0, 1]) 1080 [] [])
      [.turn, .turn, .turn, .pends] = some a ∧ a.standing ≠ .looping ∧ a.answer ≠ .awaits .resolve :=
    ⟨_, rfl, nofun, nofun⟩
  have closed : step (.error 0) a .close = some a.close := if_neg away
  exact ⟨a, a.close, ran, closed, (close_silences_iff ran closed).mpr settled⟩

/-- A proxy that has a name, closed while the name is being looked up, connected to all the same. -/
theorem closed_yet_opens :
    ∃ a b d, (machine (.error 0)).run (initial none 1080 [] []) [.turn, .pends] = some a ∧
      step (.error 0) a .close = some b ∧
      (machine (.error 0)).run b [.resolved [⟨[192, 0, 2, 1], 1080⟩], .turn, .turn] = some d ∧
      (machine (.error 0)).outputs (effects (.error 0)) b [.resolved [⟨[192, 0, 2, 1], 1080⟩], .turn, .turn] =
        [.opens [⟨[192, 0, 2, 1], 1080⟩]] :=
  ⟨_, _, _, rfl, rfl, rfl, rfl⟩

end Client

end Cronet.Socks
