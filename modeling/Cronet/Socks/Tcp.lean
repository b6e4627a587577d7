import Cronet.Socks.Credentials

namespace Cronet.Socks.Tcp

open Cronet.Native (Bytes)

def kMaxCredentialLength : Nat := 255
def kAuthReadHeaderSize : Nat := 2

inductive State where
  | greetWrite
  | greetWriteComplete
  | greetRead
  | greetReadComplete
  | authWrite
  | authWriteComplete
  | authRead
  | authReadComplete
  | handshakeWrite
  | handshakeWriteComplete
  | handshakeRead
  | handshakeReadComplete
  | none
  deriving DecidableEq

/-- A `SOCKS5ClientSocket`; `host` is the destination's. -/
structure Socket where
  host : Bytes
  username : Bytes
  password : Bytes
  nextState : State
  writeBuf : Option DrainableIOBuffer
  readBuf : Option GrowableIOBuffer
  deriving DecidableEq

/-- The states the patches leave as they are. `greetReadComplete` goes as far as the method, where it gets there. -/
structure Upstream where
  greetWriteComplete : Socket → Int → Socket × Answer
  greetRead : Socket → Socket × Answer
  greetReadComplete : Socket → Int → (Socket × Answer) ⊕ (Socket × UInt8)
  handshake : State → Socket → Int → Socket × Answer

namespace Socket

def hasCredentials (s : Socket) : Bool := !s.username.isEmpty

def goto (s : Socket) (state : State) : Socket := { s with nextState := state }

def greeting (s : Socket) : Bytes :=
  if s.hasCredentials then [kSOCKS5Version, 0x02, kAuthMethodNone, kAuthMethodUsernamePassword]
  else [kSOCKS5Version, 0x01, kAuthMethodNone]

def doGreetWrite (s : Socket) : Checked (Socket × Answer) :=
  if 255 < s.host.length then return (s, .code ERR_SOCKS_CONNECTION_FAILED)
  else if kMaxCredentialLength < s.username.length ∨ kMaxCredentialLength < s.password.length then
    return (s, .code ERR_SOCKS_CONNECTION_FAILED)
  else
    let buf := s.writeBuf.getD ⟨s.greeting, 0⟩
    return ({ s with writeBuf := some buf, nextState := .greetWriteComplete }, .awaits (.write buf.remaining))

def doGreetReadComplete (upstream : Upstream) (s : Socket) (result : Int) : Checked (Socket × Answer) :=
  match upstream.greetReadComplete s result with
  | .inl early => return early
  | .inr (s, method) =>
    if method ≠ kAuthMethodNone ∧ ¬(method = kAuthMethodUsernamePassword ∧ s.hasCredentials) then
      return (s, .code ERR_SOCKS_CONNECTION_FAILED)
    else
      let s := { s with readBuf := none }
      return (s.goto (if method = kAuthMethodUsernamePassword then .authWrite else .handshakeWrite), .code OK)

def buildAuthWriteBuffer (s : Socket) : Checked DrainableIOBuffer := do
  let request ← authFrame s.username s.password
  return ⟨request, 0⟩

def doAuthWrite (s : Socket) : Checked (Socket × Answer) := do
  let s := s.goto .authWriteComplete
  let buf ← match s.writeBuf with
    | some buf => pure buf
    | none => s.buildAuthWriteBuffer
  return ({ s with writeBuf := some buf }, .awaits (.write buf.remaining))

def doAuthWriteComplete (s : Socket) (result : Int) : Checked (Socket × Answer) :=
  if result < 0 then return (s, .code result)
  else
    match s.writeBuf with
    | none => .error .released
    | some buf =>
      let buf := { buf with consumed := buf.consumed + result.toNat }
      if buf.remaining = [] then return ({ s with writeBuf := none, nextState := .authRead }, .code OK)
      else return ({ s with writeBuf := some buf, nextState := .authWrite }, .code OK)

def doAuthRead (s : Socket) : Checked (Socket × Answer) :=
  let s := s.goto .authReadComplete
  let buf := s.readBuf.getD ⟨kAuthReadHeaderSize, 0, []⟩
  return ({ s with readBuf := some buf }, .awaits (.read buf.remainingCapacity))

def doAuthReadComplete (s : Socket) (result : Int) : Checked (Socket × Answer) :=
  if result < 0 then return (s, .code result)
  else if result = 0 then return (s, .code ERR_SOCKS_CONNECTION_FAILED)
  else
    match s.readBuf with
    | none => .error .released
    | some buf =>
      let buf := { buf with offset := buf.offset + result.toNat }
      let s := { s with readBuf := some buf }
      if 0 < buf.remainingCapacity then return (s.goto .authRead, .code OK)
      else do
        let readData : Span UInt8 := buf.spanBeforeOffset
        if (← readData.get 0) ≠ kAuthSubnegotiationVersion then return (s, .code ERR_SOCKS_CONNECTION_FAILED)
        if (← readData.get 1) ≠ 0x00 then return (s, .code ERR_PROXY_AUTH_UNSUPPORTED)
        return ({ s with readBuf := none, nextState := .handshakeWrite }, .code OK)

/-- One turn of the loop in `DoLoop`. -/
def turn (upstream : Upstream) (s : Socket) (rv : Int) : Checked (Socket × Answer) :=
  let state := s.nextState
  let s := s.goto .none
  match state with
  | .greetWrite => s.doGreetWrite
  | .greetWriteComplete => return upstream.greetWriteComplete s rv
  | .greetRead => return upstream.greetRead s
  | .greetReadComplete => s.doGreetReadComplete upstream rv
  | .authWrite => s.doAuthWrite
  | .authWriteComplete => s.doAuthWriteComplete rv
  | .authRead => s.doAuthRead
  | .authReadComplete => s.doAuthReadComplete rv
  | .handshakeWrite => return upstream.handshake .handshakeWrite s rv
  | .handshakeWriteComplete => return upstream.handshake .handshakeWriteComplete s rv
  | .handshakeRead => return upstream.handshake .handshakeRead s rv
  | .handshakeReadComplete => return upstream.handshake .handshakeReadComplete s rv
  | .none => .error .outOfBounds

def methodRead (upstream : Upstream) (s : Socket) (rv : Int) : Option UInt8 :=
  match s.nextState, upstream.greetReadComplete (s.goto .none) rv with
  | .greetReadComplete, .inr (_, method) => some method
  | _, _ => none

def SameEnds (s t : Socket) : Prop := s.host = t.host ∧ s.username = t.username ∧ s.password = t.password

end Socket

def State.handshaking : State → Bool
  | handshakeWrite | handshakeWriteComplete | handshakeRead | handshakeReadComplete | none => true
  | _ => false

/-- What the patched states rely on: the others keep the credentials, let the write buffer go once the greeting is out
    and do not fill it before the handshake, and go where `DoLoop` has them go. -/
structure Upstream.Lawful (upstream : Upstream) : Prop where
  greetWriteComplete : ∀ {s t rv answer}, upstream.greetWriteComplete s rv = (t, answer) → t.SameEnds s ∧
    ∃ code, answer = .code code ∧
      (t.nextState = .greetWrite ∨ t.nextState = .greetRead ∧ t.writeBuf = none ∨ t.nextState = .none ∧ code < 0)
  greetRead : ∀ {s t answer}, upstream.greetRead s = (t, answer) → t.SameEnds s ∧ t.writeBuf = s.writeBuf ∧
    t.nextState = .greetReadComplete ∧ ∃ capacity, answer = .awaits (.read capacity)
  greetReadEarly : ∀ {s t rv answer}, upstream.greetReadComplete s rv = .inl (t, answer) → t.SameEnds s ∧
    t.writeBuf = s.writeBuf ∧ ∃ code, answer = .code code ∧
      (t.nextState = .greetRead ∨ t.nextState = .none ∧ code < 0)
  greetReadMethod : ∀ {s t rv method}, upstream.greetReadComplete s rv = .inr (t, method) → t.SameEnds s ∧
    t.writeBuf = s.writeBuf ∧ t.nextState = s.nextState
  handshake : ∀ {state s t rv answer}, upstream.handshake state s rv = (t, answer) → t.SameEnds s ∧
    t.nextState.handshaking = true ∧ ∀ fault, answer ≠ .aborted fault

/-- A socket with its transport: what has been written, and in which state, and the method the proxy has chosen. -/
structure Connection where
  socket : Socket
  answer : Answer
  sent : List (State × Bytes)
  method : Option UInt8

inductive Label where
  | turn
  | wrote (count : Nat)
  | received (bytes : Bytes)
  | failed (rv : Int)

def Label.fails : Label → Bool
  | .failed _ => true
  | _ => false

namespace Connection

def initial (host username password : Bytes) : Connection where
  socket := { host, username, password, nextState := .greetWrite, writeBuf := none, readBuf := none }
  answer := .code OK
  sent := []
  method := none

def resume (c : Connection) (method : Option UInt8) : Checked (Socket × Answer) → Connection
  | .ok (socket, answer) => { c with socket, answer, method := method <|> c.method }
  | .error fault => { c with answer := .aborted fault }

def step (upstream : Upstream) (c : Connection) : Label → Option Connection
  | .turn =>
    match c.answer with
    | .code rv =>
      if c.socket.nextState = .none then none
      else some (c.resume (c.socket.methodRead upstream rv) (c.socket.turn upstream rv))
    | _ => none
  | .wrote count =>
    match c.answer with
    | .awaits (.write bytes) =>
      if 0 < count ∧ count ≤ bytes.length then
        some { c with answer := .code count, sent := c.sent ++ [(c.socket.nextState, bytes.take count)] }
      else none
    | _ => none
  | .received bytes =>
    match c.answer with
    | .awaits (.read capacity) =>
      if bytes.length ≤ capacity then
        some { c with answer := .code bytes.length, socket.readBuf := c.socket.readBuf.map (·.store bytes) }
      else none
    | _ => none
  | .failed rv =>
    match c.answer with
    | .awaits _ => if rv < 0 ∧ rv ≠ ERR_IO_PENDING then some { c with answer := .code rv } else none
    | _ => none

def machine (upstream : Upstream) : Machine Connection Label := ⟨step upstream⟩

def credentials (c : Connection) : Bytes := c.sent.flatMap fun (state, bytes) => if state = .authWriteComplete then bytes else []

def view (c : Connection) : View where
  wrote := c.credentials
  fault := match c.answer with
    | .aborted fault => some fault
    | _ => none
  ended := match c.answer with
    | .code rv => if c.socket.nextState = .none then some rv else none
    | _ => none
  writing := c.socket.nextState = .authWrite || c.socket.nextState = .authWriteComplete
  asked := c.method = some kAuthMethodUsernamePassword

def Frames (upstream : Upstream) (host username password : Bytes) : Prop :=
  ∀ labels c, (machine upstream).run (initial host username password) labels = some c →
    c.view.Proper username password (labels.any Label.fails)

/-- Where a connection stands with its credentials, `failed` saying whether the transport has failed. -/
inductive Stand (username password : Bytes) (failed : Bool) (c : Connection) : Prop where
  | starts {rv : Int} (state : c.socket.nextState = .greetWrite) (answer : c.answer = .code rv) (unsent : c.credentials = [])
  | greets (fits : username.length < 2 ^ 8 ∧ password.length < 2 ^ 8)
      (state : c.socket.nextState = .greetWriteComplete ∨
        (c.socket.nextState = .greetRead ∨ c.socket.nextState = .greetReadComplete) ∧ c.socket.writeBuf = none)
      (answer : ∀ fault, c.answer ≠ .aborted fault) (unsent : c.credentials = [])
  | writes {frame : Bytes} {rv : Int} (encoded : authFrame username password = .ok frame)
      (state : c.socket.nextState = .authWrite) (answer : c.answer = .code rv)
      (buf : c.socket.writeBuf = none ∧ c.credentials = [] ∨
        ∃ consumed, c.socket.writeBuf = some ⟨frame, consumed⟩ ∧ c.credentials = frame.take consumed)
  | writing {frame : Bytes} {consumed : Nat} (encoded : authFrame username password = .ok frame)
      (state : c.socket.nextState = .authWriteComplete) (buf : c.socket.writeBuf = some ⟨frame, consumed⟩)
      (answer : c.answer = .awaits (.write (frame.drop consumed))) (sent : c.credentials = frame.take consumed)
  | wrote {frame : Bytes} {consumed count : Nat} (encoded : authFrame username password = .ok frame)
      (state : c.socket.nextState = .authWriteComplete) (buf : c.socket.writeBuf = some ⟨frame, consumed⟩)
      (answer : c.answer = .code count) (sent : c.credentials = frame.take (consumed + count))
  | breaks {frame : Bytes} {rv : Int} (encoded : authFrame username password = .ok frame)
      (state : c.socket.nextState = .authWriteComplete) (negative : rv < 0) (answer : c.answer = .code rv)
      (sent : c.credentials <+: frame) (lost : failed = true)
  | reads (encoded : authFrame username password = .ok c.credentials)
      (state : c.socket.nextState = .authRead ∨ c.socket.nextState = .authReadComplete)
      (answer : c.answer ≠ .aborted .narrowing)
  | passes (state : c.socket.nextState.handshaking = true) (answer : ∀ fault, c.answer ≠ .aborted fault)
      (sent : c.credentials = [] ∧ c.method ≠ some kAuthMethodUsernamePassword ∨
        authFrame username password = .ok c.credentials)
  | ends {rv : Int} (state : c.socket.nextState = .none) (negative : rv < 0) (answer : c.answer = .code rv)
      (sent : c.credentials = [] ∨ ∃ frame, authFrame username password = .ok frame ∧ c.credentials <+: frame ∧
        (failed = false → c.credentials = frame))

section

variable {upstream : Upstream} {host username password : Bytes} {failed : Bool} {c d : Connection} {label : Label}

theorem view_fault {fault : Fault} : c.view.fault = some fault ↔ c.answer = .aborted fault := by
  cases answer : c.answer <;> simp [view, answer]

theorem view_ended {rv : Int} : c.view.ended = some rv ↔ c.answer = .code rv ∧ c.socket.nextState = .none := by
  cases answer : c.answer <;> simp [view, answer, and_comm]

theorem view_resting : c.view.writing = false ↔
    c.socket.nextState ≠ .authWrite ∧ c.socket.nextState ≠ .authWriteComplete := by
  simp [view]

theorem Stand.proper (stand : c.Stand username password failed) : c.view.Proper username password failed := by
  have framed {frame : Bytes} (encoded : authFrame username password = .ok frame) (part : c.credentials <+: frame)
      (whole : failed = false → c.view.writing = false → c.credentials = frame) :
      ∃ frame, decodeFrame frame = some (username, password) ∧ c.view.wrote <+: frame ∧
        (failed = false → c.view.writing = false → c.view.wrote = frame) :=
    ⟨frame, decodeFrame_authFrame encoded, part, whole⟩
  cases stand with
  | starts state answer unsent =>
    refine ⟨?_, .inl ⟨unsent, fun rv ended => ?_⟩⟩
    · rw [Ne, view_fault, answer]
      simp
    · cases state.symm.trans (view_ended.mp ended).2
  | greets fits state answer unsent =>
    refine ⟨mt view_fault.mp (answer _), .inl ⟨unsent, fun rv ended => ?_⟩⟩
    rw [(view_ended.mp ended).2] at state
    simp at state
  | writes encoded state answer buf =>
    refine ⟨?_, .inr (framed encoded ?_ fun _ resting => absurd state (view_resting.mp resting).1)⟩
    · rw [Ne, view_fault, answer]
      simp
    · rcases buf with ⟨_, unsent⟩ | ⟨consumed, _, sent⟩
      · rw [unsent]
        exact List.nil_prefix
      · rw [sent]
        exact List.take_prefix _ _
  | writing encoded state buf answer sent =>
    refine ⟨?_, .inr (framed encoded ?_ fun _ resting => absurd state (view_resting.mp resting).2)⟩
    · rw [Ne, view_fault, answer]
      simp
    · rw [sent]
      exact List.take_prefix _ _
  | wrote encoded state buf answer sent =>
    refine ⟨?_, .inr (framed encoded ?_ fun _ resting => absurd state (view_resting.mp resting).2)⟩
    · rw [Ne, view_fault, answer]
      simp
    · rw [sent]
      exact List.take_prefix _ _
  | breaks encoded state negative answer sent lost =>
    refine ⟨?_, .inr (framed encoded sent fun _ resting => absurd state (view_resting.mp resting).2)⟩
    rw [Ne, view_fault, answer]
    simp
  | reads encoded state answer =>
    exact ⟨mt view_fault.mp answer, .inr (framed encoded (List.prefix_refl _) fun _ _ => rfl)⟩
  | passes state answer sent =>
    refine ⟨mt view_fault.mp (answer _), ?_⟩
    rcases sent with ⟨unsent, unasked⟩ | encoded
    · exact .inl ⟨unsent, fun rv _ asked => absurd (of_decide_eq_true asked) unasked⟩
    · exact .inr (framed encoded (List.prefix_refl _) fun _ _ => rfl)
  | ends state negative answer sent =>
    constructor
    · rw [Ne, view_fault, answer]
      simp
    rcases sent with unsent | ⟨frame, encoded, part, whole⟩
    · refine .inl ⟨unsent, fun rv ended _ => ?_⟩
      cases answer.symm.trans (view_ended.mp ended).1
      exact negative
    · exact .inr (framed encoded part fun running _ => whole running)

structure Stands (username password : Bytes) (failed : Bool) (c : Connection) : Prop where
  usernameKept : c.socket.username = username
  passwordKept : c.socket.password = password
  stand : c.Stand username password failed

theorem greetWrite_stands {method : Option UInt8} (stands : c.Stands username password failed)
    (unsent : c.credentials = []) :
    (c.resume method (c.socket.goto .none).doGreetWrite).Stands username password failed := by
  obtain ⟨rfl, rfl, _⟩ := stands
  unfold Socket.doGreetWrite
  by_cases hostLong : 255 < (c.socket.goto .none).host.length
  · rw [if_pos hostLong]
    exact ⟨rfl, rfl, .ends rfl (by decide) rfl (.inl unsent)⟩
  rw [if_neg hostLong]
  by_cases long : kMaxCredentialLength < (c.socket.goto .none).username.length ∨
      kMaxCredentialLength < (c.socket.goto .none).password.length
  · rw [if_pos long]
    exact ⟨rfl, rfl, .ends rfl (by decide) rfl (.inl unsent)⟩
  · rw [if_neg long]
    have fits : c.socket.username.length < 2 ^ 8 ∧ c.socket.password.length < 2 ^ 8 := by
      simp only [kMaxCredentialLength, Socket.goto] at long
      omega
    exact ⟨rfl, rfl, .greets fits (.inl rfl) (by simp [resume, pure, Except.pure]) unsent⟩

theorem greetWriteComplete_stands {method : Option UInt8} {rv : Int} (lawful : upstream.Lawful)
    (stands : c.Stands username password failed) (fits : username.length < 2 ^ 8 ∧ password.length < 2 ^ 8)
    (unsent : c.credentials = []) :
    (c.resume method (.ok (upstream.greetWriteComplete (c.socket.goto .none) rv))).Stands username password failed := by
  obtain ⟨rfl, rfl, _⟩ := stands
  cases ran : upstream.greetWriteComplete (c.socket.goto .none) rv with
  | mk socket answer =>
    obtain ⟨⟨_, username, password⟩, code, rfl, next⟩ := lawful.greetWriteComplete ran
    refine ⟨username, password, ?_⟩
    rcases next with state | ⟨state, released⟩ | ⟨state, negative⟩
    · exact .starts state rfl unsent
    · exact .greets fits (.inr ⟨.inl state, released⟩) (by simp [resume]) unsent
    · exact .ends state negative rfl (.inl unsent)

theorem greetRead_stands {method : Option UInt8} (lawful : upstream.Lawful) (stands : c.Stands username password failed)
    (fits : username.length < 2 ^ 8 ∧ password.length < 2 ^ 8) (released : c.socket.writeBuf = none)
    (unsent : c.credentials = []) :
    (c.resume method (.ok (upstream.greetRead (c.socket.goto .none)))).Stands username password failed := by
  obtain ⟨rfl, rfl, _⟩ := stands
  cases ran : upstream.greetRead (c.socket.goto .none) with
  | mk socket answer =>
    obtain ⟨⟨_, username, password⟩, kept, state, capacity, rfl⟩ := lawful.greetRead ran
    exact ⟨username, password, .greets fits (.inr ⟨.inr state, kept.trans released⟩) (by simp [resume]) unsent⟩

theorem greetReadComplete_stands {rv : Int} (lawful : upstream.Lawful) (stands : c.Stands username password failed)
    (fits : username.length < 2 ^ 8 ∧ password.length < 2 ^ 8) (state : c.socket.nextState = .greetReadComplete)
    (released : c.socket.writeBuf = none) (unsent : c.credentials = []) :
    (c.resume (c.socket.methodRead upstream rv) ((c.socket.goto .none).doGreetReadComplete upstream rv)).Stands
      username password failed := by
  obtain ⟨rfl, rfl, _⟩ := stands
  unfold Socket.doGreetReadComplete Socket.methodRead
  rw [state]
  cases ran : upstream.greetReadComplete (c.socket.goto .none) rv with
  | inl early =>
    obtain ⟨socket, answer⟩ := early
    obtain ⟨⟨_, username, password⟩, kept, code, rfl, next⟩ := lawful.greetReadEarly ran
    refine ⟨username, password, ?_⟩
    rcases next with state | ⟨state, negative⟩
    · exact .greets fits (.inr ⟨.inl state, kept.trans released⟩) (by simp [resume, pure, Except.pure]) unsent
    · exact .ends state negative rfl (.inl unsent)
  | inr found =>
    obtain ⟨socket, method⟩ := found
    obtain ⟨⟨_, username, password⟩, kept, same⟩ := lawful.greetReadMethod ran
    dsimp only
    by_cases refused : method ≠ kAuthMethodNone ∧ ¬(method = kAuthMethodUsernamePassword ∧ socket.hasCredentials = true)
    · rw [if_pos refused]
      exact ⟨username, password, .ends same (by decide) rfl (.inl unsent)⟩
    rw [if_neg refused]
    refine ⟨username, password, ?_⟩
    by_cases chosen : method = kAuthMethodUsernamePassword
    · obtain ⟨frame, encoded⟩ := authFrame_iff.mpr fits
      exact .writes encoded (if_pos chosen) rfl (.inl ⟨kept.trans released, unsent⟩)
    · refine .passes ?_ (by simp [resume, pure, Except.pure]) (.inl ⟨unsent, fun asked => chosen (Option.some.inj asked)⟩)
      show (if method = kAuthMethodUsernamePassword then State.authWrite else .handshakeWrite).handshaking = true
      rw [if_neg chosen]
      rfl

theorem authWrite_stands {frame : Bytes} {method : Option UInt8} (stands : c.Stands username password failed)
    (encoded : authFrame username password = .ok frame)
    (buf : c.socket.writeBuf = none ∧ c.credentials = [] ∨
      ∃ consumed, c.socket.writeBuf = some ⟨frame, consumed⟩ ∧ c.credentials = frame.take consumed) :
    (c.resume method (c.socket.goto .none).doAuthWrite).Stands username password failed := by
  obtain ⟨rfl, rfl, _⟩ := stands
  unfold Socket.doAuthWrite Socket.buildAuthWriteBuffer
  rcases buf with ⟨empty, unsent⟩ | ⟨consumed, filled, sent⟩
  · simp only [Socket.goto, empty, encoded, bind, Except.bind]
    exact ⟨rfl, rfl, .writing encoded rfl rfl rfl (by rw [List.take_zero]; exact unsent)⟩
  · simp only [Socket.goto, filled, bind, Except.bind]
    exact ⟨rfl, rfl, .writing encoded rfl rfl rfl sent⟩

theorem authWrote_stands {frame : Bytes} {consumed count : Nat} {method : Option UInt8}
    (stands : c.Stands username password failed) (encoded : authFrame username password = .ok frame)
    (buf : c.socket.writeBuf = some ⟨frame, consumed⟩) (sent : c.credentials = frame.take (consumed + count)) :
    (c.resume method ((c.socket.goto .none).doAuthWriteComplete count)).Stands username password failed := by
  obtain ⟨rfl, rfl, _⟩ := stands
  unfold Socket.doAuthWriteComplete
  rw [if_neg (by omega)]
  simp only [Socket.goto, buf, DrainableIOBuffer.remaining, Int.toNat_natCast]
  by_cases whole : frame.drop (consumed + count) = []
  · rw [if_pos whole]
    have all : c.credentials = frame := by
      rw [sent]
      exact List.take_of_length_le (List.drop_eq_nil_iff.mp whole)
    exact ⟨rfl, rfl, .reads (encoded.trans (congrArg Except.ok all.symm)) (.inl rfl) (by simp [resume, pure, Except.pure])⟩
  · rw [if_neg whole]
    exact ⟨rfl, rfl, .writes encoded rfl rfl (.inr ⟨_, rfl, sent⟩)⟩

theorem authBreaks_stands {frame : Bytes} {rv : Int} {method : Option UInt8} (stands : c.Stands username password failed)
    (encoded : authFrame username password = .ok frame) (negative : rv < 0) (sent : c.credentials <+: frame)
    (lost : failed = true) :
    (c.resume method ((c.socket.goto .none).doAuthWriteComplete rv)).Stands username password failed := by
  obtain ⟨rfl, rfl, _⟩ := stands
  unfold Socket.doAuthWriteComplete
  rw [if_pos negative]
  refine ⟨rfl, rfl, .ends rfl negative rfl (.inr ⟨frame, encoded, sent, fun running => ?_⟩)⟩
  rw [lost] at running
  cases running

theorem authReadComplete_stands {rv : Int} {method : Option UInt8} (stands : c.Stands username password failed)
    (state : c.socket.nextState = .authReadComplete) (encoded : authFrame username password = .ok c.credentials) :
    (c.resume method ((c.socket.goto .none).doAuthReadComplete rv)).Stands username password failed := by
  obtain ⟨rfl, rfl, _⟩ := stands
  have whole : ∃ frame, authFrame c.socket.username c.socket.password = .ok frame ∧ c.credentials <+: frame ∧
      (failed = false → c.credentials = frame) := ⟨_, encoded, List.prefix_refl _, fun _ => rfl⟩
  have stops {fault : Fault} (narrow : fault ≠ .narrowing) :
      (c.resume method (.error fault)).Stands c.socket.username c.socket.password failed :=
    ⟨rfl, rfl, .reads encoded (.inr state) (by simpa [resume] using narrow)⟩
  unfold Socket.doAuthReadComplete
  by_cases negative : rv < 0
  · rw [if_pos negative]
    exact ⟨rfl, rfl, .ends rfl negative rfl (.inr whole)⟩
  rw [if_neg negative]
  by_cases closed : rv = 0
  · rw [if_pos closed]
    exact ⟨rfl, rfl, .ends rfl (by decide) rfl (.inr whole)⟩
  rw [if_neg closed]
  cases held : (c.socket.goto .none).readBuf with
  | none => exact stops (by decide)
  | some buf =>
    dsimp only
    split
    · exact ⟨rfl, rfl, .reads encoded (.inl rfl) (by simp [resume, pure, Except.pure])⟩
    generalize GrowableIOBuffer.spanBeforeOffset _ = reply
    have outside : Fault.outOfBounds ≠ .narrowing := by decide
    rcases reply with _ | ⟨version, reply⟩
    · exact stops outside
    show (resume c method (if version ≠ kAuthSubnegotiationVersion then _ else _)).Stands _ _ _
    by_cases current : version ≠ kAuthSubnegotiationVersion
    · rw [if_pos current]
      exact ⟨rfl, rfl, .ends rfl (by decide) rfl (.inr whole)⟩
    rw [if_neg current]
    rcases reply with _ | ⟨status, rest⟩
    · exact stops outside
    show (resume c method (if status ≠ 0x00 then _ else _)).Stands _ _ _
    by_cases refused : status ≠ 0x00
    · rw [if_pos refused]
      exact ⟨rfl, rfl, .ends rfl (by decide) rfl (.inr whole)⟩
    · rw [if_neg refused]
      exact ⟨rfl, rfl, .passes rfl (by simp [resume, pure, Except.pure]) (.inr encoded)⟩

theorem handshake_stands {state : State} {rv : Int} (lawful : upstream.Lawful)
    (stands : c.Stands username password failed)
    (sent : c.credentials = [] ∧ c.method ≠ some kAuthMethodUsernamePassword ∨
      authFrame username password = .ok c.credentials) :
    (c.resume none (.ok (upstream.handshake state (c.socket.goto .none) rv))).Stands username password failed := by
  obtain ⟨rfl, rfl, _⟩ := stands
  cases ran : upstream.handshake state (c.socket.goto .none) rv with
  | mk socket answer =>
    obtain ⟨⟨_, username, password⟩, state, unharmed⟩ := lawful.handshake ran
    exact ⟨username, password, .passes state unharmed sent⟩

theorem methodRead_elsewhere {rv : Int} (state : c.socket.nextState ≠ .greetReadComplete) :
    c.socket.methodRead upstream rv = none := by
  unfold Socket.methodRead
  split
  · rename_i here _
    exact absurd here state
  · rfl

theorem turn_stands {rv : Int} (lawful : upstream.Lawful) (stands : c.Stands username password failed)
    (answer : c.answer = .code rv) (running : c.socket.nextState ≠ .none) :
    (c.resume (c.socket.methodRead upstream rv) (c.socket.turn upstream rv)).Stands username password failed := by
  unfold Socket.turn
  cases stands.stand with
  | starts state _ unsent =>
    rw [state]
    exact greetWrite_stands stands unsent
  | greets fits state _ unsent =>
    rcases state with state | ⟨state | state, released⟩
    · rw [state]
      exact greetWriteComplete_stands lawful stands fits unsent
    · rw [state]
      exact greetRead_stands lawful stands fits released unsent
    · rw [state]
      exact greetReadComplete_stands lawful stands fits state released unsent
  | writes encoded state _ buf =>
    rw [state]
    exact authWrite_stands stands encoded buf
  | writing encoded state buf awaits sent => cases awaits.symm.trans answer
  | wrote encoded state buf code sent =>
    rw [state]
    cases code.symm.trans answer
    exact authWrote_stands stands encoded buf sent
  | breaks encoded state negative code sent lost =>
    rw [state]
    cases code.symm.trans answer
    exact authBreaks_stands stands encoded negative sent lost
  | reads encoded state _ =>
    rcases state with state | state
    · rw [state]
      exact ⟨stands.usernameKept, stands.passwordKept, .reads encoded (.inr rfl) (by simp [resume, Socket.doAuthRead, pure, Except.pure])⟩
    · rw [state]
      exact authReadComplete_stands stands state encoded
  | passes state _ sent =>
    rw [methodRead_elsewhere fun here => by rw [here] at state; cases state]
    cases here : c.socket.nextState with
    | handshakeWrite => exact handshake_stands lawful stands sent
    | handshakeWriteComplete => exact handshake_stands lawful stands sent
    | handshakeRead => exact handshake_stands lawful stands sent
    | handshakeReadComplete => exact handshake_stands lawful stands sent
    | none => exact absurd here running
    | _ =>
      rw [here] at state
      cases state
  | ends state negative code sent => exact absurd state running

theorem credentials_sent {bytes : Bytes} {state : State} (sent : d.sent = c.sent ++ [(state, bytes)]) :
    d.credentials = c.credentials ++ if state = .authWriteComplete then bytes else [] := by
  simp [credentials, sent]

theorem wrote_stands {bytes : Bytes} {count : Nat} (stands : c.Stands username password failed)
    (answer : c.answer = .awaits (.write bytes)) :
    ({ c with answer := .code count, sent := c.sent ++ [(c.socket.nextState, bytes.take count)] } : Connection).Stands
      username password failed := by
  have elsewhere (state : c.socket.nextState ≠ .authWriteComplete) :
      ({ c with answer := .code count, sent := c.sent ++ [(c.socket.nextState, bytes.take count)] } : Connection).credentials =
        c.credentials := by
    rw [credentials_sent rfl, if_neg state, List.append_nil]
  refine ⟨stands.usernameKept, stands.passwordKept, ?_⟩
  cases stands.stand with
  | starts state code unsent => cases code.symm.trans answer
  | greets fits state _ unsent =>
    have apart : c.socket.nextState ≠ .authWriteComplete := by
      intro here
      rw [here] at state
      simp at state
    exact .greets fits state (by simp) ((elsewhere apart).trans unsent)
  | writes encoded state code buf => cases code.symm.trans answer
  | writing encoded state buf awaits sent =>
    cases awaits.symm.trans answer
    refine .wrote encoded state buf rfl ?_
    rw [credentials_sent rfl, if_pos state, sent, List.take_add]
  | wrote encoded state buf code sent => cases code.symm.trans answer
  | breaks encoded state negative code sent lost => cases code.symm.trans answer
  | reads encoded state _ =>
    have apart : c.socket.nextState ≠ .authWriteComplete := by
      intro here
      rw [here] at state
      simp at state
    exact .reads (encoded.trans (congrArg Except.ok (elsewhere apart).symm)) state (by simp)
  | passes state _ sent =>
    have apart : c.socket.nextState ≠ .authWriteComplete := by
      intro here
      rw [here] at state
      cases state
    refine .passes state (by simp) ?_
    rw [elsewhere apart]
    exact sent
  | ends state negative code sent => cases code.symm.trans answer

theorem received_stands {bytes : Bytes} {capacity : Nat} (stands : c.Stands username password failed)
    (answer : c.answer = .awaits (.read capacity)) :
    ({ c with answer := .code bytes.length, socket.readBuf := c.socket.readBuf.map (·.store bytes) } : Connection).Stands
      username password failed := by
  refine ⟨stands.usernameKept, stands.passwordKept, ?_⟩
  cases stands.stand with
  | starts state code unsent => cases code.symm.trans answer
  | greets fits state _ unsent => exact .greets fits state (by simp) unsent
  | writes encoded state code buf => cases code.symm.trans answer
  | writing encoded state buf awaits sent => cases awaits.symm.trans answer
  | wrote encoded state buf code sent => cases code.symm.trans answer
  | breaks encoded state negative code sent lost => cases code.symm.trans answer
  | reads encoded state _ => exact .reads encoded state (by simp)
  | passes state _ sent => exact .passes state (by simp) sent
  | ends state negative code sent => cases code.symm.trans answer

theorem failed_stands {request : Request} {rv : Int} (stands : c.Stands username password failed)
    (answer : c.answer = .awaits request) (negative : rv < 0) :
    ({ c with answer := .code rv } : Connection).Stands username password true := by
  refine ⟨stands.usernameKept, stands.passwordKept, ?_⟩
  cases stands.stand with
  | starts state code unsent => cases code.symm.trans answer
  | greets fits state _ unsent => exact .greets fits state (by simp) unsent
  | writes encoded state code buf => cases code.symm.trans answer
  | writing encoded state buf awaits sent =>
    refine .breaks encoded state negative rfl ?_ rfl
    show c.credentials <+: _
    rw [sent]
    exact List.take_prefix _ _
  | wrote encoded state buf code sent => cases code.symm.trans answer
  | breaks encoded state below code sent lost => cases code.symm.trans answer
  | reads encoded state _ => exact .reads encoded state (by simp)
  | passes state _ sent => exact .passes state (by simp) sent
  | ends state below code sent => cases code.symm.trans answer

theorem step_stands (lawful : upstream.Lawful) (stands : c.Stands username password failed)
    (stepped : step upstream c label = some d) : d.Stands username password (failed || label.fails) := by
  cases label with
  | turn =>
    simp only [step] at stepped
    split at stepped
    · rename_i rv answer
      obtain ⟨running, same⟩ := Option.ite_none_left_eq_some.mp stepped
      cases same
      rw [show Label.turn.fails = false from rfl, Bool.or_false]
      exact turn_stands lawful stands answer running
    · cases stepped
  | wrote count =>
    simp only [step] at stepped
    split at stepped
    · rename_i bytes answer
      obtain ⟨_, same⟩ := Option.ite_none_right_eq_some.mp stepped
      cases same
      rw [show (Label.wrote count).fails = false from rfl, Bool.or_false]
      exact wrote_stands stands answer
    · cases stepped
  | received bytes =>
    simp only [step] at stepped
    split at stepped
    · rename_i capacity answer
      obtain ⟨_, same⟩ := Option.ite_none_right_eq_some.mp stepped
      cases same
      rw [show (Label.received bytes).fails = false from rfl, Bool.or_false]
      exact received_stands stands answer
    · cases stepped
  | failed rv =>
    simp only [step] at stepped
    split at stepped
    · rename_i request answer
      obtain ⟨⟨negative, _⟩, same⟩ := Option.ite_none_right_eq_some.mp stepped
      cases same
      rw [show (Label.failed rv).fails = true from rfl, Bool.or_true]
      exact failed_stands stands answer negative
    · cases stepped

/-- The length guard of `DoGreetWrite` comes before every narrowing. -/
theorem frames (lawful : upstream.Lawful) : Frames upstream host username password := by
  intro labels c ran
  suffices c.Stands username password (labels.any Label.fails) from this.stand.proper
  refine Machine.history_invariant (fun labels c => c.Stands username password (labels.any Label.fails)) ?_ ?_ ran
  · exact ⟨rfl, rfl, .starts rfl rfl rfl⟩
  · intro past c label d _ stands stepped
    rw [List.any_append]
    simpa using step_stands lawful stands stepped

end

end Connection

/-- Both clients send their credentials properly, unless the proxy asks the one of the UDP association, which checks
    no length, for some that do not fit. -/
theorem clients_frame_iff {upstream : Upstream} (lawful : upstream.Lawful) {peer : Except Int Bytes}
    {host username password stream : Bytes} :
    Connection.Frames upstream host username password ∧ Association.Frames peer username password stream ↔
      ¬Association.Narrows username password stream := by
  rw [Association.frames_iff]
  exact and_iff_right (Connection.frames lawful)

/-- A username of 256 bytes, which the proxy asks for: the narrowing stops the process. -/
theorem long_username_aborts :
    ¬Association.Frames (.ok [127, 0, 0, 1]) (List.replicate 256 117) [112] [5, 2] := by
  rw [Association.frames_iff, not_not]
  have length : (List.replicate 256 (117 : UInt8)).length = 2 ^ 8 := List.length_replicate
  refine ⟨fun empty => ?_, rfl, .inl (Nat.le_of_eq length.symm)⟩
  rw [empty] at length
  cases length

/-- The other states as they are up to the handshake, which is not got to with credentials that are too long. -/
def Upstream.greetingOnly : Upstream where
  greetWriteComplete s rv :=
    if rv < 0 then (s.goto .none, .code rv)
    else
      match s.writeBuf with
      | some buf =>
        let buf := { buf with consumed := buf.consumed + rv.toNat }
        if buf.remaining = [] then ({ s with writeBuf := none, nextState := .greetRead }, .code OK)
        else ({ s with writeBuf := some buf, nextState := .greetWrite }, .code OK)
      | none => (s.goto .none, .code ERR_SOCKS_CONNECTION_FAILED)
  greetRead s :=
    let buf := s.readBuf.getD ⟨kGreetReplySize, 0, []⟩
    ({ s with readBuf := some buf, nextState := .greetReadComplete }, .awaits (.read buf.remainingCapacity))
  greetReadComplete s rv :=
    if rv < 0 then .inl (s.goto .none, .code rv)
    else if rv = 0 then .inl (s.goto .none, .code ERR_SOCKS_CONNECTION_FAILED)
    else
      match s.readBuf.map GrowableIOBuffer.data with
      | some [version, method] =>
        if version = kSOCKS5Version then .inr (s, method) else .inl (s.goto .none, .code ERR_SOCKS_CONNECTION_FAILED)
      | some [version] => .inl ({ s with readBuf := some ⟨kGreetReplySize, 1, [version]⟩, nextState := .greetRead }, .code OK)
      | _ => .inl (s.goto .none, .code ERR_SOCKS_CONNECTION_FAILED)
  handshake _ s _ := (s.goto .none, .code ERR_SOCKS_CONNECTION_FAILED)

theorem Upstream.greetingOnly_lawful : Upstream.greetingOnly.Lawful where
  greetWriteComplete {s t rv answer} ran := by
    simp only [greetingOnly] at ran
    split at ran
    · rename_i negative
      cases ran
      exact ⟨⟨rfl, rfl, rfl⟩, rv, rfl, .inr (.inr ⟨rfl, negative⟩)⟩
    split at ran
    · split at ran
      · cases ran
        exact ⟨⟨rfl, rfl, rfl⟩, OK, rfl, .inr (.inl ⟨rfl, rfl⟩)⟩
      · cases ran
        exact ⟨⟨rfl, rfl, rfl⟩, OK, rfl, .inl rfl⟩
    · cases ran
      exact ⟨⟨rfl, rfl, rfl⟩, _, rfl, .inr (.inr ⟨rfl, by decide⟩)⟩
  greetRead {s t answer} ran := by
    cases ran
    exact ⟨⟨rfl, rfl, rfl⟩, rfl, rfl, _, rfl⟩
  greetReadEarly {s t rv answer} ran := by
    simp only [greetingOnly] at ran
    split at ran
    · rename_i negative
      cases ran
      exact ⟨⟨rfl, rfl, rfl⟩, rfl, rv, rfl, .inr ⟨rfl, negative⟩⟩
    split at ran
    · cases ran
      exact ⟨⟨rfl, rfl, rfl⟩, rfl, _, rfl, .inr ⟨rfl, by decide⟩⟩
    split at ran
    · split at ran
      · cases ran
      · cases ran
        exact ⟨⟨rfl, rfl, rfl⟩, rfl, _, rfl, .inr ⟨rfl, by decide⟩⟩
    · cases ran
      exact ⟨⟨rfl, rfl, rfl⟩, rfl, _, rfl, .inl rfl⟩
    · cases ran
      exact ⟨⟨rfl, rfl, rfl⟩, rfl, _, rfl, .inr ⟨rfl, by decide⟩⟩
  greetReadMethod {s t rv method} ran := by
    simp only [greetingOnly] at ran
    split at ran
    · cases ran
    split at ran
    · cases ran
    split at ran
    · split at ran
      · cases ran
        exact ⟨⟨rfl, rfl, rfl⟩, rfl, rfl⟩
      · cases ran
    · cases ran
    · cases ran
  handshake {state s t rv answer} ran := by
    cases ran
    exact ⟨⟨rfl, rfl, rfl⟩, rfl, by simp⟩

theorem clients_frame_long :
    Connection.Frames .greetingOnly [104] (List.replicate 256 117) [112] ∧
      Association.Frames (.ok [127, 0, 0, 1]) (List.replicate 256 117) [112] [5, 0] :=
  (clients_frame_iff Upstream.greetingOnly_lawful).mpr fun narrows => absurd narrows.2.1 (by decide)

end Cronet.Socks.Tcp
