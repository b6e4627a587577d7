import Cronet.Socks.Tcp

namespace Cronet.Socks.Tcp

open Cronet.Native (Bytes)

/-- What the states the patches do not show do, as their siblings of the authentication do it: what was written is
    consumed, and the buffer let go once it is drained; a reply is read up to its two bytes; its version comes first. -/
structure Upstream.Alike (upstream : Upstream) : Prop where
  writeFails : ∀ {s rv}, rv < 0 → upstream.greetWriteComplete s rv = (s, .code rv)
  writes : ∀ {s count data consumed}, s.writeBuf = some ⟨data, consumed⟩ → upstream.greetWriteComplete s (count : Nat) =
    if data.drop (consumed + count) = [] then ({ s with writeBuf := none, nextState := .greetRead }, .code OK)
    else ({ s with writeBuf := some ⟨data, consumed + count⟩, nextState := .greetWrite }, .code OK)
  reads : ∀ {s}, upstream.greetRead s =
    ({ s with readBuf := some (s.readBuf.getD ⟨kGreetReplySize, 0, []⟩), nextState := .greetReadComplete },
      .awaits (.read (s.readBuf.getD ⟨kGreetReplySize, 0, []⟩).remainingCapacity))
  readFails : ∀ {s rv}, rv < 0 → upstream.greetReadComplete s rv = .inl (s, .code rv)
  readCloses : ∀ {s}, upstream.greetReadComplete s 0 = .inl (s, .code ERR_SOCKS_CONNECTION_FAILED)
  readShort : ∀ {s count capacity offset data}, s.readBuf = some ⟨capacity, offset, data⟩ → 0 < count →
    offset + count < capacity → upstream.greetReadComplete s (count : Nat) =
      .inl ({ s with readBuf := some ⟨capacity, offset + count, data⟩, nextState := .greetRead }, .code OK)
  readWhole : ∀ {s count capacity offset data version method}, s.readBuf = some ⟨capacity, offset, data⟩ → 0 < count →
    capacity ≤ offset + count → data.take (offset + count) = [version, method] →
      upstream.greetReadComplete s (count : Nat) =
        if version ≠ kSOCKS5Version then
          .inl ({ s with readBuf := some ⟨capacity, offset + count, data⟩ }, .code ERR_SOCKS_CONNECTION_FAILED)
        else .inr ({ s with readBuf := some ⟨capacity, offset + count, data⟩ }, method)

/-- The messages that go over the connection, each written or read in states of its own. -/
inductive Message where
  | greeting
  | greetReply
  | authRequest
  | authReply
  | handshake
  deriving DecidableEq

def State.message : State → Option Message
  | greetWrite | greetWriteComplete => some .greeting
  | greetRead | greetReadComplete => some .greetReply
  | authWrite | authWriteComplete => some .authRequest
  | authRead | authReadComplete => some .authReply
  | none => Option.none
  | _ => some .handshake

def Enters (s t : Socket) : Prop :=
  t.nextState.message = s.nextState.message ∨ t.nextState = .none ∨ t.writeBuf = none ∧ t.readBuf = none

def Chooses (username heard : Bytes) : Prop :=
  heard = [kSOCKS5Version, kAuthMethodNone] ∨
    username ≠ [] ∧ heard = [kSOCKS5Version, kAuthMethodUsernamePassword, kAuthSubnegotiationVersion, 0x00]

def Label.bytes : Label → Bytes
  | .received bytes => bytes
  | _ => []

namespace Connection

def greeted (c : Connection) : Bytes := c.sent.flatMap fun (state, bytes) => if state = .greetWriteComplete then bytes else []

/-- The method is settled, and the handshake about to be written, or `DoLoop` is over. -/
def settled (c : Connection) : Bool :=
  match c.answer with
  | .aborted _ => true
  | .code _ => c.socket.nextState = .none || c.socket.nextState = .handshakeWrite
  | .awaits _ => false

/-- What is asked of a connection that has read the bytes `heard` so far. -/
structure Disciplined (upstream : Upstream) (username heard : Bytes) (c : Connection) : Prop where
  asked : c.credentials ≠ [] → c.greeted = [kSOCKS5Version, 0x02, kAuthMethodNone, kAuthMethodUsernamePassword] ∧
    [kSOCKS5Version, kAuthMethodUsernamePassword] <+: heard
  proceeds : c.settled = false → ∃ label d, label.fails = false ∧ step upstream c label = some d
  enters : c.settled = false → ∀ label d, step upstream c label = some d → Enters c.socket d.socket
  reaches : c.settled = true → (c.socket.nextState = .handshakeWrite ↔ Chooses username heard)
  refuses : c.settled = true → c.socket.nextState ≠ .handshakeWrite →
    c.socket.nextState = .none ∧ ∃ rv < 0, c.answer = .code rv

/-- Every run up to where it is settled keeps the discipline, and every run is settled in boundedly many steps. -/
def Negotiates (upstream : Upstream) (host username password : Bytes) : Prop :=
  ∃ bound, ∀ labels c, (machine upstream).run (initial host username password) labels = some c →
    (machine upstream).Meets (fun c _ => c.settled = false) (initial host username password) labels →
    labels.length ≤ bound ∧ c.Disciplined upstream username (labels.flatMap Label.bytes)

end Connection

inductive Exchange where
  | greet
  | auth
  deriving DecidableEq

namespace Exchange

def write : Exchange → State
  | greet => .greetWrite
  | auth => .authWrite

def writeComplete : Exchange → State
  | greet => .greetWriteComplete
  | auth => .authWriteComplete

def read : Exchange → State
  | greet => .greetRead
  | auth => .authRead

def readComplete : Exchange → State
  | greet => .greetReadComplete
  | auth => .authReadComplete

def request (s : Socket) : Exchange → Checked Bytes
  | greet => .ok s.greeting
  | auth => authFrame s.username s.password

def before : Exchange → Bytes
  | greet => []
  | auth => [kSOCKS5Version, kAuthMethodUsernamePassword]

def later (s : Socket) : Exchange → Nat
  | greet => 15 + 3 * (s.username.length + s.password.length)
  | auth => 0

def reads (s : Socket) (φ : Exchange) (held : Nat) : Nat := φ.later s + 3 * (2 - held)

def writes (s : Socket) (φ : Exchange) (left : Nat) : Nat := φ.reads s 0 + 3 * left

end Exchange

/-- The guards of `DoGreetWrite`. -/
def Socket.Fits (s : Socket) : Prop :=
  s.host.length ≤ 255 ∧ s.username.length ≤ kMaxCredentialLength ∧ s.password.length ≤ kMaxCredentialLength

def Socket.placed (s : Socket) (state : State) (writeBuf : Option DrainableIOBuffer) (readBuf : Option GrowableIOBuffer) :
    Socket := { s with nextState := state, writeBuf, readBuf }

section Turns

variable {upstream : Upstream} {s : Socket} {φ : Exchange} {writeBuf : Option DrainableIOBuffer} {data held chunk : Bytes}
  {consumed count : Nat} {rv : Int}

theorem write_turn (fits : s.Fits) (request : φ.request s = .ok data)
    (buf : writeBuf = none ∧ consumed = 0 ∨ writeBuf = some ⟨data, consumed⟩) :
    (s.placed φ.write writeBuf none).turn upstream rv =
      .ok (s.placed φ.writeComplete (some ⟨data, consumed⟩) none, .awaits (.write (data.drop consumed))) := by
  obtain ⟨host, username, password⟩ := fits
  cases φ with
  | greet =>
    cases request
    show (s.placed .none writeBuf none).doGreetWrite = _
    unfold Socket.doGreetWrite
    refine (if_neg (Nat.not_lt.mpr host)).trans
      ((if_neg (not_or.mpr ⟨Nat.not_lt.mpr username, Nat.not_lt.mpr password⟩)).trans ?_)
    rcases buf with ⟨rfl, rfl⟩ | rfl <;> rfl
  | auth =>
    have encoded : authFrame s.username s.password = .ok data := request
    show (s.placed .none writeBuf none).doAuthWrite = _
    unfold Socket.doAuthWrite Socket.buildAuthWriteBuffer
    rcases buf with ⟨rfl, rfl⟩ | rfl
    · simp only [Socket.goto, Socket.placed, encoded]
      rfl
    · rfl

theorem write_turn_refused (long : ¬s.Fits) :
    (s.placed .greetWrite writeBuf none).turn upstream rv =
      .ok (s.placed .none writeBuf none, .code ERR_SOCKS_CONNECTION_FAILED) := by
  show (s.placed .none writeBuf none).doGreetWrite = _
  unfold Socket.doGreetWrite
  by_cases host : 255 < s.host.length
  · exact if_pos host
  · refine (if_neg host).trans (if_pos ?_)
    show kMaxCredentialLength < s.username.length ∨ kMaxCredentialLength < s.password.length
    unfold Socket.Fits at long
    omega

theorem wrote_turn (alike : upstream.Alike) :
    (s.placed φ.writeComplete (some ⟨data, consumed⟩) none).turn upstream count =
      if data.drop (consumed + count) = [] then .ok (s.placed φ.read none none, .code OK)
      else .ok (s.placed φ.write (some ⟨data, consumed + count⟩) none, .code OK) := by
  cases φ with
  | greet =>
    show Except.ok (upstream.greetWriteComplete (s.placed .none _ none) count) = _
    rw [alike.writes rfl]
    split <;> rfl
  | auth =>
    show (s.placed .none (some ⟨data, consumed⟩) none).doAuthWriteComplete count = _
    unfold Socket.doAuthWriteComplete
    rw [if_neg (by omega)]
    simp only [Socket.placed, DrainableIOBuffer.remaining, Int.toNat_natCast]
    rfl

theorem read_turn (alike : upstream.Alike) {readBuf : Option GrowableIOBuffer} :
    (s.placed φ.read none readBuf).turn upstream rv =
      .ok (s.placed φ.readComplete none (some (readBuf.getD ⟨2, 0, []⟩)),
        .awaits (.read (readBuf.getD ⟨2, 0, []⟩).remainingCapacity)) := by
  cases φ with
  | greet => exact congrArg Except.ok alike.reads
  | auth => rfl

theorem failed_turn (alike : upstream.Alike) {t : Socket} (negative : rv < 0)
    (complete : t.nextState = φ.writeComplete ∨ t.nextState = φ.readComplete) :
    t.turn upstream rv = .ok (t.goto .none, .code rv) := by
  unfold Socket.turn
  rcases complete with state | state
  · rw [state]
    cases φ with
    | greet => exact congrArg Except.ok (alike.writeFails negative)
    | auth => exact if_pos negative
  · rw [state]
    cases φ with
    | greet =>
      show Socket.doGreetReadComplete upstream (t.goto .none) rv = _
      unfold Socket.doGreetReadComplete
      rw [alike.readFails negative]
      rfl
    | auth => exact if_pos negative

theorem closed_turn (alike : upstream.Alike) {readBuf : Option GrowableIOBuffer} :
    (s.placed φ.readComplete none readBuf).turn upstream 0 =
      .ok (s.placed .none none readBuf, .code ERR_SOCKS_CONNECTION_FAILED) := by
  cases φ with
  | greet =>
    show Socket.doGreetReadComplete upstream (s.placed .none none readBuf) 0 = _
    unfold Socket.doGreetReadComplete
    rw [alike.readCloses]
    rfl
  | auth => rfl

theorem short_turn (alike : upstream.Alike) (arrived : 0 < chunk.length) (short : (held ++ chunk).length < 2) :
    (s.placed φ.readComplete none (some ⟨2, held.length, held ++ chunk⟩)).turn upstream chunk.length =
      .ok (s.placed φ.read none (some ⟨2, (held ++ chunk).length, held ++ chunk⟩), .code OK) := by
  rw [List.length_append] at short ⊢
  cases φ with
  | greet =>
    show Socket.doGreetReadComplete upstream (s.placed .none none _) _ = _
    unfold Socket.doGreetReadComplete
    rw [alike.readShort rfl arrived short]
    rfl
  | auth =>
    show (s.placed .none none (some ⟨2, held.length, held ++ chunk⟩)).doAuthReadComplete _ = _
    unfold Socket.doAuthReadComplete
    rw [if_neg (by omega), if_neg (by omega)]
    refine if_pos ?_
    show 0 < 2 - (held.length + (chunk.length : Int).toNat)
    omega

theorem greeted_turn (alike : upstream.Alike) {version method : UInt8} (arrived : 0 < chunk.length)
    (whole : held ++ chunk = [version, method]) :
    (s.placed .greetReadComplete none (some ⟨2, held.length, held ++ chunk⟩)).turn upstream chunk.length =
      if version ≠ kSOCKS5Version then
        .ok (s.placed .none none (some ⟨2, 2, [version, method]⟩), .code ERR_SOCKS_CONNECTION_FAILED)
      else if method ≠ kAuthMethodNone ∧ ¬(method = kAuthMethodUsernamePassword ∧ s.hasCredentials) then
        .ok (s.placed .none none (some ⟨2, 2, [version, method]⟩), .code ERR_SOCKS_CONNECTION_FAILED)
      else if method = kAuthMethodUsernamePassword then .ok (s.placed .authWrite none none, .code OK)
      else .ok (s.placed .handshakeWrite none none, .code OK) := by
  have length : held.length + chunk.length = 2 := by
    rw [← List.length_append, whole]
    rfl
  have read : (held ++ chunk).take (held.length + chunk.length) = [version, method] := by
    rw [length, whole]
    rfl
  show Socket.doGreetReadComplete upstream (s.placed .none none _) _ = _
  unfold Socket.doGreetReadComplete
  rw [alike.readWhole rfl arrived (by omega) read, length, whole]
  by_cases other : version ≠ kSOCKS5Version
  · rw [if_pos other, if_pos other]
    rfl
  rw [if_neg other, if_neg other]
  by_cases refused : method ≠ kAuthMethodNone ∧ ¬(method = kAuthMethodUsernamePassword ∧ s.hasCredentials)
  · exact (if_pos refused).trans (if_pos refused).symm
  refine (if_neg refused).trans (Eq.trans ?_ (if_neg refused).symm)
  by_cases chosen : method = kAuthMethodUsernamePassword
  · simp only [chosen, if_true]
    rfl
  · simp only [chosen, if_false]
    rfl

theorem authed_turn {version status : UInt8} (arrived : 0 < chunk.length) (whole : held ++ chunk = [version, status]) :
    (s.placed .authReadComplete none (some ⟨2, held.length, held ++ chunk⟩)).turn upstream chunk.length =
      if version ≠ kAuthSubnegotiationVersion then
        .ok (s.placed .none none (some ⟨2, 2, [version, status]⟩), .code ERR_SOCKS_CONNECTION_FAILED)
      else if status ≠ 0x00 then
        .ok (s.placed .none none (some ⟨2, 2, [version, status]⟩), .code ERR_PROXY_AUTH_UNSUPPORTED)
      else .ok (s.placed .handshakeWrite none none, .code OK) := by
  have length : held.length + chunk.length = 2 := by
    rw [← List.length_append, whole]
    rfl
  show (s.placed .none none (some ⟨2, held.length, held ++ chunk⟩)).doAuthReadComplete _ = _
  unfold Socket.doAuthReadComplete
  rw [if_neg (by omega), if_neg (by omega)]
  simp only [Socket.placed, Int.toNat_natCast, length, whole]
  rfl

end Turns

namespace Connection

inductive Position (s : Socket) (c : Connection) : Exchange → (wrote held : Bytes) → Nat → Prop where
  | write {φ : Exchange} {writeBuf : Option DrainableIOBuffer} {data : Bytes} {consumed n : Nat} {rv : Int}
      (past : φ = .auth → s.Fits) (request : φ.request s = .ok data) (left : consumed < data.length)
      (buf : writeBuf = none ∧ consumed = 0 ∨ writeBuf = some ⟨data, consumed⟩)
      (socket : c.socket = s.placed φ.write writeBuf none) (answer : c.answer = .code rv)
      (rank : φ.writes s (data.length - consumed) ≤ n) : Position s c φ (data.take consumed) [] n
  | writing {φ : Exchange} {data : Bytes} {consumed n : Nat} (fits : s.Fits) (request : φ.request s = .ok data)
      (left : consumed < data.length) (socket : c.socket = s.placed φ.writeComplete (some ⟨data, consumed⟩) none)
      (answer : c.answer = .awaits (.write (data.drop consumed)))
      (rank : φ.writes s (data.length - consumed) ≤ n + 1) : Position s c φ (data.take consumed) [] n
  | wrote {φ : Exchange} {data : Bytes} {consumed count n : Nat} (fits : s.Fits) (request : φ.request s = .ok data)
      (positive : 0 < count) (within : consumed + count ≤ data.length)
      (socket : c.socket = s.placed φ.writeComplete (some ⟨data, consumed⟩) none) (answer : c.answer = .code count)
      (rank : φ.writes s (data.length - consumed) ≤ n + 2) : Position s c φ (data.take (consumed + count)) [] n
  | read {φ : Exchange} {readBuf : Option GrowableIOBuffer} {wrote held : Bytes} {n : Nat} {rv : Int} (fits : s.Fits)
      (request : φ.request s = .ok wrote) (short : held.length < 2)
      (buf : readBuf.getD ⟨2, 0, []⟩ = ⟨2, held.length, held⟩) (socket : c.socket = s.placed φ.read none readBuf)
      (answer : c.answer = .code rv) (rank : φ.reads s held.length ≤ n) : Position s c φ wrote held n
  | reading {φ : Exchange} {wrote held : Bytes} {n : Nat} (fits : s.Fits) (request : φ.request s = .ok wrote)
      (short : held.length < 2) (socket : c.socket = s.placed φ.readComplete none (some ⟨2, held.length, held⟩))
      (answer : c.answer = .awaits (.read (2 - held.length))) (rank : φ.reads s held.length ≤ n + 1) :
      Position s c φ wrote held n
  | received {φ : Exchange} {wrote held chunk : Bytes} {n : Nat} (fits : s.Fits) (request : φ.request s = .ok wrote)
      (short : held.length < 2) (within : held.length + chunk.length ≤ 2)
      (socket : c.socket = s.placed φ.readComplete none (some ⟨2, held.length, held ++ chunk⟩))
      (answer : c.answer = .code chunk.length) (rank : φ.reads s held.length ≤ n + 2) :
      Position s c φ wrote (held ++ chunk) n
  | breaks {φ : Exchange} {wrote held : Bytes} {rv : Int} {n : Nat} (short : held.length < 2)
      (state : c.socket.nextState = φ.writeComplete ∨ c.socket.nextState = φ.readComplete) (negative : rv < 0)
      (answer : c.answer = .code rv) : Position s c φ wrote held (n + 1)
  | passes {φ : Exchange} {wrote held : Bytes} {n : Nat} (state : c.socket.nextState = .handshakeWrite)
      (answer : c.answer = .code OK) (chosen : Chooses s.username (φ.before ++ held)) : Position s c φ wrote held n
  | ends {φ : Exchange} {wrote held : Bytes} {rv : Int} {n : Nat} (state : c.socket.nextState = .none)
      (negative : rv < 0) (answer : c.answer = .code rv) (refused : ¬Chooses s.username (φ.before ++ held)) :
      Position s c φ wrote held n

def Ledger (s : Socket) (c : Connection) : Exchange → (wrote : Bytes) → Prop
  | .greet, wrote => c.greeted = wrote ∧ c.credentials = []
  | .auth, wrote => c.greeted = s.greeting ∧ s.hasCredentials = true ∧ c.credentials = wrote

structure Heading (s : Socket) (heard : Bytes) (c : Connection) (n : Nat) (φ : Exchange) (wrote held : Bytes) : Prop where
  position : Position s c φ wrote held n
  ledger : c.Ledger s φ wrote
  whole : φ.before ++ held = heard

def Heads (s : Socket) (heard : Bytes) (c : Connection) (n : Nat) : Prop := ∃ φ wrote held, Heading s heard c n φ wrote held

/-- What a step leads to: fewer steps are left, and no message runs into the next. -/
def Leads (s : Socket) (heard : Bytes) (n : Nat) (c d : Connection) : Prop :=
  ∃ m < n, Heads s heard d m ∧ Enters c.socket d.socket

section

variable {upstream : Upstream} {s : Socket} {c d : Connection} {label : Label} {φ : Exchange}
  {heard wrote held data : Bytes} {n : Nat} {rv : Int}

theorem step_code (answer : c.answer = .code rv) (stepped : step upstream c label = some d) :
    label.bytes = [] ∧ c.socket.nextState ≠ .none ∧
      d = c.resume (c.socket.methodRead upstream rv) (c.socket.turn upstream rv) := by
  cases label with
  | turn =>
    simp only [step, answer, Option.ite_none_left_eq_some, Option.some.injEq] at stepped
    exact ⟨rfl, stepped.1, stepped.2.symm⟩
  | _ => simp [step, answer] at stepped

theorem step_write {bytes : Bytes} (answer : c.answer = .awaits (.write bytes)) (stepped : step upstream c label = some d) :
    label.bytes = [] ∧
      ((∃ count, 0 < count ∧ count ≤ bytes.length ∧
        d = { c with answer := .code count, sent := c.sent ++ [(c.socket.nextState, bytes.take count)] }) ∨
      (∃ rv < 0, d = { c with answer := .code rv })) := by
  cases label with
  | wrote count =>
    simp only [step, answer, Option.ite_none_right_eq_some, Option.some.injEq] at stepped
    obtain ⟨⟨positive, within⟩, rfl⟩ := stepped
    exact ⟨rfl, .inl ⟨count, positive, within, rfl⟩⟩
  | failed rv =>
    simp only [step, answer, Option.ite_none_right_eq_some, Option.some.injEq] at stepped
    obtain ⟨⟨negative, _⟩, rfl⟩ := stepped
    exact ⟨rfl, .inr ⟨rv, negative, rfl⟩⟩
  | _ => simp [step, answer] at stepped

theorem step_read {capacity : Nat} (answer : c.answer = .awaits (.read capacity)) (stepped : step upstream c label = some d) :
    (label.bytes.length ≤ capacity ∧ d = { c with
      answer := .code label.bytes.length
      socket.readBuf := c.socket.readBuf.map (·.store label.bytes) }) ∨
    (label.bytes = [] ∧ ∃ rv < 0, d = { c with answer := .code rv }) := by
  cases label with
  | received bytes =>
    simp only [step, answer, Option.ite_none_right_eq_some, Option.some.injEq] at stepped
    exact .inl ⟨stepped.1, stepped.2.symm⟩
  | failed rv =>
    simp only [step, answer, Option.ite_none_right_eq_some, Option.some.injEq] at stepped
    obtain ⟨⟨negative, _⟩, rfl⟩ := stepped
    exact .inr ⟨rfl, rv, negative, rfl⟩
  | _ => simp [step, answer] at stepped

theorem Ledger.keep (ledger : c.Ledger s φ wrote) (sent : d.sent = c.sent) : d.Ledger s φ wrote := by
  have greeted : d.greeted = c.greeted := by
    unfold Connection.greeted
    rw [sent]
  have credentials : d.credentials = c.credentials := by
    unfold Connection.credentials
    rw [sent]
  cases φ <;> simpa only [Ledger, greeted, credentials] using ledger

theorem Ledger.sends {bytes : Bytes} (ledger : c.Ledger s φ wrote) (sent : d.sent = c.sent ++ [(φ.writeComplete, bytes)]) :
    d.Ledger s φ (wrote ++ bytes) := by
  have greeted : d.greeted = c.greeted ++ if φ.writeComplete = .greetWriteComplete then bytes else [] := by
    simp [Connection.greeted, sent]
  have credentials := credentials_sent sent
  cases φ <;> simpa [Ledger, greeted, credentials, Exchange.writeComplete] using ledger

theorem short_refused (short : held.length < 2) : ¬Chooses s.username (φ.before ++ held) := by
  rintro (none | ⟨_, asked⟩)
  · cases φ with
    | greet =>
      have length : held.length = 2 := congrArg List.length none
      omega
    | auth => cases none
  · cases φ with
    | greet =>
      have length : held.length = 4 := congrArg List.length asked
      omega
    | auth =>
      have length : held.length + 2 = 4 := congrArg List.length asked
      omega

theorem Heading.write_leads {writeBuf : Option DrainableIOBuffer} {consumed : Nat} (past : φ = .auth → s.Fits)
    (request : φ.request s = .ok data) (left : consumed < data.length)
    (buf : writeBuf = none ∧ consumed = 0 ∨ writeBuf = some ⟨data, consumed⟩)
    (socket : c.socket = s.placed φ.write writeBuf none) (answer : c.answer = .code rv)
    (rank : φ.writes s (data.length - consumed) ≤ n) (heading : Heading s heard c n φ (data.take consumed) [])
    (stepped : step upstream c label = some d) : Leads s (heard ++ label.bytes) n c d := by
  obtain ⟨silent, _, rfl⟩ := step_code answer stepped
  rw [silent, List.append_nil]
  have steps : 3 ≤ φ.writes s (data.length - consumed) := by
    simp only [Exchange.writes]
    omega
  by_cases fits : s.Fits
  · rw [socket, write_turn fits request buf]
    refine ⟨n - 1, by omega, ⟨φ, _, [], .writing fits request left rfl rfl (by omega), heading.ledger.keep rfl, heading.whole⟩, ?_⟩
    rw [socket]
    cases φ <;> exact .inl rfl
  · cases φ with
    | auth => exact absurd (past rfl) fits
    | greet =>
      rw [socket, show Exchange.greet.write = .greetWrite from rfl, write_turn_refused fits]
      exact ⟨n - 1, by omega, ⟨.greet, _, [], .ends rfl (by decide) rfl (short_refused (by decide)),
        heading.ledger.keep rfl, heading.whole⟩, .inr (.inl rfl)⟩

theorem Heading.writing_leads {consumed : Nat} (fits : s.Fits) (request : φ.request s = .ok data) (left : consumed < data.length)
    (socket : c.socket = s.placed φ.writeComplete (some ⟨data, consumed⟩) none)
    (answer : c.answer = .awaits (.write (data.drop consumed))) (rank : φ.writes s (data.length - consumed) ≤ n + 1)
    (heading : Heading s heard c n φ (data.take consumed) []) (stepped : step upstream c label = some d) :
    Leads s (heard ++ label.bytes) n c d := by
  have state : c.socket.nextState = φ.writeComplete := by rw [socket]; rfl
  have steps : 3 ≤ φ.writes s (data.length - consumed) := by
    simp only [Exchange.writes]
    omega
  obtain ⟨silent, ⟨count, positive, within, rfl⟩ | ⟨rv, negative, rfl⟩⟩ := step_write answer stepped
  · rw [silent, List.append_nil]
    rw [List.length_drop] at within
    have ledger : Ledger s { c with
        answer := .code count
        sent := c.sent ++ [(c.socket.nextState, (data.drop consumed).take count)] } φ (data.take (consumed + count)) := by
      rw [List.take_add, state]
      exact heading.ledger.sends rfl
    exact ⟨n - 1, by omega, ⟨φ, _, [], .wrote fits request positive (by omega) socket rfl (by omega), ledger, heading.whole⟩, .inl rfl⟩
  · rw [silent, List.append_nil]
    obtain ⟨m, rfl⟩ : ∃ m, n = m + 2 := ⟨n - 2, by omega⟩
    exact ⟨m + 1, by omega, ⟨φ, _, [], .breaks (by decide) (.inl state) negative rfl, heading.ledger.keep rfl, heading.whole⟩, .inl rfl⟩

theorem Heading.wrote_leads {consumed count : Nat} (alike : upstream.Alike) (fits : s.Fits) (request : φ.request s = .ok data)
    (positive : 0 < count) (within : consumed + count ≤ data.length)
    (socket : c.socket = s.placed φ.writeComplete (some ⟨data, consumed⟩) none) (answer : c.answer = .code count)
    (rank : φ.writes s (data.length - consumed) ≤ n + 2) (heading : Heading s heard c n φ (data.take (consumed + count)) [])
    (stepped : step upstream c label = some d) : Leads s (heard ++ label.bytes) n c d := by
  obtain ⟨silent, _, rfl⟩ := step_code answer stepped
  rw [silent, List.append_nil, socket, wrote_turn alike]
  simp only [Exchange.writes] at rank
  by_cases drained : data.drop (consumed + count) = []
  · rw [if_pos drained]
    have ledger := heading.ledger
    rw [List.take_of_length_le (List.drop_eq_nil_iff.mp drained)] at ledger
    exact ⟨n - 1, by omega, ⟨φ, data, [], .read fits request (by decide) rfl rfl rfl (by simp; omega), ledger.keep rfl,
      heading.whole⟩, .inr (.inr ⟨rfl, rfl⟩)⟩
  · rw [if_neg drained]
    have left : consumed + count < data.length := Nat.not_le.mp (mt List.drop_eq_nil_iff.mpr drained)
    refine ⟨n - 1, by omega, ⟨φ, _, [], .write (fun _ => fits) request left (.inr rfl) rfl rfl ?_, heading.ledger.keep rfl,
      heading.whole⟩, ?_⟩
    · simp only [Exchange.writes]
      omega
    · rw [socket]
      cases φ <;> exact .inl rfl

theorem Heading.read_leads {readBuf : Option GrowableIOBuffer} (alike : upstream.Alike) (fits : s.Fits)
    (request : φ.request s = .ok wrote) (short : held.length < 2) (buf : readBuf.getD ⟨2, 0, []⟩ = ⟨2, held.length, held⟩)
    (socket : c.socket = s.placed φ.read none readBuf) (answer : c.answer = .code rv) (rank : φ.reads s held.length ≤ n)
    (heading : Heading s heard c n φ wrote held) (stepped : step upstream c label = some d) :
    Leads s (heard ++ label.bytes) n c d := by
  obtain ⟨silent, _, rfl⟩ := step_code answer stepped
  simp only [Exchange.reads] at rank
  rw [silent, List.append_nil, socket, read_turn alike, buf]
  refine ⟨n - 1, by omega, ⟨φ, wrote, held, .reading fits request short rfl rfl ?_, heading.ledger.keep rfl, heading.whole⟩, ?_⟩
  · simp only [Exchange.reads]
    omega
  · rw [socket]
    cases φ <;> exact .inl rfl

theorem Heading.reading_leads (fits : s.Fits) (request : φ.request s = .ok wrote) (short : held.length < 2)
    (socket : c.socket = s.placed φ.readComplete none (some ⟨2, held.length, held⟩))
    (answer : c.answer = .awaits (.read (2 - held.length))) (rank : φ.reads s held.length ≤ n + 1)
    (heading : Heading s heard c n φ wrote held) (stepped : step upstream c label = some d) :
    Leads s (heard ++ label.bytes) n c d := by
  have state : c.socket.nextState = φ.readComplete := by rw [socket]; rfl
  simp only [Exchange.reads] at rank
  rcases step_read answer stepped with ⟨within, rfl⟩ | ⟨silent, rv, negative, rfl⟩
  · refine ⟨n - 1, by omega, ⟨φ, wrote, held ++ label.bytes, .received fits request short (by omega) ?_ rfl ?_,
      heading.ledger.keep rfl, ?_⟩, .inl rfl⟩
    · simp only [socket]
      simp [Socket.placed, GrowableIOBuffer.store]
    · simp only [Exchange.reads]
      omega
    · rw [← List.append_assoc, heading.whole]
  · rw [silent, List.append_nil]
    obtain ⟨m, rfl⟩ : ∃ m, n = m + 2 := ⟨n - 2, by omega⟩
    exact ⟨m + 1, by omega, ⟨φ, wrote, held, .breaks short (.inr state) negative rfl, heading.ledger.keep rfl, heading.whole⟩, .inl rfl⟩

theorem Heading.breaks_leads (alike : upstream.Alike) (short : held.length < 2)
    (state : c.socket.nextState = φ.writeComplete ∨ c.socket.nextState = φ.readComplete) (negative : rv < 0)
    (answer : c.answer = .code rv) (heading : Heading s heard c (n + 1) φ wrote held)
    (stepped : step upstream c label = some d) : Leads s (heard ++ label.bytes) (n + 1) c d := by
  obtain ⟨silent, _, rfl⟩ := step_code answer stepped
  rw [silent, List.append_nil, failed_turn alike negative state]
  exact ⟨n, by omega, ⟨φ, wrote, held, .ends rfl negative rfl (short_refused short), heading.ledger.keep rfl, heading.whole⟩,
    .inr (.inl rfl)⟩

theorem greeted_leads {version method : UInt8} {held chunk : Bytes} {m : Option UInt8} (alike : upstream.Alike)
    (fits : s.Fits) (request : Exchange.greet.request s = .ok wrote) (arrived : 0 < chunk.length)
    (whole : held ++ chunk = [version, method]) (ledger : c.Ledger s .greet wrote) (rank : Exchange.greet.later s < n) :
    Leads s [version, method] n c (c.resume m
      ((s.placed .greetReadComplete none (some ⟨2, held.length, held ++ chunk⟩)).turn upstream chunk.length)) := by
  have ends {t : Socket} {rv : Int} (state : t.nextState = .none) (negative : rv < 0)
      (refused : ¬Chooses s.username [version, method]) : Leads s [version, method] n c (c.resume m (.ok (t, .code rv))) :=
    ⟨n - 1, by omega, ⟨.greet, wrote, [version, method], .ends state negative rfl refused, ledger.keep rfl, rfl⟩, .inr (.inl state)⟩
  have asks (chooses : Chooses s.username [version, method]) : version = kSOCKS5Version ∧ method = kAuthMethodNone := by
    rcases chooses with none | ⟨_, asked⟩
    · simpa using none
    · cases asked
  rw [greeted_turn alike arrived whole]
  by_cases other : version ≠ kSOCKS5Version
  · rw [if_pos other]
    exact ends rfl (by decide) fun chooses => other (asks chooses).1
  rw [if_neg other]
  obtain rfl := not_not.mp other
  by_cases refused : method ≠ kAuthMethodNone ∧ ¬(method = kAuthMethodUsernamePassword ∧ s.hasCredentials)
  · rw [if_pos refused]
    exact ends rfl (by decide) fun chooses => refused.1 (asks chooses).2
  rw [if_neg refused]
  by_cases chosen : method = kAuthMethodUsernamePassword
  · subst chosen
    have held : s.hasCredentials = true := by
      by_contra without
      exact refused ⟨by decide, fun both => without both.2⟩
    have greeted : wrote = s.greeting := (Except.ok.inj request).symm
    -- The credentials have passed the guards of the greeting, so their frame can be made.
    obtain ⟨frame, encoded⟩ := authFrame_iff.mpr
      (show s.username.length < 2 ^ 8 ∧ s.password.length < 2 ^ 8 from ⟨Nat.lt_succ_of_le fits.2.1, Nat.lt_succ_of_le fits.2.2⟩)
    have length := authFrame_length encoded
    have request : Exchange.auth.request s = .ok frame := encoded
    rw [if_pos rfl]
    refine ⟨n - 1, by omega, ⟨.auth, [], [], .write (fun _ => fits) request (by omega) (.inl ⟨rfl, rfl⟩) rfl rfl ?_, ?_, rfl⟩,
      .inr (.inr ⟨rfl, rfl⟩)⟩
    · simp only [Exchange.writes, Exchange.reads, Exchange.later] at rank ⊢
      omega
    · exact ⟨ledger.1.trans greeted, held, ledger.2⟩
  · have none : method = kAuthMethodNone := by
      by_contra other
      exact refused ⟨other, fun both => chosen both.1⟩
    rw [if_neg chosen]
    exact ⟨n - 1, by omega, ⟨.greet, wrote, [kSOCKS5Version, method], .passes rfl rfl (.inl (by rw [none]; rfl)), ledger.keep rfl, rfl⟩,
      .inr (.inr ⟨rfl, rfl⟩)⟩

theorem authed_leads {version status : UInt8} {held chunk : Bytes} {m : Option UInt8} (arrived : 0 < chunk.length)
    (whole : held ++ chunk = [version, status]) (ledger : c.Ledger s .auth wrote) (rank : 0 < n) :
    Leads s (Exchange.auth.before ++ [version, status]) n c (c.resume m
      ((s.placed .authReadComplete none (some ⟨2, held.length, held ++ chunk⟩)).turn upstream chunk.length)) := by
  have ends {t : Socket} {rv : Int} (state : t.nextState = .none) (negative : rv < 0)
      (refused : ¬(version = kAuthSubnegotiationVersion ∧ status = 0x00)) :
      Leads s (Exchange.auth.before ++ [version, status]) n c (c.resume m (.ok (t, .code rv))) := by
    refine ⟨n - 1, by omega, ⟨.auth, wrote, [version, status], .ends state negative rfl ?_, ledger.keep rfl, rfl⟩, .inr (.inl state)⟩
    rintro (none | ⟨_, asked⟩)
    · cases none
    · refine refused ?_
      simpa [Exchange.before] using asked
  rw [authed_turn arrived whole]
  by_cases other : version ≠ kAuthSubnegotiationVersion
  · rw [if_pos other]
    exact ends rfl (by decide) fun accepted => other accepted.1
  rw [if_neg other]
  by_cases refused : status ≠ 0x00
  · rw [if_pos refused]
    exact ends rfl (by decide) fun accepted => refused accepted.2
  rw [if_neg refused]
  obtain rfl := not_not.mp other
  obtain rfl := not_not.mp refused
  have named : s.username ≠ [] := by simpa [Socket.hasCredentials] using ledger.2.1
  exact ⟨n - 1, by omega, ⟨.auth, wrote, _, .passes rfl rfl (.inr ⟨named, rfl⟩), ledger.keep rfl, rfl⟩, .inr (.inr ⟨rfl, rfl⟩)⟩

theorem Heading.received_leads {chunk : Bytes} (alike : upstream.Alike) (fits : s.Fits) (request : φ.request s = .ok wrote)
    (short : held.length < 2) (within : held.length + chunk.length ≤ 2)
    (socket : c.socket = s.placed φ.readComplete none (some ⟨2, held.length, held ++ chunk⟩))
    (answer : c.answer = .code chunk.length) (rank : φ.reads s held.length ≤ n + 2)
    (heading : Heading s heard c n φ wrote (held ++ chunk)) (stepped : step upstream c label = some d) :
    Leads s (heard ++ label.bytes) n c d := by
  obtain ⟨silent, _, rfl⟩ := step_code answer stepped
  simp only [Exchange.reads] at rank
  rw [silent, List.append_nil]
  have whole := heading.whole
  rcases Nat.eq_zero_or_pos chunk.length with empty | arrived
  · obtain rfl := List.length_eq_zero_iff.mp empty
    rw [socket, show ((List.length ([] : Bytes) : Nat) : Int) = 0 from rfl, closed_turn alike]
    refine ⟨n - 1, by omega, ⟨φ, wrote, _, .ends rfl (by decide) rfl (short_refused ?_), heading.ledger.keep rfl, whole⟩,
      .inr (.inl rfl)⟩
    rw [List.append_nil]
    exact short
  by_cases part : (held ++ chunk).length < 2
  · rw [socket, short_turn alike arrived part]
    rw [List.length_append] at part
    refine ⟨n - 1, by omega, ⟨φ, wrote, _, .read fits request (by rw [List.length_append]; exact part) rfl rfl rfl ?_,
      heading.ledger.keep rfl, whole⟩, ?_⟩
    · simp only [Exchange.reads, List.length_append]
      omega
    · rw [socket]
      cases φ <;> exact .inl rfl
  · have full : (held ++ chunk).length = 2 := by
      rw [List.length_append] at part ⊢
      omega
    obtain ⟨first, second, reply⟩ := List.length_eq_two.mp full
    have ledger := heading.ledger
    subst whole
    generalize c.socket.methodRead upstream chunk.length = method
    rw [socket]
    cases φ with
    | greet =>
      rw [show Exchange.greet.before ++ (held ++ chunk) = [first, second] from reply]
      exact greeted_leads alike fits request arrived reply ledger (by omega)
    | auth =>
      rw [show Exchange.auth.before ++ (held ++ chunk) = Exchange.auth.before ++ [first, second] from congrArg _ reply]
      exact authed_leads arrived reply ledger (by omega)

theorem Heads.preserved (alike : upstream.Alike) (heads : Heads s heard c n) (unsettled : c.settled = false)
    (stepped : step upstream c label = some d) : Leads s (heard ++ label.bytes) n c d := by
  obtain ⟨φ, wrote, held, heading⟩ := heads
  cases heading.position with
  | write past request left buf socket answer rank => exact heading.write_leads past request left buf socket answer rank stepped
  | writing fits request left socket answer rank => exact heading.writing_leads fits request left socket answer rank stepped
  | wrote fits request positive within socket answer rank =>
    exact heading.wrote_leads alike fits request positive within socket answer rank stepped
  | read fits request short buf socket answer rank => exact heading.read_leads alike fits request short buf socket answer rank stepped
  | reading fits request short socket answer rank => exact heading.reading_leads fits request short socket answer rank stepped
  | received fits request short within socket answer rank =>
    exact heading.received_leads alike fits request short within socket answer rank stepped
  | breaks short state negative answer => exact heading.breaks_leads alike short state negative answer stepped
  | passes state answer chosen => simp [settled, answer, state] at unsettled
  | ends state negative answer refused => simp [settled, answer, state] at unsettled

theorem Heads.proceeds (heads : Heads s heard c n) (unsettled : c.settled = false) :
    ∃ label d, label.fails = false ∧ step upstream c label = some d := by
  obtain ⟨φ, wrote, held, heading⟩ := heads
  have turns {rv : Int} (answer : c.answer = .code rv) : ∃ label d, label.fails = false ∧ step upstream c label = some d := by
    have state : c.socket.nextState ≠ .none := by
      intro state
      simp [settled, answer, state] at unsettled
    exact ⟨.turn, _, rfl, by simp only [step, answer]; exact if_neg state⟩
  cases heading.position with
  | writing fits request left socket answer rank =>
    have enabled : (step upstream c (.wrote 1)).isSome := by
      simp [step, answer]
      omega
    obtain ⟨d, stepped⟩ := Option.isSome_iff_exists.mp enabled
    exact ⟨.wrote 1, d, rfl, stepped⟩
  | reading fits request short socket answer rank =>
    have enabled : (step upstream c (.received [])).isSome := by simp [step, answer]
    obtain ⟨d, stepped⟩ := Option.isSome_iff_exists.mp enabled
    exact ⟨.received [], d, rfl, stepped⟩
  | write past request left buf socket answer rank => exact turns answer
  | wrote fits request positive within socket answer rank => exact turns answer
  | read fits request short buf socket answer rank => exact turns answer
  | received fits request short within socket answer rank => exact turns answer
  | breaks short state negative answer => exact turns answer
  | passes state answer chosen => exact turns answer
  | ends state negative answer refused => exact turns answer

theorem Heading.asked (heading : Heading s heard c n φ wrote held) (sent : c.credentials ≠ []) :
    c.greeted = [kSOCKS5Version, 0x02, kAuthMethodNone, kAuthMethodUsernamePassword] ∧
      [kSOCKS5Version, kAuthMethodUsernamePassword] <+: heard := by
  have ledger := heading.ledger
  cases φ with
  | greet => exact absurd ledger.2 sent
  | auth => exact ⟨ledger.1.trans (if_pos ledger.2.1), held, heading.whole⟩

theorem Heads.ended (heads : Heads s heard c n) (ended : c.settled = true) :
    c.socket.nextState = .handshakeWrite ∧ Chooses s.username heard ∨
      c.socket.nextState = .none ∧ ¬Chooses s.username heard ∧ ∃ rv < 0, c.answer = .code rv := by
  obtain ⟨φ, wrote, held, heading⟩ := heads
  have runs {rv : Int} {state : State} (answer : c.answer = .code rv) (there : c.socket.nextState = state)
      (going : state ≠ .none) (short : state ≠ .handshakeWrite) : False := by
    simp [settled, answer, there, going, short] at ended
  obtain ⟨position, ledger, rfl⟩ := heading
  cases position with
  | write past request left buf socket answer rank =>
    refine (runs answer (congrArg Socket.nextState socket) ?_ ?_).elim <;> cases φ <;> nofun
  | wrote fits request positive within socket answer rank =>
    refine (runs answer (congrArg Socket.nextState socket) ?_ ?_).elim <;> cases φ <;> nofun
  | read fits request short buf socket answer rank =>
    refine (runs answer (congrArg Socket.nextState socket) ?_ ?_).elim <;> cases φ <;> nofun
  | received fits request short within socket answer rank =>
    refine (runs answer (congrArg Socket.nextState socket) ?_ ?_).elim <;> cases φ <;> nofun
  | breaks short state negative answer =>
    rcases state with state | state
    all_goals refine (runs answer state ?_ ?_).elim <;> cases φ <;> nofun
  | writing fits request left socket answer rank => simp [settled, answer] at ended
  | reading fits request short socket answer rank => simp [settled, answer] at ended
  | passes state answer chosen => exact .inl ⟨state, chosen⟩
  | ends state negative answer refused => exact .inr ⟨state, refused, _, negative, answer⟩

theorem Heads.disciplined (alike : upstream.Alike) (heads : Heads s heard c n) : c.Disciplined upstream s.username heard where
  asked sent := by
    obtain ⟨φ, wrote, held, heading⟩ := heads
    exact heading.asked sent
  proceeds := heads.proceeds
  enters unsettled label d stepped := by
    obtain ⟨m, _, _, enters⟩ := heads.preserved alike unsettled stepped
    exact enters
  reaches ended := by
    rcases heads.ended ended with ⟨state, chosen⟩ | ⟨state, refused, _⟩
    · exact iff_of_true state chosen
    · exact iff_of_false (by rw [state]; nofun) refused
  refuses ended elsewhere := by
    rcases heads.ended ended with ⟨state, _⟩ | ⟨state, _, rv, negative, answer⟩
    · exact absurd state elsewhere
    · exact ⟨state, rv, negative, answer⟩

end

def steps (username password : Bytes) : Nat := 33 + 3 * (username.length + password.length)

theorem initial_heads {host username password : Bytes} :
    Heads (initial host username password).socket [] (initial host username password) (steps username password) := by
  have greeting : 0 < (initial host username password).socket.greeting.length ∧
      (initial host username password).socket.greeting.length ≤ 4 := by
    unfold Socket.greeting
    split <;> decide
  have lengths : (initial host username password).socket.username.length = username.length ∧
      (initial host username password).socket.password.length = password.length := ⟨rfl, rfl⟩
  refine ⟨.greet, [], [], .write (fun (auth : Exchange.greet = .auth) => nomatch auth) rfl greeting.1 (.inl ⟨rfl, rfl⟩)
    rfl rfl ?_, ⟨rfl, rfl⟩, rfl⟩
  simp only [Exchange.writes, Exchange.reads, Exchange.later, steps]
  omega

theorem run_heads {upstream : Upstream} {host username password : Bytes} {labels : List Label} {c : Connection}
    (alike : upstream.Alike) (ran : (machine upstream).run (initial host username password) labels = some c)
    (met : (machine upstream).Meets (fun c _ => c.settled = false) (initial host username password) labels) :
    ∃ n, n + labels.length ≤ steps username password ∧
      Heads (initial host username password).socket (labels.flatMap Label.bytes) c n := by
  refine Machine.guarded_invariant (fun labels c => ∃ n, n + labels.length ≤ steps username password ∧
    Heads (initial host username password).socket (labels.flatMap Label.bytes) c n) ?_ ?_ met ran
  · exact ⟨_, Nat.le_refl _, initial_heads⟩
  · intro past a label b _ before unsettled stepped
    obtain ⟨n, bound, heads⟩ := before
    obtain ⟨m, fewer, next, _⟩ := heads.preserved alike unsettled stepped
    refine ⟨m, by simp; omega, ?_⟩
    simpa using next

/-- The credentials go out only where they are asked for, and the handshake begins exactly where the proxy has chosen
    a method the client can do and, where that is asked for, accepted the credentials. -/
theorem negotiates {upstream : Upstream} (alike : upstream.Alike) (host username password : Bytes) :
    Negotiates upstream host username password := by
  refine ⟨steps username password, fun labels c ran met => ?_⟩
  obtain ⟨n, bound, heads⟩ := run_heads alike ran met
  exact ⟨by omega, heads.disciplined alike⟩

end Connection

def Upstream.sibling : Upstream where
  greetWriteComplete s rv :=
    if rv < 0 then (s, .code rv)
    else
      match s.writeBuf with
      | some ⟨data, consumed⟩ =>
        if data.drop (consumed + rv.toNat) = [] then ({ s with writeBuf := none, nextState := .greetRead }, .code OK)
        else ({ s with writeBuf := some ⟨data, consumed + rv.toNat⟩, nextState := .greetWrite }, .code OK)
      | none => (s, .aborted .released)
  greetRead s :=
    let buf := s.readBuf.getD ⟨kGreetReplySize, 0, []⟩
    ({ s with readBuf := some buf, nextState := .greetReadComplete }, .awaits (.read buf.remainingCapacity))
  greetReadComplete s rv :=
    if rv < 0 then .inl (s, .code rv)
    else if rv = 0 then .inl (s, .code ERR_SOCKS_CONNECTION_FAILED)
    else
      match s.readBuf with
      | none => .inl (s, .aborted .released)
      | some ⟨capacity, offset, data⟩ =>
        let s := { s with readBuf := some ⟨capacity, offset + rv.toNat, data⟩ }
        if offset + rv.toNat < capacity then .inl (s.goto .greetRead, .code OK)
        else
          match data.take (offset + rv.toNat) with
          | version :: method :: _ =>
            if version ≠ kSOCKS5Version then .inl (s, .code ERR_SOCKS_CONNECTION_FAILED) else .inr (s, method)
          | _ => .inl (s, .aborted .outOfBounds)
  handshake _ s _ := (s.goto .none, .code ERR_SOCKS_CONNECTION_FAILED)

theorem Upstream.sibling_alike : Upstream.sibling.Alike where
  writeFails negative := if_pos negative
  writes held := by
    simp only [sibling, held]
    rw [if_neg (by omega), Int.toNat_natCast]
  reads := rfl
  readFails negative := if_pos negative
  readCloses := rfl
  readShort held arrived short := by
    simp only [sibling, held]
    rw [if_neg (by omega), if_neg (by omega), Int.toNat_natCast, if_pos short]
    rfl
  readWhole held arrived whole read := by
    simp only [sibling, held]
    rw [if_neg (by omega), if_neg (by omega), Int.toNat_natCast, if_neg (by omega), read]

theorem negotiates_as_sibling : Connection.Negotiates .sibling [104] [117] [112] :=
  Connection.negotiates Upstream.sibling_alike [104] [117] [112]

end Cronet.Socks.Tcp
