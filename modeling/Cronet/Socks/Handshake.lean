import Cronet.Socks.Grant

namespace Cronet.Socks

open Cronet.Native (Bytes)

inductive Phase where
  | greet
  | auth
  | associate
  deriving DecidableEq

namespace Phase

def write : Phase → State
  | greet => .greetWrite
  | auth => .authWrite
  | associate => .associateWrite

def writeComplete : Phase → State
  | greet => .greetWriteComplete
  | auth => .authWriteComplete
  | associate => .associateWriteComplete

def read : Phase → State
  | greet => .greetRead
  | auth => .authRead
  | associate => .associateRead

def readComplete : Phase → State
  | greet => .greetReadComplete
  | auth => .authReadComplete
  | associate => .associateReadComplete

def request (s : Socket) : Phase → Checked Bytes
  | greet => .ok s.greeting
  | auth => s.authRequest
  | associate => .ok Socket.associateRequest

def first : Phase → Nat
  | greet => kGreetReplySize
  | auth => kAuthReplySize
  | associate => kReplyPrefixSize

def size : Phase → Nat
  | greet => 2
  | auth => 2
  | associate => 22

def before : Phase → Bytes
  | greet => []
  | auth => [kSOCKS5Version, kAuthMethodUsernamePassword]
  | associate => [kSOCKS5Version, kAuthMethodNone]

def outcome (peer : Except Int Bytes) (s : Socket) : Phase → Bytes → Checked Outcome
  | greet => afterGreet peer s
  | auth => afterAuth
  | associate => fun bytes => .ok (afterAssociate peer bytes)

def later (s : Socket) : Phase → Nat
  | greet => 105 + 3 * (s.username.length + s.password.length) + 6
  | auth => 96
  | associate => 0

def reads (s : Socket) (φ : Phase) (held : Nat) : Nat := φ.later s + 3 * (φ.size - held)

def writes (s : Socket) (φ : Phase) (left : Nat) : Nat := φ.reads s 0 + 3 * left

end Phase

inductive Stage : Phase → (remaining capacity : Nat) → Bytes → Prop where
  | first (φ : Phase) (held : Bytes) : Stage φ 0 φ.first held
  | rest {reserved addressType : UInt8} {size : Nat} {held : Bytes}
      (sized : addressType = kAddressTypeIPv4 ∧ size = 4 ∨ addressType = kAddressTypeIPv6 ∧ size = 16) :
      Stage .associate (size + 2) (kReplyPrefixSize + (size + 2)) ([kSOCKS5Version, 0x00, reserved, addressType] ++ held)

theorem Stage.append {φ : Phase} {remaining capacity : Nat} {held : Bytes} (stage : Stage φ remaining capacity held)
    (chunk : Bytes) : Stage φ remaining capacity (held ++ chunk) := by
  cases stage with
  | first => exact .first φ _
  | rest sized =>
    rw [List.append_assoc]
    exact .rest sized

theorem Stage.capacity_le {φ : Phase} {remaining capacity : Nat} {held : Bytes} (stage : Stage φ remaining capacity held) :
    capacity ≤ φ.size := by
  cases stage with
  | first => cases φ <;> decide
  | rest sized =>
    simp [Phase.size, kReplyPrefixSize]
    omega

def posed (s : Socket) (state : State) (writeBuf : Option DrainableIOBuffer) (readBuf : Option GrowableIOBuffer)
    (remaining : Nat) : Socket :=
  { s with nextState := state, writeBuf, readBuf, associateReplyRemaining := remaining }

section Turns

variable {peer : Except Int Bytes} {s : Socket} {φ : Phase}

theorem write_turn {writeBuf : Option DrainableIOBuffer} {remaining : Nat} {rv : Int} :
    (posed s φ.write writeBuf none remaining).turn peer rv =
      (posed s .none writeBuf none remaining).doWrite φ.writeComplete (φ.request s) := by
  cases φ <;> rfl

theorem write_turn_ok {writeBuf : Option DrainableIOBuffer} {data : Bytes} {consumed remaining : Nat} {rv : Int}
    (request : φ.request s = .ok data) (buf : writeBuf = none ∧ consumed = 0 ∨ writeBuf = some ⟨data, consumed⟩) :
    (posed s φ.write writeBuf none remaining).turn peer rv =
      .ok (posed s φ.writeComplete (some ⟨data, consumed⟩) none remaining, .awaits (.write (data.drop consumed))) := by
  rw [write_turn, request]
  rcases buf with ⟨rfl, rfl⟩ | rfl <;> rfl

theorem write_turn_refused {remaining : Nat} {rv : Int} {fault : Fault} (request : φ.request s = .error fault) :
    (posed s φ.write none none remaining).turn peer rv = .error fault := by
  rw [write_turn, request]
  rfl

theorem wrote_turn {data : Bytes} {consumed count : Nat} (within : consumed + count ≤ data.length) :
    (posed s φ.writeComplete (some ⟨data, consumed⟩) none 0).turn peer count =
      if consumed + count = data.length then .ok (posed s φ.read none none 0, .code OK)
      else .ok (posed s φ.write (some ⟨data, consumed + count⟩) none 0, .code OK) := by
  have drained : data.drop (consumed + count) = [] ↔ consumed + count = data.length := by
    rw [List.drop_eq_nil_iff]
    omega
  have completed : (posed s .none (some ⟨data, consumed⟩) none 0).doWriteComplete count φ.write φ.read =
      if consumed + count = data.length then .ok (posed s φ.read none none 0, .code OK)
      else .ok (posed s φ.write (some ⟨data, consumed + count⟩) none 0, .code OK) := by
    unfold Socket.doWriteComplete
    rw [if_neg (by omega)]
    simp only [posed, DrainableIOBuffer.remaining, Int.toNat_natCast, drained]
    rfl
  cases φ with
  | greet => exact completed
  | auth => exact completed
  | associate =>
    show ((posed s .none (some ⟨data, consumed⟩) none 0).doWriteComplete count Phase.associate.write
      Phase.associate.read >>= _) = _
    rw [completed]
    split <;> rfl

theorem read_turn {readBuf : Option GrowableIOBuffer} {remaining : Nat} {rv : Int} :
    (posed s φ.read none readBuf remaining).turn peer rv =
      .ok (posed s φ.readComplete none (some (readBuf.getD ⟨φ.first, 0, []⟩)) remaining,
        .awaits (.read (readBuf.getD ⟨φ.first, 0, []⟩).remainingCapacity)) := by
  cases φ <;> rfl

theorem failed_turn {t : Socket} {rv : Int} (complete : t.nextState = φ.writeComplete ∨ t.nextState = φ.readComplete)
    (negative : rv < 0) : t.turn peer rv = .ok (t.goto .none, .code rv) := by
  unfold Socket.turn
  rcases complete with state | state
  · rw [state]
    have failed (again next : State) : (t.goto .none).doWriteComplete rv again next = .ok (t.goto .none, .code rv) :=
      if_pos negative
    cases φ with
    | greet => exact failed _ _
    | auth => exact failed _ _
    | associate =>
      show ((t.goto .none).doWriteComplete rv .associateWrite .associateRead >>= _) = _
      rw [failed]
      rfl
  · rw [state]
    cases φ <;> exact if_pos negative

def Phase.reply (peer : Except Int Bytes) : Phase → Socket → Span UInt8 → Checked (Socket × Answer)
  | greet => Socket.greetReply
  | auth => Socket.authReply
  | associate => Socket.associateReply peer

theorem received_turn {held chunk : Bytes} {capacity remaining : Nat} :
    (posed s φ.readComplete none (some ⟨capacity, held.length, held ++ chunk⟩) remaining).turn peer chunk.length =
      if chunk = [] then
        .ok (posed s .none none (some ⟨capacity, held.length, held ++ chunk⟩) remaining,
          .code ERR_SOCKS_CONNECTION_FAILED)
      else if held.length + chunk.length < capacity then
        .ok (posed s φ.read none (some ⟨capacity, (held ++ chunk).length, held ++ chunk⟩) remaining, .code OK)
      else
        φ.reply peer (posed s .none none (some ⟨capacity, (held ++ chunk).length, held ++ chunk⟩) remaining)
          (held ++ chunk) := by
  have entered : (posed s φ.readComplete none (some ⟨capacity, held.length, held ++ chunk⟩) remaining).turn peer
      chunk.length = (posed s .none none (some ⟨capacity, held.length, held ++ chunk⟩) remaining).doReadComplete
        chunk.length φ.read (φ.reply peer) := by
    cases φ <;> rfl
  rw [entered]
  unfold Socket.doReadComplete
  rw [if_neg (by omega)]
  by_cases ended : chunk = []
  · rw [if_pos (by rw [ended]; rfl), if_pos ended]
    rfl
  have arrived : 0 < chunk.length := List.length_pos_iff.mpr ended
  rw [if_neg (by omega), if_neg ended]
  have all : (held ++ chunk).take (held.length + chunk.length) = held ++ chunk := by
    rw [← List.length_append, List.take_length]
  simp only [posed, GrowableIOBuffer.remainingCapacity, GrowableIOBuffer.spanBeforeOffset, Int.toNat_natCast, all,
    List.length_append, Nat.sub_pos_iff_lt]
  rfl

theorem greet_reply {capacity remaining : Nat} {data : Bytes} {version method : UInt8} :
    Socket.greetReply (posed s .none none (some ⟨capacity, 2, data⟩) remaining) [version, method] =
      if version ≠ kSOCKS5Version then
        .ok (posed s .none none (some ⟨capacity, 2, data⟩) remaining, .code ERR_SOCKS_CONNECTION_FAILED)
      else if method = kAuthMethodUsernamePassword ∧ s.hasCredentials then
        .ok (posed s .authWrite none none remaining, .code OK)
      else if method ≠ kAuthMethodNone then
        .ok (posed s .none none none remaining, .code ERR_SOCKS_CONNECTION_FAILED)
      else .ok (posed s .associateWrite none none remaining, .code OK) := by
  rfl

theorem auth_reply {readBuf : Option GrowableIOBuffer} {remaining : Nat} {reply : Span UInt8} :
    Socket.authReply (posed s .none none readBuf remaining) reply = .error .released := by
  rfl

theorem associate_head {capacity : Nat} {data : Bytes} {version status reserved addressType : UInt8} :
    (posed s .none none (some ⟨capacity, 4, data⟩) 0).associateHead [version, status, reserved, addressType] =
      if version ≠ kSOCKS5Version then
        .ok (posed s .none none (some ⟨capacity, 4, data⟩) 0, .code ERR_SOCKS_CONNECTION_FAILED)
      else if status ≠ 0x00 then
        .ok (posed s .none none (some ⟨capacity, 4, data⟩) 0, .code ERR_SOCKS_CONNECTION_FAILED)
      else if addressType = kAddressTypeIPv4 then
        .ok (posed s .associateRead none (some ⟨10, 4, data⟩) 6, .code OK)
      else if addressType = kAddressTypeIPv6 then
        .ok (posed s .associateRead none (some ⟨22, 4, data⟩) 18, .code OK)
      else .ok (posed s .none none (some ⟨capacity, 4, data⟩) 0, .code ERR_SOCKS_CONNECTION_FAILED) := by
  rfl

theorem associate_whole {capacity offset remaining size : Nat} {data address : Bytes}
    {version status reserved addressType high low : UInt8}
    (sized : addressType = kAddressTypeIPv4 ∧ size = 4 ∨ addressType = kAddressTypeIPv6 ∧ size = 16)
    (length : address.length = size) :
    (posed s .none none (some ⟨capacity, offset, data⟩) remaining).associateWhole peer
        ([version, status, reserved, addressType] ++ (address ++ [high, low])) =
      .ok (match settleRelay peer address (high.toNat * 256 + low.toNat) [] with
        | .ok (relay, _) => ({ posed s .udpConnect none none remaining with relay := some relay }, .code OK)
        | .error rv => (posed s .none none (some ⟨capacity, offset, data⟩) remaining, .code rv)) := by
  have inspected : (posed s .none none (some ⟨capacity, offset, data⟩) remaining).inspect
      ([version, status, reserved, addressType] ++ (address ++ [high, low])) 3 = .ok addressType := rfl
  have viewed : (posed s .none none (some ⟨capacity, offset, data⟩) remaining).view
      ([version, status, reserved, addressType] ++ (address ++ [high, low])) =
      .ok ([version, status, reserved, addressType] ++ (address ++ [high, low])) := rfl
  have rest : Span.subspan ([version, status, reserved, addressType] ++ (address ++ [high, low])) kReplyPrefixSize =
      .ok (address ++ [high, low]) := Span.subspan_of_le (by simp [kReplyPrefixSize])
  have addressLength : (if addressType = kAddressTypeIPv4 then 4 else 16) = size := by
    rcases sized with ⟨rfl, rfl⟩ | ⟨rfl, rfl⟩ <;> rfl
  have taken : Span.first (address ++ [high, low]) size = .ok address := by
    rw [Span.first_of_le (by simp [length]), ← length, List.take_left]
  have left : Span.subspan (address ++ [high, low]) size = .ok [high, low] := by
    rw [Span.subspan_of_le (by simp [length]), ← length, List.drop_left]
  unfold Socket.associateWhole
  simp only [inspected, viewed, rest, bind, Except.bind, addressLength, taken, left]
  unfold settleRelay
  by_cases zero : isZero address = true
  · rw [if_pos zero]
    cases peer with
    | ok named => exact if_pos zero
    | error rv => exact if_pos zero
  · rw [if_neg zero]
    exact if_neg zero

theorem outcome_short {remaining capacity : Nat} {held : Bytes} (stage : Stage φ remaining capacity held)
    (short : held.length < capacity) : φ.outcome peer s held = .ok (.error ERR_SOCKS_CONNECTION_FAILED) := by
  cases stage with
  | first =>
    cases φ with
    | greet =>
      rcases held with _ | ⟨version, _ | ⟨method, held⟩⟩
      · rfl
      · rfl
      · simp only [Phase.first, kGreetReplySize, List.length_cons] at short
        omega
    | auth =>
      rcases held with _ | ⟨version, _ | ⟨status, held⟩⟩
      · rfl
      · rfl
      · simp only [Phase.first, kAuthReplySize, List.length_cons] at short
        omega
    | associate =>
      rcases held with _ | ⟨version, _ | ⟨status, _ | ⟨reserved, _ | ⟨addressType, held⟩⟩⟩⟩
      · rfl
      · rfl
      · rfl
      · rfl
      · simp only [Phase.first, kReplyPrefixSize, List.length_cons] at short
        omega
  | @rest reserved addressType size held sized =>
    have missing : relayFrom peer size held = .error ERR_SOCKS_CONNECTION_FAILED := by
      have length : (held.drop size).length < 2 := by
        simp [kReplyPrefixSize] at short ⊢
        omega
      unfold relayFrom
      generalize held.drop size = behind at length
      rcases behind with _ | ⟨high, _ | ⟨low, rest⟩⟩
      · rfl
      · rfl
      · simp only [List.length_cons] at length
        omega
    show Except.ok (afterAssociate peer (kSOCKS5Version :: 0x00 :: reserved :: addressType :: held)) = _
    rcases sized with ⟨rfl, rfl⟩ | ⟨rfl, rfl⟩
    · exact congrArg Except.ok missing
    · exact congrArg Except.ok missing

end Turns

namespace Association

/-- What a phase has come to: what it has written, and what it holds of the reply. -/
def Ledger (a : Association) : Phase → (wrote held : Bytes) → Prop
  | .greet, _, held =>
    a.received .greetReadComplete = held ∧ a.received .authReadComplete = [] ∧ a.received .associateReadComplete = [] ∧
      a.sent .authWriteComplete = []
  | .auth, wrote, held =>
    a.received .greetReadComplete = [kSOCKS5Version, kAuthMethodUsernamePassword] ∧ a.received .authReadComplete = held ∧
      a.received .associateReadComplete = [] ∧ a.sent .authWriteComplete = wrote
  | .associate, _, held =>
    a.received .greetReadComplete = [kSOCKS5Version, kAuthMethodNone] ∧ a.received .authReadComplete = [] ∧
      a.received .associateReadComplete = held ∧ a.sent .authWriteComplete = []

/-- Where a handshake is: the outcome it is heading for, unless the transport has failed, and how
    many steps it has left at most. -/
inductive Position (peer : Except Int Bytes) (s : Socket) (a : Association) :
    Phase → (wrote held : Bytes) → Option (Checked Outcome) → Nat → Prop where
  | refuse {φ : Phase} {fault : Fault} {rv : Int} {n : Nat} (request : φ.request s = .error fault)
      (socket : a.socket = posed s φ.write none none 0) (answer : a.answer = .code rv) :
      Position peer s a φ [] [] (some (.error fault)) (n + 1)
  | write {φ : Phase} {writeBuf : Option DrainableIOBuffer} {data : Bytes} {consumed n : Nat} {rv : Int}
      (request : φ.request s = .ok data) (left : consumed < data.length)
      (buf : writeBuf = none ∧ consumed = 0 ∨ writeBuf = some ⟨data, consumed⟩)
      (socket : a.socket = posed s φ.write writeBuf none 0) (answer : a.answer = .code rv)
      (rank : φ.writes s (data.length - consumed) ≤ n) :
      Position peer s a φ (data.take consumed) [] (some (φ.outcome peer s a.incoming)) n
  | writing {φ : Phase} {data : Bytes} {consumed n : Nat} (request : φ.request s = .ok data) (left : consumed < data.length)
      (socket : a.socket = posed s φ.writeComplete (some ⟨data, consumed⟩) none 0)
      (answer : a.answer = .awaits (.write (data.drop consumed)))
      (rank : φ.writes s (data.length - consumed) ≤ n + 1) :
      Position peer s a φ (data.take consumed) [] (some (φ.outcome peer s a.incoming)) n
  | wrote {φ : Phase} {data : Bytes} {consumed count n : Nat} (request : φ.request s = .ok data) (positive : 0 < count)
      (within : consumed + count ≤ data.length)
      (socket : a.socket = posed s φ.writeComplete (some ⟨data, consumed⟩) none 0) (answer : a.answer = .code count)
      (rank : φ.writes s (data.length - consumed) ≤ n + 2) :
      Position peer s a φ (data.take (consumed + count)) [] (some (φ.outcome peer s a.incoming)) n
  | read {φ : Phase} {readBuf : Option GrowableIOBuffer} {wrote held : Bytes} {remaining capacity n : Nat} {rv : Int}
      (request : φ.request s = .ok wrote) (stage : Stage φ remaining capacity held) (short : held.length < capacity)
      (buf : readBuf.getD ⟨φ.first, 0, []⟩ = ⟨capacity, held.length, held⟩)
      (socket : a.socket = posed s φ.read none readBuf remaining) (answer : a.answer = .code rv)
      (rank : φ.reads s held.length ≤ n) :
      Position peer s a φ wrote held (some (φ.outcome peer s (held ++ a.incoming))) n
  | reading {φ : Phase} {wrote held : Bytes} {remaining capacity n : Nat} (request : φ.request s = .ok wrote)
      (stage : Stage φ remaining capacity held) (short : held.length < capacity)
      (socket : a.socket = posed s φ.readComplete none (some ⟨capacity, held.length, held⟩) remaining)
      (answer : a.answer = .awaits (.read (capacity - held.length)))
      (rank : φ.reads s held.length ≤ n + 1) :
      Position peer s a φ wrote held (some (φ.outcome peer s (held ++ a.incoming))) n
  | received {φ : Phase} {wrote held chunk : Bytes} {remaining capacity n : Nat} (request : φ.request s = .ok wrote)
      (stage : Stage φ remaining capacity held) (short : held.length < capacity)
      (within : held.length + chunk.length ≤ capacity) (ended : chunk = [] → a.incoming = [])
      (socket : a.socket = posed s φ.readComplete none (some ⟨capacity, held.length, held ++ chunk⟩) remaining)
      (answer : a.answer = .code chunk.length) (rank : φ.reads s held.length ≤ n + 2) :
      Position peer s a φ wrote (held ++ chunk) (some (φ.outcome peer s (held ++ chunk ++ a.incoming))) n
  | connects {wrote held : Bytes} {relay : IPEndPoint} {n : Nat} (request : Phase.associate.request s = .ok wrote)
      (state : a.socket.nextState = .udpConnect) (found : a.socket.relay = some relay) (answer : a.answer = .code OK) :
      Position peer s a .associate wrote held (some (.ok (.ok (relay, a.incoming)))) n
  | fails {φ : Phase} {wrote held : Bytes} {rv : Int} {n : Nat} (request : φ.request s = .ok wrote)
      (cause : rv < 0 ∨ φ = .associate) (state : a.socket.nextState = .none) (relay : a.socket.relay = none)
      (answer : a.answer = .code rv) : Position peer s a φ wrote held (some (.ok (.error rv))) n
  | aborts {φ : Phase} {wrote held : Bytes} {fault : Fault} {n : Nat} (framed : wrote = [] ∨ φ.request s = .ok wrote)
      (answer : a.answer = .aborted fault) : Position peer s a φ wrote held (some (.error fault)) n
  | breaks {φ : Phase} {wrote held data : Bytes} {rv : Int} {n : Nat} (request : φ.request s = .ok data)
      (part : wrote <+: data) (state : a.socket.nextState = φ.writeComplete ∨ a.socket.nextState = φ.readComplete)
      (relay : a.socket.relay = none) (negative : rv < 0) (answer : a.answer = .code rv) :
      Position peer s a φ wrote held none (n + 1)
  | broken {φ : Phase} {wrote held data : Bytes} {rv : Int} {n : Nat} (request : φ.request s = .ok data)
      (part : wrote <+: data) (state : a.socket.nextState = .none) (relay : a.socket.relay = none) (negative : rv < 0)
      (answer : a.answer = .code rv) : Position peer s a φ wrote held none n

section Steps

variable {peer : Except Int Bytes} {a b : Association} {label : AssociationLabel}

theorem step_code {rv : Int} (answer : a.answer = .code rv) (stepped : step peer a label = some b) :
    label.fails = false ∧ a.socket.nextState ≠ .none ∧ b = a.resume (a.socket.turn peer rv) := by
  cases label with
  | turn =>
    simp only [step, answer, Option.ite_none_left_eq_some, Option.some.injEq] at stepped
    obtain ⟨state, rfl⟩ := stepped
    exact ⟨rfl, state, rfl⟩
  | _ => simp [step, answer] at stepped

theorem step_write {bytes : Bytes} (answer : a.answer = .awaits (.write bytes)) (stepped : step peer a label = some b) :
    (∃ count, label.fails = false ∧ 0 < count ∧ count ≤ bytes.length ∧
      b = { a with answer := .code count, traffic := a.traffic ++ [.sent a.socket.nextState (bytes.take count)] }) ∨
    (∃ rv, label.fails = true ∧ rv < 0 ∧ b = { a with answer := .code rv }) := by
  cases label with
  | wrote count =>
    simp only [step, answer, Option.ite_none_right_eq_some, Option.some.injEq] at stepped
    obtain ⟨⟨positive, within⟩, rfl⟩ := stepped
    exact .inl ⟨count, rfl, positive, within, rfl⟩
  | failed rv =>
    simp only [step, answer, Option.ite_none_right_eq_some, Option.some.injEq] at stepped
    obtain ⟨⟨negative, _⟩, rfl⟩ := stepped
    exact .inr ⟨rv, rfl, negative, rfl⟩
  | _ => simp [step, answer] at stepped

theorem step_read {capacity : Nat} (answer : a.answer = .awaits (.read capacity)) (stepped : step peer a label = some b) :
    (∃ count, label.fails = false ∧ 0 < count ∧ count ≤ capacity ∧ count ≤ a.incoming.length ∧
      b = { a with
        answer := .code count
        socket.readBuf := a.socket.readBuf.map (·.store (a.incoming.take count))
        incoming := a.incoming.drop count
        traffic := a.traffic ++ [.received a.socket.nextState (a.incoming.take count)] }) ∨
    (label.fails = false ∧ a.incoming = [] ∧ b = { a with answer := .code 0 }) ∨
    (∃ rv, label.fails = true ∧ rv < 0 ∧ b = { a with answer := .code rv }) := by
  cases label with
  | received count =>
    simp only [step, answer, Option.ite_none_right_eq_some, Option.some.injEq] at stepped
    obtain ⟨⟨positive, within, available⟩, rfl⟩ := stepped
    exact .inl ⟨count, rfl, positive, within, available, rfl⟩
  | closed =>
    simp only [step, answer, Option.ite_none_right_eq_some, Option.some.injEq] at stepped
    obtain ⟨nothing, rfl⟩ := stepped
    exact .inr (.inl ⟨rfl, nothing, rfl⟩)
  | failed rv =>
    simp only [step, answer, Option.ite_none_right_eq_some, Option.some.injEq] at stepped
    obtain ⟨⟨negative, _⟩, rfl⟩ := stepped
    exact .inr (.inr ⟨rv, rfl, negative, rfl⟩)
  | _ => simp [step, answer] at stepped

theorem Ledger.sends {φ : Phase} {wrote held chunk : Bytes} (ledger : a.Ledger φ wrote held)
    (traffic : b.traffic = a.traffic ++ [.sent φ.writeComplete chunk]) : b.Ledger φ (wrote ++ chunk) held := by
  have received (state : State) : b.received state = a.received state := by
    simp [Association.received, traffic, Traffic.receivedIn]
  have sent (state : State) : b.sent state = a.sent state ++ if φ.writeComplete = state then chunk else [] := by
    simp [Association.sent, traffic, Traffic.sentIn]
  cases φ <;> simpa [Ledger, received, sent, Phase.writeComplete] using ledger

theorem Ledger.receives {φ : Phase} {wrote held chunk : Bytes} (ledger : a.Ledger φ wrote held)
    (traffic : b.traffic = a.traffic ++ [.received φ.readComplete chunk]) : b.Ledger φ wrote (held ++ chunk) := by
  have sent (state : State) : b.sent state = a.sent state := by
    simp [Association.sent, traffic, Traffic.sentIn]
  have received (state : State) : b.received state = a.received state ++ if φ.readComplete = state then chunk else [] := by
    simp [Association.received, traffic, Traffic.receivedIn]
  cases φ <;> simp_all [Ledger, Phase.readComplete]

theorem Ledger.keep {φ : Phase} {wrote held : Bytes} (ledger : a.Ledger φ wrote held) (traffic : b.traffic = a.traffic) :
    b.Ledger φ wrote held := by
  have sent : b.sent = a.sent := by
    unfold Association.sent
    rw [traffic]
  have received : b.received = a.received := by
    unfold Association.received
    rw [traffic]
  cases φ <;> simpa only [Ledger, received, sent] using ledger

end Steps

structure Heading (peer : Except Int Bytes) (s : Socket) (stream : Bytes) (a : Association)
    (verdict : Option (Checked Outcome)) (n : Nat) (φ : Phase) (wrote held : Bytes) : Prop where
  position : Position peer s a φ wrote held verdict n
  ledger : a.Ledger φ wrote held
  bound : held.length ≤ φ.size
  whole : φ.before ++ held ++ a.incoming = stream

def Heads (peer : Except Int Bytes) (s : Socket) (stream : Bytes) (a : Association) (verdict : Option (Checked Outcome))
    (n : Nat) : Prop :=
  ∃ φ wrote held, Heading peer s stream a verdict n φ wrote held

section Replies

variable {peer : Except Int Bytes} {s : Socket} {stream : Bytes} {a : Association}

theorem authRequest_length {data : Bytes} (request : s.authRequest = .ok data) :
    data.length = 3 + (s.username.length + s.password.length) := authFrame_length request

theorem greet_heads {wrote : Bytes} {version method : UInt8} {capacity n : Nat} (relay : s.relay = none)
    (request : Phase.greet.request s = .ok wrote) (ledger : a.Ledger .greet wrote [version, method])
    (whole : [version, method] ++ a.incoming = stream) (rank : Phase.greet.later s ≤ n) :
    Heads peer s stream
      (a.resume (Socket.greetReply (posed s .none none (some ⟨capacity, 2, [version, method]⟩) 0) [version, method]))
      (some (afterGreet peer s ([version, method] ++ a.incoming))) n := by
  rw [greet_reply]
  show Heads _ _ _ _ (some (if _ then _ else _)) _
  by_cases current : version ≠ kSOCKS5Version
  · rw [if_pos current, if_pos current]
    exact ⟨.greet, wrote, _, .fails request (.inl (by decide)) rfl relay rfl, ledger.keep rfl, by simp [Phase.size], whole⟩
  rw [if_neg current, if_neg current]
  obtain rfl := not_not.mp current
  by_cases chosen : method = kAuthMethodUsernamePassword ∧ s.hasCredentials = true
  · rw [if_pos chosen, if_pos chosen]
    obtain ⟨rfl, held⟩ := chosen
    cases encoded : s.authRequest with
    | error fault =>
      obtain ⟨n, rfl⟩ : ∃ m, n = m + 1 := ⟨n - 1, by simp [Phase.later] at rank; omega⟩
      exact ⟨.auth, [], [], .refuse encoded rfl rfl, ledger, by simp, whole⟩
    | ok data =>
      have request : Phase.auth.request s = .ok data := encoded
      have length := authRequest_length encoded
      refine ⟨.auth, [], [], .write request (by omega) (.inl ⟨rfl, rfl⟩) rfl rfl ?_, ledger, by simp, whole⟩
      simp [Phase.later, Phase.writes, Phase.reads, Phase.size] at rank ⊢
      omega
  rw [if_neg chosen, if_neg chosen]
  by_cases other : method ≠ kAuthMethodNone
  · rw [if_pos other, if_pos other]
    exact ⟨.greet, wrote, _, .fails request (.inl (by decide)) rfl relay rfl, ledger.keep rfl, by simp [Phase.size], whole⟩
  · rw [if_neg other, if_neg other]
    obtain rfl := not_not.mp other
    refine ⟨.associate, [], [], .write rfl (by decide) (.inl ⟨rfl, rfl⟩) rfl rfl ?_, ledger, by simp, whole⟩
    simp [Phase.later, Phase.writes, Phase.reads, Phase.size, Socket.associateRequest] at rank ⊢
    omega

theorem auth_heads {wrote reply : Bytes} {readBuf : Option GrowableIOBuffer} {n : Nat}
    (request : Phase.auth.request s = .ok wrote) (ledger : a.Ledger .auth wrote reply) (complete : reply.length = 2)
    (whole : Phase.auth.before ++ reply ++ a.incoming = stream) :
    Heads peer s stream (a.resume (Socket.authReply (posed s .none none readBuf 0) reply))
      (some (afterAuth (reply ++ a.incoming))) n := by
  obtain ⟨first, second, rfl⟩ := List.length_eq_two.mp complete
  rw [auth_reply]
  exact ⟨.auth, wrote, _, .aborts (.inr request) rfl, ledger, by simp [Phase.size], whole⟩

theorem associate_fails {wrote held : Bytes} {readBuf : Option GrowableIOBuffer} {remaining n : Nat} {rv : Int}
    (relay : s.relay = none) (request : Phase.associate.request s = .ok wrote) (ledger : a.Ledger .associate wrote held)
    (bound : held.length ≤ 22) (whole : Phase.associate.before ++ held ++ a.incoming = stream) :
    Heads peer s stream (a.resume (.ok (posed s .none none readBuf remaining, .code rv))) (some (.ok (.error rv))) n :=
  ⟨.associate, wrote, held, .fails request (.inr rfl) rfl relay rfl, ledger.keep rfl, bound, whole⟩

theorem prefix_heads {wrote : Bytes} {version status reserved addressType : UInt8} {capacity n : Nat}
    (relay : s.relay = none) (request : Phase.associate.request s = .ok wrote)
    (ledger : a.Ledger .associate wrote [version, status, reserved, addressType])
    (whole : Phase.associate.before ++ [version, status, reserved, addressType] ++ a.incoming = stream)
    (rank : Phase.associate.reads s 4 ≤ n) :
    Heads peer s stream
      (a.resume (Socket.associateReply peer
        (posed s .none none (some ⟨capacity, 4, [version, status, reserved, addressType]⟩) 0)
        [version, status, reserved, addressType]))
      (some (.ok (afterAssociate peer ([version, status, reserved, addressType] ++ a.incoming)))) n := by
  show Heads _ _ _ (a.resume (Socket.associateHead _ _)) (some (.ok (if _ then _ else _))) _
  rw [associate_head]
  by_cases current : version ≠ kSOCKS5Version
  · rw [if_pos current, if_pos current]
    exact associate_fails relay request ledger (by simp) whole
  rw [if_neg current, if_neg current]
  by_cases declined : status ≠ 0x00
  · rw [if_pos declined, if_pos declined]
    exact associate_fails relay request ledger (by simp) whole
  rw [if_neg declined, if_neg declined]
  obtain rfl := not_not.mp current
  obtain rfl := not_not.mp declined
  by_cases ipv4 : addressType = kAddressTypeIPv4
  · rw [if_pos ipv4, if_pos ipv4]
    obtain rfl := ipv4
    exact ⟨.associate, wrote, [kSOCKS5Version, 0x00, reserved, kAddressTypeIPv4],
      .read request (.rest (.inl ⟨rfl, rfl⟩)) (by simp [kReplyPrefixSize]) rfl rfl rfl rank, ledger, by simp [Phase.size], whole⟩
  rw [if_neg ipv4, if_neg ipv4]
  by_cases ipv6 : addressType = kAddressTypeIPv6
  · rw [if_pos ipv6, if_pos ipv6]
    obtain rfl := ipv6
    exact ⟨.associate, wrote, [kSOCKS5Version, 0x00, reserved, kAddressTypeIPv6],
      .read request (.rest (.inr ⟨rfl, rfl⟩)) (by simp [kReplyPrefixSize]) rfl rfl rfl rank, ledger, by simp [Phase.size], whole⟩
  · rw [if_neg ipv6, if_neg ipv6]
    exact associate_fails relay request ledger (by simp) whole

theorem whole_heads {wrote address : Bytes} {reserved addressType high low : UInt8} {capacity offset size n : Nat}
    {data : Bytes} (relay : s.relay = none) (request : Phase.associate.request s = .ok wrote)
    (sized : addressType = kAddressTypeIPv4 ∧ size = 4 ∨ addressType = kAddressTypeIPv6 ∧ size = 16)
    (length : address.length = size)
    (ledger : a.Ledger .associate wrote ([kSOCKS5Version, 0x00, reserved, addressType] ++ (address ++ [high, low])))
    (whole : Phase.associate.before ++ ([kSOCKS5Version, 0x00, reserved, addressType] ++ (address ++ [high, low])) ++
      a.incoming = stream) :
    Heads peer s stream
      (a.resume (Socket.associateReply peer (posed s .none none (some ⟨capacity, offset, data⟩) (size + 2))
        ([kSOCKS5Version, 0x00, reserved, addressType] ++ (address ++ [high, low]))))
      (some (.ok (afterAssociate peer
        ([kSOCKS5Version, 0x00, reserved, addressType] ++ (address ++ [high, low]) ++ a.incoming)))) n := by
  have bound : ([kSOCKS5Version, 0x00, reserved, addressType] ++ (address ++ [high, low])).length ≤ 22 := by
    simp
    omega
  have named : afterAssociate peer
      ([kSOCKS5Version, 0x00, reserved, addressType] ++ (address ++ [high, low]) ++ a.incoming) =
      settleRelay peer address (high.toNat * 256 + low.toNat) a.incoming := by
    rw [← relayFrom_append, length, List.append_assoc]
    rcases sized with ⟨rfl, rfl⟩ | ⟨rfl, rfl⟩ <;> rfl
  show Heads _ _ _ (a.resume (Socket.associateWhole _ _ _)) _ _
  rw [named, associate_whole sized length]
  unfold settleRelay
  by_cases zero : isZero address = true
  · rw [if_pos zero, if_pos zero]
    cases peer with
    | ok peerAddress => exact ⟨.associate, wrote, _, .connects request rfl rfl rfl, ledger.keep rfl, bound, whole⟩
    | error rv => exact associate_fails relay request ledger bound whole
  · rw [if_neg zero, if_neg zero]
    exact ⟨.associate, wrote, _, .connects request rfl rfl rfl, ledger.keep rfl, bound, whole⟩

theorem reply_heads {φ : Phase} {wrote reply : Bytes} {remaining n : Nat} (relay : s.relay = none)
    (request : φ.request s = .ok wrote) (stage : Stage φ remaining reply.length reply) (ledger : a.Ledger φ wrote reply)
    (whole : φ.before ++ reply ++ a.incoming = stream) (rank : φ.reads s reply.length ≤ n) :
    Heads peer s stream
      (a.resume (φ.reply peer (posed s .none none (some ⟨reply.length, reply.length, reply⟩) remaining) reply))
      (some (φ.outcome peer s (reply ++ a.incoming))) n := by
  generalize size : reply.length = capacity at stage
  cases stage with
  | first =>
    cases φ with
    | greet =>
      obtain ⟨version, method, rfl⟩ := List.length_eq_two.mp size
      exact greet_heads relay request ledger whole rank
    | auth => exact auth_heads request ledger size whole
    | associate =>
      obtain ⟨version, status, reserved, addressType, rfl⟩ := List.length_eq_four.mp size
      exact prefix_heads relay request ledger whole rank
  | @rest reserved addressType length held sized =>
    have long : held.length = length + 2 := by
      simp [kReplyPrefixSize] at size
      omega
    obtain ⟨high, low, behind⟩ := List.length_eq_two.mp (show (held.drop length).length = 2 by simp [long])
    have split : held = held.take length ++ [high, low] := by rw [← behind, List.take_append_drop]
    have taken : (held.take length).length = length := by simp [long]
    generalize held.take length = address at split taken
    subst split
    exact whole_heads relay request sized taken ledger whole

end Replies

end Association

end Cronet.Socks
