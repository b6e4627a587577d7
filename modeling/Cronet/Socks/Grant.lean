import Cronet.Socks.Udp

namespace Cronet.Socks

open Cronet.Native (Bytes)

/-- How a handshake ends: with the relay and what the proxy sends behind its reply, or with an error. -/
abbrev Outcome := Except Int (IPEndPoint × Bytes)

inductive AssociateReply (peer : Except Int Bytes) : Bytes → IPEndPoint → Prop where
  | mk {reserved addressType high low : UInt8} {address named : Bytes}
      (sized : addressType = kAddressTypeIPv4 ∧ address.length = 4 ∨ addressType = kAddressTypeIPv6 ∧ address.length = 16)
      (names : if isZero address then peer = .ok named else named = address) :
      AssociateReply peer ([kSOCKS5Version, 0x00, reserved, addressType] ++ (address ++ [high, low]))
        ⟨named, high.toNat * 256 + low.toNat⟩

inductive Grants (credentials : Bool) (peer : Except Int Bytes) : Bytes → IPEndPoint → Bytes → Prop where
  | plain {reply rest : Bytes} {relay : IPEndPoint} (granted : AssociateReply peer reply relay) :
      Grants credentials peer ([kSOCKS5Version, kAuthMethodNone] ++ (reply ++ rest)) relay rest
  | authenticated {reply rest : Bytes} {relay : IPEndPoint} (held : credentials = true)
      (granted : AssociateReply peer reply relay) :
      Grants credentials peer ([kSOCKS5Version, kAuthMethodUsernamePassword] ++
        ([kAuthSubnegotiationVersion, 0x00] ++ (reply ++ rest))) relay rest

def settleRelay (peer : Except Int Bytes) (address : Bytes) (port : Nat) (rest : Bytes) : Outcome :=
  if isZero address then peer.map fun named => (⟨named, port⟩, rest) else .ok (⟨address, port⟩, rest)

def relayFrom (peer : Except Int Bytes) (size : Nat) (bytes : Bytes) : Outcome :=
  match bytes.drop size with
  | high :: low :: rest => settleRelay peer (bytes.take size) (high.toNat * 256 + low.toNat) rest
  | _ => .error ERR_SOCKS_CONNECTION_FAILED

def afterAssociate (peer : Except Int Bytes) : Bytes → Outcome
  | version :: status :: _ :: addressType :: bytes =>
    if version ≠ kSOCKS5Version then .error ERR_SOCKS_CONNECTION_FAILED
    else if status ≠ 0x00 then .error ERR_SOCKS_CONNECTION_FAILED
    else if addressType = kAddressTypeIPv4 then relayFrom peer 4 bytes
    else if addressType = kAddressTypeIPv6 then relayFrom peer 16 bytes
    else .error ERR_SOCKS_CONNECTION_FAILED
  | _ => .error ERR_SOCKS_CONNECTION_FAILED

def afterAuth : Bytes → Checked Outcome
  | _ :: _ :: _ => .error .released
  | _ => .ok (.error ERR_SOCKS_CONNECTION_FAILED)

def afterGreet (peer : Except Int Bytes) (s : Socket) : Bytes → Checked Outcome
  | version :: method :: bytes =>
    if version ≠ kSOCKS5Version then .ok (.error ERR_SOCKS_CONNECTION_FAILED)
    else if method = kAuthMethodUsernamePassword ∧ s.hasCredentials then s.authRequest >>= fun _ => afterAuth bytes
    else if method ≠ kAuthMethodNone then .ok (.error ERR_SOCKS_CONNECTION_FAILED)
    else .ok (afterAssociate peer bytes)
  | _ => .ok (.error ERR_SOCKS_CONNECTION_FAILED)

section

variable {peer : Except Int Bytes} {s : Socket}

theorem settleRelay_iff {address rest beyond : Bytes} {port : Nat} {relay : IPEndPoint} :
    settleRelay peer address port beyond = .ok (relay, rest) ↔
      ∃ named, (if isZero address then peer = .ok named else named = address) ∧ relay = ⟨named, port⟩ ∧ rest = beyond := by
  unfold settleRelay
  split
  · cases peer with
    | ok named =>
      constructor
      · intro same
        cases same
        exact ⟨named, rfl, rfl, rfl⟩
      · rintro ⟨_, same, rfl, rfl⟩
        cases same
        rfl
    | error rv =>
      constructor
      · intro same
        cases same
      · rintro ⟨_, same, _⟩
        cases same
  · constructor
    · intro same
      cases same
      exact ⟨address, rfl, rfl, rfl⟩
    · rintro ⟨_, rfl, rfl, rfl⟩
      rfl

theorem relayFrom_append {address rest : Bytes} {high low : UInt8} :
    relayFrom peer address.length (address ++ [high, low] ++ rest) =
      settleRelay peer address (high.toNat * 256 + low.toNat) rest := by
  unfold relayFrom
  rw [List.append_assoc, List.drop_left, List.take_left]
  rfl

theorem relayFrom_iff {size : Nat} {bytes rest : Bytes} {relay : IPEndPoint} :
    relayFrom peer size bytes = .ok (relay, rest) ↔
      ∃ address high low beyond, address.length = size ∧ bytes = address ++ [high, low] ++ beyond ∧
        settleRelay peer address (high.toNat * 256 + low.toNat) beyond = .ok (relay, rest) := by
  constructor
  · intro found
    unfold relayFrom at found
    split at found
    · rename_i high low beyond behind
      have long : size ≤ bytes.length := by
        by_contra short
        rw [List.drop_eq_nil_of_le (by omega)] at behind
        cases behind
      refine ⟨bytes.take size, high, low, beyond, by simp [long], ?_, found⟩
      rw [List.append_assoc]
      show bytes = bytes.take size ++ (high :: low :: beyond)
      rw [← behind, List.take_append_drop]
    · cases found
  · rintro ⟨address, high, low, beyond, rfl, rfl, settled⟩
    rw [relayFrom_append]
    exact settled

theorem afterAssociate_iff {bytes rest : Bytes} {relay : IPEndPoint} :
    afterAssociate peer bytes = .ok (relay, rest) ↔
      ∃ reply, AssociateReply peer reply relay ∧ bytes = reply ++ rest := by
  constructor
  · intro found
    unfold afterAssociate at found
    split at found
    · rename_i version status reserved addressType bytes
      have sized {size : Nat}
          (known : addressType = kAddressTypeIPv4 ∧ size = 4 ∨ addressType = kAddressTypeIPv6 ∧ size = 16)
          (current : ¬version ≠ kSOCKS5Version) (success : ¬status ≠ 0x00)
          (read : relayFrom peer size bytes = .ok (relay, rest)) :
          ∃ reply, AssociateReply peer reply relay ∧ version :: status :: reserved :: addressType :: bytes = reply ++ rest := by
        obtain ⟨address, high, low, beyond, rfl, rfl, settled⟩ := relayFrom_iff.mp read
        obtain ⟨named, names, rfl, rfl⟩ := settleRelay_iff.mp settled
        rw [not_not.mp current, not_not.mp success]
        exact ⟨[kSOCKS5Version, 0x00, reserved, addressType] ++ (address ++ [high, low]), .mk known names, by simp⟩
      split at found
      · cases found
      rename_i current
      split at found
      · cases found
      rename_i success
      split at found
      · rename_i ipv4
        exact sized (.inl ⟨ipv4, rfl⟩) current success found
      split at found
      · rename_i ipv6
        exact sized (.inr ⟨ipv6, rfl⟩) current success found
      · cases found
    · cases found
  · rintro ⟨reply, ⟨sized, names⟩, rfl⟩
    rename_i reserved addressType high low address named
    have read : relayFrom peer address.length (address ++ [high, low] ++ rest) =
        .ok (⟨named, high.toNat * 256 + low.toNat⟩, rest) :=
      relayFrom_append.trans (settleRelay_iff.mpr ⟨named, names, rfl, rfl⟩)
    rcases sized with ⟨rfl, length⟩ | ⟨rfl, length⟩
    all_goals
      rw [length] at read
      exact read

theorem authFrame_length {username password frame : Bytes} (encoded : authFrame username password = .ok frame) :
    frame.length = 3 + (username.length + password.length) := by
  obtain ⟨usernameLength, _, encoded⟩ := Checked.bind_ok encoded
  obtain ⟨passwordLength, _, encoded⟩ := Checked.bind_ok encoded
  cases encoded
  simp
  omega

theorem authFrame_iff {username password : Bytes} :
    (∃ frame, authFrame username password = .ok frame) ↔ username.length < 2 ^ 8 ∧ password.length < 2 ^ 8 := by
  unfold authFrame Checked.uint8
  by_cases usernameFits : username.length < 2 ^ 8
  · by_cases passwordFits : password.length < 2 ^ 8
    · rw [if_pos usernameFits, if_pos passwordFits]
      exact iff_of_true ⟨_, rfl⟩ ⟨usernameFits, passwordFits⟩
    · rw [if_pos usernameFits, if_neg passwordFits]
      refine iff_of_false ?_ fun both => passwordFits both.2
      rintro ⟨frame, encoded⟩
      cases encoded
  · rw [if_neg usernameFits]
    refine iff_of_false ?_ fun both => usernameFits both.1
    rintro ⟨frame, encoded⟩
    cases encoded

theorem afterGreet_grants {stream rest : Bytes} {relay : IPEndPoint} {outcome : Outcome}
    (verdict : afterGreet peer s stream = .ok outcome) :
    outcome = .ok (relay, rest) ↔ Grants s.hasCredentials peer stream relay rest := by
  constructor
  · rintro rfl
    unfold afterGreet at verdict
    split at verdict
    · rename_i version method bytes
      split at verdict
      · cases verdict
      rename_i current
      obtain rfl := not_not.mp current
      split at verdict
      · obtain ⟨data, _, verdict⟩ := Checked.bind_ok verdict
        unfold afterAuth at verdict
        split at verdict <;> cases verdict
      split at verdict
      · cases verdict
      rename_i plain
      obtain rfl := not_not.mp plain
      obtain ⟨reply, granted, rfl⟩ := afterAssociate_iff.mp (Except.ok.inj verdict)
      exact .plain granted
    · cases verdict
  · intro grants
    cases grants with
    | plain granted =>
      rw [← Except.ok.inj verdict]
      exact afterAssociate_iff.mpr ⟨_, granted, rfl⟩
    | authenticated held granted =>
      have asked : (s.authRequest >>= fun _ => Except.error Fault.released) = .ok outcome := by
        rw [← verdict]
        exact (if_pos ⟨rfl, held⟩).symm
      obtain ⟨_, _, impossible⟩ := Checked.bind_ok asked
      cases impossible

/-- The errors of a handshake: negative, or what asking for the peer's address has come to. -/
def Refusal (peer : Except Int Bytes) (rv : Int) : Prop := rv < 0 ∨ peer = .error rv

theorem refusal_failed : Refusal peer ERR_SOCKS_CONNECTION_FAILED := .inl (by decide)

theorem settleRelay_refuses {address rest : Bytes} {port : Nat} {rv : Int}
    (failed : settleRelay peer address port rest = .error rv) : Refusal peer rv := by
  unfold settleRelay at failed
  split at failed
  · cases peer with
    | ok named => cases failed
    | error code =>
      cases failed
      exact .inr rfl
  · cases failed

theorem relayFrom_refuses {size : Nat} {bytes : Bytes} {rv : Int} (failed : relayFrom peer size bytes = .error rv) :
    Refusal peer rv := by
  unfold relayFrom at failed
  split at failed
  · exact settleRelay_refuses failed
  · cases failed
    exact refusal_failed

theorem afterAssociate_refuses {bytes : Bytes} {rv : Int} (failed : afterAssociate peer bytes = .error rv) :
    Refusal peer rv := by
  unfold afterAssociate at failed
  split at failed
  · split at failed
    · cases failed
      exact refusal_failed
    split at failed
    · cases failed
      exact refusal_failed
    split at failed
    · exact relayFrom_refuses failed
    split at failed
    · exact relayFrom_refuses failed
    · cases failed
      exact refusal_failed
  · cases failed
    exact refusal_failed

theorem afterAuth_refuses {bytes : Bytes} {rv : Int} (failed : afterAuth bytes = .ok (.error rv)) : Refusal peer rv := by
  unfold afterAuth at failed
  split at failed
  · cases failed
  · cases failed
    exact refusal_failed

theorem afterGreet_refuses {stream : Bytes} {rv : Int} (failed : afterGreet peer s stream = .ok (.error rv)) :
    Refusal peer rv := by
  unfold afterGreet at failed
  split at failed
  · split at failed
    · cases failed
      exact refusal_failed
    split at failed
    · obtain ⟨_, _, failed⟩ := Checked.bind_ok failed
      exact afterAuth_refuses failed
    split at failed
    · cases failed
      exact refusal_failed
    · exact afterAssociate_refuses (Except.ok.inj failed)
  · cases failed
    exact refusal_failed

/-- The defect: with credentials at hand, the proxy asks for them, and they cannot be encoded or
    the reply to them arrives. -/
def AuthBreaks (username password stream : Bytes) : Prop :=
  username ≠ [] ∧ stream.take 2 = [kSOCKS5Version, kAuthMethodUsernamePassword] ∧
    (2 ^ 8 ≤ username.length ∨ 2 ^ 8 ≤ password.length ∨ 4 ≤ stream.length)

instance (username password stream : Bytes) : Decidable (AuthBreaks username password stream) :=
  inferInstanceAs (Decidable (_ ∧ _ ∧ _))

theorem afterAuth_breaks_iff {bytes : Bytes} {fault : Fault} :
    afterAuth bytes = .error fault ↔ fault = .released ∧ 2 ≤ bytes.length := by
  rcases bytes with _ | ⟨version, _ | ⟨status, bytes⟩⟩
  · simp [afterAuth]
  · simp [afterAuth]
  · simp [afterAuth, eq_comm]

theorem authFrame_error {username password : Bytes} {fault : Fault} (failed : authFrame username password = .error fault) :
    fault = .narrowing := by
  unfold authFrame Checked.uint8 at failed
  by_cases usernameFits : username.length < 2 ^ 8
  · by_cases passwordFits : password.length < 2 ^ 8
    · rw [if_pos usernameFits, if_pos passwordFits] at failed
      cases failed
    · rw [if_pos usernameFits, if_neg passwordFits] at failed
      cases failed
      rfl
  · rw [if_neg usernameFits] at failed
    cases failed
    rfl

theorem auth_breaks_iff {bytes : Bytes} {fault : Fault} :
    (s.authRequest >>= fun _ => afterAuth bytes) = .error fault ↔
      (2 ^ 8 ≤ s.username.length ∨ 2 ^ 8 ≤ s.password.length) ∧ fault = .narrowing ∨
      (s.username.length < 2 ^ 8 ∧ s.password.length < 2 ^ 8) ∧ fault = .released ∧ 2 ≤ bytes.length := by
  have encodes : (∃ frame, authFrame s.username s.password = .ok frame) ↔ _ := authFrame_iff
  unfold Socket.authRequest
  cases encoded : authFrame s.username s.password with
  | ok frame =>
    have fits := encodes.mp ⟨frame, encoded⟩
    show afterAuth bytes = .error fault ↔ _
    rw [afterAuth_breaks_iff]
    constructor
    · exact fun broken => .inr ⟨fits, broken⟩
    · rintro (⟨wide, _⟩ | ⟨_, broken⟩)
      · omega
      · exact broken
  | error refused =>
    obtain rfl := authFrame_error encoded
    have wide : ¬(s.username.length < 2 ^ 8 ∧ s.password.length < 2 ^ 8) := by
      intro fits
      obtain ⟨frame, ok⟩ := encodes.mpr fits
      rw [encoded] at ok
      cases ok
    constructor
    · intro same
      cases same
      exact .inl ⟨by omega, rfl⟩
    · rintro (⟨_, rfl⟩ | ⟨fits, _⟩)
      · rfl
      · exact absurd fits wide

theorem afterGreet_error_iff {stream : Bytes} {fault : Fault} :
    afterGreet peer s stream = .error fault ↔
      s.username ≠ [] ∧ stream.take 2 = [kSOCKS5Version, kAuthMethodUsernamePassword] ∧
        (s.authRequest >>= fun _ => afterAuth (stream.drop 2)) = .error fault := by
  have credentials : s.hasCredentials = true ↔ s.username ≠ [] := by simp [Socket.hasCredentials]
  rcases stream with _ | ⟨version, _ | ⟨method, bytes⟩⟩
  · simp [afterGreet]
  · simp [afterGreet]
  simp only [afterGreet]
  by_cases current : version ≠ kSOCKS5Version
  · rw [if_pos current]
    simp [current]
  rw [if_neg current]
  by_cases chosen : method = kAuthMethodUsernamePassword ∧ s.hasCredentials = true
  · rw [if_pos chosen]
    obtain ⟨rfl, held⟩ := chosen
    simp [credentials.mp held, not_not.mp current]
  · rw [if_neg chosen]
    apply iff_of_false
    · intro failed
      split at failed <;> cases failed
    · rintro ⟨held, chooses, _⟩
      simp only [List.take_succ_cons, List.take_zero, List.cons.injEq, and_true] at chooses
      exact chosen ⟨chooses.2, credentials.mpr held⟩

theorem afterGreet_breaks_iff {stream : Bytes} :
    (∃ fault, afterGreet peer s stream = .error fault) ↔ AuthBreaks s.username s.password stream := by
  have length : 2 ≤ (stream.drop 2).length ↔ 4 ≤ stream.length := by
    rw [List.length_drop]
    omega
  simp only [afterGreet_error_iff, auth_breaks_iff, AuthBreaks, length]
  constructor
  · rintro ⟨fault, held, chosen, wide | ⟨_, _, long⟩⟩
    · exact ⟨held, chosen, by omega⟩
    · exact ⟨held, chosen, by omega⟩
  · rintro ⟨held, chosen, breaks⟩
    by_cases wide : 2 ^ 8 ≤ s.username.length ∨ 2 ^ 8 ≤ s.password.length
    · exact ⟨.narrowing, held, chosen, .inl ⟨wide, rfl⟩⟩
    · exact ⟨.released, held, chosen, .inr ⟨by omega, rfl, by omega⟩⟩

end

end Cronet.Socks
