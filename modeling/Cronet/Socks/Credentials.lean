import Cronet.Socks.Settling

namespace Cronet.Socks

open Cronet.Native (Bytes)

def decodeFrame : Bytes → Option (Bytes × Bytes)
  | version :: usernameLength :: rest =>
    match rest.drop usernameLength.toNat with
    | passwordLength :: password =>
      if version = kAuthSubnegotiationVersion ∧ password.length = passwordLength.toNat then
        some (rest.take usernameLength.toNat, password)
      else none
    | [] => none
  | _ => none

theorem uint8_toNat {n : Nat} {byte : UInt8} (narrowed : Checked.uint8 n = .ok byte) : byte.toNat = n := by
  unfold Checked.uint8 at narrowed
  split at narrowed
  · rename_i fits
    cases narrowed
    rw [UInt8.toNat_ofNat']
    exact Nat.mod_eq_of_lt fits
  · cases narrowed

theorem decodeFrame_authFrame {username password frame : Bytes} (encoded : authFrame username password = .ok frame) :
    decodeFrame frame = some (username, password) := by
  obtain ⟨usernameLength, first, encoded⟩ := Checked.bind_ok encoded
  obtain ⟨passwordLength, second, encoded⟩ := Checked.bind_ok encoded
  cases encoded
  have behind : (username ++ passwordLength :: password).drop usernameLength.toNat = passwordLength :: password := by
    rw [uint8_toNat first, List.drop_left]
  have before : (username ++ passwordLength :: password).take usernameLength.toNat = username := by
    rw [uint8_toNat first, List.take_left]
  show decodeFrame (kAuthSubnegotiationVersion :: usernameLength :: (username ++ [passwordLength] ++ password)) = _
  rw [List.append_assoc]
  simp [decodeFrame, behind, before, uint8_toNat second]

/-- What a client has come to as far as the credentials go: the bytes of them it has written, what has stopped the
    process, the code the handshake has ended with, whether it is still writing them, and whether the proxy has
    chosen them. -/
structure View where
  wrote : Bytes
  fault : Option Fault
  ended : Option Int
  writing : Bool
  asked : Bool

/-- Nothing is narrowed that does not fit, and the credentials go out as one frame or not at all. -/
structure View.Proper (username password : Bytes) (failed : Bool) (view : View) : Prop where
  narrows : view.fault ≠ some .narrowing
  framed : (view.wrote = [] ∧ ∀ rv, view.ended = some rv → view.asked = true → rv < 0) ∨
    ∃ frame, decodeFrame frame = some (username, password) ∧ view.wrote <+: frame ∧
      (failed = false → view.writing = false → view.wrote = frame)

namespace Association

def view (a : Association) : View where
  wrote := a.sent .authWriteComplete
  fault := match a.answer with
    | .aborted fault => some fault
    | _ => none
  ended := match a.answer with
    | .code rv => if a.socket.nextState = .none then some rv else none
    | _ => none
  writing := a.socket.nextState = .authWrite || a.socket.nextState = .authWriteComplete
  asked := a.received .greetReadComplete = [kSOCKS5Version, kAuthMethodUsernamePassword]

def Frames (peer : Except Int Bytes) (username password stream : Bytes) : Prop :=
  ∀ labels a, (machine peer).run (initial username password stream) labels = some a →
    (machine peer).Meets (fun a _ => a.settled = false) (initial username password stream) labels →
    a.view.Proper username password (labels.any AssociationLabel.fails)

def Narrows (username password stream : Bytes) : Prop :=
  username ≠ [] ∧ stream.take 2 = [kSOCKS5Version, kAuthMethodUsernamePassword] ∧
    (2 ^ 8 ≤ username.length ∨ 2 ^ 8 ≤ password.length)

section

variable {peer : Except Int Bytes} {s : Socket} {stream : Bytes} {a : Association} {φ : Phase} {wrote held : Bytes}
  {verdict : Option (Checked Outcome)} {n : Nat}

theorem Heading.part (heading : Heading peer s stream a verdict n φ wrote held) :
    wrote = [] ∨ ∃ data, φ.request s = .ok data ∧ wrote <+: data ∧
      (verdict ≠ none → a.socket.nextState ≠ φ.write → a.socket.nextState ≠ φ.writeComplete → wrote = data) := by
  cases heading.position with
  | refuse request socket answer => exact .inl rfl
  | write request left buf socket answer rank =>
    exact .inr ⟨_, request, List.take_prefix _ _, fun _ elsewhere _ =>
      absurd (congrArg Socket.nextState socket) elsewhere⟩
  | writing request left socket answer rank =>
    exact .inr ⟨_, request, List.take_prefix _ _, fun _ _ elsewhere =>
      absurd (congrArg Socket.nextState socket) elsewhere⟩
  | wrote request positive within socket answer rank =>
    exact .inr ⟨_, request, List.take_prefix _ _, fun _ _ elsewhere =>
      absurd (congrArg Socket.nextState socket) elsewhere⟩
  | read request stage short buf socket answer rank => exact .inr ⟨_, request, List.prefix_refl _, fun _ _ _ => rfl⟩
  | reading request stage short socket answer rank => exact .inr ⟨_, request, List.prefix_refl _, fun _ _ _ => rfl⟩
  | received request stage short within ended socket answer rank =>
    exact .inr ⟨_, request, List.prefix_refl _, fun _ _ _ => rfl⟩
  | connects request state found answer => exact .inr ⟨_, request, List.prefix_refl _, fun _ _ _ => rfl⟩
  | fails request cause state relay answer => exact .inr ⟨_, request, List.prefix_refl _, fun _ _ _ => rfl⟩
  | aborts framed answer =>
    rcases framed with none | request
    · exact .inl none
    · exact .inr ⟨_, request, List.prefix_refl _, fun _ _ _ => rfl⟩
  | breaks request part state relay negative answer => exact .inr ⟨_, request, part, fun running => absurd rfl running⟩
  | broken request part state relay negative answer => exact .inr ⟨_, request, part, fun running => absurd rfl running⟩

theorem Heading.stops {rv : Int} (heading : Heading peer s stream a verdict n φ wrote held)
    (state : a.socket.nextState = .none) (answer : a.answer = .code rv) : rv < 0 ∨ φ = .associate := by
  have elsewhere {place : State} (current : a.socket.nextState = place)
      (within : place = φ.write ∨ place = φ.writeComplete ∨ place = φ.read ∨ place = φ.readComplete) : False := by
    rw [state] at current
    rcases within with rfl | rfl | rfl | rfl
    all_goals cases φ <;> cases current
  cases heading.position with
  | connects request state found answer => exact .inr rfl
  | fails request cause state relay code =>
    cases code.symm.trans answer
    exact cause
  | broken request part state relay negative code =>
    cases code.symm.trans answer
    exact .inl negative
  | breaks request part state relay negative code =>
    cases code.symm.trans answer
    exact .inl negative
  | aborts framed aborted => cases aborted.symm.trans answer
  | writing request left socket awaits rank => cases awaits.symm.trans answer
  | reading request stage short socket awaits rank => cases awaits.symm.trans answer
  | refuse request socket code => exact (elsewhere (congrArg Socket.nextState socket) (.inl rfl)).elim
  | write request left buf socket code rank => exact (elsewhere (congrArg Socket.nextState socket) (.inl rfl)).elim
  | wrote request positive within socket code rank =>
    exact (elsewhere (congrArg Socket.nextState socket) (.inr (.inl rfl))).elim
  | read request stage short buf socket code rank =>
    exact (elsewhere (congrArg Socket.nextState socket) (.inr (.inr (.inl rfl)))).elim
  | received request stage short within ended socket code rank =>
    exact (elsewhere (congrArg Socket.nextState socket) (.inr (.inr (.inr rfl)))).elim

theorem Heading.framed {failed : Bool} {fate : Checked Outcome}
    (heading : Heading peer s stream a (if failed then none else some fate) n φ wrote held) :
    (a.view.wrote = [] ∧ ∀ rv, a.view.ended = some rv → a.view.asked = true → rv < 0) ∨
      ∃ frame, decodeFrame frame = some (s.username, s.password) ∧ a.view.wrote <+: frame ∧
        (failed = false → a.view.writing = false → a.view.wrote = frame) := by
  have stopped {rv : Int} (ended : a.view.ended = some rv) : rv < 0 ∨ φ = .associate := by
    simp only [view] at ended
    split at ended
    · rename_i rv answer
      obtain ⟨state, same⟩ := Option.ite_none_right_eq_some.mp ended
      cases same
      exact heading.stops state answer
    · cases ended
  cases φ with
  | greet =>
    obtain ⟨_, _, _, sent⟩ := heading.ledger
    exact .inl ⟨sent, fun rv ended _ => (stopped ended).resolve_right (by decide)⟩
  | associate =>
    obtain ⟨greet, _, _, sent⟩ := heading.ledger
    refine .inl ⟨sent, fun rv _ asked => ?_⟩
    simp only [view, decide_eq_true_eq, greet] at asked
    exact absurd asked (by decide)
  | auth =>
    obtain ⟨_, _, _, sent⟩ := heading.ledger
    rcases heading.part with nothing | ⟨frame, request, part, whole⟩
    · exact .inl ⟨sent.trans nothing, fun rv ended _ => (stopped ended).resolve_right (by decide)⟩
    · refine .inr ⟨frame, decodeFrame_authFrame request, by rwa [view, sent], fun running resting => ?_⟩
      simp only [view, Bool.or_eq_false_iff, decide_eq_false_iff_not] at resting
      exact sent.trans (whole (by simp [running]) resting.1 resting.2)

theorem afterGreet_narrows_iff :
    afterGreet peer s stream = .error .narrowing ↔ Narrows s.username s.password stream := by
  rw [afterGreet_error_iff, auth_breaks_iff]
  simp [Narrows]

end

/-- The client of the UDP association sends its credentials properly, unless they are asked for and do not fit. -/
theorem frames_iff {peer : Except Int Bytes} {username password stream : Bytes} :
    Frames peer username password stream ↔ ¬Narrows username password stream := by
  constructor
  · intro frames narrows
    have heads : Heads peer _ stream (initial username password stream) _ _ := initial_heads
    rw [afterGreet_narrows_iff.mpr narrows] at heads
    obtain ⟨labels, b, m, ran, met, _, settled, final⟩ := heads.reaches rfl
    rcases final.ended settled with ⟨_, same, _⟩ | ⟨fault, same, answer⟩ | ⟨_, same, _⟩
    · cases same
    · cases same
      exact (frames labels b ran met).narrows (by simp [view, answer])
    · cases same
  · intro fits labels a ran met
    obtain ⟨n, _, heads⟩ := run_heads ran met
    refine ⟨fun fault => ?_, ?_⟩
    · simp only [view] at fault
      split at fault
      · rename_i answer
        cases fault
        rcases heads.ended (by simp [settled, answer]) with ⟨_, _, reports⟩ | ⟨_, verdict, aborted⟩ | ⟨_, _, _, reports⟩
        · obtain ⟨rv, code⟩ := reports.answers
          cases code.symm.trans answer
        · cases aborted.symm.trans answer
          split at verdict
          · cases verdict
          · exact fits (afterGreet_narrows_iff.mp (Option.some.inj verdict))
        · obtain ⟨rv, code⟩ := reports.answers
          cases code.symm.trans answer
      · cases fault
    · obtain ⟨φ, wrote, held, heading⟩ := heads
      exact heading.framed

end Association

end Cronet.Socks
