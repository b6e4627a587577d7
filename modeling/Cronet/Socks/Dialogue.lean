import Cronet.Socks.Serving

namespace Cronet.Socks.Tcp

open Cronet.Native (Bytes)
open Cronet.Socks.Server (Config Handler decode)

def State.completes : State → Bool
  | greetWriteComplete | greetReadComplete | authWriteComplete | authReadComplete => true
  | _ => false

namespace Exchange

def past (s : Socket) : Exchange → Bytes
  | greet => []
  | auth => s.greeting

def said (s : Socket) : Exchange → Bytes
  | greet => s.greeting
  | auth => s.greeting ++ s.frame

theorem past_request {s : Socket} {φ : Exchange} {wrote : Bytes} (request : φ.request s = .ok wrote) (fits : s.Fits) :
    φ.past s ++ wrote = φ.said s := by
  cases φ with
  | greet => exact (Except.ok.inj request).symm
  | auth => exact congrArg (s.greeting ++ ·) (Except.ok.inj (request.symm.trans (Socket.authFrame_frame fits)))

end Exchange

namespace Connection

/-- The transport has ended, and `DoLoop` is about to see it. -/
def Broken (c : Connection) : Prop := c.socket.nextState.completes = true ∧ ∃ rv ≤ 0, c.answer = .code rv

def written (c : Connection) : Bytes := c.greeted ++ c.credentials

section

variable {upstream : Upstream} {s : Socket} {c d : Connection} {label : Label} {φ : Exchange}
  {heard wrote held data : Bytes} {n : Nat} {rv : Int}

theorem placed_state {state : State} {writeBuf : Option DrainableIOBuffer} {readBuf : Option GrowableIOBuffer}
    (socket : c.socket = s.placed state writeBuf readBuf) : c.socket.nextState = state := by
  rw [socket]
  rfl

theorem step_wrote {bytes : Bytes} (answer : c.answer = .awaits (.write bytes)) (sound : label.fails = false)
    (stepped : step upstream c label = some d) : ∃ count, label = .wrote count ∧ 0 < count ∧ count ≤ bytes.length ∧
      d = { c with answer := .code count, sent := c.sent ++ [(c.socket.nextState, bytes.take count)] } := by
  cases label with
  | wrote count =>
    simp only [step, answer, Option.ite_none_right_eq_some, Option.some.injEq] at stepped
    exact ⟨count, rfl, stepped.1.1, stepped.1.2, stepped.2.symm⟩
  | failed rv => cases sound
  | _ => simp [step, answer] at stepped

theorem step_received {capacity : Nat} (answer : c.answer = .awaits (.read capacity)) (sound : label.fails = false)
    (stepped : step upstream c label = some d) : ∃ bytes, label = .received bytes ∧
      d = { c with answer := .code bytes.length, socket.readBuf := c.socket.readBuf.map (·.store bytes) } := by
  cases label with
  | received bytes =>
    simp only [step, answer, Option.ite_none_right_eq_some, Option.some.injEq] at stepped
    exact ⟨bytes, rfl, stepped.2.symm⟩
  | failed rv => cases sound
  | _ => simp [step, answer] at stepped

def Unfit (s : Socket) (φ : Exchange) (held : Bytes) : Prop :=
  held.length = 2 ∧ (φ = .greet → held = [kSOCKS5Version, kAuthMethodUsernamePassword] → s.hasCredentials = false)

structure Ends (s : Socket) (label : Label) (φ : Exchange) (held : Bytes) (c d : Connection) : Prop where
  broken : d.Broken → label = .received []
  ended : d.socket.nextState = .none → label.bytes = [] ∧ (¬s.Fits ∨ c.Broken ∨ Unfit s φ held)

theorem Ends.elsewhere (state : d.socket.nextState.completes = false) (going : d.socket.nextState ≠ .none) :
    Ends s label φ held c d where
  broken broken := absurd broken.1 (by rw [state]; decide)
  ended ended := absurd ended going

theorem Ends.goes {ψ : Exchange} (state : d.socket.nextState = ψ.write ∨ d.socket.nextState = ψ.read) :
    Ends s label φ held c d := by
  rcases state with state | state
  all_goals
    apply Ends.elsewhere
    · rw [state]
      cases ψ <;> rfl
    · rw [state]
      cases ψ <;> nofun

theorem Ends.waits {request : Request} (answer : d.answer = .awaits request) (going : d.socket.nextState ≠ .none) :
    Ends s label φ held c d where
  broken broken := by
    rcases broken with ⟨_, rv, _, code⟩
    cases answer.symm.trans code
  ended ended := absurd ended going

theorem Ends.spent (silent : label.bytes = []) (state : d.socket.nextState = .none)
    (reason : ¬s.Fits ∨ c.Broken ∨ Unfit s φ held) : Ends s label φ held c d where
  broken broken := by
    rw [Broken, state] at broken
    cases broken.1
  ended _ := ⟨silent, reason⟩

theorem Heading.received_ends {chunk : Bytes} (alike : upstream.Alike) (within : held.length + chunk.length ≤ 2)
    (socket : c.socket = s.placed φ.readComplete none (some ⟨2, held.length, held ++ chunk⟩))
    (answer : c.answer = .code chunk.length) (stepped : step upstream c label = some d) :
    Ends s label φ (held ++ chunk) c d := by
  obtain ⟨silent, _, rfl⟩ := step_code answer stepped
  rcases Nat.eq_zero_or_pos chunk.length with empty | arrived
  · rcases List.length_eq_zero_iff.mp empty with rfl
    have broken : c.Broken := by
      apply And.intro
      · rw [placed_state socket]
        cases φ <;> rfl
      · exact ⟨0, Int.le_refl 0, answer⟩
    rw [socket, show ((List.length ([] : Bytes) : Nat) : Int) = 0 from rfl, closed_turn alike]
    exact .spent silent rfl (.inr (.inl broken))
  rcases Nat.lt_or_ge (held ++ chunk).length 2 with part | full
  · rw [socket, short_turn alike arrived part]
    exact .goes (ψ := φ) (.inr rfl)
  · have length : (held ++ chunk).length = 2 := by
      rw [List.length_append] at full ⊢
      omega
    obtain ⟨version, reply, whole⟩ := List.length_eq_two.mp length
    cases φ with
    | greet =>
      have spent {t : Socket} {answer : Answer} {method : Option UInt8} (state : t.nextState = .none)
          (unfit : [version, reply] = [kSOCKS5Version, kAuthMethodUsernamePassword] → s.hasCredentials = false) :
          Ends s label .greet (held ++ chunk) c (c.resume method (.ok (t, answer))) :=
        .spent silent state (.inr (.inr ⟨length, fun _ => whole ▸ unfit⟩))
      rw [socket, show Exchange.greet.readComplete = .greetReadComplete from rfl, greeted_turn alike arrived whole]
      split
      next other =>
        apply spent rfl
        intro chosen
        exact absurd (List.cons.inj chosen).1 other
      split
      next refused =>
        apply spent rfl
        intro chosen
        have method := (List.cons.inj (List.cons.inj chosen).2).1
        by_contra held
        exact refused.2 ⟨method, Bool.of_not_eq_false held⟩
      split
      · exact .elsewhere rfl nofun
      · exact .elsewhere rfl nofun
    | auth =>
      have spent {t : Socket} {answer : Answer} {method : Option UInt8} (state : t.nextState = .none) :
          Ends s label .auth (held ++ chunk) c (c.resume method (.ok (t, answer))) :=
        .spent silent state (.inr (.inr ⟨length, nofun⟩))
      rw [socket, show Exchange.auth.readComplete = .authReadComplete from rfl, authed_turn arrived whole]
      split
      · exact spent rfl
      split
      · exact spent rfl
      · exact .elsewhere rfl nofun

theorem Heading.ends (alike : upstream.Alike) (heading : Heading s heard c n φ wrote held) (unsettled : c.settled = false)
    (sound : label.fails = false) (stepped : step upstream c label = some d) : Ends s label φ held c d := by
  cases heading.position with
  | write past request left buf socket answer rank =>
    obtain ⟨silent, _, rfl⟩ := step_code answer stepped
    by_cases fits : s.Fits
    · rw [socket, write_turn fits request buf]
      apply Ends.waits rfl
      cases φ <;> nofun
    · cases φ with
      | auth => exact absurd (past rfl) fits
      | greet =>
        rw [socket, show Exchange.greet.write = .greetWrite from rfl, write_turn_refused fits]
        exact .spent silent rfl (.inl fits)
  | writing fits request left socket answer rank =>
    rcases step_wrote answer sound stepped with ⟨count, _, positive, _, rfl⟩
    apply Ends.mk
    · intro broken
      rcases broken with ⟨_, rv, nonpositive, code⟩
      have same : (count : Int) = rv := Answer.code.inj code
      omega
    · intro ended
      have state : φ.writeComplete = .none := (placed_state socket).symm.trans ended
      cases φ <;> cases state
  | wrote fits request positive within socket answer rank =>
    obtain ⟨_, _, rfl⟩ := step_code answer stepped
    rw [socket, wrote_turn alike]
    split
    · exact .goes (.inr rfl)
    · exact .goes (.inl rfl)
  | read fits request short buf socket answer rank =>
    obtain ⟨_, _, rfl⟩ := step_code answer stepped
    rw [socket, read_turn alike]
    apply Ends.waits rfl
    cases φ <;> nofun
  | reading fits request short socket answer rank =>
    rcases step_received answer sound stepped with ⟨bytes, rfl, rfl⟩
    apply Ends.mk
    · intro broken
      rcases broken with ⟨_, rv, nonpositive, code⟩
      have same : (bytes.length : Int) = rv := Answer.code.inj code
      have empty : bytes.length = 0 := by omega
      rw [List.length_eq_zero_iff.mp empty]
    · intro ended
      have state : φ.readComplete = .none := (placed_state socket).symm.trans ended
      cases φ <;> cases state
  | received fits request short within socket answer rank =>
    exact Heading.received_ends alike within socket answer stepped
  | breaks short state negative answer =>
    obtain ⟨silent, _, rfl⟩ := step_code answer stepped
    rw [failed_turn alike negative state]
    apply Ends.spent silent rfl
    apply Or.inr
    apply Or.inl
    apply And.intro
    · rcases state with state | state <;> rw [state] <;> cases φ <;> rfl
    · exact ⟨_, Int.le_of_lt negative, answer⟩
  | passes state answer chosen => simp [settled, answer, state] at unsettled
  | ends state negative answer refused => simp [settled, answer, state] at unsettled

/-- What has been written is part of the greeting and of the frame that follows it. -/
structure Said (s : Socket) (c : Connection) : Prop where
  greeted : c.greeted <+: s.greeting
  credentials : c.credentials <+: s.frame
  fits : c.written ≠ [] → s.Fits

theorem Ledger.written (ledger : c.Ledger s φ wrote) : c.written = φ.past s ++ wrote := by
  unfold Connection.written
  cases φ with
  | greet => exact (congrArg₂ (· ++ ·) ledger.1 ledger.2).trans (List.append_nil _)
  | auth => exact congrArg₂ (· ++ ·) ledger.1 ledger.2.2

theorem Ledger.said {consumed : Nat} (ledger : c.Ledger s φ (data.take consumed)) (request : φ.request s = .ok data)
    (fits : s.Fits) : Said s c := by
  cases φ with
  | greet =>
    rcases ledger with ⟨greeted, credentials⟩
    rcases request
    exact ⟨greeted ▸ List.take_prefix _ _, credentials ▸ List.nil_prefix, fun _ => fits⟩
  | auth =>
    rcases ledger with ⟨greeted, _, credentials⟩
    have whole : data = s.frame := Except.ok.inj (request.symm.trans (Socket.authFrame_frame fits))
    rw [whole] at credentials
    exact ⟨greeted ▸ List.prefix_refl _, credentials ▸ List.take_prefix _ _, fun _ => fits⟩

theorem Said.keep (said : Said s c) (sent : d.sent = c.sent) : Said s d ∧ d.written = c.written := by
  have greeted : d.greeted = c.greeted := by rw [Connection.greeted, sent, Connection.greeted]
  have credentials : d.credentials = c.credentials := by rw [Connection.credentials, sent, Connection.credentials]
  have written : d.written = c.written := by rw [Connection.written, greeted, credentials, Connection.written]
  exact ⟨⟨greeted ▸ said.greeted, credentials ▸ said.credentials, written ▸ said.fits⟩, written⟩

theorem resume_sent {method : Option UInt8} {turned : Checked (Socket × Answer)} :
    (c.resume method turned).sent = c.sent := by
  cases turned <;> rfl

theorem Heading.writing_says {consumed count : Nat} (fits : s.Fits) (request : φ.request s = .ok data)
    (socket : c.socket = s.placed φ.writeComplete (some ⟨data, consumed⟩) none)
    (answer : c.answer = .awaits (.write (data.drop consumed))) (heading : Heading s heard c n φ (data.take consumed) [])
    (stepped : step upstream c (.wrote count) = some d) :
    Said s d ∧ d.written = c.written ++ Dialogue.puts c (.wrote count) := by
  obtain ⟨_, same, _, _, rfl⟩ := step_wrote answer rfl stepped
  cases same
  have part : data.take consumed ++ (data.drop consumed).take count = data.take (consumed + count) := List.take_add.symm
  have ledger : Ledger s { c with
      answer := .code count
      sent := c.sent ++ [(c.socket.nextState, (data.drop consumed).take count)] } φ (data.take (consumed + count)) := by
    rw [← part, placed_state socket]
    exact heading.ledger.sends rfl
  have puts : Dialogue.puts c (.wrote count) = (data.drop consumed).take count := by
    rw [Dialogue.puts, answer]
  apply And.intro (ledger.said request fits)
  rw [ledger.written, heading.ledger.written, puts, List.append_assoc, part]

theorem Heading.says (heading : Heading s heard c n φ wrote held) (said : Said s c)
    (stepped : step upstream c label = some d) : Said s d ∧ d.written = c.written ++ Dialogue.puts c label := by
  have silent (sent : d.sent = c.sent) : Said s d ∧ d.written = c.written ++ [] := by
    rw [List.append_nil]
    exact said.keep sent
  cases label with
  | turn =>
    cases answer : c.answer with
    | code rv =>
      obtain ⟨_, _, rfl⟩ := step_code answer stepped
      exact silent resume_sent
    | _ => simp [step, answer] at stepped
  | received bytes =>
    cases answer : c.answer with
    | awaits request =>
      cases request <;> simp [step, answer] at stepped
      rcases stepped with ⟨_, rfl⟩
      exact silent rfl
    | _ => simp [step, answer] at stepped
  | failed rv =>
    cases answer : c.answer <;> simp [step, answer] at stepped
    rcases stepped with ⟨_, rfl⟩
    exact silent rfl
  | wrote count =>
    cases heading.position with
    | writing fits request left socket answer rank => exact heading.writing_says fits request socket answer stepped
    | write past request left buf socket answer rank => simp [step, answer] at stepped
    | wrote fits request positive within socket answer rank => simp [step, answer] at stepped
    | read fits request short buf socket answer rank => simp [step, answer] at stepped
    | reading fits request short socket answer rank => simp [step, answer] at stepped
    | received fits request short within socket answer rank => simp [step, answer] at stepped
    | breaks short state negative answer => simp [step, answer] at stepped
    | passes state answer chosen => simp [step, answer] at stepped
    | ends state negative answer refused => simp [step, answer] at stepped

theorem Heads.spent (heads : Heads s heard c n) (spent : c.socket.nextState = .none) : ¬Chooses s.username heard := by
  obtain ⟨φ, wrote, held, position, ledger, rfl⟩ := heads
  have elsewhere {state : State} (there : c.socket.nextState = state) (going : state ≠ .none) : False :=
    going (there.symm.trans spent)
  cases position with
  | ends state negative answer refused => exact refused
  | passes state answer chosen => exact (elsewhere state nofun).elim
  | breaks short state negative answer =>
    rcases state with state | state
    all_goals exact (elsewhere state (by cases φ <;> nofun)).elim
  | write past request left buf socket answer rank => exact (elsewhere (placed_state socket) (by cases φ <;> nofun)).elim
  | writing fits request left socket answer rank => exact (elsewhere (placed_state socket) (by cases φ <;> nofun)).elim
  | wrote fits request positive within socket answer rank =>
    exact (elsewhere (placed_state socket) (by cases φ <;> nofun)).elim
  | read fits request short buf socket answer rank => exact (elsewhere (placed_state socket) (by cases φ <;> nofun)).elim
  | reading fits request short socket answer rank => exact (elsewhere (placed_state socket) (by cases φ <;> nofun)).elim
  | received fits request short within socket answer rank =>
    exact (elsewhere (placed_state socket) (by cases φ <;> nofun)).elim

theorem Heads.whole (heads : Heads s heard c n) (said : Said s c) : c.written <+: s.greeting ++ s.frame := by
  obtain ⟨φ, wrote, held, heading⟩ := heads
  have ledger := heading.ledger
  unfold Connection.written
  cases φ with
  | greet =>
    rw [ledger.2, List.append_nil]
    exact said.greeted.trans (List.prefix_append _ _)
  | auth =>
    rw [ledger.1]
    exact (List.prefix_append_right_inj s.greeting).mpr said.credentials

end

end Connection

section Judging

variable {cfg : Config} {s : Socket} {taken sent held more : Bytes} {handler : Handler} {φ : Exchange}

theorem Served.refuses (served : Served cfg s taken sent handler) (heard : sent = φ.before ++ held ++ more)
    (unfit : Connection.Unfit s φ held) (refused : ¬Chooses s.username (φ.before ++ held)) :
    handler.stage.refuses = true ∨ handler.stage = .hungUp := by
  obtain ⟨length, asked⟩ := unfit
  obtain ⟨first, second, rfl⟩ := List.length_eq_two.mp length
  have begun (held : s.hasCredentials = true) (more' : Bytes)
      (start : [kSOCKS5Version, kAuthMethodUsernamePassword] ++ more' = φ.before ++ [first, second] ++ more) :
      φ = .auth ∧ more' = [first, second] ++ more := by
    cases φ with
    | greet =>
      simp only [Exchange.before, List.nil_append, List.cons_append, List.cons.injEq] at start
      rw [start.1, start.2.1] at asked
      rw [asked rfl rfl] at held
      cases held
    | auth => exact ⟨rfl, List.append_cancel_left (start.trans (List.append_assoc _ _ _))⟩
  cases served with
  | waits waits part =>
    cases waits with
    | head => cases φ <;> cases heard
    | methods => cases φ <;> cases heard
    | version asks held => cases (begun held [] heard).2
    | usernameLength asks held => cases (begun held [] heard).2
    | username asks held => cases (begun held [] heard).2
    | passwordLength asks held decoded => cases (begun held [] heard).2
    | password asks held decoded => cases (begun held [] heard).2
  | unacceptable asks without => exact .inl rfl
  | plain free =>
    cases φ with
    | greet =>
      simp only [Exchange.before, List.nil_append, List.cons_append, List.cons.injEq] at heard
      rw [← heard.1, ← heard.2.1] at refused
      exact absurd (.inl rfl) refused
    | auth => cases heard
  | granted asks held username password =>
    obtain ⟨rfl, same⟩ := begun held [kAuthSubnegotiationVersion, 0x00] heard
    simp only [List.cons_append, List.cons.injEq] at same
    rw [← same.1, ← same.2.1] at refused
    exact absurd (.inr ⟨(hasCredentials_iff s).mp held, rfl⟩) refused
  | denied asks held decoded decoded' other => exact .inl rfl
  | undecoded asks held undecoded => exact .inl rfl
  | hungUp => exact .inr rfl

/-- A client that may go on has heard all there is to hear, from a proxy that has heard all it asks for. -/
theorem Served.begins (served : Served cfg s taken (sent ++ more) handler) (chosen : Chooses s.username sent)
    (stays : handler.stage ≠ .hungUp) : handler.stage = .greeted true ∧ more = [] ∧
      (sent = [kSOCKS5Version, kAuthMethodNone] ∧ taken = s.greeting ∨
        sent = [kSOCKS5Version, kAuthMethodUsernamePassword, kAuthSubnegotiationVersion, 0x00] ∧
          taken = s.greeting ++ s.frame) := by
  generalize all : sent ++ more = whole at served
  cases served with
  | waits waits part =>
    rcases chosen with rfl | ⟨_, rfl⟩ <;> cases waits <;> cases all
  | unacceptable asks without =>
    rcases chosen with rfl | ⟨_, rfl⟩ <;> cases all
  | plain free =>
    rcases chosen with rfl | ⟨_, rfl⟩
    · exact ⟨rfl, List.append_cancel_left (all.trans (List.append_nil _).symm), .inl ⟨rfl, rfl⟩⟩
    · cases all
  | granted asks held username password =>
    rcases chosen with rfl | ⟨_, rfl⟩
    · cases all
    · exact ⟨rfl, List.append_cancel_left (all.trans (List.append_nil _).symm), .inr ⟨rfl, rfl⟩⟩
  | denied asks held decoded decoded' other =>
    rcases chosen with rfl | ⟨_, rfl⟩ <;> cases all
  | undecoded asks held undecoded =>
    rcases chosen with rfl | ⟨_, rfl⟩ <;> cases all
  | hungUp => exact absurd rfl stays

theorem Served.serves {needed : Nat} (served : Served cfg s taken (φ.before ++ held) handler) (short : held.length < 2)
    (said : taken = φ.said s) (awaits : handler.stage.count = some needed) :
    handler.stage.count = some handler.data.length := by
  generalize heard : φ.before ++ held = sent at served
  cases served with
  | @waits stage before segment sent data offered waits part =>
    have enough : segment.length ≤ data.length := by
      cases φ with
      | greet =>
        have length := congrArg List.length heard
        simp only [Exchange.before, List.nil_append] at length
        cases waits with
        | head =>
          simp only [List.nil_append, Exchange.said] at said
          rw [said, s.greeting_methods]
          simp
        | methods =>
          rw [Exchange.said, s.greeting_methods] at said
          rw [List.append_cancel_left said]
        | _ => exact absurd short (by rw [length]; decide)
      | auth =>
        obtain ⟨more, all⟩ := waits.within
        rw [Exchange.said, all] at said
        rw [List.append_cancel_left said]
        simp
    exact waits.count.trans (congrArg some (Nat.le_antisymm enough part.length_le))
  | _ => cases awaits

theorem Served.answers (served : Served cfg s taken (φ.before ++ held) handler) (short : held.length < 2)
    (silent : handler.stage.count = none) : handler.stage.refuses = true ∨ handler.stage = .hungUp := by
  generalize heard : φ.before ++ held = sent at served
  have unheard {reply : Bytes} (same : held = reply) (whole : 2 ≤ reply.length) : False := by
    rw [same] at short
    omega
  cases served with
  | waits waits part =>
    rw [waits.count] at silent
    cases silent
  | unacceptable asks without => exact .inl rfl
  | plain free =>
    cases φ with
    | greet => exact (unheard heard (Nat.le_refl 2)).elim
    | auth => cases heard
  | granted asks _ username password =>
    cases φ with
    | greet => exact (unheard heard (by decide)).elim
    | auth =>
      have reply : held = [kAuthSubnegotiationVersion, 0x00] := by simpa [Exchange.before] using heard
      exact (unheard reply (Nat.le_refl 2)).elim
  | denied asks held decoded decoded' other => exact .inl rfl
  | undecoded asks held undecoded => exact .inl rfl
  | hungUp => exact .inr rfl

end Judging

/-- Where a dialogue is: the proxy has taken the bytes `taken`, the client has heard `heard`, and has `n` steps left. -/
structure Talks (cfg : Config) (s : Socket) (d : Dialogue) (taken heard : Bytes) (n : Nat) : Prop where
  heads : Connection.Heads s heard d.client n
  said : Connection.Said s d.client
  served : Served cfg s taken (heard ++ d.incoming) d.server
  written : d.client.written = taken ++ d.outgoing
  broken : d.client.Broken → d.server.stage.refuses = true
  ended : d.client.socket.nextState = .none → ¬s.Fits ∨ d.server.stage.refuses = true
  left : d.server.stage = .hungUp → d.client.settled = true ∧ d.client.socket.nextState = .none

namespace Talks

variable {upstream : Upstream} {cfg : Config} {s : Socket} {d e : Dialogue} {taken heard : Bytes} {n : Nat}

theorem within (talks : Talks cfg s d taken heard n) : taken ++ d.outgoing <+: s.greeting ++ s.frame := by
  rw [← talks.written]
  exact talks.heads.whole talks.said

theorem client_step {label : Label} (alike : upstream.Alike) (talks : Talks cfg s d taken heard n)
    (stepped : Dialogue.step upstream cfg d (.client label) = some e) :
    ∃ m < n, Talks cfg s e taken (heard ++ label.bytes) m ∧ e.server = d.server := by
  simp only [Dialogue.step, Option.ite_none_right_eq_some, Option.map_eq_some_iff] at stepped
  obtain ⟨⟨unsettled, may⟩, client, stepped, rfl⟩ := stepped
  have sound : label.fails = false := by
    cases label <;> first | rfl | cases may
  obtain ⟨m, fewer, heads, _⟩ := talks.heads.preserved alike unsettled stepped
  have stays : d.server.stage ≠ .hungUp := fun left => by
    rw [(talks.left left).1] at unsettled
    cases unsettled
  have arrived : label.bytes ++ d.incoming.drop label.bytes.length = d.incoming := by
    have part : label.bytes <+: d.incoming := by
      cases label with
      | received bytes =>
        cases bytes with
        | nil => exact List.nil_prefix
        | cons byte bytes => exact List.isPrefixOf_iff_prefix.mp may
      | _ => exact List.nil_prefix
    rcases part with ⟨more, whole⟩
    rw [← whole, List.drop_left]
  obtain ⟨φ, wrote, held, heading⟩ := talks.heads
  obtain ⟨said, written⟩ := heading.says talks.said stepped
  have ends := heading.ends alike unsettled sound stepped
  refine ⟨m, fewer, ⟨heads, said, ?_, ?_, ?_, ?_, fun left => absurd left stays⟩, rfl⟩
  · show Served cfg s taken (heard ++ label.bytes ++ d.incoming.drop label.bytes.length) d.server
    rw [List.append_assoc, arrived]
    exact talks.served
  · show client.written = taken ++ (d.outgoing ++ Dialogue.puts d.client label)
    rw [written, talks.written, List.append_assoc]
  · intro broken
    have closed := ends.broken broken
    subst closed
    exact (Bool.and_eq_true_iff.mp may).2
  · intro spent
    obtain ⟨silent, long | broken | unfit⟩ := ends.ended spent
    · exact .inl long
    · exact .inr (talks.broken broken)
    · have refused := heads.spent spent
      have served := talks.served
      rw [silent, List.append_nil, ← heading.whole] at refused
      rw [← heading.whole] at served
      exact .inr ((served.refuses rfl unfit refused).resolve_right stays)

theorem recv_step {count : Nat} (talks : Talks cfg s d taken heard n)
    (stepped : Dialogue.step upstream cfg d (.recv count) = some e) :
    ∃ chunk, chunk ≠ [] ∧ Talks cfg s e (taken ++ chunk) heard n ∧ e.server.stage = d.server.stage := by
  cases awaits : d.server.stage.count with
  | none => simp [Dialogue.step, awaits] at stepped
  | some needed =>
    simp only [Dialogue.step, awaits, Option.ite_none_right_eq_some, Option.some.injEq] at stepped
    obtain ⟨⟨positive, room, there⟩, rfl⟩ := stepped
    have length : (d.outgoing.take count).length = count := by simp [there]
    have written : taken ++ d.outgoing = taken ++ d.outgoing.take count ++ d.outgoing.drop count := by
      rw [List.append_assoc, List.take_append_drop]
    have within := talks.within
    rw [written] at within
    refine ⟨d.outgoing.take count, ?_, ⟨talks.heads, talks.said, ?_, talks.written.trans written, talks.broken, talks.ended,
      talks.left⟩, rfl⟩
    · intro empty
      rw [empty] at length
      exact absurd length.symm (Nat.ne_of_gt positive)
    · apply talks.served.recv awaits
      · rw [length]
        exact room
      · exact (List.prefix_append _ _).trans within

theorem resume_step (talks : Talks cfg s d taken heard n) (stepped : Dialogue.step upstream cfg d .resume = some e) :
    Talks cfg s e taken heard n ∧ stretches e.server.stage < stretches d.server.stage := by
  simp only [Dialogue.step, Option.ite_none_right_eq_some, Option.some.injEq] at stepped
  obtain ⟨whole, rfl⟩ := stepped
  obtain ⟨fewer, stays⟩ := @resume_stretches cfg d.server whole
  have going : d.server.stage.refuses = false := by
    cases stage : d.server.stage <;> rw [stage] at whole <;> first | rfl | cases whole
  have fits (some : taken ≠ []) : s.Fits := by
    apply talks.said.fits
    rw [talks.written]
    exact List.append_ne_nil_of_left_ne_nil some _
  have served := talks.served.resume whole fits
  rw [List.append_assoc] at served
  refine ⟨⟨talks.heads, talks.said, served, talks.written, fun broken => ?_, fun ended => ?_,
    fun left => absurd left stays⟩, fewer⟩
  · have refused := talks.broken broken
    rw [going] at refused
    cases refused
  · rcases talks.ended ended with long | refused
    · exact .inl long
    · rw [going] at refused
      cases refused

theorem hangUp_step (talks : Talks cfg s d taken heard n) (stepped : Dialogue.step upstream cfg d .hangUp = some e) :
    Talks cfg s e taken heard n ∧ stretches e.server.stage < stretches d.server.stage := by
  cases awaits : d.server.stage.count with
  | none => simp [Dialogue.step, awaits] at stepped
  | some needed =>
    simp only [Dialogue.step, awaits, Option.ite_none_right_eq_some, Option.some.injEq] at stepped
    obtain ⟨⟨_, _, settled, spent⟩, rfl⟩ := stepped
    have waiting : 0 < stretches d.server.stage ∧ d.server.stage.refuses = false := by
      cases stage : d.server.stage <;> rw [stage] at awaits <;>
        first | exact ⟨Nat.le_of_ble_eq_true rfl, rfl⟩ | cases awaits
    have unread : d.server.credentialsSeen = [] := by
      have served := talks.served
      generalize heard ++ d.incoming = sent, d.server = handler at served awaits
      cases served with
      | waits waits part => rfl
      | _ => cases awaits
    have served : Served cfg s taken (heard ++ d.incoming) (d.server.await .hungUp) := by
      rw [Handler.await, unread]
      exact .hungUp
    have long (ended : d.client.socket.nextState = .none) : ¬s.Fits := by
      apply (talks.ended ended).resolve_right
      rw [waiting.2]
      nofun
    refine ⟨⟨talks.heads, talks.said, served, talks.written, fun broken => ?_, fun ended => .inl (long ended),
      fun _ => ⟨settled, spent⟩⟩, waiting.1⟩
    rw [Connection.Broken, spent] at broken
    cases broken.1

def remaining (s : Socket) (d : Dialogue) (taken : Bytes) (n : Nat) : Nat :=
  n + ((s.greeting ++ s.frame).length - taken.length) + stretches d.server.stage

theorem step {label : DialogueLabel} (alike : upstream.Alike) (talks : Talks cfg s d taken heard n)
    (stepped : Dialogue.step upstream cfg d label = some e) :
    ∃ taken' heard' m, Talks cfg s e taken' heard' m ∧ remaining s e taken' m < remaining s d taken n := by
  cases label with
  | client label =>
    obtain ⟨m, fewer, next, server⟩ := talks.client_step alike stepped
    refine ⟨taken, _, m, next, ?_⟩
    simp only [remaining, server]
    omega
  | recv count =>
    obtain ⟨chunk, some, next, stage⟩ := talks.recv_step stepped
    have more := List.length_pos_iff.mpr some
    have within := next.within.length_le
    simp only [List.length_append] at within
    refine ⟨_, heard, n, next, ?_⟩
    simp only [remaining, stage, List.length_append]
    omega
  | resume =>
    obtain ⟨next, fewer⟩ := talks.resume_step stepped
    exact ⟨taken, heard, n, next, Nat.add_lt_add_left fewer _⟩
  | hangUp =>
    obtain ⟨next, fewer⟩ := talks.hangUp_step stepped
    exact ⟨taken, heard, n, next, Nat.add_lt_add_left fewer _⟩

theorem resumes (whole : d.server.stage.count = some d.server.data.length) :
    ∃ label e, Dialogue.step upstream cfg d label = some e := by
  apply Exists.intro .resume
  simp only [Dialogue.step]
  exact ⟨_, if_pos whole⟩

theorem serves {needed : Nat} (talks : Talks cfg s d taken heard n) (awaits : d.server.stage.count = some needed)
    (there : d.outgoing ≠ [] ∨ d.client.settled = true ∧ d.client.socket.nextState = .none) :
    ∃ label e, Dialogue.step upstream cfg d label = some e := by
  have room : d.server.data.length ≤ needed := by
    have served := talks.served
    generalize heard ++ d.incoming = sent, d.server = handler at served awaits
    cases served with
    | waits waits part =>
      rw [waits.count, Option.some.injEq] at awaits
      rw [← awaits]
      exact part.length_le
    | _ => cases awaits
  rcases Nat.lt_or_eq_of_le room with short | whole
  · by_cases empty : d.outgoing = []
    · have gone := there.resolve_left (not_not.mpr empty)
      apply Exists.intro .hangUp
      simp only [Dialogue.step, awaits]
      exact ⟨_, if_pos ⟨short, empty, gone⟩⟩
    · have some := List.length_pos_iff.mpr empty
      apply Exists.intro (.recv 1)
      simp only [Dialogue.step, awaits]
      exact ⟨_, if_pos ⟨Nat.one_pos, short, some⟩⟩
  · exact resumes (by rw [awaits, whole])

theorem client_moves {label : Label} {client : Connection} (unsettled : d.client.settled = false)
    (may : d.mayStep label = true) (stepped : Connection.step upstream d.client label = some client) :
    ∃ label e, Dialogue.step upstream cfg d label = some e := by
  apply Exists.intro (.client label)
  simp only [Dialogue.step, stepped]
  exact ⟨_, if_pos ⟨unsettled, may⟩⟩

theorem reading_moves {φ : Exchange} {wrote held : Bytes} (talks : Talks cfg s d taken heard n)
    (heading : Connection.Heading s heard d.client n φ wrote held) (unsettled : d.client.settled = false)
    (fits : s.Fits) (request : φ.request s = .ok wrote) (short : held.length < 2)
    (answer : d.client.answer = .awaits (.read (2 - held.length))) :
    ∃ label e, Dialogue.step upstream cfg d label = some e := by
  have reads (bytes : Bytes) (room : bytes.length ≤ 2 - held.length) :
      ∃ client, Connection.step upstream d.client (.received bytes) = some client := by
    simp only [Connection.step, answer]
    exact ⟨_, if_pos room⟩
  cases incoming : d.incoming with
  | cons byte bytes =>
    obtain ⟨client, stepped⟩ := reads [byte] (Nat.le_sub_of_add_le (Nat.add_comm 1 _ ▸ Nat.succ_le_of_lt short))
    apply client_moves unsettled _ stepped
    simp [Dialogue.mayStep, incoming]
  | nil =>
    have served := talks.served
    rw [incoming, List.append_nil, ← heading.whole] at served
    cases awaits : d.server.stage.count with
    | some needed =>
      by_cases pending : d.outgoing = []
      · have said : taken = φ.said s := by
          rw [← Exchange.past_request request fits, ← heading.ledger.written, talks.written, pending, List.append_nil]
        exact resumes (served.serves short said awaits)
      · exact talks.serves awaits (.inl pending)
    | none =>
      rcases served.answers short awaits with refused | left
      · obtain ⟨client, stepped⟩ := reads [] (Nat.zero_le _)
        apply client_moves unsettled _ stepped
        simp [Dialogue.mayStep, incoming, refused]
      · rw [(talks.left left).1] at unsettled
        cases unsettled

theorem starts (talks : Talks cfg s d taken heard n) (settled : d.client.settled = true)
    (state : d.client.socket.nextState = .handshakeWrite) :
    d.server.stage = .greeted true ∧ d.outgoing = [] ∧ d.incoming = [] ∧ s.Fits := by
  have stays : d.server.stage ≠ .hungUp := by
    intro left
    have spent := (talks.left left).2
    rw [state] at spent
    cases spent
  have chosen : Chooses s.username heard := by
    rcases talks.heads.ended settled with ⟨_, chosen⟩ | ⟨spent, _⟩
    · exact chosen
    · rw [state] at spent
      cases spent
  obtain ⟨granted, unheard, ⟨same, said⟩ | ⟨same, said⟩⟩ := talks.served.begins chosen stays
  · have written : d.client.written <+: s.greeting := by
      obtain ⟨φ, wrote, held, heading⟩ := talks.heads
      have ledger := heading.ledger
      cases φ with
      | greet =>
        rw [ledger.written, Exchange.past, List.nil_append, ← ledger.1]
        exact talks.said.greeted
      | auth =>
        have whole := heading.whole
        rw [same] at whole
        cases whole
    have length := written.length_le
    rw [talks.written, said, List.length_append] at length
    refine ⟨granted, List.length_eq_zero_iff.mp (by omega), unheard, talks.said.fits ?_⟩
    rw [talks.written, said, s.greeting_methods]
    nofun
  · have length := talks.within.length_le
    rw [said, List.length_append] at length
    refine ⟨granted, List.length_eq_zero_iff.mp (by omega), unheard, talks.said.fits ?_⟩
    rw [talks.written, said, s.greeting_methods]
    nofun

theorem sees {username password : String} (talks : Talks cfg s d taken heard n) (settled : d.client.settled = true)
    (asks : cfg.username ≠ "") (fits : s.Fits) (held : s.hasCredentials = true) (decoded : decode s.username = some username)
    (decoded' : decode s.password = some password) : d.server.credentialsSeen = [(username, password)] := by
  apply talks.served.sees asks held decoded decoded'
  rcases talks.heads.ended settled with ⟨state, _⟩ | ⟨spent, _⟩
  · exact .inl (talks.starts settled state).1
  · exact .inr ((talks.ended spent).resolve_left (not_not.mpr fits))

theorem progress (talks : Talks cfg s d taken heard n)
    (unfinished : ¬(d.client.settled = true ∧ d.server.stage.count = none)) :
    ∃ label e, Dialogue.step upstream cfg d label = some e := by
  by_cases settled : d.client.settled = true
  · cases awaits : d.server.stage.count with
    | none => exact absurd ⟨settled, awaits⟩ unfinished
    | some needed =>
      rcases talks.heads.ended settled with ⟨state, _⟩ | ⟨spent, _⟩
      · rw [(talks.starts settled state).1] at awaits
        cases awaits
      · exact talks.serves awaits (.inr ⟨settled, spent⟩)
  have unsettled := Bool.of_not_eq_true settled
  have turns {rv : Int} (answer : d.client.answer = .code rv) : ∃ label e, Dialogue.step upstream cfg d label = some e := by
    have going : d.client.socket.nextState ≠ .none := by
      intro state
      simp [Connection.settled, answer, state] at unsettled
    have stepped : Connection.step upstream d.client .turn = some
        (d.client.resume (d.client.socket.methodRead upstream rv) (d.client.socket.turn upstream rv)) := by
      simp only [Connection.step, answer]
      exact if_neg going
    exact client_moves unsettled rfl stepped
  obtain ⟨φ, wrote, held, heading⟩ := talks.heads
  cases heading.position with
  | writing fits request left socket answer rank =>
    have enabled : (Connection.step upstream d.client (.wrote 1)).isSome := by
      simp [Connection.step, answer]
      omega
    obtain ⟨client, stepped⟩ := Option.isSome_iff_exists.mp enabled
    exact client_moves unsettled rfl stepped
  | reading fits request short socket answer rank => exact talks.reading_moves heading unsettled fits request short answer
  | write past request left buf socket answer rank => exact turns answer
  | wrote fits request positive within socket answer rank => exact turns answer
  | read fits request short buf socket answer rank => exact turns answer
  | received fits request short within socket answer rank => exact turns answer
  | breaks short state negative answer => exact turns answer
  | passes state answer chosen => exact turns answer
  | ends state negative answer refused => exact turns answer

end Talks

namespace Dialogue

def Concluded (d : Dialogue) : Prop := d.client.settled = true ∧ d.server.stage.count = none

structure Sound (upstream : Upstream) (cfg : Config) (s : Socket) (d : Dialogue) : Prop where
  proceeds : ¬d.Concluded → ∃ label e, step upstream cfg d label = some e
  starts : d.client.settled = true → d.client.socket.nextState = .handshakeWrite →
    d.server.stage = .greeted true ∧ d.outgoing = [] ∧ d.incoming = []
  lets : d.server.stage = .greeted true → Accepts cfg s
  agrees : d.Concluded → (d.client.socket.nextState = .handshakeWrite ↔ Accepts cfg s ∧ s.Fits)
  noted : d.server.credentialsSeen = [] ∨ ∃ username password, decode s.username = some username ∧
    decode s.password = some password ∧ d.server.credentialsSeen = [(username, password)]
  sees : ∀ username password, d.client.settled = true → cfg.username ≠ "" → s.Fits → s.hasCredentials = true →
    decode s.username = some username → decode s.password = some password →
      d.server.credentialsSeen = [(username, password)]

theorem initial_talks {cfg : Config} {host username password : Bytes} :
    Talks cfg (Connection.initial host username password).socket (initial host username password) [] []
      (Connection.steps username password) where
  heads := Connection.initial_heads
  said := ⟨List.nil_prefix, List.nil_prefix, fun some => absurd rfl some⟩
  served := .starts .head
  written := rfl
  broken broken := nomatch broken.1
  ended ended := nomatch ended
  left left := nomatch left

theorem Talks.sound {upstream : Upstream} {cfg : Config} {s : Socket} {d : Dialogue} {taken heard : Bytes} {n : Nat}
    (talks : Talks cfg s d taken heard n) : Sound upstream cfg s d where
  proceeds := talks.progress
  starts settled state := by
    obtain ⟨granted, said, unheard, _⟩ := talks.starts settled state
    exact ⟨granted, said, unheard⟩
  lets := talks.served.accepts
  agrees concluded := by
    obtain ⟨settled, silent⟩ := concluded
    rcases talks.heads.ended settled with ⟨state, _⟩ | ⟨spent, _⟩
    · obtain ⟨granted, _, _, fits⟩ := talks.starts settled state
      exact iff_of_true state ⟨talks.served.accepts granted, fits⟩
    · apply iff_of_false
      · rw [spent]
        nofun
      · rintro ⟨accepts, fits⟩
        have refused := (talks.ended spent).resolve_left (not_not.mpr fits)
        rw [talks.served.accepted accepts] at refused
        cases refused
  noted := talks.served.noted
  sees _ _ := talks.sees

def steps (host username password : Bytes) : Nat :=
  Talks.remaining (Connection.initial host username password).socket (initial host username password) []
    (Connection.steps username password)

theorem run_talks {upstream : Upstream} (alike : upstream.Alike) {cfg : Config} {host username password : Bytes}
    {labels : List DialogueLabel} {d : Dialogue}
    (ran : (machine upstream cfg).run (initial host username password) labels = some d) :
    ∃ taken heard n, Talks cfg (Connection.initial host username password).socket d taken heard n ∧
      labels.length + Talks.remaining (Connection.initial host username password).socket d taken n ≤
        steps host username password := by
  apply Machine.history_invariant
    (fun labels d => ∃ taken heard n, Talks cfg (Connection.initial host username password).socket d taken heard n ∧
      labels.length + Talks.remaining (Connection.initial host username password).socket d taken n ≤
        steps host username password) _ _ ran
  · exact ⟨[], [], _, initial_talks, Nat.le_of_eq (Nat.zero_add _)⟩
  · intro past a label b _ before stepped
    rcases before with ⟨taken, heard, n, talks, bound⟩
    rcases talks.step alike stepped with ⟨taken', heard', m, next, fewer⟩
    refine ⟨taken', heard', m, next, ?_⟩
    rw [List.length_append, List.length_singleton]
    omega

/-- However the bytes are cut and whoever goes first, the client and the proxy come to an end together, and begin the
    handshake exactly where the proxy takes the client's credentials and the client can send them. -/
theorem dialogue_agrees {upstream : Upstream} (alike : upstream.Alike) (cfg : Config) {host username password : Bytes}
    {labels : List DialogueLabel} {d : Dialogue}
    (ran : (machine upstream cfg).run (initial host username password) labels = some d) :
    labels.length ≤ steps host username password ∧
      Sound upstream cfg (Connection.initial host username password).socket d := by
  rcases run_talks alike ran with ⟨taken, heard, n, talks, bound⟩
  exact ⟨by omega, Talks.sound talks⟩

/-- A proxy that asks for credentials reads them a byte at a time, and takes them. -/
theorem dialogue_agrees_credentials :
    ∃ labels d, (machine .sibling ⟨"u", "p"⟩).run (initial [104] [117] [112]) labels = some d ∧
      d.client.socket.nextState = .handshakeWrite ∧ d.server.credentialsSeen = [("u", "p")] ∧
      labels.length ≤ steps [104] [117] [112] ∧
      Sound .sibling ⟨"u", "p"⟩ (Connection.initial [104] [117] [112]).socket d := by
  let labels : List DialogueLabel := [.client .turn, .client (.wrote 1), .client .turn, .client .turn, .client (.wrote 3),
    .recv 2, .resume, .recv 2, .client .turn, .resume, .client .turn, .client (.received [0x05, 0x02]), .client .turn,
    .client .turn, .client (.wrote 5), .client .turn, .recv 1, .resume, .recv 1, .resume, .recv 1, .resume, .recv 1,
    .resume, .recv 1, .resume, .client .turn, .client (.received [0x01, 0x00]), .client .turn]
  have runs : ∃ d, (machine .sibling ⟨"u", "p"⟩).run (initial [104] [117] [112]) labels = some d ∧
      d.client.socket.nextState = .handshakeWrite ∧ d.server.credentialsSeen = [("u", "p")] := ⟨_, rfl, rfl, rfl⟩
  obtain ⟨d, ran, authenticated, seen⟩ := runs
  have agrees := dialogue_agrees Upstream.sibling_alike ⟨"u", "p"⟩ ran
  exact ⟨labels, d, ran, authenticated, seen, agrees.1, agrees.2⟩

end Dialogue

end Cronet.Socks.Tcp
