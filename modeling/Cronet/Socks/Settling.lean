import Cronet.Socks.Handshake

namespace Cronet.Socks

open Cronet.Native (Bytes)

namespace Association

variable {peer : Except Int Bytes} {s : Socket} {stream : Bytes} {a b : Association} {label : AssociationLabel}
  {φ : Phase} {wrote held : Bytes} {verdict : Option (Checked Outcome)} {n : Nat}

theorem first_pos (φ : Phase) : 0 < φ.first := by
  cases φ <;> decide

theorem reads_append {φ : Phase} {chunk : Bytes} (arrived : chunk ≠ []) (within : (held ++ chunk).length ≤ φ.size) :
    φ.reads s (held ++ chunk).length + 3 ≤ φ.reads s held.length := by
  have positive := List.length_pos_iff.mpr arrived
  simp only [Phase.reads, List.length_append] at within ⊢
  omega

theorem Heading.breaks {data : Bytes} {rv : Int} (heading : Heading peer s stream a verdict n φ wrote held)
    (request : φ.request s = .ok data) (part : wrote <+: data)
    (state : a.socket.nextState = φ.writeComplete ∨ a.socket.nextState = φ.readComplete) (relay : a.socket.relay = none)
    (negative : rv < 0) (rank : 1 < n) : ∃ m < n, Heads peer s stream { a with answer := .code rv } none m := by
  obtain ⟨m, rfl⟩ : ∃ m, n = m + 2 := ⟨n - 2, by omega⟩
  exact ⟨m + 1, by omega, φ, wrote, held, .breaks request part state relay negative rfl, heading.ledger.keep rfl,
    heading.bound, heading.whole⟩

theorem Heading.write_step {data : Bytes} {consumed : Nat} (request : φ.request s = .ok data) (left : consumed < data.length)
    (relay : s.relay = none) (socket : a.socket = posed s φ.writeComplete (some ⟨data, consumed⟩) none 0)
    (answer : a.answer = .awaits (.write (data.drop consumed))) (rank : φ.writes s (data.length - consumed) ≤ n + 1)
    (heading : Heading peer s stream a (some (φ.outcome peer s a.incoming)) n φ (data.take consumed) [])
    (stepped : step peer a label = some b) :
    ∃ m < n, Heads peer s stream b (if label.fails then none else some (φ.outcome peer s a.incoming)) m := by
  have steps : 3 ≤ φ.writes s (data.length - consumed) := by
    simp only [Phase.writes]
    omega
  rcases step_write answer stepped with ⟨count, clean, positive, within, rfl⟩ | ⟨rv, failed, negative, rfl⟩
  · rw [clean]
    have taken : data.take consumed ++ (data.drop consumed).take count = data.take (consumed + count) := by
      rw [List.take_add]
    refine ⟨n - 1, by omega, φ, data.take (consumed + count), [], ?_, ?_, heading.bound, heading.whole⟩
    · exact .wrote request positive (by simp at within; omega) socket rfl (by omega)
    · rw [← taken]
      exact heading.ledger.sends (by rw [socket]; rfl)
  · rw [failed]
    have state : a.socket.nextState = φ.writeComplete := by rw [socket]; rfl
    exact heading.breaks request (List.take_prefix _ _) (.inl state) (by rw [socket]; exact relay) negative (by omega)

theorem Heading.wrote_turn {data : Bytes} {consumed count : Nat} (request : φ.request s = .ok data) (positive : 0 < count)
    (within : consumed + count ≤ data.length)
    (socket : a.socket = posed s φ.writeComplete (some ⟨data, consumed⟩) none 0)
    (rank : φ.writes s (data.length - consumed) ≤ n + 2)
    (heading : Heading peer s stream a (some (φ.outcome peer s a.incoming)) n φ (data.take (consumed + count)) []) :
    ∃ m < n, Heads peer s stream (a.resume (a.socket.turn peer count)) (some (φ.outcome peer s a.incoming)) m := by
  simp only [Phase.writes] at rank
  refine ⟨n - 1, by omega, φ, data.take (consumed + count), [], ?_, heading.ledger.keep ?_, heading.bound, ?_⟩
  all_goals rw [socket, Socks.wrote_turn within]
  all_goals by_cases complete : consumed + count = data.length
  all_goals simp only [complete, ↓reduceIte]
  · rw [List.take_length]
    exact .read request (.first φ []) (first_pos φ) rfl rfl rfl (by simp; omega)
  · exact .write request (by omega) (.inr rfl) rfl rfl (by simp only [Phase.writes]; omega)
  · rfl
  · rfl
  · exact heading.whole
  · exact heading.whole

theorem Heading.read_step {remaining capacity : Nat} (request : φ.request s = .ok wrote)
    (stage : Stage φ remaining capacity held) (short : held.length < capacity) (relay : s.relay = none)
    (socket : a.socket = posed s φ.readComplete none (some ⟨capacity, held.length, held⟩) remaining)
    (answer : a.answer = .awaits (.read (capacity - held.length))) (rank : φ.reads s held.length ≤ n + 1)
    (heading : Heading peer s stream a (some (φ.outcome peer s (held ++ a.incoming))) n φ wrote held)
    (stepped : step peer a label = some b) :
    ∃ m < n, Heads peer s stream b (if label.fails then none else some (φ.outcome peer s (held ++ a.incoming))) m := by
  have fits := stage.capacity_le
  have steps : 3 ≤ φ.reads s held.length := by
    simp only [Phase.reads]
    omega
  have whole := heading.whole
  rcases step_read answer stepped with ⟨count, clean, positive, within, available, rfl⟩ | ⟨clean, ended, rfl⟩ |
    ⟨rv, failed, negative, rfl⟩
  · rw [clean]
    have split := List.take_append_drop count a.incoming
    have length : (a.incoming.take count).length = count := List.length_take_of_le available
    generalize a.incoming.take count = chunk at split length
    generalize a.incoming.drop count = rest at split
    rw [← split, ← List.append_assoc] at whole ⊢
    subst length
    refine ⟨n - 1, by omega, φ, wrote, held ++ chunk, ?_, heading.ledger.receives ?_, ?_, ?_⟩
    · refine .received request stage short (by omega) (fun empty => ?_) ?_ rfl (by omega)
      · rw [empty] at positive
        exact absurd positive (by decide)
      · simp only [socket]
        simp [posed, GrowableIOBuffer.store]
    · rw [socket]
      rfl
    · rw [List.length_append]
      omega
    · rw [← whole]
      simp
  · rw [clean]
    have position : Position peer s { a with answer := .code 0 } φ wrote (held ++ [])
        (some (φ.outcome peer s (held ++ [] ++ a.incoming))) (n - 1) :=
      .received request stage short (by simp; omega) (fun _ => ended) (by simpa using socket) rfl (by omega)
    rw [List.append_nil] at position
    exact ⟨n - 1, by omega, φ, wrote, held, position, heading.ledger.keep rfl, heading.bound, whole⟩
  · rw [failed]
    have state : a.socket.nextState = φ.readComplete := by rw [socket]; rfl
    exact heading.breaks request (List.prefix_refl wrote) (.inr state) (by rw [socket]; exact relay) negative (by omega)

theorem Heading.received_turn {chunk : Bytes} {remaining capacity : Nat} (request : φ.request s = .ok wrote)
    (stage : Stage φ remaining capacity held) (short : held.length < capacity) (relay : s.relay = none)
    (within : held.length + chunk.length ≤ capacity) (ended : chunk = [] → a.incoming = [])
    (socket : a.socket = posed s φ.readComplete none (some ⟨capacity, held.length, held ++ chunk⟩) remaining)
    (rank : φ.reads s held.length ≤ n + 2)
    (heading : Heading peer s stream a (some (φ.outcome peer s (held ++ chunk ++ a.incoming))) n φ wrote (held ++ chunk)) :
    ∃ m < n, Heads peer s stream (a.resume (a.socket.turn peer chunk.length))
      (some (φ.outcome peer s (held ++ chunk ++ a.incoming))) m := by
  have fits := stage.capacity_le
  have steps : 3 ≤ φ.reads s held.length := by
    simp only [Phase.reads]
    omega
  rw [socket, Socks.received_turn]
  by_cases closed : chunk = []
  · rw [if_pos closed]
    have refused : φ.outcome peer s (held ++ chunk ++ a.incoming) = .ok (.error ERR_SOCKS_CONNECTION_FAILED) := by
      rw [closed, ended closed, List.append_nil, List.append_nil]
      exact outcome_short stage short
    rw [refused]
    exact ⟨0, by omega, φ, wrote, held ++ chunk, .fails request (.inl (by decide)) rfl relay rfl, heading.ledger.keep rfl, heading.bound,
      heading.whole⟩
  rw [if_neg closed]
  have fewer := reads_append (s := s) closed heading.bound
  refine ⟨n - 1, by omega, ?_⟩
  by_cases unfilled : held.length + chunk.length < capacity
  · rw [if_pos unfilled]
    exact ⟨φ, wrote, held ++ chunk, .read request (stage.append chunk) (by simpa using unfilled) rfl rfl rfl (by omega),
      heading.ledger.keep rfl, heading.bound, heading.whole⟩
  · rw [if_neg unfilled]
    obtain rfl : capacity = (held ++ chunk).length := by
      rw [List.length_append]
      omega
    exact reply_heads relay request (stage.append chunk) heading.ledger heading.whole (by omega)

/-- One step of the handshake keeps the outcome it is heading for, and brings it closer. -/
theorem Heads.preserved (relay : s.relay = none) (heads : Heads peer s stream a verdict n) (unsettled : a.settled = false)
    (stepped : step peer a label = some b) :
    ∃ m < n, Heads peer s stream b (if label.fails then none else verdict) m := by
  obtain ⟨φ, wrote, held, heading⟩ := heads
  cases heading.position with
  | refuse request socket answer =>
    obtain ⟨clean, _, rfl⟩ := step_code answer stepped
    rw [clean, socket, write_turn_refused request]
    exact ⟨_, Nat.lt_succ_self _, φ, [], [], .aborts (.inl rfl) rfl, heading.ledger.keep rfl, heading.bound, heading.whole⟩
  | write request left buf socket answer rank =>
    obtain ⟨clean, _, rfl⟩ := step_code answer stepped
    rw [clean, socket, write_turn_ok request buf]
    simp only [Phase.writes] at rank
    exact ⟨n - 1, by omega, φ, _, [], .writing request left rfl rfl (by simp only [Phase.writes]; omega),
      heading.ledger.keep rfl, heading.bound, heading.whole⟩
  | writing request left socket answer rank => exact heading.write_step request left relay socket answer rank stepped
  | wrote request positive within socket answer rank =>
    obtain ⟨clean, _, rfl⟩ := step_code answer stepped
    rw [clean]
    exact heading.wrote_turn request positive within socket rank
  | read request stage short buf socket answer rank =>
    obtain ⟨clean, _, rfl⟩ := step_code answer stepped
    rw [clean, socket, read_turn, buf]
    have fits := stage.capacity_le
    simp only [Phase.reads] at rank
    exact ⟨n - 1, by omega, φ, wrote, held, .reading request stage short rfl rfl (by simp only [Phase.reads]; omega),
      heading.ledger.keep rfl, heading.bound, heading.whole⟩
  | reading request stage short socket answer rank =>
    exact heading.read_step request stage short relay socket answer rank stepped
  | received request stage short within ended socket answer rank =>
    obtain ⟨clean, _, rfl⟩ := step_code answer stepped
    rw [clean]
    exact heading.received_turn request stage short relay within ended socket rank
  | connects request state found answer => simp [settled, answer, state] at unsettled
  | fails request cause state relay answer => simp [settled, answer, state] at unsettled
  | aborts framed answer => simp [settled, answer] at unsettled
  | breaks request part state relay negative answer =>
    obtain ⟨clean, _, rfl⟩ := step_code answer stepped
    rw [clean, failed_turn state negative]
    exact ⟨_, Nat.lt_succ_self _, φ, wrote, held, .broken request part rfl relay negative rfl, heading.ledger.keep rfl,
      heading.bound, heading.whole⟩
  | broken request part state relay negative answer => simp [settled, answer, state] at unsettled

/-- Short of its end, a handshake can take a step without the transport failing. -/
theorem Heads.proceeds (heads : Heads peer s stream a verdict n) (unsettled : a.settled = false) :
    ∃ label b, label.fails = false ∧ step peer a label = some b := by
  have turns {rv : Int} (answer : a.answer = .code rv) : ∃ label b, label.fails = false ∧ step peer a label = some b := by
    refine ⟨.turn, a.resume (a.socket.turn peer rv), rfl, ?_⟩
    have state : a.socket.nextState ≠ .none := by
      intro state
      simp [settled, answer, state] at unsettled
    simp only [step, answer, if_neg state]
  obtain ⟨φ, wrote, held, heading⟩ := heads
  cases heading.position with
  | writing request left socket answer rank =>
    have within := List.length_pos_iff.mpr (mt List.drop_eq_nil_iff.mp (Nat.not_le.mpr left))
    exact ⟨.wrote 1, _, rfl, by simp only [step, answer]; exact if_pos ⟨by decide, within⟩⟩
  | reading request stage short socket answer rank =>
    by_cases ended : a.incoming = []
    · exact ⟨.closed, _, rfl, by simp only [step, answer]; exact if_pos ended⟩
    · have within := List.length_pos_iff.mpr ended
      exact ⟨.received 1, _, rfl, by simp only [step, answer]; exact if_pos ⟨by decide, by omega, by omega⟩⟩
  | refuse request socket answer => exact turns answer
  | write request left buf socket answer rank => exact turns answer
  | wrote request positive within socket answer rank => exact turns answer
  | read request stage short buf socket answer rank => exact turns answer
  | received request stage short within ended socket answer rank => exact turns answer
  | connects request state found answer => exact turns answer
  | fails request cause state relay answer => exact turns answer
  | breaks request part state relay negative answer => exact turns answer
  | broken request part state relay negative answer => exact turns answer
  | aborts framed answer => simp [settled, answer] at unsettled

structure Framed (stream : Bytes) (a : Association) : Prop where
  whole : a.received .greetReadComplete ++ a.received .authReadComplete ++ a.received .associateReadComplete ++
    a.incoming = stream
  greetReply : (a.received .greetReadComplete).length ≤ kGreetReplySize
  authReply : (a.received .authReadComplete).length ≤ kAuthReplySize
  associateReply : (a.received .associateReadComplete).length ≤ kReplyPrefixSize + 16 + 2
  afterGreeting : a.received .authReadComplete ≠ [] →
    a.received .greetReadComplete = [kSOCKS5Version, kAuthMethodUsernamePassword]
  afterMethod : a.received .associateReadComplete ≠ [] →
    a.received .greetReadComplete = [kSOCKS5Version, kAuthMethodNone] ∧ a.received .authReadComplete = [] ∨
    a.received .greetReadComplete = [kSOCKS5Version, kAuthMethodUsernamePassword] ∧
      a.received .authReadComplete = [kAuthSubnegotiationVersion, 0x00]

theorem Heads.framed (heads : Heads peer s stream a verdict n) : a.Framed stream := by
  obtain ⟨φ, wrote, held, heading⟩ := heads
  have bound := heading.bound
  have whole := heading.whole
  cases φ with
  | greet =>
    obtain ⟨greet, auth, associate, _⟩ := heading.ledger
    exact ⟨by rw [greet, auth, associate]; simpa [Phase.before] using whole, by rw [greet]; exact bound, by simp [auth],
      by simp [associate], fun nonempty => absurd auth nonempty, fun nonempty => absurd associate nonempty⟩
  | auth =>
    obtain ⟨greet, auth, associate, _⟩ := heading.ledger
    exact ⟨by rw [greet, auth, associate]; simpa [Phase.before] using whole, by rw [greet]; decide, by rw [auth]; exact bound,
      by simp [associate], fun _ => greet, fun nonempty => absurd associate nonempty⟩
  | associate =>
    obtain ⟨greet, auth, associate, _⟩ := heading.ledger
    exact ⟨by rw [greet, auth, associate]; simpa [Phase.before] using whole, by rw [greet]; decide, by simp [auth],
      by rw [associate]; exact bound, fun nonempty => absurd auth nonempty, fun _ => .inl ⟨greet, auth⟩⟩

/-- The handshake has ended as `outcome` says. -/
def Reports (a : Association) : Outcome → Prop
  | .ok (relay, rest) =>
    a.socket.nextState = .udpConnect ∧ a.answer = .code OK ∧ a.socket.relay = some relay ∧ a.incoming = rest
  | .error rv => a.socket.nextState = .none ∧ a.answer = .code rv

theorem Reports.answers {outcome : Outcome} (reports : a.Reports outcome) : ∃ rv, a.answer = .code rv := by
  cases outcome with
  | ok found => exact ⟨OK, reports.2.1⟩
  | error rv => exact ⟨rv, reports.2⟩

theorem ongoing {rv : Int} {state : State} (answer : a.answer = .code rv) (current : a.socket.nextState = state)
    (within : state = φ.write ∨ state = φ.writeComplete ∨ state = φ.read ∨ state = φ.readComplete) : a.settled = false := by
  have stays : state ≠ .none ∧ state ≠ .udpConnect := by
    rcases within with rfl | rfl | rfl | rfl
    all_goals cases φ <;> decide
  simp [settled, answer, current, stays]

theorem Heads.ended (heads : Heads peer s stream a verdict n) (ended : a.settled = true) :
    (∃ outcome, verdict = some (.ok outcome) ∧ a.Reports outcome) ∨
    (∃ fault, verdict = some (.error fault) ∧ a.answer = .aborted fault) ∨
    (∃ rv, verdict = none ∧ rv < 0 ∧ a.Reports (.error rv)) := by
  obtain ⟨φ, wrote, held, heading⟩ := heads
  have continues {rv : Int} {state : State} (answer : a.answer = .code rv) (current : a.socket.nextState = state)
      (within : state = φ.write ∨ state = φ.writeComplete ∨ state = φ.read ∨ state = φ.readComplete) : False :=
    absurd (ongoing answer current within) (by simp [ended])
  cases heading.position with
  | connects request state found answer => exact .inl ⟨_, rfl, state, answer, found, rfl⟩
  | fails request cause state relay answer => exact .inl ⟨_, rfl, state, answer⟩
  | aborts framed answer => exact .inr (.inl ⟨_, rfl, answer⟩)
  | broken request part state relay negative answer => exact .inr (.inr ⟨_, rfl, negative, state, answer⟩)
  | breaks request part state relay negative answer =>
    rcases state with state | state
    · exact (continues answer state (.inr (.inl rfl))).elim
    · exact (continues answer state (.inr (.inr (.inr rfl)))).elim
  | writing request left socket answer rank => simp [settled, answer] at ended
  | reading request stage short socket answer rank => simp [settled, answer] at ended
  | refuse request socket answer => exact (continues answer (congrArg Socket.nextState socket) (.inl rfl)).elim
  | write request left buf socket answer rank =>
    exact (continues answer (congrArg Socket.nextState socket) (.inl rfl)).elim
  | wrote request positive within socket answer rank =>
    exact (continues answer (congrArg Socket.nextState socket) (.inr (.inl rfl))).elim
  | read request stage short buf socket answer rank =>
    exact (continues answer (congrArg Socket.nextState socket) (.inr (.inr (.inl rfl)))).elim
  | received request stage short within arrived socket answer rank =>
    exact (continues answer (congrArg Socket.nextState socket) (.inr (.inr (.inr rfl)))).elim

/-- What holds of every state of a handshake that comes to `outcome` unless the transport fails. -/
structure Orderly (peer : Except Int Bytes) (stream : Bytes) (outcome : Outcome) (failed : Bool) (a : Association) : Prop where
  held : ∀ fault, a.answer ≠ .aborted fault
  framed : a.Framed stream
  proceeds : a.settled = false → ∃ label b, label.fails = false ∧ step peer a label = some b
  reached : a.settled = true → failed = false → a.Reports outcome
  broken : a.settled = true → failed = true → ∃ rv < 0, a.Reports (.error rv)

theorem Heads.orderly {outcome : Outcome} {failed : Bool}
    (heads : Heads peer s stream a (if failed then none else some (.ok outcome)) n) : a.Orderly peer stream outcome failed where
  held fault answer := by
    rcases heads.ended (by simp [settled, answer]) with ⟨_, _, reports⟩ | ⟨_, verdict, _⟩ | ⟨_, _, _, reports⟩
    · obtain ⟨rv, code⟩ := reports.answers
      cases code.symm.trans answer
    · cases failed <;> cases verdict
    · obtain ⟨rv, code⟩ := reports.answers
      cases code.symm.trans answer
  framed := heads.framed
  proceeds := heads.proceeds
  reached ended clean := by
    rw [clean] at heads
    rcases heads.ended ended with ⟨_, verdict, reports⟩ | ⟨_, verdict, _⟩ | ⟨_, verdict, _⟩
    · cases verdict
      exact reports
    · cases verdict
    · cases verdict
  broken ended dirty := by
    rw [dirty] at heads
    rcases heads.ended ended with ⟨_, verdict, _⟩ | ⟨_, verdict, _⟩ | ⟨rv, _, negative, reports⟩
    · cases verdict
    · cases verdict
    · exact ⟨rv, negative, reports⟩

/-- The handshake comes to one outcome, which the stream alone settles, in boundedly many steps. -/
def Settles (peer : Except Int Bytes) (username password stream : Bytes) : Prop :=
  ∃ (outcome : Outcome) (bound : Nat),
    (∀ relay rest, outcome = .ok (relay, rest) ↔ Grants (!username.isEmpty) peer stream relay rest) ∧
    (∀ rv, outcome = .error rv → Refusal peer rv) ∧
    ∀ labels a, (machine peer).run (initial username password stream) labels = some a →
      (machine peer).Meets (fun a _ => a.settled = false) (initial username password stream) labels →
      labels.length ≤ bound ∧ a.Orderly peer stream outcome (labels.any AssociationLabel.fails)

def steps (username password : Bytes) : Nat := 129 + 3 * (username.length + password.length)

theorem initial_heads {username password : Bytes} :
    Heads peer (initial username password stream).socket stream (initial username password stream)
      (some (afterGreet peer (initial username password stream).socket stream)) (steps username password) := by
  have greeting : 0 < (initial username password stream).socket.greeting.length ∧
      (initial username password stream).socket.greeting.length ≤ 4 := by
    unfold Socket.greeting
    split <;> decide
  refine ⟨.greet, [], [], .write rfl greeting.1 (.inl ⟨rfl, rfl⟩) rfl rfl ?_, ⟨rfl, rfl, rfl, rfl⟩, by decide, rfl⟩
  simp only [Phase.writes, Phase.reads, Phase.later, Phase.size, steps]
  have lengths : (initial username password stream).socket.username.length = username.length ∧
      (initial username password stream).socket.password.length = password.length := ⟨rfl, rfl⟩
  omega

theorem run_heads {username password : Bytes} {labels : List AssociationLabel}
    (ran : (machine peer).run (initial username password stream) labels = some a)
    (met : (machine peer).Meets (fun a _ => a.settled = false) (initial username password stream) labels) :
    ∃ n, n + labels.length ≤ steps username password ∧
      Heads peer (initial username password stream).socket stream a
        (if labels.any AssociationLabel.fails then none
          else some (afterGreet peer (initial username password stream).socket stream)) n := by
  refine Machine.guarded_invariant (fun labels a => ∃ n, n + labels.length ≤ steps username password ∧
    Heads peer (initial username password stream).socket stream a
      (if labels.any AssociationLabel.fails then none
        else some (afterGreet peer (initial username password stream).socket stream)) n) ?_ ?_ met ran
  · exact ⟨_, Nat.le_refl _, initial_heads⟩
  · rintro past a label b _ ⟨n, bound, heads⟩ unsettled stepped
    obtain ⟨m, fewer, next⟩ := heads.preserved rfl unsettled stepped
    refine ⟨m, by simp; omega, ?_⟩
    cases failed : label.fails <;> simpa [failed] using next

theorem Heads.reaches (relay : s.relay = none) (heads : Heads peer s stream a verdict n) :
    ∃ labels b m, (machine peer).run a labels = some b ∧ (machine peer).Meets (fun a _ => a.settled = false) a labels ∧
      labels.any AssociationLabel.fails = false ∧ b.settled = true ∧ Heads peer s stream b verdict m := by
  induction n using Nat.strongRecOn generalizing a with
  | ind n ih =>
    by_cases ended : a.settled = true
    · exact ⟨[], a, n, rfl, trivial, rfl, ended, heads⟩
    · have unsettled : a.settled = false := by simpa using ended
      obtain ⟨label, b, clean, stepped⟩ := heads.proceeds unsettled
      obtain ⟨m, fewer, next⟩ := heads.preserved relay unsettled stepped
      rw [clean] at next
      obtain ⟨labels, c, k, ran, met, cleanRest, settled, final⟩ := ih m fewer next
      refine ⟨label :: labels, c, k, Machine.run_cons.mpr ⟨b, stepped, ran⟩, ⟨unsettled, ?_⟩, ?_, settled, final⟩
      · intro t same
        obtain rfl := Option.some.inj (stepped.symm.trans same)
        exact met
      · simp [clean, cleanRest]

theorem breaks_unsettled {username password : Bytes} (defect : AuthBreaks username password stream) :
    ¬Settles peer username password stream := by
  rintro ⟨outcome, bound, _, _, orderly⟩
  obtain ⟨fault, verdict⟩ : ∃ fault, afterGreet peer (initial username password stream).socket stream = .error fault :=
    afterGreet_breaks_iff.mpr defect
  have heads : Heads peer _ stream (initial username password stream) _ _ := initial_heads
  rw [verdict] at heads
  obtain ⟨labels, b, m, ran, met, _, settled, final⟩ := heads.reaches rfl
  rcases final.ended settled with ⟨_, same, _⟩ | ⟨fault, _, answer⟩ | ⟨_, same, _⟩
  · cases same
  · exact (orderly labels b ran met).2.held fault answer
  · cases same

/-- The handshake settles as it should exactly when it does not come to the credentials' reply. -/
theorem settles_iff {username password : Bytes} :
    Settles peer username password stream ↔ ¬AuthBreaks username password stream := by
  constructor
  · intro settles defect
    exact breaks_unsettled defect settles
  · intro sound
    cases verdict : afterGreet peer (initial username password stream).socket stream with
    | error fault => exact absurd (afterGreet_breaks_iff.mp ⟨fault, verdict⟩) sound
    | ok outcome =>
      refine ⟨outcome, steps username password, fun relay rest => afterGreet_grants verdict, ?_, ?_⟩
      · rintro rv rfl
        exact afterGreet_refuses verdict
      · intro labels a ran met
        obtain ⟨n, bound, heads⟩ := run_heads ran met
        rw [verdict] at heads
        exact ⟨by omega, heads.orderly⟩

/-- The proxy accepts the credentials and grants the relay 10.0.0.1:1080; the process has stopped by then. -/
theorem accepted_credentials_abort :
    Grants true (.ok [127, 0, 0, 1]) [5, 2, 1, 0, 5, 0, 0, 1, 10, 0, 0, 1, 4, 56] ⟨[10, 0, 0, 1], 1080⟩ [] ∧
      ¬Settles (.ok [127, 0, 0, 1]) [117] [112] [5, 2, 1, 0, 5, 0, 0, 1, 10, 0, 0, 1, 4, 56] := by
  constructor
  · have granted : AssociateReply (.ok [127, 0, 0, 1]) [5, 0, 0, 1, 10, 0, 0, 1, 4, 56] ⟨[10, 0, 0, 1], 1080⟩ :=
      show AssociateReply _ ([5, 0, 0, 1] ++ ([10, 0, 0, 1] ++ [4, 56])) _ from .mk (.inl ⟨rfl, rfl⟩) rfl
    exact .authenticated rfl granted
  · exact breaks_unsettled (by decide)

end Association

end Cronet.Socks
