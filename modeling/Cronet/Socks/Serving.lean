import Cronet.Socks.Server

namespace Cronet.Socks.Tcp

open Cronet.Native (Bytes)
open Cronet.Socks.Server (Config Handler decode)

theorem prefix_segment {before chunk segment more : Bytes} (arrived : before ++ chunk <+: before ++ (segment ++ more))
    (within : chunk.length ≤ segment.length) : chunk <+: segment := by
  have part : chunk <+: segment ++ more := (List.prefix_append_right_inj before).mp arrived
  exact List.prefix_of_prefix_length_le part (List.prefix_append segment more) within

theorem decode_nil : decode [] = some "" := by
  simp [decode, String.fromUTF8?]
  rfl

namespace Socket

def methods (s : Socket) : Bytes :=
  if s.hasCredentials then [kAuthMethodNone, kAuthMethodUsernamePassword] else [kAuthMethodNone]

def frame (s : Socket) : Bytes :=
  [kAuthSubnegotiationVersion] ++ ([UInt8.ofNat s.username.length] ++
    (s.username ++ ([UInt8.ofNat s.password.length] ++ s.password)))

theorem greeting_methods (s : Socket) : s.greeting = [kSOCKS5Version, UInt8.ofNat s.methods.length] ++ s.methods := by
  unfold greeting methods
  split <;> rfl

theorem authFrame_frame {s : Socket} (fits : s.Fits) : authFrame s.username s.password = .ok s.frame := by
  have username : s.username.length < 2 ^ 8 := Nat.lt_succ_of_le fits.2.1
  have password : s.password.length < 2 ^ 8 := Nat.lt_succ_of_le fits.2.2
  simp only [authFrame, Checked.uint8, if_pos username, if_pos password]
  simp [frame, bind, Except.bind, pure, Except.pure]

end Socket

/-- Where the proxy waits for a stretch of what this client writes, behind what it has taken and with what it has sent. -/
inductive Waits (cfg : Config) (s : Socket) : Server.Stage → (before segment sent : Bytes) → List (Finset UInt8) → Prop where
  | head : Waits cfg s .greetHead [] [kSOCKS5Version, UInt8.ofNat s.methods.length] [] []
  | methods : Waits cfg s (.greetMethods s.methods.length) [kSOCKS5Version, UInt8.ofNat s.methods.length] s.methods [] []
  | version (asks : cfg.username ≠ "") (held : s.hasCredentials = true) :
      Waits cfg s .authVersion s.greeting [kAuthSubnegotiationVersion] [kSOCKS5Version, kAuthMethodUsernamePassword]
        [s.methods.toFinset]
  | usernameLength (asks : cfg.username ≠ "") (held : s.hasCredentials = true) :
      Waits cfg s .authUsernameLength (s.greeting ++ [kAuthSubnegotiationVersion]) [UInt8.ofNat s.username.length]
        [kSOCKS5Version, kAuthMethodUsernamePassword] [s.methods.toFinset]
  | username (asks : cfg.username ≠ "") (held : s.hasCredentials = true) :
      Waits cfg s (.authUsername s.username.length)
        (s.greeting ++ [kAuthSubnegotiationVersion] ++ [UInt8.ofNat s.username.length]) s.username
        [kSOCKS5Version, kAuthMethodUsernamePassword] [s.methods.toFinset]
  | passwordLength {username : String} (asks : cfg.username ≠ "") (held : s.hasCredentials = true)
      (decoded : decode s.username = some username) :
      Waits cfg s (.authPasswordLength username)
        (s.greeting ++ [kAuthSubnegotiationVersion] ++ [UInt8.ofNat s.username.length] ++ s.username)
        [UInt8.ofNat s.password.length] [kSOCKS5Version, kAuthMethodUsernamePassword] [s.methods.toFinset]
  | password {username : String} (asks : cfg.username ≠ "") (held : s.hasCredentials = true)
      (decoded : decode s.username = some username) :
      Waits cfg s (.authPassword username s.password.length)
        (s.greeting ++ [kAuthSubnegotiationVersion] ++ [UInt8.ofNat s.username.length] ++ s.username ++
          [UInt8.ofNat s.password.length])
        s.password [kSOCKS5Version, kAuthMethodUsernamePassword] [s.methods.toFinset]

inductive Served (cfg : Config) (s : Socket) : (taken sent : Bytes) → Handler → Prop where
  | waits {stage : Server.Stage} {before segment sent data : Bytes} {offered : List (Finset UInt8)}
      (waits : Waits cfg s stage before segment sent offered) (part : data <+: segment) :
      Served cfg s (before ++ data) sent ⟨stage, data, offered, []⟩
  | unacceptable (asks : cfg.username ≠ "") (without : s.hasCredentials = false) :
      Served cfg s s.greeting [kSOCKS5Version, Server.AUTH_UNACCEPTABLE] ⟨.greeted false, [], [s.methods.toFinset], []⟩
  | plain (free : cfg.username = "") :
      Served cfg s s.greeting [kSOCKS5Version, kAuthMethodNone] ⟨.greeted true, [], [s.methods.toFinset], []⟩
  | granted (asks : cfg.username ≠ "") (held : s.hasCredentials = true) (username : decode s.username = some cfg.username)
      (password : decode s.password = some cfg.password) :
      Served cfg s (s.greeting ++ s.frame) [kSOCKS5Version, kAuthMethodUsernamePassword, kAuthSubnegotiationVersion, 0x00]
        ⟨.greeted true, [], [s.methods.toFinset], [(cfg.username, cfg.password)]⟩
  | denied {username password : String} (asks : cfg.username ≠ "") (held : s.hasCredentials = true)
      (decoded : decode s.username = some username) (decoded' : decode s.password = some password)
      (other : ¬(username = cfg.username ∧ password = cfg.password)) :
      Served cfg s (s.greeting ++ s.frame) [kSOCKS5Version, kAuthMethodUsernamePassword, kAuthSubnegotiationVersion, 0x01]
        ⟨.greeted false, [], [s.methods.toFinset], [(username, password)]⟩
  | undecoded {taken : Bytes} (asks : cfg.username ≠ "") (held : s.hasCredentials = true)
      (undecoded : decode s.username = none ∨ decode s.password = none) :
      Served cfg s taken [kSOCKS5Version, kAuthMethodUsernamePassword] ⟨.raised, [], [s.methods.toFinset], []⟩
  | hungUp {taken sent : Bytes} {offered : List (Finset UInt8)} : Served cfg s taken sent ⟨.hungUp, [], offered, []⟩

def Accepts (cfg : Config) (s : Socket) : Prop :=
  cfg.username = "" ∨ decode s.username = some cfg.username ∧ decode s.password = some cfg.password

section Serving

variable {cfg : Config} {s : Socket} {stage : Server.Stage} {before segment taken sent chunk data : Bytes}
  {offered : List (Finset UInt8)} {handler : Handler}

theorem Waits.count (waits : Waits cfg s stage before segment sent offered) : stage.count = some segment.length := by
  cases waits <;> rfl

theorem Waits.within (waits : Waits cfg s stage before segment sent offered) :
    ∃ more, s.greeting ++ s.frame = before ++ (segment ++ more) := by
  have greeting := s.greeting_methods
  cases waits with
  | head => exact ⟨s.methods ++ s.frame, by rw [greeting]; simp⟩
  | methods => exact ⟨s.frame, by rw [greeting]; simp⟩
  | version => exact ⟨_, by rw [Socket.frame]⟩
  | usernameLength => exact ⟨_, by rw [Socket.frame]; simp only [List.append_assoc]; rfl⟩
  | username => exact ⟨_, by rw [Socket.frame]; simp only [List.append_assoc]; rfl⟩
  | passwordLength => exact ⟨_, by rw [Socket.frame]; simp only [List.append_assoc]; rfl⟩
  | password => exact ⟨[], by rw [Socket.frame]; simp only [List.append_assoc, List.append_nil]⟩

theorem Served.recv (served : Served cfg s taken sent handler) (awaits : handler.stage.count = some count)
    (room : handler.data.length + chunk.length ≤ count) (arrived : taken ++ chunk <+: s.greeting ++ s.frame) :
    Served cfg s (taken ++ chunk) sent { handler with data := handler.data ++ chunk } := by
  cases served with
  | @waits stage before segment sent data offered waits part =>
    rcases waits.within with ⟨more, whole⟩
    rw [waits.count, Option.some.injEq] at awaits
    rw [List.append_assoc] at arrived ⊢
    rw [whole] at arrived
    apply Served.waits waits
    apply prefix_segment arrived
    rw [List.length_append, awaits]
    exact room
  | _ => simp [Server.Stage.count] at awaits

theorem Served.starts (waits : Waits cfg s stage before segment sent offered) :
    Served cfg s before sent ⟨stage, [], offered, []⟩ := by
  have served := Served.waits waits (List.nil_prefix)
  rwa [List.append_nil] at served

theorem toNat_ofNat {n : Nat} (fits : n ≤ kMaxCredentialLength) : (UInt8.ofNat n).toNat = n :=
  UInt8.toNat_ofNat_of_lt' (Nat.lt_succ_of_le fits)

theorem Socket.methods_length (s : Socket) : s.methods.length ≤ kMaxCredentialLength := by
  unfold methods
  split <;> decide

theorem Served.chooses : Served cfg s s.greeting
    (Handler.resume cfg ⟨.greetMethods s.methods.length, s.methods, [], []⟩).2
    (Handler.resume cfg ⟨.greetMethods s.methods.length, s.methods, [], []⟩).1 := by
  by_cases free : cfg.username = ""
  · have offers : Server.AUTH_NONE ∈ s.methods.toFinset := by
      unfold Socket.methods
      split <;> decide
    have resumed : Handler.resume cfg ⟨.greetMethods s.methods.length, s.methods, [], []⟩ =
        (⟨.greeted true, [], [s.methods.toFinset], []⟩, [kSOCKS5Version, kAuthMethodNone]) := by
      simp [Handler.resume, Handler.wanted, Handler.await, free, offers]
      exact ⟨rfl, rfl⟩
    rw [resumed]
    exact .plain free
  by_cases held : s.hasCredentials = true
  · have offers : Server.AUTH_USERNAME_PASSWORD ∈ s.methods.toFinset := by
      simp only [Socket.methods, held]
      decide
    have resumed : Handler.resume cfg ⟨.greetMethods s.methods.length, s.methods, [], []⟩ =
        (⟨.authVersion, [], [s.methods.toFinset], []⟩, [kSOCKS5Version, kAuthMethodUsernamePassword]) := by
      simp [Handler.resume, Handler.wanted, Handler.await, free, offers]
      exact ⟨rfl, rfl⟩
    rw [resumed]
    exact .starts (.version free held)
  · have without : s.hasCredentials = false := Bool.not_eq_true _ ▸ held
    have lacks : Server.AUTH_USERNAME_PASSWORD ∉ s.methods.toFinset := by
      simp only [Socket.methods, without]
      decide
    have resumed : Handler.resume cfg ⟨.greetMethods s.methods.length, s.methods, [], []⟩ =
        (⟨.greeted false, [], [s.methods.toFinset], []⟩, [kSOCKS5Version, Server.AUTH_UNACCEPTABLE]) := by
      simp [Handler.resume, Handler.wanted, Handler.await, free, lacks]
      rfl
    rw [resumed]
    exact .unacceptable free without

theorem Waits.resume (waits : Waits cfg s stage before segment sent offered) (fits : s.Fits) :
    Served cfg s (before ++ segment) (sent ++ (Handler.resume cfg ⟨stage, segment, offered, []⟩).2)
      (Handler.resume cfg ⟨stage, segment, offered, []⟩).1 := by
  cases waits with
  | head =>
    have resumed : Handler.resume cfg ⟨.greetHead, [kSOCKS5Version, UInt8.ofNat s.methods.length], [], []⟩ =
        (⟨.greetMethods s.methods.length, [], [], []⟩, []) :=
      congrArg (fun count => ((⟨.greetMethods count, [], [], []⟩ : Handler), ([] : Bytes))) (toNat_ofNat s.methods_length)
    rw [resumed]
    exact .starts .methods
  | methods =>
    rw [← s.greeting_methods]
    exact .chooses
  | version asks held => exact .starts (.usernameLength asks held)
  | usernameLength asks held =>
    have resumed : Handler.resume cfg ⟨.authUsernameLength, [UInt8.ofNat s.username.length], [s.methods.toFinset], []⟩ =
        (⟨.authUsername s.username.length, [], [s.methods.toFinset], []⟩, []) :=
      congrArg (fun count => ((⟨.authUsername count, [], _, []⟩ : Handler), ([] : Bytes))) (toNat_ofNat fits.2.1)
    rw [resumed]
    exact .starts (.username asks held)
  | username asks held =>
    cases decoded : decode s.username with
    | none =>
      have resumed : Handler.resume cfg ⟨.authUsername s.username.length, s.username, [s.methods.toFinset], []⟩ =
          (⟨.raised, [], [s.methods.toFinset], []⟩, []) := by
        simp [Handler.resume, Handler.await, decoded]
      rw [resumed]
      exact .undecoded asks held (.inl decoded)
    | some username =>
      have resumed : Handler.resume cfg ⟨.authUsername s.username.length, s.username, [s.methods.toFinset], []⟩ =
          (⟨.authPasswordLength username, [], [s.methods.toFinset], []⟩, []) := by
        simp [Handler.resume, Handler.await, decoded]
      rw [resumed]
      exact .starts (.passwordLength asks held decoded)
  | @passwordLength username asks held decoded =>
    have resumed : Handler.resume cfg
        ⟨.authPasswordLength username, [UInt8.ofNat s.password.length], [s.methods.toFinset], []⟩ =
        (⟨.authPassword username s.password.length, [], [s.methods.toFinset], []⟩, []) :=
      congrArg (fun count => ((⟨.authPassword username count, [], _, []⟩ : Handler), ([] : Bytes))) (toNat_ofNat fits.2.2)
    rw [resumed]
    exact .starts (.password asks held decoded)
  | @password username asks held decoded =>
    cases decoded' : decode s.password with
    | none =>
      have resumed : Handler.resume cfg
          ⟨.authPassword username s.password.length, s.password, [s.methods.toFinset], []⟩ =
          (⟨.raised, [], [s.methods.toFinset], []⟩, []) := by
        simp [Handler.resume, Handler.await, decoded']
      rw [resumed]
      exact .undecoded asks held (.inr decoded')
    | some password =>
      have whole : s.greeting ++ [kAuthSubnegotiationVersion] ++ [UInt8.ofNat s.username.length] ++ s.username ++
          [UInt8.ofNat s.password.length] ++ s.password = s.greeting ++ s.frame := by
        simp only [Socket.frame, List.append_assoc]
      rw [whole]
      by_cases accepted : username = cfg.username ∧ password = cfg.password
      · rw [accepted.1] at decoded ⊢
        rw [accepted.2] at decoded'
        have resumed : Handler.resume cfg
            ⟨.authPassword cfg.username s.password.length, s.password, [s.methods.toFinset], []⟩ =
            (⟨.greeted true, [], [s.methods.toFinset], [(cfg.username, cfg.password)]⟩,
              [kAuthSubnegotiationVersion, 0x00]) := by
          simp [Handler.resume, Handler.await, decoded']
          rfl
        rw [resumed]
        exact .granted asks held decoded decoded'
      · have resumed : Handler.resume cfg
            ⟨.authPassword username s.password.length, s.password, [s.methods.toFinset], []⟩ =
            (⟨.greeted false, [], [s.methods.toFinset], [(username, password)]⟩, [kAuthSubnegotiationVersion, 0x01]) := by
          have refused : decide (username = cfg.username ∧ password = cfg.password) = false := decide_eq_false accepted
          simp only [Handler.resume, Handler.await, decoded', refused, if_neg accepted]
          rfl
        rw [resumed]
        exact .denied asks held decoded decoded' accepted

theorem Waits.nonempty (waits : Waits cfg s stage before segment sent offered) : before ++ segment ≠ [] := by
  cases waits <;> simp [s.greeting_methods]

theorem Served.resume (served : Served cfg s taken sent handler) (whole : handler.stage.count = some handler.data.length)
    (fits : taken ≠ [] → s.Fits) : Served cfg s taken (sent ++ (handler.resume cfg).2) (handler.resume cfg).1 := by
  cases served with
  | waits waits part =>
    rw [waits.count, Option.some.injEq] at whole
    rcases List.IsPrefix.eq_of_length part whole.symm
    exact waits.resume (fits waits.nonempty)
  | _ => cases whole

theorem hasCredentials_iff (s : Socket) : s.hasCredentials = true ↔ s.username ≠ [] := by
  simp [Socket.hasCredentials]

theorem Served.accepts (served : Served cfg s taken sent handler) (granted : handler.stage = .greeted true) :
    Accepts cfg s := by
  cases served with
  | waits waits part => cases waits <;> cases granted
  | plain free => exact .inl free
  | granted asks held username password => exact .inr ⟨username, password⟩
  | _ => cases granted

theorem Served.accepted (served : Served cfg s taken sent handler) (accepts : Accepts cfg s) :
    handler.stage.refuses = false := by
  cases served with
  | waits waits part => cases waits <;> rfl
  | unacceptable asks without =>
    rcases accepts with free | ⟨username, _⟩
    · exact absurd free asks
    · have unnamed : s.username = [] := by
        by_contra named
        rw [(hasCredentials_iff s).mpr named] at without
        cases without
      rw [unnamed, decode_nil] at username
      exact absurd (Option.some.inj username).symm asks
  | plain free => rfl
  | granted asks held username password => rfl
  | denied asks held decoded decoded' other =>
    rcases accepts with free | ⟨username, password⟩
    · exact absurd free asks
    · exact absurd ⟨Option.some.inj (decoded.symm.trans username), Option.some.inj (decoded'.symm.trans password)⟩ other
  | undecoded asks held undecoded =>
    rcases accepts with free | ⟨username, password⟩
    · exact absurd free asks
    · rw [username, password] at undecoded
      rcases undecoded with none | none <;> cases none
  | hungUp => rfl

theorem Served.noted (served : Served cfg s taken sent handler) : handler.credentialsSeen = [] ∨
    ∃ username password, decode s.username = some username ∧ decode s.password = some password ∧
      handler.credentialsSeen = [(username, password)] := by
  cases served with
  | granted asks held username password => exact .inr ⟨_, _, username, password, rfl⟩
  | denied asks held decoded decoded' other => exact .inr ⟨_, _, decoded, decoded', rfl⟩
  | _ => exact .inl rfl

theorem Served.sees {username password : String} (served : Served cfg s taken sent handler) (asks : cfg.username ≠ "")
    (held : s.hasCredentials = true) (decoded : decode s.username = some username)
    (decoded' : decode s.password = some password)
    (judged : handler.stage = .greeted true ∨ handler.stage.refuses = true) :
    handler.credentialsSeen = [(username, password)] := by
  have seen {name secret : String} (named : decode s.username = some name) (given : decode s.password = some secret) :
      [(name, secret)] = [(username, password)] := by
    rw [Option.some.inj (named.symm.trans decoded), Option.some.inj (given.symm.trans decoded')]
  cases served with
  | waits waits part => cases waits <;> rcases judged with judged | judged <;> cases judged
  | unacceptable asks without =>
    rw [held] at without
    cases without
  | plain free => exact absurd free asks
  | granted asks held named given => exact seen named given
  | denied asks held named given other => exact seen named given
  | undecoded asks held undecoded =>
    rw [decoded, decoded'] at undecoded
    rcases undecoded with none | none <;> cases none
  | hungUp => rcases judged with judged | judged <;> cases judged

end Serving

def stretches : Server.Stage → Nat
  | .greetHead => 7
  | .greetMethods _ => 6
  | .authVersion => 5
  | .authUsernameLength => 4
  | .authUsername _ => 3
  | .authPasswordLength _ => 2
  | .authPassword _ _ => 1
  | .greeted _ | .raised | .hungUp => 0

theorem resume_stretches {cfg : Config} {h : Handler} (whole : h.stage.count = some h.data.length) :
    stretches (h.resume cfg).1.stage < stretches h.stage ∧ (h.resume cfg).1.stage ≠ .hungUp := by
  obtain ⟨stage, data, offered, seen⟩ := h
  have one (single : some 1 = some data.length) : ∃ byte, data = [byte] :=
    List.length_eq_one_iff.mp (Option.some.inj single).symm
  cases stage with
  | greetHead =>
    obtain ⟨version, count, rfl⟩ := List.length_eq_two.mp (Option.some.inj whole).symm
    simp only [Handler.resume]
    split <;> exact ⟨Nat.le_of_ble_eq_true rfl, nofun⟩
  | greetMethods count =>
    simp only [Handler.resume]
    split
    · exact ⟨Nat.le_of_ble_eq_true rfl, nofun⟩
    · simp only [Handler.await]
      split <;> exact ⟨Nat.le_of_ble_eq_true rfl, nofun⟩
  | authVersion =>
    obtain ⟨version, rfl⟩ := one whole
    simp only [Handler.resume]
    split <;> exact ⟨Nat.le_of_ble_eq_true rfl, nofun⟩
  | authUsernameLength =>
    obtain ⟨count, rfl⟩ := one whole
    exact ⟨Nat.le_of_ble_eq_true rfl, nofun⟩
  | authUsername count =>
    simp only [Handler.resume]
    split <;> exact ⟨Nat.le_of_ble_eq_true rfl, nofun⟩
  | authPasswordLength username =>
    obtain ⟨count, rfl⟩ := one whole
    exact ⟨Nat.le_of_ble_eq_true rfl, nofun⟩
  | authPassword username count =>
    simp only [Handler.resume]
    split <;> exact ⟨Nat.le_of_ble_eq_true rfl, nofun⟩
  | greeted accepted => cases whole
  | raised => cases whole
  | hungUp => cases whole

end Cronet.Socks.Tcp
