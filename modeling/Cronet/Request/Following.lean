import Cronet.Native.Call
import Cronet.Request.Walk

namespace Cronet.Request

open Cronet.Native (NetOp RequestObserver ResponseHead)
open Cronet.Session (Response)
open Cronet.Url (Str Python origin)

section

variable [Library]

structure Sent where
  url : Str
  headers : TracedHeaders

def TracedCall.asSent (call : TracedCall) : Sent := ⟨call.settings.url, call.traced⟩

/-- A native call under way: the headers it was given, and the observer following its redirects. -/
structure NativeCall where
  headers : TracedHeaders
  observer : RequestObserver

inductive EntryPoint where
  | request
  | stream
  deriving DecidableEq

/-- One `request` or `stream`, with every request it has sent, oldest first. Only a `request`
    over a jar walks a chain. -/
structure Exchange (J : Type) where
  walk : Option (Walk J)
  call : Option NativeCall
  sent : List Sent

inductive ExchangeEvent (J : Type) where
  | walk (event : WalkEvent J)
  | redirect (newLocation : Str) (head : ResponseHead)

def redirectLimit (options : RequestOptions) (sessionLimit : Int) : Int := options.maxRedirects.getD sessionLimit

namespace Exchange

variable {J : Type} [CookieJar J]

/-- `StartCall`: the request goes out with every header it was given. -/
def start (s : Exchange J) (call : TracedCall) : Exchange J :=
  { s with
    call := some ⟨call.traced, (Native.Call.initial (String.ofList call.settings.url) call.settings.maxRedirects).observer⟩
    sent := s.sent ++ [⟨call.settings.url, call.traced⟩] }

def initial (entry : EntryPoint) (method url : Str) (options : RequestOptions) (defaults : Headers Str)
    (cookies : Option J) (sessionLimit : Int) (boundary : Str) : Except Raised (Exchange J) := do
  let url ← target url options
  let limit := redirectLimit options sessionLimit
  match entry, cookies with
  | .request, some jar => return { walk := some (.initial method url options limit jar), call := none, sent := [] }
  | _, cookies =>
    let call ← traceCall method url options defaults cookies limit boundary
    return start { walk := none, call := none, sent := [] } call

/-- A redirect the observer follows sends the call's headers again, to wherever it leads. -/
def redirect (s : Exchange J) (newLocation : Str) (head : ResponseHead) : Option (Exchange J) :=
  s.call.map fun call =>
    let (observer, ops) := call.observer.onReceivedRedirect (String.ofList newLocation) head
    if NetOp.followRedirect ∈ ops then
      { s with call := some { call with observer }, sent := s.sent ++ [⟨newLocation, call.headers⟩] }
    else { s with call := none }

def step (defaults : Headers Str) (s : Exchange J) : ExchangeEvent J → Option (Exchange J)
  | .redirect newLocation head => s.redirect newLocation head
  | .walk event => do
    let walk ← s.walk
    let next ← walk.step defaults event
    match event with
    | .build _ =>
      let call ← next.built.getLast?
      return start { s with walk := some next } call
    | .receive _ => return { s with walk := some next, call := none }
    | .share _ => return { s with walk := some next }

def machine (defaults : Headers Str) : Machine (Exchange J) (ExchangeEvent J) := ⟨step defaults⟩

end Exchange

/-- A header made for the origin of `first`: given by hand, or chosen by the jar for it. -/
def Source.BuiltFor (first : Str) : Source → Prop
  | .request | .session | .auth => True
  | .implied => False
  | .jar url => origin url = origin first

def Stays (first : Str) (sent : List Sent) : Prop := ∀ r ∈ sent, origin r.url = origin first

/-- No request that reaches another origin carries a credential made for the first, and what
    each hop carries by hand depends only on where the chain has been, not on who follows it. -/
structure Discreet (options : RequestOptions) (defaults : Headers Str) (first : Str) (sent : List Sent) : Prop where
  safe : ∀ r ∈ sent, origin r.url ≠ origin first →
    ∀ c ∈ r.headers.pairs, isCredential c.1 = true → ¬c.2.1.BuiltFor first
  agree : ∀ before r after, sent = before ++ r :: after →
    ∀ c, c ∈ handOf r.headers ↔ Stays first (before ++ [r]) ∧ Supplied options defaults c

/-- Of a request over a jar each hop is built anew; anything else is built once. -/
def Unexposed {J : Type} [CookieJar J] (entry : EntryPoint) (options : RequestOptions) (defaults : Headers Str)
    (cookies : Option J) (first : Str) : Prop :=
  match entry, cookies with
  | .request, some _ => ∀ p ∈ defaults.pairs, isCredential p.1 = false
  | _, cookies => NoCredentials options defaults cookies first

omit [Library] in
theorem not_followed {o : RequestObserver} {newLocation : String} {head : ResponseHead} (none_ : o.maxRedirects = 0) :
    NetOp.followRedirect ∉ (o.onReceivedRedirect newLocation head).2 := by
  have spent : (0 : Int) ≤ o.redirectCount := Int.natCast_nonneg _
  simp [RequestObserver.onReceivedRedirect, RequestObserver.responseOps, none_, spent]

namespace Exchange

section

variable {J : Type}

structure NativeInv (call : TracedCall) (s : Exchange J) : Prop where
  alone : s.walk = none
  resends : ∀ c, s.call = some c → c.headers = call.traced
  sent : ∀ r ∈ s.sent, r.headers = call.traced

variable [CookieJar J]

theorem NativeInv.step {defaults : Headers Str} {call : TracedCall} {s next : Exchange J} {event : ExchangeEvent J}
    (inv : NativeInv call s) (stepped : s.step defaults event = some next) : NativeInv call next := by
  cases event with
  | walk event => simp [Exchange.step, inv.alone] at stepped
  | redirect newLocation head =>
    obtain ⟨c, held, same⟩ := Option.map_eq_some_iff.mp stepped
    have headers := inv.resends c held
    dsimp only at same
    split at same
    · cases same
      refine ⟨inv.alone, fun c' same => ?_, fun r member => ?_⟩
      · cases same
        exact headers
      · rcases List.mem_append.mp member with member | member
        · exact inv.sent r member
        · rw [List.mem_singleton.mp member]
          exact headers
    · cases same
      exact ⟨inv.alone, nofun, inv.sent⟩

/-- A chain being walked: what has been sent is what has been built, and nothing is followed natively. -/
structure WalkedInv (defaults : Headers Str) (first : Str) (options : RequestOptions) (s : Exchange J) : Prop where
  walk : ∃ w, s.walk = some w ∧ Walk.Inv defaults first options w ∧ s.sent = w.built.map TracedCall.asSent
  unfollowed : ∀ c, s.call = some c → c.observer.maxRedirects = 0

theorem WalkedInv.step {defaults : Headers Str} {first : Str} {options : RequestOptions} {s next : Exchange J}
    {event : ExchangeEvent J} (inv : WalkedInv defaults first options s) (stepped : s.step defaults event = some next) :
    WalkedInv defaults first options next := by
  obtain ⟨w, walking, walkInv, sent⟩ := inv.walk
  cases event with
  | walk event =>
    simp only [Exchange.step, walking, bind, Option.bind_some] at stepped
    obtain ⟨after, moved, stepped⟩ := Option.bind_eq_some_iff.mp stepped
    have moves := walkInv.step moved
    cases event with
    | build boundary =>
      obtain ⟨method, url, current, call, pending, traced, rfl⟩ := Walk.step_build moved
      simp only [List.getLast?_append, List.getLast?_singleton, Option.some_or, Option.bind_some, pure,
        Option.some.injEq] at stepped
      subst stepped
      refine ⟨⟨_, rfl, moves, by simp [start, sent, TracedCall.asSent]⟩, fun c same => ?_⟩
      cases same
      simp [(traceCall_ok traced).2.1, Native.Call.initial]
    | receive response =>
      obtain ⟨chain, _, _, rfl⟩ := Walk.step_receive moved
      cases stepped
      exact ⟨⟨_, rfl, moves, sent⟩, nofun⟩
    | share jar =>
      cases moved
      cases stepped
      exact ⟨⟨_, rfl, moves, sent⟩, inv.unfollowed⟩
  | redirect newLocation head =>
    obtain ⟨c, held, same⟩ := Option.map_eq_some_iff.mp stepped
    dsimp only at same
    rw [if_neg (not_followed (inv.unfollowed c held))] at same
    cases same
    exact ⟨⟨w, walking, walkInv, sent⟩, nofun⟩

theorem NativeInv.discreet_iff {method first boundary : Str} {options : RequestOptions} {defaults : Headers Str}
    {cookies : Option J} {maxRedirects : Int} {call : TracedCall} {s : Exchange J} (inv : NativeInv call s)
    (built : traceCall method first options defaults cookies maxRedirects boundary = .ok call) :
    Discreet options defaults first s.sent ↔
      Stays first s.sent ∨ NoCredentials options defaults cookies first := by
  have url := (traceCall_ok built).1
  have hand : ∀ r ∈ s.sent, ∀ c, c ∈ handOf r.headers ↔ Supplied options defaults c := by
    intro r member c
    rw [inv.sent r member]
    exact mem_hand built c
  rw [← noCredentials_iff built]
  constructor
  · intro ⟨safe, _⟩
    by_contra exposed
    simp only [Stays, not_or, not_forall, Bool.not_eq_false] at exposed
    obtain ⟨⟨r, member, away⟩, c, carried, credential⟩ := exposed
    apply safe r member away c (by rwa [inv.sent r member]) credential
    have fits := call.sourced c carried
    obtain ⟨name, source, value⟩ := c
    cases source with
    | request | session | auth => exact trivial
    | implied =>
      rw [show name = "content-type".toList from fits, isCredential_contentType] at credential
      cases credential
    | jar u => rw [show u = call.settings.url from fits, url]; exact rfl
  · rintro (stays | plain)
    · refine ⟨fun r member away => absurd (stays r member) away, fun before r after split c => ?_⟩
      have within : Stays first (before ++ [r]) := fun q member => stays q (by rw [split]; simp at member ⊢; tauto)
      rw [hand r (by simp [split])]
      exact ⟨fun supplied => ⟨within, supplied⟩, And.right⟩
    · refine ⟨fun r member _ c carried credential => ?_, fun before r after split c => ?_⟩
      · rw [inv.sent r member] at carried
        exact absurd credential (by simp [plain c carried])
      · have nothing : ¬Supplied options defaults c := by
          intro supplied
          have carried := (List.mem_filter.mp ((mem_hand built c).mpr supplied)).1
          exact absurd supplied.1 (by simp [plain c carried])
        rw [hand r (by simp [split])]
        exact ⟨fun supplied => absurd supplied nothing, And.right⟩

omit [CookieJar J] in
theorem WalkedInv.discreet_iff {defaults : Headers Str} {first : Str} {options : RequestOptions} {s : Exchange J}
    (inv : WalkedInv defaults first options s) :
    Discreet options defaults first s.sent ↔
      Stays first s.sent ∨ ∀ p ∈ defaults.pairs, isCredential p.1 = false := by
  obtain ⟨w, _, walked, sent⟩ := inv.walk
  have stays : ∀ calls : List TracedCall, Stays first (calls.map TracedCall.asSent) ↔ Walk.Home first calls := by
    intro calls
    simp only [Stays, Walk.Home, List.forall_mem_map, TracedCall.asSent]
  rw [sent]
  constructor
  · rintro ⟨safe, _⟩
    rw [stays]
    by_contra exposed
    simp only [Walk.Home, not_or, not_forall, Bool.not_eq_false] at exposed
    obtain ⟨⟨call, member, away⟩, p, given, credential⟩ := exposed
    have carried : (p.1, Source.session, p.2) ∈ call.hand :=
      (walked.away_session member away _).mpr ⟨credential, rfl, given⟩
    exact safe call.asSent (List.mem_map_of_mem member) away _ (List.mem_filter.mp carried).1 credential trivial
  · intro condition
    constructor
    · intro r member away c carried credential made
      obtain ⟨call, called, rfl⟩ := List.mem_map.mp member
      rcases condition with home | plain
      · exact away (home _ member)
      · have fits := call.sourced c carried
        obtain ⟨name, source, value⟩ := c
        cases source with
        | implied => exact made
        | jar u => exact away (by rw [← made, show u = call.settings.url from fits]; rfl)
        | request | session | auth =>
          have byHand : _ ∈ call.hand := List.mem_filter.mpr ⟨carried, by simp [credential, Source.byHand]⟩
          obtain ⟨_, _, given⟩ := (walked.away_session called away _).mp byHand
          exact absurd credential (by simp [plain _ given])
    · intro before r after split c
      obtain ⟨front, back, built, rfl, tail⟩ := List.map_eq_append_iff.mp split
      obtain ⟨call, rest, rfl, rfl, rfl⟩ := List.map_eq_cons_iff.mp tail
      have carries := walked.built front call rest built
      have homes : Stays first (front.map TracedCall.asSent ++ [call.asSent]) ↔ Walk.Home first (front ++ [call]) := by
        rw [← stays]
        simp
      rw [homes]
      by_cases home : Walk.Home first (front ++ [call])
      · exact (carries.kept home c).trans ⟨fun supplied => ⟨home, supplied⟩, And.right⟩
      · constructor
        · intro carried
          obtain ⟨credential, _, given⟩ := (carries.stripped home c).mp carried
          rcases condition with all | plain
          · exact absurd (((stays _).mp all).of_subset (by rw [built]; intro a; simp; tauto)) home
          · exact absurd credential (by simp [plain _ given])
        · exact fun supplied => absurd supplied.1 home

section

variable {entry : EntryPoint} {method url first boundary : Str} {options : RequestOptions} {defaults : Headers Str}
  {cookies : Option J} {sessionLimit : Int} {s : Exchange J}

theorem initial_cases (targeted : target url options = .ok first)
    (begun : initial entry method url options defaults cookies sessionLimit boundary = .ok s) :
    (WalkedInv defaults first options s ∧
      (Unexposed entry options defaults cookies first ↔ ∀ p ∈ defaults.pairs, isCredential p.1 = false)) ∨
    ∃ call, traceCall method first options defaults cookies (redirectLimit options sessionLimit) boundary = .ok call ∧
      NativeInv call s ∧
      (Unexposed entry options defaults cookies first ↔ NoCredentials options defaults cookies first) := by
  obtain ⟨_, found, begun⟩ := Checked.bind_ok begun
  rw [targeted] at found
  cases found
  dsimp only at begun
  split at begun
  · cases begun
    exact .inl ⟨⟨⟨_, rfl, Walk.inv_initial defaults method first options _ _, rfl⟩, nofun⟩, Iff.rfl⟩
  · rename_i unwalked
    obtain ⟨call, built, begun⟩ := Checked.bind_ok begun
    cases begun
    refine .inr ⟨call, built, ⟨rfl, fun c same => ?_, fun r member => ?_⟩, ?_⟩
    · cases same
      rfl
    · rw [List.mem_singleton.mp member]
    · unfold Unexposed
      split
      · exact absurd rfl (unwalked _ rfl)
      · exact Iff.rfl

/-- The walk leaks what the session supplies, native following all that the first request carried. -/
theorem credentials_stay_iff {events : List (ExchangeEvent J)} {t : Exchange J} (targeted : target url options = .ok first)
    (begun : initial entry method url options defaults cookies sessionLimit boundary = .ok s)
    (ran : (machine defaults).run s events = some t) :
    Discreet options defaults first t.sent ↔
      Stays first t.sent ∨ Unexposed entry options defaults cookies first := by
  rcases initial_cases targeted begun with ⟨inv, exposed⟩ | ⟨call, built, inv, exposed⟩
  · rw [exposed]
    apply WalkedInv.discreet_iff
    exact Machine.invariant (WalkedInv defaults first options) inv (fun _ _ _ inv stepped => inv.step stepped) ran
  · rw [exposed]
    apply NativeInv.discreet_iff _ built
    exact Machine.invariant (NativeInv call) inv (fun _ _ _ inv stepped => inv.step stepped) ran

end

end

end Exchange

end

section

attribute [local instance] asciiLibrary emptyJar

def redirectHead : ResponseHead := ⟨302, "Found", none, false, "h2", "direct"⟩

def Sent.shown (r : Sent) : Shown := ⟨r.url, handOf r.headers⟩

namespace Exchange

def runFrom (entry : EntryPoint) (url : Str) (options : RequestOptions) (defaults : Headers Str) (cookies : Option Unit)
    (events : List (ExchangeEvent Unit)) : Option (Exchange Unit) :=
  (initial entry "GET".toList url options defaults cookies 20 []).toOption.bind fun s => (machine defaults).run s events

theorem discreet_plain :
    ∃ s t, initial .stream "GET".toList "https://a.test/".toList .empty ⟨[]⟩ (some ()) 20 [] = .ok s ∧
      (machine ⟨[]⟩).run s [.redirect "https://b.test/".toList redirectHead] = some t ∧
      t.sent.map Sent.shown = [⟨"https://a.test/".toList, []⟩, ⟨"https://b.test/".toList, []⟩] ∧
      Discreet .empty ⟨[]⟩ "https://a.test/".toList t.sent := by
  have shown : (runFrom .stream "https://a.test/".toList .empty ⟨[]⟩ (some ())
      [.redirect "https://b.test/".toList redirectHead]).map (fun t => t.sent.map Sent.shown) =
        some [⟨"https://a.test/".toList, []⟩, ⟨"https://b.test/".toList, []⟩] := by decide
  obtain ⟨t, ran, same⟩ := Option.map_eq_some_iff.mp shown
  obtain ⟨s, begun, ran⟩ := Option.bind_eq_some_iff.mp ran
  refine ⟨s, t, ok_of_toOption begun, ran, same, ?_⟩
  apply (credentials_stay_iff (show target "https://a.test/".toList .empty = .ok "https://a.test/".toList by decide)
    (ok_of_toOption begun) ran).mpr
  exact .inr ⟨nofun, nofun, rfl, rfl, rfl⟩

/-- Chromium sends the token again wherever the redirect leads. -/
theorem bearer_followed :
    ∃ events s t, initial .request "GET".toList "https://a.test/".toList
        { RequestOptions.empty with bearerAuth := some "SECRET".toList } ⟨[]⟩ (none : Option Unit) 20 [] = .ok s ∧
      (machine ⟨[]⟩).run s events = some t ∧
      ¬Discreet { RequestOptions.empty with bearerAuth := some "SECRET".toList } ⟨[]⟩ "https://a.test/".toList t.sent := by
  have shown : (runFrom .request "https://a.test/".toList
      { RequestOptions.empty with bearerAuth := some "SECRET".toList } ⟨[]⟩ none
      [.redirect "https://b.test/".toList redirectHead]).map (fun t => t.sent.map Sent.shown) =
        some [⟨"https://a.test/".toList, [("authorization".toList, .auth, "Bearer SECRET".toList)]⟩,
          ⟨"https://b.test/".toList, [("authorization".toList, .auth, "Bearer SECRET".toList)]⟩] := by decide
  obtain ⟨t, ran, same⟩ := Option.map_eq_some_iff.mp shown
  obtain ⟨s, begun, ran⟩ := Option.bind_eq_some_iff.mp ran
  refine ⟨_, s, t, ok_of_toOption begun, ran, fun discreet => ?_⟩
  obtain ⟨_, rest, split, _, tail⟩ := List.map_eq_cons_iff.mp same
  obtain ⟨second, _, rfl, there, _⟩ := List.map_eq_cons_iff.mp tail
  have url : second.url = "https://b.test/".toList := congrArg Shown.url there
  have carried : ("authorization".toList, Source.auth, "Bearer SECRET".toList) ∈ handOf second.headers := by
    rw [show handOf second.headers = _ from congrArg Shown.hand there]
    exact List.mem_singleton.mpr rfl
  exact discreet.safe second (by simp [split]) (by rw [url]; decide) _ (List.mem_filter.mp carried).1
    isCredential_authorization trivial

end Exchange

end

end Cronet.Request
