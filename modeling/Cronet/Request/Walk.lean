import Cronet.Request.Credentials

namespace Cronet.Request

open Cronet.Session (Response)
open Cronet.Url (Str Python origin urljoin)

section

variable [Library] {J : Type} [CookieJar J]

/-- A chain being driven: the calls built for its hops so far, oldest first, and whether the
    last of them still waits for its response. -/
structure Walk (J : Type) where
  chain : RedirectChain J
  built : List TracedCall
  waiting : Bool

/-- `share` is what other threads and sessions have made of the jar. -/
inductive WalkEvent (J : Type) where
  | build (boundary : Str)
  | receive (response : Response)
  | share (jar : J)

namespace Walk

def initial (method url : Str) (options : RequestOptions) (limit : Int) (cookies : J) : Walk J :=
  ⟨.initial method url options limit cookies, [], false⟩

/-- The loop of `Session.request` over a jar; a label that raises ends the run. -/
def step (defaults : Headers Str) (w : Walk J) : WalkEvent J → Option (Walk J)
  | .build boundary =>
    match w.waiting, w.chain.pending with
    | false, some (method, url, options) =>
      (traceCall method url options defaults (some w.chain.cookies) 0 boundary).toOption.map fun call =>
        { w with built := w.built ++ [call], waiting := true }
    | _, _ => none
  | .receive response =>
    if w.waiting then (w.chain.receive response).toOption.map fun chain => { w with chain, waiting := false } else none
  | .share jar => some { w with chain := { w.chain with cookies := jar } }

def machine (defaults : Headers Str) : Machine (Walk J) (WalkEvent J) := ⟨step defaults⟩

def Home (start : Str) (calls : List TracedCall) : Prop :=
  ∀ call ∈ calls, origin call.settings.url = origin start

/-- Before the first hop elsewhere everything the caller supplied goes along, afterwards only
    what the session supplies. -/
structure Carries (defaults : Headers Str) (options : RequestOptions) (home : Prop) (carried : Entry → Prop) : Prop where
  kept : home → ∀ c, carried c ↔ Supplied options defaults c
  stripped : ¬home → ∀ c, carried c ↔ SessionSupplied defaults c

structure Inv (defaults : Headers Str) (start : Str) (options : RequestOptions) (w : Walk J) : Prop where
  pending : ∀ method url current, w.chain.pending = some (method, url, current) →
    Carries defaults options (Home start w.built ∧ origin url = origin start) (Supplied current defaults)
  built : ∀ before call after, w.built = before ++ call :: after →
    Carries defaults options (Home start (before ++ [call])) (· ∈ call.hand)
  awaited : w.waiting = true → ∀ method url current, w.chain.pending = some (method, url, current) →
    ∃ call ∈ w.built, call.settings.url = url
  begun : w.built = [] → ∀ method url current, w.chain.pending = some (method, url, current) → url = start
  first : ∀ call ∈ w.built.head?, call.settings.url = start

omit [CookieJar J] in
theorem inv_initial (defaults : Headers Str) (method url : Str) (options : RequestOptions) (limit : Int) (cookies : J) :
    Inv defaults url options (initial method url options limit cookies) where
  pending _ _ _ same := by
    cases same
    have home : Home url [] := fun _ member => nomatch member
    exact ⟨fun _ _ => Iff.rfl, fun away => absurd ⟨home, rfl⟩ away⟩
  built before call after empty := by
    cases before <;> cases empty
  awaited waiting := Bool.noConfusion waiting
  begun _ _ _ _ same := by
    cases same
    rfl
  first _ none_ := nomatch none_

theorem Inv.build {defaults : Headers Str} {start method url boundary : Str} {options current : RequestOptions}
    {w : Walk J} {call : TracedCall} (inv : Inv defaults start options w)
    (pending : w.chain.pending = some (method, url, current))
    (traced : traceCall method url current defaults (some w.chain.cookies) 0 boundary = .ok call) :
    Inv defaults start options { w with built := w.built ++ [call], waiting := true } := by
  have sameUrl := (traceCall_ok traced).1
  have home : Home start (w.built ++ [call]) ↔ Home start w.built ∧ origin url = origin start := by
    simp only [Home, List.mem_append, List.mem_singleton, or_imp, forall_and, forall_eq, sameUrl]
  have carries := inv.pending method url current pending
  refine ⟨?_, ?_, ?_, fun empty => by simp at empty, ?_⟩
  · intro method' url' current' same
    rw [pending] at same
    cases same
    dsimp only
    rw [home, and_assoc, and_self]
    exact carries
  · intro before last after split
    rcases List.eq_nil_or_concat after with rfl | ⟨front, final, rfl⟩
    · obtain ⟨rfl, same⟩ := List.append_inj' split rfl
      cases same
      rw [home]
      exact ⟨fun stays c => (mem_hand traced c).trans (carries.kept stays c),
        fun away c => (mem_hand traced c).trans (carries.stripped away c)⟩
    · have shorter : w.built ++ [call] = (before ++ last :: front) ++ [final] := by simpa using split
      exact inv.built before last front (List.append_inj' shorter rfl).1
  · intro _ method' url' current' same
    rw [pending] at same
    cases same
    exact ⟨call, by simp, sameUrl⟩
  · intro first head
    cases before : w.built with
    | nil =>
      rw [before] at head
      cases head
      rw [sameUrl]
      exact inv.begun before method url current pending
    | cons _ _ =>
      rw [before] at head
      exact inv.first first (by rw [before]; exact head)

theorem Inv.receive {defaults : Headers Str} {start : Str} {options : RequestOptions} {w : Walk J}
    {response : Response} {chain : RedirectChain J} (inv : Inv defaults start options w) (waiting : w.waiting = true)
    (received : w.chain.receive response = .ok chain) :
    Inv defaults start options { w with chain, waiting := false } := by
  obtain ⟨method, url, current, pending, next⟩ := RedirectChain.receive_pending received
  obtain ⟨last, member, lastUrl⟩ := inv.awaited waiting method url current pending
  refine ⟨?_, inv.built, fun idle => Bool.noConfusion idle, fun empty => ?_, inv.first⟩
  swap
  · rw [show w.built = [] from empty] at member
    cases member
  intro method' url' current' same
  rcases next with finished | ⟨hop, hopped, found⟩
  · rw [finished] at same
    cases same
  · rw [hopped] at same
    cases same
    obtain ⟨_, carried, here, there, _, bodyless, left, entered, kept⟩ := nextHop_some found
    have carries := inv.pending method url current pending
    have sameSupply : ∀ c, Supplied carried defaults c ↔ Supplied current defaults c := by
      intro c
      rw [bodyless]
      split
      · exact supplied_withoutBody
      · exact Iff.rfl
    have homeUrl : Home start w.built → origin url = origin start := fun home => lastUrl ▸ home last member
    dsimp only at entered kept ⊢
    rw [kept]
    constructor
    · intro ⟨home, arrives⟩ c
      have stays : here = there := by
        have := homeUrl home
        rw [left, ← arrives, entered] at this
        exact Except.ok.inj this
      rw [if_neg (not_not.mpr stays), sameSupply]
      exact carries.kept ⟨home, homeUrl home⟩ c
    · intro away c
      by_cases stays : here = there
      · rw [if_neg (not_not.mpr stays), sameSupply]
        apply carries.stripped
        intro ⟨home, _⟩
        apply away
        refine ⟨home, ?_⟩
        rw [entered, ← stays, ← left]
        exact homeUrl home
      · rw [if_pos stays]
        exact supplied_withoutCredentials

theorem step_build {defaults : Headers Str} {w next : Walk J} {boundary : Str}
    (stepped : w.step defaults (.build boundary) = some next) :
    ∃ method url options call, w.chain.pending = some (method, url, options) ∧
      traceCall method url options defaults (some w.chain.cookies) 0 boundary = .ok call ∧
      next = { w with built := w.built ++ [call], waiting := true } := by
  simp only [Walk.step] at stepped
  split at stepped
  · rename_i method url options _ pending
    obtain ⟨call, traced, rfl⟩ := Option.map_eq_some_iff.mp stepped
    exact ⟨method, url, options, call, pending, ok_of_toOption traced, rfl⟩
  · cases stepped

theorem step_receive {defaults : Headers Str} {w next : Walk J} {response : Response}
    (stepped : w.step defaults (.receive response) = some next) :
    ∃ chain, w.waiting = true ∧ w.chain.receive response = .ok chain ∧ next = { w with chain, waiting := false } := by
  simp only [Walk.step] at stepped
  split at stepped
  · rename_i waiting
    obtain ⟨chain, received, rfl⟩ := Option.map_eq_some_iff.mp stepped
    exact ⟨chain, waiting, ok_of_toOption received, rfl⟩
  · cases stepped

theorem Inv.step {defaults : Headers Str} {start : Str} {options : RequestOptions} {w next : Walk J}
    {event : WalkEvent J} (inv : Inv defaults start options w) (stepped : w.step defaults event = some next) :
    Inv defaults start options next := by
  cases event with
  | build boundary =>
    obtain ⟨method, url, current, call, pending, traced, rfl⟩ := step_build stepped
    exact inv.build pending traced
  | receive response =>
    obtain ⟨chain, waiting, received, rfl⟩ := step_receive stepped
    exact inv.receive waiting received
  | share jar =>
    cases stepped
    exact ⟨inv.pending, inv.built, inv.awaited, inv.begun, inv.first⟩

theorem inv_run {defaults : Headers Str} {method start : Str} {options : RequestOptions} {limit : Int} {cookies : J}
    {events : List (WalkEvent J)} {w : Walk J}
    (ran : (machine defaults).run (initial method start options limit cookies) events = some w) :
    Inv defaults start options w :=
  Machine.invariant (Inv defaults start options) (inv_initial defaults method start options limit cookies)
    (fun _ _ _ inv stepped => inv.step stepped) ran

/-- No call to another origin than an earlier one carries a credential given by hand, and a
    credential once dropped stays dropped. -/
def DropsCredentials (calls : List TracedCall) : Prop :=
  (calls.Pairwise fun earlier later =>
    origin earlier.settings.url ≠ origin later.settings.url → later.hand = []) ∧
  ∀ first second third c, [first, second, third].Sublist calls → c ∈ first.hand → c ∉ second.hand → c ∉ third.hand

omit [Library] in
theorem split_two {calls : List TracedCall} {x y : TracedCall} (sub : [x, y].Sublist calls) :
    ∃ before after, calls = before ++ y :: after ∧ x ∈ before := by
  obtain ⟨front, back, rfl, member, sub⟩ := List.cons_sublist_iff.mp sub
  obtain ⟨between, after, rfl⟩ := List.append_of_mem (List.singleton_sublist.mp sub)
  exact ⟨front ++ between, after, by simp, by simp [member]⟩

theorem Home.of_subset {start : Str} {calls more : List TracedCall} (home : Home start more) (within : calls ⊆ more) :
    Home start calls := fun call member => home call (within member)

section

variable {defaults : Headers Str} {start : Str} {options : RequestOptions} {w : Walk J}

omit [CookieJar J] in
/-- What is dropped on the way stays dropped: nothing is ever supplied anew. -/
theorem Inv.stays_dropped (inv : Inv defaults start options w) {x y z : TracedCall} {c : Entry}
    (sub : [x, y, z].Sublist w.built) (carried : c ∈ x.hand) (dropped : c ∉ y.hand) : c ∉ z.hand := by
  obtain ⟨front, back, split, memberX, sub⟩ := List.cons_sublist_iff.mp sub
  obtain ⟨between, after, rfl, memberY⟩ := split_two sub
  obtain ⟨beforeX, afterX, rfl⟩ := List.append_of_mem memberX
  obtain ⟨beforeY, afterY, rfl⟩ := List.append_of_mem memberY
  have atX := inv.built beforeX x (afterX ++ (beforeY ++ y :: afterY ++ z :: after)) (by simp [split])
  have atY := inv.built (beforeX ++ x :: afterX ++ beforeY) y (afterY ++ z :: after) (by simp [split])
  have atZ := inv.built (beforeX ++ x :: afterX ++ (beforeY ++ y :: afterY)) z after (by simp [split])
  by_cases home : Home start ((beforeX ++ x :: afterX ++ beforeY) ++ [y])
  · have homeX : Home start (beforeX ++ [x]) := home.of_subset (by intro a; simp; tauto)
    rw [atY.kept home c] at dropped
    exact absurd ((atX.kept homeX c).mp carried) dropped
  · have away : ¬Home start ((beforeX ++ x :: afterX ++ (beforeY ++ y :: afterY)) ++ [z]) :=
      fun homeZ => home (homeZ.of_subset (by intro a; simp; tauto))
    rw [atZ.stripped away c, ← atY.stripped home c]
    exact dropped

omit [CookieJar J] in
theorem Inv.away_session (inv : Inv defaults start options w) {call : TracedCall} (member : call ∈ w.built)
    (away : origin call.settings.url ≠ origin start) (c : Entry) : c ∈ call.hand ↔ SessionSupplied defaults c := by
  obtain ⟨before, after, split⟩ := List.append_of_mem member
  exact (inv.built before call after split).stripped (fun home => away (home call (by simp))) c

end

/-- A session's credentials survive every hop, and nothing else does. -/
theorem dropsCredentials_iff {defaults : Headers Str} {method start : Str} {options : RequestOptions} {limit : Int}
    {cookies : J} {events : List (WalkEvent J)} {w : Walk J}
    (ran : (machine defaults).run (initial method start options limit cookies) events = some w) :
    DropsCredentials w.built ↔
      Home start w.built ∨ ∀ p ∈ defaults.pairs, isCredential p.1 = false := by
  have inv := inv_run ran
  constructor
  · intro ⟨pairwise, _⟩
    by_contra leaks
    simp only [Home, not_or, not_forall, Bool.not_eq_false] at leaks
    obtain ⟨⟨call, member, away⟩, p, given, credential⟩ := leaks
    cases calls : w.built with
    | nil =>
      rw [calls] at member
      cases member
    | cons head rest =>
      have headUrl := inv.first head (by rw [calls]; rfl)
      have later : call ∈ rest := by
        rw [calls] at member
        rcases List.mem_cons.mp member with rfl | member
        · exact absurd (congrArg origin headUrl) away
        · exact member
      have sub : [head, call].Sublist w.built := by
        rw [calls]
        exact (List.singleton_sublist.mpr later).cons_cons head
      have empty := List.pairwise_iff_forall_sublist.mp pairwise sub (by rw [headUrl]; exact Ne.symm away)
      have carried : (p.1, Source.session, p.2) ∈ call.hand :=
        (inv.away_session member away _).mpr ⟨credential, rfl, given⟩
      rw [empty] at carried
      cases carried
  · intro condition
    refine ⟨List.pairwise_iff_forall_sublist.mpr ?_, fun x y z c sub => inv.stays_dropped sub⟩
    intro x y sub differs
    have away : ¬(origin x.settings.url = origin start ∧ origin y.settings.url = origin start) :=
      fun home => differs (home.1.trans home.2.symm)
    rcases condition with home | plain
    · exact absurd ⟨home x (sub.subset (by simp)), home y (sub.subset (by simp))⟩ away
    · apply List.eq_nil_iff_forall_not_mem.mpr
      intro c carried
      obtain ⟨before, after, split, earlier⟩ := split_two sub
      have left : ¬Home start (before ++ [y]) := fun home => away ⟨home x (by simp [earlier]), home y (by simp)⟩
      obtain ⟨credential, _, given⟩ := ((inv.built before y after split).stripped left c).mp carried
      rw [plain _ given] at credential
      exact Bool.noConfusion credential

end Walk

end

section

attribute [local instance] asciiLibrary

/-- A jar that never has a cookie to send. -/
local instance emptyJar : CookieJar Unit := ⟨fun _ _ => none, fun jar _ _ => jar⟩

def redirectTo (location : String) : Response where
  statusCode := 302
  reason := "Found"
  headers := [("location", location)]
  url := ""
  httpVersion := "h2"
  redirectCount := 0
  fromCache := false
  proxy := "direct"
  metrics := .zero
  content := []

structure Shown where
  url : Str
  hand : List Entry
  deriving DecidableEq

def TracedCall.shown (call : TracedCall) : Shown := ⟨call.settings.url, call.hand⟩

namespace Walk

theorem DropsCredentials.shown {calls : List TracedCall} (drops : DropsCredentials calls) :
    (calls.map TracedCall.shown).Pairwise fun earlier later => origin earlier.url ≠ origin later.url → later.hand = [] :=
  List.pairwise_map.mpr drops.1

theorem dropsCredentials_bearer :
    ∃ w, (machine ⟨[]⟩).run (initial "GET".toList "https://a.test/".toList
        { RequestOptions.empty with bearerAuth := some "SECRET".toList } 20 ())
        [.build [], .receive (redirectTo "https://b.test/"), .build []] = some w ∧
      w.built.map TracedCall.shown =
        [⟨"https://a.test/".toList, [("authorization".toList, .auth, "Bearer SECRET".toList)]⟩,
          ⟨"https://b.test/".toList, []⟩] ∧
      DropsCredentials w.built := by
  have shown : ((machine ⟨[]⟩).run (initial "GET".toList "https://a.test/".toList
      { RequestOptions.empty with bearerAuth := some "SECRET".toList } 20 ())
      [.build [], .receive (redirectTo "https://b.test/"), .build []]).map (fun w => w.built.map TracedCall.shown) =
        some [⟨"https://a.test/".toList, [("authorization".toList, .auth, "Bearer SECRET".toList)]⟩,
          ⟨"https://b.test/".toList, []⟩] := by decide
  obtain ⟨w, ran, same⟩ := Option.map_eq_some_iff.mp shown
  exact ⟨w, ran, same, (dropsCredentials_iff ran).mpr (.inr fun _ member => nomatch member)⟩

/-- A session's own header is laid over every hop anew. -/
theorem session_header_crosses :
    ∃ events w, (machine ⟨[("Authorization".toList, "Bearer SECRET".toList)]⟩).run
        (initial "GET".toList "https://a.test/".toList .empty 20 ()) events = some w ∧ ¬DropsCredentials w.built := by
  have shown : ((machine ⟨[("Authorization".toList, "Bearer SECRET".toList)]⟩).run
      (initial "GET".toList "https://a.test/".toList .empty 20 ())
      [.build [], .receive (redirectTo "https://b.test/"), .build []]).map (fun w => w.built.map TracedCall.shown) =
        some [⟨"https://a.test/".toList, [("Authorization".toList, .session, "Bearer SECRET".toList)]⟩,
          ⟨"https://b.test/".toList, [("Authorization".toList, .session, "Bearer SECRET".toList)]⟩] := by decide
  obtain ⟨w, ran, same⟩ := Option.map_eq_some_iff.mp shown
  refine ⟨_, w, ran, fun drops => ?_⟩
  have pairwise := drops.shown
  rw [same] at pairwise
  exact absurd pairwise (by decide)

end Walk

end

end Cronet.Request
