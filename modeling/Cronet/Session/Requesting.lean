import Cronet.Lib.Traverse
import Cronet.Request.Chain
import Cronet.Session.Direct

namespace Cronet.Session

open Cronet.Native (Bytes Call Label)
open Cronet.Request (CookieJar Drive Library RequestOptions Round)
open Cronet.Url (Str)

/-- What the hops of a request have in common: who performs them, under which timeout, and whether HTTP/3 is required. -/
structure Terms where
  kind : Kind
  seconds : String
  timeoutMs : Int
  requireHttp3 : Bool

structure Made [Library] where
  hop : Request.Hop
  past : List OwnedLabel
  owned : Owned

/-- `request` of a session with a jar. The calls it has made stay, whatever becomes of them. -/
structure Requesting [Library] (J : Type) where
  drive : Drive J
  ended : List Made
  current : Option Made

inductive RequestLabel where
  | start
  | refuse
  | act (label : OwnedLabel)
  | finish
  | late (index : Nat) (label : Label)

section

variable [Library]

namespace Made

def url (m : Made) : String := String.ofList m.hop.2.1

def start (terms : Terms) (hop : Request.Hop) : Made :=
  ⟨hop, [], .initial (String.ofList hop.2.1) 0 terms.kind terms.seconds terms.timeoutMs terms.requireHttp3⟩

def step (m : Made) (label : OwnedLabel) : Option Made :=
  (m.owned.step label).map fun owned => { m with past := m.past ++ [label], owned }

/-- What `_perform` has returned. -/
def answer (m : Made) : Option (Request.Hop × Response) := m.owned.owner.pc.result?.bind fun r => r.response?.map (m.hop, ·)

end Made

namespace Requesting

variable {J : Type} [CookieJar J]

def initial (method url : Str) (options : RequestOptions) (limit : Int) (jar : J) : Requesting J :=
  ⟨.initial method url options limit jar, [], none⟩

/-- How `_perform` ends for the chain. -/
def round (r : Result) : Round :=
  match r.response? with
  | some response => .answered response
  | none => .failed

def step (terms : Terms) (s : Requesting J) : RequestLabel → Option (Requesting J)
  | .start =>
    match s.current, s.drive.stopped, s.drive.chain.pending with
    | none, none, some hop => some { s with current := some (.start terms hop) }
    | _, _, _ => none
  | .refuse =>
    -- `build_call` or `_claim` raises, or `cronet_call_start` returns no call
    match s.current with
    | none => (s.drive.step .failed).map fun drive => { s with drive }
    | some m =>
      if m.owned.call.starter = .refused then (s.drive.step .failed).map fun drive => { s with drive, current := none }
      else none
  | .act label => do
    let m ← s.current
    let m ← m.step label
    return { s with current := some m }
  | .finish => do
    let m ← s.current
    match m.owned.owner.pc with
    | .done r => do
      let drive ← s.drive.step (round r)
      return ⟨drive, s.ended ++ [m], none⟩
    | _ => none
  | .late index label => do
    let m ← s.ended[index]?
    let m ← m.step (.env label)
    return { s with ended := s.ended.set index m }

def machine (terms : Terms) : Machine (Requesting J) RequestLabel := ⟨step terms⟩

end Requesting

namespace Made

variable {terms : Terms} {m n : Made} {label : OwnedLabel}

def Ran (terms : Terms) (m : Made) : Prop :=
  Owned.machine.run (.initial m.url 0 terms.kind terms.seconds terms.timeoutMs terms.requireHttp3) m.past = some m.owned

theorem step_spec (stepped : m.step label = some n) : n.hop = m.hop ∧ n.past = m.past ++ [label] ∧
    m.owned.step label = some n.owned := by
  rcases Option.map_eq_some_iff.mp stepped with ⟨owned, moved, rfl⟩
  exact ⟨rfl, rfl, moved⟩

theorem Ran.step (ran : m.Ran terms) (stepped : m.step label = some n) : n.Ran terms := by
  rcases step_spec stepped with ⟨hop, past, moved⟩
  have same : n.url = m.url := congrArg (fun hop : Request.Hop => String.ofList hop.2.1) hop
  unfold Ran
  rw [same, past]
  exact Machine.run_snoc.mpr ⟨m.owned, ran, moved⟩

theorem late_owner {label : Label} (stepped : m.step (.env label) = some n) : n.owned.owner = m.owned.owner := by
  have moved := (step_spec stepped).2.2
  simp only [Owned.step, Option.ite_none_right_eq_some, Option.map_eq_some_iff] at moved
  rcases moved with ⟨_, call, _, same⟩
  rw [← same]

theorem late_answer {label : Label} (stepped : m.step (.env label) = some n) : n.answer = m.answer := by
  rw [answer, answer, late_owner stepped, (step_spec stepped).1]

theorem Ran.released (ran : m.Ran terms) {r : Result} (ended : m.owned.owner.pc = .done r) :
    m.owned.call.shared.released = true ∧ ∀ label, label.works = true → m.owned.call.step label = none := by
  have released := Owned.done_released ran ended
  apply And.intro released
  intro label works
  rw [Option.eq_none_iff_forall_ne_some]
  intro call stepped
  have idle := ((Owned.releaseInv_of_run ran).released_step released stepped).1
  rw [works] at idle
  cases idle

theorem Ran.answered (ran : m.Ran terms) {hop : Request.Hop} {response : Response}
    (answered : m.answer = some (hop, response)) :
    hop = m.hop ∧ response.content = m.past.flatMap OwnedLabel.brings ∧ Owned.Direct m.url terms.requireHttp3 response := by
  rcases Option.bind_eq_some_iff.mp answered with ⟨r, settled, mapped⟩
  rcases Option.map_eq_some_iff.mp mapped with ⟨_, returned, same⟩
  cases same
  rw [Result.response?_eq_some.mp returned] at settled
  rcases (Owned.ownedInv_of_run ran).returned response settled with ⟨_, ended, content⟩
  have whole := Owned.read_conserves ran
  rw [ended.2, List.append_nil] at whole
  exact ⟨rfl, content.trans whole, Owned.returned_direct ran settled⟩

end Made

namespace Requesting

variable {J : Type} [CookieJar J] {terms : Terms} {s t : Requesting J} {start : Request.Hop} {limit : Int} {jar : J}

/-- Where a request stands: its calls are those of the chain's hops, and answer for them. -/
structure Inv (terms : Terms) (start : Request.Hop) (limit : Int) (jar : J) (s : Requesting J) : Prop where
  walks : ∃ rounds, Drive.machine.run (Drive.initial start.1 start.2.1 start.2.2 limit jar) rounds = some s.drive
  received : s.drive.received = s.ended.filterMap Made.answer
  performed : s.ended.map Made.hop <+: s.drive.performed
  ended : ∀ m ∈ s.ended, m.Ran terms ∧ ∃ r, m.owned.owner.pc = .done r
  asked : s.drive.stopped = none → s.ended.map Made.hop = s.drive.performed
  current : ∀ m, s.current = some m → m.Ran terms ∧ s.drive.stopped = none ∧ s.drive.chain.pending = some m.hop

theorem inv_initial (method url : Str) (options : RequestOptions) :
    Inv terms (method, url, options) limit jar (initial method url options limit jar) where
  walks := ⟨[], rfl⟩
  received := rfl
  performed := List.prefix_rfl
  ended m member := by cases member
  asked _ := rfl
  current m same := by cases same

theorem drive_answered {d e : Drive J} {response : Response} (stepped : d.step (.answered response) = some e) :
    ∃ hop, d.stopped = none ∧ d.chain.pending = some hop ∧ e.performed = d.performed ++ [hop] ∧
      e.received = d.received ++ [(hop, response)] := by
  simp only [Drive.step] at stepped
  split at stepped
  · rename_i hop going pending
    cases stepped
    exact ⟨hop, going, pending, rfl, rfl⟩
  · cases stepped

theorem drive_failed {d e : Drive J} (stepped : d.step .failed = some e) :
    ∃ hop, d.stopped = none ∧ d.chain.pending = some hop ∧ e.performed = d.performed ++ [hop] ∧ e.received = d.received ∧
      e.stopped = some .performing := by
  simp only [Drive.step] at stepped
  split at stepped
  · rename_i hop going pending
    cases stepped
    exact ⟨hop, going, pending, rfl, rfl, rfl⟩
  · cases stepped

theorem drive_round {d e : Drive J} {r : Result} (stepped : d.step (round r) = some e) :
    ∃ hop, d.stopped = none ∧ d.chain.pending = some hop ∧ e.performed = d.performed ++ [hop] ∧
      e.received = d.received ++ (r.response?.map (hop, ·)).toList := by
  unfold round at stepped
  cases answered : r.response? with
  | some response =>
    rw [answered] at stepped
    exact drive_answered stepped
  | none =>
    rw [answered] at stepped
    rcases drive_failed stepped with ⟨hop, going, pending, performed, received, _⟩
    exact ⟨hop, going, pending, performed, by rw [received]; exact (List.append_nil _).symm⟩

theorem Inv.walk (inv : Inv terms start limit jar s) {round : Round} {drive : Drive J}
    (stepped : s.drive.step round = some drive) :
    ∃ rounds, Drive.machine.run (Drive.initial start.1 start.2.1 start.2.2 limit jar) rounds = some drive := by
  rcases inv.walks with ⟨rounds, ran⟩
  exact ⟨rounds ++ [round], Machine.run_snoc.mpr ⟨s.drive, ran, stepped⟩⟩

theorem Inv.refused (inv : Inv terms start limit jar s) {drive : Drive J} (stepped : s.drive.step .failed = some drive) :
    Inv terms start limit jar ⟨drive, s.ended, none⟩ := by
  rcases drive_failed stepped with ⟨hop, _, _, performed, received, stopped⟩
  constructor
  case walks => exact inv.walk stepped
  case received => exact received.trans inv.received
  case performed =>
    show _ <+: drive.performed
    rw [performed]
    exact inv.performed.trans (List.prefix_append _ _)
  case ended => exact inv.ended
  case asked =>
    intro going
    cases going.symm.trans stopped
  case current =>
    intro m same
    cases same

theorem Inv.step {label : RequestLabel} (inv : Inv terms start limit jar s) (stepped : s.step terms label = some t) :
    Inv terms start limit jar t := by
  cases label with
  | start =>
    simp only [Requesting.step] at stepped
    split at stepped
    · rename_i hop idle going pending
      cases stepped
      refine ⟨inv.walks, inv.received, inv.performed, inv.ended, inv.asked, fun m same => ?_⟩
      cases same
      exact ⟨rfl, going, pending⟩
    · cases stepped
  | refuse =>
    simp only [Requesting.step] at stepped
    split at stepped
    · rename_i idle
      rcases Option.map_eq_some_iff.mp stepped with ⟨drive, failed, rfl⟩
      rw [idle]
      exact inv.refused failed
    · simp only [Option.ite_none_right_eq_some] at stepped
      rcases Option.map_eq_some_iff.mp stepped.2 with ⟨drive, failed, rfl⟩
      exact inv.refused failed
  | act label =>
    simp only [Requesting.step, Option.bind_eq_bind, Option.bind_eq_some_iff, Option.pure_def, Option.some.injEq] at stepped
    rcases stepped with ⟨m, current, n, moved, rfl⟩
    rcases inv.current m current with ⟨ran, going, pending⟩
    refine ⟨inv.walks, inv.received, inv.performed, inv.ended, inv.asked, fun _ same => ?_⟩
    cases same
    exact ⟨ran.step moved, going, pending.trans (congrArg some (Made.step_spec moved).1.symm)⟩
  | finish =>
    simp only [Requesting.step, Option.bind_eq_bind, Option.bind_eq_some_iff] at stepped
    rcases stepped with ⟨m, current, stepped⟩
    split at stepped
    · rename_i r done
      simp only [Option.bind_eq_some_iff, Option.pure_def, Option.some.injEq] at stepped
      rcases stepped with ⟨drive, rounded, rfl⟩
      rcases inv.current m current with ⟨ran, going, pending⟩
      rcases drive_round rounded with ⟨hop, _, again, more, received⟩
      rw [pending] at again
      cases again
      have answer : m.answer = r.response?.map (m.hop, ·) := by rw [Made.answer, done]; rfl
      constructor
      case walks => exact inv.walk rounded
      case received =>
        show drive.received = _
        rw [received, inv.received, List.filterMap_append, ← answer]
        cases answered : m.answer <;> simp [answered]
      case performed =>
        show _ <+: drive.performed
        rw [more, List.map_append, inv.asked going]
        exact List.prefix_rfl
      case asked =>
        intro _
        show _ = drive.performed
        rw [more, List.map_append, inv.asked going]
        rfl
      case ended =>
        intro n member
        rcases List.mem_append.mp member with before | last
        · exact inv.ended n before
        · cases List.mem_singleton.mp last
          exact ⟨ran, r, done⟩
      case current =>
        intro n same
        cases same
    · cases stepped
  | late index label =>
    simp only [Requesting.step, Option.bind_eq_bind, Option.bind_eq_some_iff, Option.pure_def, Option.some.injEq] at stepped
    rcases stepped with ⟨m, found, n, moved, rfl⟩
    have hops : (s.ended.set index n).map Made.hop = s.ended.map Made.hop := by
      rw [← List.filterMap_eq_map, List.filterMap_set found]
      exact congrArg some (Made.step_spec moved).1
    have answers : (s.ended.set index n).filterMap Made.answer = s.ended.filterMap Made.answer :=
      List.filterMap_set found (Made.late_answer moved)
    constructor
    case walks => exact inv.walks
    case received => exact inv.received.trans answers.symm
    case performed =>
      show (s.ended.set index n).map Made.hop <+: _
      rw [hops]
      exact inv.performed
    case ended =>
      intro made member
      rcases List.mem_or_eq_of_mem_set member with before | rfl
      · exact inv.ended made before
      · rcases inv.ended m (List.mem_of_getElem? found) with ⟨ran, r, done⟩
        exact ⟨ran.step moved, r, by rw [Made.late_owner moved]; exact done⟩
    case asked => exact fun going => hops.trans (inv.asked going)
    case current => exact inv.current

theorem inv_run {method url : Str} {options : RequestOptions} {labels : List RequestLabel}
    (ran : (machine terms).run (initial method url options limit jar) labels = some s) :
    Inv terms (method, url, options) limit jar s :=
  Machine.invariant (Inv terms (method, url, options) limit jar) (inv_initial method url options)
    (fun _ _ _ inv stepped => inv.step stepped) ran

/-- What holds of a request whatever its servers, its timeouts and its interruptions do. -/
structure Laws (terms : Terms) (start : Request.Hop) (limit : Int) (jar : J) (s : Requesting J) : Prop where
  walks : ∃ rounds, Drive.machine.run (Drive.initial start.1 start.2.1 start.2.2 limit jar) rounds = some s.drive
  answers : s.drive.received = s.ended.filterMap Made.answer
  own : ∀ m ∈ s.ended, ∀ hop response, m.answer = some (hop, response) →
    hop = m.hop ∧ response.content = m.past.flatMap OwnedLabel.brings ∧ Owned.Direct m.url terms.requireHttp3 response
  released : ∀ m ∈ s.ended, m.owned.call.shared.released = true ∧
    ∀ label, label.works = true → m.owned.call.step label = none
  bounded : (s.ended.length + s.current.toList.length : Int) ≤ limit + 1
  stored : s.drive.chain.cookies = Request.stored jar (s.ended.filterMap Made.answer)
  result : ∀ final history, s.drive.chain.result = .ok (final, history) →
    s.current = none ∧ (s.ended.filterMap Made.answer).map Prod.snd = history ++ [final]

/-- `request` over a jar is the walk of a redirect chain: each hop has a call of its own, whose whole body and nothing else
    is the response's, and which the network thread is done with before the next one is made. -/
theorem request_walks {method url : Str} {options : RequestOptions} {labels : List RequestLabel} (natural : 0 ≤ limit)
    (ran : (machine terms).run (initial method url options limit jar) labels = some s) :
    Laws terms (method, url, options) limit jar s := by
  have inv := inv_run ran
  rcases inv.walks with ⟨rounds, walked⟩
  have drive := Drive.inv_run natural walked
  have counted : s.ended.length ≤ s.drive.performed.length := by
    have fewer := inv.performed.length_le
    rwa [List.length_map] at fewer
  constructor
  case walks => exact inv.walks
  case answers => exact inv.received
  case own => exact fun m member _ _ answered => (inv.ended m member).1.answered answered
  case released =>
    intro m member
    rcases inv.ended m member with ⟨ran, r, done⟩
    exact ran.released done
  case bounded =>
    cases current : s.current with
    | none =>
      have within := drive.phase.within.1
      rw [drive.limit] at within
      simp only [Option.toList_none, List.length_nil]
      omega
    | some m =>
      rcases inv.current m current with ⟨_, going, pending⟩
      have within : (s.drive.performed.length : Int) ≤ limit := by
        cases drive.phase with
        | running _ _ _ _ _ performed within _ =>
          rw [performed, List.length_map, ← drive.limit]
          exact within
        | finished _ _ _ _ closed => cases closed.symm.trans pending
        | raised _ _ _ _ stopped => cases stopped.symm.trans going
        | failed _ stopped => cases stopped.symm.trans going
      simp only [Option.toList_some, List.length_singleton]
      omega
  case stored => rw [drive.stored, inv.received]
  case result =>
    intro final history ended
    rw [← inv.received]
    refine ⟨?_, (drive.phase.result ended).1⟩
    rw [Option.eq_none_iff_forall_ne_some]
    intro m current
    rcases inv.current m current with ⟨_, going, pending⟩
    have still (unfinished : s.drive.chain.final = none) : False := by
      rw [Request.RedirectChain.result, unfinished] at ended
      cases ended
    cases drive.phase with
    | running _ _ _ unfinished => exact still unfinished
    | finished _ _ _ _ closed => cases closed.symm.trans pending
    | raised _ _ _ _ stopped => cases stopped.symm.trans going
    | failed _ stopped => cases stopped.symm.trans going

end Requesting

end

section

attribute [local instance] Request.asciiLibrary Request.urlJar

namespace Requesting

theorem request_walks_redirected :
    ∃ labels s final history,
      (machine ⟨.request, "30.0", 30000, false⟩).run (initial "GET".toList "https://a.test/".toList .empty 1 ([] : List Str))
        labels = some s ∧
      s.drive.chain.result = .ok (final, history) ∧ history.length = 1 ∧
      (s.ended.filterMap Made.answer).map Prod.snd = history ++ [final] := by
  let performed (callbacks : List OwnedLabel) (ops proceeds : Nat) : List OwnedLabel :=
    [.env (.registerCall true), .env .construct, .env .attachRequest, .env .start, .env (.task none)] ++ callbacks ++
      List.replicate ops (.env .op) ++ [.env (.task none)] ++ List.replicate 3 (.env .op) ++
      List.replicate proceeds (.owner .proceed)
  let redirected := performed [.env (.callback (.onReceivedRedirect "https://b.test/"
    ⟨302, "Found", some [("location", "https://b.test/")], false, "h2", ""⟩))] 12 10
  let answered := performed [.env (.callback (.onResponseStarted ⟨200, "OK", none, false, "h2", ""⟩)), .env .op, .env .op,
    .env .op, .env .op, .env (.task none), .env (.callback (.onReadCompleted [1, 2])), .env .op, .env .op, .env (.task none),
    .env (.callback .onSucceeded)] 8 11
  let labels : List RequestLabel := .start :: redirected.map .act ++ .finish :: .start :: answered.map .act ++ [.finish]
  have shown : ((machine ⟨.request, "30.0", 30000, false⟩).run
      (initial "GET".toList "https://a.test/".toList .empty 1 ([] : List Str)) labels).bind (fun s => s.drive.chain.final.map
        fun final => (final.1.content, final.2.length)) = some ([1, 2], 1) := by decide
  rcases Option.bind_eq_some_iff.mp shown with ⟨s, ran, ended⟩
  rcases Option.map_eq_some_iff.mp ended with ⟨ended, last, shown⟩
  have result : s.drive.chain.result = .ok (ended.1, ended.2) := by rw [Request.RedirectChain.result, last]
  have laws := request_walks (by decide) ran
  exact ⟨labels, s, ended.1, ended.2, ran, result, (Prod.mk.inj shown).2, (laws.result ended.1 ended.2 result).2⟩

end Requesting

end

end Cronet.Session
