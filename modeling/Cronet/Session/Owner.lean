import Cronet.Native.Outcome
import Cronet.Session.Response

namespace Cronet.Session

open Cronet.Native (Body Bytes Call Label ReadReturn)

def CHUNK_SIZE : Nat := 64 * 1024

/-- Who owns the call: `Session.stream`, `Session._perform` or `AsyncSession._perform`. -/
inductive Kind where
  | stream
  | request
  | asyncRequest
  deriving DecidableEq

/-- How the owner's use of the call ends. A stream ends for its opener, or for whoever
    iterates its body. -/
inductive Result where
  | notOpened (e : PyError)
  | exhausted
  | abandoned
  | returned (response : Response)
  | raised (e : PyError)
  deriving DecidableEq

def Result.response? : Result → Option Response
  | .returned response => some response
  | _ => none

theorem Result.response?_eq_some {r : Result} {response : Response} :
    r.response? = some response ↔ r = .returned response := by
  cases r <;> simp [response?]

/-- Where a loop that waits for the call stands: taking the time left, clearing the
    descriptor, looking at the call, and waiting for its next sign of life. -/
inductive Turn where
  | round
  | drain
  | look
  | poll
  deriving DecidableEq

inductive Pc where
  | headers (turn : Turn)
  | headersLast
  | result
  | body (turn : Turn)
  | final
  | cancelling (e : CronetError)
  | waiting (e : CronetError)
  | leaving (r : Result)
  | freeing (r : Result)
  | releasing (r : Result)
  | done (r : Result)
  deriving DecidableEq

def Pc.result? : Pc → Option Result
  | .cancelling e | .waiting e => some (.raised (.cronet e))
  | .leaving r | .freeing r | .releasing r | .done r => some r
  | _ => none

def Pc.headed : Pc → Bool
  | .result | .body _ | .final => true
  | _ => false

/-- The thread or task that made a call: `seconds` is its timeout as a message shows it,
    `timeoutMs` is negative for no limit, and `pieces` is what it has read. -/
structure Owner where
  kind : Kind
  url : String
  seconds : String
  timeoutMs : Int
  requireHttp3 : Bool
  pc : Pc
  pieces : List Bytes
  deriving DecidableEq

namespace Owner

/-- `_countdown` is the blocking session's; the other one waits under `asyncio.timeout`. -/
def firstTurn (o : Owner) : Turn := if o.kind = .asyncRequest then .drain else .round

def timedOut (o : Owner) : CronetError :=
  .requestError .timeout
    (if o.kind = .asyncRequest then "no response within " ++ o.seconds ++ " seconds"
      else "no response from " ++ o.url ++ " within " ++ o.seconds ++
        "s — raise timeout=, or pass timeout=None for no limit")
    ERROR_TIMED_OUT o.url

/-- The `finally` block: a blocking request goes straight to `close`. -/
def settle (o : Owner) (r : Result) : Pc := if o.kind = .request then .freeing r else .leaving r

def fail (o : Owner) (e : CronetError) : Pc :=
  o.settle (if o.kind = .stream then .notOpened (.cronet e) else .raised (.cronet e))

/-- `TimeoutError` while waiting for the headers. -/
def headersTimedOut (o : Owner) : Pc := if o.kind = .request then .cancelling o.timedOut else o.fail o.timedOut

/-- `TimeoutError` while reading the body: nothing catches it for a stream. -/
def bodyTimedOut (o : Owner) : Pc :=
  match o.kind with
  | .stream => o.settle (.raised .timeoutError)
  | .request => .cancelling o.timedOut
  | .asyncRequest => o.settle (.raised (.cronet o.timedOut))

end Owner

/-- What an owner can do next: go on, be told that time is up, be cancelled at an `await`, or
    stop iterating. -/
inductive Act where
  | proceed
  | expire
  | cancelled
  | leave
  deriving DecidableEq

structure Owned where
  call : Call
  owner : Owner
  deriving DecidableEq

inductive OwnedLabel where
  | env (label : Label)
  | owner (act : Act)
  deriving DecidableEq

namespace Owned

def initial (url : String) (maxRedirects : Int) (kind : Kind) (seconds : String) (timeoutMs : Int)
    (requireHttp3 : Bool) : Owned where
  call := .initial url maxRedirects
  owner := ⟨kind, url, seconds, timeoutMs, requireHttp3, .headers (if kind = .asyncRequest then .drain else .round), []⟩

def goto (s : Owned) (pc : Pc) : Owned := { s with owner.pc := pc }

def via (s : Owned) (label : Label) (pc : Pc) : Option Owned :=
  (s.call.step label).map fun call => { s with call, owner.pc := pc }

def started (s : Owned) : Prop := s.call.shared.state = .started

instance (s : Owned) : Decidable s.started := inferInstanceAs (Decidable (_ = _))

def response (s : Owned) : Except CronetError RawResponse := readResponse s.call.shared.responsePointer s.owner.url

/-- The result of `call.result()` at the headers. -/
def opened (s : Owned) : Pc :=
  match s.response with
  | .error e => s.owner.fail e
  | .ok raw =>
    if s.owner.kind = .stream then
      match checked s.owner.requireHttp3 (.fromRaw raw []) with
      | .error e => s.owner.fail e
      | .ok _ => .body s.owner.firstTurn
    else .body s.owner.firstTurn

/-- The result of `call.result()` after the body. -/
def concluded (s : Owned) : Result :=
  match s.response with
  | .error e => .raised (.cronet e)
  | .ok raw =>
    match checked s.owner.requireHttp3 (.fromRaw raw s.owner.pieces.flatten) with
    | .error e => .raised (.cronet e)
    | .ok response => .returned response

/-- One `call.read()` of the body loop. -/
def pull (s : Owned) : Option Owned :=
  let ret := (s.call.shared.body.read CHUNK_SIZE).1
  (s.call.step (.read CHUNK_SIZE ret)).map fun call =>
    match ret with
    | .eof => { s with call, owner.pc := if s.owner.kind = .stream then s.owner.settle .exhausted else .final }
    | .copied [] => { s with call, owner.pc := .body .poll }
    | .copied (byte :: out) => { s with call, owner.pieces := s.owner.pieces ++ [byte :: out] }

def proceed (s : Owned) : Option Owned :=
  match s.owner.pc with
  | .headers .round => some (s.goto (.headers .drain))
  | .headers .drain => s.via .drain (.headers .look)
  | .headers .look => some (s.goto (if s.started then .headers .poll else .result))
  | .headers .poll => if 0 < s.call.shared.completionFd then some (s.goto (.headers s.owner.firstTurn)) else none
  | .headersLast => some (s.goto (if s.started then s.owner.headersTimedOut else .result))
  | .result => some (s.goto s.opened)
  | .body .round => some (s.goto (.body .drain))
  | .body .drain => s.via .drain (.body .look)
  | .body .look => s.pull
  | .body .poll => if 0 < s.call.shared.completionFd then some (s.goto (.body s.owner.firstTurn)) else none
  | .final => some (s.goto (s.owner.settle s.concluded))
  | .cancelling e => s.via (.cancel .handle) (.waiting e)
  | .waiting e =>
    if s.call.shared.state = .done ∨ s.call.shared.finished then some (s.goto (s.owner.settle (.raised (.cronet e))))
    else none
  | .leaving r => if s.call.shared.state = .done then some (s.goto (.freeing r)) else s.via (.cancel .handle) (.freeing r)
  | .freeing r => s.via (.cancel .handle) (.releasing r)
  | .releasing r => if s.call.shared.released then some (s.goto (.done r)) else none
  | .done _ => none

def expire (s : Owned) : Option Owned :=
  if s.owner.timeoutMs < 0 then none
  else
    match s.owner.pc with
    | .headers .round => some (s.goto .headersLast)
    | .headers .poll => some (s.goto s.owner.headersTimedOut)
    | .body .round | .body .poll => some (s.goto s.owner.bodyTimedOut)
    | _ => none

def act (s : Owned) : Act → Option Owned
  | .proceed => s.proceed
  | .expire => s.expire
  | .cancelled =>
    if s.owner.kind = .asyncRequest ∧ (s.owner.pc = .headers .poll ∨ s.owner.pc = .body .poll) then
      some (s.goto (s.owner.settle (.raised .cancelledError)))
    else none
  | .leave =>
    if s.owner.kind = .stream ∧ (s.owner.pc = .body .round ∨ s.owner.pc = .body .look) then
      some (s.goto (s.owner.settle .abandoned))
    else none

/-- What is not the owner's to do: anything but reading the body and clearing the descriptor. -/
def others : Label → Bool
  | .read _ _ | .drain => false
  | _ => true

def step (s : Owned) : OwnedLabel → Option Owned
  | .env label => if others label then (s.call.step label).map fun call => { s with call } else none
  | .owner act => if s.call.starter = .returned then s.act act else none

def machine : Machine Owned OwnedLabel := ⟨step⟩

def uses (s : Owned) : Act → List Label
  | .proceed =>
    match s.owner.pc with
    | .headers .drain | .body .drain => [.drain]
    | .body .look => [.read CHUNK_SIZE (s.call.shared.body.read CHUNK_SIZE).1]
    | .cancelling _ | .freeing _ => [.cancel .handle]
    | .leaving _ => if s.call.shared.state = .done then [] else [.cancel .handle]
    | _ => []
  | _ => []

theorem via_spec {s t : Owned} {label : Label} {pc : Pc} (gone : s.via label pc = some t) :
    ∃ call, s.call.step label = some call ∧ t = { s with call, owner.pc := pc } := by
  obtain ⟨call, stepped, rfl⟩ := Option.map_eq_some_iff.mp gone
  exact ⟨call, stepped, rfl⟩

def atEnd (s : Owned) : Prop := s.call.shared.body.bodyComplete = true ∧ s.call.shared.body.unread = []

def iterating (s : Owned) : Prop := ∃ turn, s.owner.pc = .body turn

inductive Settles (s : Owned) (act : Act) (pc : Pc) : Prop where
  | goesOn (open_ : pc.result? = none) (reading : pc ≠ .final)
    (headed : pc.headed = true → s.owner.pc.headed = true ∨ ¬ s.started)
  | final (request : s.owner.kind ≠ .stream) (ended : s.atEnd) (headed : s.owner.pc.headed = true) (same : pc = .final)
  | exhausted (stream : s.owner.kind = .stream) (proceeds : act = .proceed) (ended : s.atEnd)
    (settled : pc.result? = some .exhausted)
  | notOpened {e : PyError} (stream : s.owner.kind = .stream) (settled : pc.result? = some (.notOpened e))
  | abandoned (stream : s.owner.kind = .stream) (settled : pc.result? = some .abandoned)
  | timedOut (stream : s.owner.kind = .stream) (expires : act = .expire) (iterating : s.iterating)
      (settled : pc.result? = some (.raised .timeoutError))
  | raised {e : PyError} (request : s.owner.kind ≠ .stream) (settled : pc.result? = some (.raised e))
  | concluded (last : s.owner.pc = .final) (proceeds : act = .proceed) (settled : pc.result? = some s.concluded)

theorem settle_result (o : Owner) (r : Result) : (o.settle r).result? = some r := by
  unfold Owner.settle
  split <;> rfl

theorem Settles.waits {s : Owned} {act : Act} {pc : Pc} (working : pc.result? = none) (early : pc.headed = false) :
    Settles s act pc := by
  refine .goesOn working ?_ ?_
  · rintro rfl
    cases early
  · intro headed
    rw [early] at headed
    cases headed

theorem Settles.reads {s : Owned} {act : Act} {turn : Turn} (headed : s.owner.pc.headed = true) :
    Settles s act (.body turn) :=
  .goesOn rfl (by simp) fun _ => .inl headed

theorem Settles.opens {s : Owned} {act : Act} (moved : ¬ s.started) : Settles s act .result :=
  .goesOn rfl (by simp) fun _ => .inr moved

theorem fail_settles {s : Owned} {act : Act} {pc : Pc} {e : CronetError} (same : pc = s.owner.fail e) :
    Settles s act pc := by
  subst same
  by_cases stream : s.owner.kind = .stream
  · exact @Settles.notOpened _ _ _ (.cronet e) stream ((settle_result _ _).trans (by simp [stream]))
  · exact @Settles.raised _ _ _ (.cronet e) stream ((settle_result _ _).trans (by simp [stream]))

theorem headersTimedOut_settles (s : Owned) (act : Act) : Settles s act s.owner.headersTimedOut := by
  by_cases request : s.owner.kind = .request
  · simp only [Owner.headersTimedOut, request, ↓reduceIte]
    exact .raised (by simp [request]) rfl
  · exact fail_settles (if_neg request)

theorem opened_settles {s : Owned} {act : Act} (headed : s.owner.pc.headed = true) : Settles s act s.opened := by
  unfold opened
  split
  · exact fail_settles rfl
  · split
    · split
      · exact fail_settles rfl
      · exact .reads headed
    · exact .reads headed

theorem bodyTimedOut_settles {s : Owned} (iterating : s.iterating) : Settles s .expire s.owner.bodyTimedOut := by
  unfold Owner.bodyTimedOut
  split
  · rename_i stream
    exact .timedOut stream rfl iterating (settle_result _ _)
  · rename_i request
    exact .raised (by simp [request]) rfl
  · rename_i request
    exact .raised (by simp [request]) (settle_result _ _)

theorem pull_spec {s t : Owned} (pulled : s.pull = some t) :
    ∃ call, s.call.step (.read CHUNK_SIZE (s.call.shared.body.read CHUNK_SIZE).1) = some call ∧ t.call = call ∧
      t.owner.kind = s.owner.kind ∧ t.owner.requireHttp3 = s.owner.requireHttp3 ∧
      t.owner.pieces.flatten = s.owner.pieces.flatten ++
        Label.takes (.read CHUNK_SIZE (s.call.shared.body.read CHUNK_SIZE).1) ∧
      ((s.atEnd ∧ t.owner.pc = if s.owner.kind = .stream then s.owner.settle .exhausted else .final) ∨
        t.owner.pc = .body .poll ∨ t.owner.pc = s.owner.pc) := by
  obtain ⟨call, stepped, rfl⟩ := Option.map_eq_some_iff.mp pulled
  refine ⟨call, stepped, ?_⟩
  have returned := (Body.read_spec s.call.shared.body (show 0 < CHUNK_SIZE by decide)).returned
  cases got : (s.call.shared.body.read CHUNK_SIZE).1 with
  | eof =>
    have ended : s.atEnd := by
      rw [got] at returned
      split at returned
      · rename_i both
        exact ⟨both.2, both.1⟩
      · cases returned
    exact ⟨rfl, rfl, rfl, by simp [Label.takes], .inl ⟨ended, rfl⟩⟩
  | copied out =>
    cases out with
    | nil => exact ⟨rfl, rfl, rfl, by simp [Label.takes], .inr (.inl rfl)⟩
    | cons byte out => exact ⟨rfl, rfl, rfl, by simp [Label.takes], .inr (.inr rfl)⟩

theorem act_settles {s t : Owned} {act : Act} (acted : s.act act = some t) (working : s.owner.pc.result? = none) :
    Settles s act t.owner.pc := by
  cases act with
  | proceed =>
    simp only [Owned.act, proceed] at acted
    cases pc : s.owner.pc with
    | headers turn =>
      cases turn with
      | round =>
        simp only [pc, Option.some.injEq] at acted
        exact acted ▸ .waits rfl rfl
      | drain =>
        simp only [pc] at acted
        obtain ⟨_, _, rfl⟩ := via_spec acted
        exact .waits rfl rfl
      | look =>
        simp only [pc, Option.some.injEq] at acted
        subst acted
        simp only [goto]
        split
        · exact .waits rfl rfl
        · rename_i moved
          exact .opens moved
      | poll =>
        simp only [pc, Option.ite_none_right_eq_some, Option.some.injEq] at acted
        exact acted.2 ▸ .waits rfl rfl
    | headersLast =>
      simp only [pc, Option.some.injEq] at acted
      subst acted
      simp only [goto]
      split
      · exact headersTimedOut_settles s .proceed
      · rename_i moved
        exact .opens moved
    | result =>
      simp only [pc, Option.some.injEq] at acted
      exact acted ▸ opened_settles (by simp [pc, Pc.headed])
    | body turn =>
      have headed : s.owner.pc.headed = true := by simp [pc, Pc.headed]
      cases turn with
      | round =>
        simp only [pc, Option.some.injEq] at acted
        exact acted ▸ .reads headed
      | drain =>
        simp only [pc] at acted
        obtain ⟨_, _, rfl⟩ := via_spec acted
        exact .reads headed
      | look =>
        simp only [pc] at acted
        obtain ⟨_, _, _, _, _, _, ⟨ended, goes⟩ | waits | again⟩ := pull_spec acted
        · rw [goes]
          split
          · rename_i stream
            exact .exhausted stream rfl ended (settle_result _ _)
          · rename_i request
            exact .final request ended headed rfl
        · rw [waits]
          exact .reads headed
        · rw [again, pc]
          exact .reads headed
      | poll =>
        simp only [pc, Option.ite_none_right_eq_some, Option.some.injEq] at acted
        exact acted.2 ▸ .reads headed
    | final =>
      simp only [pc, Option.some.injEq] at acted
      exact acted ▸ .concluded pc rfl (settle_result _ _)
    | cancelling | waiting | leaving | freeing | releasing | done => simp [pc, Pc.result?] at working
  | expire =>
    simp only [Owned.act, expire, Option.ite_none_left_eq_some] at acted
    obtain ⟨_, acted⟩ := acted
    split at acted
    · exact (Option.some.inj acted) ▸ .waits rfl rfl
    · exact (Option.some.inj acted) ▸ headersTimedOut_settles s .expire
    · rename_i round
      exact (Option.some.inj acted) ▸ bodyTimedOut_settles ⟨_, round⟩
    · rename_i poll
      exact (Option.some.inj acted) ▸ bodyTimedOut_settles ⟨_, poll⟩
    · cases acted
  | cancelled =>
    simp only [Owned.act, Option.ite_none_right_eq_some, Option.some.injEq] at acted
    obtain ⟨⟨request, _⟩, rfl⟩ := acted
    exact .raised (by simp [request]) (settle_result _ _)
  | leave =>
    simp only [Owned.act, Option.ite_none_right_eq_some, Option.some.injEq] at acted
    obtain ⟨⟨stream, _⟩, rfl⟩ := acted
    exact .abandoned stream (settle_result _ _)

theorem expire_body {s t : Owned} {turn : Turn} (expired : s.act .expire = some t) (body : s.owner.pc = .body turn) :
    t.owner.pc = s.owner.bodyTimedOut := by
  simp only [act, expire, body, Option.ite_none_left_eq_some] at expired
  obtain ⟨_, expired⟩ := expired
  cases turn with
  | round | poll => exact (Option.some.inj expired) ▸ rfl
  | drain | look => cases expired

structure ActSpec (s t : Owned) (act : Act) : Prop where
  played : Call.machine.run s.call (s.uses act) = some t.call
  pieces : t.owner.pieces.flatten = s.owner.pieces.flatten ++ (s.uses act).flatMap Label.takes
  kind : t.owner.kind = s.owner.kind
  requireHttp3 : t.owner.requireHttp3 = s.owner.requireHttp3

theorem ActSpec.goto {s : Owned} {act : Act} {pc : Pc} (unused : s.uses act = []) : ActSpec s (s.goto pc) act :=
  ⟨by rw [unused]; rfl, by rw [unused]; exact (List.append_nil _).symm, rfl, rfl⟩

theorem ActSpec.via {s t : Owned} {act : Act} {label : Label} {pc : Pc} (gone : s.via label pc = some t)
    (used : s.uses act = [label]) (untaken : label.takes = []) : ActSpec s t act := by
  obtain ⟨call, stepped, rfl⟩ := via_spec gone
  exact ⟨by rw [used]; exact Machine.run_cons.mpr ⟨call, stepped, rfl⟩, by simp [used, untaken], rfl, rfl⟩

theorem act_spec {s t : Owned} {act : Act} (acted : s.act act = some t) : ActSpec s t act := by
  cases act with
  | proceed =>
    simp only [Owned.act, proceed] at acted
    cases pc : s.owner.pc with
    | headers turn | body turn =>
      cases turn with
      | round =>
        simp only [pc, Option.some.injEq] at acted
        exact acted ▸ .goto (by simp [uses, pc])
      | drain =>
        simp only [pc] at acted
        exact .via acted (by simp [uses, pc]) rfl
      | poll =>
        simp only [pc, Option.ite_none_right_eq_some, Option.some.injEq] at acted
        exact acted.2 ▸ .goto (by simp [uses, pc])
      | look =>
        simp only [pc, Option.some.injEq] at acted
        first
        | exact acted ▸ .goto (by simp [uses, pc])
        | obtain ⟨call, stepped, same, kind, required, pieces, _⟩ := pull_spec acted
          have used : s.uses .proceed = [.read CHUNK_SIZE (s.call.shared.body.read CHUNK_SIZE).1] := by simp [uses, pc]
          refine ⟨?_, by rw [used, List.flatMap_singleton]; exact pieces, kind, required⟩
          rw [used, same]
          exact Machine.run_cons.mpr ⟨call, stepped, rfl⟩
    | headersLast | result | final =>
      simp only [pc, Option.some.injEq] at acted
      exact acted ▸ .goto (by simp [uses, pc])
    | cancelling | freeing =>
      simp only [pc] at acted
      exact .via acted (by simp [uses, pc]) rfl
    | waiting | releasing =>
      simp only [pc, Option.ite_none_right_eq_some, Option.some.injEq] at acted
      exact acted.2 ▸ .goto (by simp [uses, pc])
    | leaving r =>
      simp only [pc] at acted
      split at acted
      · rename_i finished
        exact (Option.some.inj acted) ▸ .goto (by simp [uses, pc, finished])
      · rename_i going
        exact .via acted (by simp [uses, pc, going]) rfl
    | done r => simp [pc] at acted
  | expire =>
    simp only [Owned.act, expire, Option.ite_none_left_eq_some] at acted
    obtain ⟨_, acted⟩ := acted
    split at acted
    all_goals first
      | exact (Option.some.inj acted) ▸ .goto rfl
      | cases acted
  | cancelled | leave =>
    simp only [Owned.act, Option.ite_none_right_eq_some, Option.some.injEq] at acted
    exact acted.2 ▸ .goto rfl

theorem act_settled {s t : Owned} {act : Act} {r : Result} (acted : s.act act = some t)
    (settled : s.owner.pc.result? = some r) : t.owner.pc.result? = some r := by
  cases act with
  | proceed =>
    simp only [Owned.act, proceed] at acted
    cases pc : s.owner.pc with
    | cancelling e | freeing e =>
      simp only [pc] at acted
      obtain ⟨_, _, rfl⟩ := via_spec acted
      simpa [pc, Pc.result?] using settled
    | waiting e =>
      simp only [pc, Option.ite_none_right_eq_some, Option.some.injEq] at acted
      rw [← acted.2, goto, settle_result]
      simpa [pc, Pc.result?] using settled
    | leaving e =>
      simp only [pc] at acted
      split at acted
      · rw [← Option.some.inj acted]
        simpa [goto, pc, Pc.result?] using settled
      · obtain ⟨_, _, rfl⟩ := via_spec acted
        simpa [pc, Pc.result?] using settled
    | releasing e =>
      simp only [pc, Option.ite_none_right_eq_some, Option.some.injEq] at acted
      rw [← acted.2]
      simpa [goto, pc, Pc.result?] using settled
    | done r => simp [pc] at acted
    | headers | headersLast | result | body | final => simp [pc, Pc.result?] at settled
  | expire =>
    simp only [Owned.act, expire, Option.ite_none_left_eq_some] at acted
    obtain ⟨_, acted⟩ := acted
    split at acted <;> simp_all [Pc.result?]
  | cancelled =>
    simp only [Owned.act, Option.ite_none_right_eq_some] at acted
    obtain ⟨⟨_, poll | poll⟩, _⟩ := acted <;> simp [poll, Pc.result?] at settled
  | leave =>
    simp only [Owned.act, Option.ite_none_right_eq_some] at acted
    obtain ⟨⟨_, round | look⟩, _⟩ := acted <;> simp_all [Pc.result?]

def callOf : Machine.Simulation machine Call.machine (fun s c => s.call = c) where
  events s label :=
    match label with
    | .env label => [label]
    | .owner act => s.uses act
  played := by
    rintro s c label t rfl stepped
    cases label with
    | env label =>
      simp only [machine, step, Option.ite_none_right_eq_some, Option.map_eq_some_iff] at stepped
      obtain ⟨_, call, moved, rfl⟩ := stepped
      exact ⟨call, Machine.run_cons.mpr ⟨call, moved, rfl⟩, rfl⟩
    | owner act =>
      simp only [machine, step, Option.ite_none_right_eq_some] at stepped
      exact ⟨t.call, (act_spec stepped.2).played, rfl⟩

end Owned

end Cronet.Session
