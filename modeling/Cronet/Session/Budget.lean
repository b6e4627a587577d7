import Mathlib.Algebra.Order.Ring.Nat

namespace Cronet.Session

/-- A clock that ticks a whole number of times in every millisecond; all times below are in ticks. -/
structure Clock where
  millisecond : ℕ
  ticks : 0 < millisecond

inductive Ending where
  | complete
  | failed
  | never
  deriving DecidableEq

/-- What the network does with one call: nothing, an end without any headers, or headers and
    then signs of life, each so long after the one before. The last of them ends the body. -/
inductive Hop where
  | silent
  | failed (after : ℕ)
  | opened (headers : ℕ) (body : List ℕ) (ending : Ending)

inductive Verdict where
  | returned
  | raised
  | timedOut
  | overflowed
  deriving DecidableEq

structure Waited where
  verdict : Verdict
  time : ℕ
  deriving DecidableEq

def Waited.later (w : Waited) (spent : ℕ) : Waited := { w with time := spent + w.time }

@[simp] theorem Waited.later_verdict (w : Waited) (spent : ℕ) : (w.later spent).verdict = w.verdict := rfl

@[simp] theorem Waited.later_time (w : Waited) (spent : ℕ) : (w.later spent).time = spent + w.time := rfl

theorem Waited.later_later (w : Waited) (first second : ℕ) : (w.later first).later second = w.later (second + first) := by
  simp only [later, Nat.add_assoc]

theorem Waited.later_zero (w : Waited) : w.later 0 = w := by simp only [later, Nat.zero_add]

def Ending.verdict : Ending → Verdict
  | .complete => .returned
  | .failed => .raised
  | .never => .timedOut

namespace Hop

/-- When the call is first seen to have left `STARTED`. -/
def headers? : Hop → Option ℕ
  | .silent => none
  | .failed after => some after
  | .opened headers _ _ => some headers

def verdict : Hop → Verdict
  | .silent => .timedOut
  | .failed _ => .raised
  | .opened _ _ ending => ending.verdict

def time : Hop → ℕ
  | .silent => 0
  | .failed after => after
  | .opened headers body _ => headers + body.sum

end Hop

/-- A redirect chain walked with a jar: every hop is performed with the same timeout. Without a
    jar there is one hop. -/
def walk (perform : Hop → Waited) : List Hop → Waited
  | [] => ⟨.returned, 0⟩
  | hop :: rest =>
    let waited := perform hop
    if waited.verdict = .returned then (walk perform rest).later waited.time else waited

/-- The most milliseconds `poll` takes; for more it raises `OverflowError`. -/
def INT_MAX : ℕ := 2 ^ 31 - 1

namespace Clock

variable (clock : Clock)

/-- `_timeout_ms`, of a timeout that is given. -/
def timeoutMs (timeout : ℕ) : ℕ := timeout / clock.millisecond

/-- What `_countdown` yields at `now`; at zero it stops. -/
def countdown (deadline now : ℕ) : ℕ := (deadline - now) / clock.millisecond

def poll (remaining : ℕ) (next : Option ℕ) : Bool × ℕ :=
  match next with
  | some gap => if gap ≤ remaining * clock.millisecond then (true, gap) else (false, remaining * clock.millisecond)
  | none => (false, remaining * clock.millisecond)

/-- `wait_for_progress`: `none` is the `OverflowError`. -/
def waitForProgress (remaining : ℕ) (next : Option ℕ) : Option (Bool × ℕ) :=
  if remaining ≤ INT_MAX then some (clock.poll remaining next) else none

/-- A round of `wait_for_headers` or `iter_body`: what is there already is not waited for. -/
def round (remaining : ℕ) (next : Option ℕ) : Option (Bool × ℕ) :=
  if next = some 0 then some (true, 0) else clock.waitForProgress remaining next

/-- A generator that is exhausted at once still looks at the state a last time. -/
def waitForHeaders (timeoutMs : ℕ) (headers : Option ℕ) : Option (Bool × ℕ) :=
  clock.round (clock.countdown (timeoutMs * clock.millisecond) 0) headers

/-- `iter_body`, run to its end: `now` and `deadline` count from the headers. -/
def iterBody (deadline now : ℕ) (body : List ℕ) (ending : Ending) : Waited :=
  let remaining := clock.countdown deadline now
  if remaining = 0 then ⟨.timedOut, now⟩
  else
    match body with
    | [] =>
      match ending with
      | .complete => ⟨.returned, now⟩
      | .failed => ⟨.raised, now⟩
      | .never =>
        match clock.round remaining none with
        | none => ⟨.overflowed, now⟩
        | some (_, spent) => ⟨.timedOut, now + spent⟩
    | gap :: rest =>
      match clock.round remaining (some gap) with
      | none => ⟨.overflowed, now⟩
      | some (true, spent) => iterBody deadline (now + spent) rest ending
      | some (false, spent) => ⟨.timedOut, now + spent⟩

/-- `Session._perform`: each of the two waits counts down the whole timeout. -/
def perform (timeout : ℕ) (hop : Hop) : Waited :=
  let timeoutMs := clock.timeoutMs timeout
  match clock.waitForHeaders timeoutMs hop.headers? with
  | none => ⟨.overflowed, 0⟩
  | some (false, spent) => ⟨.timedOut, spent⟩
  | some (true, spent) =>
    match hop with
    | .opened _ body ending => (clock.iterBody (timeoutMs * clock.millisecond) 0 body ending).later spent
    | _ => ⟨.raised, spent⟩

/-- `Session.request`. -/
def request (timeout : ℕ) (hops : List Hop) : Waited := walk (clock.perform timeout) hops

end Clock

/-- `_progress` under `asyncio.timeout`: what is there already is not waited for, and at the
    deadline itself the timer wins. -/
def inTime (timeout now gap : ℕ) : Prop := gap = 0 ∨ now + gap < timeout

instance (timeout now gap : ℕ) : Decidable (inTime timeout now gap) := inferInstanceAs (Decidable (_ ∨ _))

/-- `_read_body`: `now` counts from the start of the call, as the one deadline does. -/
def readBody (timeout now : ℕ) (body : List ℕ) (ending : Ending) : Waited :=
  match body with
  | [] =>
    match ending with
    | .complete => ⟨.returned, now⟩
    | .failed => ⟨.raised, now⟩
    | .never => ⟨.timedOut, timeout⟩
  | gap :: rest => if inTime timeout now gap then readBody timeout (now + gap) rest ending else ⟨.timedOut, timeout⟩

/-- `AsyncSession._perform`. -/
def performAsync (timeout : ℕ) : Hop → Waited
  | .silent => ⟨.timedOut, timeout⟩
  | .failed after => if inTime timeout 0 after then ⟨.raised, after⟩ else ⟨.timedOut, timeout⟩
  | .opened headers body ending =>
    if inTime timeout 0 headers then readBody timeout headers body ending else ⟨.timedOut, timeout⟩

/-- `AsyncSession.request`. -/
def requestAsync (timeout : ℕ) (hops : List Hop) : Waited := walk (performAsync timeout) hops

/-- The one number the caller gave bounds what either session waits, and both give up alike,
    with nothing but `Timeout`. -/
structure Budgeted (clock : Clock) (timeout : ℕ) (hops : List Hop) : Prop where
  gives : (clock.request timeout hops).verdict ≠ .overflowed
  blocking : (clock.request timeout hops).time ≤ timeout
  async : (requestAsync timeout hops).time ≤ timeout
  agree : (clock.request timeout hops).verdict = .timedOut ↔ (requestAsync timeout hops).verdict = .timedOut

/-- The moments of a body's signs of life, the first of them at `now`. -/
def signs (now : ℕ) : List ℕ → List ℕ
  | [] => [now]
  | gap :: rest => now :: signs (now + gap) rest

/-- The hops a walk can reach: up to the first that does not end in a response. -/
def reached : List Hop → List Hop
  | [] => []
  | hop :: rest => if hop.verdict = .returned then hop :: reached rest else [hop]

def total (hops : List Hop) : ℕ := (hops.map Hop.time).sum

namespace Hop

def Prompt (timeout : ℕ) (hop : Hop) : Prop :=
  hop.verdict ≠ .timedOut ∧ (hop.time = 0 ∨ hop.time < timeout)

/-- Headers within the whole milliseconds of the timeout, and a body that ends with one of
    them to spare. -/
def InCut (clock : Clock) (timeout : ℕ) (hop : Hop) : Prop :=
  let cut := clock.timeoutMs timeout * clock.millisecond
  match hop with
  | .silent => False
  | .failed after => after ≤ cut
  | .opened headers body ending => ending ≠ .never ∧ headers ≤ cut ∧ body.sum + clock.millisecond ≤ cut

/-- A timeout that `poll` does not take is enough only where nothing is waited for. -/
def Served (clock : Clock) (timeout : ℕ) (hop : Hop) : Prop :=
  (clock.timeoutMs timeout ≤ INT_MAX ∨ hop.time = 0) ∧ hop.InCut clock timeout

/-- A sign of life in the last millisecond of the body's countdown falls within `limit`, or the
    whole milliseconds left at the last sign before that do. -/
def BodyLost (clock : Clock) (cut limit : ℕ) (moments : List ℕ) : Prop :=
  (∃ x ∈ moments, cut < x + clock.millisecond ∧ x ≤ limit) ∨
    ∃ x ∈ moments, x + clock.millisecond ≤ cut ∧ (∀ y ∈ moments, y + clock.millisecond ≤ cut → y ≤ x) ∧
      x + (cut - x) / clock.millisecond * clock.millisecond ≤ limit

def Lost (clock : Clock) (timeout : ℕ) (hop : Hop) : Prop :=
  clock.timeoutMs timeout ≤ INT_MAX ∧ ¬hop.Served clock timeout ∧
    let cut := clock.timeoutMs timeout * clock.millisecond
    match hop with
    | .silent => True
    | .failed _ => True
    | .opened headers body _ => cut < headers ∨ ∃ left, headers + left = timeout ∧ BodyLost clock cut left (signs 0 body)

end Hop

/-- Both sessions have time for every hop and all of them fit one timeout, or no time passes
    before a hop that both give up. -/
def Affordable (clock : Clock) (timeout : ℕ) (hops : List Hop) : Prop :=
  ((∀ hop ∈ reached hops, hop.Served clock timeout ∧ hop.Prompt timeout) ∧ total (reached hops) ≤ timeout) ∨
    ∃ before hop after, hops = before ++ hop :: after ∧ (∀ b ∈ before, b.verdict = .returned ∧ b.time = 0) ∧
      ¬hop.Prompt timeout ∧ hop.Lost clock timeout

section

variable {clock : Clock} {timeout : ℕ}

theorem whole_le (span : ℕ) : span / clock.millisecond * clock.millisecond ≤ span := Nat.div_mul_le_self _ _

theorem lt_whole (clock : Clock) (span : ℕ) : span < span / clock.millisecond * clock.millisecond + clock.millisecond :=
  Nat.lt_div_mul_add clock.ticks

theorem countdown_eq_zero {deadline now : ℕ} : clock.countdown deadline now = 0 ↔ deadline < now + clock.millisecond := by
  have positive := clock.ticks
  rw [Clock.countdown, Nat.div_eq_zero_iff]
  omega

theorem countdown_zero (ms : ℕ) : clock.countdown (ms * clock.millisecond) 0 = ms := by
  rw [Clock.countdown, Nat.sub_zero, Nat.mul_div_cancel _ clock.ticks]

theorem cut_le (clock : Clock) (timeout : ℕ) : clock.timeoutMs timeout * clock.millisecond ≤ timeout := whole_le timeout

theorem le_cut (enough : clock.millisecond ≤ timeout) :
    clock.millisecond ≤ clock.timeoutMs timeout * clock.millisecond := by
  have one : 1 ≤ clock.timeoutMs timeout := (Nat.one_le_div_iff clock.ticks).mpr enough
  have h := Nat.mul_le_mul_right clock.millisecond one
  simpa using h

theorem cut_zero (short : timeout < clock.millisecond) : clock.timeoutMs timeout * clock.millisecond = 0 := by
  rw [Clock.timeoutMs, Nat.div_eq_of_lt short, Nat.zero_mul]

theorem le_of_mem_signs {body : List ℕ} {now moment : ℕ} (member : moment ∈ signs now body) : now ≤ moment := by
  induction body generalizing now with
  | nil => exact (List.mem_singleton.mp member).ge
  | cons gap rest ih =>
    rcases List.mem_cons.mp member with rfl | member
    · exact le_rfl
    · have h := ih member
      omega

theorem mem_signs_self (body : List ℕ) (now : ℕ) : now ∈ signs now body := by
  cases body <;> simp [signs]

theorem round_poll {remaining : ℕ} (small : remaining ≤ INT_MAX) (next : Option ℕ) :
    clock.round remaining next = some (clock.poll remaining next) := by
  rw [Clock.round]
  split
  · rename_i here
    rw [here]
    rfl
  · exact if_pos small

theorem round_overflow {remaining : ℕ} (long : INT_MAX < remaining) {next : Option ℕ} (absent : next ≠ some 0) :
    clock.round remaining next = none := by
  rw [Clock.round, if_neg absent]
  exact if_neg (Nat.not_le_of_lt long)

theorem countdown_le {most : ℕ} (deadline now : ℕ) (small : clock.countdown deadline 0 ≤ most) :
    clock.countdown deadline now ≤ most := by
  refine le_trans (Nat.div_le_div_right ?_) small
  omega

section

variable {body : List ℕ} {ending : Ending} {deadline now : ℕ}

theorem iterBody_spent (spent : deadline < now + clock.millisecond) :
    clock.iterBody deadline now body ending = ⟨.timedOut, now⟩ := by
  rw [Clock.iterBody.eq_def]
  exact if_pos (countdown_eq_zero.mpr spent)

theorem countdown_ne_zero (left : now + clock.millisecond ≤ deadline) : clock.countdown deadline now ≠ 0 := by
  rw [Ne, countdown_eq_zero]
  omega

theorem iterBody_done (ends : ending ≠ .never) (left : now + clock.millisecond ≤ deadline) :
    clock.iterBody deadline now [] ending = ⟨ending.verdict, now⟩ := by
  have goes := countdown_ne_zero left
  rw [Clock.iterBody.eq_def]
  cases ending with
  | never => exact absurd rfl ends
  | complete | failed => simp [goes, Ending.verdict]

theorem iterBody_instant (ends : ending ≠ .never) (instant : body.sum = 0) (left : now + clock.millisecond ≤ deadline) :
    clock.iterBody deadline now body ending = ⟨ending.verdict, now⟩ := by
  induction body with
  | nil => exact iterBody_done ends left
  | cons gap rest ih =>
    obtain ⟨here, later⟩ := Nat.add_eq_zero_iff.mp (List.sum_cons.symm.trans instant)
    rw [Clock.iterBody.eq_def]
    simp [countdown_ne_zero left, Clock.round, here, ih later]

theorem iterBody_overflow (long : INT_MAX < clock.countdown deadline now) (left : now + clock.millisecond ≤ deadline)
    (waits : ¬(ending ≠ .never ∧ body.sum = 0)) : clock.iterBody deadline now body ending = ⟨.overflowed, now⟩ := by
  have goes := countdown_ne_zero left
  induction body with
  | nil =>
    have never : ending = .never := by
      by_contra ends
      exact waits ⟨ends, rfl⟩
    have fails : clock.round _ none = none := round_overflow long (Option.some_ne_none 0).symm
    rw [Clock.iterBody.eq_def]
    simp [goes, never, fails]
  | cons gap rest ih =>
    rw [Clock.iterBody.eq_def]
    by_cases here : gap = 0
    · subst here
      have rests := ih (by simpa only [List.sum_cons, Nat.zero_add] using waits)
      simp [goes, Clock.round, rests]
    · have fails : clock.round _ (some gap) = none := round_overflow long fun same => here (Option.some.inj same)
      simp [goes, fails]

theorem bodyLost_spent {limit : ℕ} (spent : deadline < now + clock.millisecond) :
    Hop.BodyLost clock deadline limit (signs now body) ↔ now ≤ limit := by
  constructor
  · rintro (⟨x, member, _, within⟩ | ⟨x, member, spare, _⟩)
    · exact (le_of_mem_signs member).trans within
    · have h := le_of_mem_signs member
      omega
  · intro within
    exact .inl ⟨now, mem_signs_self body now, spent, within⟩

theorem bodyLost_last {limit : ℕ} (left : now + clock.millisecond ≤ deadline)
    (later : ∀ x ∈ signs now body, x = now ∨ now + clock.countdown deadline now * clock.millisecond < x) :
    Hop.BodyLost clock deadline limit (signs now body) ↔
      now + clock.countdown deadline now * clock.millisecond ≤ limit := by
  have whole := lt_whole clock (deadline - now)
  rw [← Clock.countdown] at whole
  constructor
  · rintro (⟨x, member, gone, within⟩ | ⟨x, member, spare, _, within⟩)
    · rcases later x member with rfl | h <;> omega
    · rcases later x member with rfl | h
      · exact within
      · omega
  · intro within
    refine .inr ⟨now, mem_signs_self body now, left, fun y member spare => ?_, within⟩
    rcases later y member with rfl | h <;> omega

theorem bodyLost_cons {limit gap : ℕ} (left : now + clock.millisecond ≤ deadline)
    (within : gap ≤ clock.countdown deadline now * clock.millisecond) :
    Hop.BodyLost clock deadline limit (signs now (gap :: body)) ↔
      Hop.BodyLost clock deadline limit (signs (now + gap) body) := by
  constructor
  · rintro (⟨x, member, gone, soon⟩ | ⟨x, member, spare, last, soon⟩)
    · rcases List.mem_cons.mp member with rfl | member
      · omega
      · exact .inl ⟨x, member, gone, soon⟩
    · rcases List.mem_cons.mp member with rfl | member
      · by_cases next : deadline < x + gap + clock.millisecond
        · have arrives : x + gap ≤ limit := le_trans (Nat.add_le_add_left within x) soon
          exact .inl ⟨x + gap, mem_signs_self body _, next, arrives⟩
        · have same := last (x + gap) (List.mem_cons_of_mem _ (mem_signs_self body _)) (Nat.le_of_not_lt next)
          have zero : gap = 0 := by omega
          subst zero
          exact .inr ⟨x, mem_signs_self body _, spare, fun y other => last y (List.mem_cons_of_mem _ other), soon⟩
      · exact .inr ⟨x, member, spare, fun y other => last y (List.mem_cons_of_mem _ other), soon⟩
  · rintro (⟨x, member, gone, soon⟩ | ⟨x, member, spare, last, soon⟩)
    · exact .inl ⟨x, List.mem_cons_of_mem _ member, gone, soon⟩
    · refine .inr ⟨x, List.mem_cons_of_mem _ member, spare, fun y other fits => ?_, soon⟩
      rcases List.mem_cons.mp other with rfl | other
      · have h := le_of_mem_signs member
        omega
      · exact last y other fits

variable (small : clock.countdown deadline 0 ≤ INT_MAX)

include small

theorem iterBody_never (left : now + clock.millisecond ≤ deadline) :
    clock.iterBody deadline now [] .never = ⟨.timedOut, now + clock.countdown deadline now * clock.millisecond⟩ := by
  have polls : clock.round _ none = _ := round_poll (countdown_le deadline now small) none
  rw [Clock.iterBody.eq_def]
  simp [countdown_ne_zero left, polls, Clock.poll]

theorem iterBody_cons {gap : ℕ} (left : now + clock.millisecond ≤ deadline) :
    clock.iterBody deadline now (gap :: body) ending =
      if gap ≤ clock.countdown deadline now * clock.millisecond then clock.iterBody deadline (now + gap) body ending
      else ⟨.timedOut, now + clock.countdown deadline now * clock.millisecond⟩ := by
  have polls : clock.round _ (some gap) = _ := round_poll (countdown_le deadline now small) (some gap)
  rw [Clock.iterBody.eq_def]
  by_cases within : gap ≤ clock.countdown deadline now * clock.millisecond <;>
    simp [countdown_ne_zero left, polls, Clock.poll, within]

theorem iterBody_served (ends : ending ≠ .never) (spare : now + body.sum + clock.millisecond ≤ deadline) :
    clock.iterBody deadline now body ending = ⟨ending.verdict, now + body.sum⟩ := by
  induction body generalizing now with
  | nil =>
    rw [iterBody_done ends (by simpa using spare)]
    rfl
  | cons gap rest ih =>
    rw [List.sum_cons] at spare ⊢
    have within : gap ≤ clock.countdown deadline now * clock.millisecond := by
      have h := lt_whole clock (deadline - now)
      unfold Clock.countdown
      omega
    rw [iterBody_cons small (by omega), if_pos within, ih (by omega), Nat.add_assoc]

theorem iterBody_late (late : ¬(ending ≠ .never ∧ now + body.sum + clock.millisecond ≤ deadline)) :
    (clock.iterBody deadline now body ending).verdict = .timedOut := by
  rcases Nat.lt_or_ge deadline (now + clock.millisecond) with spent | left
  · rw [iterBody_spent spent]
  · induction body generalizing now with
    | nil =>
      have never : ending = .never := by
        by_contra ends
        exact late ⟨ends, by simpa using left⟩
      rw [never, iterBody_never small left]
    | cons gap rest ih =>
      rw [iterBody_cons small left]
      split
      · by_cases next : deadline < now + gap + clock.millisecond
        · rw [iterBody_spent next]
        · exact ih (by simpa only [List.sum_cons, Nat.add_assoc] using late) (Nat.le_of_not_lt next)
      · rfl

theorem iterBody_time_le (limit : ℕ) (late : ¬(ending ≠ .never ∧ now + body.sum + clock.millisecond ≤ deadline)) :
    (clock.iterBody deadline now body ending).time ≤ limit ↔
      Hop.BodyLost clock deadline limit (signs now body) := by
  rcases Nat.lt_or_ge deadline (now + clock.millisecond) with spent | left
  · rw [iterBody_spent spent, bodyLost_spent spent]
  · induction body generalizing now with
    | nil =>
      have never : ending = .never := by
        by_contra ends
        exact late ⟨ends, by simpa using left⟩
      have alone : ∀ x ∈ signs now [], x = now ∨ now + clock.countdown deadline now * clock.millisecond < x :=
        fun x member => .inl (List.mem_singleton.mp member)
      rw [never, iterBody_never small left, bodyLost_last left alone]
    | cons gap rest ih =>
      rw [iterBody_cons small left]
      split
      · rename_i within
        rw [bodyLost_cons left within]
        by_cases next : deadline < now + gap + clock.millisecond
        · rw [iterBody_spent next, bodyLost_spent next]
        · exact ih (by simpa only [List.sum_cons, Nat.add_assoc] using late) (Nat.le_of_not_lt next)
      · rename_i beyond
        rw [bodyLost_last left]
        intro x member
        rcases List.mem_cons.mp member with same | member
        · exact .inl same
        · have h := le_of_mem_signs member
          right
          omega

end

section

variable {hop : Hop}

theorem perform_instant (instant : hop.time = 0) (within : hop.InCut clock timeout) :
    clock.perform timeout hop = ⟨hop.verdict, 0⟩ := by
  cases hop with
  | silent => exact within.elim
  | failed after =>
    have here : after = 0 := instant
    subst here
    rfl
  | opened headers body ending =>
    obtain ⟨here, later⟩ : headers = 0 ∧ body.sum = 0 := Nat.add_eq_zero_iff.mp instant
    subst here
    have spare : 0 + clock.millisecond ≤ clock.timeoutMs timeout * clock.millisecond := by
      have h := within.2.2
      omega
    have reads := iterBody_instant within.1 later spare
    simp only [Clock.perform, Clock.waitForHeaders, Clock.round, Hop.headers?, if_true, reads, Waited.later_zero]
    rfl

theorem perform_overflow (long : INT_MAX < clock.timeoutMs timeout) (waits : ¬(hop.time = 0 ∧ hop.InCut clock timeout)) :
    clock.perform timeout hop = ⟨.overflowed, 0⟩ := by
  have polls : ∀ {next : Option ℕ}, next ≠ some 0 → clock.waitForHeaders (clock.timeoutMs timeout) next = none := by
    intro next absent
    rw [Clock.waitForHeaders, countdown_zero]
    exact round_overflow long absent
  cases hop with
  | silent => simp only [Clock.perform, Hop.headers?, polls (Option.some_ne_none 0).symm]
  | failed after =>
    have later : some after ≠ some 0 := by
      intro same
      cases same
      exact waits ⟨rfl, Nat.zero_le _⟩
    simp only [Clock.perform, Hop.headers?, polls later]
  | opened headers body ending =>
    by_cases here : headers = 0
    · subst here
      have one : clock.millisecond ≤ clock.timeoutMs timeout * clock.millisecond :=
        Nat.le_mul_of_pos_left _ (Nat.zero_lt_of_lt long)
      have fails := @iterBody_overflow clock body ending (clock.timeoutMs timeout * clock.millisecond) 0
        (by rwa [countdown_zero]) (by omega) fun ⟨ends, instant⟩ =>
          waits ⟨(Nat.zero_add _).trans instant, ends, Nat.zero_le _, by omega⟩
      simp only [Clock.perform, Clock.waitForHeaders, Clock.round, Hop.headers?, if_true, fails, Waited.later_zero]
    · have later : some headers ≠ some 0 := fun same => here (Option.some.inj same)
      simp only [Clock.perform, Hop.headers?, polls later]

section Polled

variable (small : clock.timeoutMs timeout ≤ INT_MAX)

include small

theorem waitForHeaders_poll (headers : Option ℕ) :
    clock.waitForHeaders (clock.timeoutMs timeout) headers = some (clock.poll (clock.timeoutMs timeout) headers) := by
  rw [Clock.waitForHeaders, countdown_zero, round_poll small]

theorem countdown_small : clock.countdown (clock.timeoutMs timeout * clock.millisecond) 0 ≤ INT_MAX := by
  rwa [countdown_zero]

theorem perform_headless (headless : ∀ h, hop.headers? = some h → clock.timeoutMs timeout * clock.millisecond < h) :
    clock.perform timeout hop = ⟨.timedOut, clock.timeoutMs timeout * clock.millisecond⟩ := by
  have missed : clock.waitForHeaders (clock.timeoutMs timeout) hop.headers? =
      some (false, clock.timeoutMs timeout * clock.millisecond) := by
    rw [waitForHeaders_poll small]
    cases arrives : hop.headers? with
    | none => rfl
    | some h => exact congrArg some (if_neg (Nat.not_le_of_lt (headless h arrives)))
  simp only [Clock.perform, missed]

theorem perform_failed {after : ℕ} (within : after ≤ clock.timeoutMs timeout * clock.millisecond) :
    clock.perform timeout (.failed after) = ⟨.raised, after⟩ := by
  simp only [Clock.perform, waitForHeaders_poll small, Hop.headers?, Clock.poll, within, if_true]

theorem perform_opened {headers : ℕ} {body : List ℕ} {ending : Ending}
    (within : headers ≤ clock.timeoutMs timeout * clock.millisecond) :
    clock.perform timeout (.opened headers body ending) =
      (clock.iterBody (clock.timeoutMs timeout * clock.millisecond) 0 body ending).later headers := by
  simp only [Clock.perform, waitForHeaders_poll small, Hop.headers?, Clock.poll, within, if_true]

theorem perform_inCut (inCut : hop.InCut clock timeout) : clock.perform timeout hop = ⟨hop.verdict, hop.time⟩ := by
  cases hop with
  | silent => exact inCut.elim
  | failed after => exact perform_failed small inCut
  | opened headers body ending =>
    obtain ⟨ends, within, spare⟩ := inCut
    rw [perform_opened small within, iterBody_served (countdown_small small) ends (by rwa [Nat.zero_add]), Nat.zero_add]
    rfl

theorem served_small : hop.Served clock timeout ↔ hop.InCut clock timeout := and_iff_right (.inl small)

theorem perform_unserved (unserved : ¬hop.Served clock timeout) :
    (clock.perform timeout hop = ⟨.timedOut, clock.timeoutMs timeout * clock.millisecond⟩ ∧ hop.Lost clock timeout) ∨
      ∃ headers body ending, hop = .opened headers body ending ∧
        headers ≤ clock.timeoutMs timeout * clock.millisecond ∧
        ¬(ending ≠ .never ∧ 0 + body.sum + clock.millisecond ≤ clock.timeoutMs timeout * clock.millisecond) := by
  have outside := (served_small small).not.mp unserved
  cases hop with
  | silent => exact .inl ⟨perform_headless small (fun h same => by cases same), small, unserved, trivial⟩
  | failed after =>
    refine .inl ⟨perform_headless small (fun h same => ?_), small, unserved, trivial⟩
    cases same
    exact Nat.lt_of_not_le outside
  | opened headers body ending =>
    rcases Nat.lt_or_ge (clock.timeoutMs timeout * clock.millisecond) headers with beyond | within
    · refine .inl ⟨perform_headless small (fun h same => ?_), small, unserved, .inl beyond⟩
      cases same
      exact beyond
    · refine .inr ⟨headers, body, ending, rfl, within, fun served => ?_⟩
      rw [Nat.zero_add] at served
      exact outside ⟨served.1, within, served.2⟩

/-- How long it takes to give an unserved hop up says whether it is `Lost`. -/
theorem lost_iff : hop.Lost clock timeout ↔ ¬hop.Served clock timeout ∧ (clock.perform timeout hop).time ≤ timeout := by
  by_cases served : hop.Served clock timeout
  · exact iff_of_false (fun lost => lost.2.1 served) (fun late => late.1 served)
  · have cut := cut_le clock timeout
    rcases perform_unserved small served with ⟨same, lost⟩ | ⟨headers, body, ending, rfl, within, late⟩
    · rw [same]
      exact iff_of_true lost ⟨served, cut⟩
    · have left : headers + (timeout - headers) = timeout := by omega
      have spent := iterBody_time_le (countdown_small small) (timeout - headers) late
      rw [perform_opened small within, Waited.later_time]
      constructor
      · rintro ⟨_, _, beyond | ⟨rest, same, lost⟩⟩
        · omega
        · have same : rest = timeout - headers := by omega
          have h := spent.mpr (same ▸ lost)
          exact ⟨served, by omega⟩
      · intro late
        exact ⟨small, served, .inr ⟨timeout - headers, left, spent.mp (by omega)⟩⟩

theorem perform_pos (enough : clock.millisecond ≤ timeout) (unserved : ¬hop.Served clock timeout) :
    0 < (clock.perform timeout hop).time := by
  have positive := clock.ticks
  have cut := le_cut enough
  rcases perform_unserved small unserved with ⟨same, _⟩ | ⟨headers, body, ending, rfl, within, late⟩
  · rw [same]
    exact Nat.lt_of_lt_of_le positive cut
  · rw [perform_opened small within, Waited.later_time]
    by_contra zero
    rcases (iterBody_time_le (countdown_small small) 0 late).mp (by omega) with ⟨x, _, gone, soon⟩ | ⟨x, _, spare, _, soon⟩
    · omega
    · have whole := lt_whole clock (clock.timeoutMs timeout * clock.millisecond - x)
      omega

end Polled

theorem perform_served (served : hop.Served clock timeout) : clock.perform timeout hop = ⟨hop.verdict, hop.time⟩ := by
  obtain ⟨small | instant, inCut⟩ := served
  · exact perform_inCut small inCut
  · rw [perform_instant instant inCut, instant]

def Clock.gaveUp (clock : Clock) (timeout : ℕ) : Verdict :=
  if clock.timeoutMs timeout ≤ INT_MAX then .timedOut else .overflowed

theorem gaveUp_small (small : clock.timeoutMs timeout ≤ INT_MAX) : clock.gaveUp timeout = .timedOut := if_pos small

theorem perform_late (unserved : ¬hop.Served clock timeout) : (clock.perform timeout hop).verdict = clock.gaveUp timeout := by
  rcases Nat.lt_or_ge INT_MAX (clock.timeoutMs timeout) with long | small
  · rw [Clock.gaveUp, if_neg (Nat.not_le_of_lt long)]
    rw [perform_overflow long fun ⟨instant, inCut⟩ => unserved ⟨.inr instant, inCut⟩]
  · rw [gaveUp_small small]
    rcases perform_unserved small unserved with ⟨same, _⟩ | ⟨headers, body, ending, rfl, within, late⟩
    · rw [same]
    · rw [perform_opened small within]
      exact iterBody_late (countdown_small small) late

theorem small_of_short (short : timeout < clock.millisecond) : clock.timeoutMs timeout ≤ INT_MAX := by
  rw [Clock.timeoutMs, Nat.div_eq_of_lt short]
  exact Nat.zero_le _

theorem perform_short (short : timeout < clock.millisecond) : (clock.perform timeout hop).time = 0 := by
  have small := small_of_short short
  have cut := cut_zero short
  by_cases served : hop.Served clock timeout
  · rw [perform_served served]
    cases hop with
    | silent => rfl
    | failed after => exact Nat.le_zero.mp (cut ▸ served.2)
    | opened headers body ending =>
      have h := clock.ticks
      have spare := served.2.2.2
      omega
  · rcases perform_unserved small served with ⟨same, _⟩ | ⟨headers, body, ending, rfl, within, _⟩
    · rw [same, cut]
    · have here : headers = 0 := by omega
      rw [perform_opened small within, iterBody_spent (by omega), here]
      rfl

end

section

variable {hop : Hop} {body : List ℕ} {ending : Ending} {now : ℕ}

theorem readBody_prompt (ends : ending ≠ .never) (prompt : now + body.sum = 0 ∨ now + body.sum < timeout) :
    readBody timeout now body ending = ⟨ending.verdict, now + body.sum⟩ := by
  induction body generalizing now with
  | nil => cases ending <;> first | rfl | exact absurd rfl ends
  | cons gap rest ih =>
    rw [List.sum_cons, ← Nat.add_assoc] at prompt ⊢
    have soon : inTime timeout now gap := by
      unfold inTime
      omega
    rw [readBody, if_pos soon, ih prompt]

theorem readBody_late (here : now = 0 ∨ now < timeout)
    (late : ¬(ending ≠ .never ∧ (now + body.sum = 0 ∨ now + body.sum < timeout))) :
    readBody timeout now body ending = ⟨.timedOut, timeout⟩ := by
  induction body generalizing now with
  | nil =>
    have never : ending = .never := by
      by_contra ends
      exact late ⟨ends, here⟩
    rw [never]
    rfl
  | cons gap rest ih =>
    rw [readBody]
    split
    · rename_i soon
      apply ih
      · unfold inTime at soon
        omega
      · rwa [List.sum_cons, ← Nat.add_assoc] at late
    · rfl

theorem performAsync_prompt (prompt : hop.Prompt timeout) : performAsync timeout hop = ⟨hop.verdict, hop.time⟩ := by
  obtain ⟨ends, soon⟩ := prompt
  cases hop with
  | silent => exact absurd rfl ends
  | failed after =>
    have here : inTime timeout 0 after := by simpa [inTime, Hop.time] using soon
    exact if_pos here
  | opened headers body ending =>
    have goes : ending ≠ .never := by
      rintro rfl
      exact ends rfl
    have soon : headers + body.sum = 0 ∨ headers + body.sum < timeout := soon
    have here : inTime timeout 0 headers := by
      unfold inTime
      omega
    rw [performAsync, if_pos here, readBody_prompt goes soon]
    rfl

theorem performAsync_late (late : ¬hop.Prompt timeout) : performAsync timeout hop = ⟨.timedOut, timeout⟩ := by
  cases hop with
  | silent => rfl
  | failed after =>
    apply if_neg
    intro soon
    rw [inTime, Nat.zero_add] at soon
    exact late ⟨Verdict.noConfusion, soon⟩
  | opened headers body ending =>
    rw [performAsync]
    split
    · rename_i soon
      rw [inTime, Nat.zero_add] at soon
      apply readBody_late soon
      rintro ⟨goes, prompt⟩
      refine late ⟨fun never => goes ?_, prompt⟩
      cases ending <;> first | rfl | cases never
    · rfl

end

end

def Verdict.Answers (verdict : Verdict) : Prop := verdict = .returned ∨ verdict = .raised

theorem Verdict.Answers.ne_timedOut {verdict : Verdict} (answers : verdict.Answers) : verdict ≠ .timedOut := by
  rintro rfl
  rcases answers with same | same <;> cases same

theorem Verdict.Answers.ne_overflowed {verdict : Verdict} (answers : verdict.Answers) : verdict ≠ .overflowed := by
  rintro rfl
  rcases answers with same | same <;> cases same

/-- `ok` says which hops a session has time for; at any other it raises `gaveUp`. -/
structure Judges (perform : Hop → Waited) (ok : Hop → Prop) (gaveUp : Verdict) : Prop where
  raises : ¬gaveUp.Answers
  ends : ∀ hop, ok hop → hop.verdict.Answers
  served : ∀ hop, ok hop → perform hop = ⟨hop.verdict, hop.time⟩
  late : ∀ hop, ¬ok hop → (perform hop).verdict = gaveUp

theorem Hop.answers {hop : Hop} (ends : hop.verdict ≠ .timedOut) : hop.verdict.Answers := by
  cases hop with
  | silent => exact absurd rfl ends
  | failed after => exact .inr rfl
  | opened headers body ending =>
    cases ending with
    | never => exact absurd rfl ends
    | complete => exact .inl rfl
    | failed => exact .inr rfl

theorem blocking_judges (clock : Clock) (timeout : ℕ) :
    Judges (clock.perform timeout) (Hop.Served clock timeout) (clock.gaveUp timeout) where
  raises := by
    rw [Clock.gaveUp]
    split <;> simp [Verdict.Answers]
  ends hop served := by
    obtain ⟨_, inCut⟩ := served
    cases hop with
    | silent => exact inCut.elim
    | failed after => exact .inr rfl
    | opened headers body ending =>
      refine Hop.answers fun gone => inCut.1 ?_
      cases ending <;> first | rfl | cases gone
  served _ := perform_served
  late _ := perform_late

theorem async_judges (timeout : ℕ) : Judges (performAsync timeout) (Hop.Prompt timeout) .timedOut where
  raises := by simp [Verdict.Answers]
  ends _ prompt := Hop.answers prompt.1
  served _ := performAsync_prompt
  late hop late := by rw [performAsync_late late]

theorem total_cons (hop : Hop) (rest : List Hop) : total (hop :: rest) = hop.time + total rest := by
  simp only [total, List.map_cons, List.sum_cons]

theorem total_eq_zero {hops : List Hop} : total hops = 0 ↔ ∀ hop ∈ hops, hop.time = 0 := by
  induction hops with
  | nil => exact iff_of_true rfl (List.forall_mem_nil _)
  | cons hop rest ih => rw [total_cons, Nat.add_eq_zero_iff, ih, List.forall_mem_cons]

/-- Either there is time for every hop a walk reaches, or it raises `Timeout` at the first it has none for. -/
theorem reached_cases (ok : Hop → Prop) (hops : List Hop) :
    (∀ hop ∈ reached hops, ok hop) ∨
      ∃ before hop after, hops = before ++ hop :: after ∧ (∀ b ∈ before, ok b ∧ b.verdict = .returned) ∧ ¬ok hop := by
  induction hops with
  | nil => exact .inl (List.forall_mem_nil _)
  | cons hop rest ih =>
    by_cases fits : ok hop
    · rw [reached]
      by_cases returns : hop.verdict = .returned
      · rw [if_pos returns]
        rcases ih with all | ⟨before, last, after, rfl, early, late⟩
        · exact .inl (List.forall_mem_cons.mpr ⟨fits, all⟩)
        · exact .inr ⟨hop :: before, last, after, rfl, List.forall_mem_cons.mpr ⟨⟨fits, returns⟩, early⟩, late⟩
      · rw [if_neg returns]
        exact .inl (List.forall_mem_singleton.mpr fits)
    · exact .inr ⟨[], hop, rest, rfl, List.forall_mem_nil _, fits⟩

namespace Judges

variable {perform : Hop → Waited} {ok : Hop → Prop} {gaveUp : Verdict}

theorem walk_served (judges : Judges perform ok gaveUp) {hops : List Hop} (all : ∀ hop ∈ reached hops, ok hop) :
    (walk perform hops).verdict.Answers ∧ (walk perform hops).time = total (reached hops) := by
  induction hops with
  | nil => exact ⟨.inl rfl, rfl⟩
  | cons hop rest ih =>
    rw [reached] at all ⊢
    by_cases returns : hop.verdict = .returned
    · rw [if_pos returns] at all ⊢
      obtain ⟨first, others⟩ := List.forall_mem_cons.mp all
      obtain ⟨goes, time⟩ := ih others
      have here := judges.served hop first
      simp only [walk, here, returns, if_true, Waited.later_verdict, Waited.later_time, total_cons, time]
      exact ⟨goes, trivial⟩
    · rw [if_neg returns] at all ⊢
      have first := List.forall_mem_singleton.mp all
      have here := judges.served hop first
      simp only [walk, here, returns, if_false, total_cons]
      exact ⟨judges.ends hop first, rfl⟩

theorem walk_append (judges : Judges perform ok gaveUp) {before rest : List Hop}
    (all : ∀ b ∈ before, ok b ∧ b.verdict = .returned) :
    walk perform (before ++ rest) = (walk perform rest).later (total before) := by
  induction before with
  | nil => exact (Waited.later_zero _).symm
  | cons hop front ih =>
    obtain ⟨⟨fits, returns⟩, others⟩ := List.forall_mem_cons.mp all
    simp only [List.cons_append, walk, judges.served hop fits, returns, if_true, ih others, Waited.later_later, total_cons]

theorem walk_late (judges : Judges perform ok gaveUp) {hop : Hop} (after : List Hop) (late : ¬ok hop) :
    walk perform (hop :: after) = perform hop := by
  have gone : (perform hop).verdict ≠ .returned := by
    rw [judges.late hop late]
    exact fun same => judges.raises (.inl same)
  rw [walk, if_neg gone]

theorem gaveUp_iff (judges : Judges perform ok gaveUp) (hops : List Hop) :
    (walk perform hops).verdict = gaveUp ↔
      ∃ before hop after, hops = before ++ hop :: after ∧ (∀ b ∈ before, ok b ∧ b.verdict = .returned) ∧ ¬ok hop := by
  constructor
  · intro gone
    exact (reached_cases ok hops).resolve_left fun all => judges.raises (gone ▸ (judges.walk_served all).1)
  · rintro ⟨before, hop, after, rfl, early, late⟩
    rw [judges.walk_append early, judges.walk_late after late]
    exact judges.late hop late

end Judges

section

variable {clock : Clock} {timeout : ℕ}

theorem request_gone (small : clock.timeoutMs timeout ≤ INT_MAX) {hops : List Hop} :
    (clock.request timeout hops).verdict = .timedOut ↔
      ∃ before hop after, hops = before ++ hop :: after ∧
        (∀ b ∈ before, b.Served clock timeout ∧ b.verdict = .returned) ∧ ¬hop.Served clock timeout := by
  rw [← gaveUp_small small]
  exact (blocking_judges clock timeout).gaveUp_iff hops

theorem request_pos (small : clock.timeoutMs timeout ≤ INT_MAX) (enough : clock.millisecond ≤ timeout) {hops : List Hop}
    (gone : (clock.request timeout hops).verdict = .timedOut) : 0 < (clock.request timeout hops).time := by
  have judges := blocking_judges clock timeout
  obtain ⟨before, hop, after, rfl, early, late⟩ := (request_gone small).mp gone
  have spent := perform_pos small enough late
  rw [Clock.request, judges.walk_append early, judges.walk_late after late, Waited.later_time]
  omega

theorem request_short (short : timeout < clock.millisecond) (hops : List Hop) : (clock.request timeout hops).time = 0 := by
  induction hops with
  | nil => rfl
  | cons hop rest ih =>
    have here : (clock.perform timeout hop).time = 0 := perform_short short
    rw [Clock.request] at ih ⊢
    rw [walk]
    split
    · rw [Waited.later_time, here, ih]
    · exact here

theorem unserved_short (short : timeout < clock.millisecond) {hop : Hop} (returns : hop.verdict = .returned) :
    ¬hop.Served clock timeout := by
  have cut := cut_zero short
  have positive := clock.ticks
  cases hop with
  | silent => cases returns
  | failed after => cases returns
  | opened headers body ending =>
    intro served
    have spare := served.2.2.2
    omega

theorem served_instant (enough : clock.millisecond ≤ timeout) {hop : Hop} (returns : hop.verdict = .returned)
    (instant : hop.time = 0) : hop.Served clock timeout := by
  have cut := le_cut enough
  cases hop with
  | silent => cases returns
  | failed after => cases returns
  | opened headers body ending =>
    have zero : headers = 0 ∧ body.sum = 0 := Nat.add_eq_zero_iff.mp instant
    refine ⟨.inr instant, ?_, by omega, by omega⟩
    rintro rfl
    cases returns

section

variable {before after : List Hop} {hop : Hop} (instant : ∀ b ∈ before, b.verdict = .returned ∧ b.time = 0)

include instant

theorem total_instant : total before = 0 := total_eq_zero.mpr fun b member => (instant b member).2

theorem request_instant (enough : clock.millisecond ≤ timeout) :
    clock.request timeout (before ++ hop :: after) = clock.request timeout (hop :: after) := by
  have early : ∀ b ∈ before, b.Served clock timeout ∧ b.verdict = .returned := fun b member =>
    ⟨served_instant enough (instant b member).1 (instant b member).2, (instant b member).1⟩
  rw [Clock.request, (blocking_judges clock timeout).walk_append early, total_instant instant, Waited.later_zero]
  rfl

theorem requestAsync_instant :
    requestAsync timeout (before ++ hop :: after) = requestAsync timeout (hop :: after) := by
  have early : ∀ b ∈ before, b.Prompt timeout ∧ b.verdict = .returned := by
    intro b member
    obtain ⟨returns, none⟩ := instant b member
    refine ⟨⟨?_, .inl none⟩, returns⟩
    rw [returns]
    exact Verdict.noConfusion
  rw [requestAsync, (async_judges timeout).walk_append early, total_instant instant, Waited.later_zero]
  rfl

theorem gone_of_lost (after : List Hop) (lost : hop.Lost clock timeout) :
    (clock.request timeout (before ++ hop :: after)).verdict = .timedOut ∧
      (clock.request timeout (before ++ hop :: after)).time ≤ timeout := by
  have judges := blocking_judges clock timeout
  have small := lost.1
  obtain ⟨unserved, soon⟩ := (lost_iff small).mp lost
  have givesUp : ∀ {b : Hop}, ¬b.Served clock timeout → (clock.perform timeout b).verdict = .timedOut := fun late =>
    (perform_late late).trans (gaveUp_small small)
  rcases Nat.lt_or_ge timeout clock.millisecond with short | enough
  · refine ⟨?_, (request_short short _).trans_le (Nat.zero_le _)⟩
    cases before with
    | nil =>
      rw [List.nil_append, Clock.request, judges.walk_late after unserved]
      exact givesUp unserved
    | cons b front =>
      have first := unserved_short short (instant b List.mem_cons_self).1
      rw [List.cons_append, Clock.request, judges.walk_late _ first]
      exact givesUp first
  · rw [request_instant instant enough, Clock.request, judges.walk_late after unserved]
    exact ⟨givesUp unserved, soon⟩

/-- Where the asynchronous deadline runs out with nothing waited for before, the blocking
    session can only give up in time on the same hop. -/
theorem lost_of_gone (small : clock.timeoutMs timeout ≤ INT_MAX) (late : ¬hop.Prompt timeout)
    (gone : (clock.request timeout (before ++ hop :: after)).verdict = .timedOut)
    (within : (clock.request timeout (before ++ hop :: after)).time ≤ timeout) : hop.Lost clock timeout := by
  have judges := blocking_judges clock timeout
  rw [lost_iff small]
  rcases Nat.lt_or_ge timeout clock.millisecond with short | enough
  · refine ⟨fun served => late ⟨(judges.ends hop served).ne_timedOut, .inl ?_⟩, ?_⟩
    · have spent : (clock.perform timeout hop).time = 0 := perform_short short
      rwa [perform_served served] at spent
    · rw [perform_short short]
      exact Nat.zero_le _
  · rw [request_instant instant enough] at gone within
    by_cases served : hop.Served clock timeout
    · have spends : timeout ≤ hop.time := by
        by_contra soon
        exact late ⟨(judges.ends hop served).ne_timedOut, .inr (Nat.lt_of_not_le soon)⟩
      have here := judges.served hop served
      by_cases returns : hop.verdict = .returned
      · have goesOn : clock.request timeout (hop :: after) = (clock.request timeout after).later hop.time := by
          simp only [Clock.request, walk, here, returns, if_true]
        rw [goesOn] at gone within
        have more := request_pos small enough gone
        rw [Waited.later_time] at within
        omega
      · have ends : clock.request timeout (hop :: after) = ⟨hop.verdict, hop.time⟩ := by
          simp only [Clock.request, walk, here, returns, if_false]
        rw [ends] at gone
        exact absurd gone (judges.ends hop served).ne_timedOut
    · rw [Clock.request, judges.walk_late after served] at within
      exact ⟨served, within⟩

end

theorem prompt_of_long (long : ¬clock.timeoutMs timeout ≤ INT_MAX) {hop : Hop} (served : hop.Served clock timeout) :
    hop.Prompt timeout :=
  ⟨((blocking_judges clock timeout).ends hop served).ne_timedOut, .inl (served.1.resolve_left long)⟩

/-- The budgets add up exactly when every hop is afforded, or the first hop that takes time is
    given up by both. -/
theorem budgeted_iff (clock : Clock) (timeout : ℕ) (hops : List Hop) :
    Budgeted clock timeout hops ↔ Affordable clock timeout hops := by
  have blocking := blocking_judges clock timeout
  have async := async_judges timeout
  constructor
  · rintro ⟨gives, within, withinAsync, agree⟩
    by_cases small : clock.timeoutMs timeout ≤ INT_MAX
    · rcases reached_cases (Hop.Prompt timeout) hops with all | ⟨before, hop, after, rfl, early, late⟩
      · obtain ⟨goes, time⟩ := async.walk_served all
        have served : ∀ hop ∈ reached hops, hop.Served clock timeout := by
          apply (reached_cases (Hop.Served clock timeout) hops).resolve_right
          intro gone
          exact goes.ne_timedOut (agree.mp ((request_gone small).mpr gone))
        exact .inl ⟨fun hop member => ⟨served hop member, all hop member⟩, time.ge.trans withinAsync⟩
      · have goneAsync : requestAsync timeout (before ++ hop :: after) = ⟨.timedOut, total before + timeout⟩ := by
          rw [requestAsync, async.walk_append early, async.walk_late after late, performAsync_late late]
          rfl
        have none : total before = 0 := by
          rw [goneAsync] at withinAsync
          exact Nat.le_zero.mp (Nat.le_of_add_le_add_right (withinAsync.trans (Nat.zero_add _).ge))
        have gone := agree.mpr (congrArg Waited.verdict goneAsync)
        have instant : ∀ b ∈ before, b.verdict = .returned ∧ b.time = 0 := fun b member =>
          ⟨(early b member).2, total_eq_zero.mp none b member⟩
        exact .inr ⟨before, hop, after, rfl, instant, late, lost_of_gone instant small late gone within⟩
    · have served : ∀ hop ∈ reached hops, hop.Served clock timeout := by
        apply (reached_cases (Hop.Served clock timeout) hops).resolve_right
        intro gone
        exact gives (((blocking.gaveUp_iff hops).mpr gone).trans (if_neg small))
      have time := (blocking.walk_served served).2
      exact .inl ⟨fun hop member => ⟨served hop member, prompt_of_long small (served hop member)⟩, time.ge.trans within⟩
  · rintro (⟨all, fits⟩ | ⟨before, hop, after, rfl, instant, late, lost⟩)
    · obtain ⟨goes, time⟩ := blocking.walk_served fun hop member => (all hop member).1
      obtain ⟨goesAsync, timeAsync⟩ := async.walk_served fun hop member => (all hop member).2
      exact ⟨goes.ne_overflowed, time.trans_le fits, timeAsync.trans_le fits,
        iff_of_false goes.ne_timedOut goesAsync.ne_timedOut⟩
    · have goneAsync : requestAsync timeout (before ++ hop :: after) = ⟨.timedOut, timeout⟩ := by
        rw [requestAsync_instant instant, requestAsync, async.walk_late after late, performAsync_late late]
      obtain ⟨gone, within⟩ := gone_of_lost instant after lost
      exact ⟨by rw [gone]; exact Verdict.noConfusion, within, by rw [goneAsync], iff_of_true gone (by rw [goneAsync])⟩

end

/-- Headers after 0.8 s and the body after another 0.8 s, on a timeout of one second: the
    blocking session returns after 1.6 s. -/
theorem budget_spent_twice :
    (⟨1, Nat.one_pos⟩ : Clock).request 1000 [.opened 800 [800] .complete] = ⟨.returned, 1600⟩ ∧
      requestAsync 1000 [.opened 800 [800] .complete] = ⟨.timedOut, 1000⟩ ∧
      ¬Budgeted ⟨1, Nat.one_pos⟩ 1000 [.opened 800 [800] .complete] := by
  refine ⟨by decide, by decide, fun budgeted => ?_⟩
  exact absurd budgeted.blocking (by decide)

end Cronet.Session
