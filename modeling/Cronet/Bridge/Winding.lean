import Cronet.Bridge.Stack
import Mathlib.Data.Fintype.EquivFin

namespace Cronet.Bridge

/-- The steps nobody has to decide on: all but a new claim, the closing of a call and the closing of the engine, and
    readers' calls. -/
def StackLabel.works {τ ι : Type} : StackLabel τ ι → Bool
  | .enter _ _ | .startCall _ _ => true
  | .bridge (.claim _ _) | .bridge (.closeCall _ _) | .bridge (.close _) => false
  | .bridge _ => true
  | .native (.call _ label) => label.works
  | .native _ => true

namespace Stack

variable {τ ι : Type} [DecidableEq τ] [DecidableEq ι] {s u : Stack τ ι} {t : τ} {i : ι}

/-- Every thread is out of the library, or waits in `close` for calls that their owners keep open. -/
def Resting (s : Stack τ ι) : Prop := ∀ t, s.bridge.acts t = .idle ∨ (s.bridge.acts t = .waiting ∧ s.bridge.opened ≠ ∅)

theorem bridge_enabled {label : Label τ} {bridge : Engine τ} (returns : s.returns label = true)
    (moved : s.bridge.step label = some bridge) (called : (s.called label).isSome = true) :
    ∃ u, s.step (.bridge label) = some u := by
  rcases Option.isSome_iff_exists.mp called with ⟨native, called⟩
  exact ⟨_, by simp only [Stack.step, returns, if_true, moved, called]; rfl⟩

omit [DecidableEq τ] in
theorem call_enabled {label : Native.Label} {c : Native.Call} (allowed : s.native.mayStep i label = true)
    (moved : (s.native.calls i).step label = some c) : ∃ native, s.native.step (.call i label) = some native :=
  ⟨_, by simp only [Native.Engine.step, allowed, if_true, moved]; rfl⟩

theorem startCall_enabled {label : Native.Label} {c : Native.Call} (inside : s.inside t = some i)
    (starts : startsCall label = true) (allowed : s.native.mayStep i label = true)
    (moved : (s.native.calls i).step label = some c) : ∃ u, s.step (.startCall t label) = some u := by
  rcases call_enabled allowed moved with ⟨native, moved⟩
  exact ⟨_, by simp only [Stack.step, inside, starts, if_true, moved]; rfl⟩

variable [Fintype τ]

omit [DecidableEq τ] [DecidableEq ι] in
theorem Safe.address (safe : Safe s) : ∃ call, s.bridge.heap call = none := by
  rcases Infinite.exists_notMem_finset (s.bridge.opened ∪ Finset.univ.biUnion fun t => (s.bridge.acts t).call?.toFinset) with
    ⟨call, outside⟩
  apply Exists.intro call
  by_contra allocated
  apply outside
  rcases (safe.close.own call).covered allocated with ⟨holder, held⟩
  cases holder with
  | none => exact Finset.mem_union_left _ held
  | some t =>
    apply Finset.mem_union_right
    exact Finset.mem_biUnion.mpr ⟨t, Finset.mem_univ t, by simpa [Engine.holds] using held⟩

omit [DecidableEq τ] [DecidableEq ι] in
theorem Safe.unlocked (safe : Safe s) (claims : (s.bridge.acts t).claims = true) : s.native.destroyer = .idle := by
  by_contra destroying
  exact safe.close.not_ending claims (.inr (safe.linked.destroyed.mp destroying))

theorem Safe.starting (safe : Safe s) {handle : Nat} (starting : s.bridge.acts t = .starting handle) :
    ∃ label u, label.works = true ∧ s.step label = some u := by
  have idle := safe.unlocked (t := t) (by rw [starting]; rfl)
  have shut : s.native.isShuttingDown = false := by
    by_contra shutting
    exact safe.linked.shutting (by simpa using shutting) idle
  have entered := safe.linked.entered t
  rw [starting] at entered
  rcases Option.isSome_iff_exists.mp entered.symm with ⟨i, inside⟩
  have within : ∀ label c, startsCall label = true → s.native.mayStep i label = true →
      (s.native.calls i).step label = some c → ∃ label u, label.works = true ∧ s.step label = some u := by
    intro label c starts allowed moved
    rcases startCall_enabled inside starts allowed moved with ⟨u, stepped⟩
    exact ⟨.startCall t label, u, rfl, stepped⟩
  cases starter : (s.native.calls i).starter with
  | begun =>
    have allowed : s.native.mayStep i (.registerCall true) = true := by
      simp [Native.Engine.mayStep, Native.Engine.locked, idle, shut]
    exact within (.registerCall true) _ rfl allowed (if_pos starter)
  | registered => exact within .construct _ rfl rfl (if_pos starter)
  | constructed => exact within .attachRequest _ rfl rfl (if_pos starter)
  | attached => exact within .start _ rfl rfl (if_pos starter)
  | refused =>
    have returns : s.returns (.started t none) = true := by simp [Stack.returns, inside, starter]
    have moved : s.bridge.step (.started t none) = some (s.bridge.goto t .releasing) := by simp [Engine.step, starting]
    rcases bridge_enabled returns moved rfl with ⟨u, stepped⟩
    exact ⟨_, u, rfl, stepped⟩
  | returned =>
    rcases safe.address with ⟨call, fresh⟩
    have returns : s.returns (.started t (some call)) = true := by simp [Stack.returns, inside, starter]
    have moved : ∃ bridge, s.bridge.step (.started t (some call)) = some bridge := by simp [Engine.step, starting, fresh]
    rcases moved with ⟨bridge, moved⟩
    rcases bridge_enabled returns moved rfl with ⟨u, stepped⟩
    exact ⟨_, u, rfl, stepped⟩

theorem Safe.freeing (safe : Safe s) {call : Nat} (freeing : s.bridge.acts t = .freeing call) :
    ∃ label u, label.works = true ∧ s.step label = some u := by
  have idle := safe.unlocked (t := t) (by rw [freeing]; rfl)
  rcases (safe.close.own call).allocated (some t) (congrArg Activity.call? freeing) with ⟨c, allocated, flag⟩
  rcases safe.linked.stands call (fun gone => absurd (gone.symm.trans allocated) nofun) with ⟨i, here, _, returned, _⟩
  by_cases released : (s.native.calls i).shared.released = true
  · have returns : s.returns (.freed t) = true := by simp [Stack.returns, freeing, here, released]
    have moved : ∃ bridge, s.bridge.step (.freed t) = some bridge := by simp [Engine.step, freeing]
    rcases moved with ⟨bridge, moved⟩
    rcases bridge_enabled returns moved rfl with ⟨u, stepped⟩
    exact ⟨_, u, rfl, stepped⟩
  · have requested := safe.linked.requested call c i allocated (.inr (flag.mpr ⟨t, rfl, freeing⟩)) here
    have leaving : (s.native.calls i).Leaving := ⟨returned, requested⟩
    rcases leaving.busy (safe.sound i).release (by simpa using released) with ⟨label, c, works, moved⟩
    have beside : startsCall label = false := by cases label <;> simp_all [startsCall, Native.Label.works]
    have allowed : s.native.mayStep i label = true := by
      cases label <;> simp_all [Native.Engine.mayStep, Native.Engine.locked, Native.Label.works]
    rcases call_enabled allowed moved with ⟨native, moved⟩
    exact ⟨.native (.call i label), _, works, by simp only [Stack.step, beside, moved]; rfl⟩

theorem Safe.destroying (safe : Safe s) (destroying : s.bridge.acts t = .destroying) :
    ∃ label u, label.works = true ∧ s.step label = some u := by
  have begun := safe.linked.destroyed.mpr (safe.linked.destroying t destroying)
  have drained := safe.drained begun
  cases destroyer : s.native.destroyer with
  | idle => exact absurd destroyer begun
  | sweeping rest =>
    have none_left : rest = ∅ := Finset.subset_empty.mp (drained.2.2 ▸ safe.live.sweeping rest destroyer)
    exact ⟨.native .wait, _, rfl, by simp only [Stack.step, Native.Engine.step, destroyer, none_left, if_true]; rfl⟩
  | waiting => exact ⟨.native .wake, _, rfl, by simp [Stack.step, Native.Engine.step, destroyer, drained.2.2]; rfl⟩
  | deleting =>
    exact ⟨.native .deleteContext, _, rfl, by simp only [Stack.step, Native.Engine.step, destroyer, if_true]; rfl⟩
  | deleted =>
    have returns : s.returns (.destroyed t) = true := by simp [Stack.returns, destroyer]
    have moved : s.bridge.step (.destroyed t) = some (s.bridge.goto t .idle) := by simp [Engine.step, destroying]
    rcases bridge_enabled returns moved rfl with ⟨u, stepped⟩
    exact ⟨_, u, rfl, stepped⟩

theorem Safe.busy [Infinite ι] (safe : Safe s) (busy : s.bridge.acts t ≠ .idle) (awake : s.bridge.acts t ≠ .waiting) :
    ∃ label u, label.works = true ∧ s.step label = some u := by
  have bridged : ∀ label, s.returns label = true → (∃ bridge, s.bridge.step label = some bridge) →
      (s.called label).isSome = true → (StackLabel.bridge label : StackLabel τ ι).works = true →
      ∃ label u, label.works = true ∧ s.step label = some u := by
    intro label returns moved called works
    rcases moved with ⟨bridge, moved⟩
    rcases bridge_enabled returns moved called with ⟨u, stepped⟩
    exact ⟨.bridge label, u, works, stepped⟩
  cases act : s.bridge.acts t with
  | idle => exact absurd act busy
  | waiting => exact absurd act awake
  | claimed op handle =>
    cases op with
    | start =>
      rcases Infinite.exists_notMem_finset s.used with ⟨i, fresh⟩
      exact ⟨.enter t i, _, rfl, by simp only [Stack.step, act, if_neg fresh, Engine.step]; rfl⟩
    | startNetLog => exact bridged (.enter t) (by simp [Stack.returns, act]) (by simp [Engine.step, act]) rfl rfl
    | stopNetLog => exact bridged (.enter t) (by simp [Stack.returns, act]) (by simp [Engine.step, act]) rfl rfl
  | starting handle => exact safe.starting act
  | logging handle => exact bridged (.logged t) rfl (by simp [Engine.step, act]) rfl rfl
  | registering call => exact bridged (.register t) rfl (by simp [Engine.step, act]) rfl rfl
  | discarding call => exact bridged (.discard t) rfl (by simp [Engine.step, act]) rfl rfl
  | discarded call => exact bridged (.free t) rfl (by simp [Engine.step, act]) rfl rfl
  | freeing call => exact safe.freeing act
  | releasing => exact bridged (.release t) rfl (by simp [Engine.step, act]) rfl rfl
  | finalizing =>
    have undestroyed : s.native.destroyer = .idle := by
      by_contra begun
      have gone := safe.close.finalizer.mpr (safe.linked.destroyed.mp begun)
      exact safe.close.not_finalized (t := t) (congrArg Activity.closes act) gone
    have held := safe.close.not_finalized (t := t) (congrArg Activity.closes act)
    rcases Option.ne_none_iff_exists'.mp held with ⟨handle, held⟩
    exact bridged (.finalize t) rfl (by simp [Engine.step, act, held])
      (by simp [Stack.called, Engine.passes, act, held, Native.Engine.step, undestroyed]) rfl
  | destroying => exact safe.destroying act

theorem Safe.wakes [Infinite ι] (safe : Safe s) (waiting : s.bridge.acts t = .waiting) (closed : s.bridge.opened = ∅) :
    ∃ label u, label.works = true ∧ s.step label = some u := by
  by_cases drained : s.bridge.callsInFlight = 0
  · have moved : s.bridge.step (.wake t) = some (s.bridge.goto t .finalizing) := by simp [Engine.step, waiting, drained]
    rcases bridge_enabled rfl moved rfl with ⟨u, stepped⟩
    exact ⟨_, u, rfl, stepped⟩
  · have claimed : ∃ t, (s.bridge.acts t).claims = true := by
      by_contra unclaimed
      push Not at unclaimed
      have count := safe.close.count
      have none_left : tally Activity.claims s.bridge.acts = 0 := tally_eq_zero.mpr (by simpa using unclaimed)
      simp [Engine.holders, none_left, closed] at count
      exact drained count
    rcases claimed with ⟨other, claims⟩
    apply safe.busy (t := other)
    · intro idle
      simp [idle, Activity.claims] at claims
    · intro asleep
      simp [asleep, Activity.claims] at claims

theorem Safe.progress [Infinite ι] (safe : Safe s) : s.Resting ∨ ∃ label u, label.works = true ∧ s.step label = some u := by
  by_cases resting : s.Resting
  · exact .inl resting
  · apply Or.inr
    unfold Resting at resting
    push Not at resting
    rcases resting with ⟨t, busy, blocked⟩
    by_cases waiting : s.bridge.acts t = .waiting
    · exact safe.wakes waiting (blocked waiting)
    · exact safe.busy busy waiting

/-- Nothing in the stack of engines waits for itself: as long as a thread is in the library, some step that nobody has to
    decide on can be taken, but for a `close` that waits for calls still open. -/
theorem stack_progress [Infinite ι] {handle : Nat} {url : ι → String} {maxRedirects : ι → Int}
    {labels : List (StackLabel τ ι)} (ran : machine.run (initial τ handle url maxRedirects) labels = some s) :
    s.Resting ∨ ∃ label u, label.works = true ∧ s.step label = some u :=
  (safe_of_run ran).progress

theorem stack_progress_closing :
    ∃ labels s, machine.run (initial Bool 7 (fun _ : Nat => "http://a/") fun _ => 20) labels = some s ∧
      s.bridge.acts true = .waiting ∧ ∃ label u, label.works = true ∧ s.step label = some u := by
  let labels : List (StackLabel Bool Nat) := [.bridge (.claim false .start), .enter false 3, .bridge (.close true)]
  have ran : ∃ s, machine.run (initial Bool 7 (fun _ : Nat => "http://a/") fun _ => 20) labels = some s ∧
      s.bridge.acts true = .waiting ∧ s.bridge.acts false = .starting 7 := ⟨_, rfl, rfl, rfl⟩
  rcases ran with ⟨s, ran, waiting, starting⟩
  refine ⟨labels, s, ran, waiting, (stack_progress ran).resolve_left fun resting => ?_⟩
  rcases resting false with idle | ⟨asleep, _⟩
  · exact absurd (starting.symm.trans idle) nofun
  · exact absurd (starting.symm.trans asleep) nofun

end Stack

/-- In `start`, with a call nobody has cancelled. -/
def Activity.beginning : Activity → Bool
  | .claimed .start _ | .starting _ | .registering _ => true
  | _ => false

/-- With a call in hand that neither `close` nor `cronet_call_free` has cancelled. -/
def Activity.uncancelled : Activity → Bool
  | .discarded _ => true
  | act => act.beginning

def Activity.rank : Activity → Nat
  | .discarding _ => 4
  | .claimed _ _ | .discarded _ => 3
  | .logging _ | .freeing _ | .waiting => 2
  | .releasing | .finalizing | .destroying => 1
  | .idle | .starting _ | .registering _ => 0

def destroyerRank {ι : Type} : Native.Destroyer ι → Nat
  | .idle => 4
  | .sweeping _ => 3
  | .waiting => 2
  | .deleting => 1
  | .deleted => 0

def Over (c : Native.Call) : Prop := c.starter = .refused ∨ c.Leaving

theorem Over.cancel {c : Native.Call} (spent : Over c) (sound : Sound c) : Over c.cancel ∧ c.cancel.rank = c.rank := by
  have same : c.cancel.request = c.request := by
    rcases spent with refused | leaving
    · have detached := sound.posting.unattached (by simp [refused]) (by simp [refused])
      simp [Native.Call.cancel, Native.Call.destroyRequest, Native.CallState.destroyRequest, Native.CallState.mayPost,
        detached, Native.UrlRequest.post]
    · exact Native.Call.destroyRequest_request leaving.requested true
  apply And.intro
  · rcases spent with refused | leaving
    · exact .inl refused
    · exact .inr ⟨leaving.returned, (later_cancel c).requested leaving.requested⟩
  · exact congrArg (fun request : Native.UrlRequest => request.rank + Native.weight c.net) same

theorem not_step_of_unattached {c d : Native.Call} {label : Native.Label} (sound : Sound c) (early : c.starter ≠ .attached)
    (late : c.starter ≠ .returned) (beside : startsCall label = false) (unswept : label ≠ .cancel .engine) :
    c.step label ≠ some d := by
  have fresh := sound.call.teardown.unattached early late
  intro stepped
  cases label with
  | rejectUrl | registerCall | construct | attachRequest | start => cases beside
  | cancel who =>
    cases who with
    | engine => exact unswept rfl
    | handle => simp [Native.Call.step, Native.Call.mayCancel, late] at stepped
  | read | drain => simp [Native.Call.step, late] at stepped
  | resume => simp [Native.Call.step, fresh.2.2.2] at stepped
  | op => simp [Native.Call.step, fresh.2.2.1] at stepped
  | task metrics => simp [Native.Call.step, fresh.2.1, Native.UrlRequest.initial, Native.UrlRequest.runTask] at stepped
  | callback cb => cases cb <;> simp [Native.Call.step, fresh.2.1, Native.UrlRequest.initial,
    Native.UrlRequest.accepts] at stepped

theorem Over.step {c d : Native.Call} {label : Native.Label} (spent : Over c) (sound : Sound c)
    (beside : startsCall label = false) (unswept : label ≠ .cancel .engine) (stepped : c.step label = some d) :
    Over d ∧ d.rank ≤ c.rank ∧ (label.works = true → d.rank < c.rank) := by
  rcases spent with refused | leaving
  · exact absurd stepped (not_step_of_unattached sound (by simp [refused]) (by simp [refused]) beside unswept)
  · have moved := leaving.step stepped
    exact ⟨.inr moved.1, moved.2⟩

namespace Stack

variable {τ ι : Type} [DecidableEq τ] [DecidableEq ι] [Fintype τ] {s u : Stack τ ι} {bridge : Engine τ} {t : τ}

/-- An engine that has been closed, with no thread in `start` and every call cancelled. -/
structure Winding (s : Stack τ ι) : Prop where
  safe : Safe s
  closed : s.bridge.handle = none
  left : ∀ t, (s.bridge.acts t).beginning = false
  spent : ∀ i ∈ s.used, Over (s.native.calls i)

def rank (s : Stack τ ι) : Nat :=
  (Finset.univ.sum fun t => (s.bridge.acts t).rank) + 5 * s.bridge.opened.card + destroyerRank s.native.destroyer +
    s.used.sum fun i => (s.native.calls i).rank

omit [DecidableEq τ] in
theorem Winding.over_cancelBehind (winding : Winding s) (calls : Finset Nat) {i : ι} (used : i ∈ s.used) :
    Over ((s.cancelBehind calls).calls i) ∧ ((s.cancelBehind calls).calls i).rank = (s.native.calls i).rank := by
  simp only [cancelBehind]
  split
  · exact (winding.spent i used).cancel (winding.safe.sound i)
  · exact ⟨winding.spent i used, rfl⟩

theorem Winding.account (winding : Winding s) (safe : Safe u) {act : Activity} {calls : Finset Nat} (gain : Nat)
    (acts : u.bridge.acts = Function.update s.bridge.acts t act) (closed : u.bridge.handle = none)
    (left : act.beginning = false) (used : u.used = s.used)
    (native : u.native.calls = (s.cancelBehind calls).calls)
    (paid : act.rank + 5 * u.bridge.opened.card + destroyerRank u.native.destroyer + gain ≤
      (s.bridge.acts t).rank + 5 * s.bridge.opened.card + destroyerRank s.native.destroyer) :
    Winding u ∧ u.rank + gain ≤ s.rank := by
  apply And.intro
  · refine ⟨safe, closed, fun other => ?_, fun i member => ?_⟩
    · rw [acts]
      by_cases mine : other = t
      · rw [mine, Function.update_self, left]
      · rw [Function.update_of_ne mine, winding.left other]
    · rw [native]
      exact (winding.over_cancelBehind calls (used ▸ member)).1
  · have moved := sum_update (Finset.mem_univ t) Activity.rank s.bridge.acts act
    have same : (s.used.sum fun i => (u.native.calls i).rank) = s.used.sum fun i => (s.native.calls i).rank := by
      apply Finset.sum_congr rfl
      intro i member
      rw [native]
      exact (winding.over_cancelBehind calls member).2
    unfold rank
    rw [used, same, acts]
    omega

theorem Winding.pass (winding : Winding s) (safe : Safe u) {act : Activity} {calls : Finset Nat}
    (acts : u.bridge.acts = Function.update s.bridge.acts t act) (closed : u.bridge.handle = none)
    (left : act.beginning = false) (used : u.used = s.used) (native : u.native = s.cancelBehind calls)
    (opened : u.bridge.opened = s.bridge.opened) (falls : act.rank + 1 ≤ (s.bridge.acts t).rank) :
    Winding u ∧ u.rank + 1 ≤ s.rank := by
  apply winding.account safe 1 acts closed left used (congrArg Native.Engine.calls native)
  rw [native, opened]
  show act.rank + 5 * s.bridge.opened.card + destroyerRank s.native.destroyer + 1 ≤ _
  omega

/-- A closed engine lets no thread in again. -/
theorem Winding.across (winding : Winding s) {label : Label τ} {native : Native.Engine ι} (returns : s.returns label = true)
    (stepped : s.bridge.step label = some bridge) (called : s.called label = some native)
    (next : u = { s with bridge, native, inside := s.insideAfter label, behind := s.behindAfter label }) :
    Winding u ∧ u.rank + (StackLabel.bridge label : StackLabel τ ι).works.toNat ≤ s.rank := by
  have safe : Safe u := next ▸ winding.safe.across returns stepped called
  have closed := winding.closed
  cases label with
  | claim t op =>
    simp only [Engine.step, closed, Option.ite_none_right_eq_some] at stepped
    rcases stepped with ⟨idle, stepped⟩
    cases stepped
    cases called
    cases next
    have acts : s.bridge.acts = Function.update s.bridge.acts t (s.bridge.acts t) := (Function.update_eq_self ..).symm
    exact winding.account safe 0 acts closed (winding.left t) rfl rfl (by simp [Stack.cancelBehind])
  | enter t =>
    simp only [Engine.step] at stepped
    split at stepped
    · rename_i handle claimed
      simp [Stack.returns, claimed] at returns
    · rename_i op handle _ claimed
      cases stepped
      cases called
      cases next
      exact winding.pass safe rfl closed rfl rfl rfl rfl (by rw [claimed]; exact Nat.le_refl 3)
    · cases stepped
  | started t call =>
    -- nobody is in `start`
    have starting : (s.bridge.acts t).beginning = true := by
      simp only [Engine.step] at stepped
      split at stepped
      · rename_i handle starting
        rw [starting]
        rfl
      · cases stepped
    exact Bool.noConfusion ((winding.left t).symm.trans starting)
  | register t =>
    have registering : (s.bridge.acts t).beginning = true := by
      simp only [Engine.step] at stepped
      split at stepped
      · rename_i call registering
        rw [registering]
        rfl
      · cases stepped
    exact Bool.noConfusion ((winding.left t).symm.trans registering)
  | logged t =>
    simp only [Engine.step] at stepped
    split at stepped
    · rename_i handle logging
      cases stepped
      cases called
      cases next
      exact winding.pass safe rfl closed rfl rfl rfl rfl (by rw [logging]; exact Nat.le_refl 2)
    · cases stepped
  | closeCall t call =>
    simp only [Engine.step, Option.ite_none_right_eq_some, Option.some.injEq] at stepped
    rcases stepped with ⟨⟨idle, isOpen⟩, rfl⟩
    cases called
    cases next
    have counted := Finset.card_erase_add_one isOpen
    apply winding.account safe 0 rfl closed rfl rfl rfl
    simp only [idle, Activity.rank, Engine.goto, Stack.cancelBehind]
    omega
  | discard t =>
    simp only [Engine.step] at stepped
    split at stepped
    · rename_i call discarding
      cases stepped
      cases called
      cases next
      exact winding.pass safe rfl closed rfl rfl rfl rfl (by rw [discarding]; exact Nat.le_refl 4)
    · cases stepped
  | free t =>
    simp only [Engine.step] at stepped
    split at stepped
    · rename_i call discarded
      cases stepped
      cases called
      cases next
      exact winding.pass safe rfl closed rfl rfl rfl rfl (by rw [discarded]; exact Nat.le_refl 3)
    · cases stepped
  | freed t =>
    simp only [Engine.step] at stepped
    split at stepped
    · rename_i call freeing
      cases stepped
      cases called
      cases next
      exact winding.pass safe rfl closed rfl rfl rfl rfl (by rw [freeing]; exact Nat.le_refl 2)
    · cases stepped
  | release t =>
    simp only [Engine.step, Option.ite_none_right_eq_some, Option.some.injEq] at stepped
    rcases stepped with ⟨releasing, rfl⟩
    cases called
    cases next
    exact winding.pass safe rfl closed rfl rfl rfl rfl (by rw [releasing]; exact Nat.le_refl 1)
  | close t =>
    simp only [Engine.step, closed, Option.ite_none_right_eq_some] at stepped
    rcases stepped with ⟨idle, stepped⟩
    cases stepped
    cases called
    cases next
    have acts : s.bridge.acts = Function.update s.bridge.acts t (s.bridge.acts t) := (Function.update_eq_self ..).symm
    exact winding.account safe 0 acts closed (winding.left t) rfl rfl (by simp [Stack.cancelBehind])
  | wake t =>
    simp only [Engine.step, Option.ite_none_right_eq_some, Option.some.injEq] at stepped
    rcases stepped with ⟨⟨waiting, _⟩, rfl⟩
    cases called
    cases next
    exact winding.pass safe rfl closed rfl rfl rfl rfl (by rw [waiting]; exact Nat.le_refl 2)
  | finalize t =>
    simp only [Engine.step, Option.ite_none_right_eq_some] at stepped
    rcases stepped with ⟨finalizing, stepped⟩
    split at stepped
    · rename_i gone
      exact absurd gone (winding.safe.close.not_finalized (t := t) (congrArg Activity.closes finalizing))
    · rename_i handle held
      cases stepped
      have passes : (s.bridge.passes (.finalize t)).isSome = true := by simp [Engine.passes, finalizing, held]
      simp only [Stack.called, passes, if_true, Native.Engine.step, Option.ite_none_right_eq_some,
        Option.some.injEq] at called
      rcases called with ⟨undestroyed, rfl⟩
      cases next
      have calls : s.native.calls = (s.cancelBehind ∅).calls := by rw [cancelBehind_empty]
      apply winding.account safe 1 rfl closed rfl rfl calls
      simp [finalizing, undestroyed, Activity.rank, Engine.goto, destroyerRank]
  | destroyed t =>
    simp only [Engine.step, Option.ite_none_right_eq_some, Option.some.injEq] at stepped
    rcases stepped with ⟨destroying, rfl⟩
    cases called
    cases next
    exact winding.pass safe rfl closed rfl rfl rfl rfl (by rw [destroying]; exact Nat.le_refl 1)

omit [DecidableEq τ] [DecidableEq ι] in
theorem Winding.outside (winding : Winding s) (t : τ) : s.inside t = none := by
  apply outside_of winding.safe.linked
  have left := winding.left t
  cases act : s.bridge.acts t <;> simp_all [Activity.beginning, Activity.starts]

omit [DecidableEq τ] in
theorem Winding.call (winding : Winding s) {i : ι} {label : Native.Label} {native : Native.Engine ι}
    (safe : Safe { s with native }) (beside : startsCall label = false)
    (stepped : s.native.step (.call i label) = some native) :
    Winding { s with native } ∧ rank { s with native } + label.works.toNat ≤ s.rank := by
  rcases Native.Engine.call_step stepped with ⟨c, allowed, moved, rfl⟩
  have unswept : label ≠ .cancel .engine := by
    intro same
    subst same
    cases allowed
  have used : i ∈ s.used := by
    by_contra fresh
    have begun := winding.safe.linked.unused i fresh
    exact not_step_of_unattached (winding.safe.sound i) (by simp [begun]) (by simp [begun]) beside unswept moved
  have fell := (winding.spent i used).step (winding.safe.sound i) beside unswept moved
  apply And.intro
  · refine ⟨safe, winding.closed, winding.left, fun j member => ?_⟩
    by_cases same : j = i
    · subst same
      simpa using fell.1
    · simpa [Function.update_of_ne same] using winding.spent j member
  · have total := sum_update used Native.Call.rank s.native.calls c
    simp only [rank]
    by_cases works : label.works = true
    · have less := fell.2.2 works
      simp only [works, Bool.toNat_true]
      omega
    · have least := fell.2.1
      simp only [Bool.not_eq_true] at works
      simp only [works, Bool.toNat_false]
      omega

theorem Winding.step (winding : Winding s) {label : StackLabel τ ι} (stepped : s.step label = some u) :
    Winding u ∧ u.rank + label.works.toNat ≤ s.rank := by
  have safe := winding.safe.step stepped
  cases label with
  | enter t i =>
    have left := winding.left t
    simp only [Stack.step] at stepped
    split at stepped
    · rename_i handle claimed
      rw [claimed] at left
      cases left
    · cases stepped
  | startCall t label => simp [Stack.step, winding.outside t] at stepped
  | bridge label =>
    simp only [Stack.step, Option.ite_none_right_eq_some, Option.bind_eq_some_iff, Option.map_eq_some_iff] at stepped
    rcases stepped with ⟨returns, bridge, moved, native, called, next⟩
    exact winding.across returns moved called next.symm
  | native label =>
    cases label with
    | call i label =>
      simp only [Stack.step, Option.ite_none_left_eq_some, Option.map_eq_some_iff] at stepped
      rcases stepped with ⟨beside, native, moved, rfl⟩
      exact winding.call safe (by simpa using beside) moved
    | destroy => cases stepped
    | sweep i =>
      simp only [Stack.step, Option.map_eq_some_iff] at stepped
      rcases stepped with ⟨native, moved, rfl⟩
      rcases Native.Engine.sweep_step moved with ⟨rest, sweeping, swept, rfl⟩
      have drained := winding.safe.drained (by simp [sweeping])
      have member := winding.safe.live.sweeping rest sweeping swept
      simp [drained.2.2] at member
    | wait | wake | deleteContext =>
      simp only [Stack.step, Option.map_eq_some_iff] at stepped
      rcases stepped with ⟨native, moved, rfl⟩
      simp only [Native.Engine.step, Option.ite_none_right_eq_some, Option.some.injEq] at moved
      rcases moved with ⟨was, rfl⟩
      apply And.intro ⟨safe, winding.closed, winding.left, winding.spent⟩
      simp only [rank, was, destroyerRank, StackLabel.works, Bool.toNat_true]
      omega

def windingRank : (machine : Machine (Stack τ ι) (StackLabel τ ι)).Ranking StackLabel.works Winding where
  rank := rank
  kept winding stepped := (winding.step stepped).1
  falls winding stepped work := by
    have paid := (winding.step stepped).2
    rw [work, Bool.toNat_true] at paid
    exact paid
  stays winding stepped := Nat.le_trans (Nat.le_add_right _ _) (winding.step stepped).2

omit [DecidableEq τ] [DecidableEq ι] in
/-- What `close` leaves when no thread holds a call that escaped it. -/
theorem Safe.winding (safe : Safe s) (closed : s.bridge.handle = none)
    (left : ∀ t, (s.bridge.acts t).uncancelled = false) : Winding s := by
  have begun : ∀ t, (s.bridge.acts t).beginning = false := by
    intro t
    have none_held := left t
    cases act : s.bridge.acts t <;> simp_all [Activity.uncancelled, Activity.beginning]
  refine ⟨safe, closed, begun, fun i used => ?_⟩
  rcases safe.linked.settled i used with ⟨t, inside⟩ | ⟨call, allocated, here⟩ | refused | released
  · have entered := safe.linked.entered t
    have outside := begun t
    cases act : s.bridge.acts t <;> simp_all [Activity.beginning, Activity.starts]
  · rcases safe.linked.stands call allocated with ⟨j, same, _, returned, _⟩
    cases here.symm.trans same
    rcases Option.ne_none_iff_exists'.mp allocated with ⟨c, present⟩
    have flag : c.cancelled = true ∨ c.freeing = true := by
      rcases (safe.close.own call).covered allocated with ⟨holder, held⟩
      cases holder with
      | none => exact .inl ((safe.close.own call).cancelled closed ((safe.close.own call).live.mpr (.inl held)) c present)
      | some t =>
        have none_held := left t
        cases act : s.bridge.acts t with
        | discarding mine =>
          simp only [Engine.holds, act, Activity.call?, Option.some.injEq] at held
          subst held
          have live := (safe.close.own mine).live.mpr (.inr ⟨t, act⟩)
          exact .inl ((safe.close.own mine).cancelled closed live c present)
        | freeing mine =>
          simp only [Engine.holds, act, Activity.call?, Option.some.injEq] at held
          subst held
          rcases (safe.close.own mine).allocated (some t) (congrArg Activity.call? act) with ⟨c', same, frees⟩
          cases present.symm.trans same
          exact .inr (frees.mpr ⟨t, rfl, act⟩)
        | _ => simp_all [Engine.holds, Activity.call?, Activity.uncancelled, Activity.beginning]
    exact .inr ⟨returned, safe.linked.requested call c i present flag here⟩
  · exact .inl refused
  · have dead := ((safe.sound i).release.rests released).2.2.1
    have started : (s.native.calls i).request ≠ .initial := by
      intro initial
      simp [initial, Native.UrlRequest.initial] at dead
    exact .inr ⟨(safe.sound i).posting.returned_of_posted (.inl started), (safe.sound i).call.teardown.dead dead⟩

/-- `Engine.close` returns: once the engine is closed and no thread holds a call that escaped its cancelling, the stack
    has at most `rank` steps left, the owners' apart; it is not out of them until every thread is out of the library or
    waits for calls that their owners keep open, and when they keep none the native engine is gone and with it every
    call. -/
theorem close_returns [Infinite ι] {handle : Nat} {url : ι → String} {maxRedirects : ι → Int}
    {labels later : List (StackLabel τ ι)} (ran : machine.run (initial τ handle url maxRedirects) labels = some s)
    (closed : s.bridge.handle = none) (left : ∀ t, (s.bridge.acts t).uncancelled = false)
    (ranOn : machine.run s later = some u) :
    later.countP StackLabel.works ≤ s.rank ∧
    (¬ u.Resting → ∃ label v, label.works = true ∧ u.step label = some v) ∧
    (s.rank ≤ later.countP StackLabel.works → u.Resting) ∧
    (u.Resting → u.bridge.opened = ∅ →
      (∀ t, u.bridge.acts t = .idle) ∧ u.bridge.destroys = 1 ∧ ∀ call, u.bridge.heap call = none) := by
  have winding := (safe_of_run ran).winding closed left
  have inv := windingRank.run winding ranOn
  apply And.intro
  · exact Nat.le_trans (Nat.le_add_right _ _) (windingRank.spent winding ranOn)
  apply And.intro
  · exact fun tired => inv.safe.progress.resolve_left tired
  apply And.intro
  · apply windingRank.done_of_spent Resting _ winding ranOn
    exact fun v winding tired => winding.safe.progress.resolve_left tired
  · intro resting none_open
    have idle : ∀ t, u.bridge.acts t = .idle := fun t => (resting t).resolve_right fun waits => waits.2 none_open
    have destroyed : u.bridge.destroys = 1 := by
      have closers := inv.safe.close.closers
      have quiet : tally Activity.closes u.bridge.acts = 0 := tally_eq_zero.mpr fun t => by rw [idle t]; rfl
      simpa [quiet, inv.closed] using closers
    exact ⟨idle, destroyed, inv.safe.freed (inv.safe.linked.destroyed.mpr (by simp [destroyed]))⟩

theorem close_returns_open :
    ∃ labels later s u, machine.run (initial Bool 7 (fun _ : Nat => "http://a/") fun _ => 20) labels = some s ∧
      s.bridge.opened = {40} ∧ machine.run s later = some u ∧ u.bridge.destroys = 1 := by
  let labels : List (StackLabel Bool Nat) :=
    [.bridge (.claim false .start), .enter false 3, .startCall false (.registerCall true), .startCall false .construct,
      .startCall false .attachRequest, .startCall false .start, .bridge (.started false (some 40)),
      .bridge (.register false), .bridge (.close true)]
  let later : List (StackLabel Bool Nat) :=
    [.bridge (.closeCall false 40), .bridge (.discard false), .bridge (.free false), .native (.call 3 (.task none)),
      .native (.call 3 (.task none))] ++ List.replicate 11 (.native (.call 3 .op)) ++
    [.bridge (.freed false), .bridge (.release false), .bridge (.wake true), .bridge (.finalize true), .native .wait,
      .native .wake, .native .deleteContext, .bridge (.destroyed true)]
  have ran : ∃ s u, machine.run (initial Bool 7 (fun _ : Nat => "http://a/") fun _ => 20) labels = some s ∧
      s.bridge.opened = {40} ∧ s.bridge.handle = none ∧ (∀ t, (s.bridge.acts t).uncancelled = false) ∧
      machine.run s later = some u ∧ (∀ t, u.bridge.acts t = .idle) ∧ u.bridge.opened = ∅ :=
    ⟨_, _, rfl, rfl, rfl, by decide, rfl, by decide, rfl⟩
  rcases ran with ⟨s, u, ran, isOpen, closed, left, ranOn, idle, none_open⟩
  exact ⟨labels, later, s, u, ran, isOpen, ranOn,
    ((close_returns ran closed left ranOn).2.2.2 (fun t => .inl (idle t)) none_open).2.1⟩

end Stack

end Cronet.Bridge
