import Mathlib.Data.Finset.Basic
import Cronet.Native.Teardown

namespace Cronet.Native

namespace Call

/-- `RegisterCall` has let the call in. -/
def accepted (c : Call) : Prop := c.starter ≠ .begun ∧ c.starter ≠ .refused

structure LiveInv (c : Call) : Prop where
  accepted : c.registered = true → c.accepted
  held : c.accepted → c.registered = true ∨ c.request.phase = .dead
  unregistering : NetOp.unregisterCall ∈ c.net → c.request.phase = .dead

theorem liveInv_initial (url : String) (maxRedirects : Int) : LiveInv (initial url maxRedirects) := by
  constructor <;> simp [initial, Call.accepted]

theorem exec_registered {c : Call} {op : NetOp} (kept : op ≠ .unregisterCall) :
    (c.exec op).1.registered = c.registered := by
  cases op with
  | unregisterCall => exact absurd rfl kept
  | claimOutcome code message => simp only [exec]; split <;> rfl
  | publishUnpublished => simp only [exec]; split <;> rfl
  | _ => rfl

theorem runTask_unregisters {r : UrlRequest} {metrics : Option Metrics} {ran : UrlRequest × List NetOp}
    (done : r.runTask metrics = some ran) :
    (NetOp.unregisterCall ∈ ran.2 → ran.1.phase = .dead) ∧ ran.2.head? ≠ some .unregisterCall ∧ r.phase ≠ .dead := by
  unfold UrlRequest.runTask at done
  split at done
  · cases done
  · rename_i alive
    dsimp only at done
    split at done
    · cases done
    · cases done
      simpa using alive
    · cases done
      simpa using alive
    · cases done
      simpa using alive
    · rename_i flag _
      cases done
      cases metrics <;> cases flag <;>
        simpa [RequestObserver.onMetricsCollected, RequestObserver.onCanceled, RequestObserver.onDestroyed] using alive

theorem accepts_alive {r next : UrlRequest} {cb : Callback} (accepted : r.accepts cb = some next) :
    r.phase ≠ .dead := by
  intro dead
  cases cb <;> simp [UrlRequest.accepts, dead] at accepted

theorem perform_registered {c : Call} {ops : List NetOp} (kept : ops.head? ≠ some .unregisterCall) :
    (c.perform ops).registered = c.registered := by
  cases ops with
  | nil => rfl
  | cons op rest => exact exec_registered fun same => kept (by simp [same])

theorem LiveInv.perform {c : Call} {ops : List NetOp} (inv : LiveInv { c with net := ops }) :
    LiveInv (c.perform ops) := by
  cases ops with
  | nil => exact inv
  | cons op rest =>
    have phase : (c.perform (op :: rest)).request.phase = c.request.phase := exec_phase c op
    have kept : op = .unregisterCall ∨ (c.perform (op :: rest)).registered = c.registered := by
      by_cases unregisters : op = .unregisterCall
      · exact .inl unregisters
      · exact .inr (exec_registered unregisters)
    refine ⟨?_, ?_, ?_⟩
    · intro registered
      rcases kept with rfl | same
      · simp [Call.perform, exec] at registered
      · simpa [Call.accepted] using inv.accepted (same ▸ registered)
    · intro accepted
      rw [phase]
      rcases kept with rfl | same
      · exact .inr (inv.unregistering (by simp))
      · rw [same]
        exact inv.held (by simpa [Call.accepted] using accepted)
    · intro member
      rw [phase]
      rcases List.mem_append.mp member with pushed | later
      · exact absurd rfl (not_teardown_of_pushed _ pushed).1
      · exact inv.unregistering (List.mem_cons_of_mem _ later)

theorem LiveInv.step {c d : Call} {label : Label} (inv : LiveInv c) (stepped : c.step label = some d) :
    LiveInv d := by
  cases label with
  | rejectUrl =>
    simp only [Call.step, Option.ite_none_right_eq_some, Option.some.injEq] at stepped
    obtain ⟨begun, rfl⟩ := stepped
    exact ⟨fun registered => absurd begun (inv.accepted registered).1, fun accepted => absurd rfl accepted.2,
      inv.unregistering⟩
  | registerCall accepted =>
    simp only [Call.step, Option.ite_none_right_eq_some, Option.some.injEq] at stepped
    obtain ⟨_, rfl⟩ := stepped
    cases accepted with
    | true => exact ⟨fun _ => ⟨by simp, by simp⟩, fun _ => .inl rfl, inv.unregistering⟩
    | false => exact ⟨by simp, fun accepted => absurd rfl accepted.2, inv.unregistering⟩
  | construct | attachRequest | start =>
    simp only [Call.step, Option.ite_none_right_eq_some, Option.some.injEq] at stepped
    obtain ⟨starter, rfl⟩ := stepped
    exact ⟨fun _ => ⟨by simp, by simp⟩, fun _ => inv.held (by simp [Call.accepted, starter]), inv.unregistering⟩
  | cancel | read | resume | drain =>
    simp only [Call.step, Option.ite_none_right_eq_some, Option.some.injEq] at stepped
    obtain ⟨_, rfl⟩ := stepped
    exact ⟨inv.accepted, inv.held, inv.unregistering⟩
  | op =>
    simp only [Call.step, Option.ite_none_left_eq_some, Option.some.injEq] at stepped
    obtain ⟨_, rfl⟩ := stepped
    exact LiveInv.perform inv
  | task metrics =>
    simp only [Call.step, Option.ite_none_right_eq_some, Option.map_eq_some_iff] at stepped
    obtain ⟨_, ran, done, rfl⟩ := stepped
    obtain ⟨unregisters, _, alive⟩ := runTask_unregisters done
    exact LiveInv.perform ⟨inv.accepted, fun accepted => .inl ((inv.held accepted).resolve_right alive), unregisters⟩
  | callback cb =>
    simp only [Call.step, Option.ite_none_right_eq_some, Option.map_eq_some_iff] at stepped
    obtain ⟨_, next, accepts, rfl⟩ := stepped
    have alive := accepts_alive accepts
    exact LiveInv.perform ⟨inv.accepted, fun accepted => .inl ((inv.held accepted).resolve_right alive),
      fun member => absurd member (not_mem_callbackOps rfl)⟩

end Call

/-- How far the thread in `Engine::Destroy` has got: `sweeping` are the calls its loop has left,
    and it holds `lock_` from there until it sleeps. -/
inductive Destroyer (ι : Type) where
  | idle
  | sweeping (rest : Finset ι)
  | waiting
  | deleting
  | deleted
  deriving DecidableEq

/-- An engine and the calls made on it, one for each `StartCall`. -/
structure Engine (ι : Type) where
  isShuttingDown : Bool
  liveCalls : Finset ι
  destroyer : Destroyer ι
  calls : ι → Call

inductive EngineLabel (ι : Type) where
  | call (i : ι) (label : Label)
  | destroy
  | sweep (i : ι)
  | wait
  | wake
  | deleteContext

namespace Engine

variable {ι : Type}

def initial (url : ι → String) (maxRedirects : ι → Int) : Engine ι where
  isShuttingDown := false
  liveCalls := ∅
  destroyer := .idle
  calls i := .initial (url i) (maxRedirects i)

def locked (s : Engine ι) : Bool :=
  match s.destroyer with
  | .sweeping _ => true
  | _ => false

def unregisters (c : Call) : Bool := c.net.head? = some .unregisterCall

/-- What the engine's lock and shutdown flag let a call do. The sweep's `Cancel` is the
    destroyer's own step. -/
def mayStep (s : Engine ι) (i : ι) : Label → Bool
  | .registerCall accepted => !s.locked && accepted == !s.isShuttingDown
  | .op => !(s.locked && unregisters (s.calls i))
  | .cancel .engine => false
  | _ => true

structure LiveCalls (s : Engine ι) : Prop where
  live : ∀ i, i ∈ s.liveCalls ↔ (s.calls i).registered = true
  alive : ∀ i, (s.calls i).LiveInv
  sweeping : ∀ rest, s.destroyer = .sweeping rest → rest ⊆ s.liveCalls
  drained : s.destroyer = .deleting ∨ s.destroyer = .deleted → s.liveCalls = ∅
  shutting : s.destroyer ≠ .idle → s.isShuttingDown = true

theorem liveCalls_initial (url : ι → String) (maxRedirects : ι → Int) : LiveCalls (initial url maxRedirects) where
  live i := by simp [initial, Call.initial]
  alive i := Call.liveInv_initial (url i) (maxRedirects i)
  sweeping rest same := by simp [initial] at same
  drained done := by simp [initial] at done
  shutting started := absurd rfl started

theorem mayStep_locked {s : Engine ι} {i : ι} {rest : Finset ι} (sweeping : s.destroyer = .sweeping rest)
    (allowed : s.mayStep i .op = true) : unregisters (s.calls i) = false := by
  simpa [mayStep, locked, sweeping] using allowed

theorem mayStep_shutting {s : Engine ι} {i : ι} (shutting : s.isShuttingDown = true) :
    s.mayStep i (.registerCall true) = false := by
  simp [mayStep, shutting]

variable [DecidableEq ι]

def liveAfter (s : Engine ι) (i : ι) : Label → Finset ι
  | .registerCall true => insert i s.liveCalls
  | .op => if unregisters (s.calls i) then s.liveCalls.erase i else s.liveCalls
  | _ => s.liveCalls

def step (s : Engine ι) : EngineLabel ι → Option (Engine ι)
  | .call i label =>
    if s.mayStep i label then
      ((s.calls i).step label).map fun c =>
        { s with calls := Function.update s.calls i c, liveCalls := s.liveAfter i label }
    else none
  | .destroy =>
    if s.destroyer = .idle then some { s with isShuttingDown := true, destroyer := .sweeping s.liveCalls } else none
  | .sweep i =>
    match s.destroyer with
    | .sweeping rest =>
      if i ∈ rest then
        some { s with
          destroyer := .sweeping (rest.erase i)
          calls := Function.update s.calls i (s.calls i).cancel }
      else none
    | _ => none
  | .wait => if s.destroyer = .sweeping ∅ then some { s with destroyer := .waiting } else none
  | .wake => if s.destroyer = .waiting ∧ s.liveCalls = ∅ then some { s with destroyer := .deleting } else none
  | .deleteContext => if s.destroyer = .deleting then some { s with destroyer := .deleted } else none

def machine : Machine (Engine ι) (EngineLabel ι) := ⟨step⟩

theorem registered_step {c d : Call} {label : Label} (inv : c.LiveInv) (stepped : c.step label = some d) :
    d.registered = true ↔
      label = .registerCall true ∨ (c.registered = true ∧ ¬ (label = .op ∧ unregisters c = true)) := by
  cases label with
  | registerCall accepted =>
    simp only [Call.step, Option.ite_none_right_eq_some, Option.some.injEq] at stepped
    obtain ⟨begun, rfl⟩ := stepped
    have fresh : c.registered = false := Bool.eq_false_iff.mpr fun registered => (inv.accepted registered).1 begun
    simp [fresh]
  | rejectUrl | construct | attachRequest | start | cancel | read | resume | drain =>
    simp only [Call.step, Option.ite_none_right_eq_some, Option.some.injEq] at stepped
    obtain ⟨_, rfl⟩ := stepped
    simp [Call.post, Call.cancel, Call.destroyRequest, Call.read]
  | op =>
    simp only [Call.step, Option.ite_none_left_eq_some, Option.some.injEq] at stepped
    obtain ⟨busy, rfl⟩ := stepped
    by_cases leaves : unregisters c = true
    · obtain ⟨rest, net⟩ : ∃ rest, c.net = .unregisterCall :: rest := by
        simpa [unregisters, List.head?_eq_some_iff] using leaves
      simp [net, leaves, Call.perform, Call.exec]
    · rw [Call.perform_registered (by simpa [unregisters] using leaves)]
      simp [leaves]
  | task metrics =>
    simp only [Call.step, Option.ite_none_right_eq_some, Option.map_eq_some_iff] at stepped
    obtain ⟨_, ran, done, rfl⟩ := stepped
    rw [Call.perform_registered (Call.runTask_unregisters done).2.1]
    simp
  | callback cb =>
    simp only [Call.step, Option.ite_none_right_eq_some, Option.map_eq_some_iff] at stepped
    obtain ⟨_, next, _, rfl⟩ := stepped
    have stays : (c.callbackOps cb).2.head? ≠ some .unregisterCall := fun head =>
      Call.not_mem_callbackOps rfl (List.mem_of_head? head)
    rw [Call.receive, Call.perform_registered stays]
    simp

theorem mem_liveAfter {s : Engine ι} {i j : ι} {label : Label} :
    j ∈ s.liveAfter i label ↔
      (j = i ∧ label = .registerCall true) ∨
        (j ∈ s.liveCalls ∧ ¬ (j = i ∧ label = .op ∧ unregisters (s.calls i) = true)) := by
  unfold liveAfter
  split
  · simp
  · split <;> simp_all
    tauto
  · rename_i noRegister noOp
    have left : label ≠ .registerCall true := noRegister
    have kept : label ≠ .op := noOp
    simp [left, kept]

theorem call_step {s t : Engine ι} {i : ι} {label : Label} (stepped : s.step (.call i label) = some t) :
    ∃ c, s.mayStep i label = true ∧ (s.calls i).step label = some c ∧
      t = { s with calls := Function.update s.calls i c, liveCalls := s.liveAfter i label } := by
  simp only [step, Option.ite_none_right_eq_some, Option.map_eq_some_iff] at stepped
  obtain ⟨allowed, c, moved, rfl⟩ := stepped
  exact ⟨c, allowed, moved, rfl⟩

theorem sweep_step {s t : Engine ι} {i : ι} (stepped : s.step (.sweep i) = some t) :
    ∃ rest, s.destroyer = .sweeping rest ∧ i ∈ rest ∧ t = { s with
      destroyer := .sweeping (rest.erase i), calls := Function.update s.calls i (s.calls i).cancel } := by
  simp only [step] at stepped
  split at stepped
  · rename_i rest sweeping
    simp only [Option.ite_none_right_eq_some, Option.some.injEq] at stepped
    obtain ⟨left, rfl⟩ := stepped
    exact ⟨rest, sweeping, left, rfl⟩
  · cases stepped

theorem LiveCalls.call {s : Engine ι} {i : ι} {label : Label} {c : Call} (inv : LiveCalls s)
    (allowed : s.mayStep i label = true) (moved : (s.calls i).step label = some c) :
    LiveCalls { s with calls := Function.update s.calls i c, liveCalls := s.liveAfter i label } := by
  refine ⟨?_, ?_, fun rest sweeping j member => ?_, fun done => ?_, inv.shutting⟩
  · refine (Function.forall_update_iff s.calls fun j d => j ∈ s.liveAfter i label ↔ d.registered = true).mpr ⟨?_, ?_⟩
    · rw [mem_liveAfter, registered_step (inv.alive i) moved, inv.live i]
      simp
    · intro j other
      rw [mem_liveAfter, ← inv.live j]
      simp [other]
  · exact (Function.forall_update_iff s.calls fun _ d => d.LiveInv).mpr
      ⟨(inv.alive i).step moved, fun j _ => inv.alive j⟩
  · refine mem_liveAfter.mpr (.inr ⟨inv.sweeping rest sweeping member, ?_⟩)
    rintro ⟨rfl, rfl, leaves⟩
    exact Bool.noConfusion (leaves.symm.trans (mayStep_locked sweeping allowed))
  · have shutting : s.isShuttingDown = true := inv.shutting fun idle => by
      rcases done with done | done <;> exact absurd (idle.symm.trans done) nofun
    refine Finset.eq_empty_of_forall_notMem fun j member => ?_
    rcases mem_liveAfter.mp member with ⟨rfl, rfl⟩ | ⟨live, _⟩
    · exact Bool.noConfusion (allowed.symm.trans (mayStep_shutting shutting))
    · simp [inv.drained done] at live

theorem LiveCalls.step {s t : Engine ι} {label : EngineLabel ι} (inv : LiveCalls s) (stepped : s.step label = some t) :
    LiveCalls t := by
  cases label with
  | call i label =>
    obtain ⟨c, allowed, moved, rfl⟩ := call_step stepped
    exact inv.call allowed moved
  | sweep i =>
    obtain ⟨rest, sweeping, left, rfl⟩ := sweep_step stepped
    have live := (inv.live i).mp (inv.sweeping rest sweeping left)
    have cancelled : (s.calls i).step (.cancel .engine) = some (s.calls i).cancel := by
      simp [Call.step, Call.mayCancel, live]
    refine ⟨?_, ?_, fun others same j member => ?_, by simp, fun _ => inv.shutting (by simp [sweeping])⟩
    · exact (Function.forall_update_iff s.calls fun j d => j ∈ s.liveCalls ↔ d.registered = true).mpr
        ⟨inv.live i, fun j _ => inv.live j⟩
    · exact (Function.forall_update_iff s.calls fun _ d => d.LiveInv).mpr
        ⟨(inv.alive i).step cancelled, fun j _ => inv.alive j⟩
    · cases same
      exact inv.sweeping rest sweeping (Finset.mem_of_mem_erase member)
  | destroy =>
    simp only [Engine.step, Option.ite_none_right_eq_some, Option.some.injEq] at stepped
    obtain ⟨_, rfl⟩ := stepped
    exact ⟨inv.live, inv.alive, fun rest same => by cases same; exact subset_rfl, by simp, fun _ => rfl⟩
  | wait =>
    simp only [Engine.step, Option.ite_none_right_eq_some, Option.some.injEq] at stepped
    obtain ⟨was, rfl⟩ := stepped
    exact ⟨inv.live, inv.alive, by simp, by simp, fun _ => inv.shutting (by simp [was])⟩
  | deleteContext =>
    simp only [Engine.step, Option.ite_none_right_eq_some, Option.some.injEq] at stepped
    obtain ⟨was, rfl⟩ := stepped
    exact ⟨inv.live, inv.alive, by simp, fun _ => inv.drained (.inl was), fun _ => inv.shutting (by simp [was])⟩
  | wake =>
    simp only [Engine.step, Option.ite_none_right_eq_some, Option.some.injEq] at stepped
    obtain ⟨⟨was, empty⟩, rfl⟩ := stepped
    exact ⟨inv.live, inv.alive, by simp, fun _ => empty, fun _ => inv.shutting (by simp [was])⟩

def callSimulation (i : ι) :
    Machine.Simulation (machine (ι := ι)) Call.machine (fun s c => s.LiveCalls ∧ s.calls i = c) where
  events _ label :=
    match label with
    | .call j label => if j = i then [label] else []
    | .sweep j => if j = i then [.cancel .engine] else []
    | _ => []
  played := by
    rintro s c label t ⟨inv, rfl⟩ stepped
    have next := inv.step stepped
    cases label with
    | call j label =>
      obtain ⟨d, _, moved, rfl⟩ := call_step stepped
      by_cases same : j = i
      · subst same
        exact ⟨d, by simpa [Machine.run, Call.machine] using moved, next, Function.update_self ..⟩
      · exact ⟨s.calls i, by simp [same], next, Function.update_of_ne (Ne.symm same) ..⟩
    | sweep j =>
      obtain ⟨rest, sweeping, left, rfl⟩ := sweep_step stepped
      by_cases same : j = i
      · subst same
        have live := (inv.live j).mp (inv.sweeping rest sweeping left)
        refine ⟨(s.calls j).cancel, ?_, next, Function.update_self ..⟩
        simp [Machine.run, Call.machine, Call.step, Call.mayCancel, live]
      · exact ⟨s.calls i, by simp [same], next, Function.update_of_ne (Ne.symm same) ..⟩
    | destroy | wait | wake | deleteContext =>
      simp only [machine, step, Option.ite_none_right_eq_some, Option.some.injEq] at stepped
      obtain ⟨_, rfl⟩ := stepped
      exact ⟨s.calls i, rfl, next, rfl⟩

theorem liveCalls_of_run {url : ι → String} {maxRedirects : ι → Int} {labels : List (EngineLabel ι)} {s : Engine ι}
    (ran : machine.run (initial url maxRedirects) labels = some s) : LiveCalls s :=
  Machine.invariant LiveCalls (liveCalls_initial url maxRedirects) (fun _ _ _ inv stepped => inv.step stepped) ran

/-- Every result about the runs of one call holds of each call of an engine. -/
theorem call_run {url : ι → String} {maxRedirects : ι → Int} {labels : List (EngineLabel ι)} {s : Engine ι}
    (ran : machine.run (initial url maxRedirects) labels = some s) (i : ι) :
    ∃ own, Call.machine.run (.initial (url i) (maxRedirects i)) own = some (s.calls i) := by
  obtain ⟨c, played, _, rfl⟩ := (callSimulation i).run_trace ⟨liveCalls_initial url maxRedirects, rfl⟩ ran
  exact ⟨_, played⟩

theorem teardownInv_of_run {url : ι → String} {maxRedirects : ι → Int} {labels : List (EngineLabel ι)} {s : Engine ι}
    (ran : machine.run (initial url maxRedirects) labels = some s) (i : ι) : (s.calls i).TeardownInv := by
  obtain ⟨own, played⟩ := call_run ran i
  exact Call.teardownInv_of_run played

def SweepAttached (s : Engine ι) : EngineLabel ι → Prop
  | .sweep i => (s.calls i).starter = .attached ∨ (s.calls i).starter = .returned
  | _ => True

end Engine

def Destroyer.unswept {ι : Type} : Destroyer ι → Option (Finset ι)
  | .idle => none
  | .sweeping rest => some rest
  | _ => some ∅

namespace Engine

variable {ι : Type} [DecidableEq ι]

def Swept (s : Engine ι) : Prop :=
  ∀ rest, s.destroyer.unswept = some rest → ∀ i ∈ s.liveCalls, i ∉ rest →
    (s.calls i).shared.destroyRequested = true

theorem Swept.step {s t : Engine ι} {label : EngineLabel ι} (swept : Swept s) (inv : LiveCalls s)
    (teardown : ∀ i, (s.calls i).TeardownInv) (attached : SweepAttached s label) (stepped : s.step label = some t) :
    Swept t := by
  cases label with
  | call i label =>
    obtain ⟨c, allowed, moved, rfl⟩ := call_step stepped
    intro rest begun j live left
    have shutting : s.isShuttingDown = true := inv.shutting fun idle => by
      simp [idle, Destroyer.unswept] at begun
    rcases mem_liveAfter.mp live with ⟨rfl, rfl⟩ | ⟨was, _⟩
    · exact Bool.noConfusion (allowed.symm.trans (mayStep_shutting shutting))
    · have requested := swept rest begun j was left
      by_cases same : j = i
      · subst same
        simpa using (teardown j).keeps_requested moved requested
      · simpa [Function.update_of_ne same] using requested
  | sweep i =>
    obtain ⟨rest, sweeping, _, rfl⟩ := sweep_step stepped
    intro others begun j live left
    cases begun
    by_cases same : j = i
    · subst same
      simpa using (teardown j).cancel_requests attached
    · have requested := swept rest (by simp [sweeping, Destroyer.unswept]) j live fun member =>
        left (Finset.mem_erase.mpr ⟨same, member⟩)
      simpa [Function.update_of_ne same] using requested
  | destroy =>
    simp only [Engine.step, Option.ite_none_right_eq_some, Option.some.injEq] at stepped
    obtain ⟨_, rfl⟩ := stepped
    intro rest begun i live left
    cases begun
    exact absurd live left
  | wait | deleteContext =>
    simp only [Engine.step, Option.ite_none_right_eq_some, Option.some.injEq] at stepped
    obtain ⟨was, rfl⟩ := stepped
    intro rest begun
    exact swept rest (by simpa [was, Destroyer.unswept] using begun)
  | wake =>
    simp only [Engine.step, Option.ite_none_right_eq_some, Option.some.injEq] at stepped
    obtain ⟨⟨was, _⟩, rfl⟩ := stepped
    intro rest begun
    exact swept rest (by simpa [was, Destroyer.unswept] using begun)

theorem swept_of_run {url : ι → String} {maxRedirects : ι → Int} {labels : List (EngineLabel ι)} {s : Engine ι}
    (met : machine.Meets SweepAttached (initial url maxRedirects) labels)
    (ran : machine.run (initial url maxRedirects) labels = some s) : Swept s := by
  refine Machine.guarded_invariant (fun _ => Swept) (fun rest begun => ?_) ?_ met ran
  · simp [initial, Destroyer.unswept] at begun
  · intro past a label b before swept attached stepped
    exact swept.step (liveCalls_of_run before) (teardownInv_of_run before) attached stepped

/-- While `Destroy` waits, every call let in has its teardown requested, provided the sweep
    found it attached; once it goes on to delete the context, no call let in can call back. -/
theorem destroy_tears_down (url : ι → String) (maxRedirects : ι → Int) (labels : List (EngineLabel ι)) (s : Engine ι)
    (ran : machine.run (initial url maxRedirects) labels = some s) :
    (machine.Meets SweepAttached (initial url maxRedirects) labels → s.destroyer = .waiting →
      s.isShuttingDown = true ∧ ∀ i, (s.calls i).accepted → (s.calls i).shared.destroyRequested = true) ∧
    (s.destroyer = .deleting ∨ s.destroyer = .deleted →
      ∀ i, (s.calls i).accepted → (s.calls i).request.phase = .dead) := by
  have inv := liveCalls_of_run ran
  refine ⟨fun met waiting => ⟨inv.shutting (by simp [waiting]), fun i accepted => ?_⟩, fun done i accepted => ?_⟩
  · rcases (inv.alive i).held accepted with registered | dead
    · exact swept_of_run met ran ∅ (by simp [waiting, Destroyer.unswept]) i ((inv.live i).mpr registered) (by simp)
    · exact (teardownInv_of_run ran i).dead dead
  · refine ((inv.alive i).held accepted).resolve_left fun registered => ?_
    simpa [inv.drained done] using (inv.live i).mpr registered

theorem destroy_tears_down_attached :
    ∃ labels s, machine.run (initial (fun _ : Unit => "http://a/") fun _ => 20) labels = some s ∧
      s.destroyer = .waiting ∧ (s.calls ()).shared.destroyRequested = true := by
  let labels : List (EngineLabel Unit) := [.call () (.registerCall true), .call () .construct,
    .call () .attachRequest, .destroy, .sweep (), .wait]
  have met : machine.Meets SweepAttached (initial (fun _ => "http://a/") fun _ => 20) labels := by
    refine ⟨trivial, ?_⟩
    rintro _ ⟨⟩
    refine ⟨trivial, ?_⟩
    rintro _ ⟨⟩
    refine ⟨trivial, ?_⟩
    rintro _ ⟨⟩
    refine ⟨trivial, ?_⟩
    rintro _ ⟨⟩
    exact ⟨.inl rfl, fun _ _ => ⟨trivial, fun _ _ => trivial⟩⟩
  have torn := destroy_tears_down (fun _ => "http://a/") (fun _ => 20) labels _ rfl
  exact ⟨labels, _, rfl, rfl, (torn.1 met rfl).2 () ⟨nofun, nofun⟩⟩

/-- The sweep comes to a call registered and not yet attached, and the call it cancels in vain
    goes on to start. -/
theorem cancellation_lost :
    ∃ labels s, machine.run (initial (fun _ : Unit => "http://a/") fun _ => 20) labels = some s ∧
      s.destroyer = .waiting ∧ (s.calls ()).accepted ∧ (s.calls ()).shared.destroyRequested = false := by
  refine ⟨[.call () (.registerCall true), .destroy, .sweep (), .wait, .call () .construct, .call () .attachRequest,
    .call () .start], _, rfl, rfl, ⟨nofun, nofun⟩, rfl⟩

end Engine

end Cronet.Native
