import Cronet.Lib.Machine
import Mathlib.Logic.Function.Basic

namespace Cronet.Native

/-- The arguments of `StartNetLogToFile`. -/
structure NetLogFile where
  path : String
  logAll : Bool
  deriving DecidableEq

/-- What is posted to the network thread, a stop with the call of `StopNetLog` it is for. -/
inductive NetLogTask (ι : Type) where
  | start (file : NetLogFile)
  | stop (call : ι)
  deriving DecidableEq

/-- Where a call of `StopNetLog` stands: between its locked section and the post of its stop, or
    waiting for `net_log_stopped_`, its stop not yet run, run with a log to stop, or run without one. -/
inductive Stopper where
  | uncalled
  | clearing
  | waiting
  | served
  | stranded
  | returned
  deriving DecidableEq

/-- The part of an `Engine` and its `CronetContext` that keeps the log, with every call of
    `StopNetLog` there will be. `completing` counts the stops that have found a log and not yet
    called `OnStopNetLogCompleted`. -/
structure NetLog (ι : Type) where
  isNetLogging : Bool
  netLogStopped : Bool
  posted : List (NetLogTask ι)
  running : Option NetLogFile
  completing : Nat
  stops : ι → Stopper

/-- `opened` is whether the file of a log could be opened. -/
inductive NetLogLabel (ι : Type) where
  | startNetLog (file : NetLogFile) (opened : Bool)
  | stopNetLog (call : ι)
  | postStop (call : ι)
  | runTask
  | onStopNetLogCompleted
  | wake (call : ι)

namespace NetLog

section Step

variable {ι : Type} [DecidableEq ι]

def initial : NetLog ι := ⟨false, false, [], none, 0, fun _ => .uncalled⟩

def goto (s : NetLog ι) (call : ι) (stopper : Stopper) : NetLog ι :=
  { s with stops := Function.update s.stops call stopper }

/-- Whether `StartNetLog` returns true. -/
def starts (s : NetLog ι) (opened : Bool) : Bool := !s.isNetLogging && opened

/-- `Engine::StartNetLog`, all of it under `lock_`. -/
def startNetLog (s : NetLog ι) (file : NetLogFile) (opened : Bool) : NetLog ι :=
  if s.starts opened then { s with isNetLogging := true, posted := s.posted ++ [.start file] } else s

/-- The section of `Engine::StopNetLog` under `lock_`. -/
def stopNetLog (s : NetLog ι) (call : ι) : NetLog ι :=
  if s.isNetLogging then { s.goto call .clearing with isNetLogging := false, netLogStopped := false }
  else s.goto call .returned

def postStop (s : NetLog ι) (call : ι) : NetLog ι :=
  { s.goto call .waiting with posted := s.posted ++ [.stop call] }

def answer (s : NetLog ι) (call : ι) (found : Bool) : NetLog ι :=
  if s.stops call = .waiting then s.goto call (if found then .served else .stranded) else s

/-- The network thread: a start while a log runs does nothing, and so does a stop while none runs. -/
def runTask (s : NetLog ι) : NetLogTask ι → NetLog ι
  | .start file => { s with running := s.running.or (some file) }
  | .stop call =>
    if s.running.isSome then { s.answer call true with running := none, completing := s.completing + 1 }
    else s.answer call false

def step (s : NetLog ι) : NetLogLabel ι → Option (NetLog ι)
  | .startNetLog file opened => some (s.startNetLog file opened)
  | .stopNetLog call => if s.stops call = .uncalled then some (s.stopNetLog call) else none
  | .postStop call => if s.stops call = .clearing then some (s.postStop call) else none
  | .runTask =>
    match s.posted with
    | [] => none
    | task :: rest => some (runTask { s with posted := rest } task)
  | .onStopNetLogCompleted =>
    if 0 < s.completing then some { s with completing := s.completing - 1, netLogStopped := true } else none
  | .wake call =>
    if s.netLogStopped ∧ (s.stops call = .waiting ∨ s.stops call = .served ∨ s.stops call = .stranded) then
      some (s.goto call .returned)
    else none

def machine : Machine (NetLog ι) (NetLogLabel ι) := ⟨step⟩

def started (s : NetLog ι) : NetLogLabel ι → List NetLogFile
  | .startNetLog file opened => if s.starts opened then [file] else []
  | _ => []

def sections (s : NetLog ι) : NetLogLabel ι → List (Option NetLogFile)
  | .startNetLog file opened => if s.starts opened then [some file] else []
  | .stopNetLog _ => [none]
  | _ => []

/-- The file of the last start that returned true, unless a stop has been called since. -/
def lasting (labels : List (NetLogLabel ι)) : Option NetLogFile := (machine.outputs sections initial labels).getLast?.join

end Step

section Posted

variable {ι : Type}

def settled (running : Option NetLogFile) : List (NetLogTask ι) → Option NetLogFile
  | [] => running
  | .start file :: rest => settled (running.or (some file)) rest
  | .stop _ :: rest => settled none rest

/-- Everything posted does what it is posted for: a start finds no log and a stop finds one. -/
def Effective (running : Option NetLogFile) : List (NetLogTask ι) → Prop
  | [] => True
  | .start file :: rest => running = none ∧ Effective (some file) rest
  | .stop _ :: rest => running.isSome = true ∧ Effective none rest

theorem settled_append (running : Option NetLogFile) (first second : List (NetLogTask ι)) :
    settled running (first ++ second) = settled (settled running first) second := by
  induction first generalizing running with
  | nil => rfl
  | cons task first ih =>
    cases task with
    | start file => exact ih _
    | stop thread => exact ih _

theorem effective_append {running : Option NetLogFile} {first second : List (NetLogTask ι)}
    (effective : Effective running first) (later : Effective (settled running first) second) :
    Effective running (first ++ second) := by
  induction first generalizing running with
  | nil => exact later
  | cons task first ih =>
    cases task with
    | start file =>
      obtain ⟨none, rest⟩ := effective
      subst none
      exact ⟨rfl, ih rest later⟩
    | stop thread => exact ⟨effective.1, ih effective.2 later⟩

theorem mem_of_settled {running : Option NetLogFile} {posted : List (NetLogTask ι)} {file : NetLogFile}
    (writes : settled running posted = some file) : running = some file ∨ .start file ∈ posted := by
  induction posted generalizing running with
  | nil => exact .inl writes
  | cons task rest ih =>
    cases task with
    | start other =>
      rcases ih writes with here | later
      · cases running with
        | none =>
          cases here
          exact .inr List.mem_cons_self
        | some first => exact .inl here
      · exact .inr (List.mem_cons_of_mem _ later)
    | stop call =>
      rcases ih writes with here | later
      · cases here
      · exact .inr (List.mem_cons_of_mem _ later)

end Posted

variable {ι : Type} [DecidableEq ι]

/-- What holds of a log whose starts keep out of the stops that are not posted yet. -/
structure NetLogInv (past : List NetLogFile) (s : NetLog ι) : Prop where
  effective : Effective s.running s.posted
  logging : s.isNetLogging = true → past ≠ [] ∧ settled s.running s.posted = past.getLast? ∧
    ∀ call, s.stops call ≠ .clearing
  stopped : s.isNetLogging = false → (∀ call, s.stops call ≠ .clearing) → settled s.running s.posted = none
  stopping : ∀ call, s.stops call = .clearing → (settled s.running s.posted).isSome = true
  single : ∀ first second, s.stops first = .clearing → s.stops second = .clearing → first = second
  served : ∀ call, s.stops call ≠ .stranded

/-- No start returns true between the locked section of a stop and its post. -/
def StartsApart (s : NetLog ι) (label : NetLogLabel ι) : Prop :=
  ∀ file opened, label = .startNetLog file opened → s.starts opened = true → ∀ call, s.stops call ≠ .clearing

omit [DecidableEq ι] in
theorem netLogInv_initial : NetLogInv [] (initial : NetLog ι) := by
  constructor <;> simp [initial, Effective, settled]

theorem goto_stops (s : NetLog ι) (call other : ι) (stopper : Stopper) :
    (s.goto call stopper).stops other = if other = call then stopper else s.stops other :=
  Function.update_apply _ _ _ _

theorem NetLogInv.goto {past : List NetLogFile} {s : NetLog ι} {call : ι} {stopper : Stopper} (inv : NetLogInv past s)
    (was : s.stops call ≠ .clearing) (outside : stopper ≠ .clearing) (served : stopper ≠ .stranded) :
    NetLogInv past (s.goto call stopper) := by
  have clearing (other : ι) : (s.goto call stopper).stops other = .clearing ↔ s.stops other = .clearing := by
    rw [goto_stops]
    split
    · rename_i same
      subst same
      exact iff_of_false outside was
    · exact Iff.rfl
  refine ⟨inv.effective, fun logging => ?_, fun idle apart => inv.stopped idle ?_, ?_, ?_, ?_⟩
  · obtain ⟨some, file, apart⟩ := inv.logging logging
    exact ⟨some, file, fun other now => apart other ((clearing other).mp now)⟩
  · exact fun other now => apart other ((clearing other).mpr now)
  · exact fun other now => inv.stopping other ((clearing other).mp now)
  · exact fun first second one two => inv.single first second ((clearing first).mp one) ((clearing second).mp two)
  · intro other
    rw [goto_stops]
    split
    · exact served
    · exact inv.served other

omit [DecidableEq ι] in
theorem NetLogInv.startNetLog {past : List NetLogFile} {s : NetLog ι} {file : NetLogFile} {opened : Bool}
    (inv : NetLogInv past s) (apart : StartsApart s (.startNetLog file opened)) :
    NetLogInv (past ++ s.started (.startNetLog file opened)) (s.startNetLog file opened) := by
  simp only [started, NetLog.startNetLog]
  by_cases starts : s.starts opened = true
  · have clear := apart file opened rfl starts
    have idle : s.isNetLogging = false := by
      simp only [NetLog.starts, Bool.and_eq_true, Bool.not_eq_true'] at starts
      exact starts.1
    have none := inv.stopped idle clear
    rw [if_pos starts, if_pos starts]
    have next : settled s.running (s.posted ++ [.start file]) = some file := by
      rw [settled_append, none]
      rfl
    refine ⟨?_, fun _ => ⟨by simp, ?_, clear⟩, ?_, ?_, inv.single, inv.served⟩
    · apply effective_append inv.effective
      rw [none]
      exact ⟨rfl, trivial⟩
    · rw [next, List.getLast?_append]
      rfl
    · intro logging
      cases logging
    · exact fun call now => absurd now (clear call)
  · rw [if_neg starts, if_neg starts, List.append_nil]
    exact inv

theorem NetLogInv.stopNetLog {past : List NetLogFile} {s : NetLog ι} {call : ι} (inv : NetLogInv past s)
    (uncalled : s.stops call = .uncalled) : NetLogInv past (s.stopNetLog call) := by
  unfold NetLog.stopNetLog
  by_cases logging : s.isNetLogging = true
  · obtain ⟨some, file, clear⟩ := inv.logging logging
    have running : (settled s.running s.posted).isSome = true := by
      rw [file, List.getLast?_isSome]
      exact some
    have only (other : ι) (now : (s.goto call .clearing).stops other = .clearing) : other = call := by
      rw [goto_stops] at now
      split at now
      · assumption
      · exact absurd now (clear other)
    rw [if_pos logging]
    refine ⟨inv.effective, ?_, ?_, ?_, ?_, ?_⟩
    · intro still
      cases still
    · intro _ apart
      refine absurd ?_ (apart call)
      exact (goto_stops s call call .clearing).trans (if_pos rfl)
    · exact fun _ _ => running
    · exact fun first second one two => (only first one).trans (only second two).symm
    · intro other
      change (s.goto call .clearing).stops other ≠ .stranded
      rw [goto_stops]
      split
      · simp
      · exact inv.served other
  · rw [if_neg logging]
    exact inv.goto (by simp [uncalled]) (by simp) (by simp)

theorem NetLogInv.postStop {past : List NetLogFile} {s : NetLog ι} {call : ι} (inv : NetLogInv past s)
    (clearing : s.stops call = .clearing) : NetLogInv past (s.postStop call) := by
  have running := inv.stopping call clearing
  have apart (other : ι) : (s.postStop call).stops other ≠ .clearing := by
    change (s.goto call .waiting).stops other ≠ .clearing
    rw [goto_stops]
    split
    · simp
    · rename_i different
      exact fun now => different (inv.single other call now clearing)
  have next : settled s.running (s.posted ++ [.stop call]) = none := by
    rw [settled_append]
    rfl
  refine ⟨effective_append inv.effective ⟨running, trivial⟩, fun logging => ?_, fun _ _ => next, ?_, ?_, ?_⟩
  · exact absurd clearing ((inv.logging logging).2.2 call)
  · exact fun other now => absurd now (apart other)
  · exact fun first second one _ => absurd one (apart first)
  · intro other
    change (s.goto call .waiting).stops other ≠ .stranded
    rw [goto_stops]
    split
    · simp
    · exact inv.served other

theorem NetLogInv.runTask {past : List NetLogFile} {s : NetLog ι} {task : NetLogTask ι} {rest : List (NetLogTask ι)}
    (inv : NetLogInv past s) (next : s.posted = task :: rest) : NetLogInv past (NetLog.runTask { s with posted := rest } task) := by
  obtain ⟨effective, logging, stopped, stopping, single, served⟩ := inv
  rw [next] at effective logging stopped stopping
  cases task with
  | start file => exact ⟨by rw [effective.1]; exact effective.2, logging, stopped, stopping, single, served⟩
  | stop call =>
    have ran : NetLogInv past { s with posted := rest, running := none, completing := s.completing + 1 } :=
      ⟨effective.2, logging, stopped, stopping, single, served⟩
    simp only [NetLog.runTask, effective.1, if_true, answer]
    split
    · rename_i waiting
      exact ran.goto (by simp [waiting]) (by simp) (by simp)
    · exact ran

theorem NetLogInv.step {past : List NetLogFile} {s t : NetLog ι} {label : NetLogLabel ι} (inv : NetLogInv past s)
    (apart : StartsApart s label) (stepped : s.step label = some t) : NetLogInv (past ++ s.started label) t := by
  cases label with
  | startNetLog file opened =>
    cases stepped
    exact inv.startNetLog apart
  | stopNetLog call =>
    simp only [NetLog.step, Option.ite_none_right_eq_some, Option.some.injEq] at stepped
    obtain ⟨uncalled, rfl⟩ := stepped
    simpa [started] using inv.stopNetLog uncalled
  | postStop call =>
    simp only [NetLog.step, Option.ite_none_right_eq_some, Option.some.injEq] at stepped
    obtain ⟨clearing, rfl⟩ := stepped
    simpa [started] using inv.postStop clearing
  | runTask =>
    simp only [NetLog.step] at stepped
    cases next : s.posted with
    | nil => simp [next] at stepped
    | cons task rest =>
      simp only [next, Option.some.injEq] at stepped
      subst stepped
      simpa [started] using inv.runTask next
  | onStopNetLogCompleted =>
    simp only [NetLog.step, Option.ite_none_right_eq_some, Option.some.injEq] at stepped
    obtain ⟨_, rfl⟩ := stepped
    simp only [started, List.append_nil]
    exact ⟨inv.effective, inv.logging, inv.stopped, inv.stopping, inv.single, inv.served⟩
  | wake call =>
    simp only [NetLog.step, Option.ite_none_right_eq_some, Option.some.injEq] at stepped
    obtain ⟨⟨_, waits⟩, rfl⟩ := stepped
    simp only [started, List.append_nil]
    exact inv.goto (by rcases waits with same | same | same <;> simp [same]) (by simp) (by simp)

/-- No start and no stop is in progress. -/
def Quiet (s : NetLog ι) : Prop := s.posted = [] ∧ ∀ call, s.stops call = .uncalled ∨ s.stops call = .returned

/-- What the flag, a start that returned true and a stop promise, `past` being the files of the starts
    that returned true and `since` that of the last, if no stop has been called after it. -/
structure Sound (past : List NetLogFile) (since : Option NetLogFile) (s : NetLog ι) : Prop where
  flag : s.Quiet → (s.isNetLogging = true ↔ s.running.isSome = true)
  begins : ∀ file rest, s.posted = .start file :: rest → s.running = none
  written : s.posted = [] → s.isNetLogging = true → s.running = past.getLast?
  lasts : ∀ file ∈ since, s.isNetLogging = true ∧ (s.running = some file ∨ .start file ∈ s.posted)
  served : ∀ call, s.stops call ≠ .stranded

omit [DecidableEq ι] in
theorem NetLogInv.sound {past : List NetLogFile} {since : Option NetLogFile} {s : NetLog ι} (inv : NetLogInv past s)
    (lasts : ∀ file ∈ since, s.isNetLogging = true ∧ past.getLast? = some file) : Sound past since s where
  flag quiet := by
    obtain ⟨empty, idle⟩ := quiet
    have clear (call : ι) : s.stops call ≠ .clearing := by
      rcases idle call with same | same <;> simp [same]
    cases logging : s.isNetLogging with
    | true =>
      obtain ⟨some, file, _⟩ := inv.logging logging
      rw [empty] at file
      simpa [show s.running = past.getLast? from file] using some
    | false =>
      have stopped := inv.stopped logging clear
      rw [empty] at stopped
      simp [show s.running = none from stopped]
  begins file rest next := by
    have effective := inv.effective
    rw [next] at effective
    exact effective.1
  written empty logging := by
    have file := (inv.logging logging).2.1
    rwa [empty] at file
  lasts file member := by
    obtain ⟨logging, last⟩ := lasts file member
    exact ⟨logging, mem_of_settled ((inv.logging logging).2.1.trans last)⟩
  served := inv.served

theorem isNetLogging_step {s t : NetLog ι} {label : NetLogLabel ι} (stepped : s.step label = some t)
    (silent : s.sections label = []) : t.isNetLogging = s.isNetLogging ∧ s.started label = [] := by
  cases label with
  | startNetLog file opened =>
    have idle : ¬s.starts opened = true := by simpa [sections] using silent
    cases stepped
    simp [NetLog.startNetLog, started, idle]
  | stopNetLog call => cases silent
  | postStop call =>
    simp only [NetLog.step, Option.ite_none_right_eq_some, Option.some.injEq] at stepped
    obtain ⟨_, rfl⟩ := stepped
    exact ⟨rfl, rfl⟩
  | runTask =>
    simp only [NetLog.step] at stepped
    split at stepped
    · cases stepped
    · rename_i task rest _
      cases stepped
      refine ⟨?_, rfl⟩
      cases task with
      | start file => rfl
      | stop call =>
        simp only [NetLog.runTask, answer]
        split <;> split <;> rfl
  | onStopNetLogCompleted =>
    simp only [NetLog.step, Option.ite_none_right_eq_some, Option.some.injEq] at stepped
    obtain ⟨_, rfl⟩ := stepped
    exact ⟨rfl, rfl⟩
  | wake call =>
    simp only [NetLog.step, Option.ite_none_right_eq_some, Option.some.injEq] at stepped
    obtain ⟨_, rfl⟩ := stepped
    exact ⟨rfl, rfl⟩

/-- Until the next stop the flag stays up, and no other start returns true. -/
theorem lasting_logging {labels : List (NetLogLabel ι)} {s : NetLog ι} (ran : machine.run initial labels = some s) :
    ∀ file ∈ lasting labels, s.isNetLogging = true ∧ (machine.outputs started initial labels).getLast? = some file := by
  refine Machine.history_invariant (fun labels s => ∀ file ∈ lasting labels,
    s.isNetLogging = true ∧ (machine.outputs started initial labels).getLast? = some file) (fun _ member => absurd member (Option.not_mem_none _)) ?_ ran
  intro past a label b before held stepped file member
  rw [lasting, Machine.outputs_snoc label before] at member
  rw [Machine.outputs_snoc label before]
  by_cases silent : a.sections label = []
  · obtain ⟨same, none⟩ := isNetLogging_step stepped silent
    rw [silent, List.append_nil] at member
    rw [same, none, List.append_nil]
    exact held file member
  · cases label with
    | startNetLog other opened =>
      have starts : a.starts opened = true := by
        by_contra idle
        exact silent (if_neg idle)
      cases stepped
      simp only [sections, starts, if_true, List.getLast?_concat, Option.join_some, Option.mem_some_iff] at member
      subst member
      simp [NetLog.startNetLog, started, starts]
    | stopNetLog call => simp [sections] at member
    | postStop _ | runTask | onStopNetLogCompleted | wake _ => exact absurd rfl silent

/-- The log is what its flag says in every run whose starts keep out of the stops not posted yet. -/
theorem net_log_sound (labels : List (NetLogLabel ι)) (s : NetLog ι) (ran : machine.run initial labels = some s)
    (met : machine.Meets StartsApart initial labels) :
    Sound (machine.outputs started initial labels) (lasting labels) s := by
  refine (Machine.guarded_invariant (fun past s => NetLogInv (machine.outputs started initial past) s) netLogInv_initial
    ?_ met ran).sound (lasting_logging ran)
  intro past a label b before inv apart stepped
  rw [Machine.outputs_snoc label before]
  exact inv.step apart stepped

theorem net_log_sound_started :
    ∃ s : NetLog Nat, machine.run initial [.startNetLog ⟨"a.json", false⟩ true, .runTask, .stopNetLog 0, .postStop 0,
        .runTask, .onStopNetLogCompleted, .wake 0, .startNetLog ⟨"b.json", false⟩ true, .runTask] = some s ∧
      s.stops 0 = .returned ∧ s.running = some ⟨"b.json", false⟩ := by
  have apart : machine.Meets (StartsApart (ι := Nat)) initial [.startNetLog ⟨"a.json", false⟩ true, .runTask, .stopNetLog 0,
      .postStop 0, .runTask, .onStopNetLogCompleted, .wake 0, .startNetLog ⟨"b.json", false⟩ true, .runTask] := by
    simp only [Machine.Meets, StartsApart]
    refine ⟨fun _ _ _ _ call => Stopper.noConfusion, ?_⟩
    rintro _ ⟨⟩
    iterate 6
      refine ⟨by simp, ?_⟩
      rintro _ ⟨⟩
    refine ⟨fun _ _ _ _ call => ?_, by simp⟩
    by_cases first : call = 0
    · subst first
      decide
    · simp [goto, postStop, stopNetLog, startNetLog, runTask, answer, initial, starts, first]
  exact ⟨_, rfl, rfl, (net_log_sound _ _ rfl apart).written rfl rfl⟩

/-- A start slips between the flag and the post of a stop: its log is never written, and the next stop
    waits for ever. -/
theorem start_between_flag_and_stop :
    ∃ (labels : List (NetLogLabel Nat)) (s : NetLog Nat), machine.run initial labels = some s ∧ s.Quiet ∧
      s.isNetLogging = true ∧ s.running = none ∧ ¬ Sound (machine.outputs started initial labels) (lasting labels) s ∧
      ∃ t, machine.run s [.stopNetLog 1, .postStop 1, .runTask] = some t ∧ t.stops 1 = .stranded ∧
        t.netLogStopped = false ∧ t.completing = 0 := by
  refine ⟨[.startNetLog ⟨"a.json", false⟩ true, .runTask, .stopNetLog 0, .startNetLog ⟨"b.json", false⟩ true, .postStop 0,
    .runTask, .runTask, .onStopNetLogCompleted, .wake 0], _, rfl, ⟨rfl, ?_⟩, rfl, rfl, ?_, _, rfl, rfl, rfl, rfl⟩
  · intro call
    by_cases first : call = 0
    · subst first
      exact .inr rfl
    · refine .inl ?_
      simp [goto, postStop, stopNetLog, startNetLog, runTask, answer, initial, starts, first]
  · intro sound
    have file := sound.written rfl rfl
    cases file

end NetLog

end Cronet.Native
