import Cronet.Lib.Machine
import Mathlib.Logic.Function.Basic

namespace Cronet.Native

/-- Where a call of `Engine::Create` stands around its `ScopedPendingProxyConfig`: before it, with
    the lock and nothing stored, building the context, with one, waiting for its task, woken, with
    nothing stored any more, and past it. -/
inductive Builder where
  | outside
  | locked
  | constructing
  | constructed
  | waiting
  | woken
  | cleared
  | left
  deriving DecidableEq

/-- Where the task stands that runs `InitRequestContextOnInitThread`. -/
inductive InitTask where
  | unposted
  | queued
  | running
  | initialized
  | signalled
  deriving DecidableEq

namespace Builder

def holds : Builder → Bool
  | .outside | .left => false
  | _ => true

def building : Builder → Bool
  | .constructing | .constructed | .waiting | .woken => true
  | _ => false

def posts : Builder → Bool
  | .outside | .locked | .constructing | .constructed => false
  | _ => true

def released : Builder → Bool
  | .woken | .cleared | .left => true
  | _ => false

end Builder

inductive ProxyConfigService (κ : Type) where
  | fixed (config : κ)
  | system
  deriving DecidableEq

/-- The process-wide lock and value, the init thread, and every call of `Engine::Create` there will
    be with the task it posts. -/
structure PendingProxy (ι κ : Type) where
  lock : Option ι
  pending : Option κ
  posted : List ι
  running : Option ι
  builders : ι → Builder
  inits : ι → InitTask

inductive PendingProxyLabel (ι : Type) where
  | acquire (engine : ι)
  | store (engine : ι)
  | construct (engine : ι)
  | post (engine : ι)
  | wake (engine : ι)
  | clear (engine : ι)
  | release (engine : ι)
  | startTask
  | initContext
  | signal
  | createProxyConfigService (engine : ι)

namespace PendingProxy

variable {ι κ : Type}

/-- What `CreateProxyConfigService` returns for a value. -/
def service : Option κ → ProxyConfigService κ
  | some config => .fixed config
  | none => .system

def initial : PendingProxy ι κ := ⟨none, none, [], none, fun _ => .outside, fun _ => .unposted⟩

/-- When Cronet may ask for an engine: its context is there or being made, and is not initialized. -/
def Asks (s : PendingProxy ι κ) (engine : ι) : Prop :=
  (s.builders engine ≠ .outside ∧ s.builders engine ≠ .locked) ∧
    s.inits engine ≠ .initialized ∧ s.inits engine ≠ .signalled

instance (s : PendingProxy ι κ) (engine : ι) : Decidable (s.Asks engine) := by
  unfold Asks
  infer_instance

variable [DecidableEq ι]

def goto (s : PendingProxy ι κ) (engine : ι) (builder : Builder) : PendingProxy ι κ :=
  { s with builders := Function.update s.builders engine builder }

def task (s : PendingProxy ι κ) (engine : ι) (init : InitTask) : PendingProxy ι κ :=
  { s with inits := Function.update s.inits engine init }

variable (config : ι → Option κ)

def step (s : PendingProxy ι κ) : PendingProxyLabel ι → Option (PendingProxy ι κ)
  | .acquire engine =>
    if s.builders engine = .outside ∧ s.lock = none then some { s.goto engine .locked with lock := some engine } else none
  | .store engine =>
    if s.builders engine = .locked then some { s.goto engine .constructing with pending := config engine } else none
  | .construct engine => if s.builders engine = .constructing then some (s.goto engine .constructed) else none
  | .post engine =>
    if s.builders engine = .constructed then
      some { (s.goto engine .waiting).task engine .queued with posted := s.posted ++ [engine] }
    else none
  | .wake engine =>
    if s.builders engine = .waiting ∧ s.inits engine = .signalled then some (s.goto engine .woken) else none
  | .clear engine => if s.builders engine = .woken then some { s.goto engine .cleared with pending := none } else none
  | .release engine => if s.builders engine = .cleared then some { s.goto engine .left with lock := none } else none
  | .startTask =>
    match s.posted, s.running with
    | engine :: rest, none => some { s.task engine .running with posted := rest, running := some engine }
    | _, _ => none
  | .initContext =>
    match s.running with
    | some engine => if s.inits engine = .running then some (s.task engine .initialized) else none
    | none => none
  | .signal =>
    match s.running with
    | some engine =>
      if s.inits engine = .initialized then some { s.task engine .signalled with running := none } else none
    | none => none
  | .createProxyConfigService engine => if s.Asks engine then some s else none

def machine : Machine (PendingProxy ι κ) (PendingProxyLabel ι) := ⟨step config⟩

def given (s : PendingProxy ι κ) : PendingProxyLabel ι → List (ι × ProxyConfigService κ)
  | .createProxyConfigService engine => [(engine, service s.pending)]
  | _ => []

def installed (s : PendingProxy ι κ) : Option κ :=
  s.lock.bind fun engine => if (s.builders engine).building then config engine else none

structure ScopeInv (s : PendingProxy ι κ) : Prop where
  held : ∀ engine, (s.builders engine).holds = true → s.lock = some engine
  value : s.pending = s.installed config

structure TaskInv (s : PendingProxy ι κ) : Prop where
  unposted : ∀ engine, (s.builders engine).posts = false → s.inits engine = .unposted
  released : ∀ engine, (s.builders engine).released = true → s.inits engine = .signalled
  queued : ∀ engine ∈ s.posted, s.inits engine = .queued
  once : s.posted.Nodup

variable {config} {s t : PendingProxy ι κ} {engine : ι} {builder : Builder}

theorem Builder.holds_of_building (building : builder.building = true) : builder.holds = true := by
  cases builder <;> first | rfl | cases building

theorem goto_self : (s.goto engine builder).builders engine = builder := Function.update_self ..

theorem goto_other {other : ι} (apart : other ≠ engine) : (s.goto engine builder).builders other = s.builders other :=
  Function.update_of_ne apart ..

theorem task_self {init : InitTask} : (s.task engine init).inits engine = init := Function.update_self ..

theorem task_other {init : InitTask} {other : ι} (apart : other ≠ engine) :
    (s.task engine init).inits other = s.inits other := Function.update_of_ne apart ..

omit [DecidableEq ι] in
theorem scopeInv_initial : ScopeInv config (initial : PendingProxy ι κ) where
  held _ holds := by cases holds
  value := rfl

omit [DecidableEq ι] in
theorem taskInv_initial : TaskInv (initial : PendingProxy ι κ) where
  unposted _ _ := rfl
  released _ released := by cases released
  queued _ member := absurd member List.not_mem_nil
  once := List.nodup_nil

theorem ScopeInv.move {pending : Option κ} (inv : ScopeInv config s) (had : (s.builders engine).holds = true)
    (value : pending = if builder.building then config engine else none) :
    ScopeInv config { s.goto engine builder with pending := pending } := by
  have lock := inv.held engine had
  constructor
  · intro other holds
    by_cases same : other = engine
    · subst same
      exact lock
    · exact inv.held other (goto_other same ▸ holds)
  · have now : ({ s.goto engine builder with pending := pending } : PendingProxy ι κ).installed config =
        if builder.building then config engine else none := by
      simp only [installed, goto, lock, Option.bind_some, Function.update_self]
    rw [now]
    exact value

theorem ScopeInv.acquire (inv : ScopeInv config s) (free : s.lock = none) :
    ScopeInv config { s.goto engine .locked with lock := some engine } := by
  constructor
  · intro other holds
    by_cases same : other = engine
    · rw [same]
    · have before := inv.held other (goto_other same ▸ holds)
      rw [free] at before
      cases before
  · have empty : s.pending = none := by rw [inv.value, installed, free, Option.bind_none]
    simp only [installed, goto, Option.bind_some, Function.update_self, empty]
    rfl

theorem ScopeInv.release (inv : ScopeInv config s) (was : s.builders engine = .cleared) :
    ScopeInv config { s.goto engine .left with lock := none } := by
  have lock := inv.held engine (by rw [was]; rfl)
  constructor
  · intro other holds
    by_cases same : other = engine
    · subst same
      have left : (s.goto other .left).builders other = .left := goto_self
      rw [show ({ s.goto other .left with lock := none } : PendingProxy ι κ).builders other = .left from left] at holds
      cases holds
    · have before := inv.held other (goto_other same ▸ holds)
      rw [lock] at before
      exact absurd (Option.some.inj before).symm same
  · have empty : s.pending = none := by
      rw [inv.value, installed, lock, Option.bind_some, was]
      rfl
    exact empty

omit [DecidableEq ι] in
theorem ScopeInv.pending_own (inv : ScopeInv config s) (building : (s.builders engine).building = true) :
    s.pending = config engine := by
  rw [inv.value, installed, inv.held engine (Builder.holds_of_building building), Option.bind_some, if_pos building]

omit [DecidableEq ι] in
theorem ScopeInv.pending_empty (inv : ScopeInv config s) (quiet : ∀ engine, (s.builders engine).building = false) :
    s.pending = none := by
  rw [inv.value, installed]
  cases s.lock with
  | none => rfl
  | some engine => rw [Option.bind_some, quiet engine]; rfl

omit [DecidableEq ι] in
theorem TaskInv.congr (inv : TaskInv s) (builders : t.builders = s.builders) (inits : t.inits = s.inits)
    (posted : t.posted = s.posted) : TaskInv t := by
  constructor
  · rw [builders, inits]
    exact inv.unposted
  · rw [builders, inits]
    exact inv.released
  · rw [posted, inits]
    exact inv.queued
  · rw [posted]
    exact inv.once

theorem TaskInv.goto (inv : TaskInv s) (unposted : builder.posts = false → s.inits engine = .unposted)
    (released : builder.released = true → s.inits engine = .signalled) : TaskInv (s.goto engine builder) := by
  refine ⟨fun other posts => ?_, fun other out => ?_, inv.queued, inv.once⟩
  · by_cases same : other = engine
    · subst same
      rw [goto_self] at posts
      exact unposted posts
    · rw [goto_other same] at posts
      exact inv.unposted other posts
  · by_cases same : other = engine
    · subst same
      rw [goto_self] at out
      exact released out
    · rw [goto_other same] at out
      exact inv.released other out

theorem TaskInv.task {init : InitTask} (inv : TaskInv s) (posts : (s.builders engine).posts = true)
    (unreleased : (s.builders engine).released = false) (popped : engine ∉ s.posted) : TaskInv (s.task engine init) := by
  refine ⟨fun other early => ?_, fun other out => ?_, fun other member => ?_, inv.once⟩
  · have apart : other ≠ engine := by
      rintro rfl
      rw [show (s.task other init).builders other = s.builders other from rfl, posts] at early
      cases early
    rw [task_other apart]
    exact inv.unposted other early
  · have apart : other ≠ engine := by
      rintro rfl
      rw [show (s.task other init).builders other = s.builders other from rfl, unreleased] at out
      cases out
    rw [task_other apart]
    exact inv.released other out
  · have apart : other ≠ engine := by
      rintro rfl
      exact popped member
    rw [task_other apart]
    exact inv.queued other member

omit [DecidableEq ι] in
theorem TaskInv.under_way (inv : TaskInv s) (posted : s.inits engine ≠ .unposted) (unfinished : s.inits engine ≠ .signalled) :
    (s.builders engine).posts = true ∧ (s.builders engine).released = false := by
  constructor
  · cases posts : (s.builders engine).posts with
    | true => rfl
    | false => exact absurd (inv.unposted engine posts) posted
  · cases released : (s.builders engine).released with
    | true => exact absurd (inv.released engine released) unfinished
    | false => rfl

theorem TaskInv.post (inv : TaskInv s) (was : s.builders engine = .constructed) :
    TaskInv { (s.goto engine .waiting).task engine .queued with posted := s.posted ++ [engine] } := by
  have fresh : s.inits engine = .unposted := inv.unposted engine (by rw [was]; rfl)
  have absent : engine ∉ s.posted := by
    intro member
    rw [inv.queued engine member] at fresh
    cases fresh
  have moved : TaskInv ((s.goto engine .waiting).task engine .queued) := by
    refine (inv.goto (fun posts => by cases posts) fun released => by cases released).task ?_ ?_ absent
    · rw [goto_self]
      rfl
    · rw [goto_self]
      rfl
  refine ⟨moved.unposted, moved.released, fun other member => ?_, ?_⟩
  · rcases List.mem_append.mp member with before | now
    · exact moved.queued other before
    · rw [List.mem_singleton] at now
      subst now
      exact task_self
  · rw [List.nodup_append]
    refine ⟨inv.once, List.pairwise_singleton _ engine, fun other before last now same => ?_⟩
    rw [List.mem_singleton] at now
    exact absent (now ▸ same ▸ before)

theorem TaskInv.start {rest : List ι} (inv : TaskInv s) (next : s.posted = engine :: rest) :
    TaskInv { s.task engine .running with posted := rest, running := some engine } := by
  have queued : s.inits engine = .queued := inv.queued engine (next ▸ List.mem_cons_self)
  have way := inv.under_way (by rw [queued]; simp) (by rw [queued]; simp)
  have once := inv.once
  rw [next, List.nodup_cons] at once
  have popped : TaskInv { s with posted := rest } :=
    ⟨inv.unposted, inv.released, fun other member => inv.queued other (next ▸ List.mem_cons_of_mem engine member), once.2⟩
  have moved : TaskInv (PendingProxy.task { s with posted := rest } engine .running) := popped.task way.1 way.2 once.1
  exact moved.congr rfl rfl rfl

theorem TaskInv.advance {init was : InitTask} (inv : TaskInv s) (now : s.inits engine = was)
    (posted : was ≠ .unposted) (started : was ≠ .queued) (unfinished : was ≠ .signalled) :
    TaskInv (s.task engine init) := by
  have way := inv.under_way (now ▸ posted) (now ▸ unfinished)
  exact inv.task way.1 way.2 fun member => started (now.symm.trans (inv.queued engine member))

omit [DecidableEq ι] in
theorem TaskInv.building_of_asks (inv : TaskInv s) (asks : s.Asks engine) : (s.builders engine).building = true := by
  obtain ⟨⟨inside, stored⟩, _, unfinished⟩ := asks
  have released := inv.released engine
  cases was : s.builders engine with
  | outside => exact absurd was inside
  | locked => exact absurd was stored
  | constructing => rfl
  | constructed => rfl
  | waiting => rfl
  | woken => rfl
  | cleared => exact absurd (released (by rw [was]; rfl)) unfinished
  | left => exact absurd (released (by rw [was]; rfl)) unfinished

structure PendingInv (config : ι → Option κ) (s : PendingProxy ι κ) : Prop where
  scope : ScopeInv config s
  task : TaskInv s

theorem PendingInv.step {label : PendingProxyLabel ι} (inv : PendingInv config s)
    (stepped : s.step config label = some t) : PendingInv config t := by
  obtain ⟨scope, task⟩ := inv
  cases label with
  | acquire engine =>
    simp only [PendingProxy.step, Option.ite_none_right_eq_some, Option.some.injEq] at stepped
    obtain ⟨⟨was, free⟩, rfl⟩ := stepped
    have unposted := task.unposted engine (by rw [was]; rfl)
    have moved : TaskInv (s.goto engine .locked) := task.goto (fun _ => unposted) fun released => by cases released
    exact ⟨scope.acquire free, moved.congr rfl rfl rfl⟩
  | store engine =>
    simp only [PendingProxy.step, Option.ite_none_right_eq_some, Option.some.injEq] at stepped
    obtain ⟨was, rfl⟩ := stepped
    have unposted := task.unposted engine (by rw [was]; rfl)
    have moved : TaskInv (s.goto engine .constructing) := task.goto (fun _ => unposted) fun released => by cases released
    exact ⟨scope.move (by rw [was]; rfl) rfl, moved.congr rfl rfl rfl⟩
  | construct engine =>
    simp only [PendingProxy.step, Option.ite_none_right_eq_some, Option.some.injEq] at stepped
    obtain ⟨was, rfl⟩ := stepped
    have unposted := task.unposted engine (by rw [was]; rfl)
    have own : s.pending = config engine := scope.pending_own (by rw [was]; rfl)
    exact ⟨scope.move (by rw [was]; rfl) own, task.goto (fun _ => unposted) fun released => by cases released⟩
  | post engine =>
    simp only [PendingProxy.step, Option.ite_none_right_eq_some, Option.some.injEq] at stepped
    obtain ⟨was, rfl⟩ := stepped
    have own : s.pending = config engine := scope.pending_own (by rw [was]; rfl)
    have moved : ScopeInv config (s.goto engine .waiting) := scope.move (by rw [was]; rfl) own
    exact ⟨⟨moved.held, moved.value⟩, task.post was⟩
  | wake engine =>
    simp only [PendingProxy.step, Option.ite_none_right_eq_some, Option.some.injEq] at stepped
    obtain ⟨⟨was, done⟩, rfl⟩ := stepped
    have own : s.pending = config engine := scope.pending_own (by rw [was]; rfl)
    exact ⟨scope.move (by rw [was]; rfl) own, task.goto (fun posts => by cases posts) fun _ => done⟩
  | clear engine =>
    simp only [PendingProxy.step, Option.ite_none_right_eq_some, Option.some.injEq] at stepped
    obtain ⟨was, rfl⟩ := stepped
    have done := task.released engine (by rw [was]; rfl)
    have moved : TaskInv (s.goto engine .cleared) := task.goto (fun posts => by cases posts) fun _ => done
    exact ⟨scope.move (by rw [was]; rfl) rfl, moved.congr rfl rfl rfl⟩
  | release engine =>
    simp only [PendingProxy.step, Option.ite_none_right_eq_some, Option.some.injEq] at stepped
    obtain ⟨was, rfl⟩ := stepped
    have done := task.released engine (by rw [was]; rfl)
    have moved : TaskInv (s.goto engine .left) := task.goto (fun posts => by cases posts) fun _ => done
    exact ⟨scope.release was, moved.congr rfl rfl rfl⟩
  | startTask =>
    simp only [PendingProxy.step] at stepped
    split at stepped
    · rename_i engine rest next idle
      cases stepped
      exact ⟨⟨scope.held, scope.value⟩, task.start next⟩
    · cases stepped
  | initContext =>
    simp only [PendingProxy.step] at stepped
    split at stepped
    · rename_i engine active
      rw [Option.ite_none_right_eq_some, Option.some.injEq] at stepped
      obtain ⟨running, rfl⟩ := stepped
      exact ⟨⟨scope.held, scope.value⟩, task.advance running (by simp) (by simp) (by simp)⟩
    · cases stepped
  | signal =>
    simp only [PendingProxy.step] at stepped
    split at stepped
    · rename_i engine active
      rw [Option.ite_none_right_eq_some, Option.some.injEq] at stepped
      obtain ⟨initialized, rfl⟩ := stepped
      have moved : TaskInv (s.task engine .signalled) := task.advance initialized (by simp) (by simp) (by simp)
      exact ⟨⟨scope.held, scope.value⟩, moved.congr rfl rfl rfl⟩
    · cases stepped
  | createProxyConfigService engine =>
    simp only [PendingProxy.step, Option.ite_none_right_eq_some, Option.some.injEq] at stepped
    obtain ⟨_, rfl⟩ := stepped
    exact ⟨scope, task⟩

theorem PendingInv.given_own {label : PendingProxyLabel ι} {asked : ι × ProxyConfigService κ} (inv : PendingInv config s)
    (stepped : s.step config label = some t) (member : asked ∈ s.given label) : asked.2 = service (config asked.1) := by
  cases label with
  | createProxyConfigService engine =>
    simp only [PendingProxy.step, Option.ite_none_right_eq_some] at stepped
    rw [given, List.mem_singleton] at member
    subst member
    exact congrArg service (inv.scope.pending_own (inv.task.building_of_asks stepped.1))
  | _ => cases member

/-- Every engine is given its own configuration, and there is none to be given while none is built. -/
theorem pending_proxy_own (labels : List (PendingProxyLabel ι)) (s : PendingProxy ι κ)
    (ran : (machine config).run initial labels = some s) :
    (∀ asked ∈ (machine config).outputs given initial labels, asked.2 = service (config asked.1)) ∧
      ((∀ engine, (s.builders engine).building = false) → s.pending = none) := by
  have kept : PendingInv config s ∧
      ∀ asked ∈ (machine config).outputs given initial labels, asked.2 = service (config asked.1) := by
    refine Machine.output_invariant
      (fun (past : List (ι × ProxyConfigService κ)) s =>
        PendingInv config s ∧ ∀ asked ∈ past, asked.2 = service (config asked.1))
      ⟨⟨scopeInv_initial, taskInv_initial⟩, fun _ member => absurd member List.not_mem_nil⟩ ?_ ran
    intro past a label b ⟨inv, own⟩ stepped
    refine ⟨inv.step stepped, fun asked member => ?_⟩
    rcases List.mem_append.mp member with before | now
    · exact own asked before
    · exact inv.given_own stepped now
  exact ⟨kept.2, kept.1.scope.pending_empty⟩

theorem pending_proxy_own_two :
    ∃ s : PendingProxy Nat Nat,
      (machine fun engine => if engine = 0 then some 8080 else none).run initial
        [.acquire 0, .store 0, .construct 0, .post 0, .startTask, .createProxyConfigService 0, .initContext, .signal,
          .wake 0, .clear 0, .release 0, .acquire 1, .store 1, .construct 1, .createProxyConfigService 1] = some s ∧
      (machine fun engine => if engine = 0 then some 8080 else none).outputs given initial
        [.acquire 0, .store 0, .construct 0, .post 0, .startTask, .createProxyConfigService 0, .initContext, .signal,
          .wake 0, .clear 0, .release 0, .acquire 1, .store 1, .construct 1, .createProxyConfigService 1] =
        [((0 : Nat), ProxyConfigService.fixed 8080), (1, .system)] ∧
      ∀ asked ∈ [((0 : Nat), ProxyConfigService.fixed 8080), (1, .system)],
        asked.2 = service (if asked.1 = 0 then some 8080 else none) := by
  have own := (@pending_proxy_own Nat Nat _ (fun engine => if engine = 0 then some 8080 else none)
    [.acquire 0, .store 0, .construct 0, .post 0, .startTask, .createProxyConfigService 0, .initContext, .signal,
      .wake 0, .clear 0, .release 0, .acquire 1, .store 1, .construct 1, .createProxyConfigService 1] _ rfl).1
  exact ⟨_, rfl, rfl, own⟩

end PendingProxy

end Cronet.Native
