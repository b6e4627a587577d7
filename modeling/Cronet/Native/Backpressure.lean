import Cronet.Native.Teardown

namespace Cronet.Native

/-- The permission to read is a token: with it somewhere, there is room for one more chunk;
    while the body is paused nobody has it. -/
structure Flow (tokens : Nat) (b : Body) : Prop where
  single : tokens ≤ 1
  paused : b.readPaused = true → tokens = 0
  room : 0 < tokens → b.unread.length < kHighWaterBytes
  bound : b.unread.length < kHighWaterBytes + kReadBufferSize
  wellFormed : b.WellFormed

namespace Flow

theorem fewer {tokens fewer : Nat} {b : Body} (flow : Flow tokens b) (le : fewer ≤ tokens) : Flow fewer b where
  single := Nat.le_trans le flow.single
  paused paused := Nat.le_zero.mp (flow.paused paused ▸ le)
  room some := flow.room (Nat.lt_of_lt_of_le some le)
  bound := flow.bound
  wellFormed := flow.wellFormed

theorem complete {tokens : Nat} {b : Body} (flow : Flow tokens b) : Flow tokens b.complete where
  single := flow.single
  paused paused := by simp [Body.complete] at paused
  room := flow.room
  bound := flow.bound
  wellFormed := flow.wellFormed

theorem read {tokens capacity : Nat} {b : Body} (flow : Flow tokens b) (positive : 0 < capacity) :
    Flow (if (b.read capacity).2.1 then tokens + 1 else tokens) (b.read capacity).2.2 := by
  have spec := Body.read_spec b positive
  have shorter : (b.read capacity).2.2.unread.length ≤ b.unread.length := by
    rw [spec.unread, List.length_drop]
    omega
  by_cases resume : (b.read capacity).2.1 = true
  · obtain ⟨wasPaused, notPaused, low⟩ := spec.resumed resume
    have none_out := flow.paused wasPaused
    simp only [resume, ↓reduceIte, none_out]
    refine ⟨Nat.le_refl 1, ?_, ?_, Nat.lt_of_le_of_lt shorter flow.bound, spec.wellFormed flow.wellFormed⟩
    · intro paused
      simp [notPaused] at paused
    · intro _
      exact Nat.lt_of_le_of_lt low (by decide)
  · have stays := Bool.eq_false_iff.mpr resume
    simp only [stays, Bool.false_eq_true, ↓reduceIte]
    refine ⟨flow.single, ?_, fun some => Nat.lt_of_le_of_lt shorter (flow.room some),
      Nat.lt_of_le_of_lt shorter flow.bound, spec.wellFormed flow.wellFormed⟩
    intro paused
    exact flow.paused ((spec.paused stays).symm.trans paused)

theorem onData {b : Body} {chunk : Bytes} (flow : Flow 1 b) (fits : chunk.length ≤ kReadBufferSize) :
    Flow (if (b.onData chunk).1 then 1 else 0) (b.onData chunk).2 := by
  have room := flow.room Nat.one_pos
  have longer := congrArg List.length (Body.onData_unread chunk flow.wellFormed.1)
  rw [List.length_append] at longer
  have wf := Body.onData_wellFormed chunk flow.wellFormed
  have keep : (b.onData chunk).1 = decide ((b.onData chunk).2.unread.length < kHighWaterBytes) := by
    rw [Body.unread_length]
    rfl
  by_cases keeps : (b.onData chunk).1 = true
  · simp only [keeps, ↓reduceIte]
    rw [keeps, eq_comm, decide_eq_true_eq] at keep
    refine ⟨Nat.le_refl 1, ?_, fun _ => keep, by omega, wf⟩
    intro paused
    have reading : (b.onData chunk).2.readPaused = !(b.onData chunk).1 := rfl
    simp [reading, keeps] at paused
  · have stops := Bool.eq_false_iff.mpr keeps
    simp only [stops, Bool.false_eq_true, ↓reduceIte]
    exact ⟨Nat.zero_le 1, fun _ => rfl, fun none => absurd none (Nat.lt_irrefl 0), by omega, wf⟩

end Flow

theorem Body.onData_stops {b : Body} {chunk : Bytes} (stops : (b.onData chunk).1 = false) :
    (b.onData chunk).2.readPaused = true ∧ kHighWaterBytes ≤ (b.onData chunk).2.unread.length := by
  rw [unread_length]
  simp only [onData, decide_eq_false_iff_not, Nat.not_lt, Bool.not_eq_eq_eq_not, Bool.not_true] at stops ⊢
  exact ⟨stops, stops⟩

namespace Call

def queued (c : Call) : Nat := (c.request.posted.drop c.request.ran).count .readData

def outstanding (c : Call) : Nat := c.queued + c.request.reading

def committed (c : Call) : Nat := c.resuming + c.net.count .readData

def tokens (c : Call) : Nat := c.outstanding + c.committed

structure FlowInv (c : Call) : Prop where
  flow : Flow c.tokens c.shared.body
  before : c.request.phase = .idle ∨ c.request.phase = .running ∨ c.request.phase = .holding →
    c.tokens = 0 ∧ c.shared.body.unread = [] ∧ c.shared.body.readPaused = false
  flowing : c.request.phase = .body → c.shared.outcomeClaimed = false → c.shared.destroyRequested = false →
    0 < c.tokens ∨ (c.shared.body.readPaused = true ∧ kLowWaterBytes < c.shared.body.unread.length)
  noData : ∀ chunk, NetOp.onData chunk ∉ c.net
  completing : NetOp.completeBody ∈ c.net → c.shared.outcomeClaimed = true
  ran : c.request.ran ≤ c.request.posted.length

theorem queued_post {c : Call} (tasks : List Task) (ran : c.request.ran ≤ c.request.posted.length) :
    (c.post tasks).queued = c.queued + tasks.count .readData := by
  simp only [queued, post, UrlRequest.post, List.drop_append_of_le_length ran, List.count_append]

theorem queued_next {r : UrlRequest} {task : Task} (next : r.posted[r.ran]? = some task) :
    r.ran < r.posted.length ∧ r.posted.drop r.ran = task :: r.posted.drop (r.ran + 1) := by
  obtain ⟨within, rfl⟩ := List.getElem?_eq_some_iff.mp next
  exact ⟨within, List.drop_eq_getElem_cons within⟩

theorem perform_readData {c : Call} {rest : List NetOp} (ran : c.request.ran ≤ c.request.posted.length) :
    (c.perform (.readData :: rest)).tokens + 1 =
      tokens { c with net := .readData :: rest } + if c.shared.mayPost then 1 else 0 := by
  have queued := queued_post c.shared.readData ran
  simp only [tokens, outstanding, committed, perform, exec, post, UrlRequest.post, CallState.readData] at *
  simp only [Call.queued] at *
  split <;> simp_all <;> omega

theorem exec_tokens {c : Call} {op : NetOp} (rest : List NetOp) (ran : c.request.ran ≤ c.request.posted.length)
    (notRead : op ≠ .readData) (notData : ∀ chunk, op ≠ .onData chunk) :
    (c.perform (op :: rest)).tokens = tokens { c with net := op :: rest } := by
  have posts := fun tasks => queued_post (c := c) tasks ran
  cases op with
  | readData => exact absurd rfl notRead
  | onData chunk => exact absurd rfl (notData chunk)
  | followRedirect =>
    have plain : c.shared.followRedirect.count .readData = 0 := by
      unfold CallState.followRedirect
      split <;> simp
    have same := posts c.shared.followRedirect
    simp [tokens, outstanding, committed, perform, exec, post, UrlRequest.post, queued, plain] at same ⊢
    omega
  | destroyRequest flag =>
    have plain : (c.shared.destroyRequest flag).2.count .readData = 0 := by
      unfold CallState.destroyRequest
      split <;> simp
    have same := posts (c.shared.destroyRequest flag).2
    simp [tokens, outstanding, committed, perform, exec, destroyRequest, post, UrlRequest.post, queued, plain] at same ⊢
    omega
  | claimOutcome code message =>
    simp only [tokens, outstanding, queued, committed, perform, exec]
    split <;> simp [finishStores]
  | publishUnpublished =>
    simp only [tokens, outstanding, queued, committed, perform, exec]
    split <;> simp
  | _ => simp [tokens, outstanding, queued, committed, perform, exec]

theorem exec_body {c : Call} {op : NetOp} (notData : ∀ chunk, op ≠ .onData chunk) (notComplete : op ≠ .completeBody) :
    (c.exec op).1.shared.body = c.shared.body := by
  cases op with
  | onData chunk => exact absurd rfl (notData chunk)
  | completeBody => exact absurd rfl notComplete
  | destroyRequest flag =>
    simp only [exec, destroyRequest, CallState.destroyRequest]
    split <;> rfl
  | claimOutcome code message => simp only [exec]; split <;> rfl
  | publishUnpublished => simp only [exec]; split <;> rfl
  | setMetrics metrics => simp only [exec, CallState.setMetrics]; split <;> rfl
  | _ => rfl

theorem exec_pushes (c : Call) (op : NetOp) :
    (∀ chunk, NetOp.onData chunk ∉ (c.exec op).2) ∧
      (NetOp.completeBody ∈ (c.exec op).2 → (c.exec op).1.shared.outcomeClaimed = true) := by
  cases op <;> simp only [exec, finishStores] <;> (try split) <;> simp

theorem exec_keeps_claimed {c : Call} (op : NetOp) (claimed : c.shared.outcomeClaimed = true) :
    (c.exec op).1.shared.outcomeClaimed = true := by
  cases op with
  | destroyRequest flag =>
    simp only [exec, destroyRequest, CallState.destroyRequest]
    split <;> exact claimed
  | claimOutcome code message => simp [exec, claimed]
  | publishUnpublished => simp only [exec]; split <;> exact claimed
  | setMetrics metrics => simp only [exec, CallState.setMetrics]; split <;> exact claimed
  | _ => exact claimed

theorem exec_ran {c : Call} (op : NetOp) (ran : c.request.ran ≤ c.request.posted.length) :
    (c.exec op).1.request.ran ≤ (c.exec op).1.request.posted.length := by
  obtain ⟨more, grown⟩ := exec_posted c op
  have same : (c.exec op).1.request.ran = c.request.ran := by
    cases op <;> simp only [exec] <;> (try split) <;> rfl
  rw [same, grown, List.length_append]
  omega

theorem perform_tokens {c : Call} {op : NetOp} {rest : List NetOp} (ran : c.request.ran ≤ c.request.posted.length)
    (notData : ∀ chunk, op ≠ .onData chunk) :
    (c.perform (op :: rest)).tokens ≤ tokens { c with net := op :: rest } ∧
      (c.shared.mayPost = true → (c.perform (op :: rest)).tokens = tokens { c with net := op :: rest }) := by
  by_cases isRead : op = .readData
  · subst isRead
    have moved := @perform_readData c rest ran
    constructor
    · split at moved <;> omega
    · intro may
      simp only [may, ↓reduceIte] at moved
      omega
  · have same := exec_tokens rest ran isRead notData
    exact ⟨Nat.le_of_eq same, fun _ => same⟩

theorem FlowInv.perform {c : Call} {ops : List NetOp} (inv : FlowInv { c with net := ops })
    (attached : c.shared.hasRequest = true ∨ c.shared.destroyRequested = true) : FlowInv (c.perform ops) := by
  cases ops with
  | nil => exact inv
  | cons op rest =>
    have notData : ∀ chunk, op ≠ .onData chunk := fun chunk same => inv.noData chunk (by simp [same])
    have ran : c.request.ran ≤ c.request.posted.length := inv.ran
    obtain ⟨le, keeps⟩ := perform_tokens ran notData
    have phase : (c.perform (op :: rest)).request.phase = c.request.phase := exec_phase c op
    have pushes := exec_pushes c op
    have body : (op = .completeBody ∧ (c.perform (op :: rest)).shared.body = c.shared.body.complete) ∨
        (c.perform (op :: rest)).shared.body = c.shared.body := by
      by_cases done : op = .completeBody
      · subst done
        exact .inl ⟨rfl, rfl⟩
      · exact .inr (exec_body notData done)
    refine ⟨?_, ?_, ?_, ?_, ?_, exec_ran op ran⟩
    · have flow := inv.flow.fewer le
      rcases body with ⟨_, done⟩ | same
      · rw [done]
        exact flow.complete
      · rwa [same]
    · intro early
      rw [phase] at early
      obtain ⟨none_out, drained, unpaused⟩ := inv.before early
      refine ⟨Nat.le_zero.mp (none_out ▸ le), ?_⟩
      rcases body with ⟨_, done⟩ | same
      · rw [done]
        exact ⟨drained, rfl⟩
      · rw [same]
        exact ⟨drained, unpaused⟩
    · intro inBody unclaimed live
      rw [phase] at inBody
      have wasUnclaimed : c.shared.outcomeClaimed = false := by
        by_contra claimed
        have still := exec_keeps_claimed (c := c) op (by simpa using claimed)
        exact Bool.noConfusion (unclaimed.symm.trans still)
      have wasLive : c.shared.destroyRequested = false := by
        by_contra requested
        have still := exec_keeps_destroyRequested (c := c) op (by simpa using requested)
        exact Bool.noConfusion (live.symm.trans still)
      have has : c.shared.hasRequest = true := by simpa [wasLive] using attached
      rw [keeps (CallState.mayPost_iff.mpr ⟨has, wasLive⟩)]
      rcases body with ⟨rfl, _⟩ | same
      · have claimed := inv.completing (by simp)
        simp [wasUnclaimed] at claimed
      · rw [same]
        exact inv.flowing inBody wasUnclaimed wasLive
    · intro chunk member
      rcases List.mem_append.mp member with pushed | later
      · exact pushes.1 chunk pushed
      · exact inv.noData chunk (List.mem_cons_of_mem _ later)
    · intro member
      rcases List.mem_append.mp member with pushed | later
      · exact pushes.2 pushed
      · exact exec_keeps_claimed op (inv.completing (List.mem_cons_of_mem _ later))

theorem flowInv_initial (url : String) (maxRedirects : Int) : FlowInv (initial url maxRedirects) where
  flow := ⟨Nat.zero_le 1, fun _ => rfl, fun _ => (by decide : 0 < kHighWaterBytes),
    (by decide : 0 < kHighWaterBytes + kReadBufferSize), Body.initial_wellFormed⟩
  before _ := ⟨rfl, rfl, rfl⟩
  flowing inBody := by simp [initial, UrlRequest.initial] at inBody
  noData _ := List.not_mem_nil
  completing member := absurd member List.not_mem_nil
  ran := Nat.le_refl 0

theorem tokens_post {c : Call} {tasks : List Task} (ran : c.request.ran ≤ c.request.posted.length)
    (plain : tasks.count .readData = 0) : (c.post tasks).tokens = c.tokens := by
  have same := queued_post tasks ran
  simp only [tokens, outstanding, committed, same, plain]
  rfl

theorem FlowInv.post {c : Call} {tasks : List Task} (inv : FlowInv c) (plain : tasks.count .readData = 0) :
    FlowInv (c.post tasks) := by
  have same := tokens_post inv.ran plain
  refine ⟨same ▸ inv.flow, fun early => same ▸ inv.before early, fun inBody => same ▸ inv.flowing inBody, inv.noData,
    inv.completing, ?_⟩
  have ran := inv.ran
  simp only [Call.post, UrlRequest.post, List.length_append]
  omega

theorem FlowInv.cancel {c : Call} (inv : FlowInv c) : FlowInv c.cancel := by
  unfold Call.cancel destroyRequest CallState.destroyRequest
  split
  · have posted := @FlowInv.post c [.destroy true] inv rfl
    exact ⟨posted.flow, posted.before, fun _ _ live => Bool.noConfusion live, posted.noData, posted.completing,
      posted.ran⟩
  · exact @FlowInv.post c [] inv rfl

theorem FlowInv.read {c : Call} {capacity : Nat} (inv : FlowInv c) (positive : 0 < capacity) :
    FlowInv (c.read capacity) := by
  have spec := Body.read_spec c.shared.body positive
  have moved : (c.read capacity).tokens =
      if (c.shared.body.read capacity).2.1 then c.tokens + 1 else c.tokens := by
    simp only [tokens, outstanding, queued, committed, Call.read]
    split <;> omega
  refine ⟨?_, ?_, ?_, inv.noData, inv.completing, inv.ran⟩
  · rw [moved]
    exact inv.flow.read positive
  · intro early
    obtain ⟨none_out, drained, unpaused⟩ := inv.before early
    have stays : (c.shared.body.read capacity).2.1 = false := by
      by_contra resumes
      have paused := (spec.resumed (by simpa using resumes)).1
      exact Bool.noConfusion (unpaused.symm.trans paused)
    simp only [stays, Bool.false_eq_true, ↓reduceIte] at moved
    refine ⟨moved.trans none_out, ?_, (spec.paused stays).trans unpaused⟩
    change (c.shared.body.read capacity).2.2.unread = []
    rw [spec.unread, drained, List.drop_nil]
  · intro inBody unclaimed live
    by_cases resumes : (c.shared.body.read capacity).2.1 = true
    · simp only [resumes, ↓reduceIte] at moved
      exact .inl (by omega)
    · have stays := Bool.eq_false_iff.mpr resumes
      simp only [stays, Bool.false_eq_true, ↓reduceIte] at moved
      refine (inv.flowing inBody unclaimed live).imp (fun some => by omega) fun ⟨paused, held⟩ => ?_
      have nonempty : c.shared.body.unread ≠ [] := fun drained => by simp [drained] at held
      have still := (spec.paused stays).trans paused
      exact ⟨still, spec.drained nonempty still⟩

theorem FlowInv.resume {c : Call} (inv : FlowInv c) (teardown : TeardownInv c) (owed : 0 < c.resuming) :
    FlowInv { c.post c.shared.readData with resuming := c.resuming - 1 } := by
  have posted := queued_post c.shared.readData inv.ran
  have moved : tokens { c.post c.shared.readData with resuming := c.resuming - 1 } + 1 =
      c.tokens + if c.shared.mayPost then 1 else 0 := by
    simp only [tokens, outstanding, committed, Call.post, UrlRequest.post, CallState.readData, queued] at *
    split <;> simp_all <;> omega
  have le : tokens { c.post c.shared.readData with resuming := c.resuming - 1 } ≤ c.tokens := by
    split at moved <;> omega
  refine ⟨inv.flow.fewer le, ?_, ?_, inv.noData, inv.completing, ?_⟩
  · intro early
    obtain ⟨none_out, rest⟩ := inv.before early
    exact ⟨Nat.le_zero.mp (none_out ▸ le), rest⟩
  · intro inBody unclaimed live
    have has : c.shared.hasRequest = true := by
      simpa [show c.shared.destroyRequested = false from live] using
        teardown.attached (teardown.attached_of_busy (.inr (.inr owed)))
    simp only [CallState.mayPost_iff.mpr ⟨has, live⟩, ↓reduceIte] at moved
    rw [Nat.succ.inj moved]
    exact inv.flowing inBody unclaimed live
  · have ran := inv.ran
    simp only [Call.post, UrlRequest.post, List.length_append]
    omega

theorem FlowInv.enter {c : Call} {request : UrlRequest} {observer : RequestObserver} {ops : List NetOp}
    (inv : FlowInv c) (le : tokens { c with request, observer, net := ops } ≤ c.tokens)
    (before : request.phase = .idle ∨ request.phase = .running ∨ request.phase = .holding →
      c.request.phase = .idle ∨ c.request.phase = .running ∨ c.request.phase = .holding)
    (same : request.phase = .body →
      c.request.phase = .body ∧ tokens { c with request, observer, net := ops } = c.tokens)
    (noData : ∀ chunk, NetOp.onData chunk ∉ ops) (noComplete : NetOp.completeBody ∉ ops)
    (ran : request.ran ≤ request.posted.length) : FlowInv { c with request, observer, net := ops } where
  flow := inv.flow.fewer le
  before early := by
    obtain ⟨none_out, rest⟩ := inv.before (before early)
    exact ⟨Nat.le_zero.mp (none_out ▸ le), rest⟩
  flowing inBody unclaimed live := by
    obtain ⟨wasBody, kept⟩ := same inBody
    rw [kept]
    exact inv.flowing wasBody unclaimed live
  noData := noData
  completing member := absurd member noComplete
  ran := ran

/-- A task runs: a read goes from queued to running, any other task leaves the reads alone. -/
structure TaskSpec (r : UrlRequest) (ran : UrlRequest × List NetOp) : Prop where
  posted : ran.1.posted = r.posted
  within : ran.1.ran ≤ r.posted.length
  reads : (r.posted.drop ran.1.ran).count .readData + ran.1.reading = (r.posted.drop r.ran).count .readData + r.reading
  phase : ran.1.phase = r.phase ∨ ran.1.phase = .dead ∨
    ((r.phase = .idle ∨ r.phase = .holding) ∧ ran.1.phase = .running)
  noData : ∀ chunk, NetOp.onData chunk ∉ ran.2
  noRead : NetOp.readData ∉ ran.2
  noComplete : NetOp.completeBody ∉ ran.2
  follows : (r.posted.drop ran.1.ran).count .followDeferredRedirect ≤
    (r.posted.drop r.ran).count .followDeferredRedirect
  released : r.phase = .holding → ran.1.phase = .running →
    (r.posted.drop ran.1.ran).count .followDeferredRedirect < (r.posted.drop r.ran).count .followDeferredRedirect
  noFollow : NetOp.followRedirect ∉ ran.2
  silent : ran.1.phase ≠ .dead → ran.2 = []

theorem task_spec {r : UrlRequest} {metrics : Option Metrics} {ran : UrlRequest × List NetOp}
    (done : r.runTask metrics = some ran) : TaskSpec r ran := by
  have posted := UrlRequest.runTask_posted done
  unfold UrlRequest.runTask at done
  split at done
  · cases done
  dsimp only at done
  split at done
  · cases done
  all_goals
    rename_i next
    obtain ⟨within, tail⟩ := queued_next next
    have advanced : r.ran + 1 ≤ r.posted.length := within
    cases done
  · split <;> constructor <;> simp_all
  · constructor <;> simp_all
    exact Nat.add_right_comm _ _ 1
  · split <;> constructor <;> simp_all
  · rename_i flag _
    cases metrics <;> cases flag <;> constructor <;>
      simp_all [RequestObserver.onMetricsCollected, RequestObserver.onCanceled, RequestObserver.onDestroyed]

theorem FlowInv.task {c : Call} {metrics : Option Metrics} {ran : UrlRequest × List NetOp} (inv : FlowInv c)
    (idle : c.net = []) (done : c.request.runTask metrics = some ran) :
    FlowInv { c with request := ran.1, net := ran.2 } := by
  have spec := task_spec done
  have same : tokens { c with request := ran.1, net := ran.2 } = c.tokens := by
    have reads := spec.reads
    simp only [tokens, outstanding, queued, committed, idle, spec.posted, List.count_nil,
      List.count_eq_zero.mpr spec.noRead]
    omega
  refine inv.enter (Nat.le_of_eq same) ?_ (fun inBody => ⟨?_, same⟩) spec.noData spec.noComplete
    (spec.posted ▸ spec.within)
  · rcases spec.phase with kept | dead | ⟨from_idle | from_holding, _⟩ <;> simp_all
  · rcases spec.phase with kept | dead | ⟨_, running⟩ <;> simp_all

theorem FlowInv.responseStarted {c : Call} {head : ResponseHead} (inv : FlowInv c) (idle : c.net = [])
    (running : c.request.phase = .running) :
    FlowInv { c with request.phase := .body, net := c.observer.onResponseStarted head } := by
  obtain ⟨none_out, drained, unpaused⟩ := inv.before (.inr (.inl running))
  have one : tokens { c with request.phase := .body, net := c.observer.onResponseStarted head } = 1 := by
    simp only [tokens, outstanding, queued, committed, idle, List.count_nil] at none_out
    simp [tokens, outstanding, queued, committed, RequestObserver.onResponseStarted, RequestObserver.responseOps]
    omega
  refine ⟨?_, ?_, fun _ _ _ => .inl (one ▸ Nat.one_pos), ?_, ?_, inv.ran⟩
  · rw [one]
    refine ⟨Nat.le_refl 1, ?_, ?_, inv.flow.bound, inv.flow.wellFormed⟩
    · intro paused
      exact Bool.noConfusion (unpaused.symm.trans paused)
    · intro _
      simp only [drained]
      decide
  · intro early
    simp at early
  · simp [RequestObserver.onResponseStarted, RequestObserver.responseOps]
  · simp [RequestObserver.onResponseStarted, RequestObserver.responseOps]

theorem FlowInv.readCompleted {c : Call} {chunk : Bytes} (inv : FlowInv c) (idle : c.net = [])
    (inBody : c.request.phase = .body) (reading : 0 < c.request.reading) (fits : chunk.length ≤ kReadBufferSize) :
    FlowInv ({ c with request.reading := c.request.reading - 1 }.perform [.onData chunk]) := by
  have had := inv.flow.single
  have moved : tokens ({ c with request.reading := c.request.reading - 1 }.perform [.onData chunk]) =
      if (c.shared.body.onData chunk).1 then 1 else 0 := by
    simp only [tokens, outstanding, queued, committed, idle, List.count_nil, Call.perform, exec] at had ⊢
    split <;> simp <;> omega
  have one : c.tokens = 1 := by
    simp only [tokens, outstanding] at had ⊢
    omega
  have flow : Flow (if (c.shared.body.onData chunk).1 then 1 else 0) (c.shared.body.onData chunk).2 :=
    Flow.onData (one ▸ inv.flow) fits
  refine ⟨?_, ?_, ?_, ?_, ?_, inv.ran⟩
  · rw [moved]
    exact flow
  · intro early
    simp [Call.perform, exec, inBody] at early
  · intro _ _ _
    rw [moved]
    by_cases keeps : (c.shared.body.onData chunk).1 = true
    · exact .inl (by simp [keeps])
    · obtain ⟨paused, full⟩ := Body.onData_stops (Bool.eq_false_iff.mpr keeps)
      exact .inr ⟨paused, Nat.lt_of_lt_of_le (by decide) full⟩
  · intro other
    simp only [Call.perform, exec]
    split <;> simp
  · intro member
    simp only [Call.perform, exec] at member
    split at member <;> simp at member

theorem FlowInv.receive {c : Call} {cb : Callback} {next : UrlRequest} (inv : FlowInv c) (idle : c.net = [])
    (attached : c.shared.hasRequest = true ∨ c.shared.destroyRequested = true)
    (accepted : c.request.accepts cb = some next) : FlowInv (c.receive cb next) := by
  cases cb with
  | onReceivedRedirect location head =>
    simp only [UrlRequest.accepts, Option.ite_none_right_eq_some, Option.some.injEq] at accepted
    obtain ⟨running, rfl⟩ := accepted
    refine FlowInv.perform (inv.enter ?_ (fun _ => .inr (.inl running)) (by simp) ?_ ?_ inv.ran) attached
    all_goals
      simp only [tokens, outstanding, queued, committed, idle, callbackOps, RequestObserver.onReceivedRedirect,
        RequestObserver.responseOps]
      split
      · split <;> simp
      · simp
  | onResponseStarted head =>
    simp only [UrlRequest.accepts, Option.ite_none_right_eq_some, Option.some.injEq] at accepted
    obtain ⟨running, rfl⟩ := accepted
    exact FlowInv.perform (inv.responseStarted idle running) attached
  | onReadCompleted chunk =>
    simp only [UrlRequest.accepts, Option.ite_none_right_eq_some, Option.some.injEq] at accepted
    obtain ⟨⟨inBody, reading, fits⟩, rfl⟩ := accepted
    exact inv.readCompleted idle inBody reading fits
  | onSucceeded | onError =>
    simp only [UrlRequest.accepts, Option.ite_none_right_eq_some, Option.some.injEq] at accepted
    obtain ⟨_, rfl⟩ := accepted
    refine FlowInv.perform (inv.enter ?_ (by simp) (by simp) ?_ ?_ inv.ran) attached
    · simp [tokens, outstanding, queued, committed, idle, callbackOps, RequestObserver.onSucceeded,
        RequestObserver.onError]
    all_goals simp [callbackOps, RequestObserver.onSucceeded, RequestObserver.onError]
  | onMetricsCollected metrics =>
    simp only [UrlRequest.accepts, Option.ite_none_left_eq_some, Option.some.injEq] at accepted
    obtain ⟨_, rfl⟩ := accepted
    have same : tokens { c with net := RequestObserver.onMetricsCollected metrics } = c.tokens := by
      simp [tokens, outstanding, queued, committed, idle, RequestObserver.onMetricsCollected]
    refine FlowInv.perform (inv.enter (Nat.le_of_eq same) id (fun inBody => ⟨inBody, same⟩) ?_ ?_ inv.ran) attached
    all_goals simp [callbackOps, RequestObserver.onMetricsCollected]

theorem FlowInv.step {c d : Call} {label : Label} (inv : FlowInv c) (teardown : TeardownInv c)
    (stepped : c.step label = some d) : FlowInv d := by
  have attached := fun busy => teardown.attached (teardown.attached_of_busy busy)
  cases label with
  | rejectUrl | registerCall | construct | attachRequest | drain =>
    simp only [Call.step, Option.ite_none_right_eq_some, Option.some.injEq] at stepped
    obtain ⟨_, rfl⟩ := stepped
    exact ⟨inv.flow, inv.before, inv.flowing, inv.noData, inv.completing, inv.ran⟩
  | start =>
    simp only [Call.step, Option.ite_none_right_eq_some, Option.some.injEq] at stepped
    obtain ⟨_, rfl⟩ := stepped
    have posted := @FlowInv.post c [.start] inv rfl
    exact ⟨posted.flow, posted.before, posted.flowing, posted.noData, posted.completing, posted.ran⟩
  | cancel who =>
    simp only [Call.step, Option.ite_none_right_eq_some, Option.some.injEq] at stepped
    obtain ⟨_, rfl⟩ := stepped
    exact inv.cancel
  | read capacity ret =>
    simp only [Call.step, Option.ite_none_right_eq_some, Option.some.injEq] at stepped
    obtain ⟨⟨_, positive, _⟩, rfl⟩ := stepped
    exact inv.read positive
  | resume =>
    simp only [Call.step, Option.ite_none_right_eq_some, Option.some.injEq] at stepped
    obtain ⟨owed, rfl⟩ := stepped
    exact inv.resume teardown owed
  | op =>
    simp only [Call.step, Option.ite_none_left_eq_some, Option.some.injEq] at stepped
    obtain ⟨busy, rfl⟩ := stepped
    exact FlowInv.perform inv (attached (.inr (.inl busy)))
  | task metrics =>
    simp only [Call.step, Option.ite_none_right_eq_some, Option.map_eq_some_iff] at stepped
    obtain ⟨idle, ran, done, rfl⟩ := stepped
    exact FlowInv.perform (inv.task idle done) (attached (.inl (not_initial_of_runTask done)))
  | callback cb =>
    simp only [Call.step, Option.ite_none_right_eq_some, Option.map_eq_some_iff] at stepped
    obtain ⟨idle, next, accepted, rfl⟩ := stepped
    exact inv.receive idle (attached (.inl (not_initial_of_accepts accepted))) accepted

theorem flowInv_of_run {url : String} {maxRedirects : Int} {labels : List Label} {c : Call}
    (ran : machine.run (initial url maxRedirects) labels = some c) : FlowInv c :=
  Machine.history_invariant (fun _ => FlowInv) (flowInv_initial url maxRedirects)
    (fun _ _ _ _ before inv stepped => inv.step (teardownInv_of_run before) stepped) ran

/-- The response has started: from here a request goes on in its body, or is over and its
    outcome claimed, or has been destroyed. -/
def Responded (c : Call) : Prop :=
  c.request.phase = .body ∨ (c.request.phase = .ended ∧ c.shared.outcomeClaimed = true) ∨ c.request.phase = .dead

theorem Responded.perform {c : Call} {ops : List NetOp}
    (responded : Responded c ∨ (c.request.phase = .ended ∧ ∃ code message rest, ops = .claimOutcome code message :: rest)) :
    Responded (c.perform ops) := by
  rcases responded with responded | ⟨ended, code, message, rest, rfl⟩
  · cases ops with
    | nil => exact responded
    | cons op rest =>
      have phase : (c.perform (op :: rest)).request.phase = c.request.phase := exec_phase c op
      unfold Responded
      rw [phase]
      exact responded.imp_right (Or.imp_left fun ⟨ended, claimed⟩ => ⟨ended, exec_keeps_claimed op claimed⟩)
  · refine .inr (.inl ⟨(exec_phase c _).trans ended, ?_⟩)
    simp only [Call.perform, exec]
    split
    · assumption
    · rfl

theorem responded_receive {c : Call} {cb : Callback} {next : UrlRequest}
    (responded : Responded c ∨ ∃ head, cb = .onResponseStarted head) (accepted : c.request.accepts cb = some next) :
    Responded (c.receive cb next) := by
  unfold Call.receive
  apply Responded.perform
  cases cb with
  | onSucceeded | onError =>
    simp only [UrlRequest.accepts, Option.ite_none_right_eq_some, Option.some.injEq] at accepted
    obtain ⟨_, rfl⟩ := accepted
    exact .inr ⟨rfl, _, _, _, rfl⟩
  | onReceivedRedirect location head =>
    simp only [UrlRequest.accepts, Option.ite_none_right_eq_some, Option.some.injEq] at accepted
    obtain ⟨running, rfl⟩ := accepted
    simp [Responded, running] at responded
  | onResponseStarted head =>
    simp only [UrlRequest.accepts, Option.ite_none_right_eq_some, Option.some.injEq] at accepted
    obtain ⟨running, rfl⟩ := accepted
    exact .inl (.inl rfl)
  | onReadCompleted chunk =>
    simp only [UrlRequest.accepts, Option.ite_none_right_eq_some, Option.some.injEq] at accepted
    obtain ⟨⟨inBody, _⟩, rfl⟩ := accepted
    exact .inl (.inl inBody)
  | onMetricsCollected metrics =>
    simp only [UrlRequest.accepts, Option.ite_none_left_eq_some, Option.some.injEq] at accepted
    obtain ⟨_, rfl⟩ := accepted
    exact .inl (responded.resolve_right (by simp))

theorem Responded.step {c d : Call} {label : Label} (responded : Responded c) (stepped : c.step label = some d) :
    Responded d := by
  cases label with
  | rejectUrl | registerCall | construct | attachRequest | drain | start | read | resume =>
    simp only [Call.step, Option.ite_none_right_eq_some, Option.some.injEq] at stepped
    obtain ⟨_, rfl⟩ := stepped
    exact responded
  | cancel who =>
    simp only [Call.step, Option.ite_none_right_eq_some, Option.some.injEq] at stepped
    obtain ⟨_, rfl⟩ := stepped
    exact @Responded.perform c [.destroyRequest true] (.inl responded)
  | op =>
    simp only [Call.step, Option.ite_none_left_eq_some, Option.some.injEq] at stepped
    obtain ⟨_, rfl⟩ := stepped
    exact .perform (.inl responded)
  | task metrics =>
    simp only [Call.step, Option.ite_none_right_eq_some, Option.map_eq_some_iff] at stepped
    obtain ⟨_, ran, done, rfl⟩ := stepped
    refine .perform (.inl ?_)
    rcases (task_spec done).phase with kept | dead | ⟨early, _⟩
    · simpa only [Responded, kept] using responded
    · exact .inr (.inr dead)
    · rcases early with idle | holding <;> simp_all [Responded]
  | callback cb =>
    simp only [Call.step, Option.ite_none_right_eq_some, Option.map_eq_some_iff] at stepped
    obtain ⟨_, next, accepted, rfl⟩ := stepped
    exact responded_receive (.inl responded) accepted

theorem responded_of_run {url : String} {maxRedirects : Int} {labels : List Label} {c : Call}
    (ran : machine.run (initial url maxRedirects) labels = some c)
    (started : ∃ head, .callback (.onResponseStarted head) ∈ labels) : Responded c := by
  refine Machine.history_invariant
    (fun past a => (∃ head, .callback (.onResponseStarted head) ∈ past) → Responded a) ?_ ?_ ran started
  · rintro ⟨head, member⟩
    cases member
  · rintro past a label b - held stepped ⟨head, member⟩
    rcases List.mem_append.mp member with earlier | now
    · exact (held ⟨head, earlier⟩).step stepped
    · obtain rfl := List.mem_singleton.mp now
      have stepped : a.step (.callback (.onResponseStarted head)) = some b := stepped
      simp only [Call.step, Option.ite_none_right_eq_some, Option.map_eq_some_iff] at stepped
      obtain ⟨_, next, accepted, rfl⟩ := stepped
      exact responded_receive (.inr ⟨head, rfl⟩) accepted

/-- At most one network read at a time, a bounded body, and no stall. -/
theorem backpressure (url : String) (maxRedirects : Int) (labels : List Label) (c : Call)
    (ran : machine.run (initial url maxRedirects) labels = some c) :
    c.outstanding + c.committed ≤ 1 ∧
    c.shared.body.unread.length < kHighWaterBytes + kReadBufferSize ∧
    c.shared.body.body.length ≤ 2 * (kHighWaterBytes + kReadBufferSize) ∧
    ((∃ head, .callback (.onResponseStarted head) ∈ labels) → c.shared.outcomeClaimed = false →
      c.shared.destroyRequested = false →
      0 < c.outstanding + c.committed ∨
        (c.shared.body.readPaused = true ∧ kLowWaterBytes < c.shared.body.unread.length)) := by
  have inv := flowInv_of_run ran
  refine ⟨inv.flow.single, inv.flow.bound, ?_, ?_⟩
  · have size := inv.flow.wellFormed.size_bound
    have bound := inv.flow.bound
    omega
  · intro started unclaimed live
    rcases responded_of_run ran started with inBody | ⟨_, claimed⟩ | dead
    · exact inv.flowing inBody unclaimed live
    · simp [unclaimed] at claimed
    · have requested := (teardownInv_of_run ran).dead dead
      simp [live] at requested

/-- A response has started and its first read is about to be posted. -/
theorem backpressure_first_read :
    ∃ labels c, machine.run (initial "http://a/" 20) labels = some c ∧ c.net = [.readData] ∧
      c.outstanding + c.committed = 1 := by
  let head : ResponseHead := ⟨200, "OK", none, false, "h2", ""⟩
  have ran : machine.run (initial "http://a/" 20) [.registerCall true, .construct, .attachRequest, .start, .task none,
      .callback (.onResponseStarted head), .op, .op, .op] = some { (initial "http://a/" 20) with
        shared := { CallState.initial "http://a/" with
          completionFd := 1, state := .headers, headersPublished := true, hasRequest := true,
          response := (ResponseStorage.initial "http://a/").onResponse head }
        request := ⟨[.start], 1, .body, 0⟩
        net := [.readData], starter := .returned, registered := true } := by decide
  have flows := backpressure "http://a/" 20 _ _ ran
  refine ⟨_, _, ran, rfl, Nat.le_antisymm flows.1 ?_⟩
  exact (flows.2.2.2 ⟨head, by decide⟩ rfl rfl).resolve_right (by decide)

end Call

end Cronet.Native
