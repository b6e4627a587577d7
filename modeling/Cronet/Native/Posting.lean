import Cronet.Native.Teardown

namespace Cronet.Native

/-- What `CronetURLRequest` asks of whoever posts on it. -/
structure Disciplined (posted : List Task) : Prop where
  once : posted.countP Task.isDestroy ≤ 1
  last : ∀ pre sendOnCanceled post, posted = pre ++ .destroy sendOnCanceled :: post → ∀ task ∈ post, task.isDestroy

/-- What `lock_` keeps of the tasks posted under it. -/
def Guarded (destroyRequested : Bool) (posted : List Task) : Prop :=
  if destroyRequested then
    ∃ pre sendOnCanceled, posted = pre ++ [.destroy sendOnCanceled] ∧ ∀ task ∈ pre, task.isDestroy = false
  else ∀ task ∈ posted, task.isDestroy = false

theorem Guarded.disciplined {destroyRequested : Bool} {posted : List Task}
    (guarded : Guarded destroyRequested posted) : Disciplined posted := by
  unfold Guarded at guarded
  split at guarded
  · obtain ⟨pre, flag, rfl, clean⟩ := guarded
    have none_before : pre.countP Task.isDestroy = 0 := by simpa [List.countP_eq_zero] using clean
    constructor
    · simp [List.countP_append, none_before, Task.isDestroy]
    · intro first flag' post same task member
      rcases List.eq_nil_or_concat post with rfl | ⟨init, final, rfl⟩
      · cases member
      · have split : pre = first ++ .destroy flag' :: init := by
          have same' : pre ++ [.destroy flag] = (first ++ .destroy flag' :: init) ++ [final] := by simpa using same
          exact (List.append_inj_left' same' rfl)
        have bad := clean (.destroy flag') (by simp [split])
        simp [Task.isDestroy] at bad
  · constructor
    · have none_at_all : posted.countP Task.isDestroy = 0 := by simpa [List.countP_eq_zero] using guarded
      omega
    · intro pre flag post same task member
      have bad := guarded (.destroy flag) (by simp [same])
      simp [Task.isDestroy] at bad

theorem Guarded.post {s : CallState} {posted : List Task} {tasks : List Task}
    (guarded : Guarded s.destroyRequested posted) (allowed : tasks ≠ [] → s.mayPost = true)
    (plain : ∀ task ∈ tasks, task.isDestroy = false) : Guarded s.destroyRequested (posted ++ tasks) := by
  by_cases empty : tasks = []
  · simpa [empty] using guarded
  · have fresh : s.destroyRequested = false := by
      have := allowed empty
      simp only [CallState.mayPost, Bool.and_eq_true, Bool.not_eq_eq_eq_not, Bool.not_true] at this
      exact this.2
    simp only [Guarded, fresh, Bool.false_eq_true, ↓reduceIte] at guarded ⊢
    intro task member
    rcases List.mem_append.mp member with old | new
    · exact guarded task old
    · exact plain task new

theorem Guarded.destroy {s : CallState} {posted : List Task} (sendOnCanceled : Bool)
    (guarded : Guarded s.destroyRequested posted) :
    Guarded (s.destroyRequest sendOnCanceled).1.destroyRequested (posted ++ (s.destroyRequest sendOnCanceled).2) := by
  unfold CallState.destroyRequest
  split
  · rename_i allowed
    simp only [CallState.mayPost, Bool.and_eq_true, Bool.not_eq_eq_eq_not, Bool.not_true] at allowed
    simp only [Guarded, allowed.2, Bool.false_eq_true, ↓reduceIte] at guarded
    simp only [Guarded, ↓reduceIte]
    exact ⟨posted, sendOnCanceled, rfl, guarded⟩
  · simpa using guarded

namespace Call

def PostsGuarded (c : Call) : Prop := Guarded c.shared.destroyRequested c.request.posted

theorem postsGuarded_readData {c : Call} (guarded : c.PostsGuarded) : (c.post c.shared.readData).PostsGuarded := by
  refine Guarded.post (s := c.shared) guarded ?_ (readData_plain _)
  unfold CallState.readData
  split <;> simp_all

theorem postsGuarded_followRedirect {c : Call} (guarded : c.PostsGuarded) :
    (c.post c.shared.followRedirect).PostsGuarded := by
  refine Guarded.post (s := c.shared) guarded ?_ (followRedirect_plain _)
  unfold CallState.followRedirect
  split <;> simp_all

theorem postsGuarded_destroyRequest {c : Call} (sendOnCanceled : Bool) (guarded : c.PostsGuarded) :
    (c.destroyRequest sendOnCanceled).PostsGuarded :=
  Guarded.destroy sendOnCanceled guarded

theorem postsGuarded_exec {c : Call} (op : NetOp) (guarded : c.PostsGuarded) : (c.exec op).1.PostsGuarded := by
  cases op with
  | followRedirect => exact postsGuarded_followRedirect guarded
  | readData => exact postsGuarded_readData guarded
  | destroyRequest sendOnCanceled => exact postsGuarded_destroyRequest sendOnCanceled guarded
  | claimOutcome code message => simp only [exec]; split <;> exact guarded
  | publishUnpublished => simp only [exec]; split <;> exact guarded
  | setMetrics metrics => simp only [exec, CallState.setMetrics]; split <;> exact guarded
  | _ => exact guarded

theorem postsGuarded_perform {c : Call} (ops : List NetOp) (guarded : c.PostsGuarded) :
    (c.perform ops).PostsGuarded := by
  cases ops with
  | nil => exact guarded
  | cons op rest => exact postsGuarded_exec op guarded

theorem postsGuarded_request {c : Call} {request : UrlRequest} {observer : RequestObserver}
    (guarded : c.PostsGuarded) (same : request.posted = c.request.posted) :
    PostsGuarded { c with request, observer } := by
  unfold PostsGuarded at *
  simpa only [same] using guarded

/-- Until `request->Start()` nothing has been posted and no callback can come; a request not
    attached cannot be cancelled. -/
structure PostingInv (c : Call) : Prop where
  guarded : c.PostsGuarded
  fresh : c.starter ≠ .returned →
    c.request = .initial ∧ c.net = [] ∧ c.resuming = 0 ∧ c.shared.destroyRequested = false
  unattached : c.starter ≠ .attached → c.starter ≠ .returned → c.shared.hasRequest = false

/-- The sweep of `Engine::Destroy` does not reach a call between `AttachRequest` and `Start`. -/
def StartUndisturbed (c : Call) (label : Label) : Prop := ¬ (c.starter = .attached ∧ label = .cancel .engine)

theorem postingInv_initial (url : String) (maxRedirects : Int) : PostingInv (initial url maxRedirects) where
  guarded := by simp [PostsGuarded, Guarded, initial, UrlRequest.initial, CallState.initial]
  fresh _ := ⟨rfl, rfl, rfl, rfl⟩
  unattached _ _ := rfl

theorem PostingInv.returned_of_posted {c : Call} (inv : PostingInv c)
    (busy : c.request ≠ .initial ∨ c.net ≠ [] ∨ 0 < c.resuming) : c.starter = .returned := by
  by_contra early
  obtain ⟨request, net, resuming, _⟩ := inv.fresh early
  simp [request, net, resuming] at busy

theorem PostingInv.of_returned {c : Call} (guarded : c.PostsGuarded) (returned : c.starter = .returned) :
    PostingInv c :=
  ⟨guarded, fun early => absurd returned early, fun _ early => absurd returned early⟩

theorem PostingInv.cancel {c : Call} {who : Canceller} (inv : PostingInv c) (allowed : c.mayCancel who = true)
    (undisturbed : c.StartUndisturbed (.cancel who)) : PostingInv c.cancel := by
  by_cases returned : c.starter = .returned
  · exact .of_returned (postsGuarded_destroyRequest true inv.guarded) returned
  · have byEngine : who = .engine := by
      cases who with
      | engine => rfl
      | handle => simp [mayCancel, returned] at allowed
    have early : c.starter ≠ .attached := fun attached => undisturbed ⟨attached, by rw [byEngine]⟩
    have same : c.cancel = c := by
      simp [Call.cancel, destroyRequest, CallState.destroyRequest, CallState.mayPost,
        inv.unattached early returned, UrlRequest.post]
    rwa [same]

theorem PostingInv.start {c : Call} (inv : PostingInv c) (attached : c.starter = .attached) :
    PostingInv { c.post [.start] with starter := .returned } := by
  refine .of_returned ?_ rfl
  have fresh := inv.fresh (by simp [attached])
  simp [PostsGuarded, Guarded, post, UrlRequest.post, fresh.1, fresh.2.2.2, UrlRequest.initial, Task.isDestroy]

theorem PostingInv.step {c d : Call} {label : Label} (inv : PostingInv c)
    (undisturbed : c.StartUndisturbed label) (stepped : c.step label = some d) : PostingInv d := by
  cases label with
  | rejectUrl | registerCall | construct =>
    simp only [Call.step, Option.ite_none_right_eq_some, Option.some.injEq] at stepped
    obtain ⟨starter, rfl⟩ := stepped
    exact ⟨inv.guarded, fun _ => inv.fresh (by simp [starter]),
      fun _ _ => inv.unattached (by simp [starter]) (by simp [starter])⟩
  | attachRequest =>
    simp only [Call.step, Option.ite_none_right_eq_some, Option.some.injEq] at stepped
    obtain ⟨starter, rfl⟩ := stepped
    exact ⟨inv.guarded, fun _ => inv.fresh (by simp [starter]), fun early => absurd rfl early⟩
  | start =>
    simp only [Call.step, Option.ite_none_right_eq_some, Option.some.injEq] at stepped
    obtain ⟨attached, rfl⟩ := stepped
    exact inv.start attached
  | cancel who =>
    simp only [Call.step, Option.ite_none_right_eq_some, Option.some.injEq] at stepped
    obtain ⟨allowed, rfl⟩ := stepped
    exact inv.cancel allowed undisturbed
  | read capacity ret =>
    simp only [Call.step, Option.ite_none_right_eq_some, Option.some.injEq] at stepped
    obtain ⟨⟨returned, _⟩, rfl⟩ := stepped
    exact .of_returned inv.guarded returned
  | resume =>
    simp only [Call.step, Option.ite_none_right_eq_some, Option.some.injEq] at stepped
    obtain ⟨owed, rfl⟩ := stepped
    exact .of_returned (postsGuarded_readData inv.guarded) (inv.returned_of_posted (.inr (.inr owed)))
  | drain =>
    simp only [Call.step, Option.ite_none_right_eq_some, Option.some.injEq] at stepped
    obtain ⟨returned, rfl⟩ := stepped
    exact .of_returned inv.guarded returned
  | op =>
    simp only [Call.step, Option.ite_none_left_eq_some, Option.some.injEq] at stepped
    obtain ⟨busy, rfl⟩ := stepped
    exact .of_returned (postsGuarded_perform c.net inv.guarded)
      (by simpa using inv.returned_of_posted (.inr (.inl busy)))
  | task metrics =>
    simp only [Call.step, Option.ite_none_right_eq_some, Option.map_eq_some_iff] at stepped
    obtain ⟨_, ran, done, rfl⟩ := stepped
    have started := not_initial_of_runTask done
    exact .of_returned (postsGuarded_perform _ (postsGuarded_request inv.guarded (UrlRequest.runTask_posted done)))
      (by simpa using inv.returned_of_posted (.inl started))
  | callback cb =>
    simp only [Call.step, Option.ite_none_right_eq_some, Option.map_eq_some_iff] at stepped
    obtain ⟨_, next, accepted, rfl⟩ := stepped
    have started := not_initial_of_accepts accepted
    exact .of_returned (postsGuarded_perform _ (postsGuarded_request inv.guarded (UrlRequest.accepts_posted accepted)))
      (by simpa using inv.returned_of_posted (.inl started))

theorem postingInv_of_run {url : String} {maxRedirects : Int} {labels : List Label} {c : Call}
    (met : machine.Meets StartUndisturbed (initial url maxRedirects) labels)
    (ran : machine.run (initial url maxRedirects) labels = some c) : PostingInv c :=
  Machine.guarded_invariant (fun _ => PostingInv) (postingInv_initial url maxRedirects)
    (fun _ _ _ _ _ inv undisturbed stepped => inv.step undisturbed stepped) met ran

/-- A request destroyed before it was started: the `Start` still to come runs on it freed. -/
def Torn (c : Call) : Prop :=
  (c.starter = .attached ∧ ∃ flag, Task.destroy flag ∈ c.request.posted) ∨
    (c.starter = .returned ∧ ¬ Disciplined c.request.posted)

theorem Disciplined.of_append {first second : List Task} (disciplined : Disciplined (first ++ second)) :
    Disciplined first := by
  constructor
  · have once := disciplined.once
    rw [List.countP_append] at once
    omega
  · intro pre flag post same task member
    exact disciplined.last pre flag (post ++ second) (by simp [same]) task (List.mem_append_left _ member)

theorem not_disciplined_start {posted : List Task} (destroyed : ∃ flag, Task.destroy flag ∈ posted) :
    ¬ Disciplined (posted ++ [.start]) := by
  intro disciplined
  obtain ⟨flag, member⟩ := destroyed
  obtain ⟨pre, post, rfl⟩ := List.append_of_mem member
  have bad := disciplined.last pre flag (post ++ [.start]) (by simp) .start (by simp)
  simp [Task.isDestroy] at bad

theorem starter_step {c d : Call} {label : Label} (ready : c.starter = .attached ∨ c.starter = .returned)
    (stepped : c.step label = some d) :
    (label = .start ∧ c.starter = .attached ∧ d.starter = .returned) ∨ d.starter = c.starter := by
  cases label with
  | rejectUrl | registerCall | construct | attachRequest =>
    simp only [step, Option.ite_none_right_eq_some, Option.some.injEq] at stepped
    obtain ⟨starter, _⟩ := stepped
    simp [starter] at ready
  | start =>
    simp only [step, Option.ite_none_right_eq_some, Option.some.injEq] at stepped
    obtain ⟨attached, rfl⟩ := stepped
    exact .inl ⟨rfl, attached, rfl⟩
  | cancel | read | resume | drain =>
    simp only [step, Option.ite_none_right_eq_some, Option.some.injEq] at stepped
    obtain ⟨_, rfl⟩ := stepped
    exact .inr rfl
  | op =>
    simp only [step, Option.ite_none_left_eq_some, Option.some.injEq] at stepped
    obtain ⟨_, rfl⟩ := stepped
    exact .inr (perform_starter _ _)
  | task | callback =>
    simp only [step, Option.ite_none_right_eq_some, Option.map_eq_some_iff] at stepped
    obtain ⟨_, _, _, rfl⟩ := stepped
    exact .inr (by simp)

theorem Torn.step {c d : Call} {label : Label} (torn : Torn c) (stepped : c.step label = some d) : Torn d := by
  obtain ⟨more, grown⟩ := step_posted stepped
  have ready : c.starter = .attached ∨ c.starter = .returned := torn.imp And.left And.left
  rcases torn with ⟨attached, flag, destroyed⟩ | ⟨returned, broken⟩
  · rcases starter_step ready stepped with ⟨rfl, _, starts⟩ | same
    · refine .inr ⟨starts, ?_⟩
      simp only [Call.step, attached, ↓reduceIte, Option.some.injEq] at stepped
      subst stepped
      exact not_disciplined_start ⟨flag, destroyed⟩
    · exact .inl ⟨same.trans attached, flag, by simp [grown, destroyed]⟩
  · rcases starter_step ready stepped with ⟨_, attached, _⟩ | same
    · simp [attached] at returned
    · refine .inr ⟨same.trans returned, ?_⟩
      rw [grown]
      exact mt Disciplined.of_append broken

theorem torn_of_sweep {c d : Call} (inv : TeardownInv c) (attached : c.starter = .attached)
    (stepped : c.step (.cancel .engine) = some d) : Torn d := by
  simp only [Call.step, Option.ite_none_right_eq_some, Option.some.injEq] at stepped
  obtain ⟨_, rfl⟩ := stepped
  exact .inl ⟨attached, inv.cancel.requested.mp (inv.cancel_requests (.inl attached))⟩

theorem torn_of_disturbed {url : String} {maxRedirects : Int} {labels : List Label} {c : Call}
    (ran : machine.run (initial url maxRedirects) labels = some c)
    (disturbed : ¬ machine.Meets StartUndisturbed (initial url maxRedirects) labels) : Torn c := by
  refine Machine.history_invariant
    (fun past a => ¬ machine.Meets StartUndisturbed (initial url maxRedirects) past → Torn a) ?_ ?_ ran disturbed
  · exact fun bad => absurd trivial bad
  · intro past a label b before held stepped bad
    by_cases metPast : machine.Meets StartUndisturbed (initial url maxRedirects) past
    · have reached : a.starter = .attached ∧ label = .cancel .engine := by
        by_contra undisturbed
        exact bad ((Machine.meets_snoc before).mpr ⟨metPast, undisturbed⟩)
      obtain ⟨attached, rfl⟩ := reached
      exact torn_of_sweep (teardownInv_of_run before) attached stepped
    · exact (held metPast).step stepped

/-- Every interleaving posts as `CronetURLRequest` requires as long as the sweep of
    `Engine::Destroy` stays out of the window before `Start`, and once `Start` is posted only then. -/
theorem posts_disciplined_iff (url : String) (maxRedirects : Int) (labels : List Label) (c : Call)
    (ran : machine.run (initial url maxRedirects) labels = some c) :
    (machine.Meets StartUndisturbed (initial url maxRedirects) labels → Disciplined c.request.posted) ∧
    (c.starter = .returned → Disciplined c.request.posted →
      machine.Meets StartUndisturbed (initial url maxRedirects) labels) := by
  refine ⟨fun met => (postingInv_of_run met ran).guarded.disciplined, fun returned disciplined => ?_⟩
  by_contra disturbed
  rcases torn_of_disturbed ran disturbed with ⟨attached, _⟩ | ⟨_, broken⟩
  · simp [returned] at attached
  · exact broken disciplined

/-- The owner cancels before the headers come, and their `ReadData` is refused. -/
theorem posts_disciplined_started :
    ∃ labels c, machine.run (initial "http://a/" 20) labels = some c ∧ c.net = [] ∧
      c.request.posted = [.start, .destroy true] ∧ Disciplined c.request.posted := by
  let labels : List Label := [.registerCall true, .construct, .attachRequest, .start, .task none, .cancel .handle,
    .callback (.onResponseStarted ⟨200, "OK", none, false, "h2", ""⟩), .op, .op, .op, .op]
  have met : machine.Meets StartUndisturbed (initial "http://a/" 20) labels := by
    simp [labels, Machine.Meets, StartUndisturbed]
  have runs : ∃ c, machine.run (initial "http://a/" 20) labels = some c ∧ c.net = [] ∧
      c.request.posted = [.start, .destroy true] := ⟨_, rfl, rfl, rfl⟩
  obtain ⟨c, ran, idle, posted⟩ := runs
  exact ⟨labels, c, ran, idle, posted, (posts_disciplined_iff "http://a/" 20 labels c ran).1 met⟩

/-- `Engine::Destroy` sweeping between `AttachRequest` and `Start` leaves `[Destroy, Start]`. -/
theorem start_after_destroy :
    ∃ labels c, machine.run (initial "http://a/" 20) labels = some c ∧ ¬ Disciplined c.request.posted := by
  refine ⟨[.registerCall true, .construct, .attachRequest, .cancel .engine, .start],
    { (initial "http://a/" 20) with
      shared.hasRequest := true, shared.destroyRequested := true, request.posted := [.destroy true, .start],
      starter := .returned, registered := true }, by decide, ?_⟩
  change ¬ Disciplined ([.destroy true] ++ [.start])
  exact not_disciplined_start ⟨true, List.mem_singleton.mpr rfl⟩

end Call

end Cronet.Native
