import Cronet.Session.Owner
import Mathlib.Data.List.Count
import Mathlib.Logic.Function.Basic

namespace Cronet.Session

inductive CallFunction where
  | fd
  | stateOf
  | read
  | wait
  | response
  | cancel
  | free
  deriving DecidableEq

/-- Where the function that made a call stands: in `Engine.start`, waiting for the headers, reading
    the body itself, in a block of `Session.stream`, or in its `finally` and `Engine._free_call`.
    `leaked` is an exception between `Engine.start` and the `try` of `Session.stream`. -/
inductive Site where
  | unmade
  | starting
  | begun
  | headers (turn : Turn)
  | headersLast
  | result
  | body (turn : Turn)
  | final
  | cancelling
  | waiting
  | opened
  | leaving
  | leavingLive
  | discarding
  | freeing
  | closed
  | leaked
  deriving DecidableEq

def Turn.uses (query : CallFunction) : Turn → List CallFunction
  | .round => []
  | .drain | .poll => [.fd]
  | .look => [query]

def Site.uses : Site → List CallFunction
  | .headers turn => turn.uses .stateOf
  | .body turn => turn.uses .read
  | .headersLast => [.stateOf]
  | .result | .final => [.response]
  | .cancelling | .leavingLive => [.cancel]
  | .waiting | .leaving => [.wait]
  | .freeing => [.free]
  | .unmade | .starting | .begun | .opened | .discarding | .closed | .leaked => []

def Site.ended : Site → Bool
  | .closed | .leaked => true
  | _ => false

/-- The generator `Call.iter_body`, as a caller of `Response.iter_bytes` holds it. -/
inductive BodyIterator where
  | absent
  | unstarted
  | within (turn : Turn)
  | suspended
  | finished
  deriving DecidableEq

def BodyIterator.uses : BodyIterator → List CallFunction
  | .within turn => turn.uses .read
  | _ => []

def BodyIterator.busy : BodyIterator → Bool
  | .within _ => true
  | _ => false

/-- What the code finds: that a native function says yes, no or hands over a piece, that time has
    run out, or an exception. -/
inductive Answer where
  | yes
  | no
  | piece
  | late
  | raises
  deriving DecidableEq

/-- A call with what holds its handle: `timeoutMs` is what `_timeout_ms` makes of its timeout, `none`
    where that raises, and `live` is whether it is in `_live_calls`. -/
structure Handle where
  kind : Kind
  timeoutMs : Option Int
  site : Site
  iterator : BodyIterator
  live : Bool
  deriving DecidableEq

namespace Handle

def unmade : Handle := ⟨.stream, none, .unmade, .absent, false⟩

def mayExpire (h : Handle) : Bool := h.timeoutMs.any (0 ≤ ·)

def mayGoOn (h : Handle) : Bool := h.timeoutMs ≠ some 0

def firstTurn (h : Handle) : Turn := if h.kind = .asyncRequest then .drain else .round

/-- The `finally` of the function that made the call. -/
def settle (h : Handle) : Site := if h.kind = .request then .discarding else .leaving

/-- `TimeoutError` outside a body iterator. -/
def expired (h : Handle) : Site := if h.kind = .request then .cancelling else .leaving

def goes (h : Handle) : Answer → Option Site
  | .yes =>
    match h.site with
    | .begun => if h.timeoutMs.isSome || h.kind = .asyncRequest then some (.headers h.firstTurn) else none
    | .headers .round => if h.mayGoOn then some (.headers .drain) else none
    | .headers .drain => some (.headers .look)
    | .headers .look => some .result
    | .headers .poll => some (.headers h.firstTurn)
    | .headersLast => some .result
    | .result => some (if h.kind = .stream then .opened else .body h.firstTurn)
    | .body .round => if h.mayGoOn then some (.body .drain) else none
    | .body .drain => some (.body .look)
    | .body .look => some .final
    | .body .poll => some (.body h.firstTurn)
    | .final => some h.settle
    | .cancelling => some .waiting
    | .waiting => some .discarding
    | .leaving => some .discarding
    | .leavingLive => some .discarding
    | .discarding => some .freeing
    | .freeing => some .closed
    | .unmade | .starting | .opened | .closed | .leaked => none
  | .no =>
    match h.site with
    | .headers .look => some (.headers .poll)
    | .headersLast => some h.expired
    | .body .look => some (.body .poll)
    | .leaving => some .leavingLive
    | _ => none
  | .piece => if h.site = .body .look then some (.body .look) else none
  | .late =>
    match h.site with
    | .headers .round => if h.mayExpire && h.kind ≠ .asyncRequest then some .headersLast else none
    | .headers .poll => if h.mayExpire then some h.expired else none
    | .body .round => if h.mayExpire && h.kind ≠ .asyncRequest then some .cancelling else none
    | .body .poll => if h.mayExpire then some h.expired else none
    | _ => none
  | .raises =>
    match h.site with
    | .begun => if h.timeoutMs.isSome then none else if h.kind = .stream then some .leaked else some h.settle
    | .headers .poll | .body .poll => if h.kind = .asyncRequest then some .leaving else none
    | .result | .final => some h.settle
    | _ => none

/-- Going on: the lock section of `_free_call` takes the call off, and a block hands the iterator out. -/
def enter (h : Handle) (site : Site) : Handle :=
  { h with
    site
    live := h.live && h.site ≠ .discarding
    iterator := if site = .opened then .unstarted else h.iterator }

/-- `next` on the body iterator, up to its first native call; `late` is whether its countdown is over at once. -/
def advance (h : Handle) (late : Bool) : Option BodyIterator :=
  match h.iterator with
  | .unstarted =>
    if late then if h.mayExpire then some .finished else none else if h.mayGoOn then some (.within .drain) else none
  | .suspended => some (.within .look)
  | .finished => some .finished
  | .absent | .within _ => none

def turn (h : Handle) (answer : Answer) : Option BodyIterator :=
  match h.iterator, answer with
  | .within .round, .yes => if h.mayGoOn then some (.within .drain) else none
  | .within .round, .late => if h.mayExpire then some .finished else none
  | .within .drain, .yes => some (.within .look)
  | .within .look, .piece => some .suspended
  | .within .look, .no => some (.within .poll)
  | .within .look, .yes => some .finished
  | .within .poll, .yes => some (.within .round)
  | .within .poll, .late => if h.mayExpire then some .finished else none
  | _, _ => none

end Handle

/-- A session with the calls it has made, in the order they were made. `claims` counts the threads
    between `_claim` and the return of `cronet_call_start`. -/
structure Handles where
  closed : Bool
  claims : Nat
  next : Nat
  handles : Nat → Handle

/-- One section under `_lock`, one native call or one step of the code between, by any thread. -/
inductive HandlesLabel where
  | claim
  | refuse
  | start (kind : Kind) (timeoutMs : Option Int)
  | register (call : Nat)
  | proceed (call : Nat) (answer : Answer)
  | leave (call : Nat)
  | advance (call : Nat) (late : Bool)
  | turn (call : Nat) (answer : Answer)
  | close

namespace Handles

def initial : Handles := ⟨false, 0, 0, fun _ => .unmade⟩

def put (s : Handles) (call : Nat) (h : Handle) : Handles := { s with handles := Function.update s.handles call h }

def step (s : Handles) : HandlesLabel → Option Handles
  | .claim => if s.closed then some s else some { s with claims := s.claims + 1 }
  | .refuse => if 0 < s.claims then some { s with claims := s.claims - 1 } else none
  | .start kind timeoutMs =>
    if 0 < s.claims then
      some ({ s with claims := s.claims - 1, next := s.next + 1 }.put s.next ⟨kind, timeoutMs, .starting, .absent, false⟩)
    else none
  | .register call =>
    if (s.handles call).site = .starting then
      some (s.put call { s.handles call with site := .begun, live := true })
    else none
  | .proceed call answer => ((s.handles call).goes answer).map fun site => s.put call ((s.handles call).enter site)
  | .leave call =>
    if (s.handles call).site = .opened then some (s.put call { s.handles call with site := .leaving }) else none
  | .advance call late =>
    ((s.handles call).advance late).map fun iterator => s.put call { s.handles call with iterator }
  | .turn call answer =>
    ((s.handles call).turn answer).map fun iterator => s.put call { s.handles call with iterator }
  | .close => some { s with closed := true }

def machine : Machine Handles HandlesLabel := ⟨step⟩

/-- The calls in `_live_calls`. -/
def liveCalls (s : Handles) : List Nat := (List.range s.next).filter fun call => (s.handles call).live

def applied (s : Handles) : HandlesLabel → List (Nat × CallFunction)
  | .register call => if s.closed then [(call, .cancel)] else []
  | .proceed call _ => (s.handles call).site.uses.map (call, ·)
  | .turn call _ => (s.handles call).iterator.uses.map (call, ·)
  | .close => if s.closed then [] else s.liveCalls.map (·, .cancel)
  | .claim | .refuse | .start _ _ | .leave _ | .advance _ _ => []

/-- A body iterator is advanced, by `iter_bytes()` or `read()`, only in its block, unless it is over or its
    countdown is over at once; a block is not left with a thread in its iterator; and no block is
    opened with a timeout that `_timeout_ms` cannot convert. -/
def Orderly (s : Handles) : HandlesLabel → Prop
  | .advance call late =>
    (s.handles call).site = .opened ∨ (s.handles call).iterator = .finished ∨
      ((s.handles call).iterator = .unstarted ∧ late = true)
  | .leave call => (s.handles call).iterator.busy = false
  | .start kind timeoutMs => kind = .stream → timeoutMs.isSome = true
  | _ => True

instance (s : Handles) : (label : HandlesLabel) → Decidable (Orderly s label)
  | .advance _ _ => inferInstanceAs (Decidable (_ ∨ _))
  | .leave _ => inferInstanceAs (Decidable (_ = _))
  | .start _ _ => inferInstanceAs (Decidable (_ → _))
  | .claim | .refuse | .register _ | .proceed _ _ | .turn _ _ | .close => inferInstanceAs (Decidable True)

/-- Nothing is applied to a handle that has been freed, and a handle is freed when its maker has ended. -/
structure Handled (past : List (Nat × CallFunction)) (s : Handles) : Prop where
  kept : past.Pairwise fun first later => first.2 = .free → later.1 ≠ first.1
  freed : ∀ call, (s.handles call).site.ended = true → past.count (call, .free) = 1

end Handles

structure HandleInv (frees : Nat) (h : Handle) : Prop where
  freed : frees = if h.site = .closed then 1 else 0
  live : h.live = true → h.site ≠ .closed ∧ h.site ≠ .freeing
  busy : h.iterator.busy = true → h.site = .opened
  convertible : h.site ≠ .unmade → h.kind = .stream → h.timeoutMs.isSome = true
  kept : h.site ≠ .leaked

namespace Handle

theorem unmade_inv : HandleInv 0 unmade := by
  constructor <;> simp [unmade, BodyIterator.busy]

theorem settle_cases (h : Handle) : h.settle = .discarding ∨ h.settle = .leaving := by
  unfold settle
  split
  · exact .inl rfl
  · exact .inr rfl

theorem expired_cases (h : Handle) : h.expired = .cancelling ∨ h.expired = .leaving := by
  unfold expired
  split
  · exact .inl rfl
  · exact .inr rfl

structure Goes (h : Handle) (site : Site) : Prop where
  outside : h.site ≠ .opened ∧ h.site ≠ .unmade ∧ h.site ≠ .closed
  freed : site = .closed ↔ h.site = .freeing
  discarded : site = .freeing ↔ h.site = .discarding
  made : site ≠ .unmade
  leaks : site = .leaked → h.kind = .stream ∧ h.timeoutMs = none

theorem goes_spec {h : Handle} {answer : Answer} {site : Site} (gone : h.goes answer = some site) : Goes h site := by
  obtain ⟨kind, timeoutMs, place, iterator, live⟩ := h
  have onward {target : Site} (outside : place ≠ .opened ∧ place ≠ .unmade ∧ place ≠ .closed ∧ place ≠ .freeing ∧ place ≠ .discarding)
      (plain : target ≠ .closed ∧ target ≠ .freeing ∧ target ≠ .unmade ∧ target ≠ .leaked) :
      Goes ⟨kind, timeoutMs, place, iterator, live⟩ target :=
    ⟨⟨outside.1, outside.2.1, outside.2.2.1⟩, iff_of_false plain.1 outside.2.2.2.1,
      iff_of_false plain.2.1 outside.2.2.2.2, plain.2.2.1, fun leaks => absurd leaks plain.2.2.2⟩
  have settles (h : Handle) : h.settle ≠ .closed ∧ h.settle ≠ .freeing ∧ h.settle ≠ .unmade ∧ h.settle ≠ .leaked := by
    rcases settle_cases h with same | same <;> simp [same]
  have expires (h : Handle) : h.expired ≠ .closed ∧ h.expired ≠ .freeing ∧ h.expired ≠ .unmade ∧ h.expired ≠ .leaked := by
    rcases expired_cases h with same | same <;> simp [same]
  cases answer with
  | piece =>
    simp only [goes, Option.ite_none_right_eq_some, Option.some.injEq] at gone
    obtain ⟨rfl, rfl⟩ := gone
    exact onward (by simp) (by simp)
  | no =>
    simp only [goes] at gone
    split at gone <;> cases gone
    · exact onward (by simp) (by simp)
    · exact onward (by simp) (expires _)
    · exact onward (by simp) (by simp)
    · exact onward (by simp) (by simp)
  | late =>
    simp only [goes] at gone
    split at gone
    · simp only [Option.ite_none_right_eq_some, Option.some.injEq] at gone
      exact gone.2 ▸ onward (by simp) (by simp)
    · simp only [Option.ite_none_right_eq_some, Option.some.injEq] at gone
      exact gone.2 ▸ onward (by simp) (expires _)
    · simp only [Option.ite_none_right_eq_some, Option.some.injEq] at gone
      exact gone.2 ▸ onward (by simp) (by simp)
    · simp only [Option.ite_none_right_eq_some, Option.some.injEq] at gone
      exact gone.2 ▸ onward (by simp) (expires _)
    · cases gone
  | raises =>
    simp only [goes] at gone
    split at gone
    · split at gone
      · cases gone
      · rename_i unconvertible
        split at gone
        · rename_i stream
          cases gone
          exact ⟨by simp, by simp, by simp, by simp, fun _ => ⟨stream, by simpa using unconvertible⟩⟩
        · exact Option.some.inj gone ▸ onward (by simp) (settles _)
    · simp only [Option.ite_none_right_eq_some, Option.some.injEq] at gone
      exact gone.2 ▸ onward (by simp) (by simp)
    · simp only [Option.ite_none_right_eq_some, Option.some.injEq] at gone
      exact gone.2 ▸ onward (by simp) (by simp)
    · exact Option.some.inj gone ▸ onward (by simp) (settles _)
    · exact Option.some.inj gone ▸ onward (by simp) (settles _)
    · cases gone
  | yes =>
    cases place with
    | begun =>
      simp only [goes, Option.ite_none_right_eq_some, Option.some.injEq] at gone
      exact gone.2 ▸ onward (by simp) (by simp)
    | headers turn | body turn =>
      cases turn with
      | round =>
        simp only [goes, Option.ite_none_right_eq_some, Option.some.injEq] at gone
        exact gone.2 ▸ onward (by simp) (by simp)
      | drain | look | poll =>
        cases gone
        exact onward (by simp) (by simp)
    | result =>
      cases gone
      refine onward (by simp) ?_
      split <;> simp
    | final => exact Option.some.inj gone ▸ onward (by simp) (settles _)
    | headersLast | cancelling | waiting | leaving | leavingLive =>
      cases gone
      exact onward (by simp) (by simp)
    | discarding | freeing =>
      cases gone
      exact ⟨by simp, by simp, by simp, by simp, by simp⟩
    | unmade | starting | opened | closed | leaked => cases gone

theorem uses_free (site : Site) : site.uses.count .free = if site = .freeing then 1 else 0 := by
  cases site with
  | headers turn | body turn => cases turn <;> rfl
  | _ => rfl

theorem iterator_uses_free (iterator : BodyIterator) : iterator.uses.count .free = 0 := by
  cases iterator with
  | within turn => cases turn <;> rfl
  | _ => rfl

theorem turn_busy {h : Handle} {answer : Answer} {iterator : BodyIterator} (turned : h.turn answer = some iterator) :
    h.iterator.busy = true := by
  cases place : h.iterator with
  | within turn => rfl
  | _ => simp [turn, place] at turned

end Handle

namespace HandleInv

variable {frees : Nat} {h : Handle}

theorem enter {answer : Answer} {site : Site} (inv : HandleInv frees h) (gone : h.goes answer = some site) :
    HandleInv (frees + h.site.uses.count .free) (h.enter site) := by
  have spec := Handle.goes_spec gone
  obtain ⟨blocked, made, running⟩ := spec.outside
  constructor
  · rw [inv.freed, if_neg running, Handle.uses_free, Nat.zero_add]
    exact if_congr spec.freed.symm rfl rfl
  · intro live
    simp only [Handle.enter, Bool.and_eq_true, decide_eq_true_eq] at live
    obtain ⟨_, notFreeing⟩ := inv.live live.1
    exact ⟨fun closed => notFreeing (spec.freed.mp closed), fun freeing => live.2 (spec.discarded.mp freeing)⟩
  · intro busy
    simp only [Handle.enter] at busy
    split at busy
    · cases busy
    · exact absurd (inv.busy busy) blocked
  · exact fun _ => inv.convertible made
  · intro leaks
    obtain ⟨stream, unconvertible⟩ := spec.leaks leaks
    have convertible := inv.convertible made stream
    rw [unconvertible] at convertible
    cases convertible

theorem leave (inv : HandleInv frees h) (opened : h.site = .opened) (still : h.iterator.busy = false) :
    HandleInv frees { h with site := .leaving } := by
  refine ⟨?_, fun _ => ⟨by simp, by simp⟩, fun busy => ?_, fun _ => inv.convertible (by simp [opened]), by simp⟩
  · rw [inv.freed, opened]
    rfl
  · rw [still] at busy
    cases busy

theorem iterate {iterator : BodyIterator} (inv : HandleInv frees h) (idle : iterator.busy = true → h.site = .opened) :
    HandleInv frees { h with iterator } :=
  ⟨inv.freed, inv.live, idle, inv.convertible, inv.kept⟩

theorem register (inv : HandleInv frees h) (starting : h.site = .starting) :
    HandleInv frees { h with site := .begun, live := true } := by
  refine ⟨?_, fun _ => ⟨by simp, by simp⟩, fun busy => ?_, fun _ => inv.convertible (by simp [starting]), by simp⟩
  · rw [inv.freed, starting]
    rfl
  · have opened := inv.busy busy
    rw [starting] at opened
    cases opened

end HandleInv

namespace Handles

structure HandlesInv (past : List (Nat × CallFunction)) (s : Handles) : Prop where
  each : ∀ call, HandleInv (past.count (call, .free)) (s.handles call)
  kept : past.Pairwise fun first later => first.2 = .free → later.1 ≠ first.1
  unmade : ∀ call, s.next ≤ call → s.handles call = .unmade

theorem handlesInv_initial : HandlesInv [] initial :=
  ⟨fun _ => Handle.unmade_inv, .nil, fun _ _ => rfl⟩

theorem HandlesInv.within {past : List (Nat × CallFunction)} {s : Handles} {call : Nat} (inv : HandlesInv past s)
    (made : s.handles call ≠ .unmade) : call < s.next := by
  by_contra beyond
  exact made (inv.unmade call (Nat.le_of_not_lt beyond))

theorem HandlesInv.not_freed {past : List (Nat × CallFunction)} {s : Handles} {call : Nat} (inv : HandlesInv past s)
    (running : (s.handles call).site ≠ .closed) : (call, .free) ∉ past := by
  have none := (inv.each call).freed
  rw [if_neg running] at none
  exact List.count_eq_zero.mp none

theorem HandlesInv.apply {past more : List (Nat × CallFunction)} {s : Handles} (inv : HandlesInv past s)
    (running : ∀ e ∈ more, (s.handles e.1).site ≠ .closed)
    (alone : more.Pairwise fun first later => first.2 = .free → later.1 ≠ first.1) :
    (past ++ more).Pairwise fun first later => first.2 = .free → later.1 ≠ first.1 := by
  refine List.pairwise_append.mpr ⟨inv.kept, alone, fun first before later now frees same => ?_⟩
  refine inv.not_freed (running later now) ?_
  rw [same, ← frees]
  exact before

theorem HandlesInv.put {past : List (Nat × CallFunction)} {s : Handles} {call : Nat} {uses : List CallFunction} {h : Handle}
    (inv : HandlesInv past s) (made : s.handles call ≠ .unmade) (lone : uses.length ≤ 1)
    (running : uses ≠ [] → (s.handles call).site ≠ .closed)
    (next : HandleInv (past.count (call, .free) + uses.count .free) h) :
    HandlesInv (past ++ uses.map (call, ·)) (s.put call h) := by
  refine ⟨fun other => ?_, inv.apply ?_ ?_, fun other beyond => ?_⟩
  · rw [List.count_append]
    by_cases same : other = call
    · subst same
      have counted : (uses.map (other, ·)).count (other, .free) = uses.count .free :=
        List.count_map_of_injective uses _ (fun _ _ equal => (Prod.mk.inj equal).2) .free
      rw [counted]
      simpa [Handles.put] using next
    · have none : (uses.map (call, ·)).count (other, .free) = 0 := by
        rw [List.count_eq_zero]
        simp [Ne.symm same]
      rw [none]
      simpa [Handles.put, same] using inv.each other
  · intro e member
    obtain ⟨use, used, rfl⟩ := List.mem_map.mp member
    exact running (List.ne_nil_of_mem used)
  · cases uses with
    | nil => exact .nil
    | cons use rest =>
      have empty : rest = [] := List.eq_nil_of_length_eq_zero (by simpa using lone)
      rw [empty]
      exact List.pairwise_singleton _ _
  · have different : other ≠ call := fun same => absurd (inv.within made) (by rw [← same]; exact Nat.not_lt.mpr beyond)
    simpa [Handles.put, different] using inv.unmade other beyond

theorem HandlesInv.same {past : List (Nat × CallFunction)} {s t : Handles} (inv : HandlesInv past s)
    (handles : t.handles = s.handles) (next : t.next = s.next) : HandlesInv past t :=
  ⟨by rw [handles]; exact inv.each, inv.kept, by rw [handles, next]; exact inv.unmade⟩

theorem HandlesInv.close {past : List (Nat × CallFunction)} {s : Handles} (inv : HandlesInv past s) :
    HandlesInv (past ++ s.applied .close) { s with closed := true } := by
  have cancels : ∀ e ∈ s.applied .close, e.2 = .cancel ∧ (s.handles e.1).live = true := by
    intro e member
    simp only [applied] at member
    split at member
    · cases member
    · obtain ⟨call, live, rfl⟩ := List.mem_map.mp member
      simp only [liveCalls, List.mem_filter] at live
      exact ⟨rfl, live.2⟩
  refine ⟨fun call => ?_, inv.apply (fun e member => ?_) ?_, inv.unmade⟩
  · have none : (s.applied .close).count (call, .free) = 0 := by
      rw [List.count_eq_zero]
      intro member
      cases (cancels _ member).1
    rw [List.count_append, none]
    exact inv.each call
  · exact ((inv.each e.1).live (cancels e member).2).1
  · refine List.pairwise_of_forall_mem_list fun first member _ _ frees => ?_
    rw [(cancels first member).1] at frees
    cases frees

theorem HandlesInv.start {past : List (Nat × CallFunction)} {s : Handles} {kind : Kind} {timeoutMs : Option Int}
    (inv : HandlesInv past s) (convertible : kind = .stream → timeoutMs.isSome = true) :
    HandlesInv past ({ s with claims := s.claims - 1, next := s.next + 1 }.put s.next
      ⟨kind, timeoutMs, .starting, .absent, false⟩) := by
  have fresh := inv.each s.next
  rw [inv.unmade s.next (Nat.le_refl _)] at fresh
  refine ⟨fun other => ?_, inv.kept, fun other beyond => ?_⟩
  · by_cases same : other = s.next
    · subst same
      simp only [Handles.put, Function.update_self]
      exact ⟨fresh.freed, by simp, by simp [BodyIterator.busy], fun _ => convertible, by simp⟩
    · simpa [Handles.put, same] using inv.each other
  · have later : s.next + 1 ≤ other := beyond
    have different : other ≠ s.next := by omega
    simpa [Handles.put, different] using inv.unmade other (by omega)

theorem made_of_site {s : Handles} {call : Nat} {site : Site} (at_ : (s.handles call).site = site) (real : site ≠ .unmade) :
    s.handles call ≠ .unmade := by
  intro unmade
  rw [unmade] at at_
  exact real at_.symm

theorem advance_busy {s : Handles} {call : Nat} {late : Bool} {iterator : BodyIterator}
    (orderly : Orderly s (.advance call late)) (advanced : (s.handles call).advance late = some iterator)
    (busy : iterator.busy = true) : (s.handles call).site = .opened := by
  rcases orderly with opened | finished | ⟨unstarted, expired⟩
  · exact opened
  · simp only [Handle.advance, finished, Option.some.injEq] at advanced
    rw [← advanced] at busy
    cases busy
  · simp only [Handle.advance, unstarted, expired, if_true, Option.ite_none_right_eq_some, Option.some.injEq] at advanced
    rw [← advanced.2] at busy
    cases busy

theorem HandlesInv.step {past : List (Nat × CallFunction)} {s t : Handles} {label : HandlesLabel} (inv : HandlesInv past s)
    (orderly : Orderly s label) (stepped : s.step label = some t) : HandlesInv (past ++ s.applied label) t := by
  cases label with
  | claim =>
    simp only [Handles.step] at stepped
    simp only [applied, List.append_nil]
    split at stepped <;> cases stepped
    · exact inv
    · exact inv.same rfl rfl
  | refuse =>
    simp only [Handles.step, Option.ite_none_right_eq_some, Option.some.injEq] at stepped
    obtain ⟨_, rfl⟩ := stepped
    simp only [applied, List.append_nil]
    exact inv.same rfl rfl
  | start kind timeoutMs =>
    simp only [Handles.step, Option.ite_none_right_eq_some, Option.some.injEq] at stepped
    obtain ⟨_, rfl⟩ := stepped
    simp only [applied, List.append_nil]
    exact inv.start orderly
  | register call =>
    simp only [Handles.step, Option.ite_none_right_eq_some, Option.some.injEq] at stepped
    obtain ⟨starting, rfl⟩ := stepped
    have registered := (inv.each call).register starting
    have made := made_of_site starting (by simp)
    simp only [applied]
    split
    · exact @put past s call [.cancel] _ inv made (by simp) (by simp [starting]) registered
    · exact @put past s call [] _ inv made (by simp) (by simp) registered
  | proceed call answer =>
    simp only [Handles.step, Option.map_eq_some_iff] at stepped
    obtain ⟨site, gone, rfl⟩ := stepped
    obtain ⟨_, made, running⟩ := (Handle.goes_spec gone).outside
    refine inv.put (made_of_site rfl made) ?_ (fun _ => running) ((inv.each call).enter gone)
    cases (s.handles call).site with
    | headers turn | body turn => cases turn <;> simp [Site.uses, Turn.uses]
    | _ => simp [Site.uses]
  | leave call =>
    simp only [Handles.step, Option.ite_none_right_eq_some, Option.some.injEq] at stepped
    obtain ⟨opened, rfl⟩ := stepped
    exact @put past s call [] _ inv (made_of_site opened (by simp)) (by simp) (by simp) ((inv.each call).leave opened orderly)
  | advance call late =>
    simp only [Handles.step, Option.map_eq_some_iff] at stepped
    obtain ⟨iterator, advanced, rfl⟩ := stepped
    have made : s.handles call ≠ .unmade := by
      intro unmade
      simp [unmade, Handle.unmade, Handle.advance] at advanced
    exact @put past s call [] _ inv made (by simp) (by simp) ((inv.each call).iterate (advance_busy orderly advanced))
  | turn call answer =>
    simp only [Handles.step, Option.map_eq_some_iff] at stepped
    obtain ⟨iterator, turned, rfl⟩ := stepped
    have opened : (s.handles call).site = .opened := (inv.each call).busy (Handle.turn_busy turned)
    have next := @HandleInv.iterate _ _ iterator (inv.each call) fun _ => opened
    refine inv.put (made_of_site opened (by simp)) ?_ (by simp [opened]) ?_
    · cases (s.handles call).iterator with
      | within turn => cases turn <;> simp [BodyIterator.uses, Turn.uses]
      | _ => simp [BodyIterator.uses]
    · rw [Handle.iterator_uses_free]
      exact next
  | close =>
    cases stepped
    exact inv.close

/-- In a session whose users keep the order every handle is used before it is freed, and freed once. -/
theorem handles_kept (labels : List HandlesLabel) (s : Handles) (ran : machine.run initial labels = some s)
    (met : machine.Meets Orderly initial labels) : Handled (machine.outputs applied initial labels) s := by
  have inv : HandlesInv (machine.outputs applied initial labels) s := by
    refine Machine.guarded_invariant (fun past s => HandlesInv (machine.outputs applied initial past) s) handlesInv_initial
      ?_ met ran
    intro past a label b before inv orderly stepped
    rw [Machine.outputs_snoc label before]
    exact inv.step orderly stepped
  refine ⟨inv.kept, fun call ended => ?_⟩
  rw [(inv.each call).freed, if_pos]
  cases site : (s.handles call).site with
  | closed => rfl
  | leaked => exact absurd site (inv.each call).kept
  | _ => simp [site, Site.ended] at ended

def leftStream : List HandlesLabel :=
  [.claim, .start .stream (some (-1)), .register 0, .proceed 0 .yes, .proceed 0 .yes, .proceed 0 .yes, .proceed 0 .yes,
    .proceed 0 .yes, .advance 0 false, .turn 0 .yes, .turn 0 .piece, .leave 0, .proceed 0 .yes, .proceed 0 .yes, .proceed 0 .yes]

theorem handles_kept_stream :
    ∃ s, machine.run initial leftStream = some s ∧ (machine.outputs applied initial leftStream).count (0, .free) = 1 := by
  exact ⟨_, rfl, (handles_kept leftStream _ rfl (by decide)).freed 0 rfl⟩

/-- The iterator of a block that was left is advanced; and a block is opened with a timeout of infinity. -/
theorem handle_read_after_free :
    (∃ s, machine.run initial (leftStream ++ [.advance 0 false, .turn 0 .piece]) = some s ∧
      ¬ Handled (machine.outputs applied initial (leftStream ++ [.advance 0 false, .turn 0 .piece])) s) ∧
    ∃ s, machine.run initial [.claim, .start .stream none, .register 0, .proceed 0 .raises] = some s ∧
      ¬ Handled (machine.outputs applied initial [.claim, .start .stream none, .register 0, .proceed 0 .raises]) s := by
  refine ⟨⟨_, rfl, fun handled => ?_⟩, _, rfl, fun handled => ?_⟩
  · exact absurd handled.kept (by decide)
  · exact absurd (handled.freed 0 rfl) (by decide)

end Handles

end Cronet.Session
