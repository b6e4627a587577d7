import Cronet.Native.Observer
import Cronet.Native.Transfer

namespace Cronet.Native

/-- How far `StartCall` has got with this call. -/
inductive Starter where
  | begun
  | refused
  | registered
  | constructed
  | attached
  | returned
  deriving DecidableEq

/-- Who calls `Cancel`: a holder of the handle, `cronet_call_free` included, or the sweep of
    `Engine::Destroy` over the calls registered. -/
inductive Canceller where
  | handle
  | engine
  deriving DecidableEq

/-- One call and everything that acts on it. `net` is what the network thread has left of the
    callback it is in, `resuming` counts the readers between the locked section of `Read` and
    the `ReadData` they owe, and `outcome` is the code the outcome was claimed with. -/
structure Call where
  shared : CallState
  request : UrlRequest
  observer : RequestObserver
  net : List NetOp
  starter : Starter
  registered : Bool
  resuming : Nat
  outcome : Option Int
  deriving DecidableEq

inductive Label where
  | rejectUrl
  | registerCall (accepted : Bool)
  | construct
  | attachRequest
  | start
  | cancel (who : Canceller)
  | read (capacity : Nat) (ret : ReadReturn)
  | resume
  | drain
  | op
  | task (metrics : Option Metrics)
  | callback (cb : Callback)
  deriving DecidableEq

/-- The operations no callback brings along: a claimed outcome or the end of the request does. -/
def NetOp.isFinal : NetOp → Bool
  | .completeBody | .storeErrorCode _ | .unregisterCall | .clearRequest => true
  | _ => false

namespace Call

/-- `StartCall` about to run: a negative limit is Chromium's default of 20. -/
def initial (url : String) (maxRedirects : Int) : Call where
  shared := .initial url
  request := .initial
  observer := ⟨if maxRedirects < 0 then 20 else maxRedirects, 0⟩
  net := []
  starter := .begun
  registered := false
  resuming := 0
  outcome := none

def post (c : Call) (tasks : List Task) : Call := { c with request := c.request.post tasks }

def destroyRequest (c : Call) (sendOnCanceled : Bool) : Call :=
  { c with
    shared := (c.shared.destroyRequest sendOnCanceled).1
    request := c.request.post (c.shared.destroyRequest sendOnCanceled).2 }

def cancel (c : Call) : Call := c.destroyRequest true

/-- Runs one operation of the network thread; a claimed outcome and a taken chunk leave more to do. -/
def exec (c : Call) : NetOp → Call × List NetOp
  | .onRedirect location => ({ c with shared.response.finalUrl := location }, [])
  | .followRedirect => (c.post c.shared.followRedirect, [])
  | .onResponse head =>
    ({ c with shared.response := c.shared.response.onResponse head, shared.headersPublished := true }, [])
  | .storeHeaders => ({ c with shared.state := .headers }, [])
  | .signalProgress => ({ c with shared := c.shared.signalProgress }, [])
  | .setRedirectCount count => ({ c with shared.response.view.redirectCount := count }, [])
  | .readData => (c.post c.shared.readData, [])
  | .onData chunk =>
    ({ c with shared.body := (c.shared.body.onData chunk).2 },
      if (c.shared.body.onData chunk).1 then [.signalProgress, .readData] else [.signalProgress])
  | .claimOutcome code message =>
    if c.shared.outcomeClaimed then (c, [])
    else ({ c with shared.outcomeClaimed := true, outcome := some code }, finishStores code message)
  | .completeBody => ({ c with shared.body := c.shared.body.complete }, [])
  | .publishUnpublished =>
    (if c.shared.headersPublished then c
      else { c with shared.response := c.shared.response.publish, shared.headersPublished := true }, [])
  | .storeErrorMessage message =>
    ({ c with shared.response.errorMessage := message, shared.response.view.errorMessage := some message }, [])
  | .storeErrorCode code => ({ c with shared.response.view.errorCode := code }, [])
  | .storeDone => ({ c with shared.state := .done }, [])
  | .signalFinished => ({ c with shared.finished := true }, [])
  | .destroyRequest sendOnCanceled => (c.destroyRequest sendOnCanceled, [])
  | .unregisterCall => ({ c with registered := false }, [])
  | .clearRequest => ({ c with shared.hasRequest := false }, [])
  | .signalReleased => ({ c with shared.released := true }, [])
  | .setMetrics metrics => ({ c with shared := c.shared.setMetrics metrics }, [])

/-- Runs the first of `ops` and leaves the others to the network thread. -/
def perform (c : Call) : List NetOp → Call
  | [] => { c with net := [] }
  | op :: rest => { (c.exec op).1 with net := (c.exec op).2 ++ rest }

def callbackOps (c : Call) : Callback → RequestObserver × List NetOp
  | .onReceivedRedirect newLocation head => c.observer.onReceivedRedirect newLocation head
  | .onResponseStarted head => (c.observer, c.observer.onResponseStarted head)
  | .onReadCompleted chunk => (c.observer, RequestObserver.onReadCompleted chunk)
  | .onSucceeded => (c.observer, RequestObserver.onSucceeded)
  | .onError netError errorString errorToString =>
    (c.observer, RequestObserver.onError netError errorString errorToString)
  | .onMetricsCollected metrics => (c.observer, RequestObserver.onMetricsCollected metrics)

def receive (c : Call) (cb : Callback) (request : UrlRequest) : Call :=
  { c with request, observer := (c.callbackOps cb).1 }.perform (c.callbackOps cb).2

def read (c : Call) (capacity : Nat) : Call :=
  { c with
    shared.body := (c.shared.body.read capacity).2.2
    resuming := if (c.shared.body.read capacity).2.1 then c.resuming + 1 else c.resuming }

/-- `cancel` as a holder of the handle or the sweep may make it. -/
def mayCancel (c : Call) : Canceller → Bool
  | .handle => c.starter = .returned
  | .engine => c.registered

def step (c : Call) : Label → Option Call
  | .rejectUrl => if c.starter = .begun then some { c with starter := .refused } else none
  | .registerCall accepted =>
    if c.starter = .begun then
      some { c with starter := if accepted then .registered else .refused, registered := accepted }
    else none
  | .construct => if c.starter = .registered then some { c with starter := .constructed } else none
  | .attachRequest =>
    if c.starter = .constructed then some { c with shared := c.shared.attachRequest, starter := .attached }
    else none
  | .start => if c.starter = .attached then some { c.post [.start] with starter := .returned } else none
  | .cancel who => if c.mayCancel who then some c.cancel else none
  | .read capacity ret =>
    if c.starter = .returned ∧ 0 < capacity ∧ (c.shared.body.read capacity).1 = ret then some (c.read capacity)
    else none
  | .resume =>
    if 0 < c.resuming then some { c.post c.shared.readData with resuming := c.resuming - 1 } else none
  | .drain => if c.starter = .returned then some { c with shared := c.shared.drain } else none
  | .op => if c.net = [] then none else some (c.perform c.net)
  | .task metrics =>
    if c.net = [] then (c.request.runTask metrics).map fun ran => { c with request := ran.1 }.perform ran.2
    else none
  | .callback cb => if c.net = [] then (c.request.accepts cb).map (c.receive cb) else none

def machine : Machine Call Label := ⟨step⟩

theorem not_mem_callbackOps {c : Call} {cb : Callback} {op : NetOp} (final : op.isFinal = true) :
    op ∉ (c.callbackOps cb).2 := by
  have brought : ∀ op ∈ (c.callbackOps cb).2, op.isFinal = false := by
    cases cb with
    | onReceivedRedirect location head =>
      simp only [callbackOps, RequestObserver.onReceivedRedirect]
      split
      · simp only [RequestObserver.responseOps]
        split <;> simp [NetOp.isFinal]
      · simp [NetOp.isFinal]
    | _ => simp [callbackOps, RequestObserver.onResponseStarted, RequestObserver.responseOps,
        RequestObserver.onReadCompleted, RequestObserver.onSucceeded, RequestObserver.onError,
        RequestObserver.onMetricsCollected, NetOp.isFinal]
  intro member
  simp [brought op member] at final

theorem not_teardown_of_pushed {c : Call} {op : NetOp} :
    ∀ pushed ∈ (c.exec op).2, pushed ≠ .unregisterCall ∧ pushed ≠ .clearRequest := by
  cases op <;> simp only [exec, finishStores] <;> (try split) <;> simp

@[simp] theorem exec_starter (c : Call) (op : NetOp) : (c.exec op).1.starter = c.starter := by
  cases op <;> simp only [exec] <;> (try split) <;> rfl

@[simp] theorem perform_starter (c : Call) (ops : List NetOp) : (c.perform ops).starter = c.starter := by
  cases ops <;> simp [perform]

@[simp] theorem receive_starter (c : Call) (cb : Callback) (request : UrlRequest) :
    (c.receive cb request).starter = c.starter := by simp [receive]

@[simp] theorem cancel_starter (c : Call) : c.cancel.starter = c.starter := rfl

end Call

end Cronet.Native
