import Cronet.Native.CallState

namespace Cronet.Native

/-- What the network thread does inside one callback, cut where another thread can see it:
    one store, one locked section or one signal each. -/
inductive NetOp where
  | onRedirect (location : String)
  | followRedirect
  | onResponse (head : ResponseHead)
  | storeHeaders
  | signalProgress
  | setRedirectCount (count : Nat)
  | readData
  | onData (chunk : Bytes)
  | claimOutcome (code : Int) (message : String)
  | completeBody
  | publishUnpublished
  | storeErrorMessage (message : String)
  | storeErrorCode (code : Int)
  | storeDone
  | signalFinished
  | destroyRequest (sendOnCanceled : Bool)
  | unregisterCall
  | clearRequest
  | signalReleased
  | setMetrics (metrics : Metrics)
  deriving DecidableEq

/-- The stores of `CallState::Finish` after the outcome has been claimed. -/
def finishStores (code : Int) (message : String) : List NetOp :=
  [.completeBody, .publishUnpublished, .storeErrorMessage message, .storeErrorCode code, .storeDone,
    .signalFinished, .signalProgress]

structure RequestObserver where
  maxRedirects : Int
  redirectCount : Nat
  deriving DecidableEq

namespace RequestObserver

def responseOps (head : ResponseHead) : List NetOp := [.onResponse head, .storeHeaders, .signalProgress]

def onReceivedRedirect (o : RequestObserver) (newLocation : String) (head : ResponseHead) :
    RequestObserver × List NetOp :=
  if o.maxRedirects ≤ o.redirectCount then
    (o, responseOps head ++ [.setRedirectCount o.redirectCount,
      if o.maxRedirects = 0 then .claimOutcome 0 ""
      else .claimOutcome CRONET_ERROR_TOO_MANY_REDIRECTS ("redirect limit reached at " ++ newLocation),
      .destroyRequest false])
  else ({ o with redirectCount := o.redirectCount + 1 }, [.onRedirect newLocation, .followRedirect])

def onResponseStarted (o : RequestObserver) (head : ResponseHead) : List NetOp :=
  responseOps head ++ [.setRedirectCount o.redirectCount, .readData]

def onReadCompleted (chunk : Bytes) : List NetOp := [.onData chunk]

def onSucceeded : List NetOp := [.claimOutcome 0 "", .destroyRequest false]

/-- `errorToString` is `net::ErrorToString(net_error)`. -/
def onError (netError : Int) (errorString errorToString : String) : List NetOp :=
  [.claimOutcome netError (if errorString = "" then errorToString else errorString), .destroyRequest false]

def onCanceled : List NetOp := [.claimOutcome CRONET_ERROR_ABORTED "the call was cancelled"]

def onDestroyed : List NetOp :=
  [.claimOutcome CRONET_ERROR_ABORTED "the call ended without a result", .unregisterCall, .clearRequest,
    .signalReleased]

def onMetricsCollected (metrics : Metrics) : List NetOp := [.setMetrics metrics]

end RequestObserver

/-- How far Chromium has taken a request. `holding` is a redirect deferred to the observer;
    after `ended` only teardown is left, after `dead` nothing. -/
inductive Phase where
  | idle
  | running
  | holding
  | body
  | ended
  | dead
  deriving DecidableEq

/-- A `CronetURLRequest`: every task posted on it, how many have run, and the reads running. -/
structure UrlRequest where
  posted : List Task
  ran : Nat
  phase : Phase
  reading : Nat
  deriving DecidableEq

inductive Callback where
  | onReceivedRedirect (newLocation : String) (head : ResponseHead)
  | onResponseStarted (head : ResponseHead)
  | onReadCompleted (chunk : Bytes)
  | onSucceeded
  | onError (netError : Int) (errorString errorToString : String)
  | onMetricsCollected (metrics : Metrics)
  deriving DecidableEq

namespace UrlRequest

def initial : UrlRequest := ⟨[], 0, .idle, 0⟩

def post (r : UrlRequest) (tasks : List Task) : UrlRequest := { r with posted := r.posted ++ tasks }

/-- The callbacks Chromium makes: redirects and then at most one response; each read completes
    at most once and brings at most a buffer; one success or error at most. -/
def accepts (r : UrlRequest) : Callback → Option UrlRequest
  | .onReceivedRedirect _ _ => if r.phase = .running then some { r with phase := .holding } else none
  | .onResponseStarted _ => if r.phase = .running then some { r with phase := .body } else none
  | .onReadCompleted chunk =>
    if r.phase = .body ∧ 0 < r.reading ∧ chunk.length ≤ kReadBufferSize then
      some { r with reading := r.reading - 1 }
    else none
  | .onSucceeded =>
    if r.phase = .body ∧ 0 < r.reading then some { r with phase := .ended, reading := r.reading - 1 } else none
  | .onError _ _ _ =>
    if r.phase = .running ∨ r.phase = .body then some { r with phase := .ended, reading := r.reading - 1 }
    else none
  | .onMetricsCollected _ => if r.phase = .idle ∨ r.phase = .dead then none else some r

/-- Runs the next posted task, with the callbacks it makes at once. Nothing runs once the
    request has been deleted. -/
def runTask (r : UrlRequest) (metrics : Option Metrics) : Option (UrlRequest × List NetOp) :=
  if r.phase = .dead then none
  else
    let next := { r with ran := r.ran + 1 }
    match r.posted[r.ran]? with
    | none => none
    | some .start => some (if r.phase = .idle then { next with phase := .running } else next, [])
    | some .readData => some ({ next with reading := r.reading + 1 }, [])
    | some .followDeferredRedirect => some (if r.phase = .holding then { next with phase := .running } else next, [])
    | some (.destroy sendOnCanceled) =>
      some ({ next with phase := .dead },
        (metrics.map RequestObserver.onMetricsCollected).getD [] ++
          (if sendOnCanceled then RequestObserver.onCanceled else []) ++ RequestObserver.onDestroyed)

theorem accepts_posted {r next : UrlRequest} {cb : Callback} (accepted : r.accepts cb = some next) :
    next.posted = r.posted := by
  cases cb <;> simp only [accepts] at accepted <;> split at accepted <;> cases accepted <;> rfl

theorem runTask_posted {r : UrlRequest} {metrics : Option Metrics} {ran : UrlRequest × List NetOp}
    (done : r.runTask metrics = some ran) : ran.1.posted = r.posted := by
  unfold runTask at done
  split at done
  · cases done
  · dsimp only at done
    split at done <;> cases done <;> (try split) <;> rfl

end UrlRequest

end Cronet.Native
