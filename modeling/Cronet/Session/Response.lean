import Cronet.Native.CallState

namespace Cronet.Session

open Cronet.Native (Bytes Metrics ResponseView)

structure RawResponse where
  statusCode : Int
  reason : String
  headers : List (String × String)
  url : String
  httpVersion : String
  redirectCount : Nat
  fromCache : Bool
  proxy : String
  metrics : Metrics
  deriving DecidableEq

structure Response extends RawResponse where
  content : Bytes
  deriving DecidableEq

def Response.fromRaw (raw : RawResponse) (content : Bytes) : Response := { raw with content }

/-- `RequestError` and its subclasses. -/
inductive RequestErrorClass where
  | requestError
  | connectionFailed
  | timeout
  | cancelled
  | tooManyRedirects
  | proxyFailed
  | certificateError
  deriving DecidableEq

/-- What derives from `CronetError`, as far as a call raises it. -/
inductive CronetError where
  | requestError (kind : RequestErrorClass) (message : String) (netError : Int) (url : String)
  | protocolDowngraded (message : String) (response : Response)
  deriving DecidableEq

/-- The `response` of an exception that has one. -/
def CronetError.response? : CronetError → Option Response
  | .requestError .. => none
  | .protocolDowngraded _ response => some response

/-- An exception: the package's own, or `TimeoutError` and `CancelledError` of the language. -/
inductive PyError where
  | cronet (e : CronetError)
  | timeoutError
  | cancelledError
  deriving DecidableEq

def PyError.isCronetError : PyError → Bool
  | .cronet _ => true
  | _ => false

def ERROR_TIMED_OUT : Int := -7

def PROXY_ERRORS : List Int := [-115, -127, -130, -131, -136, -144, -336]
def SSL_ERRORS : List Int := [-107, -113, -117, -122, -126, -141, -164]
def TIMEOUT_ERRORS : List Int := [-7, -118]
def CANCELLED : Int := -3
def REDIRECT_LIMIT : Int := -31

def errorClass (netError : Int) : RequestErrorClass :=
  if netError ∈ TIMEOUT_ERRORS then .timeout
  else if netError = CANCELLED then .cancelled
  else if netError = REDIRECT_LIMIT then .tooManyRedirects
  else if netError ∈ PROXY_ERRORS then .proxyFailed
  else if netError ∈ SSL_ERRORS ∨ (-300 < netError ∧ netError ≤ -200) then .certificateError
  else if -200 < netError ∧ netError ≤ -100 then .connectionFailed
  else .requestError

def errorFor (netError : Int) (message url : String) : CronetError :=
  let text :=
    if url = "" then message
    else (if message = "" then "network error " ++ toString netError else message) ++ " for " ++ url
  .requestError (errorClass netError) text netError url

/-- `_read_response`: the pointer is null until the call has headers or an end. -/
def readResponse (pointer : Option ResponseView) (url : String) : Except CronetError RawResponse :=
  match pointer with
  | none => .error (.requestError .requestError "the call has not finished" 0 url)
  | some raw =>
    if raw.errorCode ≠ 0 then .error (errorFor raw.errorCode (raw.errorMessage.getD "") url)
    else
      let proxy := raw.proxyServer.getD ""
      .ok {
        statusCode := raw.statusCode
        reason := raw.statusText.getD ""
        headers := raw.headers
        url := raw.finalUrl.getD ""
        httpVersion := raw.negotiatedProtocol.getD ""
        redirectCount := raw.redirectCount
        fromCache := raw.wasCached
        proxy := if proxy ∈ ["", ":0", "direct://"] then "direct" else proxy
        metrics := raw.metrics }

/-- `_checked`: a session that requires HTTP/3 takes nothing else. -/
def checked (requireHttp3 : Bool) (response : Response) : Except CronetError Response :=
  if requireHttp3 ∧ response.httpVersion ≠ "h3" then
    .error (.protocolDowngraded (response.url ++ " answered over " ++
      (if response.httpVersion = "" then "an unknown protocol" else response.httpVersion) ++
      ", not HTTP/3, and this session was opened with require_http3=True") response)
  else .ok response

theorem readResponse_ok {pointer : Option ResponseView} {url : String} {raw : RawResponse}
    (ok : readResponse pointer url = .ok raw) :
    ∃ view, pointer = some view ∧ view.errorCode = 0 ∧ raw.httpVersion = view.negotiatedProtocol.getD "" := by
  unfold readResponse at ok
  split at ok
  · cases ok
  · rename_i view
    split at ok
    · cases ok
    · rename_i zero
      cases ok
      exact ⟨view, rfl, by simpa using zero, rfl⟩

theorem readResponse_error {pointer : Option ResponseView} {url : String} {e : CronetError}
    (failed : readResponse pointer url = .error e) : e.response? = none := by
  unfold readResponse at failed
  split at failed
  · cases failed
    rfl
  · split at failed
    · cases failed
      rfl
    · cases failed

theorem checked_ok {requireHttp3 : Bool} {response passed : Response} (ok : checked requireHttp3 response = .ok passed) :
    passed = response ∧ (requireHttp3 = true → response.httpVersion = "h3") := by
  unfold checked at ok
  split at ok
  · cases ok
  · rename_i accepted
    cases ok
    exact ⟨rfl, by simpa using accepted⟩

def handed : Except CronetError Response → Option Response
  | .ok response => some response
  | .error e => e.response?

theorem checked_handed (requireHttp3 : Bool) (response : Response) : handed (checked requireHttp3 response) = some response := by
  unfold checked
  split <;> rfl

end Cronet.Session
