import Cronet.Native.Response
import Cronet.Lib.Checked
import Cronet.Request.Call
import Cronet.Session.Response

namespace Cronet.Request

open Cronet.Native (CRONET_ERROR_TOO_MANY_REDIRECTS)
open Cronet.Session (Response)
open Cronet.Url (Str Python origin urljoin)

theorem ok_of_toOption {ε α : Type} {x : Except ε α} {a : α} (nonempty : x.toOption = some a) : x = .ok a := by
  cases x with
  | error e => cases nonempty
  | ok _ => exact congrArg Except.ok (Option.some.inj nonempty)

theorem mapError_ok {ε ε' α : Type} {x : Except ε α} {f : ε → ε'} {a : α} (ok : x.mapError f = .ok a) :
    x = .ok a := by
  cases x with
  | error e => cases ok
  | ok _ => exact congrArg Except.ok (Except.ok.inj ok)

theorem mapError_error {ε ε' α : Type} {x : Except ε α} {f : ε → ε'} {e : ε'} (failed : x.mapError f = .error e) :
    ∃ e', x = .error e' ∧ e = f e' := by
  cases x with
  | error e' =>
    cases failed
    exact ⟨e', rfl, rfl⟩
  | ok _ => cases failed

def responseHeaders (response : Response) : Headers Str :=
  ⟨response.headers.map fun p => (p.1.toList, p.2.toList)⟩

variable [Library]

def CREDENTIAL_HEADERS : List Str := ["authorization".toList, "cookie".toList]

def isCredential (name : Str) : Bool := Python.lower name ∈ CREDENTIAL_HEADERS

def becomesGet (method : Str) (status : Int) : Bool :=
  (status = 303 && Python.upper method ≠ "HEAD".toList) ||
    ((status = 301 || status = 302) && Python.upper method = "POST".toList)

theorem becomesGet_iff {method : Str} {status : Int} :
    becomesGet method status = true ↔ (status = 303 ∧ Python.upper method ≠ "HEAD".toList) ∨
      ((status = 301 ∨ status = 302) ∧ Python.upper method = "POST".toList) := by
  simp only [becomesGet, Bool.or_eq_true, Bool.and_eq_true, decide_eq_true_eq]

def withoutBody (options : RequestOptions) : RequestOptions :=
  { options with body := none, form := none, files := none, json := none }

def withoutCredentials (options : RequestOptions) : RequestOptions :=
  let headers := Headers.mk (options.headers.getD [])
  { options with
    basicAuth := none
    bearerAuth := none
    headers :=
      if headers.contains "authorization".toList || headers.contains "cookie".toList then
        some (headers.pairs.filter fun p => !isCredential p.1)
      else options.headers }

def nextHop (method url : Str) (response : Response) (options : RequestOptions) :
    Except Raised (Option (Str × Str × RequestOptions)) :=
  let location := ((responseHeaders response).get? "location".toList).getD []
  if location = [] ∨ ¬(300 ≤ response.statusCode ∧ response.statusCode < 400) then .ok none
  else do
    let target ← (urljoin url location).mapError .url
    let get := becomesGet method response.statusCode
    let carried := if get then withoutBody options else options
    let here ← (origin url).mapError .url
    let there ← (origin target).mapError .url
    let carried := if here ≠ there then withoutCredentials carried else carried
    return some (if get then "GET".toList else method, target, carried)

/-- `RedirectChain`: a redirect chain walked one hop at a time. -/
structure RedirectChain (J : Type) where
  pending : Option (Str × Str × RequestOptions)
  limit : Int
  cookies : J
  history : List Response
  final : Option (Response × List Response)
  start : Str

namespace RedirectChain

variable {J : Type} [CookieJar J]

def initial (method url : Str) (options : RequestOptions) (limit : Int) (cookies : J) : RedirectChain J :=
  { pending := some (method, url, options), limit, cookies, history := [], final := none, start := url }

def receive (chain : RedirectChain J) (response : Response) : Except Raised (RedirectChain J) :=
  match chain.pending with
  | none => .error (.runtimeError "this redirect chain has already finished")
  | some (method, url, options) => do
    let cookies := CookieJar.store chain.cookies url (responseHeaders response)
    let hop ← nextHop method url response options
    match hop with
    | none => return { chain with cookies, final := some (response, chain.history), pending := none }
    | some hop =>
      if chain.limit = 0 then
        return { chain with cookies, final := some (response, chain.history), pending := none }
      else if chain.limit ≤ chain.history.length then
        .error (.cronet (.requestError .tooManyRedirects
          ("more than " ++ toString chain.limit ++ " redirects from " ++ String.ofList chain.start)
          CRONET_ERROR_TOO_MANY_REDIRECTS (String.ofList chain.start)))
      else return { chain with cookies, history := chain.history ++ [response], pending := some hop }

def result (chain : RedirectChain J) : Except Raised (Response × List Response) :=
  match chain.final with
  | none => .error (.runtimeError "this redirect chain has not finished")
  | some final => .ok final

end RedirectChain

theorem nextHop_some {method url : Str} {response : Response} {options : RequestOptions}
    {hop : Str × Str × RequestOptions} (found : nextHop method url response options = .ok (some hop)) :
    ∃ location carried here there, urljoin url location = .ok hop.2.1 ∧
      carried = (if becomesGet method response.statusCode then withoutBody options else options) ∧
      origin url = .ok here ∧ origin hop.2.1 = .ok there ∧
      hop.2.2 = if here ≠ there then withoutCredentials carried else carried := by
  unfold nextHop at found
  dsimp only at found
  split at found
  · cases found
  · obtain ⟨target, joined, found⟩ := Checked.bind_ok found
    obtain ⟨here, left, found⟩ := Checked.bind_ok found
    obtain ⟨there, entered, found⟩ := Checked.bind_ok found
    cases found
    exact ⟨_, _, here, there, mapError_ok joined, rfl, mapError_ok left, mapError_ok entered, rfl⟩

/-- What a response does to the hop a chain waits for: the chain ends, or the hop is `nextHop`'s. -/
theorem RedirectChain.receive_pending {J : Type} [CookieJar J] {chain next : RedirectChain J} {response : Response}
    (received : chain.receive response = .ok next) :
    ∃ method url options, chain.pending = some (method, url, options) ∧
      (next.pending = none ∨ ∃ hop, next.pending = some hop ∧ nextHop method url response options = .ok (some hop)) := by
  unfold RedirectChain.receive at received
  split at received
  · cases received
  · rename_i method url options waiting
    refine ⟨method, url, options, waiting, ?_⟩
    obtain ⟨hop, hopped, received⟩ := Checked.bind_ok received
    cases hop with
    | none =>
      cases received
      exact .inl rfl
    | some hop =>
      dsimp only at received
      split at received
      · cases received
        exact .inl rfl
      · split at received
        · cases received
        · cases received
          exact .inr ⟨hop, rfl, hopped⟩

end Cronet.Request
