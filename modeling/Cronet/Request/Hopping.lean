import Cronet.Request.Composing

namespace Cronet.Request

open Cronet.Session (Response)
open Cronet.Url (Str Python origin)

section

variable [Library] {T : Type}

/-- The dict a request was given: beside what a call is built from, the timeout its session reads. -/
structure OptionDict (T : Type) where
  given : GivenOptions
  timeout : Option T

/-- What an `if` over a body option looks for. -/
abbrev Bodies := Option FileContent × Option (List (Str × Str)) × Option (List (Str × FileSpec)) × Option Library.Json

namespace OptionDict

def bodies (options : OptionDict T) : Bodies :=
  (options.given.options.body, options.given.options.form, options.given.options.files, options.given.options.json)

def credentials (options : OptionDict T) : Option (Str × Str) × Option Str :=
  (options.given.options.basicAuth, options.given.options.bearerAuth)

def headers (options : OptionDict T) : List (Str × Str) := options.given.source.pairs

def others (options : OptionDict T) : Option (List (Str × Str)) × Option T × Option Int × Option Str × Option Bool :=
  (options.given.options.query, options.timeout, options.given.options.maxRedirects, options.given.options.priority,
    options.given.options.disableCache)

/-- `next_hop` over a copy of the caller's dict: the hop, and what the caller's own dict is left with. An iterator
    in it is the caller's still, and is walked where the hop leads elsewhere. -/
def nextHop (method url : Str) (response : Response) (options : OptionDict T) :
    Except Raised (Option (Str × Str × OptionDict T) × OptionDict T) := do
  let hop ← options.given.nextHop method url response
  return match hop with
    | none => (none, options)
    | some (method, target, given) =>
      (some (method, target, { options with given }),
        if origin url = origin target then options else { options with given := options.given.walked })

end OptionDict

/-- What is promised of a hop: which options go along, and that the caller keeps them all. -/
structure HopLaws (method url : Str) (status : Int) (options : OptionDict T) (hop : Str × Str × OptionDict T)
    (left : OptionDict T) : Prop where
  becomes : hop.1 =
    if (status = 303 ∧ Python.upper method ≠ "HEAD".toList) ∨
        ((status = 301 ∨ status = 302) ∧ Python.upper method = "POST".toList) then "GET".toList else method
  bodies : hop.2.2.bodies = if Python.upper hop.1 = Python.upper method then options.bodies else (none, none, none, none)
  credentials : hop.2.2.credentials = if origin url = origin hop.2.1 then options.credentials else (none, none)
  headers : hop.2.2.headers = if origin url = origin hop.2.1 then options.headers else plainPairs options.headers
  others : hop.2.2.others = options.others
  caller : left = options

def GetKept (method : Str) (status : Int) (options : OptionDict T) : Prop :=
  status = 303 ∧ Python.upper method = "GET".toList ∧ options.bodies ≠ (none, none, none, none)

theorem upper_get : Python.upper "GET".toList = "GET".toList := by
  rw [Python.upper_ascii (by decide)]
  decide

theorem plainPairs_of_none {pairs : List (Str × Str)}
    (none : ¬((Headers.mk pairs).contains "authorization".toList = true ∨ (Headers.mk pairs).contains "cookie".toList = true)) :
    plainPairs pairs = pairs := by
  have lowered : Python.lower "authorization".toList = "authorization".toList ∧
      Python.lower "cookie".toList = "cookie".toList :=
    ⟨(Python.lower_ascii (by decide)).trans (by decide), (Python.lower_ascii (by decide)).trans (by decide)⟩
  rw [plainPairs, List.filter_eq_self]
  intro p member
  rw [Bool.not_eq_true', isCredential, decide_eq_false_iff_not, CREDENTIAL_HEADERS, List.mem_cons, List.mem_singleton]
  rintro (same | same)
  · exact none (.inl (Headers.contains_iff.mpr (List.mem_map.mpr ⟨p, member, same.trans lowered.1.symm⟩)))
  · exact none (.inr (Headers.contains_iff.mpr (List.mem_map.mpr ⟨p, member, same.trans lowered.2.symm⟩)))

namespace GivenOptions

variable {given : GivenOptions}

theorem withoutCredentials_lasting (lasting : given.source.Lasting) :
    given.withoutCredentials.source.pairs = plainPairs given.source.pairs := by
  unfold withoutCredentials
  dsimp only
  split
  · rfl
  · rename_i none
    rw [HeaderSource.walked_pairs lasting, plainPairs_of_none (by simpa using none)]

theorem walked_eq : given.walked = given ↔ given.source.Lasting := by
  obtain ⟨source, options⟩ := given
  cases source with
  | iterator pairs => simp [walked, HeaderSource.walked, HeaderSource.Lasting, eq_comm]
  | _ => simp [walked, HeaderSource.walked, HeaderSource.Lasting]

theorem nextHop_hop {method url : Str} {response : Response} {hop : Str × Str × GivenOptions}
    (found : given.nextHop method url response = .ok (some hop)) :
    hop.1 = (if becomesGet method response.statusCode then "GET".toList else method) ∧
      hop.2.2 =
        let carried := if becomesGet method response.statusCode then given.withoutBody else given
        if origin url = origin hop.2.1 then carried else carried.withoutCredentials := by
  unfold nextHop at found
  dsimp only at found
  split at found
  · cases found
  · obtain ⟨target, _, found⟩ := Checked.bind_ok found
    obtain ⟨here, left, found⟩ := Checked.bind_ok found
    obtain ⟨there, entered, found⟩ := Checked.bind_ok found
    cases found
    refine ⟨rfl, ?_⟩
    dsimp only
    rw [mapError_ok left, mapError_ok entered]
    simp only [ne_eq, ite_not, Except.ok.injEq]

end GivenOptions

variable {method url : Str} {response : Response} {options left : OptionDict T} {hop : Str × Str × OptionDict T}

theorem OptionDict.nextHop_ok (found : options.nextHop method url response = .ok (some hop, left)) :
    options.given.nextHop method url response = .ok (some (hop.1, hop.2.1, hop.2.2.given)) ∧
      hop.2.2.timeout = options.timeout ∧
      left = if origin url = origin hop.2.1 then options else { options with given := options.given.walked } := by
  obtain ⟨hop', hopped, found⟩ := Checked.bind_ok found
  cases hop' with
  | none => cases found
  | some hop' =>
    cases found
    exact ⟨hopped, rfl, rfl⟩

theorem bodies_iff (becomes : hop.1 = if becomesGet method response.statusCode then "GET".toList else method)
    (carried : hop.2.2.bodies = if becomesGet method response.statusCode then (none, none, none, none) else options.bodies) :
    (hop.2.2.bodies = if Python.upper hop.1 = Python.upper method then options.bodies else (none, none, none, none)) ↔
      ¬GetKept method response.statusCode options := by
  rw [carried, becomes]
  cases get : becomesGet method response.statusCode with
  | false =>
    simp only [Bool.false_eq_true, ↓reduceIte, true_iff]
    rintro ⟨status, same, _⟩
    have other : Python.upper method ≠ "HEAD".toList := same ▸ by decide
    rw [becomesGet_iff.mpr (.inl ⟨status, other⟩)] at get
    cases get
  | true =>
    simp only [↓reduceIte, upper_get, GetKept, not_and, not_not]
    split
    · rename_i same
      constructor
      · exact fun none _ _ => none.symm
      · intro kept
        rcases becomesGet_iff.mp get with ⟨status, _⟩ | ⟨_, post⟩
        · exact (kept status same.symm).symm
        · exact absurd (same.trans post) (by decide)
    · rename_i other
      exact ⟨fun _ _ same => absurd same.symm other, fun _ => rfl⟩

/-- A hop keeps its promises exactly unless a GET is answered by a 303, or an iterator's headers go elsewhere. -/
theorem hopLaws_iff (found : options.nextHop method url response = .ok (some hop, left)) :
    HopLaws method url response.statusCode options hop left ↔
      ¬GetKept method response.statusCode options ∧ (origin url = origin hop.2.1 ∨ options.given.source.Lasting) := by
  obtain ⟨hopped, timeout, rest⟩ := OptionDict.nextHop_ok found
  obtain ⟨becomes, carried⟩ := GivenOptions.nextHop_hop hopped
  dsimp only at becomes carried
  have bodies : hop.2.2.bodies =
      if becomesGet method response.statusCode then (none, none, none, none) else options.bodies := by
    rw [OptionDict.bodies, carried]
    split <;> split <;> rfl
  rw [← bodies_iff becomes bodies]
  constructor
  · intro laws
    refine ⟨laws.bodies, or_iff_not_imp_left.mpr fun elsewhere => ?_⟩
    have kept := laws.caller
    rw [rest, if_neg elsewhere] at kept
    exact GivenOptions.walked_eq.mp (congrArg OptionDict.given kept)
  · rintro ⟨bodies, lasting⟩
    refine ⟨?_, bodies, ?_, ?_, ?_, ?_⟩
    · rw [becomes]
      simp only [becomesGet_iff]
    · rw [OptionDict.credentials, carried]
      split <;> split <;> rfl
    · rw [OptionDict.headers, carried]
      split
      · split <;> rfl
      · rename_i elsewhere
        have lasts := lasting.resolve_left elsewhere
        split
        · exact @GivenOptions.withoutCredentials_lasting _ options.given.withoutBody lasts
        · exact GivenOptions.withoutCredentials_lasting lasts
    · rw [OptionDict.others, carried, timeout]
      split <;> split <;> rfl
    · rw [rest]
      split
      · rfl
      · rename_i elsewhere
        rw [GivenOptions.walked_eq.mpr (lasting.resolve_left elsewhere)]

end

section

attribute [local instance] asciiLibrary

def seeOther (location : String) : Response := { redirectTo location with statusCode := 303 }

def upload : OptionDict Nat :=
  ⟨⟨.sequence apiKey, { RequestOptions.empty with body := some (.text "x".toList), bearerAuth := some "T".toList }⟩, some 5⟩

/-- A POST answered elsewhere by a 303 goes on as a GET without its body and its token. -/
theorem hopLaws_post :
    ∃ hop left, upload.nextHop "POST".toList "https://a.test/".toList (seeOther "https://b.test/") =
        .ok (some hop, left) ∧ hop.1 = "GET".toList ∧
      HopLaws "POST".toList "https://a.test/".toList 303 upload hop left := by
  have kept : ¬GetKept "POST".toList 303 upload := by
    rintro ⟨_, same, _⟩
    exact absurd same (by decide)
  have lasting : upload.given.source.Lasting := trivial
  obtain ⟨hop, left, found, becomes⟩ : ∃ hop left,
      upload.nextHop "POST".toList "https://a.test/".toList (seeOther "https://b.test/") = .ok (some hop, left) ∧
        hop.1 = "GET".toList := ⟨_, _, rfl, rfl⟩
  exact ⟨hop, left, found, becomes, (hopLaws_iff found).mpr ⟨kept, .inr lasting⟩⟩

/-- A GET that is answered by a 303 stays a GET and loses its body all the same. -/
theorem get_loses_body :
    ∃ hop left, upload.nextHop "GET".toList "https://a.test/".toList (seeOther "/next") = .ok (some hop, left) ∧
      hop.1 = "GET".toList ∧ hop.2.2.bodies = (none, none, none, none) ∧
      ¬HopLaws "GET".toList "https://a.test/".toList 303 upload hop left := by
  refine ⟨_, _, rfl, rfl, rfl, fun laws => ?_⟩
  have bodies : (none, none, none, none) =
      if Python.upper "GET".toList = Python.upper "GET".toList then upload.bodies else (none, none, none, none) := laws.bodies
  rw [if_pos rfl] at bodies
  cases bodies

end

end Cronet.Request
