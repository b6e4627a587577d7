import Cronet.Lib.Checked
import Cronet.Url.Join

namespace Cronet.Url

variable [Python]

def HostLiteral (hostname : Str) : Prop :=
  if hostname.head? = some 'v' then isIPvFuture hostname = true else Python.isIPv6Address hostname = true

/-- No bracket at all, or both, and where the first stands in the host it opens it and the host literal
    ends the authority or goes before a colon. -/
def Bracketed (netloc : Str) : Prop :=
  ('[' ∉ netloc ∧ ']' ∉ netloc) ∨
    ('[' ∈ netloc ∧ ']' ∈ netloc ∧
      let hostnameAndPort := (Cut.last '@' netloc).after
      let bracket := Cut.first '[' hostnameAndPort
      let closing := Cut.first ']' bracket.after
      if bracket.found then
        bracket.before = [] ∧ (closing.after = [] ∨ closing.after.head? = some ':') ∧ HostLiteral closing.before
      else HostLiteral (Cut.first ':' hostnameAndPort).before)

def Normal (netloc : Str) : Prop :=
  let n := netloc.filter (· ∉ ['@', ':', '#', '?'])
  isascii netloc = true ∨ (∀ c ∈ Python.normalizeNFKC n, c ∉ "/?#@:".toList) ∨ n = Python.normalizeNFKC n

def Readable (url : Str) : Prop :=
  Bracketed ((components url).netloc.getD []) ∧ Normal ((components url).netloc.getD [])

/-- A port is left out or a number of 16 bits, in no more digits than `int` takes. -/
def Ported (url : Str) : Prop :=
  ∀ port, (components url).hostinfo.2 = some port → port.all Char.isDigit = true ∧
    port.length ≤ SplitResult.INT_MAX_STR_DIGITS ∧ SplitResult.decimal port ≤ 65535

theorem checkBracketedHost_ok {hostname : Str} : checkBracketedHost hostname = .ok () ↔ HostLiteral hostname := by
  unfold checkBracketedHost HostLiteral
  split <;> split <;> simp_all

theorem checkBrackets_ok {netloc : Str} : checkBrackets netloc = .ok () ↔ Bracketed netloc := by
  unfold checkBrackets Bracketed
  by_cases opened : '[' ∈ netloc
  · by_cases closed : ']' ∈ netloc
    · simp only [opened, closed, and_self, ↓reduceIte, not_true_eq_false, false_or, true_and, checkBracketedNetloc]
      split
      · split
        · rename_i before
          simp [before]
        · rename_i before
          split
          · rename_i after
            simp [after.1, after.2]
          · rename_i after
            rw [checkBracketedHost_ok]
            tauto
      · exact checkBracketedHost_ok
    · simp [opened, closed]
  · by_cases closed : ']' ∈ netloc <;> simp [opened, closed]

theorem checkNetloc_ok {netloc : Str} : checkNetloc netloc = .ok () ↔ Normal netloc := by
  unfold checkNetloc Normal
  split
  · rename_i ascii
    simp [ascii]
  · rename_i wide
    dsimp only
    split
    · rename_i changed
      simp only [reduceCtorEq, false_iff, not_or]
      refine ⟨wide, fun clean => ?_, changed.2⟩
      obtain ⟨c, member, delimiter⟩ := List.any_eq_true.mp changed.1
      exact clean c member (by simpa using delimiter)
    · rename_i kept
      simp only [true_iff]
      rw [not_and_or, not_not] at kept
      refine .inr (kept.imp (fun clean c member delimiter => ?_) id)
      exact clean (List.any_eq_true.mpr ⟨c, member, by simpa using delimiter⟩)

theorem urlsplit_ok {url : Str} {parts : SplitResult} :
    urlsplit url = .ok parts ↔ Readable url ∧ parts = components url := by
  unfold Readable
  rw [← checkBrackets_ok, ← checkNetloc_ok]
  constructor
  · intro accepted
    obtain ⟨_, brackets, accepted⟩ := Checked.bind_ok accepted
    obtain ⟨_, normal, accepted⟩ := Checked.bind_ok accepted
    cases accepted
    exact ⟨⟨brackets, normal⟩, rfl⟩
  · rintro ⟨⟨brackets, normal⟩, rfl⟩
    simp only [urlsplit, brackets, normal]
    rfl

omit [Python] in
theorem port_some {parts : SplitResult} {text : Str} (written : parts.hostinfo.2 = some text) {number : Option Nat} :
    parts.port = .ok number ↔ text.all Char.isDigit = true ∧ text.length ≤ SplitResult.INT_MAX_STR_DIGITS ∧
      SplitResult.decimal text ≤ 65535 ∧ number = some (SplitResult.decimal text) := by
  unfold SplitResult.port SplitResult.int
  rw [written]
  dsimp only
  by_cases digits : text.all Char.isDigit = true
  · by_cases short : text.length ≤ SplitResult.INT_MAX_STR_DIGITS
    · rw [if_pos short, digits, Checked.ok_bind]
      by_cases range : SplitResult.decimal text ≤ 65535
      · simp [short, range, eq_comm]
      · simp [range]
    · rw [if_neg short]
      simp [digits, short, bind, Except.bind]
  · simp [digits]

theorem port_ok {url : Str} : (∃ port, (components url).port = .ok port) ↔ Ported url := by
  unfold Ported
  cases written : (components url).hostinfo.2 with
  | none =>
    refine iff_of_true ⟨none, ?_⟩ fun port missing => by cases missing
    rw [SplitResult.port, written]
  | some text =>
    simp only [port_some written, Option.some.injEq, forall_eq', exists_and_left, exists_eq, and_true]

theorem origin_ok {url : Str} : (∃ o, origin url = .ok o) ↔ Readable url ∧ Ported url := by
  rw [← port_ok]
  constructor
  · rintro ⟨o, read⟩
    obtain ⟨parts, split, read⟩ := Checked.bind_ok read
    obtain ⟨port, ported, _⟩ := Checked.bind_ok read
    obtain ⟨readable, rfl⟩ := urlsplit_ok.mp split
    exact ⟨readable, port, ported⟩
  · rintro ⟨readable, port, ported⟩
    simp only [origin, urlsplit_ok.mpr ⟨readable, rfl⟩]
    exact ⟨_, by simp only [bind, Except.bind, ported]; rfl⟩

theorem urlparse_ok {url : Str} : (∃ parsed, urlparse url = .ok parsed) ↔ Readable url := by
  constructor
  · rintro ⟨parsed, read⟩
    obtain ⟨parts, split, _⟩ := Checked.bind_ok read
    exact (urlsplit_ok.mp split).1
  · intro readable
    simp only [urlparse, urlsplit_ok.mpr ⟨readable, rfl⟩]
    simp only [bind, Except.bind]
    split <;> exact ⟨_, rfl⟩

theorem urljoin_ok {base url : Str} (based : base ≠ []) (given : url ≠ []) :
    (∃ target, urljoin base url = .ok target) ↔ Readable base ∧ Readable url := by
  rw [← urlparse_ok, ← urlparse_ok, urljoin, if_neg based, if_neg given]
  constructor
  · rintro ⟨target, joined⟩
    obtain ⟨b, parsedBase, joined⟩ := Checked.bind_ok joined
    obtain ⟨u, parsed, _⟩ := Checked.bind_ok joined
    exact ⟨⟨b, parsedBase⟩, u, parsed⟩
  · rintro ⟨⟨b, parsedBase⟩, u, parsed⟩
    simp only [parsedBase, parsed, bind, Except.bind]
    split
    · exact ⟨_, rfl⟩
    · split
      · exact ⟨_, rfl⟩
      · split <;> exact ⟨_, rfl⟩

end Cronet.Url
