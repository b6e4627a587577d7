import Mathlib.Data.List.Basic

/-- What a search for matches makes of a text: the elements outside of them, and the matches. -/
inductive Scanned (α : Type*) where
  | plain (a : α)
  | hit (found : List α)
  deriving DecidableEq

namespace Scanned

variable {α β : Type*}

def raw : Scanned α → List α
  | plain a => [a]
  | hit found => found

def map (f : α → β) : Scanned α → Scanned β
  | plain a => plain (f a)
  | hit found => hit (found.map f)

def write (replacement : List α) : Scanned α → List α
  | plain a => [a]
  | hit _ => replacement

/-- The text with what matches at its head told by `find`, as how many elements the match has behind its first;
    of the last match `skip` elements are left. -/
def scanFrom (find : List α → Option Nat) : (skip : Nat) → List α → List (Scanned α)
  | _, [] => []
  | skip + 1, _ :: rest => scanFrom find skip rest
  | 0, a :: rest =>
    match find (a :: rest) with
    | some n => hit ((a :: rest).take (n + 1)) :: scanFrom find n rest
    | none => plain a :: scanFrom find 0 rest

/-- The matches from left to right, each looked for where the one before it ends. -/
def scan (find : List α → Option Nat) (text : List α) : List (Scanned α) := scanFrom find 0 text

/-- `re.sub`, for a pattern that matches no empty text. -/
def sub (find : List α → Option Nat) (replacement text : List α) : List α := (scan find text).flatMap (write replacement)

variable {find : List α → Option Nat} {text rest : List α} {a : α} {n : Nat}

theorem scanFrom_drop (skip : Nat) (text : List α) : scanFrom find skip text = scan find (text.drop skip) := by
  induction skip generalizing text with
  | zero => rfl
  | succ skip ih =>
    cases text with
    | nil => rfl
    | cons a rest => exact ih rest

theorem scan_plain (missed : find (a :: rest) = none) : scan find (a :: rest) = plain a :: scan find rest := by
  simp only [scan, scanFrom, missed]

theorem scan_hit (found : find (a :: rest) = some n) :
    scan find (a :: rest) = hit ((a :: rest).take (n + 1)) :: scan find (rest.drop n) := by
  simp only [scan, scanFrom, found]
  rw [scanFrom_drop]
  rfl

theorem scan_eq_cons {part : Scanned α} {parts : List (Scanned α)} (scanned : scan find text = part :: parts) :
    ∃ a rest, text = a :: rest ∧ (find text = none ∧ part = plain a ∧ parts = scan find rest ∨
      ∃ n, find text = some n ∧ part = hit (text.take (n + 1)) ∧ parts = scan find (rest.drop n)) := by
  cases text with
  | nil => cases scanned
  | cons a rest =>
    refine ⟨a, rest, rfl, ?_⟩
    cases found : find (a :: rest) with
    | none =>
      rw [scan_plain found] at scanned
      cases scanned
      exact .inl ⟨rfl, rfl, rfl⟩
    | some n =>
      rw [scan_hit found] at scanned
      cases scanned
      exact .inr ⟨n, rfl, rfl, rfl⟩

theorem scan_map {f : β → α} (texts : List β) :
    scan find (texts.map f) = (scan (fun text => find (text.map f)) texts).map (map f) := by
  suffices ∀ skip, scanFrom find skip (texts.map f) =
      (scanFrom (fun text => find (text.map f)) skip texts).map (map f) from this 0
  induction texts with
  | nil => exact fun skip => rfl
  | cons b texts ih =>
    intro skip
    cases skip with
    | succ skip => exact ih skip
    | zero =>
      simp only [List.map_cons, scanFrom]
      cases find (f b :: texts.map f) with
      | none => simp only [ih, List.map_cons, map]
      | some n => simp only [ih, List.map_cons, map, List.map_take]

end Scanned
