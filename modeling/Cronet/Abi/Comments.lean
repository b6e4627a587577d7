import Cronet.Lib.Infix
import Cronet.Lib.Scan

namespace Cronet.Abi

open Scanned (scan sub)

/-- Where `/\*.*?\*/` matches at the head of a text, as what it has behind its first character. -/
def blockMatch : List Char → Option Nat
  | '/' :: '*' :: rest => (rest.dropInfix? ['*', '/']).map fun (body, _) => body.length + 3
  | _ => none

/-- Where `//[^\n]*` matches. -/
def lineMatch : List Char → Option Nat
  | '/' :: '/' :: rest => some ((rest.takeWhile (· ≠ '\n')).length + 1)
  | _ => none

def stripComments (source : List Char) : List Char :=
  let withoutBlocks := sub blockMatch [' '] source
  sub lineMatch [] withoutBlocks

inductive Piece where
  | code (c : Char)
  | block (raw : List Char)
  | line (raw : List Char)
  deriving DecidableEq

namespace Piece

def raw : Piece → List Char
  | code c => [c]
  | block raw => raw
  | line raw => raw

/-- What is left of a piece when the comments are out; one in a line ends where the line does. -/
def left : Piece → List Char
  | code c => [c]
  | block _ => [' ']
  | line _ => []

end Piece

inductive Splices : List Char → Prop
  | nil : Splices []
  | cons {glue : List Char} (more : Splices glue) : Splices ('\\' :: '\n' :: glue)

def Joins (first second : Char) (raw : List Char) : Prop := ∃ glue, Splices glue ∧ raw = first :: (glue ++ [second])

/-- The pieces a C lexer reads a source as, for a source with no string and no character literal in its code. -/
inductive Lexes : List Char → List Piece → Prop
  | nil : Lexes [] []
  | code {c : Char} {rest : List Char} {pieces : List Piece} (noString : c ≠ '"') (noCharacter : c ≠ '\'')
      (apart : ∀ opener behind, c :: rest = opener ++ behind → ¬Joins '/' '*' opener ∧ ¬Joins '/' '/' opener)
      (lexes : Lexes rest pieces) : Lexes (c :: rest) (.code c :: pieces)
  | block {opener body closer rest : List Char} {pieces : List Piece} (opens : Joins '/' '*' opener)
      (closes : Joins '*' '/' closer)
      (first : ∀ front early back, body ++ closer = front ++ (early ++ back) → Joins '*' '/' early → back = [])
      (lexes : Lexes rest pieces) :
      Lexes (opener ++ (body ++ closer) ++ rest) (.block (opener ++ (body ++ closer)) :: pieces)
  | line {opener body rest : List Char} {pieces : List Piece} (opens : Joins '/' '/' opener)
      (spliced : ∀ front back, body = front ++ '\n' :: back → front.getLast? = some '\\')
      (ends : rest = [] ∨ rest.head? = some '\n' ∧ body.getLast? ≠ some '\\')
      (lexes : Lexes rest pieces) : Lexes (opener ++ body ++ rest) (.line (opener ++ body) :: pieces)

def seen : Scanned Char → Char
  | .plain c => c
  | .hit _ => ' '

def piece : Scanned (Scanned Char) → Piece
  | .plain (.plain c) => .code c
  | .plain (.hit raw) => .block raw
  | .hit parts => .line (parts.flatMap Scanned.raw)

def seenMatch (parts : List (Scanned Char)) : Option Nat := lineMatch (parts.map seen)

def taken (source : List Char) : List Piece := (scan seenMatch (scan blockMatch source)).map piece

def Bare (raw : List Char) : Prop := ∃ body, raw = '/' :: '*' :: (body ++ ['*', '/'])

/-- The body of a line comment, with the text behind it: all that the first pass takes out of it ends in it, and every
    newline in it is taken out. -/
inductive Within (behind : List Char) : List Char → Prop
  | done : Within behind []
  | char {c : Char} {body : List Char} (same : c ≠ '\n')
      (alone : ∀ inner, c :: body = '/' :: '*' :: inner → ¬['*', '/'] <:+: inner ++ behind)
      (rest : Within behind body) : Within behind (c :: body)
  | span {inner body : List Char} (closed : ¬['*', '/'] <:+: inner) (rest : Within behind body) :
      Within behind ('/' :: '*' :: (inner ++ (['*', '/'] ++ body)))

def Clear (raw behind : List Char) : Prop :=
  ∃ body, raw = '/' :: '/' :: body ∧ (∀ inner, body = '*' :: inner → ¬['*', '/'] <:+: inner ++ behind) ∧ Within behind body

def Plain : List Piece → Prop
  | [] => True
  | .code _ :: pieces => Plain pieces
  | .block raw :: pieces => Bare raw ∧ Plain pieces
  | .line raw :: pieces => Clear raw (pieces.flatMap Piece.raw) ∧ Plain pieces

/-- Exactly the comments are taken out, each as what it is, and every other character is kept. -/
def Strips (source : List Char) (pieces : List Piece) : Prop :=
  taken source = pieces ∧ stripComments source = pieces.flatMap Piece.left

theorem stripComments_taken (source : List Char) : stripComments source = (taken source).flatMap Piece.left := by
  have blocks : sub blockMatch [' '] source = (scan blockMatch source).map seen := by
    rw [sub, List.map_eq_flatMap]
    apply List.flatMap_congr
    intro part _
    cases part <;> rfl
  unfold stripComments taken
  simp only [blocks]
  rw [sub, Scanned.scan_map, List.flatMap_map, List.flatMap_map]
  apply List.flatMap_congr
  intro part _
  cases part with
  | plain part => cases part <;> rfl
  | hit parts => rfl

section Matches

variable {text rest behind inner body raw : List Char} {c : Char} {n : Nat}

theorem closer_unbordered : List.Unbordered ['*', '/'] := List.unbordered_cons (by decide)

theorem blockMatch_closed (closed : ¬['*', '/'] <:+: inner) :
    blockMatch ('/' :: '*' :: (inner ++ (['*', '/'] ++ rest))) = some (inner.length + 3) := by
  simp only [blockMatch, List.dropInfix?_first closer_unbordered closed, Option.map_some]

theorem blockMatch_none : blockMatch text = none ↔ ∀ inner, text = '/' :: '*' :: inner → ¬['*', '/'] <:+: inner := by
  constructor
  · rintro missed inner rfl
    exact (List.dropInfix?_eq_none closer_unbordered nofun).mp (Option.map_eq_none_iff.mp missed)
  · intro absent
    unfold blockMatch
    split
    · rename_i inner
      exact Option.map_eq_none_iff.mpr ((List.dropInfix?_eq_none closer_unbordered nofun).mpr (absent inner rfl))
    · rfl

theorem blockMatch_apart (apart : c ≠ '/') : blockMatch (c :: rest) = none :=
  blockMatch_none.mpr fun _ begins => absurd (List.cons.inj begins).1 apart

theorem blockMatch_some (found : blockMatch text = some n) :
    ∃ inner rest, text = '/' :: '*' :: (inner ++ (['*', '/'] ++ rest)) ∧ ¬['*', '/'] <:+: inner ∧ n = inner.length + 3 := by
  unfold blockMatch at found
  split at found
  · rename_i text
    obtain ⟨⟨inner, rest⟩, cut, rfl⟩ := Option.map_eq_some_iff.mp found
    obtain ⟨rfl, closed⟩ := List.dropInfix?_cut closer_unbordered nofun cut
    exact ⟨inner, rest, rfl, closed, rfl⟩
  · cases found

theorem lineMatch_none : lineMatch text = none ↔ ∀ rest, text ≠ '/' :: '/' :: rest := by
  constructor
  · rintro missed rest rfl
    cases missed
  · intro absent
    unfold lineMatch
    split
    · exact absurd rfl (absent _)
    · rfl

theorem scan_block (closed : ¬['*', '/'] <:+: inner) :
    scan blockMatch ('/' :: '*' :: (inner ++ (['*', '/'] ++ rest))) =
      .hit ('/' :: '*' :: (inner ++ ['*', '/'])) :: scan blockMatch rest := by
  have shape : inner ++ (['*', '/'] ++ rest) = (inner ++ ['*', '/']) ++ rest := (List.append_assoc ..).symm
  have length : inner.length + 2 = (inner ++ ['*', '/']).length := by simp
  rw [Scanned.scan_hit (blockMatch_closed closed), shape]
  simp only [List.take_succ_cons, List.drop_succ_cons, length, List.take_left, List.drop_left]

theorem scan_block_cases {part : Scanned Char} {parts : List (Scanned Char)} (scanned : scan blockMatch text = part :: parts) :
    (∃ c rest, text = c :: rest ∧ blockMatch text = none ∧ part = .plain c ∧ parts = scan blockMatch rest) ∨
    (∃ inner rest, text = '/' :: '*' :: (inner ++ (['*', '/'] ++ rest)) ∧ ¬['*', '/'] <:+: inner ∧
      part = .hit ('/' :: '*' :: (inner ++ ['*', '/'])) ∧ parts = scan blockMatch rest) := by
  obtain ⟨c, rest, split, ⟨missed, rfl, rfl⟩ | ⟨n, found, -, -⟩⟩ := Scanned.scan_eq_cons scanned
  · exact .inl ⟨c, rest, split, missed, rfl, rfl⟩
  · obtain ⟨inner, rest, rfl, closed, -⟩ := blockMatch_some found
    rw [scan_block closed] at scanned
    cases scanned
    exact .inr ⟨inner, rest, rfl, closed, rfl, rfl⟩

theorem taken_plain (missed : blockMatch (c :: rest) = none)
    (apart : c = '/' → ∀ behind, rest ≠ '/' :: behind) : taken (c :: rest) = .code c :: taken rest := by
  unfold taken
  rw [Scanned.scan_plain missed, Scanned.scan_plain]
  · rfl
  apply lineMatch_none.mpr
  intro behind slashes
  obtain ⟨rfl, next⟩ := List.cons.inj slashes
  cases scanned : scan blockMatch rest with
  | nil =>
    rw [scanned] at next
    cases next
  | cons part parts =>
    rw [scanned] at next
    rcases scan_block_cases scanned with ⟨c, rest, rfl, _, rfl, _⟩ | ⟨_, _, _, _, rfl, _⟩
    · obtain rfl : c = '/' := (List.cons.inj next).1
      exact apart rfl rest rfl
    · cases next

theorem taken_block (closed : ¬['*', '/'] <:+: inner) :
    taken ('/' :: '*' :: (inner ++ (['*', '/'] ++ rest))) = .block ('/' :: '*' :: (inner ++ ['*', '/'])) :: taken rest := by
  unfold taken
  rw [scan_block closed, Scanned.scan_plain]
  · rfl
  apply lineMatch_none.mpr
  intro behind slashes
  cases slashes

theorem taken_block_bare {pieces : List Piece} (takes : taken text = .block raw :: pieces) : Bare raw := by
  unfold taken at takes
  obtain ⟨part, parts, scanned, shape, -⟩ := List.map_eq_cons_iff.mp takes
  obtain ⟨first, others, blocks, ⟨missed, rfl, -⟩ | ⟨n, found, rfl, -⟩⟩ := Scanned.scan_eq_cons scanned
  · cases first with
    | plain c => cases shape
    | hit found =>
      cases shape
      rcases scan_block_cases blocks with ⟨_, _, _, _, same, _⟩ | ⟨inner, _, _, _, same, _⟩
      · cases same
      · cases same
        exact ⟨inner, rfl⟩
  · cases shape

theorem scan_behind (ends : behind = [] ∨ behind.head? = some '\n') :
    ((scan blockMatch behind).map seen).takeWhile (· ≠ '\n') = [] := by
  rcases ends with rfl | head
  · rfl
  · obtain ⟨rest, rfl⟩ := List.head?_eq_some_iff.mp head
    rw [Scanned.scan_plain (blockMatch_apart (by decide))]
    rfl

theorem star_within (ends : behind = [] ∨ behind.head? = some '\n') (star : body ++ behind = '*' :: inner) :
    ∃ rest, body = '*' :: rest ∧ inner = rest ++ behind := by
  cases body with
  | nil =>
    rw [List.nil_append] at star
    simp [star] at ends
  | cons c body =>
    obtain ⟨rfl, rfl⟩ := List.cons.inj star
    exact ⟨body, rfl, rfl⟩

theorem scan_within (ends : behind = [] ∨ behind.head? = some '\n') (within : Within behind body) :
    ∃ parts, scan blockMatch (body ++ behind) = parts ++ scan blockMatch behind ∧ parts.flatMap Scanned.raw = body ∧
      ∀ part ∈ parts, seen part ≠ '\n' := by
  induction within with
  | done => exact ⟨[], rfl, rfl, nofun⟩
  | @char c body same alone within ih =>
    obtain ⟨parts, scanned, raw, kept⟩ := ih
    have missed : blockMatch (c :: (body ++ behind)) = none := by
      rw [blockMatch_none]
      intro inner begins
      obtain ⟨rfl, star⟩ := List.cons.inj begins
      obtain ⟨body, rfl, rfl⟩ := star_within ends star
      exact alone body rfl
    refine ⟨.plain c :: parts, ?_, congrArg (c :: ·) raw, ?_⟩
    · rw [List.cons_append, Scanned.scan_plain missed, scanned, List.cons_append]
    · intro part member
      rcases List.mem_cons.mp member with rfl | member
      · exact same
      · exact kept part member
  | @span inner body closed within ih =>
    obtain ⟨parts, scanned, rfl, kept⟩ := ih
    refine ⟨.hit ('/' :: '*' :: (inner ++ ['*', '/'])) :: parts, ?_, ?_, ?_⟩
    · simp only [List.cons_append, List.append_assoc]
      rw [← scanned]
      exact scan_block closed
    · simp [Scanned.raw]
    · intro part member
      rcases List.mem_cons.mp member with rfl | member
      · show ' ' ≠ '\n'
        decide
      · exact kept part member

theorem taken_line (clear : Clear raw behind) (ends : behind = [] ∨ behind.head? = some '\n') :
    taken (raw ++ behind) = .line raw :: taken behind := by
  obtain ⟨body, rfl, single, within⟩ := clear
  obtain ⟨parts, scanned, rfl, kept⟩ := scan_within ends within
  have second : blockMatch ('/' :: (parts.flatMap Scanned.raw ++ behind)) = none := by
    rw [blockMatch_none]
    intro inner begins
    obtain ⟨body, starts, rfl⟩ := star_within ends (List.cons.inj begins).2
    exact single body starts
  have first : scan blockMatch ('/' :: '/' :: (parts.flatMap Scanned.raw ++ behind)) =
      .plain '/' :: .plain '/' :: (parts ++ scan blockMatch behind) := by
    rw [Scanned.scan_plain rfl, Scanned.scan_plain second, scanned]
  have line : seenMatch (.plain '/' :: .plain '/' :: (parts ++ scan blockMatch behind)) = some (parts.length + 1) := by
    have run : ((parts ++ scan blockMatch behind).map seen).takeWhile (· ≠ '\n') = parts.map seen := by
      rw [List.map_append, List.takeWhile_append_of_pos, scan_behind ends, List.append_nil]
      intro c member
      obtain ⟨part, inside, rfl⟩ := List.mem_map.mp member
      exact decide_eq_true (kept part inside)
    show some ((((parts ++ scan blockMatch behind).map seen).takeWhile (· ≠ '\n')).length + 1) = _
    rw [run, List.length_map]
  unfold taken
  rw [List.cons_append, List.cons_append, first, Scanned.scan_hit line]
  simp only [List.take_succ_cons, List.take_left, List.drop_succ_cons, List.drop_left, List.map_cons]
  rfl

theorem within_of_scan (body behind : List Char)
    (line : ((scan blockMatch (body ++ behind)).takeWhile (seen · ≠ '\n')).flatMap Scanned.raw = body) :
    Within behind body := by
  induction size : body.length using Nat.strongRecOn generalizing body with
  | ind n ih =>
    cases scanned : scan blockMatch (body ++ behind) with
    | nil =>
      rw [scanned] at line
      subst line
      exact .done
    | cons part parts =>
      rw [scanned] at line
      rcases scan_block_cases scanned with ⟨c, rest, split, missed, rfl, rfl⟩ | ⟨inner, rest, split, closed, rfl, rfl⟩
      · by_cases newline : c = '\n'
        · subst newline
          obtain rfl : [] = body := line
          exact .done
        · have kept : (Scanned.plain c :: scan blockMatch rest).takeWhile (seen · ≠ '\n') =
              .plain c :: (scan blockMatch rest).takeWhile (seen · ≠ '\n') :=
            List.takeWhile_cons_of_pos (decide_eq_true newline)
          rw [kept] at line
          generalize after : ((scan blockMatch rest).takeWhile (seen · ≠ '\n')).flatMap Scanned.raw = tail at line
          obtain rfl : c :: tail = body := (congrArg (c :: ·) after.symm).trans line
          obtain rfl := (List.cons.inj split).2
          refine .char newline (fun inner begins => ?_) (ih _ (by rw [← size]; simp) tail after rfl)
          exact blockMatch_none.mp missed (inner ++ behind) (congrArg (· ++ behind) begins)
      · have kept : (Scanned.hit ('/' :: '*' :: (inner ++ ['*', '/'])) :: scan blockMatch rest).takeWhile (seen · ≠ '\n') =
            .hit ('/' :: '*' :: (inner ++ ['*', '/'])) :: (scan blockMatch rest).takeWhile (seen · ≠ '\n') :=
          List.takeWhile_cons_of_pos rfl
        rw [kept] at line
        generalize after : ((scan blockMatch rest).takeWhile (seen · ≠ '\n')).flatMap Scanned.raw = tail at line
        obtain rfl : '/' :: '*' :: (inner ++ (['*', '/'] ++ tail)) = body := by
          rw [← line, ← after]
          simp [Scanned.raw]
        obtain rfl : rest = tail ++ behind := by simpa using split.symm
        exact .span closed (ih _ (by rw [← size]; simp; omega) tail after rfl)

theorem lineMatch_some (found : lineMatch text = some n) :
    ∃ rest, text = '/' :: '/' :: rest ∧ n = (rest.takeWhile (· ≠ '\n')).length + 1 := by
  unfold lineMatch at found
  split at found
  · cases found
    exact ⟨_, rfl, rfl⟩
  · cases found

theorem scan_slash {part : Scanned Char} {parts : List (Scanned Char)} (scanned : scan blockMatch text = part :: parts)
    (slash : seen part = '/') :
    ∃ rest, text = '/' :: rest ∧ blockMatch text = none ∧ part = .plain '/' ∧ parts = scan blockMatch rest := by
  rcases scan_block_cases scanned with ⟨c, rest, rfl, missed, rfl, rfl⟩ | ⟨_, _, _, _, rfl, _⟩
  · obtain rfl : c = '/' := slash
    exact ⟨rest, rfl, missed, rfl, rfl⟩
  · cases slash

theorem taken_line_clear {pieces : List Piece} (takes : taken (raw ++ behind) = .line raw :: pieces) : Clear raw behind := by
  unfold taken at takes
  obtain ⟨part, parts, scanned, shape, -⟩ := List.map_eq_cons_iff.mp takes
  obtain ⟨first, others, blocks, ⟨missed, rfl, -⟩ | ⟨n, found, rfl, -⟩⟩ := Scanned.scan_eq_cons scanned
  · cases first <;> cases shape
  obtain ⟨rest, slashes, rfl⟩ := lineMatch_some found
  rw [blocks] at slashes shape
  obtain ⟨slash, slashes⟩ := List.cons.inj slashes
  obtain ⟨second, others, rfl, slash', rfl⟩ := List.map_eq_cons_iff.mp slashes
  obtain ⟨text, begins, -, rfl, next⟩ := scan_slash blocks slash
  obtain ⟨text, rfl, missed, rfl, rfl⟩ := scan_slash next.symm slash'
  generalize after : ((scan blockMatch text).takeWhile (seen · ≠ '\n')).flatMap Scanned.raw = body
  have run : (((scan blockMatch text).map seen).takeWhile (· ≠ '\n')).length =
      ((scan blockMatch text).takeWhile (seen · ≠ '\n')).length := by
    rw [List.takeWhile_map, List.length_map]
    rfl
  have whole : (scan blockMatch text).take ((scan blockMatch text).takeWhile (seen · ≠ '\n')).length =
      (scan blockMatch text).takeWhile (seen · ≠ '\n') := (List.prefix_iff_eq_take.mp (List.takeWhile_prefix _)).symm
  obtain rfl : '/' :: '/' :: body = raw := by
    rw [← Piece.line.inj shape, run, List.take_succ_cons, List.take_succ_cons, whole, ← after]
    rfl
  obtain rfl : body ++ behind = text := by simpa using begins
  refine ⟨body, rfl, ?_, within_of_scan body behind after⟩
  rintro inner rfl
  exact blockMatch_none.mp missed (inner ++ behind) rfl

end Matches

theorem Lexes.raw {source : List Char} {pieces : List Piece} (lexes : Lexes source pieces) :
    pieces.flatMap Piece.raw = source := by
  induction lexes with
  | nil => rfl
  | code _ _ _ _ ih => exact congrArg _ ih
  | block _ _ _ _ ih => exact congrArg _ ih
  | line _ _ _ _ ih => exact congrArg _ ih

theorem joins_adjacent (first second : Char) : Joins first second [first, second] := ⟨[], .nil, rfl⟩

theorem bare_closed {opener body closer inner : List Char} (opens : Joins '/' '*' opener)
    (first : ∀ front early back, body ++ closer = front ++ (early ++ back) → Joins '*' '/' early → back = [])
    (bare : opener ++ (body ++ closer) = '/' :: '*' :: (inner ++ ['*', '/'])) : ¬['*', '/'] <:+: inner := by
  rintro ⟨front, back, rfl⟩
  obtain ⟨glue, splices, rfl⟩ := opens
  cases splices with
  | nil =>
    have rest : body ++ closer = front ++ (['*', '/'] ++ (back ++ ['*', '/'])) := by simpa using bare
    have none := first _ _ _ rest (joins_adjacent '*' '/')
    simp at none
  | cons more => simp at bare

theorem taken_iff {source : List Char} {pieces : List Piece} (lexes : Lexes source pieces) :
    taken source = pieces ↔ Plain pieces := by
  induction lexes with
  | nil => exact iff_of_true rfl trivial
  | @code c rest pieces noString noCharacter apart lexes ih =>
    have missed : blockMatch (c :: rest) = none := by
      rw [blockMatch_none]
      intro inner begins
      exact absurd (joins_adjacent '/' '*') (apart ['/', '*'] inner begins).1
    have single : c = '/' → ∀ behind, rest ≠ '/' :: behind := by
      rintro rfl behind rfl
      exact absurd (joins_adjacent '/' '/') (apart ['/', '/'] behind rfl).2
    rw [taken_plain missed single, List.cons.injEq, eq_self, true_and]
    exact ih
  | @block opener body closer rest pieces opens closes first lexes ih =>
    have taken_bare (bare : Bare (opener ++ (body ++ closer))) :
        taken (opener ++ (body ++ closer) ++ rest) = .block (opener ++ (body ++ closer)) :: taken rest := by
      obtain ⟨inner, shape⟩ := bare
      have closed := bare_closed opens first shape
      rw [shape]
      simpa using @taken_block rest inner closed
    constructor
    · intro takes
      have bare := taken_block_bare takes
      rw [taken_bare bare] at takes
      exact ⟨bare, ih.mp (List.cons.inj takes).2⟩
    · rintro ⟨bare, plain⟩
      rw [taken_bare bare, ih.mpr plain]
  -- A match that ran on behind the comment would take the end of the line with it, and the line comment with that.
  | @line opener body rest pieces opens spliced ends lexes ih =>
    constructor
    · intro takes
      have clear := taken_line_clear takes
      rw [taken_line clear (ends.imp_right And.left)] at takes
      exact ⟨by rw [lexes.raw]; exact clear, ih.mp (List.cons.inj takes).2⟩
    · rintro ⟨clear, plain⟩
      rw [lexes.raw] at clear
      rw [taken_line clear (ends.imp_right And.left), ih.mpr plain]

/-- The two passes find the comments of a source exactly if each comment is plain. -/
theorem comments_stripped_iff {source : List Char} {pieces : List Piece} (lexes : Lexes source pieces) :
    Strips source pieces ↔ Plain pieces := by
  rw [← taken_iff lexes]
  constructor
  · exact And.left
  · intro takes
    exact ⟨takes, by rw [stripComments_taken, takes]⟩

theorem Lexes.calm (text : List Char) {source : List Char} {pieces : List Piece}
    (calm : (text.all fun c => c ≠ '/' ∧ c ≠ '"' ∧ c ≠ '\'') = true) (lexes : Lexes source pieces) : Lexes (text ++ source) (text.map .code ++ pieces) := by
  induction text with
  | nil => exact lexes
  | cons c text ih =>
    obtain ⟨here, calm⟩ := Bool.and_eq_true_iff.mp calm
    obtain ⟨apart, noString, noCharacter⟩ := of_decide_eq_true here
    refine .code noString noCharacter (fun opener behind begins => ?_) (ih calm)
    constructor
    · rintro ⟨glue, _, rfl⟩
      exact apart (List.cons.inj begins).1
    · rintro ⟨glue, _, rfl⟩
      exact apart (List.cons.inj begins).1

theorem Lexes.lineOf (body : List Char) {rest : List Char} {pieces : List Piece} (unbroken : '\n' ∉ body) (unspliced : '\\' ∉ body)
    (ends : rest.head? = some '\n') (lexes : Lexes rest pieces) :
    Lexes ('/' :: '/' :: body ++ rest) (.line ('/' :: '/' :: body) :: pieces) := by
  refine .line (joins_adjacent '/' '/') (fun front back split => ?_) (.inr ⟨ends, fun last => ?_⟩) lexes
  · rw [split] at unbroken
    simp at unbroken
  · exact unspliced (List.mem_of_getLast? last)

theorem Lexes.blockOf (body : List Char) {rest : List Char} {pieces : List Piece} (unstarred : '*' ∉ body) (lexes : Lexes rest pieces) :
    Lexes ('/' :: '*' :: (body ++ ['*', '/']) ++ rest) (.block ('/' :: '*' :: (body ++ ['*', '/'])) :: pieces) := by
  refine .block (joins_adjacent '/' '*') (joins_adjacent '*' '/') (fun front early back split joins => ?_) lexes
  obtain ⟨glue, _, rfl⟩ := joins
  have last (shape : 2 = 1 + (glue.length + 1 + back.length)) : back = [] := List.eq_nil_of_length_eq_zero (by omega)
  rcases List.append_eq_append_iff.mp split with ⟨between, rfl, closer⟩ | ⟨between, rfl, closer⟩
  · have length := congrArg List.length closer
    simp at length
    exact last (by omega)
  · cases between with
    | nil =>
      have length := congrArg List.length closer
      simp at length
      exact last (by omega)
    | cons c between =>
      obtain rfl : '*' = c := (List.cons.inj closer).1
      simp at unstarred

/-- A line comment that has both delimiters of a block comment in it, and a block comment that has `//` in it. -/
theorem strips_nested :
    ∃ pieces, Lexes "int a; // b /* c */ d\n/* e // f */ int g;".toList pieces ∧ Plain pieces ∧
      Strips "int a; // b /* c */ d\n/* e // f */ int g;".toList pieces := by
  have lexes : Lexes "int a; // b /* c */ d\n/* e // f */ int g;".toList _ :=
    .calm "int a; ".toList (by decide) (.lineOf " b /* c */ d".toList (by decide) (by decide) rfl
      (.calm "\n".toList (by decide) (.blockOf " e // f ".toList (by decide)
        (.calm " int g;".toList (by decide) .nil))))
  have plain := (comments_stripped_iff lexes).mp ⟨by decide, by decide⟩
  exact ⟨_, lexes, plain, (comments_stripped_iff lexes).mpr plain⟩

/-- The value of `Accept` opens what the next block comment closes, and the field between them is lost. -/
theorem accept_comment_swallows :
    ∃ pieces, Lexes "// Accept: */*\nint32_t a;\n/* c */\nint32_t b;".toList pieces ∧
      pieces.flatMap Piece.left = "\nint32_t a;\n \nint32_t b;".toList ∧
      stripComments "// Accept: */*\nint32_t a;\n/* c */\nint32_t b;".toList = "\nint32_t b;".toList := by
  have lexes : Lexes "// Accept: */*\nint32_t a;\n/* c */\nint32_t b;".toList _ :=
    .lineOf " Accept: */*".toList (by decide) (by decide) rfl
      (.calm "\nint32_t a;\n".toList (by decide) (.blockOf " c ".toList (by decide)
        (.calm "\nint32_t b;".toList (by decide) .nil)))
  exact ⟨_, lexes, by decide, by decide⟩

end Cronet.Abi
