import Mathlib.Data.List.DropRight
import Cronet.Lib.Ascii
import Cronet.Lib.Scan
import Cronet.Lib.Words

namespace Cronet.Generator

open Words (words IsWord Ends)

abbrev Text := List Char

/-- `str.isspace`, which is also what `\s` matches. -/
def isSpace (c : Char) : Bool :=
  let n := c.toNat
  (9 ≤ n && n ≤ 13) || (0x1c ≤ n && n ≤ 0x20) || (0x2000 ≤ n && n ≤ 0x200a) ||
    n ∈ [0x85, 0xa0, 0x1680, 0x2028, 0x2029, 0x202f, 0x205f, 0x3000]

def split (s : Text) : List Text := words isSpace s

def join (words : List Text) : Text := [' '].intercalate words

def strip (s : Text) : Text := (s.dropWhile isSpace).rdropWhile isSpace

/-- Where `\s+` matches. -/
def spaceMatch : Text → Option Nat
  | c :: rest => if isSpace c then some (rest.takeWhile isSpace).length else none
  | [] => none

/-- `spelling.replace("*", " * ")` -/
def spaced (spelling : Text) : Text := spelling.flatMap fun c => if c = '*' then [' ', '*', ' '] else [c]

def normalizeType (spelling : Text) : Text :=
  let words := (split (spaced spelling)).filter (· ≠ "const".toList)
  strip (Scanned.sub spaceMatch [' '] (join words))

inductive HeaderError where
  | unnamed (declaration : Text)
  | unmapped (cType : Text)
  | noFunctions
  deriving DecidableEq

def splitDeclarator (declaration : Text) : Except HeaderError (Text × Text) :=
  let words := split (normalizeType declaration)
  if words.length < 2 then .error (.unnamed declaration)
  else .ok (join words.dropLast, words.getLast?.getD [])

structure IsIdentifier (word : Text) : Prop where
  nonempty : word ≠ []
  chars : ∀ c ∈ word, c.isAlphanum = true ∨ c = '_'

instance (word : Text) : Decidable (IsIdentifier word) :=
  decidable_of_iff (word ≠ [] ∧ word.all fun c => c.isAlphanum || c = '_') (by
    apply Iff.intro
    · intro both
      exact ⟨both.1, by simpa using both.2⟩
    · intro identifier
      exact ⟨identifier.nonempty, by simpa using identifier.chars⟩)

inductive IsToken : Text → Prop
  | star : IsToken ['*']
  | word {word : Text} (identifier : IsIdentifier word) : IsToken word

theorem isToken_iff {token : Text} : IsToken token ↔ token = ['*'] ∨ IsIdentifier token := by
  apply Iff.intro
  · intro isToken
    cases isToken with
    | star => exact .inl rfl
    | word identifier => exact .inr identifier
  · rintro (rfl | identifier)
    · exact .star
    · exact .word identifier

instance (token : Text) : Decidable (IsToken token) := decidable_of_iff _ isToken_iff.symm

/-- The ways to write tokens: any blanks between them, and at least one where they would run together. -/
inductive Spells : List Text → Text → Prop
  | nil {blanks : Text} (blank : ∀ c ∈ blanks, isSpace c = true) : Spells [] blanks
  | star {blanks rest : Text} {tokens : List Text} (blank : ∀ c ∈ blanks, isSpace c = true) (spells : Spells tokens rest) :
      Spells (['*'] :: tokens) (blanks ++ '*' :: rest)
  | word {blanks word rest : Text} {tokens : List Text} (blank : ∀ c ∈ blanks, isSpace c = true)
      (identifier : IsIdentifier word) (ends : ∀ c ∈ rest.head?, isSpace c = true ∨ c = '*') (spells : Spells tokens rest) :
      Spells (word :: tokens) (blanks ++ (word ++ rest))

theorem identifier_char {c : Char} (char : c.isAlphanum = true ∨ c = '_') :
    isSpace c = false ∧ c ≠ '*' ∧ c ≠ ';' ∧ c ≠ ',' := by
  have ascii : c.toNat < 128 := by
    rcases char with letter | rfl
    · exact Ascii.alphanum_lt letter
    · decide
  have each : ∀ n < 128, (Char.ofNat n).isAlphanum = true ∨ Char.ofNat n = '_' →
      isSpace (Char.ofNat n) = false ∧ Char.ofNat n ≠ '*' ∧ Char.ofNat n ≠ ';' ∧ Char.ofNat n ≠ ',' := by decide +kernel
  exact Ascii.forall_lt
    (P := fun d => d.isAlphanum = true ∨ d = '_' → isSpace d = false ∧ d ≠ '*' ∧ d ≠ ';' ∧ d ≠ ',') each ascii char

theorem IsIdentifier.isWord {word : Text} (identifier : IsIdentifier word) : IsWord isSpace word where
  nonempty := identifier.nonempty
  plain c member := (identifier_char (identifier.chars c member)).1

theorem IsToken.isWord {token : Text} (isToken : IsToken token) : IsWord isSpace token := by
  cases isToken with
  | star => exact ⟨nofun, List.forall_mem_singleton.mpr rfl⟩
  | word identifier => exact identifier.isWord

theorem spaced_append (s t : Text) : spaced (s ++ t) = spaced s ++ spaced t := List.flatMap_append

theorem spaced_plain {s : Text} (plain : ∀ c ∈ s, c ≠ '*') : spaced s = s := by
  induction s with
  | nil => rfl
  | cons c s ih =>
    have first : c ≠ '*' := plain c List.mem_cons_self
    have later := ih fun d member => plain d (List.mem_cons_of_mem c member)
    simp only [spaced, List.flatMap_cons, if_neg first, List.singleton_append] at later ⊢
    rw [later]

theorem space_ne_star {c : Char} (space : isSpace c = true) : c ≠ '*' := by
  intro same
  rw [same] at space
  exact absurd space (by decide)

theorem Spells.split {tokens : List Text} {text : Text} (spells : Spells tokens text) : split (spaced text) = tokens := by
  induction spells with
  | nil blank =>
    rw [spaced_plain fun c member => space_ne_star (blank c member)]
    have all := @Words.words_append_seps _ isSpace [] _ blank
    rwa [List.append_nil] at all
  | @star blanks rest tokens blank spells ih =>
    have written : spaced (blanks ++ '*' :: rest) = blanks ++ ' ' :: (['*'] ++ ' ' :: spaced rest) := by
      rw [spaced_append, spaced_plain fun c member => space_ne_star (blank c member)]
      rfl
    have ends : Ends isSpace (' ' :: spaced rest) := by
      intro c head
      cases head
      decide
    rw [Generator.split, written, Words.words_append_seps blank, Words.words_cons_sep (by decide),
      Words.words_word IsToken.star.isWord ends, Words.words_cons_sep (by decide)]
    exact congrArg _ ih
  | @word blanks word rest tokens blank identifier ends spells ih =>
    have plain : ∀ c ∈ word, c ≠ '*' := fun c member => (identifier_char (identifier.chars c member)).2.1
    have written : spaced (blanks ++ (word ++ rest)) = blanks ++ (word ++ spaced rest) := by
      rw [spaced_append, spaced_append, spaced_plain fun c member => space_ne_star (blank c member), spaced_plain plain]
    have ends' : Ends isSpace (spaced rest) := by
      cases rest with
      | nil => nofun
      | cons c rest =>
        intro d head
        rcases ends c rfl with space | rfl
        · have first : spaced (c :: rest) = c :: spaced rest := by
            simp only [spaced, List.flatMap_cons, if_neg (space_ne_star space), List.singleton_append]
          rw [first] at head
          cases head
          exact space
        · cases head
          decide
    rw [Generator.split, written, Words.words_append_seps blank, Words.words_word identifier.isWord ends']
    exact congrArg _ ih

theorem Spells.tokens {tokens : List Text} {text : Text} (spells : Spells tokens text) :
    ∀ token ∈ tokens, IsToken token := by
  induction spells with
  | nil blank => nofun
  | star blank spells ih => exact List.forall_mem_cons.mpr ⟨.star, ih⟩
  | word blank identifier ends spells ih => exact List.forall_mem_cons.mpr ⟨.word identifier, ih⟩

section Joining

variable {all : List Text} {word rest : Text}

theorem sub_word (plain : ∀ c ∈ word, isSpace c = false) :
    Scanned.sub spaceMatch [' '] (word ++ rest) = word ++ Scanned.sub spaceMatch [' '] rest := by
  induction word with
  | nil => rfl
  | cons c word ih =>
    have missed : spaceMatch (c :: (word ++ rest)) = none := by
      rw [spaceMatch, plain c List.mem_cons_self]
      rfl
    have later := ih fun d member => plain d (List.mem_cons_of_mem c member)
    unfold Scanned.sub at later ⊢
    rw [List.cons_append, Scanned.scan_plain missed, List.flatMap_cons, later]
    rfl

theorem sub_blank (apart : ∀ c ∈ rest.head?, isSpace c = false) :
    Scanned.sub spaceMatch [' '] (' ' :: rest) = ' ' :: Scanned.sub spaceMatch [' '] rest := by
  have run : rest.takeWhile isSpace = [] := by
    cases rest with
    | nil => rfl
    | cons c rest => rw [List.takeWhile_cons_of_neg (by rw [apart c rfl]; decide)]
  have found : spaceMatch (' ' :: rest) = some 0 := by
    rw [spaceMatch, run]
    rfl
  unfold Scanned.sub
  rw [Scanned.scan_hit found, List.flatMap_cons]
  rfl

theorem join_cons {next : Text} : join (word :: next :: all) = word ++ ' ' :: join (next :: all) := by
  rw [join, List.intercalate_cons_cons, List.append_assoc, List.singleton_append]
  rfl

theorem head_join (each : ∀ word ∈ all, IsWord isSpace word) : ∀ c ∈ (join all).head?, isSpace c = false := by
  intro c head
  cases all with
  | nil => cases head
  | cons word all =>
    have first := each word List.mem_cons_self
    rcases List.exists_cons_of_ne_nil first.nonempty with ⟨d, behind, rfl⟩
    have plain := first.plain d List.mem_cons_self
    cases all with
    | nil =>
      rw [join, List.intercalate_singleton] at head
      cases head
      exact plain
    | cons next all =>
      rw [join_cons] at head
      cases head
      exact plain

theorem sub_join (each : ∀ word ∈ all, IsWord isSpace word) : Scanned.sub spaceMatch [' '] (join all) = join all := by
  induction all with
  | nil => rfl
  | cons word all ih =>
    have first := each word List.mem_cons_self
    have others : ∀ word ∈ all, IsWord isSpace word := fun other member => each other (List.mem_cons_of_mem word member)
    have later := ih others
    cases all with
    | nil =>
      have alone := @sub_word word [] first.plain
      rw [List.append_nil] at alone
      rw [join, List.intercalate_singleton, alone]
      exact List.append_nil word
    | cons next all => rw [join_cons, sub_word first.plain, sub_blank (head_join others), later]

theorem last_join (each : ∀ word ∈ all, IsWord isSpace word) : ∀ c ∈ (join all).getLast?, isSpace c = false := by
  induction all with
  | nil => nofun
  | cons word all ih =>
    have first := each word List.mem_cons_self
    have later := ih fun other member => each other (List.mem_cons_of_mem word member)
    intro c last
    cases all with
    | nil =>
      rw [join, List.intercalate_singleton] at last
      exact first.plain c (List.mem_of_getLast? last)
    | cons next all =>
      apply later c
      have some : join (next :: all) ≠ [] := by
        have nonempty := (each next (List.mem_cons_of_mem word List.mem_cons_self)).nonempty
        cases all with
        | nil => rwa [join, List.intercalate_singleton]
        | cons other all =>
          rw [join_cons]
          exact List.append_ne_nil_of_left_ne_nil nonempty _
      rw [join_cons, List.getLast?_append_cons, List.getLast?_cons_of_ne_nil some] at last
      exact last

theorem strip_of_ends {s : Text} (head : ∀ c ∈ s.head?, isSpace c = false) (last : ∀ c ∈ s.getLast?, isSpace c = false) :
    strip s = s := by
  have front : s.dropWhile isSpace = s := by
    cases s with
    | nil => rfl
    | cons c s => rw [List.dropWhile_cons_of_neg (by rw [head c rfl]; decide)]
  rw [strip, front]
  apply List.rdropWhile_eq_self_iff.mpr
  intro some
  rw [last _ (List.getLast?_eq_getLast_of_ne_nil some)]
  decide

theorem strip_join (each : ∀ word ∈ all, IsWord isSpace word) : strip (join all) = join all :=
  strip_of_ends (head_join each) (last_join each)

theorem split_join (each : ∀ word ∈ all, IsWord isSpace word) : split (join all) = all :=
  Words.words_intercalate (by decide) each

end Joining

def unqualified (tokens : List Text) : List Text := tokens.filter (· ≠ "const".toList)

theorem Spells.normalizeType {tokens : List Text} {text : Text} (spells : Spells tokens text) :
    normalizeType text = join (unqualified tokens) := by
  have each : ∀ word ∈ unqualified tokens, IsWord isSpace word :=
    fun word member => (spells.tokens word (List.mem_of_mem_filter member)).isWord
  show strip (Scanned.sub spaceMatch [' '] (join ((Generator.split (spaced text)).filter _))) = _
  rw [spells.split]
  show strip (Scanned.sub spaceMatch [' '] (join (unqualified tokens))) = _
  rw [sub_join each, strip_join each]

theorem Spells.blank {tokens : List Text} {text : Text} (spells : Spells tokens text) : Spells tokens (' ' :: text) := by
  have longer {blanks : Text} (blank : ∀ c ∈ blanks, isSpace c = true) : ∀ c ∈ ' ' :: blanks, isSpace c = true :=
    List.forall_mem_cons.mpr ⟨rfl, blank⟩
  cases spells with
  | nil blank => exact .nil (longer blank)
  | star blank spells => exact .star (longer blank) spells
  | word blank identifier ends spells => exact .word (longer blank) identifier ends spells

theorem Spells.cons {token text : Text} {tokens : List Text} (isToken : IsToken token)
    (ends : ∀ c ∈ text.head?, isSpace c = true) (spells : Spells tokens text) : Spells (token :: tokens)
    (token ++ text) := by
  cases isToken with
  | star => exact @star [] text tokens nofun spells
  | word identifier => exact @word [] token text tokens nofun identifier (fun c head => .inl (ends c head)) spells

theorem Spells.of_join {tokens : List Text} (each : ∀ token ∈ tokens, IsToken token) : Spells tokens (join tokens) := by
  induction tokens with
  | nil => exact .nil nofun
  | cons token tokens ih =>
    have first := each token List.mem_cons_self
    have later := ih fun other member => each other (List.mem_cons_of_mem token member)
    cases tokens with
    | nil =>
      have alone := @Spells.cons token [] [] first nofun (.nil nofun)
      rw [List.append_nil] at alone
      rw [join, List.intercalate_singleton]
      exact alone
    | cons next tokens =>
      rw [join_cons]
      have ends : ∀ c ∈ (' ' :: join (next :: tokens)).head?, isSpace c = true := by
        intro c head
        cases head
        rfl
      exact Spells.cons first ends later.blank

theorem Spells.splitDeclarator {type : List Text} {name text : Text} (spells : Spells (type ++ [name]) text)
    (named : name ≠ "const".toList) (typed : unqualified type ≠ []) :
    splitDeclarator text = .ok (join (unqualified type), name) := by
  have tokens : unqualified (type ++ [name]) = unqualified type ++ [name] := by
    rw [unqualified, List.filter_append, List.filter_singleton, decide_eq_true named]
    rfl
  have each : ∀ word ∈ unqualified (type ++ [name]), IsWord isSpace word :=
    fun word member => (spells.tokens word (List.mem_of_mem_filter member)).isWord
  have long : ¬(unqualified type ++ [name]).length < 2 := by
    have some := List.length_pos_iff.mpr typed
    rw [List.length_append, List.length_singleton]
    omega
  rw [Generator.splitDeclarator, spells.normalizeType, split_join each, tokens, if_neg long]
  simp

end Cronet.Generator
