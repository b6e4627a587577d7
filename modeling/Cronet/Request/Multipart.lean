import Cronet.Lib.Infix
import Cronet.Request.Utf8

namespace Cronet.Request

open Cronet.Native (Bytes)
open Cronet.Url (Str)

def CRLF : Bytes := utf8 "\r\n".toList

structure Part where
  name : Bytes
  filename : Option Bytes
  mediaType : Option Bytes
  content : Bytes
  deriving DecidableEq

namespace Part

/-- The lines of a header block up to the empty one, and what is behind it; `cut` finds the end of a line. -/
def readLines (cut : Bytes → Option (Bytes × Bytes)) : Nat → Bytes → Option (List Bytes × Bytes)
  | 0, _ => none
  | fuel + 1, s => do
    let (line, s) ← cut s
    if line = [] then return ([], s)
    else
      let (lines, s) ← readLines cut fuel s
      return (line :: lines, s)

/-- Parameters, each behind a semicolon; a value ends at the next double quote. -/
def readParameters : Nat → Bytes → Option (List (Bytes × Bytes))
  | 0, _ => none
  | fuel + 1, s =>
    if s = [] then some []
    else do
      let s ← s.dropPrefix? (utf8 "; ".toList)
      let (key, s) ← s.dropInfix? (utf8 "=\"".toList)
      let (value, s) ← s.dropInfix? (utf8 "\"".toList)
      let parameters ← readParameters fuel s
      return (key, value) :: parameters

def ofLines (lines : List Bytes) (content : Bytes) : Option Part := do
  let headers ← lines.mapM fun line => line.dropInfix? (utf8 ": ".toList)
  let disposition ← headers.lookup (utf8 "Content-Disposition".toList)
  let parameters ← disposition.dropPrefix? (utf8 "form-data".toList)
  let parameters ← readParameters (disposition.length + 1) parameters
  let name ← parameters.lookup (utf8 "name".toList)
  return ⟨name, parameters.lookup (utf8 "filename".toList), headers.lookup (utf8 "Content-Type".toList), content⟩

end Part

theorem crlf_eq : CRLF = [13, 10] := by decide

namespace Part

theorem readLines_append {cut : Bytes → Option (Bytes × Bytes)} {lines : List Bytes} {rest : Bytes} {fuel : Nat}
    (ends : ∀ line ∈ lines, line ≠ [] ∧ ∀ s, cut (line ++ (CRLF ++ s)) = some (line, s))
    (empty : cut (CRLF ++ rest) = some ([], rest)) (enough : lines.length < fuel) :
    readLines cut fuel (lines.flatMap (· ++ CRLF) ++ (CRLF ++ rest)) = some (lines, rest) := by
  induction lines generalizing fuel with
  | nil =>
    cases fuel with
    | zero => cases enough
    | succ fuel =>
      simp only [List.flatMap_nil, List.nil_append, readLines, empty]
      rfl
  | cons line lines ih =>
    cases fuel with
    | zero => cases enough
    | succ fuel =>
      obtain ⟨nonempty, found⟩ := ends line List.mem_cons_self
      have later := ih (fun other member => ends other (List.mem_cons_of_mem line member)) (Nat.lt_of_succ_lt_succ enough)
      simp only [List.flatMap_cons, List.append_assoc, readLines, found, Option.bind_eq_bind, Option.bind_some, nonempty,
        ↓reduceIte, later]
      rfl

theorem readParameters_cons {key value rest : Bytes} {fuel : Nat} (plainKey : 61 ∉ key) (plainValue : 34 ∉ value) :
    readParameters (fuel + 1) (utf8 "; ".toList ++ (key ++ (utf8 "=\"".toList ++ (value ++ (utf8 "\"".toList ++ rest))))) =
      (readParameters fuel rest).map ((key, value) :: ·) := by
  have equals : utf8 "=\"".toList = [61, 34] := by decide
  have quote : utf8 "\"".toList = [34] := by decide
  have cutKey (s : Bytes) : (key ++ (utf8 "=\"".toList ++ s)).dropInfix? (utf8 "=\"".toList) = some (key, s) := by
    rw [equals]
    exact List.dropInfix?_first (List.unbordered_cons (by decide)) (List.not_infix_of_head plainKey)
  have cutValue (s : Bytes) : (value ++ (utf8 "\"".toList ++ s)).dropInfix? (utf8 "\"".toList) = some (value, s) := by
    rw [quote]
    exact List.dropInfix?_first (List.unbordered_cons List.not_mem_nil) (List.not_infix_of_head plainValue)
  have semicolon (s : Bytes) : (utf8 "; ".toList ++ s).dropPrefix? (utf8 "; ".toList) = some s :=
    List.dropPrefix?_append_of_beq s BEq.rfl
  have nonempty (s : Bytes) : utf8 "; ".toList ++ s ≠ [] := List.append_ne_nil_of_left_ne_nil (by decide) s
  simp only [readParameters, nonempty, ↓reduceIte, semicolon, Option.bind_eq_bind, Option.bind_some, cutKey, cutValue]
  cases readParameters fuel rest <;> rfl

end Part

/-- The lines of a part's header block: a disposition, and the media type of a file. -/
def headerLines (name : Str) (filename mediaType : Option Str) : List Bytes :=
  utf8 ("Content-Disposition: ".toList ++ disposition name filename) ::
    (mediaType.map fun m => utf8 ("Content-Type: ".toList ++ m)).toList

def framed (lines : List Bytes) (content : Bytes) : Bytes :=
  CRLF ++ (lines.flatMap (· ++ CRLF) ++ (CRLF ++ content))

theorem quoted_plain {s : Str} {c : Char} (member : c ∈ quoted s) : c ≠ '"' ∧ c ≠ '\r' ∧ c ≠ '\n' := by
  have escapes : ∀ c ∈ "%22".toList ++ "%0D".toList ++ "%0A".toList, c ≠ '"' ∧ c ≠ '\r' ∧ c ≠ '\n' := by simp
  obtain ⟨d, _, there⟩ := List.mem_flatMap.mp member
  split_ifs at there with quote carriage feed
  · exact escapes c (List.mem_append_left _ (List.mem_append_left _ there))
  · exact escapes c (List.mem_append_left _ (List.mem_append_right _ there))
  · exact escapes c (List.mem_append_right _ there)
  · rw [List.mem_singleton.mp there]
    exact ⟨quote, carriage, feed⟩

theorem disposition_plain {name : Str} {filename : Option Str} {c : Char} (member : c ∈ disposition name filename) :
    c ≠ '\r' ∧ c ≠ '\n' := by
  have literals : ∀ c ∈ "form-data; name=\"".toList ++ ['"'] ++ "; filename=\"".toList, c ≠ '\r' ∧ c ≠ '\n' := by simp
  have literal {c : Char} (there : c ∈ "form-data; name=\"".toList ∨ c ∈ ['"'] ∨ c ∈ "; filename=\"".toList) :
      c ≠ '\r' ∧ c ≠ '\n' := literals c (by simpa only [List.mem_append, or_assoc] using there)
  rcases List.mem_append.mp member with first | second
  · rcases List.mem_append.mp first with opening | closing
    · rcases List.mem_append.mp opening with text | inside
      · exact literal (.inl text)
      · exact (quoted_plain inside).2
    · exact literal (.inr (.inl closing))
  · cases filename with
    | none => cases second
    | some f =>
      rcases List.mem_append.mp second with opening | closing
      · rcases List.mem_append.mp opening with text | inside
        · exact literal (.inr (.inr text))
        · exact (quoted_plain inside).2
      · exact literal (.inr (.inl closing))

theorem return_not_mem_line {head tail : Str} (headFree : '\r' ∉ head) (tailFree : '\r' ∉ tail) :
    13 ∉ utf8 (head ++ tail) := by
  have ascii : '\r'.toNat < 128 := by decide
  intro member
  rcases List.mem_append.mp ((mem_utf8 ascii).mp member) with inside | inside
  · exact headFree inside
  · exact tailFree inside

theorem headerLines_shown {name : Str} {filename mediaType : Option Str} (plain : ∀ m ∈ mediaType, '\r' ∉ m) :
    ∀ line ∈ headerLines name filename mediaType, line ≠ [] ∧ 13 ∉ line := by
  intro line member
  rcases List.mem_cons.mp member with rfl | typed
  · have free : '\r' ∉ "Content-Disposition: ".toList := by decide
    refine ⟨fun empty => ?_, return_not_mem_line free fun inside => (disposition_plain inside).1 rfl⟩
    cases utf8_eq_nil.mp empty
  · obtain ⟨m, given, rfl⟩ := Option.map_eq_some_iff.mp (Option.mem_toList.mp typed)
    have free : '\r' ∉ "Content-Type: ".toList := by decide
    refine ⟨fun empty => ?_, return_not_mem_line free (plain m given)⟩
    cases utf8_eq_nil.mp empty

def parameterOf (key value : Str) : Bytes :=
  utf8 "; ".toList ++ (utf8 key ++ (utf8 "=\"".toList ++ (utf8 (quoted value) ++ utf8 "\"".toList)))

theorem disposition_bytes (name : Str) (filename : Option Str) :
    utf8 (disposition name filename) = utf8 "form-data".toList ++
      (parameterOf "name".toList name ++ filename.elim [] (parameterOf "filename".toList)) := by
  have opening : "form-data; name=\"".toList =
      "form-data".toList ++ ("; ".toList ++ ("name".toList ++ "=\"".toList)) := rfl
  have second : "; filename=\"".toList = "; ".toList ++ ("filename".toList ++ "=\"".toList) := rfl
  have quote : utf8 ['"'] = utf8 "\"".toList := rfl
  unfold disposition
  rw [opening, second]
  cases filename <;> simp only [Option.elim_none, Option.elim_some, parameterOf, utf8_append, quote, List.append_assoc,
    List.append_nil]

theorem readParameters_disposition (name : Str) (filename : Option Str) {fuel : Nat} (enough : 2 < fuel) :
    Part.readParameters fuel (parameterOf "name".toList name ++ filename.elim [] (parameterOf "filename".toList)) =
      some ((utf8 "name".toList, utf8 (quoted name)) ::
        (filename.map fun f => (utf8 "filename".toList, utf8 (quoted f))).toList) := by
  obtain ⟨fuel, rfl⟩ : ∃ n, fuel = n + 3 := ⟨fuel - 3, by omega⟩
  have one (key value : Str) (rest : Bytes) (n : Nat) (plain : 61 ∉ utf8 key) :
      Part.readParameters (n + 1) (parameterOf key value ++ rest) =
        (Part.readParameters n rest).map ((utf8 key, utf8 (quoted value)) :: ·) := by
    have inside : 34 ∉ utf8 (quoted value) := fun member =>
      (quoted_plain ((mem_utf8 (c := '"') (by decide)).mp member)).1 rfl
    simp only [parameterOf, List.append_assoc]
    exact Part.readParameters_cons plain inside
  have last (n : Nat) : Part.readParameters (n + 1) [] = some [] := rfl
  rw [one _ _ _ _ (by decide)]
  cases filename with
  | none => rw [Option.elim_none, last]; rfl
  | some f =>
    have second := one "filename".toList f [] (fuel + 1) (by decide)
    rw [List.append_nil, last] at second
    rw [Option.elim_some, second]
    rfl

theorem cutHeader {key : Str} (plain : 58 ∉ utf8 key) (value : Str) :
    (utf8 (key ++ (": ".toList ++ value))).dropInfix? (utf8 ": ".toList) = some (utf8 key, utf8 value) := by
  have colon : utf8 ": ".toList = [58, 32] := by decide
  rw [utf8_append, utf8_append, colon]
  exact List.dropInfix?_first (List.unbordered_cons (by decide)) (List.not_infix_of_head plain)

theorem ofLines_headerLines (name : Str) (filename mediaType : Option Str) (content : Bytes) :
    Part.ofLines (headerLines name filename mediaType) content =
      some ⟨utf8 (quoted name), filename.map fun f => utf8 (quoted f), mediaType.map utf8, content⟩ := by
  have dispositionKey : "Content-Disposition: ".toList = "Content-Disposition".toList ++ ": ".toList := by decide
  have typeKey : "Content-Type: ".toList = "Content-Type".toList ++ ": ".toList := by decide
  have parameters : (utf8 (disposition name filename)).dropPrefix? (utf8 "form-data".toList) =
      some (parameterOf "name".toList name ++ filename.elim [] (parameterOf "filename".toList)) := by
    rw [disposition_bytes]
    exact List.dropPrefix?_append_of_beq _ BEq.rfl
  have long : 2 < (utf8 (disposition name filename)).length + 1 := by
    have count : (utf8 "form-data".toList).length = 9 := by decide
    rw [disposition_bytes, List.length_append, count]
    omega
  have headers : (headerLines name filename mediaType).mapM (fun line => line.dropInfix? (utf8 ": ".toList)) =
      some ((utf8 "Content-Disposition".toList, utf8 (disposition name filename)) ::
        (mediaType.map fun m => (utf8 "Content-Type".toList, utf8 m)).toList) := by
    rw [headerLines, dispositionKey, List.append_assoc, List.mapM_cons, cutHeader (by decide)]
    cases mediaType with
    | none => rfl
    | some m =>
      simp only [Option.map_some, Option.toList_some, List.mapM_cons, List.mapM_nil, typeKey, List.append_assoc,
        cutHeader (show 58 ∉ utf8 "Content-Type".toList by decide)]
      rfl
  unfold Part.ofLines
  rw [headers]
  simp only [Option.bind_eq_bind, Option.bind_some, List.lookup_cons, BEq.rfl, parameters,
    readParameters_disposition name filename long]
  cases filename <;> cases mediaType <;> rfl

theorem length_le_lines (lines : List Bytes) (rest : Bytes) :
    lines.length ≤ (lines.flatMap (· ++ CRLF) ++ (CRLF ++ rest)).length := by
  induction lines with
  | nil => exact Nat.zero_le _
  | cons line lines ih =>
    have two : CRLF.length = 2 := by decide
    simp only [List.flatMap_cons, List.append_assoc, List.length_append, List.length_cons, two] at ih ⊢
    omega

structure GivenPart where
  name : Str
  filename : Option Str
  mediaType : Option Str
  content : Bytes

namespace GivenPart

def written (part : GivenPart) : Bytes := framed (headerLines part.name part.filename part.mediaType) part.content

/-- What a reader gets back of it: names with their quotes and line breaks percent-encoded. -/
def read (part : GivenPart) : Part :=
  ⟨utf8 (quoted part.name), part.filename.map fun f => utf8 (quoted f), part.mediaType.map utf8, part.content⟩

end GivenPart

section

variable [Library]

def fieldPart (field : Str × Str) : GivenPart := ⟨field.1, none, none, utf8 field.2⟩

def uploadPart (file : Str × FileSpec) : GivenPart :=
  let (filename, mediaType, content) := filePart file.1 file.2
  ⟨file.1, some filename, some mediaType, content⟩

def givenParts (fields : List (Str × Str)) (files : List (Str × FileSpec)) : List GivenPart :=
  fields.map fieldPart ++ files.map uploadPart

def enclosed (boundary : Str) (parts : List GivenPart) : Bytes :=
  parts.flatMap fun part => utf8 ("--".toList ++ boundary) ++ (part.written ++ CRLF)

theorem encodeMultipart_enclosed (fields : List (Str × Str)) (files : List (Str × FileSpec)) (boundary : Str) :
    encodeMultipart fields files boundary =
      enclosed boundary (givenParts fields files) ++ (utf8 ("--".toList ++ boundary) ++ utf8 "--\r\n".toList) := by
  have twice : utf8 "\r\n\r\n".toList = CRLF ++ CRLF := by decide
  have closing : utf8 ("--".toList ++ boundary ++ "--\r\n".toList) =
      utf8 ("--".toList ++ boundary) ++ utf8 "--\r\n".toList := utf8_append _ _
  rw [encodeMultipart, closing, enclosed, givenParts, List.flatMap_append, List.flatMap_map, List.flatMap_map]
  congr 2
  · refine List.flatMap_congr fun field _ => ?_
    simp only [fieldPart, GivenPart.written, framed, headerLines, Option.map_none, Option.toList_none,
      List.flatMap_cons, List.flatMap_nil, List.append_nil, utf8_append, twice, CRLF, List.append_assoc]
  · refine List.flatMap_congr fun file _ => ?_
    simp only [uploadPart, GivenPart.written, framed, headerLines, Option.map_some, Option.toList_some,
      List.flatMap_cons, List.flatMap_nil, List.append_nil, utf8_append, twice, CRLF, List.append_assoc]

end

section

attribute [local instance] asciiLibrary

end

end Cronet.Request
