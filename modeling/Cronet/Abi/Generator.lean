import Cronet.Abi.Declarators
import Cronet.Lib.Traverse

namespace Cronet.Generator

open Words (words IsWord)

def PRIMITIVES : List (Text × Text) := [
  ("void".toList, "None".toList),
  ("int".toList, "ctypes.c_int".toList),
  ("int32_t".toList, "ctypes.c_int32".toList),
  ("int64_t".toList, "ctypes.c_int64".toList),
  ("size_t".toList, "ctypes.c_size_t".toList),
  ("char *".toList, "ctypes.c_char_p".toList),
  ("uint8_t *".toList, "ctypes.POINTER(ctypes.c_ubyte)".toList)]

/-- What the header declares, in the order it declares it; the constants are not here. -/
structure Abi where
  opaques : List Text
  structs : List (Text × List (Text × Text))
  functions : List (Text × Text × List Text)
  deriving DecidableEq

/-- `str.title()` of ASCII, behind a letter or not. -/
def titleFrom : (cased : Bool) → Text → Text
  | _, [] => []
  | cased, c :: rest => (if cased then c.toLower else c.toUpper) :: titleFrom c.isAlpha rest

def title (s : Text) : Text := titleFrom false s

def pascalCase (cName : Text) : Text := (cName.splitOn '_').flatMap title

def removeSuffix (suffix s : Text) : Text := if suffix.isSuffixOf s then s.take (s.length - suffix.length) else s

namespace Abi

def structNames (abi : Abi) : List Text := abi.structs.map Prod.fst

def ctypesFor (abi : Abi) (cType : Text) : Except HeaderError Text :=
  match PRIMITIVES.lookup cType with
  | some spelling => .ok spelling
  | none =>
    let pointee := strip (removeSuffix " *".toList cType)
    if cType.getLast? = some '*' then
      if pointee ∈ abi.opaques then .ok "ctypes.c_void_p".toList
      else if pointee ∈ abi.structNames then .ok ("ctypes.POINTER(".toList ++ pascalCase pointee ++ [')'])
      else .error (.unmapped cType)
    else if cType ∈ abi.structNames then .ok (pascalCase cType)
    else .error (.unmapped cType)

end Abi

/-- The texts that the patterns of `parse` find in a header: the names of opaque structs, the bodies and names of the
    others, and the name, the return type and the arguments of each function. -/
structure Found where
  opaques : List Text
  structs : List (Text × Text)
  exported : List (Text × Text × Text)

def parseFields (body : Text) : Except HeaderError (List (Text × Text)) :=
  (((body.splitOn ';').map strip).filter (· ≠ [])).mapM fun field => return (← splitDeclarator field).swap

def parseArguments (args : Text) : Except HeaderError (List Text) :=
  let rawArgs := strip args
  if normalizeType rawArgs = "void".toList then return []
  else (rawArgs.splitOn ',').mapM fun arg => return (← splitDeclarator arg).1

def parseStruct (found : Text × Text) : Except HeaderError (Text × List (Text × Text)) :=
  return (found.2, ← parseFields found.1)

def parseFunction (found : Text × Text × Text) : Except HeaderError (Text × Text × List Text) :=
  return (found.1, normalizeType found.2.1, ← parseArguments found.2.2)

def parse (found : Found) : Except HeaderError Abi := do
  let structs ← found.structs.mapM parseStruct
  let functions ← found.exported.mapM parseFunction
  if functions = [] then throw .noFunctions
  else return ⟨found.opaques, structs, functions⟩

/-- The classes of the generated module, and what its `bind` says of each function. -/
structure Binding where
  classes : List (Text × List (Text × Text))
  signatures : List (Text × Text × List Text)
  deriving DecidableEq

def renderStruct (abi : Abi) (struct : Text × List (Text × Text)) : Except HeaderError (Text × List (Text × Text)) :=
  return (pascalCase struct.1, ← struct.2.mapM fun field => return (field.1, ← abi.ctypesFor field.2))

def renderFunction (abi : Abi) (function : Text × Text × List Text) : Except HeaderError (Text × Text × List Text) := do
  let mapped ← function.2.2.mapM abi.ctypesFor
  return (function.1, ← abi.ctypesFor function.2.1, mapped)

def render (abi : Abi) : Except HeaderError Binding := do
  let classes ← abi.structs.mapM (renderStruct abi)
  return ⟨classes, ← abi.functions.mapM (renderFunction abi)⟩

structure Declared where
  type : List Text
  name : Text
  typed : unqualified type ≠ []
  named : name ≠ "const".toList

structure CStruct where
  name : Text
  fields : List Declared
  identifier : IsIdentifier name
  prefixed : "cronet_".toList <+: name

structure CFunction where
  name : Text
  returns : List Text
  arguments : List Declared

structure Header where
  opaques : List Text
  structs : List CStruct
  functions : List CFunction
  exports : functions ≠ []

def Declared.Spelled (declared : Declared) (text : Text) : Prop := Spells (declared.type ++ [declared.name]) text

def CStruct.Spelled (struct : CStruct) (found : Text × Text) : Prop :=
  found.2 = struct.name ∧ ∃ texts blanks, found.1 = [';'].intercalate (texts ++ [blanks]) ∧
    (∀ c ∈ blanks, isSpace c = true) ∧ List.Forall₂ Declared.Spelled struct.fields texts

/-- There is a comma between two arguments, and `void` where there is none. -/
def CFunction.Spelled (function : CFunction) (found : Text × Text × Text) : Prop :=
  found.1 = function.name ∧ Spells function.returns found.2.1 ∧
    (function.arguments = [] ∧ Spells ["void".toList] found.2.2 ∨
      function.arguments ≠ [] ∧ ∃ texts, found.2.2 = [','].intercalate texts ∧
        List.Forall₂ Declared.Spelled function.arguments texts)

structure Header.Spelled (header : Header) (found : Found) : Prop where
  opaques : found.opaques = header.opaques
  structs : List.Forall₂ CStruct.Spelled header.structs found.structs
  functions : List.Forall₂ CFunction.Spelled header.functions found.exported

/-- The type as `normalize_type` writes it. -/
def Declared.cType (declared : Declared) : Text := join (unqualified declared.type)

def Header.abi (header : Header) : Abi where
  opaques := header.opaques
  structs := header.structs.map fun struct => (struct.name, struct.fields.map fun field => (field.name, field.cType))
  functions := header.functions.map fun function =>
    (function.name, join (unqualified function.returns), function.arguments.map Declared.cType)

theorem Spells.chars {tokens : List Text} {text : Text} (spells : Spells tokens text) : ∀ c ∈ text, c ≠ ';' ∧ c ≠ ',' := by
  have blanks {blanks : Text} (blank : ∀ c ∈ blanks, isSpace c = true) : ∀ c ∈ blanks, c ≠ ';' ∧ c ≠ ',' := by
    intro c member
    have space := blank c member
    apply And.intro
    · rintro rfl
      cases space
    · rintro rfl
      cases space
  induction spells with
  | nil blank => exact blanks blank
  | star blank spells ih =>
    intro c member
    rcases List.mem_append.mp member with before | behind
    · exact blanks blank c before
    · rcases List.mem_cons.mp behind with rfl | later
      · decide
      · exact ih c later
  | word blank identifier ends spells ih =>
    intro c member
    rcases List.mem_append.mp member with before | behind
    · exact blanks blank c before
    · rcases List.mem_append.mp behind with inside | later
      · exact (identifier_char (identifier.chars c inside)).2.2
      · exact ih c later

theorem normalizeType_trim {front s back : Text} (before : ∀ c ∈ front, isSpace c = true)
    (behind : ∀ c ∈ back, isSpace c = true) :
    normalizeType (front ++ (s ++ back)) = normalizeType s := by
  have words : split (spaced (front ++ (s ++ back))) = split (spaced s) := by
    rw [spaced_append, spaced_append, spaced_plain fun c member => space_ne_star (before c member),
      spaced_plain fun c member => space_ne_star (behind c member)]
    exact (Words.words_append_seps before).trans (Words.wordsFrom_append_seps behind)
  rw [normalizeType, words, normalizeType]

theorem strip_parts (s : Text) : ∃ front back, s = front ++ (strip s ++ back) ∧
    (∀ c ∈ front, isSpace c = true) ∧ ∀ c ∈ back, isSpace c = true := by
  refine ⟨s.takeWhile isSpace, (s.dropWhile isSpace).rtakeWhile isSpace, ?_, fun c => List.mem_takeWhile_imp,
    fun c => List.mem_rtakeWhile_imp⟩
  rw [strip, List.rdropWhile_append_rtakeWhile, List.takeWhile_append_dropWhile]

theorem normalizeType_strip (s : Text) : normalizeType (strip s) = normalizeType s := by
  rcases strip_parts s with ⟨front, back, whole, before, behind⟩
  conv_rhs => rw [whole, normalizeType_trim before behind]

theorem splitDeclarator_congr {s t : Text} {read : Text × Text} (same : normalizeType s = normalizeType t)
    (ok : splitDeclarator t = .ok read) : splitDeclarator s = .ok read := by
  simp only [splitDeclarator, same] at ok ⊢
  split at ok
  · cases ok
  · rename_i long
    rw [if_neg long]
    exact ok

def Trims (inner outer : Text) : Prop :=
  ∃ front back, (∀ c ∈ front, isSpace c = true) ∧ (∀ c ∈ back, isSpace c = true) ∧ outer = front ++ (inner ++ back)

theorem splitOn_behind {sep : Char} {s back : Text} (plain : isSpace sep = false) (blank : ∀ c ∈ back, isSpace c = true) :
    List.Forall₂ (fun inner outer => ∃ blanks, (∀ c ∈ blanks, isSpace c = true) ∧ outer = inner ++ blanks) (s.splitOn sep)
      ((s ++ back).splitOn sep) := by
  induction s with
  | nil =>
    have absent : sep ∉ back := by
      intro member
      rw [blank sep member] at plain
      cases plain
    rw [List.nil_append, List.splitOn_nil, List.splitOn_eq_singleton absent]
    exact .cons ⟨back, blank, rfl⟩ .nil
  | cons c s ih =>
    rw [List.cons_append, List.splitOn_cons_eq_if_modifyHead, List.splitOn_cons_eq_if_modifyHead]
    split
    · exact .cons ⟨[], nofun, rfl⟩ ih
    · generalize s.splitOn sep = inner, (s ++ back).splitOn sep = outer at ih
      cases ih with
      | nil => exact .nil
      | cons related rest =>
        rcases related with ⟨blanks, blank, rfl⟩
        exact .cons ⟨blanks, blank, rfl⟩ rest

theorem splitOn_front {sep : Char} {s front : Text} (plain : isSpace sep = false) (blank : ∀ c ∈ front, isSpace c = true) :
    (front ++ s).splitOn sep = (s.splitOn sep).modifyHead (front ++ ·) := by
  induction front with
  | nil =>
    rw [List.nil_append]
    cases s.splitOn sep <;> rfl
  | cons c front ih =>
    have other : (c == sep) = false := by
      rw [beq_eq_false_iff_ne]
      rintro rfl
      rw [blank c List.mem_cons_self] at plain
      cases plain
    have later := ih fun d member => blank d (List.mem_cons_of_mem c member)
    rw [List.cons_append, List.splitOn_cons_eq_if_modifyHead, if_neg (by rw [other]; decide), later]
    cases s.splitOn sep <;> rfl

theorem splitOn_trims {sep : Char} {s t : Text} (plain : isSpace sep = false) (trims : Trims s t) :
    List.Forall₂ Trims (s.splitOn sep) (t.splitOn sep) := by
  rcases trims with ⟨front, back, before, behind, rfl⟩
  have parts := @splitOn_behind sep s back plain behind
  rw [splitOn_front plain before]
  generalize s.splitOn sep = inner, (s ++ back).splitOn sep = outer at parts
  cases parts with
  | nil => exact .nil
  | cons related rest =>
    rcases related with ⟨blanks, blank, rfl⟩
    apply List.Forall₂.cons
    · exact ⟨front, blanks, before, blank, rfl⟩
    · exact rest.imp fun inner outer ⟨blanks, blank, whole⟩ => ⟨[], blanks, nofun, blank, whole⟩

theorem trims_strip (s : Text) : Trims (strip s) s := by
  rcases strip_parts s with ⟨front, back, whole, before, behind⟩
  exact ⟨front, back, before, behind, whole⟩

theorem Trims.normalizeType {inner outer : Text} (trims : Trims inner outer) :
    normalizeType inner = normalizeType outer := by
  rcases trims with ⟨front, back, before, behind, rfl⟩
  rw [normalizeType_trim before behind]

namespace Declared

variable {declared : Declared} {text : Text}

theorem Spelled.splitDeclarator (spelled : declared.Spelled text) :
    splitDeclarator text = .ok (declared.cType, declared.name) :=
  Spells.splitDeclarator spelled declared.named declared.typed

theorem Spelled.strip_ne_nil (spelled : declared.Spelled text) : strip text ≠ [] := by
  intro empty
  have read := splitDeclarator_congr (normalizeType_strip text) spelled.splitDeclarator
  rw [empty] at read
  cases read

end Declared

theorem parseFields_spelled {struct : CStruct} {found : Text × Text} (spelled : struct.Spelled found) :
    parseFields found.1 = .ok (struct.fields.map fun field => (field.name, field.cType)) := by
  rcases spelled with ⟨_, texts, blanks, body, blank, fields⟩
  have plain : ∀ text ∈ texts ++ [blanks], ';' ∉ text := by
    intro text member inside
    rcases List.mem_append.mp member with field | last
    · rcases fields.exists_of_mem field with ⟨_, _, spells⟩
      exact (Spells.chars spells ';' inside).1 rfl
    · rw [List.mem_singleton] at last
      rw [last] at inside
      exact absurd (blank ';' inside) (by decide)
  have nothing : strip blanks = [] := by
    have front : blanks.dropWhile isSpace = [] := List.dropWhile_eq_nil_iff.mpr blank
    rw [strip, front]
    rfl
  have pieces : ((found.1.splitOn ';').map strip).filter (· ≠ []) = texts.map strip := by
    rw [body, List.splitOn_intercalate ';' plain (by simp), List.map_append, List.filter_append]
    have kept : (texts.map strip).filter (· ≠ []) = texts.map strip := by
      apply List.filter_eq_self.mpr
      intro stripped member
      rcases List.mem_map.mp member with ⟨text, there, rfl⟩
      rcases fields.exists_of_mem there with ⟨_, _, spells⟩
      exact decide_eq_true (Declared.Spelled.strip_ne_nil spells)
    rw [kept]
    simp [nothing]
  rw [parseFields, pieces]
  apply Except.mapM_ok_iff.mpr
  rw [List.forall₂_map_left_iff, List.forall₂_map_right_iff]
  apply fields.flip.imp
  intro text field spelled
  have read := splitDeclarator_congr (normalizeType_strip text) (Declared.Spelled.splitDeclarator spelled)
  rw [read]
  rfl

theorem mem_split {s : Text} {c : Char} (plain : isSpace c = false) (star : c ≠ '*') (member : c ∈ s) :
    ∃ word ∈ split (spaced s), c ∈ word := by
  have inside : c ∈ [] ++ spaced s := by
    apply List.mem_flatMap.mpr
    refine ⟨c, member, ?_⟩
    rw [if_neg star]
    exact List.mem_singleton_self c
  exact Words.mem_wordsFrom plain inside

theorem arguments_ne_void {arguments : List Declared} {texts : List Text} {args : Text} (some : arguments ≠ [])
    (whole : args = [','].intercalate texts) (all : List.Forall₂ Declared.Spelled arguments texts) :
    normalizeType args ≠ "void".toList := by
  intro void
  have words : ∀ word ∈ unqualified (split (spaced args)), IsWord isSpace word :=
    fun word member => Words.isWord_of_mem_words (List.mem_of_mem_filter member)
  have joined : join (unqualified (split (spaced args))) = join ["void".toList] := by
    rw [← strip_join words, ← sub_join words]
    exact void
  have single : unqualified (split (spaced args)) = ["void".toList] := by
    apply Words.intercalate_inj (by decide) words _ joined
    exact List.forall_mem_singleton.mpr (IsIdentifier.isWord (by decide))
  cases all with
  | nil => exact some rfl
  | @cons argument text arguments texts spelled rest =>
    cases rest with
    | nil =>
      have tokens : split (spaced args) = argument.type ++ [argument.name] := by
        rw [whole, List.intercalate_singleton]
        exact Spells.split spelled
      have typed := List.length_pos_iff.mpr argument.typed
      have length := congrArg List.length single
      rw [tokens, unqualified, List.filter_append, List.length_append, List.filter_singleton,
        decide_eq_true argument.named] at length
      simp only [cond_true, List.length_singleton] at length
      simp only [unqualified] at typed
      omega
    | @cons next text' arguments texts spelled' rest =>
      have comma : ',' ∈ args := by
        rw [whole, List.intercalate_cons_cons]
        simp
      rcases mem_split (by decide) (by decide) comma with ⟨word, there, inside⟩
      have kept : word ∈ unqualified (split (spaced args)) := by
        apply List.mem_filter.mpr (And.intro there _)
        rw [decide_eq_true_iff]
        rintro rfl
        exact absurd inside (by decide)
      rw [single, List.mem_singleton] at kept
      rw [kept] at inside
      exact absurd inside (by decide)

theorem parseArguments_spelled {function : CFunction} {found : Text × Text × Text} (spelled : function.Spelled found) :
    parseArguments found.2.2 = .ok (function.arguments.map Declared.cType) := by
  rcases spelled with ⟨_, _, ⟨none, void⟩ | ⟨some, texts, whole, all⟩⟩
  · have read : normalizeType (strip found.2.2) = "void".toList := by
      rw [normalizeType_strip, void.normalizeType]
      rfl
    rw [parseArguments, none]
    exact if_pos read
  · have other : normalizeType (strip found.2.2) ≠ "void".toList := by
      rw [normalizeType_strip]
      exact arguments_ne_void some whole all
    have plain : ∀ text ∈ texts, ',' ∉ text := by
      intro text member inside
      rcases all.exists_of_mem member with ⟨_, _, spells⟩
      exact (Spells.chars spells ',' inside).2 rfl
    have written : texts ≠ [] := by
      intro empty
      rw [empty] at all
      exact some (List.forall₂_nil_right_iff.mp all)
    have parts := @splitOn_trims ',' _ _ (by decide) (trims_strip found.2.2)
    rw [whole, List.splitOn_intercalate ',' plain written, ← whole] at parts
    rw [parseArguments, if_neg other]
    apply Except.mapM_ok_iff.mpr
    rw [List.forall₂_map_right_iff]
    apply (parts.meet all).imp
    rintro piece argument ⟨text, trims, spelled⟩
    have read := splitDeclarator_congr trims.normalizeType (Declared.Spelled.splitDeclarator spelled)
    rw [read]
    rfl

theorem parse_spelled {header : Header} {found : Found} (spelled : header.Spelled found) : parse found = .ok header.abi := by
  have structs : found.structs.mapM parseStruct = .ok header.abi.structs := by
    apply Except.mapM_ok_iff.mpr
    rw [Header.abi, List.forall₂_map_right_iff]
    apply spelled.structs.flip.imp
    intro text struct spelled
    rw [parseStruct, parseFields_spelled spelled, spelled.1]
    rfl
  have functions : found.exported.mapM parseFunction = .ok header.abi.functions := by
    apply Except.mapM_ok_iff.mpr
    rw [Header.abi, List.forall₂_map_right_iff]
    apply spelled.functions.flip.imp
    intro text function spelled
    rw [parseFunction, parseArguments_spelled spelled, spelled.1, spelled.2.1.normalizeType]
    rfl
  have exported : header.abi.functions ≠ [] := fun empty => header.exports (List.map_eq_nil_iff.mp empty)
  simp only [parse, structs, functions, bind, Except.bind, if_neg exported, spelled.opaques]
  rfl

end Cronet.Generator
