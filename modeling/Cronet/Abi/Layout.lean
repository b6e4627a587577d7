import Cronet.Abi.Generator

namespace Cronet.Generator

structure Layout where
  size : Nat
  align : Nat
  deriving DecidableEq

def roundUp (n align : Nat) : Nat := (n + align - 1) / align * align

/-- A struct: the name, the offset and the size of each field, and what it takes up as a whole. -/
structure Record where
  fields : List (Text × Nat × Nat)
  layout : Layout
  deriving DecidableEq

/-- Each field at the next offset that its alignment allows, behind the field before it. -/
def placeFields (offset : Nat) : List (Text × Layout) → List (Text × Nat × Nat) × Nat
  | [] => ([], offset)
  | (name, layout) :: rest =>
    let at_ := roundUp offset layout.align
    let (placed, after) := placeFields (at_ + layout.size) rest
    ((name, at_, layout.size) :: placed, after)

/-- The layout of the x86-64 ABI, which a `ctypes.Structure` follows too. -/
def record (fields : List (Text × Layout)) : Record :=
  let (placed, after) := placeFields 0 fields
  let align := (fields.map (·.2.align)).foldl max 1
  ⟨placed, roundUp after align, align⟩

def pointer : Layout := ⟨8, 8⟩

/-- What a call passes and returns; nothing comes back from `void`. -/
structure Signature where
  returns : Option Layout
  arguments : List Layout
  deriving DecidableEq

abbrev Records := List (Text × Record)

def C_TYPES : List (Text × Layout) := [
  ("int".toList, ⟨4, 4⟩),
  ("int32_t".toList, ⟨4, 4⟩),
  ("int64_t".toList, ⟨8, 8⟩),
  ("size_t".toList, ⟨8, 8⟩),
  ("char".toList, ⟨1, 1⟩),
  ("uint8_t".toList, ⟨1, 1⟩)]

/-- The type that tokens denote where the structs of `records` and those of `opaques` have been declared. -/
def cLayout (opaques : List Text) (records : Records) (type : List Text) : Option Layout :=
  match unqualified type with
  | [] => none
  | [base] => C_TYPES.lookup base <|> (records.lookup base).map Record.layout
  | base :: stars =>
    if stars.all (· = ['*']) ∧
        (base = "void".toList ∨ (C_TYPES.lookup base).isSome ∨ opaques.contains base ∨ (records.lookup base).isSome) then
      some pointer
    else none

def cReturns (opaques : List Text) (records : Records) (type : List Text) : Option (Option Layout) :=
  if unqualified type = ["void".toList] then some none else (cLayout opaques records type).map some

def compileStructs (opaques : List Text) : Records → List CStruct → Option Records
  | records, [] => some records
  | records, struct :: rest => do
    let fields ← struct.fields.mapM fun field => (cLayout opaques records field.type).map (field.name, ·)
    compileStructs opaques ((struct.name, record fields) :: records) rest

def compileFunction (opaques : List Text) (records : Records) (function : CFunction) : Option (Text × Signature) := do
  let arguments ← function.arguments.mapM fun argument => cLayout opaques records argument.type
  return (function.name, ⟨← cReturns opaques records function.returns, arguments⟩)

def Header.compile (header : Header) : Option (Records × List (Text × Signature)) := do
  let records ← compileStructs header.opaques [] header.structs
  return (records, ← header.functions.mapM (compileFunction header.opaques records))

def CTYPES : List (Text × Layout) := [
  ("ctypes.c_int".toList, ⟨4, 4⟩),
  ("ctypes.c_int32".toList, ⟨4, 4⟩),
  ("ctypes.c_int64".toList, ⟨8, 8⟩),
  ("ctypes.c_size_t".toList, ⟨8, 8⟩),
  ("ctypes.c_char_p".toList, pointer),
  ("ctypes.c_void_p".toList, pointer),
  ("ctypes.POINTER(ctypes.c_ubyte)".toList, pointer)]

/-- What stands in `ctypes.POINTER(...)`. -/
def pointee? (expression : Text) : Option Text :=
  if "ctypes.POINTER(".toList.isPrefixOf expression ∧ expression.getLast? = some ')' then
    some (expression.drop "ctypes.POINTER(".toList.length).dropLast
  else none

/-- The value of an expression where the classes of `classes` have been defined; `None` is no type of a field. -/
def pyLayout (classes : Records) (expression : Text) : Option Layout :=
  match CTYPES.lookup expression with
  | some layout => some layout
  | none =>
    match pointee? expression with
    | some name => if (classes.lookup name).isSome then some pointer else none
    | none => (classes.lookup expression).map Record.layout

def pyReturns (classes : Records) (expression : Text) : Option (Option Layout) :=
  if expression = "None".toList then some none else (pyLayout classes expression).map some

/-- The classes of the module as importing it defines them, the last one first. -/
def loadClasses : Records → List (Text × List (Text × Text)) → Option Records
  | classes, [] => some classes
  | classes, (name, fields) :: rest => do
    let fields ← fields.mapM fun field => (pyLayout classes field.2).map (field.1, ·)
    loadClasses ((name, record fields) :: classes) rest

def bindFunction (classes : Records) (function : Text × Text × List Text) : Option (Text × Signature) := do
  let arguments ← function.2.2.mapM (pyLayout classes)
  return (function.1, ⟨← pyReturns classes function.2.1, arguments⟩)

def Binding.load (binding : Binding) : Option (Records × List (Text × Signature)) := do
  let classes ← loadClasses [] binding.classes
  return (classes, ← binding.signatures.mapM (bindFunction classes))

end Cronet.Generator
