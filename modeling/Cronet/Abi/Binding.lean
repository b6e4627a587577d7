import Cronet.Abi.Layout

namespace Cronet.Generator

open Words (IsWord)

theorem CStruct.name_last (struct : CStruct) : struct.name.getLast? ≠ some '*' := by
  intro last
  rcases struct.identifier.chars '*' (List.mem_of_getLast? last) with letter | line
  · exact absurd letter (by decide)
  · exact absurd line (by decide)

theorem CStruct.name_foreign (struct : CStruct) : PRIMITIVES.lookup struct.name = none ∧
    C_TYPES.lookup struct.name = none ∧ struct.name ≠ "void".toList := by
  rcases struct.prefixed with ⟨rest, whole⟩
  rw [← whole]
  exact ⟨rfl, rfl, nofun⟩

theorem CStruct.class_named (struct : CStruct) : ∃ rest, pascalCase struct.name = "Cronet".toList ++ rest := by
  rcases struct.prefixed with ⟨rest, whole⟩
  have split : ("cronet_".toList ++ rest).splitOn '_' = "cronet".toList :: rest.splitOn '_' := by
    show ("cronet".toList ++ '_' :: rest).splitOn '_' = _
    exact List.splitOn_append_cons_self_of_not_mem (by decide) rest
  refine ⟨(rest.splitOn '_').flatMap title, ?_⟩
  rw [← whole, pascalCase, split, List.flatMap_cons]
  rfl

theorem CStruct.class_foreign (struct : CStruct) : CTYPES.lookup (pascalCase struct.name) = none ∧
    pointee? (pascalCase struct.name) = none ∧
    CTYPES.lookup ("ctypes.POINTER(".toList ++ pascalCase struct.name ++ [')']) = none := by
  rcases struct.class_named with ⟨rest, named⟩
  rw [named]
  exact ⟨rfl, rfl, rfl⟩

theorem join_concat {all : List Text} {word : Text} (some : all ≠ []) : join (all ++ [word]) = join all ++ ' ' :: word := by
  induction all with
  | nil => exact absurd rfl some
  | cons first all ih =>
    cases all with
    | nil =>
      rw [List.singleton_append, join_cons]
      simp [join]
    | cons next all =>
      rw [List.cons_append, List.cons_append, join_cons, join_cons, ← List.cons_append, ih (List.cons_ne_nil next all),
        List.append_assoc, List.cons_append]

theorem removeSuffix_append (suffix s : Text) : removeSuffix suffix (s ++ suffix) = s := by
  have there : suffix.isSuffixOf (s ++ suffix) = true := List.isSuffixOf_iff_suffix.mpr (List.suffix_append s suffix)
  rw [removeSuffix, if_pos there, List.length_append, Nat.add_sub_cancel, List.take_left]

theorem pointee_pointer (name : Text) : pointee? ("ctypes.POINTER(".toList ++ name ++ [')']) = some name := by
  have opens : "ctypes.POINTER(".toList.isPrefixOf ("ctypes.POINTER(".toList ++ name ++ [')']) = true := by
    rw [List.append_assoc]
    exact List.isPrefixOf_iff_prefix.mpr (List.prefix_append _ _)
  have closes : ("ctypes.POINTER(".toList ++ name ++ [')']).getLast? = some ')' := List.getLast?_concat
  rw [pointee?, if_pos ⟨opens, closes⟩, List.append_assoc, List.drop_left, List.dropLast_concat]

theorem join_isWord {all : List Text} {word : Text} (isWord : IsWord isSpace word) (same : join all = word) :
    all = [word] := by
  cases all with
  | nil => exact absurd same.symm isWord.nonempty
  | cons first all =>
    cases all with
    | nil =>
      rw [join, List.intercalate_singleton] at same
      rw [same]
    | cons next all =>
      have blank : ' ' ∈ word := by
        rw [← same, join_cons]
        exact List.mem_append_right first List.mem_cons_self
      exact absurd (isWord.plain ' ' blank) (by decide)

theorem lookup_map {α : Type} {f : Text → Text} {pairs : List (Text × α)} {key : Text}
    (apart : ∀ pair ∈ pairs, f key = f pair.1 → key = pair.1) :
    (pairs.map (Prod.map f id)).lookup (f key) = pairs.lookup key := by
  induction pairs with
  | nil => rfl
  | cons pair pairs ih =>
    have later := ih fun other member => apart other (List.mem_cons_of_mem pair member)
    rw [List.map_cons, List.lookup_cons, List.lookup_cons, later]
    by_cases same : key = pair.1
    · rw [same]
      simp
    · have other : f key ≠ f pair.1 := fun equal => same (apart pair List.mem_cons_self equal)
      simp [beq_false_of_ne same, beq_false_of_ne other]

def Header.Distinct (header : Header) : Prop :=
  ∀ one ∈ header.structs, ∀ two ∈ header.structs, pascalCase one.name = pascalCase two.name → one.name = two.name

/-- The classes of the module are the structs of the header that have been declared so far. -/
structure Mirrors (header : Header) (records classes : Records) : Prop where
  distinct : header.Distinct
  declared : ∀ record ∈ records, ∃ struct ∈ header.structs, struct.name = record.1
  same : classes = records.map (Prod.map pascalCase id)

section

variable {header : Header} {records classes : Records}

theorem mem_structNames {name : Text} : name ∈ header.abi.structNames ↔ ∃ struct ∈ header.structs, struct.name = name := by
  simp [Abi.structNames, Header.abi]

theorem Mirrors.lookup (mirrors : Mirrors header records classes) {struct : CStruct} (member : struct ∈ header.structs) :
    classes.lookup (pascalCase struct.name) = records.lookup struct.name := by
  rw [mirrors.same]
  apply lookup_map
  intro record there equal
  rcases mirrors.declared record there with ⟨other, member', named⟩
  rw [← named] at equal ⊢
  exact mirrors.distinct struct member other member' equal

theorem Mirrors.declared_of_lookup (mirrors : Mirrors header records classes) {name : Text} {record : Record}
    (found : records.lookup name = some record) : ∃ struct ∈ header.structs, struct.name = name := by
  rcases List.lookup_eq_some_iff.mp found with ⟨before, after, whole, _⟩
  apply mirrors.declared (name, record)
  rw [whole]
  exact List.mem_append_right before List.mem_cons_self

theorem Mirrors.none_foreign (mirrors : Mirrors header records classes) : pyLayout classes "None".toList = none := by
  have absent : classes.lookup "None".toList = none := by
    rw [List.lookup_eq_none_iff]
    intro entry member
    rw [mirrors.same] at member
    rcases List.mem_map.mp member with ⟨record, there, rfl⟩
    rcases mirrors.declared record there with ⟨struct, _, named⟩
    rcases struct.class_named with ⟨rest, written⟩
    rw [bne_iff_ne, Prod.map_fst, ← named, written]
    nofun
  show (classes.lookup "None".toList).map Record.layout = none
  rw [absent]
  rfl

theorem ctypesFor_struct {struct : CStruct} (member : struct ∈ header.structs) :
    header.abi.ctypesFor struct.name = .ok (pascalCase struct.name) := by
  rw [Abi.ctypesFor, struct.name_foreign.1]
  show (if _ then _ else _) = _
  rw [if_neg struct.name_last, if_pos (mem_structNames.mpr ⟨struct, member, rfl⟩)]

theorem value_layout {base expression : Text} {layout : Layout} (mirrors : Mirrors header records classes)
    (reads : (C_TYPES.lookup base <|> (records.lookup base).map Record.layout) = some layout)
    (mapped : header.abi.ctypesFor base = .ok expression) : pyLayout classes expression = some layout := by
  cases number : C_TYPES.lookup base with
  | some found =>
    have other (foreign : PRIMITIVES.lookup base = none) (last : base.getLast? ≠ some '*')
        (unprefixed : ¬"cronet_".toList <+: base) : False := by
      rw [Abi.ctypesFor, foreign] at mapped
      simp only [if_neg last] at mapped
      split at mapped
      · rename_i member
        rcases mem_structNames.mp member with ⟨struct, _, named⟩
        exact unprefixed (named ▸ struct.prefixed)
      · cases mapped
    rw [number] at reads
    cases reads
    rcases List.lookup_eq_some_iff.mp number with ⟨before, after, whole, _⟩
    have member : (base, layout) ∈ C_TYPES := by
      rw [whole]
      exact List.mem_append_right before List.mem_cons_self
    simp only [C_TYPES, List.mem_cons, Prod.mk.injEq, List.not_mem_nil, or_false] at member
    rcases member with ⟨rfl, rfl⟩ | ⟨rfl, rfl⟩ | ⟨rfl, rfl⟩ | ⟨rfl, rfl⟩ | ⟨rfl, rfl⟩ | ⟨rfl, rfl⟩
    · cases mapped
      rfl
    · cases mapped
      rfl
    · cases mapped
      rfl
    · cases mapped
      rfl
    · exact (other rfl (by decide) (by decide)).elim
    · exact (other rfl (by decide) (by decide)).elim
  | none =>
    rw [number] at reads
    rcases Option.map_eq_some_iff.mp reads with ⟨record, found, rfl⟩
    rcases mirrors.declared_of_lookup found with ⟨struct, member, rfl⟩
    rw [ctypesFor_struct member] at mapped
    cases mapped
    rw [pyLayout, struct.class_foreign.1, struct.class_foreign.2.1]
    show (classes.lookup _).map Record.layout = _
    rw [mirrors.lookup member, found]
    rfl

theorem primitive_pointer {base next spelling : Text} {rest : List Text}
    (mapped : PRIMITIVES.lookup (join (base :: next :: rest)) = some spelling) :
    pyLayout classes spelling = some pointer := by
  have blank : ' ' ∈ join (base :: next :: rest) := by
    rw [join_cons]
    exact List.mem_append_right base List.mem_cons_self
  generalize join (base :: next :: rest) = cType at mapped blank
  rcases List.lookup_eq_some_iff.mp mapped with ⟨before, after, whole, _⟩
  have member : (cType, spelling) ∈ PRIMITIVES := by
    rw [whole]
    exact List.mem_append_right before List.mem_cons_self
  simp only [PRIMITIVES, List.mem_cons, Prod.mk.injEq, List.not_mem_nil, or_false] at member
  rcases member with ⟨rfl, rfl⟩ | ⟨rfl, rfl⟩ | ⟨rfl, rfl⟩ | ⟨rfl, rfl⟩ | ⟨rfl, rfl⟩ | ⟨rfl, rfl⟩ | ⟨rfl, rfl⟩
  · exact absurd blank (by decide)
  · exact absurd blank (by decide)
  · exact absurd blank (by decide)
  · exact absurd blank (by decide)
  · exact absurd blank (by decide)
  · rfl
  · rfl

theorem pointer_layout {base : Text} {stars : List Text} {expression : Text} (mirrors : Mirrors header records classes)
    (each : ∀ word ∈ base :: stars, IsWord isSpace word) (some : stars ≠ []) (only : ∀ star ∈ stars, star = ['*'])
    (known : base = "void".toList ∨ (C_TYPES.lookup base).isSome ∨ base ∈ header.opaques ∨ (records.lookup base).isSome)
    (mapped : header.abi.ctypesFor (join (base :: stars)) = .ok expression) :
    pyLayout classes expression = .some pointer := by
  rcases List.eq_nil_or_concat stars with none | ⟨init, last, rfl⟩
  · exact absurd none some
  rw [only last (by simp), List.concat_eq_append] at each mapped
  have written : join (base :: (init ++ [['*']])) = join (base :: init) ++ " *".toList :=
    join_concat (List.cons_ne_nil base init)
  have inner : ∀ word ∈ base :: init, IsWord isSpace word := by
    intro word member
    apply each
    rw [← List.cons_append]
    exact List.mem_append_left _ member
  have pointee : strip (removeSuffix " *".toList (join (base :: init) ++ " *".toList)) = join (base :: init) := by
    rw [removeSuffix_append, strip_join inner]
  cases primitive : PRIMITIVES.lookup (join (base :: (init ++ [['*']]))) with
  | some spelling =>
    rw [Abi.ctypesFor, primitive] at mapped
    cases mapped
    cases init with
    | nil => exact primitive_pointer primitive
    | cons next init => exact primitive_pointer primitive
  | none =>
    have last : (join (base :: init) ++ " *".toList).getLast? = .some '*' := by simp
    rw [Abi.ctypesFor, primitive] at mapped
    simp only [written, last, pointee, if_true] at mapped
    split at mapped
    · cases mapped
      rfl
    · rename_i transparent
      split at mapped
      · rename_i member
        rcases mem_structNames.mp member with ⟨struct, there, named⟩
        have alone := join_isWord struct.identifier.isWord named.symm
        rw [List.cons.injEq] at alone
        rcases alone with ⟨rfl, rfl⟩
        have declared : (records.lookup struct.name).isSome = true := by
          rcases known with void | number | opaqueName | declared
          · exact absurd void struct.name_foreign.2.2
          · rw [struct.name_foreign.2.1] at number
            cases number
          · rw [named] at opaqueName
            exact absurd opaqueName transparent
          · exact declared
        rw [← named] at mapped
        cases mapped
        rw [pyLayout, struct.class_foreign.2.2, pointee_pointer]
        show (if _ then _ else _) = _
        rw [mirrors.lookup there, if_pos declared]
      · cases mapped

theorem type_layout {type : List Text} {expression : Text} {layout : Layout} (mirrors : Mirrors header records classes)
    (each : ∀ token ∈ unqualified type, IsWord isSpace token) (compiles : cLayout header.opaques records type = some layout)
    (mapped : header.abi.ctypesFor (join (unqualified type)) = .ok expression) :
    pyLayout classes expression = some layout := by
  rw [cLayout] at compiles
  split at compiles
  · cases compiles
  · rename_i base alone
    rw [alone, join, List.intercalate_singleton] at mapped
    exact value_layout mirrors compiles mapped
  · rename_i base stars more tokens
    rw [tokens] at each mapped
    split at compiles
    · rename_i both
      cases compiles
      have only : ∀ star ∈ stars, star = ['*'] := by simpa using both.1
      have known := both.2
      rw [List.contains_iff_mem] at known
      apply pointer_layout mirrors each _ only known mapped
      rintro rfl
      exact more rfl
    · cases compiles

theorem type_returns {type : List Text} {expression : Text} {returns : Option Layout}
    (mirrors : Mirrors header records classes)
    (each : ∀ token ∈ unqualified type, IsWord isSpace token)
    (compiles : cReturns header.opaques records type = some returns)
    (mapped : header.abi.ctypesFor (join (unqualified type)) = .ok expression) :
    pyReturns classes expression = some returns := by
  rw [cReturns] at compiles
  split at compiles
  · rename_i void
    rw [void] at mapped
    cases mapped
    cases compiles
    rfl
  · rcases Option.map_eq_some_iff.mp compiles with ⟨layout, value, rfl⟩
    have loaded := type_layout mirrors each value mapped
    have typed : expression ≠ "None".toList := by
      rintro rfl
      rw [mirrors.none_foreign] at loaded
      cases loaded
    rw [pyReturns, if_neg typed, loaded]
    rfl

def Declared.Worded (declared : Declared) : Prop := ∀ token ∈ unqualified declared.type, IsWord isSpace token

theorem Spells.worded {tokens : List Text} {text : Text} (spells : Spells tokens text) :
    ∀ token ∈ unqualified tokens, IsWord isSpace token :=
  fun token member => (spells.tokens token (List.mem_of_mem_filter member)).isWord

theorem Declared.Spelled.worded {declared : Declared} {text : Text} (spelled : declared.Spelled text) : declared.Worded := by
  intro token member
  have inside : token ∈ unqualified (declared.type ++ [declared.name]) := by
    rw [unqualified, List.filter_append]
    exact List.mem_append_left _ member
  exact Spells.worded spelled token inside

theorem worded_of_spelled {all : List Declared} {texts : List Text} (spelled : List.Forall₂ Declared.Spelled all texts) :
    ∀ declared ∈ all, declared.Worded := by
  intro declared member
  rcases spelled.flip.exists_of_mem member with ⟨text, _, spelled⟩
  exact Declared.Spelled.worded spelled

theorem CStruct.Spelled.worded {struct : CStruct} {found : Text × Text} (spelled : struct.Spelled found) :
    ∀ field ∈ struct.fields, field.Worded := by
  rcases spelled with ⟨_, texts, blanks, _, _, fields⟩
  exact worded_of_spelled fields

theorem CFunction.Spelled.worded {function : CFunction} {found : Text × Text × Text} (spelled : function.Spelled found) :
    (∀ argument ∈ function.arguments, argument.Worded) ∧ ∀ token ∈ unqualified function.returns, IsWord isSpace token := by
  rcases spelled with ⟨_, returns, ⟨none, _⟩ | ⟨_, texts, _, all⟩⟩
  · rw [none]
    exact ⟨nofun, returns.worded⟩
  · exact ⟨worded_of_spelled all, returns.worded⟩

theorem fields_layout {fields : List Declared} {laid : List (Text × Layout)} {rendered : List (Text × Text)}
    (mirrors : Mirrors header records classes) (worded : ∀ field ∈ fields, field.Worded)
    (compiles : fields.mapM (fun field => (cLayout header.opaques records field.type).map (field.name, ·)) = some laid)
    (mapped : (fields.map fun field => (field.name, field.cType)).mapM
      (fun field => return (field.1, ← header.abi.ctypesFor field.2)) = .ok rendered) :
    rendered.mapM (fun field => (pyLayout classes field.2).map (field.1, ·)) = some laid := by
  rw [Option.mapM_some_iff] at compiles ⊢
  rw [Except.mapM_ok_iff, List.forall₂_map_left_iff] at mapped
  have both := List.forall₂_and_left fields laid |>.mpr ⟨worded, compiles⟩
  apply (mapped.flip.meet both.flip).imp
  rintro field place ⟨declared, renders, worded, places⟩
  rcases Option.map_eq_some_iff.mp places with ⟨layout, value, rfl⟩
  cases spelling : header.abi.ctypesFor declared.cType with
  | error failure =>
    simp only [spelling, bind, Except.bind] at renders
    cases renders
  | ok expression =>
    simp only [spelling, bind, Except.bind, pure, Except.pure, Except.ok.injEq] at renders
    rw [← renders, type_layout mirrors worded value spelling]
    rfl

theorem arguments_layout {arguments : List Declared} {laid : List Layout} {rendered : List Text}
    (mirrors : Mirrors header records classes) (worded : ∀ argument ∈ arguments, argument.Worded)
    (compiles : arguments.mapM (fun argument => cLayout header.opaques records argument.type) = some laid)
    (mapped : (arguments.map Declared.cType).mapM header.abi.ctypesFor = .ok rendered) :
    rendered.mapM (pyLayout classes) = some laid := by
  rw [Option.mapM_some_iff] at compiles ⊢
  rw [Except.mapM_ok_iff, List.forall₂_map_left_iff] at mapped
  have both := List.forall₂_and_left arguments laid |>.mpr ⟨worded, compiles⟩
  apply (mapped.flip.meet both.flip).imp
  rintro expression layout ⟨declared, renders, worded, value⟩
  exact type_layout mirrors worded value renders

theorem structs_load {structs : List CStruct} {compiled : Records} {rendered : List (Text × List (Text × Text))}
    (mirrors : Mirrors header records classes) (included : ∀ struct ∈ structs, struct ∈ header.structs)
    (worded : ∀ struct ∈ structs, ∀ field ∈ struct.fields, field.Worded)
    (compiles : compileStructs header.opaques records structs = some compiled)
    (mapped : List.Forall₂ (fun struct class_ => renderStruct header.abi
      (struct.name, struct.fields.map fun field => (field.name, field.cType)) = .ok class_) structs rendered) :
    ∃ loaded, loadClasses classes rendered = some loaded ∧ Mirrors header compiled loaded := by
  induction mapped generalizing records classes with
  | nil =>
    cases compiles
    exact ⟨classes, rfl, mirrors⟩
  | @cons struct class_ structs rendered renders mapped ih =>
    rcases Option.bind_eq_some_iff.mp compiles with ⟨laid, places, compiles⟩
    rw [renderStruct] at renders
    cases fields : (struct.fields.map fun field => (field.name, field.cType)).mapM
        (fun field => return (field.1, ← header.abi.ctypesFor field.2)) with
    | error failure =>
      rw [fields] at renders
      cases renders
    | ok written =>
      rw [fields] at renders
      cases renders
      have field := fields_layout mirrors (worded struct List.mem_cons_self) places fields
      have next : Mirrors header ((struct.name, record laid) :: records)
          ((pascalCase struct.name, record laid) :: classes) := by
        refine ⟨mirrors.distinct, ?_, ?_⟩
        · intro other member
          rcases List.mem_cons.mp member with rfl | before
          · exact ⟨struct, included struct List.mem_cons_self, rfl⟩
          · exact mirrors.declared other before
        · rw [mirrors.same]
          rfl
      have later := ih next (fun other member => included other (List.mem_cons_of_mem struct member))
        (fun other member => worded other (List.mem_cons_of_mem struct member)) compiles
      rcases later with ⟨loaded, loads, mirrors⟩
      refine ⟨loaded, ?_, mirrors⟩
      rw [loadClasses, field]
      exact loads

theorem function_binds {function : CFunction} {compiled : Text × Signature} {rendered : Text × Text × List Text}
    (mirrors : Mirrors header records classes) (arguments : ∀ argument ∈ function.arguments, argument.Worded)
    (returns : ∀ token ∈ unqualified function.returns, IsWord isSpace token)
    (compiles : compileFunction header.opaques records function = some compiled)
    (mapped : renderFunction header.abi
      (function.name, join (unqualified function.returns), function.arguments.map Declared.cType) = .ok rendered) :
    bindFunction classes rendered = some compiled := by
  rcases Option.bind_eq_some_iff.mp compiles with ⟨laid, places, compiles⟩
  rcases Option.bind_eq_some_iff.mp compiles with ⟨result, value, compiles⟩
  cases compiles
  rw [renderFunction] at mapped
  cases passed : (function.arguments.map Declared.cType).mapM header.abi.ctypesFor with
  | error failure =>
    rw [passed] at mapped
    cases mapped
  | ok written =>
    cases back : header.abi.ctypesFor (join (unqualified function.returns)) with
    | error failure =>
      rw [passed, back] at mapped
      cases mapped
    | ok expression =>
      rw [passed, back] at mapped
      cases mapped
      rw [bindFunction, arguments_layout mirrors arguments places passed, type_returns mirrors returns value back]
      rfl

end

/-- What the module that is generated from a header makes of the library is what a C compiler makes of the header: each
    class has the fields of its struct at the same offsets and takes up as much, and each function takes and returns
    values of the same sizes. -/
theorem binding_lays_out {header : Header} {found : Found} {compiled : Records × List (Text × Signature)} {binding : Binding}
    (spelled : header.Spelled found) (distinct : header.Distinct) (compiles : header.compile = some compiled)
    (generated : (parse found >>= render) = .ok binding) :
    binding.load = some (compiled.1.map (Prod.map pascalCase id), compiled.2) := by
  rw [parse_spelled spelled] at generated
  rcases Option.bind_eq_some_iff.mp compiles with ⟨records, structs, compiles⟩
  rcases Option.bind_eq_some_iff.mp compiles with ⟨signatures, functions, compiles⟩
  cases compiles
  have generated : render header.abi = .ok binding := generated
  rw [render] at generated
  cases rendered : header.abi.structs.mapM (renderStruct header.abi) with
  | error failure =>
    rw [rendered] at generated
    cases generated
  | ok classes =>
    cases bound : header.abi.functions.mapM (renderFunction header.abi) with
    | error failure =>
      rw [rendered, bound] at generated
      cases generated
    | ok written =>
      rw [rendered, bound] at generated
      cases generated
      have start : Mirrors header [] [] := ⟨distinct, nofun, rfl⟩
      have worded : ∀ struct ∈ header.structs, ∀ field ∈ struct.fields, field.Worded := by
        intro struct member
        rcases spelled.structs.flip.exists_of_mem member with ⟨_, _, spells⟩
        exact CStruct.Spelled.worded spells
      rw [Except.mapM_ok_iff, Header.abi, List.forall₂_map_left_iff] at rendered bound
      rcases structs_load start (fun struct member => member) worded structs rendered with ⟨loaded, loads, mirrors⟩
      have every : ∀ function ∈ header.functions, (∀ argument ∈ function.arguments, argument.Worded) ∧
          ∀ token ∈ unqualified function.returns, IsWord isSpace token := by
        intro function member
        rcases spelled.functions.flip.exists_of_mem member with ⟨_, _, spells⟩
        exact CFunction.Spelled.worded spells
      have binds : written.mapM (bindFunction loaded) = some signatures := by
        rw [Option.mapM_some_iff] at functions ⊢
        have both := List.forall₂_and_left header.functions signatures |>.mpr ⟨every, functions⟩
        apply (bound.flip.meet both.flip).imp
        rintro rendered signature ⟨function, renders, ⟨arguments, returns⟩, value⟩
        exact function_binds mirrors arguments returns value renders
      rw [Binding.load, loads]
      show (written.mapM (bindFunction loaded)).bind _ = _
      rw [binds, mirrors.same]
      rfl

theorem Declared.spelled_of_join {declared : Declared} {text : Text}
    (written : text = join (declared.type ++ [declared.name]))
    (each : ∀ token ∈ declared.type ++ [declared.name], IsToken token) : declared.Spelled text := by
  rw [written]
  exact Spells.of_join each

/-- A part of `cronet.h`. -/
def hints : Header where
  opaques := ["cronet_engine".toList]
  structs := [{
    name := "cronet_quic_hint".toList
    fields := [
      ⟨["const".toList, "char".toList, ['*']], "host".toList, by decide, by decide⟩,
      ⟨["int32_t".toList], "port".toList, by decide, by decide⟩,
      ⟨["int32_t".toList], "alternate_port".toList, by decide, by decide⟩]
    identifier := by decide
    prefixed := by decide }]
  functions := [{
    name := "cronet_engine_destroy".toList
    returns := ["void".toList]
    arguments := [⟨["cronet_engine".toList, ['*']], "engine".toList, by decide, by decide⟩] }]
  exports := by decide

def hintsFound : Found where
  opaques := ["cronet_engine".toList]
  structs := [("const char * host;int32_t port;int32_t alternate_port;\n".toList, "cronet_quic_hint".toList)]
  exported := [("cronet_engine_destroy".toList, "void".toList, "cronet_engine * engine".toList)]

theorem hints_spelled : hints.Spelled hintsFound where
  opaques := rfl
  structs := by
    have fields : List.Forall₂ Declared.Spelled (hints.structs.flatMap CStruct.fields)
        ["const char * host".toList, "int32_t port".toList, "int32_t alternate_port".toList] := by
      apply List.Forall₂.cons (Declared.spelled_of_join rfl (by decide))
      apply List.Forall₂.cons (Declared.spelled_of_join rfl (by decide))
      exact .cons (Declared.spelled_of_join rfl (by decide)) .nil
    exact .cons ⟨rfl, _, ['\n'], rfl, List.forall_mem_singleton.mpr rfl, fields⟩ .nil
  functions := by
    have arguments : List.Forall₂ Declared.Spelled (hints.functions.flatMap CFunction.arguments)
        ["cronet_engine * engine".toList] := .cons (Declared.spelled_of_join rfl (by decide)) .nil
    have returns : Spells ["void".toList] "void".toList := @Spells.of_join ["void".toList] (by decide)
    exact .cons ⟨rfl, returns, .inr ⟨by decide, _, rfl, arguments⟩⟩ .nil

theorem binding_lays_out_hints : ∃ binding, (parse hintsFound >>= render) = .ok binding ∧
    binding.load = some (
      [("CronetQuicHint".toList,
        ⟨[("host".toList, 0, 8), ("port".toList, 8, 4), ("alternate_port".toList, 12, 4)], ⟨16, 8⟩⟩)],
      [("cronet_engine_destroy".toList, ⟨none, [pointer]⟩)]) := by
  have compiles : hints.compile = some (
      [("cronet_quic_hint".toList,
        ⟨[("host".toList, 0, 8), ("port".toList, 8, 4), ("alternate_port".toList, 12, 4)], ⟨16, 8⟩⟩)],
      [("cronet_engine_destroy".toList, ⟨none, [pointer]⟩)]) := by decide
  have distinct : hints.Distinct := by
    intro one first two second _
    rw [List.mem_singleton.mp first, List.mem_singleton.mp second]
  cases generated : (parse hintsFound >>= render) with
  | error failure =>
    rw [parse_spelled hints_spelled] at generated
    cases generated
  | ok binding => exact ⟨binding, rfl, binding_lays_out hints_spelled distinct compiles generated⟩

end Cronet.Generator
