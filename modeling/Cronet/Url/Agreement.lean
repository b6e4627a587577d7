import Cronet.Url.Native
import Cronet.Url.Readable

namespace Cronet.Url

theorem schemeChar_ascii {c : Char} (schemeChar : isSchemeChar c = true) : c.toNat < 128 := by
  simp only [isSchemeChar, Bool.or_eq_true, decide_eq_true_eq, List.mem_cons, List.not_mem_nil, or_false] at schemeChar
  rcases schemeChar with letter | rfl | rfl | rfl
  · exact Ascii.alphanum_lt letter
  all_goals decide

@[reducible] def domainParser : HostParser Str where
  parse host := if '[' ∈ host then none else some (host.map Char.toLower)
  ascii_case {s} _ := by
    have lowered : ∀ c : Char, (Char.toLower ∘ Char.toLower) c = c.toLower := Char.toLower_toLower_eq_toLower
    simp only [Ascii.mem_map_toLower (show '['.isAlpha = false by decide), List.map_map, funext lowered]
  bracketed opened := by simp at opened

theorem isascii_subset {s t : Str} (within : s ⊆ t) (ascii : isascii t = true) : isascii s = true := by
  simp only [isascii, List.all_eq_true] at *
  exact fun c member => ascii c (within member)

theorem splitNetloc_spec {url netloc : Str} (found : (splitNetloc url).1 = some netloc) :
    ∃ rest, url = '/' :: '/' :: (netloc ++ rest) ∧ (∀ c ∈ netloc, isNetlocEnd c = false) ∧
      ∀ c ∈ rest.head?, isNetlocEnd c = true := by
  unfold splitNetloc at found
  split at found
  · rename_i tail
    simp only [Option.some.injEq] at found
    subst found
    refine ⟨tail.dropWhile (!isNetlocEnd ·), by rw [List.takeWhile_append_dropWhile], ?_, ?_⟩
    · intro c member
      simpa using List.mem_takeWhile_imp member
    · intro c first
      have stopped := List.head?_dropWhile_not (!isNetlocEnd ·) tail
      rw [Option.mem_def.mp first] at stopped
      simpa using stopped
  · cases found

theorem cleaned_eq_trimmed (url : Str) :
    ∃ blanks, cleaned url = trimmed url ++ blanks ∧ ∀ c ∈ blanks, isC0OrSpace c = true := by
  refine ⟨((url.dropWhile isC0OrSpace).rtakeWhile isC0OrSpace).filter (!isUnsafe ·), ?_, ?_⟩
  · simp only [cleaned, trimmed, ← List.filter_append, List.rdropWhile_append_rtakeWhile]
  · intro c member
    exact List.mem_rtakeWhile_imp (List.mem_filter.mp member).1

theorem trimmed_shape {url opening netloc rest : Str} (shape : cleaned url = opening ++ (netloc ++ rest))
    (nonempty : netloc ≠ []) (ending : ∀ c ∈ netloc.getLast?, isC0OrSpace c = false) :
    ∃ shorter, trimmed url = opening ++ (netloc ++ shorter) ∧ shorter <+: rest := by
  obtain ⟨blanks, split, blank⟩ := cleaned_eq_trimmed url
  rw [split, ← List.append_assoc] at shape
  rcases List.append_eq_append_iff.mp shape with ⟨between, left, right⟩ | ⟨between, left, right⟩
  · rcases List.eq_nil_or_concat between with rfl | ⟨front, c, rfl⟩
    · exact ⟨[], by simpa using left.symm, List.nil_prefix⟩
    · have last : netloc.getLast? = some c := by
        rw [← List.getLast?_append_of_ne_nil opening nonempty, left]
        simp
      have visible := ending c (Option.mem_def.mpr last)
      have blanked := blank c (by simp [right])
      rw [visible] at blanked
      exact Bool.noConfusion blanked
  · exact ⟨between, by rw [left, List.append_assoc], ⟨blanks, right.symm⟩⟩

theorem schemeState_spec {scheme rest : Str} (accepted : isScheme scheme = true) :
    schemeState (scheme ++ ':' :: rest) = some (scheme.map Char.toLower, rest) := by
  simp only [isScheme, Bool.and_eq_true, List.all_eq_true] at accepted
  have stop : isSchemeChar ':' = false := by decide
  have taken : (scheme ++ ':' :: rest).takeWhile isSchemeChar = scheme := by
    rw [List.takeWhile_append_of_pos accepted.2, List.takeWhile_cons_of_neg (by simp [stop]), List.append_nil]
  have dropped : (scheme ++ ':' :: rest).dropWhile isSchemeChar = ':' :: rest := by
    rw [List.dropWhile_append_of_pos accepted.2, List.dropWhile_cons_of_neg (by simp [stop])]
  simp only [schemeState, taken, dropped, accepted.1, ↓reduceIte]

theorem authorityState_spec {netloc rest : Str} (nonempty : netloc ≠ []) (noBackslash : '\\' ∉ netloc)
    (inside : ∀ c ∈ netloc, isNetlocEnd c = false) (ended : ∀ c ∈ rest.head?, isNetlocEnd c = true) :
    authorityState ('/' :: '/' :: (netloc ++ rest)) = netloc := by
  have plain : ∀ c ∈ netloc, isAuthorityEnd c = false := by
    intro c member
    have notEnd := inside c member
    have notBackslash : c ≠ '\\' := fun same => noBackslash (same ▸ member)
    simp only [isNetlocEnd, isAuthorityEnd, decide_eq_false_iff_not, List.mem_cons, List.not_mem_nil, or_false,
      not_or] at *
    exact ⟨notEnd.1, notBackslash, notEnd.2⟩
  have dropped : ('/' :: '/' :: (netloc ++ rest)).dropWhile isSlash = netloc ++ rest := by
    cases netloc with
    | nil => exact absurd rfl nonempty
    | cons c tail =>
      have first := plain c (by simp)
      have slash : isSlash '/' = true := by decide
      have visible : isSlash c = false := by
        simp only [isAuthorityEnd, isSlash, decide_eq_false_iff_not, List.mem_cons, List.not_mem_nil, or_false,
          not_or] at *
        exact ⟨first.1, first.2.1⟩
      simp [slash, visible]
  have stopped : rest.takeWhile (!isAuthorityEnd ·) = [] := by
    cases rest with
    | nil => rfl
    | cons c tail =>
      have first := ended c (by simp)
      have ends : isAuthorityEnd c = true := by
        simp only [isNetlocEnd, isAuthorityEnd, decide_eq_true_eq, List.mem_cons, List.not_mem_nil, or_false] at *
        rcases first with rfl | rfl | rfl <;> simp
      simp [ends]
  rw [authorityState, dropped, List.takeWhile_append_of_pos (by simpa using plain), stopped, List.append_nil]

variable [Python]

theorem foldHost_nil : foldHost [] = [] := by
  have empty : Python.lower ([] : Str) = [] := Python.lower_ascii rfl
  simp [foldHost, Cut.first, empty]

theorem mem_foldHost {s : Str} {c : Char} (member : c ∈ foldHost s) (ascii : c.toNat < 128) (symbol : c.isAlpha = false)
    (notPercent : c ≠ '%') : c ∈ s := by
  simp only [foldHost, List.mem_append] at member
  rcases member with (lowered | percent) | after
  · exact Cut.first_before_subset '%' s (Python.lower_symbol lowered ascii symbol)
  · split at percent
    · exact absurd (List.mem_singleton.mp percent) notPercent
    · cases percent
  · exact Cut.first_after_subset '%' s after

theorem foldHost_percent (s : Str) : foldHost ('%' :: s) = '%' :: s := by
  have empty : Python.lower ([] : Str) = [] := Python.lower_ascii rfl
  simp [foldHost, Cut.first, empty]

theorem foldHost_cons {c : Char} {s : Str} (ascii : isascii (c :: s) = true) (notPercent : c ≠ '%') :
    foldHost (c :: s) = c.toLower :: foldHost s := by
  have whole := isascii_subset (Cut.first_before_subset '%' (c :: s)) ascii
  have tail : isascii s = true := isascii_subset (List.subset_cons_self c s) ascii
  have rest := isascii_subset (Cut.first_before_subset '%' s) tail
  simp only [foldHost, Cut.first, notPercent, ↓reduceIte] at whole ⊢
  rw [Python.lower_ascii whole, Python.lower_ascii rest]
  rfl

theorem isascii_foldHost {s : Str} (ascii : isascii s = true) : isascii (foldHost s) = true := by
  induction s with
  | nil => rw [foldHost_nil]; rfl
  | cons c rest ih =>
    by_cases percent : c = '%'
    · rwa [percent, foldHost_percent, ← percent]
    · have folded := ih (isascii_subset (List.subset_cons_self c rest) ascii)
      rw [foldHost_cons ascii percent]
      simp only [isascii, List.all_cons, Bool.and_eq_true, decide_eq_true_eq] at ascii folded ⊢
      exact ⟨Ascii.toLower_lt ascii.1, folded⟩

theorem foldHost_lowered {s : Str} (ascii : isascii s = true) : (foldHost s).map Char.toLower = s.map Char.toLower := by
  induction s with
  | nil => rw [foldHost_nil]
  | cons c rest ih =>
    by_cases percent : c = '%'
    · rw [percent, foldHost_percent]
    · rw [foldHost_cons ascii percent, List.map_cons, ih (isascii_subset (List.subset_cons_self c rest) ascii),
        Char.toLower_toLower_eq_toLower, List.map_cons]

theorem splitScheme_spec (url : Str) :
    splitScheme url = (none, url) ∨
      ∃ scheme rest, isScheme scheme = true ∧ url = scheme ++ ':' :: rest ∧
        splitScheme url = (some (Python.lower scheme), rest) := by
  unfold splitScheme
  dsimp only
  split
  · rename_i accepted
    simp only [Bool.and_eq_true] at accepted
    exact .inr ⟨_, _, accepted.2, Cut.eq_of_first_found accepted.1, rfl⟩
  · exact .inl rfl

/-- The scheme and the authority as `urlsplit` finds them are the stack's, as long as no
    backslash stands in the authority and no blank ends it. -/
theorem schemeState_of_components {url netloc : Str} {scheme : Str × Str}
    (found : (components url).netloc = some netloc) (nonempty : netloc ≠ []) (noBackslash : '\\' ∉ netloc)
    (ending : ∀ c ∈ netloc.getLast?, isC0OrSpace c = false) (opened : schemeState (trimmed url) = some scheme) :
    (components url).scheme = some scheme.1 ∧ authorityState scheme.2 = netloc := by
  rcases splitScheme_spec (cleaned url) with unsplit | ⟨name, tail, accepted, shape, split⟩
  · have netlocFound : (splitNetloc (cleaned url)).1 = some netloc := by
      simpa only [components, unsplit] using found
    obtain ⟨rest, slashes, _, _⟩ := splitNetloc_spec netlocFound
    obtain ⟨shorter, kept, _⟩ := @trimmed_shape url "//".toList netloc rest slashes nonempty ending
    have stop : isSchemeChar '/' = false := by decide
    rw [kept] at opened
    simp [schemeState, stop] at opened
  · have netlocFound : (splitNetloc tail).1 = some netloc := by
      simpa only [components, split] using found
    obtain ⟨rest, slashes, inside, ended⟩ := splitNetloc_spec netlocFound
    have whole : cleaned url = (name ++ "://".toList) ++ (netloc ++ rest) := by
      rw [shape, slashes, List.append_assoc]
      rfl
    obtain ⟨shorter, kept, shorterPrefix⟩ := trimmed_shape whole nonempty ending
    have stillEnded : ∀ c ∈ shorter.head?, isNetlocEnd c = true := by
      intro c first
      obtain ⟨dropped, rfl⟩ := shorterPrefix
      exact ended c (by simp [List.head?_append, Option.mem_def.mp first])
    have read : schemeState (trimmed url) = some (name.map Char.toLower, '/' :: '/' :: (netloc ++ shorter)) := by
      rw [kept, List.append_assoc]
      exact schemeState_spec accepted
    rw [read] at opened
    cases opened
    refine ⟨?_, authorityState_spec nonempty noBackslash inside stillEnded⟩
    simp only [isScheme, Bool.and_eq_true, List.all_eq_true] at accepted
    have ascii : isascii name = true := by
      simp only [isascii, List.all_eq_true, decide_eq_true_eq]
      exact fun c member => schemeChar_ascii (accepted.2 c member)
    simp only [components, split, Python.lower_ascii ascii]

section

variable {Host : Type} [HostParser Host]

def HostShape (host bare : Str) : Prop :=
  ('[' ∉ host ∧ ':' ∉ host ∧ bare = host) ∨ (host = '[' :: (bare ++ [']']) ∧ isascii bare = true ∧ ':' ∈ bare)

theorem hostinfo_spec {parts : SplitResult} {netloc : Str} {host : Host} (found : parts.netloc = some netloc)
    (checked : checkBrackets netloc = .ok ())
    (opened : HostParser.parse (hostState false (Cut.last '@' netloc).after).1 = some host) :
    HostShape (hostState false (Cut.last '@' netloc).after).1 parts.hostinfo.1 ∧
      parts.hostinfo.2 = (hostState false (Cut.last '@' netloc).after).2.filter (· ≠ []) := by
  have inNetloc := Cut.last_after_subset '@' netloc
  unfold checkBrackets checkBracketedNetloc at checked
  simp only [SplitResult.hostinfo, found, Option.getD_some]
  generalize (Cut.last '@' netloc).after = written at *
  by_cases bracket : '[' ∈ written
  · have openBracket := Cut.first_found.mpr bracket
    have whole := Cut.eq_of_first_found openBracket
    simp only [inNetloc bracket, openBracket, true_and, true_or, ↓reduceIte] at checked ⊢
    split at checked
    · split at checked
      · cases checked
      · rename_i leading
        rw [not_not.mp leading, List.nil_append] at whole
        generalize (Cut.first '[' written).after = literal at *
        subst whole
        have entered : hostState false ('[' :: literal) =
            ('[' :: (hostState true literal).1, (hostState true literal).2) := by simp [hostState]
        rw [entered] at opened ⊢
        by_cases closed : ']' ∈ literal
        · have parts := Cut.eq_of_first_found (Cut.first_found.mpr closed)
          have inner := Cut.first_before_not_mem ']' literal
          split at checked
          · cases checked
          · rename_i portOnly
            rw [parts, hostState_inside inner] at opened ⊢
            rw [Cut.first_append inner]
            generalize (Cut.first ']' literal).before = bare at *
            generalize (Cut.first ']' literal).after = tail at *
            have tailShape : tail = [] ∨ ∃ port, tail = ':' :: port := by
              cases tail with
              | nil => exact .inl rfl
              | cons c port => exact .inr ⟨port, by simpa using portOnly⟩
            rcases tailShape with rfl | ⟨port, rfl⟩
            · obtain ⟨shown, same, literal⟩ := HostParser.bracketed opened
              have whole : bare = shown := by simpa [hostState] using same
              exact ⟨.inr ⟨by simp [hostState], whole ▸ literal⟩, by simp [hostState, Cut.first]⟩
            · obtain ⟨shown, same, literal⟩ := HostParser.bracketed opened
              have whole : bare = shown := by simpa [hostState] using same
              refine ⟨.inr ⟨by simp [hostState], whole ▸ literal⟩, ?_⟩
              simp [hostState, Cut.first, Option.filter, apply_ite]
        · rw [hostState_unclosed closed] at opened
          obtain ⟨inner, rfl, _⟩ := HostParser.bracketed opened
          exact absurd (List.mem_append_right inner (List.mem_singleton.mpr rfl)) closed
    · cases checked
  · have noBracket := Cut.first_of_not_mem bracket
    rw [hostState_no_bracket bracket]
    simp only [noBracket, Bool.false_eq_true, ↓reduceIte]
    constructor
    · exact .inl ⟨fun member => bracket (Cut.first_before_subset ':' written member),
        Cut.first_before_not_mem ':' written, rfl⟩
    · by_cases colon : ':' ∈ written
      · simp [Cut.first_found.mpr colon, Option.filter, apply_ite]
      · simp [Cut.first_of_not_mem colon]

theorem hostname_eq (parts : SplitResult) : parts.hostname.getD [] = foldHost parts.hostinfo.1 := by
  by_cases nameless : parts.hostinfo.1 = []
  · simp [SplitResult.hostname, nameless, foldHost_nil]
  · simp [SplitResult.hostname, nameless]

omit [Python] in
theorem port_eq {parts : SplitResult} {text : Option Str} {port : Option Nat}
    (shown : parts.hostinfo.2 = text.filter (· ≠ [])) (accepted : portState text = some port)
    (short : ∀ digits ∈ parts.hostinfo.2, digits.length ≤ SplitResult.INT_MAX_STR_DIGITS) :
    parts.port = .ok port := by
  match text with
  | none | some [] =>
    cases accepted
    rw [SplitResult.port, shown]
    rfl
  | some (c :: digits) =>
    have written : parts.hostinfo.2 = some (c :: digits) := shown.trans (by simp [Option.filter])
    simp only [portState] at accepted
    split at accepted
    · rename_i valid
      cases accepted
      exact (port_some written).mpr ⟨valid.1, short _ written, valid.2, rfl⟩
    · cases accepted

omit [Python] in
theorem written_spec {url : Str} {w : Written} (read : written url = some w) :
    ∃ scheme, schemeState (trimmed url) = some scheme ∧ w.scheme = scheme.1 ∧
      w.host = (hostState false (Cut.last '@' (authorityState scheme.2)).after).1 ∧
      portState (hostState false (Cut.last '@' (authorityState scheme.2)).after).2 = some w.port := by
  obtain ⟨scheme, opened, read⟩ := Option.bind_eq_some_iff.mp read
  dsimp only at read
  split at read
  · cases read
  · split at read
    · cases read
    · obtain ⟨port, accepted, same⟩ := Option.bind_eq_some_iff.mp read
      cases same
      exact ⟨scheme, opened, rfl, rfl, accepted⟩

theorem urlsplit_spec {url : Str} {parts : SplitResult} (accepted : urlsplit url = .ok parts) :
    parts = components url ∧ checkBrackets ((components url).netloc.getD []) = .ok () := by
  unfold urlsplit at accepted
  cases brackets : checkBrackets ((components url).netloc.getD []) with
  | error e => simp [brackets, bind, Except.bind] at accepted
  | ok _ =>
    cases allowed : checkNetloc ((components url).netloc.getD []) with
    | error e => simp [brackets, allowed, bind, Except.bind] at accepted
    | ok _ =>
      simp only [brackets, allowed, bind, Except.bind, pure, Except.pure, Except.ok.injEq] at accepted
      exact ⟨accepted.symm, rfl⟩

/-- The authority of a URL is one text to `urlsplit` and to the stack: it is not empty, no
    backslash stands in it and no blank ends it. Both take the URL, `int` takes its port, and the
    stack finds the host that `hostname` lowers where it finds the host itself. -/
structure ReadsAlike (Host : Type) [HostParser Host] (url : Str) : Prop where
  accepted : ∃ parts, urlsplit url = .ok parts
  opened : ∃ endpoint : Endpoint Host, nativeEndpoint url = some endpoint
  named : (components url).netloc.getD [] ≠ []
  noBackslash : '\\' ∉ (components url).netloc.getD []
  ending : ∀ c ∈ ((components url).netloc.getD []).getLast?, isC0OrSpace c = false
  short : ∀ port ∈ (components url).hostinfo.2, port.length ≤ SplitResult.INT_MAX_STR_DIGITS
  folds : ∀ w ∈ written url, (HostParser.parse (foldHost w.host) : Option Host) = HostParser.parse w.host

theorem ReadsAlike.reading {url : Str} (alike : ReadsAlike Host url) :
    ∃ w bare, ∃ host : Host, written url = some w ∧ HostParser.parse w.host = some host ∧
      HostParser.parse (foldHost w.host) = some host ∧ HostShape w.host bare ∧
      origin url = .ok (w.scheme, foldHost bare, w.port) := by
  obtain ⟨⟨parts, accepted⟩, ⟨endpoint, opened⟩, named, noBackslash, ending, short, folds⟩ := alike
  obtain ⟨w, read, connects⟩ := Option.bind_eq_some_iff.mp opened
  obtain ⟨host, parsed, _⟩ := Option.map_eq_some_iff.mp connects
  have folded := (folds w read).trans parsed
  obtain ⟨rfl, brackets⟩ := urlsplit_spec accepted
  obtain ⟨netloc, found⟩ : ∃ netloc, (components url).netloc = some netloc := by
    cases found : (components url).netloc with
    | none => simp [found] at named
    | some netloc => exact ⟨netloc, rfl⟩
  simp only [found, Option.getD_some] at named noBackslash ending brackets
  obtain ⟨scheme, schemed, schemeEq, hostEq, portEq⟩ := written_spec read
  obtain ⟨sameScheme, sameAuthority⟩ := schemeState_of_components found named noBackslash ending schemed
  rw [sameAuthority] at hostEq portEq
  have shown := parsed
  rw [hostEq] at shown
  obtain ⟨shape, portShown⟩ := hostinfo_spec found brackets shown
  refine ⟨w, _, host, read, parsed, folded, hostEq ▸ shape, ?_⟩
  simp only [origin, accepted, port_eq portShown portEq short, sameScheme, hostname_eq, schemeEq, bind, Except.bind, pure,
    Except.pure, Option.getD_some]

section

variable {u v : Str} {w x : Written} {bare bare' : Str} {host host' : Host}

end

end

end Cronet.Url
