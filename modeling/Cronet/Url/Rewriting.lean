import Cronet.Url.Agreement
import Cronet.Url.Join

namespace Cronet.Url

def Clean (s : Str) : Prop := ∀ c ∈ s, isUnsafe c = false

theorem Clean.subset {s t : Str} (clean : Clean t) (within : s ⊆ t) : Clean s := fun c member => clean c (within member)

theorem Clean.append {s t : Str} (left : Clean s) (right : Clean t) : Clean (s ++ t) := by
  intro c member
  rcases List.mem_append.mp member with first | second
  · exact left c first
  · exact right c second

theorem clean_slashes : Clean "//".toList := by simp [Clean, isUnsafe]

theorem clean_cleaned (url : Str) : Clean (cleaned url) := by
  intro c member
  simpa using (List.mem_filter.mp member).2

theorem splitTail_found {sep : Char} {before after : Str} (absent : sep ∉ before) :
    splitTail sep (before ++ sep :: after) = (before, some after) := by
  simp [splitTail, Cut.first_append absent]

theorem splitTail_missing {sep : Char} {s : Str} (absent : sep ∉ s) : splitTail sep s = (s, none) := by
  simp [splitTail, Cut.first_of_not_mem absent]

theorem splitTail_elim {sep : Char} {before : Str} (absent : sep ∉ before) (tail : Option Str) :
    splitTail sep (before ++ tail.elim [] (sep :: ·)) = (before, tail) := by
  cases tail with
  | none => rw [Option.elim_none, List.append_nil, splitTail_missing absent]
  | some after => exact splitTail_found absent

theorem splitTail_spec (sep : Char) (url : Str) :
    sep ∉ (splitTail sep url).1 ∧ (splitTail sep url).1 ⊆ url ∧ (∀ tail, (splitTail sep url).2 = some tail → tail ⊆ url) ∧
      ((splitTail sep url).1 = [] ∨ (splitTail sep url).1.head? = url.head?) := by
  refine ⟨Cut.first_before_not_mem sep url, Cut.first_before_subset sep url, fun tail found => ?_, ?_⟩
  · simp only [splitTail] at found
    split at found
    · cases found
      exact Cut.first_after_subset sep url
    · cases found
  · cases url with
    | nil => exact .inl rfl
    | cons c rest =>
      simp only [splitTail, Cut.first]
      split
      · exact .inl rfl
      · exact .inr rfl

theorem isSchemeChar_toLower {c : Char} (schemeChar : isSchemeChar c = true) : isSchemeChar c.toLower = true := by
  by_cases letter : c.isAlpha
  · have lowered : c.toLower.isAlpha = true := by rwa [Char.isAlpha_toLower_eq_isAlpha]
    simp [isSchemeChar, Char.isAlphanum, lowered]
  · have small : ¬c.isUpper := fun upper => letter (by rw [Char.isAlpha, upper, Bool.true_or])
    rwa [Char.toLower_eq_of_not_isUpper small]

theorem isScheme_toLower {s : Str} (accepted : isScheme s = true) : isScheme (s.map Char.toLower) = true := by
  simp only [isScheme, Bool.and_eq_true, List.all_eq_true] at *
  constructor
  · cases s with
    | nil => exact accepted.1
    | cons c rest => simpa [Char.isAlpha_toLower_eq_isAlpha] using accepted.1
  · intro c member
    obtain ⟨d, there, rfl⟩ := List.mem_map.mp member
    exact isSchemeChar_toLower (accepted.2 d there)

theorem schemeChar_plain {c : Char} (schemeChar : isSchemeChar c = true) :
    c ≠ ':' ∧ isUnsafe c = false ∧ isC0OrSpace c = false := by
  refine ⟨?_, ?_, ?_⟩
  · rintro rfl
    exact absurd schemeChar (by decide)
  · by_contra bad
    simp only [isUnsafe, decide_eq_false_iff_not, not_not, List.mem_cons, List.not_mem_nil, or_false] at bad
    rcases bad with rfl | rfl | rfl <;> exact absurd schemeChar (by decide)
  · by_contra bad
    simp only [isC0OrSpace, decide_eq_false_iff_not, not_not] at bad
    simp only [isSchemeChar, Bool.or_eq_true, decide_eq_true_eq, List.mem_cons, List.not_mem_nil, or_false] at schemeChar
    rcases schemeChar with letter | rfl | rfl | rfl
    · have range := Ascii.alphanum_range letter
      omega
    all_goals exact absurd bad (by decide)

theorem isScheme_chars {s : Str} (accepted : isScheme s = true) : ∀ c ∈ s, isSchemeChar c = true := by
  simp only [isScheme, Bool.and_eq_true, List.all_eq_true] at accepted
  exact accepted.2

theorem splitNetloc_slashes {n rest : Str} (inside : ∀ c ∈ n, isNetlocEnd c = false)
    (ended : ∀ c ∈ rest.head?, isNetlocEnd c = true) : splitNetloc ("//".toList ++ (n ++ rest)) = (some n, rest) := by
  have all : ∀ c ∈ n, (!isNetlocEnd c) = true := fun c member => by simp [inside c member]
  have stop : rest.takeWhile (!isNetlocEnd ·) = [] ∧ rest.dropWhile (!isNetlocEnd ·) = rest := by
    cases rest with
    | nil => exact ⟨rfl, rfl⟩
    | cons c tail => simp [ended c rfl]
  change (some ((n ++ rest).takeWhile _), (n ++ rest).dropWhile _) = _
  rw [List.takeWhile_append_of_pos all, List.dropWhile_append_of_pos all, stop.1, stop.2, List.append_nil]

variable [Python]

/-- What `components` makes of any URL. -/
structure SplitResult.Wellformed (parts : SplitResult) : Prop where
  scheme : ∀ s, parts.scheme = some s → isScheme s = true ∧ s.map Char.toLower = s
  netloc : ∀ n, parts.netloc = some n → Clean n ∧ ∀ c ∈ n, isNetlocEnd c = false
  path : Clean parts.path ∧ '?' ∉ parts.path ∧ '#' ∉ parts.path
  query : ∀ q, parts.query = some q → Clean q ∧ '#' ∉ q
  fragment : ∀ f, parts.fragment = some f → Clean f

theorem lower_scheme {s : Str} (accepted : isScheme s = true) : Python.lower s = s.map Char.toLower := by
  refine Python.lower_ascii ?_
  simp only [isascii, List.all_eq_true, decide_eq_true_eq]
  exact fun c member => schemeChar_ascii (isScheme_chars accepted c member)

theorem splitScheme_cons {s rest : Str} (accepted : isScheme s = true) (lowered : s.map Char.toLower = s) :
    splitScheme (s ++ ':' :: rest) = (some s, rest) := by
  have absent : ':' ∉ s := fun member => (schemeChar_plain (isScheme_chars accepted _ member)).1 rfl
  rw [splitScheme, Cut.first_append absent]
  simp [accepted, lower_scheme accepted, lowered]

omit [Python] in
theorem cleaned_behind {s rest : Str} (accepted : isScheme s = true) :
    cleaned (s ++ ':' :: rest) = s ++ ':' :: rest.filter (!isUnsafe ·) := by
  have chars := isScheme_chars accepted
  have kept : s.filter (!isUnsafe ·) = s := by
    rw [List.filter_eq_self]
    intro c member
    rw [(schemeChar_plain (chars c member)).2.1]
    rfl
  have shown : (s ++ ':' :: rest).dropWhile isC0OrSpace = s ++ ':' :: rest := by
    cases s with
    | nil => cases accepted
    | cons c tail =>
      have visible := (schemeChar_plain (chars c List.mem_cons_self)).2.2
      rw [List.cons_append, List.dropWhile_cons_of_neg (by simp [visible])]
  rw [cleaned, shown, List.filter_append, kept, List.filter_cons_of_pos (by decide)]

omit [Python] in
theorem cleaned_scheme {s rest : Str} (accepted : isScheme s = true) (clean : Clean rest) :
    cleaned (s ++ ':' :: rest) = s ++ ':' :: rest := by
  rw [cleaned_behind accepted, List.filter_eq_self.mpr fun c member => by simp [clean c member]]

theorem splitScheme_wellformed (url : Str) :
    (∀ s, (splitScheme url).1 = some s → isScheme s = true ∧ s.map Char.toLower = s) ∧ (splitScheme url).2 ⊆ url := by
  rcases splitScheme_spec url with none | ⟨scheme, rest, accepted, shape, found⟩
  · rw [none]
    refine ⟨fun s same => ?_, List.Subset.refl _⟩
    cases same
  · rw [found]
    constructor
    · intro s same
      cases same
      rw [lower_scheme accepted]
      exact ⟨isScheme_toLower accepted, by simp [Function.comp_def]⟩
    · rw [shape]
      exact List.subset_append_of_subset_right _ (List.subset_cons_self _ _)

omit [Python] in
theorem splitNetloc_wellformed (url : Str) :
    (∀ n, (splitNetloc url).1 = some n → n ⊆ url ∧ ∀ c ∈ n, isNetlocEnd c = false) ∧ (splitNetloc url).2 ⊆ url ∧
      ((splitNetloc url).1 ≠ none → ∀ c ∈ (splitNetloc url).2.head?, isNetlocEnd c = true) := by
  unfold splitNetloc
  split
  · rename_i rest
    have within : rest ⊆ '/' :: '/' :: rest := List.subset_cons_of_subset _ (List.subset_cons_self _ _)
    refine ⟨fun n same => ?_, List.Subset.trans (List.dropWhile_subset _) within, fun _ c first => ?_⟩
    · cases same
      exact ⟨List.Subset.trans (List.takeWhile_subset _) within, fun c member => by simpa using List.mem_takeWhile_imp member⟩
    · have stopped := List.head?_dropWhile_not (!isNetlocEnd ·) rest
      rw [Option.mem_def.mp first] at stopped
      simpa using stopped
  · refine ⟨fun n same => ?_, List.Subset.refl _, fun found => absurd rfl found⟩
    cases same

theorem components_wellformed (url : Str) : (components url).Wellformed := by
  obtain ⟨scheme, afterScheme⟩ := splitScheme_wellformed (cleaned url)
  obtain ⟨netloc, afterNetloc, _⟩ := splitNetloc_wellformed (splitScheme (cleaned url)).2
  obtain ⟨noHash, beforeHash, fragment, _⟩ := splitTail_spec '#' (splitNetloc (splitScheme (cleaned url)).2).2
  obtain ⟨noMark, beforeMark, query, _⟩ :=
    splitTail_spec '?' (splitTail '#' (splitNetloc (splitScheme (cleaned url)).2).2).1
  have rest := (clean_cleaned url).subset afterScheme
  have tail := rest.subset afterNetloc
  exact {
    scheme
    netloc := fun n found => ⟨rest.subset (netloc n found).1, (netloc n found).2⟩
    path := ⟨tail.subset (List.Subset.trans beforeMark beforeHash), noMark, fun member => noHash (beforeMark member)⟩
    query := fun q found =>
      ⟨tail.subset (List.Subset.trans (query q found) beforeHash), fun member => noHash (query q found member)⟩
    fragment := fun f found => tail.subset (fragment f found) }

theorem components_rooted {url : Str} (named : (components url).netloc ≠ none) :
    (components url).path = [] ∨ (components url).path.head? = some '/' := by
  obtain ⟨_, _, ended⟩ := splitNetloc_wellformed (splitScheme (cleaned url)).2
  obtain ⟨noHash, _, _, firstHash⟩ := splitTail_spec '#' (splitNetloc (splitScheme (cleaned url)).2).2
  obtain ⟨noMark, beforeMark, _, firstMark⟩ :=
    splitTail_spec '?' (splitTail '#' (splitNetloc (splitScheme (cleaned url)).2).2).1
  rcases firstMark with empty | sameMark
  · exact .inl empty
  rcases firstHash with empty | sameHash
  · left
    exact List.subset_nil.mp (empty ▸ beforeMark)
  cases path : (components url).path with
  | nil => exact .inl rfl
  | cons c p =>
    right
    have first : (components url).path.head? = (splitNetloc (splitScheme (cleaned url)).2).2.head? := sameMark.trans sameHash
    have member : c ∈ (components url).path := path ▸ List.mem_cons_self
    rw [path] at first
    have stop := ended named c first.symm
    simp only [isNetlocEnd, decide_eq_true_eq, List.mem_cons, List.not_mem_nil, or_false] at stop
    rcases stop with rfl | rfl | rfl
    · rfl
    · exact absurd member noMark
    · exact absurd (beforeMark member) noHash

/-- A path behind an authority, as `unsplit` writes it. -/
def rooted (path : Str) : Str := if path ≠ [] ∧ path.head? ≠ some '/' then '/' :: path else path

omit [Python] in
theorem rooted_eq {path : Str} (already : path = [] ∨ path.head? = some '/') : rooted path = path := by
  refine if_neg ?_
  rintro ⟨nonempty, other⟩
  exact already.elim nonempty other

omit [Python] in
theorem rooted_head (path : Str) : rooted path = [] ∨ (rooted path).head? = some '/' := by
  unfold rooted
  split
  · exact .inr rfl
  · rename_i already
    tauto

omit [Python] in
theorem mem_rooted {path : Str} {c : Char} (member : c ∈ rooted path) : c = '/' ∨ c ∈ path := by
  unfold rooted at member
  split at member
  · exact List.mem_cons.mp member
  · exact .inr member

namespace SplitResult

def tail (parts : SplitResult) : Str := parts.query.elim [] ('?' :: ·) ++ parts.fragment.elim [] ('#' :: ·)

variable {parts : SplitResult} {s : Str}

omit [Python] in
theorem Wellformed.tail (wf : parts.Wellformed) : Clean parts.tail := by
  have query : Clean (parts.query.elim [] ('?' :: ·)) := by
    cases found : parts.query with
    | none => exact fun c member => absurd member List.not_mem_nil
    | some q => exact List.forall_mem_cons.mpr ⟨by decide, (wf.query q found).1⟩
  refine query.append ?_
  cases found : parts.fragment with
  | none => exact fun c member => absurd member List.not_mem_nil
  | some f => exact List.forall_mem_cons.mpr ⟨by decide, wf.fragment f found⟩

omit [Python] in
theorem tail_head {c : Char} (first : c ∈ parts.tail.head?) : c = '?' ∨ c = '#' := by
  unfold tail at first
  cases query : parts.query with
  | some q =>
    rw [query] at first
    exact .inl (Option.some.inj first).symm
  | none =>
    rw [query] at first
    cases fragment : parts.fragment with
    | some f =>
      rw [fragment] at first
      exact .inr (Option.some.inj first).symm
    | none =>
      rw [fragment] at first
      cases first

omit [Python] in
theorem splitTail_tail {path : Str} (wf : parts.Wellformed) (noMark : '?' ∉ path) (noHash : '#' ∉ path) :
    splitTail '#' (path ++ parts.tail) = (path ++ parts.query.elim [] ('?' :: ·), parts.fragment) ∧
      splitTail '?' (path ++ parts.query.elim [] ('?' :: ·)) = (path, parts.query) := by
  refine ⟨?_, splitTail_elim noMark _⟩
  rw [tail, ← List.append_assoc]
  refine splitTail_elim ?_ _
  rintro member
  rcases List.mem_append.mp member with before | behind
  · exact noHash before
  · cases found : parts.query with
    | none =>
      rw [found] at behind
      cases behind
    | some q =>
      rw [found] at behind
      rcases List.mem_cons.mp behind with mark | inside
      · exact absurd mark (by decide)
      · exact (wf.query q found).2 inside

/-- A URL with a scheme and an authority is read as it was written. -/
theorem components_unsplit {n : Str} (wf : parts.Wellformed) (schemed : parts.scheme = some s)
    (named : parts.netloc = some n) : components (unsplit parts) = { parts with path := rooted parts.path } := by
  obtain ⟨accepted, lowered⟩ := wf.scheme s schemed
  obtain ⟨cleanNetloc, inside⟩ := wf.netloc n named
  have cleanPath : Clean (rooted parts.path) := by
    intro c member
    rcases mem_rooted member with rfl | there
    · decide
    · exact wf.path.1 c there
  have noMark : '?' ∉ rooted parts.path := fun member =>
    (mem_rooted member).elim (by decide) wf.path.2.1
  have noHash : '#' ∉ rooted parts.path := fun member =>
    (mem_rooted member).elim (by decide) wf.path.2.2
  have nonempty : s ≠ [] := by
    rintro rfl
    cases accepted
  have written : unsplit parts = s ++ ':' :: ("//".toList ++ (n ++ (rooted parts.path ++ parts.tail))) := by
    simp [unsplit, schemed, named, nonempty, rooted, tail]
  have clean : Clean ("//".toList ++ (n ++ (rooted parts.path ++ parts.tail))) :=
    clean_slashes.append (cleanNetloc.append (cleanPath.append wf.tail))
  have ended : ∀ c ∈ (rooted parts.path ++ parts.tail).head?, isNetlocEnd c = true := by
    intro c first
    rw [List.head?_append] at first
    rcases rooted_head parts.path with empty | slash
    · rw [empty] at first
      rcases tail_head first with rfl | rfl <;> decide
    · obtain rfl : '/' = c := by simpa [slash] using first
      decide
  obtain ⟨hash, mark⟩ := splitTail_tail wf noMark noHash
  simp only [components, written, cleaned_scheme accepted clean, splitScheme_cons accepted lowered,
    splitNetloc_slashes inside ended, hash, mark, schemed, named]

end SplitResult

end Cronet.Url
