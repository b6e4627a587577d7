import Mathlib.Data.List.Basic

namespace Words

variable {α : Type*} (isSep : α → Bool)

/-- The words of a text behind the part `current` of one. -/
def wordsFrom (current : List α) : List α → List (List α)
  | [] => if current.isEmpty then [] else [current]
  | a :: rest =>
    if isSep a then (if current.isEmpty then [] else [current]) ++ wordsFrom [] rest else wordsFrom (current ++ [a]) rest

/-- `str.split()`. -/
def words (text : List α) : List (List α) := wordsFrom isSep [] text

structure IsWord (word : List α) : Prop where
  nonempty : word ≠ []
  plain : ∀ a ∈ word, isSep a = false

def Ends (rest : List α) : Prop := ∀ a ∈ rest.head?, isSep a = true

variable {isSep} {current word rest : List α} {a sep : α}

theorem words_cons_sep (separates : isSep a = true) : words isSep (a :: rest) = words isSep rest := by
  simp [words, wordsFrom, separates]

theorem words_append_seps {seps : List α} (separate : ∀ a ∈ seps, isSep a = true) :
    words isSep (seps ++ rest) = words isSep rest := by
  induction seps with
  | nil => rfl
  | cons a seps ih =>
    rw [List.cons_append, words_cons_sep (separate a List.mem_cons_self)]
    exact ih fun b member => separate b (List.mem_cons_of_mem a member)

theorem wordsFrom_append (plain : ∀ a ∈ word, isSep a = false) :
    wordsFrom isSep current (word ++ rest) = wordsFrom isSep (current ++ word) rest := by
  induction word generalizing current with
  | nil => simp
  | cons a word ih =>
    have inside : isSep a = false := plain a List.mem_cons_self
    have later := @ih (current ++ [a]) fun b member => plain b (List.mem_cons_of_mem a member)
    rw [List.cons_append, wordsFrom, inside, if_neg Bool.false_ne_true, later, List.append_assoc, List.singleton_append]

theorem wordsFrom_ends (begun : current ≠ []) (ends : Ends isSep rest) :
    wordsFrom isSep current rest = current :: words isSep rest := by
  have kept : current.isEmpty = false := by simpa using begun
  cases rest with
  | nil => simp [wordsFrom, words, kept]
  | cons a rest =>
    have separates : isSep a = true := ends a rfl
    rw [words_cons_sep separates, wordsFrom, if_pos separates, kept]
    rfl

theorem words_word (isWord : IsWord isSep word) (ends : Ends isSep rest) :
    words isSep (word ++ rest) = word :: words isSep rest := by
  rw [words, wordsFrom_append isWord.plain, List.nil_append]
  exact wordsFrom_ends isWord.nonempty ends

theorem wordsFrom_append_seps {seps : List α} (separate : ∀ a ∈ seps, isSep a = true) :
    wordsFrom isSep current (rest ++ seps) = wordsFrom isSep current rest := by
  have blank : words isSep seps = [] := by
    have all := @words_append_seps _ isSep [] seps separate
    rwa [List.append_nil] at all
  induction rest generalizing current with
  | nil =>
    cases current with
    | nil => exact blank
    | cons b current =>
      have ends : Ends isSep seps := fun a head => separate a (List.mem_of_mem_head? head)
      rw [List.nil_append, wordsFrom_ends (List.cons_ne_nil b current) ends, blank]
      rfl
  | cons a rest ih => simp only [List.cons_append, wordsFrom, ih]

theorem isWord_of_mem_begun (plain : ∀ a ∈ current, isSep a = false)
    (member : word ∈ if current.isEmpty then [] else [current]) : IsWord isSep word := by
  split at member
  · cases member
  · rename_i some
    rw [List.mem_singleton] at member
    rw [member]
    exact ⟨fun empty => some (List.isEmpty_iff.mpr empty), plain⟩

theorem isWord_of_mem_wordsFrom (plain : ∀ a ∈ current, isSep a = false) (member : word ∈ wordsFrom isSep current rest) :
    IsWord isSep word := by
  induction rest generalizing current with
  | nil => exact isWord_of_mem_begun plain member
  | cons b rest ih =>
    by_cases separates : isSep b = true
    · rw [wordsFrom, if_pos separates] at member
      rcases List.mem_append.mp member with first | later
      · exact isWord_of_mem_begun plain first
      · exact ih (fun a there => absurd there List.not_mem_nil) later
    · have inside : ∀ a ∈ current ++ [b], isSep a = false := by
        intro a there
        rcases List.mem_append.mp there with before | last
        · exact plain a before
        · rw [List.mem_singleton.mp last]
          exact Bool.of_not_eq_true separates
      rw [wordsFrom, if_neg separates] at member
      exact ih inside member

theorem isWord_of_mem_words {text : List α} (member : word ∈ words isSep text) : IsWord isSep word :=
  isWord_of_mem_wordsFrom (fun _ there => absurd there List.not_mem_nil) member

theorem mem_wordsFrom (plain : isSep a = false) (member : a ∈ current ++ rest) :
    ∃ word ∈ wordsFrom isSep current rest, a ∈ word := by
  induction rest generalizing current with
  | nil =>
    rw [List.append_nil] at member
    have kept : current.isEmpty = false := by
      rw [List.isEmpty_eq_false_iff]
      exact List.ne_nil_of_mem member
    exact ⟨current, by simp [wordsFrom, kept], member⟩
  | cons b rest ih =>
    by_cases separates : isSep b = true
    · rw [wordsFrom, if_pos separates]
      rcases List.mem_append.mp member with before | behind
      · have kept : current.isEmpty = false := by
          rw [List.isEmpty_eq_false_iff]
          exact List.ne_nil_of_mem before
        exact ⟨current, by simp [kept], before⟩
      · rcases List.mem_cons.mp behind with rfl | later
        · rw [plain] at separates
          cases separates
        · rcases @ih [] later with ⟨word, there, inside⟩
          exact ⟨word, List.mem_append_right _ there, inside⟩
    · rw [wordsFrom, if_neg separates]
      apply ih
      rwa [List.append_assoc, List.singleton_append]

theorem words_intercalate {all : List (List α)} (separates : isSep sep = true) (each : ∀ word ∈ all, IsWord isSep word) :
    words isSep ([sep].intercalate all) = all := by
  induction all with
  | nil => rfl
  | cons word all ih =>
    have first := each word List.mem_cons_self
    have later := ih fun other member => each other (List.mem_cons_of_mem word member)
    cases all with
    | nil =>
      have alone := @words_word _ _ _ [] first nofun
      rw [List.append_nil] at alone
      rw [List.intercalate_singleton]
      exact alone
    | cons next all =>
      have joined : [sep].intercalate (word :: next :: all) = word ++ sep :: [sep].intercalate (next :: all) := by
        rw [List.intercalate_cons_cons, List.append_assoc, List.singleton_append]
      have ends : Ends isSep (sep :: [sep].intercalate (next :: all)) := by
        intro a head
        cases head
        exact separates
      rw [joined, words_word first ends, words_cons_sep separates, later]

theorem intercalate_inj {first second : List (List α)} (separates : isSep sep = true)
    (one : ∀ word ∈ first, IsWord isSep word) (two : ∀ word ∈ second, IsWord isSep word)
    (same : [sep].intercalate first = [sep].intercalate second) : first = second := by
  rw [← words_intercalate separates one, same, words_intercalate separates two]

end Words
