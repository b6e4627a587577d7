import Cronet.Request.Multipart

namespace Cronet.Request

open Cronet.Native (Bytes)
open Cronet.Url (Str)

/-- A reader that takes a carriage return, a line feed or both for the end of a line. -/
def lineBreak : Bytes → Option (Bytes × Bytes)
  | [] => none
  | b :: s =>
    if b = 13 then
      match s with
      | 10 :: s => some ([], s)
      | s => some ([], s)
    else if b = 10 then some ([], s)
    else (lineBreak s).map fun (line, s) => (b :: line, s)

def OneLine (s : Bytes) : Prop := 13 ∉ s ∧ 10 ∉ s

theorem lineBreak_oneLine {s line rest : Bytes} (found : lineBreak s = some (line, rest)) : OneLine line := by
  induction s generalizing line with
  | nil => cases found
  | cons b s ih =>
    unfold lineBreak at found
    split_ifs at found with carriage feed
    · have empty : line = [] := by
        split at found <;> cases found <;> rfl
      rw [empty]
      exact ⟨List.not_mem_nil, List.not_mem_nil⟩
    · cases found
      exact ⟨List.not_mem_nil, List.not_mem_nil⟩
    · obtain ⟨⟨inner, _⟩, cut, same⟩ := Option.map_eq_some_iff.mp found
      cases same
      obtain ⟨noReturn, noFeed⟩ := ih cut
      exact ⟨List.not_mem_cons_of_ne_of_not_mem (Ne.symm carriage) noReturn,
        List.not_mem_cons_of_ne_of_not_mem (Ne.symm feed) noFeed⟩

theorem lineBreak_cut {line : Bytes} (oneLine : OneLine line) (s : Bytes) :
    lineBreak (line ++ (CRLF ++ s)) = some (line, s) := by
  induction line with
  | nil => rw [crlf_eq]; rfl
  | cons b line ih =>
    obtain ⟨noReturn, noFeed⟩ := oneLine
    simp only [List.mem_cons, not_or] at noReturn noFeed
    rw [List.cons_append]
    unfold lineBreak
    rw [if_neg (Ne.symm noReturn.1), if_neg (Ne.symm noFeed.1), ih ⟨noReturn.2, noFeed.2⟩]
    rfl

theorem readLines_oneLine {fuel : Nat} {s rest : Bytes} {lines : List Bytes}
    (found : Part.readLines lineBreak fuel s = some (lines, rest)) : ∀ line ∈ lines, OneLine line := by
  induction fuel generalizing s lines with
  | zero => cases found
  | succ fuel ih =>
    obtain ⟨⟨line, s⟩, cut, found⟩ := Option.bind_eq_some_iff.mp found
    dsimp only at found
    split_ifs at found
    · cases found
      exact fun other member => absurd member List.not_mem_nil
    · obtain ⟨⟨later, _⟩, read, found⟩ := Option.bind_eq_some_iff.mp found
      cases found
      intro other member
      rcases List.mem_cons.mp member with rfl | there
      · exact lineBreak_oneLine cut
      · exact ih read other there

theorem oneLine_utf8 {s : Str} : OneLine (utf8 s) ↔ '\r' ∉ s ∧ '\n' ∉ s :=
  and_congr (not_congr (mem_utf8 (c := '\r') (by decide))) (not_congr (mem_utf8 (c := '\n') (by decide)))

theorem headerLines_oneLine {name : Str} {filename mediaType : Option Str} :
    (∀ line ∈ headerLines name filename mediaType, OneLine line) ↔ ∀ m ∈ mediaType, '\r' ∉ m ∧ '\n' ∉ m := by
  have typed (m : Str) : OneLine (utf8 ("Content-Type: ".toList ++ m)) ↔ '\r' ∉ m ∧ '\n' ∉ m := by
    simp [oneLine_utf8]
  constructor
  · intro lines m given
    refine (typed m).mp (lines _ (List.mem_cons_of_mem _ ?_))
    exact Option.mem_toList.mpr (Option.mem_map_of_mem _ given)
  · intro plain line member
    rcases List.mem_cons.mp member with rfl | there
    · rw [oneLine_utf8, List.mem_append, List.mem_append, not_or, not_or]
      exact ⟨⟨by simp, fun inside => (disposition_plain inside).1 rfl⟩,
        ⟨by simp, fun inside => (disposition_plain inside).2 rfl⟩⟩
    · obtain ⟨m, given, rfl⟩ := Option.map_eq_some_iff.mp (Option.mem_toList.mp there)
      exact (typed m).mpr (plain m given)

section

variable [Library]

/-- The header block of every part is read as the lines written for it, and its body begins where it should: whatever
    the texts are, they stay inside the quotes and the media type. -/
def HeadersConfined (fields : List (Str × Str)) (files : List (Str × FileSpec)) (boundary : Str) : Prop :=
  ∀ before part after, givenParts fields files = before ++ part :: after → ∃ rest back,
    encodeMultipart fields files boundary =
      enclosed boundary before ++ (utf8 ("--".toList ++ boundary) ++ (CRLF ++ rest)) ∧
    Part.readLines lineBreak (rest.length + 1) rest =
      some (headerLines part.name part.filename part.mediaType, part.content ++ back) ∧
    Part.ofLines (headerLines part.name part.filename part.mediaType) part.content = some part.read

theorem givenParts_mediaType {fields : List (Str × Str)} {files : List (Str × FileSpec)} {P : Str → Prop} :
    (∀ part ∈ givenParts fields files, ∀ m ∈ part.mediaType, P m) ↔ ∀ file ∈ files, P (filePart file.1 file.2).2.1 := by
  constructor
  · intro all file member
    exact all (uploadPart file) (List.mem_append_right _ (List.mem_map_of_mem member)) _ rfl
  · intro all part member m typed
    rcases List.mem_append.mp member with field | file
    · obtain ⟨f, _, rfl⟩ := List.mem_map.mp field
      cases typed
    · obtain ⟨f, given, rfl⟩ := List.mem_map.mp file
      cases typed
      exact all f given

theorem headers_confined_iff (fields : List (Str × Str)) (files : List (Str × FileSpec)) (boundary : Str) :
    HeadersConfined fields files boundary ↔
      ∀ file ∈ files, '\r' ∉ (filePart file.1 file.2).2.1 ∧ '\n' ∉ (filePart file.1 file.2).2.1 := by
  rw [← givenParts_mediaType (P := fun m => '\r' ∉ m ∧ '\n' ∉ m)]
  constructor
  · intro confined part member
    obtain ⟨before, after, split⟩ := List.append_of_mem member
    obtain ⟨rest, back, _, read, _⟩ := confined before part after split
    exact headerLines_oneLine.mp (readLines_oneLine read)
  · intro plain before part after split
    have typed := plain part (split ▸ List.mem_append_right before List.mem_cons_self)
    have shown : ∀ line ∈ headerLines part.name part.filename part.mediaType, line ≠ [] ∧ 13 ∉ line :=
      headerLines_shown fun m given => (typed m given).1
    have oneLine : ∀ line ∈ headerLines part.name part.filename part.mediaType, OneLine line :=
      headerLines_oneLine.mpr typed
    refine ⟨(headerLines part.name part.filename part.mediaType).flatMap (· ++ CRLF) ++ (CRLF ++ (part.content ++
        (CRLF ++ (enclosed boundary after ++ (utf8 ("--".toList ++ boundary) ++ utf8 "--\r\n".toList))))), _, ?_,
      Part.readLines_append (fun line member => ⟨(shown line member).1, lineBreak_cut (oneLine line member)⟩)
        (lineBreak_cut ⟨List.not_mem_nil, List.not_mem_nil⟩ _) (Nat.lt_succ_of_le (length_le_lines _ _)), ?_⟩
    · rw [encodeMultipart_enclosed, split, enclosed, List.flatMap_append, List.flatMap_cons]
      simp only [enclosed, GivenPart.written, framed, List.append_assoc]
    · exact ofLines_headerLines part.name part.filename part.mediaType part.content

end

section

attribute [local instance] asciiLibrary

def forged : Str × FileSpec :=
  ("f".toList, .typed "a.txt".toList (.text "x".toList) "text/plain\r\nX-Injected: yes".toList)

/-- A declared media type writes a header of its own. -/
theorem mediaType_injects :
    ¬HeadersConfined [] [forged] "B".toList ∧
      (Part.readLines lineBreak 100 ((encodeMultipart [] [forged] "B".toList).drop 5)).map (·.1[2]?) =
        some (some (utf8 "X-Injected: yes".toList)) := by
  refine ⟨fun confined => ?_, by decide⟩
  obtain ⟨rest, back, _, read, _⟩ := confined [] (uploadPart forged) [] rfl
  have plain := headerLines_oneLine.mp (readLines_oneLine read) _ rfl
  exact plain.1 (by decide)

end

end Cronet.Request
