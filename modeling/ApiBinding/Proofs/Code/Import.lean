import ApiBinding.Proofs.Code.Declared

/-!
Imports read for the names that they bind. The head of a module binds each of its names once, and
none of them can be that of a type.
-/

namespace ApiBinding

namespace Code

theorem paths_cons {word : List Char} (filled : word ≠ []) (whole : word.all isPathChar = true)
    {c : Char} (stops : isPathChar c = false) (rest : List Char) :
    paths (word ++ c :: rest) = String.ofList word :: paths rest := by
  have whole : word.any (fun c => !isPathChar c) = false := by
    simpa [List.any_eq_false, List.all_eq_true] using whole
  rw [paths, Text.pieces_word whole (by simpa using stops)]
  simp [paths, filled]

theorem paths_stop {c : Char} (stops : isPathChar c = false) (rest : List Char) :
    paths (c :: rest) = paths rest := by
  simp [paths, Text.pieces, Text.piecesFrom, stops]

/-- Whether a text is one path. -/
def IsPath (s : String) : Prop := s ≠ "" ∧ s.toList.all isPathChar = true

instance (s : String) : Decidable (IsPath s) := inferInstanceAs (Decidable (_ ∧ _))

theorem IsPath.filled {s : String} (h : IsPath s) : s.toList ≠ [] := by
  simpa using h.1

theorem paths_joined {names : List String} (h : ∀ name ∈ names, IsPath name) :
    paths (Text.joined ", " names).toList = names := by
  fun_induction Text.joined ", " names with
  | case1 => rfl
  | case2 name =>
    have path := h name (List.mem_singleton_self name)
    have whole : ∀ c ∈ name.toList, (fun c => !isPathChar c) c = false := by
      simpa using List.all_eq_true.mp path.2
    simp [paths, Text.pieces_whole whole, path.1]
  | case3 name rest _ ih =>
    rw [List.forall_mem_cons] at h
    have text : (name ++ ", " ++ Text.joined ", " rest).toList =
        name.toList ++ ',' :: ' ' :: (Text.joined ", " rest).toList := by
      simp
    rw [text, paths_cons h.1.filled h.1.2 (by decide), paths_stop (by decide), ih h.2,
      String.ofList_toList]

/-- An import of names from a module binds the names. -/
theorem bound_from {origin : String} (path : IsPath origin) (other : origin ≠ "import")
    {names : List String} (h : ∀ name ∈ names, IsPath name) :
    bound ("from " ++ origin ++ " import " ++ Text.joined ", " names) = names := by
  obtain ⟨line, hline⟩ : ∃ line, line = "from " ++ origin ++ " import " ++ Text.joined ", " names :=
    ⟨_, rfl⟩
  obtain ⟨rest, hrest⟩ : ∃ rest, rest = origin.toList ++ ' ' :: ("import".toList ++
      ' ' :: (Text.joined ", " names).toList) := ⟨_, rfl⟩
  have text : line.toList = "from".toList ++ ' ' :: rest := by
    simp [hline, hrest]
  have read : paths rest = origin :: "import" :: names := by
    rw [hrest, paths_cons path.filled path.2 (by decide),
      paths_cons (by decide) (by decide) (by decide), paths_joined h, String.ofList_toList,
      String.ofList_toList]
  have silent : declared? line = none := by
    have noValue : Text.after? " = ".toList (' ' :: rest) = none := by
      cases first : origin.toList with
      | nil => exact absurd first path.filled
      | cons c cs =>
        have plain : c ≠ '=' := by
          rintro rfl
          have whole := path.2
          rw [first] at whole
          cases whole
        simp [hrest, first, Text.after?, plain.symm]
    rw [declared?_eq text (by decide) rfl, noValue]
    simp
  have noModule : Text.after? "import ".toList line.toList = none := by
    simp [text, Text.after?]
  have origins : Text.after? "from ".toList line.toList = some rest := by
    simp [text, Text.after?]
  rw [← hline, bound, silent]
  simp only [imported, noModule, origins, read]
  simp [other]

end Code

open Code (bound)

namespace Header

theorem insertImport_perm (name : String) (names : List String) :
    (insertImport name names).Perm (name :: names) := by
  induction names with
  | nil => exact .refl _
  | cons first names ih =>
    rw [insertImport]
    split
    · exact .refl _
    · exact (ih.cons first).trans (.swap ..)

theorem sorted_perm (names : List String) : (names.foldr insertImport []).Perm names := by
  induction names with
  | nil => exact .refl _
  | cons name names ih => exact (insertImport_perm _ _).trans (ih.cons name)

/-- The names that the head of a module binds, those that are imported always before the others. -/
def boundNames (dialect : Dialect) : List String :=
  (if dialect.postponedAnnotations then ["annotations"] else [])
    ++ ["json", "AsyncIterable", "AsyncIterator", "Mapping", "quote", "httpx", "T"]
    ++ fromTyping dialect ++ fromExtensions dialect

theorem isPath_names (dialect : Dialect) :
    ∀ name ∈ fromTyping dialect ++ fromExtensions dialect, Code.IsPath name := by
  unfold fromTyping fromExtensions
  simp only [List.forall_mem_append]
  refine ⟨⟨⟨by decide, ?_⟩, ?_⟩, ?_, ?_⟩ <;> split <;> decide

theorem bound_importList {origin : String} (path : Code.IsPath origin) (other : origin ≠ "import")
    {names : List String} (h : ∀ name ∈ names, Code.IsPath name) :
    (bound ("from " ++ origin ++ " import " ++ importList names)).Perm names := by
  have sorted := sorted_perm names
  rw [importList, Code.bound_from path other fun name member => h name (sorted.mem_iff.mp member)]
  exact sorted

theorem bound_lines (dialect : Dialect) :
    ((lines dialect []).flatMap bound).Perm (boundNames dialect) := by
  have paths := isPath_names dialect
  rw [List.forall_mem_append] at paths
  have usual : Code.IsPath "typing" := by decide
  have extended : Code.IsPath "typing_extensions" := by decide
  have typing : (bound ("from typing import " ++ importList (fromTyping dialect))).Perm
      (fromTyping dialect) := bound_importList usual (by decide) paths.1
  have extensions : (bound ("from typing_extensions import "
      ++ importList (fromExtensions dialect))).Perm (fromExtensions dialect) :=
    bound_importList extended (by decide) paths.2
  have extensions : ((if (fromExtensions dialect).isEmpty then []
      else ["from typing_extensions import " ++ importList (fromExtensions dialect)]).flatMap
        bound).Perm (fromExtensions dialect) := by
    split
    next none => rw [List.isEmpty_iff.mp none, List.flatMap_nil]
    next => rwa [List.flatMap_singleton]
  have postponed : (if dialect.postponedAnnotations then ["from __future__ import annotations"]
      else []).flatMap bound = if dialect.postponedAnnotations then ["annotations"] else [] := by
    split <;> decide +kernel
  have comment : bound "# ruff: noqa: F401" = [] := by decide +kernel
  have empty : bound "" = [] := by decide
  have json : bound "import json" = ["json"] := by decide +kernel
  have collections : bound "from collections.abc import AsyncIterable, AsyncIterator, Mapping" =
      ["AsyncIterable", "AsyncIterator", "Mapping"] := by decide +kernel
  have quote : bound "from urllib.parse import quote" = ["quote"] := by decide +kernel
  have httpx : bound "import httpx" = ["httpx"] := by decide +kernel
  have typeVariable : bound "T = TypeVar('T')" = ["T"] := by decide +kernel
  rw [List.perm_iff_count]
  intro name
  have typing := typing.count_eq name
  have extensions := extensions.count_eq name
  simp only [lines, List.isEmpty_nil, if_true, List.append_nil, List.flatMap_append, postponed,
    List.flatMap_cons, List.flatMap_nil, comment, empty, json, collections, quote, httpx,
    typeVariable, List.count_append, List.count_cons, List.count_nil, boundNames,
    List.nil_append] at *
  omega

theorem nodup_boundNames (dialect : Dialect) : (boundNames dialect).Nodup := by
  unfold boundNames fromTyping fromExtensions
  cases dialect.postponedAnnotations <;> cases dialect.typingExtensions <;>
    cases dialect.typingOverride <;> decide +kernel

theorem mem_topNames_of_bound (dialect : Dialect) :
    ∀ name ∈ boundNames dialect, name = "annotations" ∨ name ∈ Identifier.topNames := by
  unfold boundNames fromTyping fromExtensions
  simp only [List.forall_mem_append]
  refine ⟨⟨⟨?_, by decide⟩, ⟨by decide, ?_⟩, ?_⟩, ?_, ?_⟩ <;> split <;> decide

end Header

end ApiBinding
