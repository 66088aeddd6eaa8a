import ApiBinding.Dialect

/-!
The head of a module: its imports and the type variable.
-/

namespace ApiBinding.Header

def isFunctionName (name : String) : Bool :=
  (name.toList.head?.map Char.isLower).getD false

/-- Whether a name stands before another in an import: classes stand before functions. -/
def importedBefore (first second : String) : Bool :=
  if isFunctionName first = isFunctionName second then decide (first < second)
  else !isFunctionName first

def insertImport (name : String) : List String → List String
  | [] => [name]
  | n :: rest => if importedBefore name n then name :: n :: rest else n :: insertImport name rest

def importList (names : List String) : String :=
  Text.joined ", " (names.foldr insertImport [])

def alwaysImported : List String :=
  ["Any", "Generic", "Literal", "Optional", "Protocol", "TypeVar", "Union", "cast"]

def mappingNames : List String := ["Required", "TypedDict"]

def fromTyping (dialect : Dialect) : List String :=
  alwaysImported ++ (if dialect.typingExtensions then [] else mappingNames)
    ++ (if dialect.typingOverride then ["override"] else [])

def fromExtensions (dialect : Dialect) : List String :=
  (if dialect.typingExtensions then mappingNames else [])
    ++ (if dialect.typingOverride then [] else ["override"])

def lines (dialect : Dialect) (additionalImports : List String) : List String :=
  let extensions := fromExtensions dialect
  ["# ruff: noqa: F401"]
    ++ (if dialect.postponedAnnotations then ["from __future__ import annotations"] else [])
    ++ ["",
      "import json",
      "from collections.abc import AsyncIterable, AsyncIterator, Mapping",
      "from typing import " ++ importList (fromTyping dialect),
      "from urllib.parse import quote",
      "",
      "import httpx"]
    ++ (if extensions.isEmpty then []
      else ["from typing_extensions import " ++ importList extensions])
    ++ (if additionalImports.isEmpty then [] else "" :: additionalImports)
    ++ ["", "T = TypeVar('T')", "", ""]

end ApiBinding.Header
