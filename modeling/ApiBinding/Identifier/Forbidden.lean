/-!
The names that generated code must leave alone, for each use of an identifier.
-/

namespace ApiBinding.Identifier

inductive Role where
  | parameter
  | method
  | type
deriving DecidableEq

def keywords : List String :=
  ["False", "None", "True", "and", "as", "assert", "async", "await", "break", "class", "continue",
    "def", "del", "elif", "else", "except", "finally", "for", "from", "global", "if", "import",
    "in", "is", "lambda", "nonlocal", "not", "or", "pass", "raise", "return", "try", "while",
    "with", "yield"]

/-- Names that every generated module binds at its top. -/
def topNames : List String :=
  ["json", "httpx", "quote", "cast", "override", "Any", "AsyncIterable", "AsyncIterator",
    "Generic", "Literal", "Mapping", "Optional", "Protocol", "Required", "T", "TypeVar",
    "TypedDict", "Union"]

def supportNames : List String :=
  ["ApiException", "ApiResponse", "DisposableApiResponse", "JsonArrayStream",
    "JsonArrayStreamContent"]

/-- Names that are always bound and that method bodies call. -/
def calledNames : List String := ["str", "list", "dict", "ValueError"]

def localNames : List String :=
  ["url_", "query_", "request_headers_", "content_", "request_", "response_",
    "dispose_response_", "status_", "headers_", "data_", "text_", "result_"]

def memberNames : List String :=
  ["__init__", "__aenter__", "__aexit__", "aclose", "base_url", "configuration",
    "create_http_request_async", "_transport"]

def forbidden : Role → List String
  | .parameter =>
    keywords ++ ["self"] ++ topNames ++ supportNames ++ localNames ++ calledNames
  | .method => keywords ++ topNames ++ memberNames
  | .type => keywords ++ topNames ++ supportNames

def isForbidden (role : Role) (name : String) : Bool := (forbidden role).contains name

def freeingSuffix : Role → String
  | .parameter => "_"
  | .method => "_"
  | .type => "Model"

def digitLead : Role → String
  | .parameter => "_"
  | .method => "_"
  | .type => "Model"

/-- The name that stands for one of which nothing is left. -/
def fallbackName : Role → String
  | .parameter => "value"
  | .method => "value"
  | .type => "Value"

/-- One suffix frees any forbidden name: with the suffix no such name is forbidden. -/
theorem isForbidden_append_freeingSuffix (role : Role) :
    ∀ name ∈ forbidden role, isForbidden role (name ++ freeingSuffix role) = false := by
  cases role <;> decide +kernel

end ApiBinding.Identifier
