import ApiBinding.Text.Alphanumeric
import ApiBinding.Text.Blank
import ApiBinding.Text.Case
import ApiBinding.Text.Pieces

/-!
Names for operations that have none, made from the method and the path.
-/

namespace ApiBinding.Identifier

/-- Small letters and numbers, with one underscore for every stretch of other characters; `gap` says
whether such a stretch has begun. -/
def slugFrom (gap : Bool) : List Char → List Char
  | [] => []
  | c :: rest =>
    if Text.isAlphanumeric c then Text.lowerChar c ++ slugFrom false rest
    else if gap then slugFrom true rest
    else '_' :: slugFrom true rest

/-- The words of method and path, each with a capital at its start: `GetUsersId` for `get` and
`/users/{id}`. -/
def ofOperation (method path : String) : String :=
  let isGap := (· == '_')
  let slug := slugFrom false (method ++ "_" ++ path).toList
  let bare := Text.dropEnd isGap (slug.dropWhile isGap)
  let spaced := bare.map fun c => if c = '_' then ' ' else c
  String.ofList ((Text.titleFrom false spaced).filter (· != ' '))

end ApiBinding.Identifier
