import ApiBinding.Proofs.OpenApi.Reference

/-!
Pointers undo the escaping of keys. A pointer that is written for keys leads where the keys lead, and
a reference that is written for the name of a schema names that schema.
-/

namespace ApiBinding.OpenApi

open Text (replaceFrom)

/-- Whether keys lead from a value through maps to a value inside of it. -/
inductive KeysLead : Value → List String → Value → Prop
  | here (v : Value) : KeysLead v [] v
  | into {v inner target : Value} {key : String} {keys : List String}
      (found : v.get? key = some inner) (further : KeysLead inner keys target) :
      KeysLead v (key :: keys) target

variable {document target : Value} {keys : List String}

theorem follow?_eq_some :
    follow? document keys = some target ↔ KeysLead document keys target := by
  constructor
  · intro found
    induction keys generalizing document with
    | nil =>
      obtain rfl := Option.some.inj found
      exact .here document
    | cons key keys ih =>
      obtain ⟨inner, first, rest⟩ := Option.bind_eq_some_iff.mp found
      exact .into first (ih rest)
  · intro leads
    induction leads with
    | here => rfl
    | into first _ ih => rw [follow?, first, Option.bind_some, ih]

/-- A character of a key as it is written in a pointer. -/
def escapedChar (c : Char) : List Char :=
  if c = '~' then ['~', '0'] else if c = '/' then ['~', '1'] else [c]

theorem toList_escapeKey (key : String) :
    (escapeKey key).toList = key.toList.flatMap escapedChar := by
  have tildes : (Text.replaced "~" "~0" key).toList =
      key.toList.flatMap fun c => if '~' = c then ['~', '0'] else [c] := by
    rw [Text.replaced, String.toList_ofList]
    exact Text.replaceFrom_single ..
  have slashes : (escapeKey key).toList =
      (Text.replaced "~" "~0" key).toList.flatMap fun c => if '/' = c then ['~', '1'] else [c] := by
    rw [escapeKey, Text.replaced, String.toList_ofList]
    exact Text.replaceFrom_single ..
  have each (c : Char) : (if '~' = c then ['~', '0'] else [c]).flatMap
      (fun c => if '/' = c then ['~', '1'] else [c]) = escapedChar c := by
    by_cases tilde : c = '~'
    · subst tilde
      rfl
    · by_cases slash : c = '/'
      · subst slash
        rfl
      · simp [escapedChar, tilde, slash, Ne.symm tilde, Ne.symm slash]
  rw [slashes, tildes, List.flatMap_assoc]
  simp only [each]

theorem slash_notMem_escapeKey (key : String) : '/' ∉ (escapeKey key).toList := by
  rw [toList_escapeKey, List.mem_flatMap]
  rintro ⟨c, _, inside⟩
  unfold escapedChar at inside
  split at inside
  · simp at inside
  · split at inside
    · simp at inside
    next slash => exact slash (List.mem_singleton.mp inside).symm

/-- Slashes are read before tildes. In an escaped key no tilde stands in front of a 1 but those
written for slashes. -/
theorem slashes_read (cs : List Char) :
    replaceFrom ['~', '1'] ['/'] 0 (cs.flatMap escapedChar) =
      cs.flatMap fun c => if c = '~' then ['~', '0'] else [c] := by
  induction cs with
  | nil => rfl
  | cons c cs ih =>
    rw [List.flatMap_cons, List.flatMap_cons, ← ih]
    by_cases tilde : c = '~'
    · subst tilde
      simp [escapedChar, replaceFrom, Text.after?]
    · by_cases slash : c = '/'
      · subst slash
        simp [escapedChar, replaceFrom, Text.after?]
      · simp [escapedChar, replaceFrom, Text.after?, tilde, slash, Ne.symm tilde]

theorem tildes_read (cs : List Char) :
    replaceFrom ['~', '0'] ['~'] 0 (cs.flatMap fun c => if c = '~' then ['~', '0'] else [c]) =
      cs := by
  induction cs with
  | nil => rfl
  | cons c cs ih =>
    rw [List.flatMap_cons]
    by_cases tilde : c = '~'
    · subst tilde
      simp [replaceFrom, Text.after?, ih]
    · simp [replaceFrom, Text.after?, tilde, Ne.symm tilde, ih]

@[simp] theorem unescapeKey_escapeKey (key : String) : unescapeKey (escapeKey key) = key := by
  have slashes : (Text.replaced "~1" "/" (escapeKey key)).toList =
      key.toList.flatMap fun c => if c = '~' then ['~', '0'] else [c] := by
    rw [Text.replaced, String.toList_ofList, toList_escapeKey]
    exact slashes_read _
  rw [← String.toList_inj, unescapeKey, Text.replaced, String.toList_ofList, slashes]
  exact tildes_read _

theorem fragmentOf_eq_joined (filled : keys ≠ []) :
    fragmentOf keys = "/" ++ Text.joined "/" (keys.map escapeKey) := by
  induction keys with
  | nil => exact absurd rfl filled
  | cons key keys ih =>
    rw [fragmentOf, List.map_cons, String.join_cons]
    cases keys with
    | nil => simp [Text.joined]
    | cons next keys =>
      have rest := ih (List.cons_ne_nil _ _)
      rw [fragmentOf] at rest
      rw [rest, List.map_cons, List.map_cons, List.map_cons, Text.joined_cons_cons,
        String.append_assoc, String.append_assoc]

/-- The keys for which a pointer was written are read from it, unless it is that of one empty key,
which is the pointer of the whole document. -/
theorem keysOf_fragmentOf (filled : keys ≠ []) (inside : keys ≠ [""]) :
    keysOf (fragmentOf keys) = keys := by
  have text : (fragmentOf keys).toList =
      '/' :: (Text.joined "/" (keys.map escapeKey)).toList := by
    rw [fragmentOf_eq_joined filled, String.toList_append]
    rfl
  have pieces : Text.piecesAt '/' (Text.joined "/" (keys.map escapeKey)) =
      keys.map escapeKey := by
    refine Text.piecesAt_joined rfl (by simpa using filled) ?_
    rw [List.forall_mem_map]
    exact fun key _ => slash_notMem_escapeKey key
  have more : (Text.joined "/" (keys.map escapeKey)).toList ≠ [] := by
    intro nothing
    have empty : Text.joined "/" (keys.map escapeKey) = "" := String.toList_inj.mp nothing
    -- The pieces of an empty text are one empty text.
    rw [empty] at pieces
    have single : keys.map escapeKey = [""] := pieces.symm
    obtain ⟨key, rfl, escaped⟩ := List.map_eq_singleton_iff.mp single
    have same := unescapeKey_escapeKey key
    rw [escaped] at same
    exact inside (by rw [← same]; rfl)
  have read : keysOf (fragmentOf keys) =
      (Text.piecesAt '/' (Text.joined "/" (keys.map escapeKey))).map unescapeKey := by
    rw [keysOf_slash text more, Text.piecesAt, List.map_map]
    rfl
  rw [read, pieces, List.map_map]
  simp [Function.comp_def]

theorem atFragment_eq_ok {fragment : String} :
    atFragment document fragment = .ok target ↔ KeysLead document (keysOf fragment) target := by
  rw [← follow?_eq_some, atFragment]
  split
  next v found => simp [found]
  next none => simp [none]

theorem atFragment_dangling {fragment : String}
    (nowhere : ∀ target, ¬KeysLead document (keysOf fragment) target) :
    atFragment document fragment = .error (.description (.danglingPointer fragment)) := by
  rw [atFragment]
  split
  next v found => exact absurd (follow?_eq_some.mp found) (nowhere v)
  next => rfl

/-- A place for schemas and the keys that lead to it. -/
def keyedPlaces : List (String × List String) := schemaPlaces.zip schemaKeys

theorem namedSchema?_escapeKey {place : String} (known : place ∈ schemaPlaces) (name : String) :
    namedSchema? (place ++ escapeKey name) = some name := by
  have located : schemaPlaces.findSome? (fun start => Text.rest? start (place ++ escapeKey name)) =
      some (escapeKey name) := by
    simp only [schemaPlaces, List.mem_cons, List.not_mem_nil, or_false] at known
    rcases known with rfl | rfl
    · simp [schemaPlaces]
    · have elsewhere :
          Text.rest? "#/components/schemas/" ("#/definitions/" ++ escapeKey name) = none := by
        simp [Text.rest?, Text.after?]
      simp [schemaPlaces, elsewhere]
  have whole : (escapeKey name).toList.contains '/' = false := by
    simpa using slash_notMem_escapeKey name
  rw [namedSchema?, located]
  simp only [whole, Bool.false_eq_true, if_false, unescapeKey_escapeKey]

theorem referenced_escapeKey {place : String} {keys : List String}
    (known : (place, keys) ∈ keyedPlaces) (name : String) :
    referenced document (place ++ escapeKey name) = .ok target ↔
      KeysLead document (keys ++ [name]) target := by
  have whole : ∀ c ∈ (escapeKey name).toList, (c == '/') = false := by
    intro c inside
    rw [beq_eq_false_iff_ne]
    rintro rfl
    exact slash_notMem_escapeKey name inside
  have inside (start : String) : referenced document ("#" ++ start ++ escapeKey name) =
      atFragment document (start ++ escapeKey name) := by
    rw [String.append_assoc, referenced, Text.rest?_append]
  simp only [keyedPlaces, schemaPlaces, schemaKeys, List.zip_cons_cons, List.zip_nil_right,
    List.mem_cons, List.not_mem_nil, or_false, Prod.mk.injEq] at known
  rcases known with ⟨rfl, rfl⟩ | ⟨rfl, rfl⟩
  · rw [show "#/components/schemas/" = "#" ++ "/components/schemas/" from rfl, inside,
      atFragment_eq_ok, keysOf_components whole, unescapeKey_escapeKey]
    rfl
  · rw [show "#/definitions/" = "#" ++ "/definitions/" from rfl, inside, atFragment_eq_ok,
      keysOf_definitions whole, unescapeKey_escapeKey]
    rfl

/-- Pointers find what the keys lead to for which they are written, and fail where the keys lead
nowhere. A reference that is written for the name of a schema has just that name, under which it
finds the schema. -/
theorem written_keys_found (document : Value) :
    (∀ keys : List String, keys ≠ [] → keys ≠ [""] →
      (∀ target, KeysLead document keys target →
        atFragment document (fragmentOf keys) = .ok target) ∧
      ((∀ target, ¬KeysLead document keys target) →
        atFragment document (fragmentOf keys) =
          .error (.description (.danglingPointer (fragmentOf keys))))) ∧
    ∀ place keys, (place, keys) ∈ keyedPlaces → ∀ name,
      namedSchema? (place ++ escapeKey name) = some name ∧
        ∀ target, referenced document (place ++ escapeKey name) = .ok target ↔
          KeysLead document (keys ++ [name]) target := by
  refine ⟨fun keys filled inside => ?_, fun place keys known name => ?_⟩
  · have read := keysOf_fragmentOf filled inside
    refine ⟨fun target leads => ?_, fun nowhere => ?_⟩
    · rwa [atFragment_eq_ok, read]
    · exact atFragment_dangling (by rwa [read])
  · exact ⟨namedSchema?_escapeKey (List.of_mem_zip known).1 name,
      fun target => referenced_escapeKey known name⟩

/-- A document with keys that are written with escapes, one of which looks like one. -/
def escapedKeys : Value :=
  .map [(.text "definitions", .map [(.text "~1/", .map [(.text "", .bool true)])])]

theorem written_keys_found_escaped :
    atFragment escapedKeys "/definitions/~01~1/" = .ok (.bool true) ∧
      atFragment escapedKeys "/definitions/~1~1" =
        .error (.description (.danglingPointer "/definitions/~1~1")) ∧
      namedSchema? "#/definitions/~01~1" = some "~1/" ∧
      referenced escapedKeys "#/definitions/~01~1" = .ok (.map [(.text "", .bool true)]) := by
  obtain ⟨found, named⟩ := written_keys_found escapedKeys
  have inner : KeysLead escapedKeys ["definitions", "~1/"] (.map [(.text "", .bool true)]) :=
    .into rfl (.into rfl (.here _))
  have whole : KeysLead escapedKeys ["definitions", "~1/", ""] (.bool true) :=
    .into rfl (.into rfl (.into rfl (.here _)))
  have nowhere : ∀ target, ¬KeysLead escapedKeys ["definitions", "//"] target := by
    intro target leads
    have none : follow? escapedKeys ["definitions", "//"] = none := by decide
    rw [follow?_eq_some.mpr leads] at none
    cases none
  have name := named "#/definitions/" ["definitions"] (by simp [keyedPlaces, schemaPlaces,
    schemaKeys]) "~1/"
  exact ⟨(found ["definitions", "~1/", ""] (by decide) (by decide)).1 _ whole,
    (found ["definitions", "//"] (by decide) (by decide)).2 nowhere, name.1, (name.2 _).mpr inner⟩

end ApiBinding.OpenApi
