import ApiBinding.OpenApi.Operations
import ApiBinding.Proofs.Entries
import ApiBinding.Proofs.OpenApi.Recursion
import ApiBinding.Proofs.Value

/-!
The parameters of an operation: those listed by its path item and by itself, without the ones that
are listed again later under the same name and place, and without the ones sent in places that are
not supported, of which there is a warning each.
-/

namespace ApiBinding

/-- The text that a value is; other values count as the empty text. -/
def Value.statedText : Value → String
  | .text s => s
  | _ => ""

theorem Value.eq_text_of_statedText_ne {v : Value} (given : v.statedText ≠ "") :
    v = .text v.statedText := by
  unfold statedText at given ⊢
  split at given
  next => rfl
  next => exact absurd rfl given

theorem Location.name_ofName (name : String) : (ofName name).name = name := by
  unfold ofName
  split <;> rfl

/-- The name and the place of a parameter. -/
def Parameter.pair (parameter : Parameter) : String × String :=
  (parameter.name.statedText, parameter.location.name)

namespace OpenApi

/-- The name and the place of the parameter that an object describes. -/
def pairOf (parameter : Value) : String × String :=
  ((parameter.get "name").statedText, (parameter.get "in").statedText)

/-- Whether an object states the name and the place of a parameter, both by texts with characters. -/
structure IsNamed (parameter : Value) : Prop where
  name : (pairOf parameter).1 ≠ ""
  place : (pairOf parameter).2 ≠ ""

instance (parameter : Value) : Decidable (IsNamed parameter) :=
  decidable_of_iff ((pairOf parameter).1 ≠ "" ∧ (pairOf parameter).2 ≠ "")
    ⟨fun given => ⟨given.1, given.2⟩, fun named => ⟨named.name, named.place⟩⟩

namespace IsNamed

variable {parameter : Value} (named : IsNamed parameter)

include named

theorem get_name : parameter.get "name" = .text (pairOf parameter).1 :=
  Value.eq_text_of_statedText_ne named.name

theorem get_place : parameter.get "in" = .text (pairOf parameter).2 :=
  Value.eq_text_of_statedText_ne named.place

end IsNamed

/-- A member that is there by one way of reading is there by the one that minds the kind. -/
theorem member_eq_get {v : Value} {key : String} (given : v.get key ≠ .null) :
    v.member key = .ok (v.get key) := by
  cases same : v.opened with
  | map entries =>
    rw [Value.member, Value.member?, Value.entries, Value.get, Value.get?, same]
    rfl
  | _ => simp [Value.get, Value.get?, same] at given

theorem parameterKey_eq {parameter : Value} (named : IsNamed parameter) (method path : String) :
    parameterKey method path parameter =
      .ok (.text (pairOf parameter).1, .text (pairOf parameter).2) := by
  have name : parameter.member "name" = .ok (.text (pairOf parameter).1) := by
    rw [member_eq_get (by rw [named.get_name]; simp), named.get_name]
  have place : parameter.member "in" = .ok (.text (pairOf parameter).2) := by
    rw [member_eq_get (by rw [named.get_place]; simp), named.get_place]
  have given : ((Value.text (pairOf parameter).1).truth &&
      (Value.text (pairOf parameter).2).truth) = true := by
    simp [Value.truth, Scalar.truth, named.name, named.place]
  rw [parameterKey, name, ok_bind, place, ok_bind, if_pos given]
  rfl

/-- Whether the second list has, for every name and place in the first one, in the order in which
they come first there, the parameter that comes last there. -/
structure IsMerged (listed merged : List Value) : Prop where
  pairs : merged.map pairOf = (listed.map pairOf).eraseDups
  last : ∀ parameter ∈ merged, ∃ before after,
    listed = before ++ parameter :: after ∧ pairOf parameter ∉ after.map pairOf

/-- Puts a parameter in the place of the one of the same name and place, or at the end. -/
def placed (parameter : Value) : List Value → List Value
  | [] => [parameter]
  | first :: rest =>
    if pairOf first = pairOf parameter then parameter :: rest else first :: placed parameter rest

theorem map_pairOf_placed (parameter : Value) (merged : List Value) :
    (placed parameter merged).map pairOf =
      if pairOf parameter ∈ merged.map pairOf then merged.map pairOf
      else merged.map pairOf ++ [pairOf parameter] := by
  induction merged with
  | nil => rfl
  | cons first rest ih =>
    by_cases same : pairOf first = pairOf parameter
    · simp [placed, same]
    · rw [placed, if_neg same, List.map_cons, ih]
      by_cases later : pairOf parameter ∈ rest.map pairOf
      · rw [if_pos later, List.map_cons, if_pos (List.mem_cons_of_mem _ later)]
      · have fresh : pairOf parameter ∉ (first :: rest).map pairOf := by
          simpa [Ne.symm same] using later
        rw [if_neg later, if_neg fresh, List.map_cons, List.cons_append]

theorem mem_placed {parameter other : Value} {merged : List Value}
    (single : (merged.map pairOf).Nodup) (member : other ∈ placed parameter merged) :
    other = parameter ∨ other ∈ merged ∧ pairOf other ≠ pairOf parameter := by
  induction merged with
  | nil => exact .inl (List.mem_singleton.mp member)
  | cons first rest ih =>
    obtain ⟨alone, single⟩ := List.nodup_cons.mp single
    by_cases same : pairOf first = pairOf parameter
    · rw [placed, if_pos same] at member
      rcases List.mem_cons.mp member with rfl | later
      · exact .inl rfl
      · refine .inr ⟨List.mem_cons_of_mem _ later, fun again => alone ?_⟩
        rw [same, ← again]
        exact List.mem_map_of_mem later
    · rw [placed, if_neg same] at member
      rcases List.mem_cons.mp member with rfl | later
      · exact .inr ⟨List.mem_cons_self, same⟩
      · exact (ih single later).imp_right fun ⟨among, different⟩ =>
          ⟨List.mem_cons_of_mem _ among, different⟩

namespace IsMerged

variable {listed merged : List Value}

theorem nil : IsMerged [] [] := ⟨rfl, by simp⟩

theorem nodup (h : IsMerged listed merged) : (merged.map pairOf).Nodup := by
  rw [h.pairs]
  exact Entries.nodup_eraseDups _

theorem concat (h : IsMerged listed merged) (parameter : Value) :
    IsMerged (listed ++ [parameter]) (placed parameter merged) where
  pairs := by
    rw [map_pairOf_placed, List.map_append, List.map_singleton, Entries.eraseDups_concat]
    simp only [h.pairs, List.mem_eraseDups]
  last := by
    intro other member
    rcases mem_placed h.nodup member with rfl | ⟨among, different⟩
    · exact ⟨listed, [], rfl, by simp⟩
    · obtain ⟨before, after, rfl, unrepeated⟩ := h.last other among
      refine ⟨before, after ++ [parameter], by simp, ?_⟩
      rw [List.map_append, List.mem_append, List.map_singleton, List.mem_singleton]
      exact not_or.mpr ⟨unrepeated, different⟩

end IsMerged

/-- The entry under which a parameter is kept. -/
def entryOf (parameter : Value) : ParameterKey × Value :=
  ((.text (pairOf parameter).1, .text (pairOf parameter).2), parameter)

theorem put_entries (parameter : Value) (merged : List Value) :
    Entries.put sameParameter (entryOf parameter).1 parameter (merged.map entryOf) =
      (placed parameter merged).map entryOf := by
  induction merged with
  | nil => rfl
  | cons first rest ih =>
    have same : sameParameter (entryOf first).1 (entryOf parameter).1 = true ↔
        pairOf first = pairOf parameter := by
      simp [sameParameter, entryOf, Scalar.same_text_iff, Prod.ext_iff]
    show (if sameParameter (entryOf first).1 (entryOf parameter).1 = true then
        ((entryOf first).1, parameter) :: rest.map entryOf
      else entryOf first ::
        Entries.put sameParameter (entryOf parameter).1 parameter (rest.map entryOf)) = _
    rw [ih, placed]
    by_cases equal : pairOf first = pairOf parameter
    · rw [if_pos (same.mpr equal), if_pos equal, List.map_cons, entryOf, entryOf, equal]
    · rw [if_neg (mt same.mp equal), if_neg equal, List.map_cons]

theorem mergeParameters_entries {listed merged rest : List Value} (h : IsMerged listed merged)
    (named : ∀ parameter ∈ rest, IsNamed parameter) (method path : String) :
    ∃ merged', mergeParameters method path (merged.map entryOf) rest =
      .ok (merged'.map entryOf) ∧ IsMerged (listed ++ rest) merged' := by
  induction rest generalizing listed merged with
  | nil => exact ⟨merged, rfl, by rwa [List.append_nil]⟩
  | cons parameter rest ih =>
    rw [List.forall_mem_cons] at named
    obtain ⟨merged', same, further⟩ := ih (h.concat parameter) named.2
    refine ⟨merged', ?_, by simpa using further⟩
    rw [mergeParameters, parameterKey_eq named.1, ok_bind, ← same]
    exact congrArg (mergeParameters method path · rest) (put_entries parameter merged)

/-- Merging never fails for parameters with names and places. -/
theorem mergeParameters_eq_ok {listed : List Value}
    (named : ∀ parameter ∈ listed, IsNamed parameter) (method path : String) :
    ∃ merged, mergeParameters method path [] listed = .ok (merged.map entryOf) ∧
      IsMerged listed merged :=
  mergeParameters_entries IsMerged.nil named method path

/-- The places in which a parameter can be sent. -/
def supportedPlaces : List String := ["path", "query", "header", "body"]

def isSupported (parameter : Value) : Bool := supportedPlaces.contains (pairOf parameter).2

theorem locationOf?_text (place : String) :
    locationOf? (.text place) =
      if place ∈ supportedPlaces then some (Location.ofName place) else none := by
  by_cases known : place ∈ supportedPlaces
  · rw [if_pos known]
    simp only [supportedPlaces, List.mem_cons, List.not_mem_nil, or_false] at known
    rcases known with rfl | rfl | rfl | rfl <;> rfl
  · rw [if_neg known]
    unfold locationOf?
    split
    all_goals first
      | rfl
      | next same =>
        cases same
        exact absurd (by decide) known

theorem locationOf?_of_isSupported {parameter : Value} (supported : isSupported parameter = true) :
    locationOf? (parameter.get "in") = some (Location.ofName (pairOf parameter).2) := by
  have known : (pairOf parameter).2 ∈ supportedPlaces := by simpa [isSupported] using supported
  have given : (parameter.get "in").statedText ≠ "" := by
    intro missing
    have unknown : "" ∉ supportedPlaces := by decide
    exact unknown (missing ▸ known)
  rw [Value.eq_text_of_statedText_ne given, locationOf?_text]
  exact if_pos known

/-- Whether a warning is about a parameter that is left out. -/
def isSkip : Warning → Bool
  | .skippedParameter .. => true
  | _ => false

/-- The warnings about parameters that are left out. -/
def skips (warnings : List Warning) : List Warning := warnings.filter isSkip

/-- The warning about a parameter of an operation that is left out. -/
def skipOf (method path : String) (parameter : Value) : Warning :=
  .skippedParameter (parameter.get "in") (parameter.get "name") method path

/-- Objects taken one after the other: a supported one gives a parameter, from where the conversion
stands then, and any other one gives a warning. -/
inductive Converted (convert : Value → Conversion Shape) (method path : String) :
    Progress → List Value → List Parameter → Progress → Prop where
  | nil (progress : Progress) : Converted convert method path progress [] [] progress
  | taken {progress after final : Progress} {parameter : Value} {rest : List Value}
    {first : Parameter} {further : List Parameter} (supported : isSupported parameter = true)
    (ran : (parameterOf convert method path parameter).run progress = (.ok (some first), after))
    (later : Converted convert method path after rest further final) :
    Converted convert method path progress (parameter :: rest) (first :: further) final
  | skipped {progress final : Progress} {parameter : Value} {rest : List Value}
    {further : List Parameter} (unsupported : isSupported parameter = false)
    (later : Converted convert method path
      { progress with warnings := progress.warnings ++ [skipOf method path parameter] }
      rest further final) :
    Converted convert method path progress (parameter :: rest) further final

section

variable {convert : Value → Conversion Shape} {method path : String} {parameter : Value}
  {progress final : Progress}

theorem checkWritable_text (s : String) : (Value.text s).checkWritable = .ok () := rfl

theorem run_parameterOf_unsupported (named : IsNamed parameter)
    (unsupported : isSupported parameter = false) :
    (parameterOf convert method path parameter).run progress =
      (.ok none,
        { progress with warnings := progress.warnings ++ [skipOf method path parameter] }) := by
  have nowhere : locationOf? (parameter.get "in") = none := by
    rw [named.get_place, locationOf?_text, if_neg]
    simpa [isSupported] using unsupported
  rw [parameterOf, nowhere]
  simp only [named.get_name, named.get_place, checkWritable_text, lift_ok_bind, skipOf]
  rfl

/-- A parameter sent in a supported place is found under the name and the place of its object. -/
theorem pair_of_parameterOf {result : Option Parameter} (supported : isSupported parameter = true)
    (ran : (parameterOf convert method path parameter).run progress = (.ok result, final)) :
    ∃ made, result = some made ∧ made.pair = pairOf parameter := by
  rw [parameterOf, locationOf?_of_isSupported supported] at ran
  obtain ⟨schema, after, -, ran⟩ := Conversion.run_bind_eq_ok ran
  obtain ⟨type, after', -, ran⟩ := Conversion.run_bind_eq_ok ran
  cases ran
  refine ⟨_, rfl, Prod.ext rfl ?_⟩
  exact Location.name_ofName _

theorem converted_of_parametersOf {merged : List Value} {parameters : List Parameter}
    (named : ∀ parameter ∈ merged, IsNamed parameter)
    (ran : (parametersOf convert method path merged).run progress = (.ok parameters, final)) :
    Converted convert method path progress merged parameters final := by
  induction merged generalizing progress parameters with
  | nil =>
    cases ran
    exact .nil _
  | cons parameter rest ih =>
    rw [List.forall_mem_cons] at named
    obtain ⟨first, after, here, ran⟩ := Conversion.run_bind_eq_ok ran
    obtain ⟨further, last, later, ran⟩ := Conversion.run_bind_eq_ok ran
    cases ran
    cases supported : isSupported parameter with
    | true =>
      obtain ⟨made, rfl, -⟩ := pair_of_parameterOf supported here
      exact .taken supported here (ih named.2 later)
    | false =>
      cases here.symm.trans (run_parameterOf_unsupported named.1 supported)
      exact .skipped supported (ih named.2 later)

end

/-- Whether a conversion warns of no parameter that is left out. -/
def Tacit {α : Type} (conversion : Conversion α) : Prop :=
  ∀ progress, skips (conversion.run progress).2.warnings = skips progress.warnings

namespace Tacit

variable {α β : Type} {convert : Value → Conversion Shape}

theorem pure (a : α) : Tacit (pure a) := fun _ => rfl

theorem fail (failure : Failure) : Tacit (throw failure : Conversion α) := fun _ => rfl

theorem bind {first : Conversion α} {next : α → Conversion β} (here : Tacit first)
    (rest : ∀ a, Tacit (next a)) : Tacit (first >>= next) := by
  intro progress
  have same := here progress
  rcases ran : first.run progress with ⟨failure | a, after⟩
  · rw [ran] at same
    rwa [Conversion.run_bind_error ran]
  · rw [ran] at same
    rw [Conversion.run_bind_ok ran]
    exact (rest a after).trans same

theorem lift {result : Except Failure α} {next : α → Conversion β} (rest : ∀ a, Tacit (next a)) :
    Tacit ((liftM result : Conversion α) >>= next) := by
  cases result with
  | error failure => exact fail failure
  | ok a => exact rest a

theorem shapeOf (document schema : Value) : Tacit (shapeOf document schema) := by
  have steady : Steady document fun before after =>
      skips after.warnings = skips before.warnings :=
    { refl _ := rfl
      trans first second := second.trans first
      ignored progress name := by simp [skips, isSkip]
      settled := by
        intro _ _ _ _ _ _ target kept
        rcases ran : target with ⟨failure | shape, after⟩
        · rw [ran] at kept
          exact kept
        · rw [ran] at kept
          exact kept }
  exact steady.shapeAt _ [] schema

variable (converts : ∀ schema, Tacit (convert schema))

include converts

theorem parameterOf {method path : String} {parameter : Value}
    (supported : isSupported parameter = true) :
    Tacit (parameterOf convert method path parameter) := by
  rw [OpenApi.parameterOf, locationOf?_of_isSupported supported]
  exact lift fun schema => bind (converts schema) fun _ => pure _

theorem bodyOf (body : Value) : Tacit (bodyOf convert body) := by
  refine lift fun content => lift fun bytes => ?_
  split
  · exact pure _
  · refine lift fun schema => ?_
    split
    · exact pure _
    · exact bind (converts _) fun _ => pure _

theorem bodiesOf (document operation : Value) : Tacit (bodiesOf convert document operation) := by
  unfold OpenApi.bodiesOf
  split
  · exact pure _
  · exact lift fun body => bind (bodyOf converts body) fun _ => pure _

theorem responseShape (response : Value) : Tacit (responseShape convert response) := by
  refine lift fun direct => ?_
  split
  · split
    · exact bind (converts _) fun _ => pure _
    · exact fail _
  · refine lift fun content => ?_
    split
    · refine lift fun bytes => ?_
      split
      · exact pure _
      · refine lift fun schema => ?_
        split
        · exact pure _
        · exact bind (converts _) fun _ => pure _
    · exact pure _

theorem responsesOf (document : Value) (entries : List (Scalar × Value)) :
    Tacit (responsesOf convert document entries) := by
  induction entries with
  | nil => exact pure _
  | cons entry rest ih =>
    refine lift fun _ => lift fun response => bind ?_ fun _ => bind ih fun _ => pure _
    exact bind (responseShape converts response) fun _ => pure _

end Tacit

namespace Converted

variable {convert : Value → Conversion Shape} {method path : String} {progress final : Progress}
  {merged : List Value} {parameters : List Parameter}

theorem pairs (h : Converted convert method path progress merged parameters final) :
    parameters.map Parameter.pair =
      (merged.map pairOf).filter fun pair => supportedPlaces.contains pair.2 := by
  induction h with
  | nil => rfl
  | taken supported ran _ ih =>
    obtain ⟨made, same, pair⟩ := pair_of_parameterOf supported ran
    cases same
    rw [List.map_cons, List.map_cons, List.filter_cons, ih, pair]
    exact (if_pos supported).symm
  | skipped unsupported _ ih =>
    rw [List.map_cons, List.filter_cons, ih]
    exact (if_neg (ne_true_of_eq_false unsupported)).symm

theorem skips (converts : ∀ schema, Tacit (convert schema))
    (h : Converted convert method path progress merged parameters final) :
    skips final.warnings = skips progress.warnings ++
      (merged.filter (!isSupported ·)).map (skipOf method path) := by
  induction h with
  | nil => simp
  | @taken progress after _ parameter _ _ _ supported ran _ ih =>
    have same : OpenApi.skips after.warnings = OpenApi.skips progress.warnings := by
      have still : Tacit (parameterOf convert method path parameter) :=
        Tacit.parameterOf converts supported
      simpa only [ran] using still progress
    rw [ih, same, List.filter_cons_of_neg (by simp [supported])]
  | skipped unsupported _ ih =>
    rw [ih, List.filter_cons_of_pos (by simp [unsupported])]
    simp only [OpenApi.skips, List.filter_append, List.append_assoc, List.map_cons]
    rfl

end Converted

namespace IsMerged

variable {common own merged : List Value}

/-- A parameter that is listed by the operation too is the one that the operation lists last. -/
theorem own_wins (h : IsMerged (common ++ own) merged) {parameter : Value}
    (member : parameter ∈ merged) (again : pairOf parameter ∈ own.map pairOf) :
    ∃ before after, own = before ++ parameter :: after ∧
      pairOf parameter ∉ after.map pairOf := by
  obtain ⟨before, after, same, last⟩ := h.last parameter member
  rcases List.append_eq_append_iff.mp same with ⟨between, rfl, here⟩ | ⟨between, rfl, here⟩
  · exact ⟨between, after, here, last⟩
  · -- Were it listed by the path item only, the operation would list its pair after it.
    cases between with
    | nil => exact ⟨[], after, here.symm, last⟩
    | cons first between =>
      obtain ⟨rfl, rfl⟩ : parameter = first ∧ after = between ++ own := by simpa using here
      rw [List.map_append, List.mem_append] at last
      exact absurd (.inr again) last

/-- The parameters of the path item come first, each in its place. -/
theorem common_first (h : IsMerged (common ++ own) merged) :
    (common.map pairOf).eraseDups <+: merged.map pairOf := by
  rw [h.pairs, List.map_append, List.eraseDups_append]
  exact List.prefix_append _ _

end IsMerged

theorem location_of_bodyOf {convert : Value → Conversion Shape} {body : Value}
    {progress final : Progress} {made : Parameter}
    (ran : (bodyOf convert body).run progress = (.ok made, final)) : made.location = .body := by
  obtain ⟨content, -, ran⟩ := Conversion.run_lift_bind_eq_ok ran
  obtain ⟨bytes, -, ran⟩ := Conversion.run_lift_bind_eq_ok ran
  dsimp only at ran
  split at ran
  · cases ran
    rfl
  · obtain ⟨schema, -, ran⟩ := Conversion.run_lift_bind_eq_ok ran
    split at ran
    · cases ran
      rfl
    · obtain ⟨type, after, -, ran⟩ := Conversion.run_bind_eq_ok ran
      cases ran
      rfl

theorem locations_of_bodiesOf {convert : Value → Conversion Shape} {document operation : Value}
    {progress final : Progress} {body : List Parameter}
    (ran : (bodiesOf convert document operation).run progress = (.ok body, final)) :
    body.map Parameter.location =
      if (operation.get "requestBody").isNull then [] else [.body] := by
  unfold bodiesOf at ran
  split at ran
  next missing =>
    cases ran
    rw [missing]
    rfl
  next given =>
    obtain ⟨value, -, ran⟩ := Conversion.run_lift_bind_eq_ok ran
    obtain ⟨made, after, here, ran⟩ := Conversion.run_bind_eq_ok ran
    cases ran
    have present : (operation.get "requestBody").isNull = false := by
      unfold Value.isNull
      split
      next missing => exact absurd missing given
      next => rfl
    rw [present, List.map_singleton, location_of_bodyOf here]
    rfl

/-- What an operation has as its parameters, and what it warns of after them. -/
theorem parts_of_operationOf {convert : Value → Conversion Shape} {document operation : Value}
    {method path : String} {common : List Value} {made : Operation} {progress final : Progress}
    (converts : ∀ schema, Tacit (convert schema))
    (ran : (operationOf convert document method path operation common).run progress =
      (.ok made, final)) :
    ∃ own merged parameters body middle after,
      listedParameters document (operation.get? "parameters") = .ok own ∧
      mergeParameters (Text.upper method) path [] (common ++ own) = .ok merged ∧
      (parametersOf convert (Text.upper method) path (merged.map Prod.snd)).run progress =
        (.ok parameters, middle) ∧
      (bodiesOf convert document operation).run middle = (.ok body, after) ∧
      made.parameters = parameters ++ body ∧ skips final.warnings = skips after.warnings := by
  obtain ⟨tagged, -, ran⟩ := Conversion.run_lift_bind_eq_ok ran
  obtain ⟨own, listed, ran⟩ := Conversion.run_lift_bind_eq_ok ran
  obtain ⟨merged, merges, ran⟩ := Conversion.run_lift_bind_eq_ok ran
  obtain ⟨parameters, middle, first, ran⟩ := Conversion.run_bind_eq_ok ran
  obtain ⟨body, after, second, ran⟩ := Conversion.run_bind_eq_ok ran
  obtain ⟨entries, -, ran⟩ := Conversion.run_lift_bind_eq_ok ran
  have quiet := Tacit.responsesOf converts document entries after
  refine ⟨own, merged, parameters, body, middle, after, listed, merges, first, second, ?_⟩
  dsimp only at ran
  split at ran
  · rw [pure_bind] at ran
    obtain ⟨responses, last, third, ran⟩ := Conversion.run_bind_eq_ok ran
    cases ran
    exact ⟨rfl, by rwa [third] at quiet⟩
  · obtain ⟨summary, -, ran⟩ := Conversion.run_lift_bind_eq_ok ran
    obtain ⟨responses, last, third, ran⟩ := Conversion.run_bind_eq_ok ran
    cases ran
    exact ⟨rfl, by rwa [third] at quiet⟩

/-- A parameter of a given name, sent in a given place, with texts of a given format. -/
def formatted (name place format : String) : Value :=
  mapping [("name", .text name), ("in", .text place),
    ("schema", mapping [("type", .text "string"), ("format", .text format)])]

/-- An operation that lists the given parameters and has a body. -/
def sending (parameters : List Value) : Value :=
  mapping [("parameters", .list parameters), ("requestBody", mapping [])]

end OpenApi

end ApiBinding
