import ApiBinding.Generation
import ApiBinding.Proofs.Module.Models
import ApiBinding.Proofs.OpenApi.Enumeration

/-!
Enumerations in modules. The hint of one without a name lists its members, unless it has none; one
with a name is declared with its members, also if it has none.
-/

namespace ApiBinding

open Identifier (ofRaw)
open TypeHint (SpelledAmong)
open Declaration (MadeFrom ofMeeting)

/-- Whether all shapes under the identifier of a name are enumerations of that name with the given
values. -/
def Description.Owns (description : Description) (source : String) (values : List Value) : Prop :=
  ∀ shape other, description.Reaches shape → shape.declaredName? = some other →
    ofRaw .type other = ofRaw .type source →
    other = source ∧ ∃ title nullable, shape = .enumeration title values nullable

namespace Module

/-- Whether enumerations are listed only as what they are: by hints where they have no name, and by
declarations where they have one. -/
structure ListsEnumerations (description : Description) (clients : List Client) : Prop where
  hinted : ∀ hint ∈ hints clients, ∀ members ∈ hint.literals,
    SpelledAmong description.Reaches members
  filled : ∀ hint ∈ hints clients, [] ∉ hint.literals
  declared : ∀ d ∈ declared clients, ∀ members, d.body = .enumeration members →
    ∃ title values nullable, description.Reaches (.enumeration title values nullable) ∧
      Shape.label? title = some d.source ∧ members = Entries.distinct Value.same values
  empty : ∀ d ∈ Module.declared clients, d.body = .enumeration [] →
    ∃ title nullable, description.Reaches (.enumeration title [] nullable) ∧
      Shape.label? title = some d.source
  named : ∀ source values, description.Owns source values →
    ∀ hint ∈ hints clients, ofRaw .type source ∈ hint.modelNames →
    ∀ d, d ∈ Module.declared clients ∧ d.name = ofRaw .type source ↔
      d = ⟨ofRaw .type source, source, .enumeration (Entries.distinct Value.same values)⟩

variable {description : Description} {settings : Settings} {before : Option Nat} {text : String}
  {clients : List Client}

theorem spelled_of_mem_hints
    (built : (Client.ofDescription description settings before).result = .ok clients)
    {hint : TypeHint} (hh : hint ∈ hints clients) {members : List Value}
    (hm : members ∈ hint.literals) : SpelledAmong description.Reaches members := by
  rcases mem_hints.mp hh with ⟨client, hc, method, hmethod, hh⟩ | ⟨d, hd, hh⟩
  · obtain ⟨operation, ho, made, _⟩ := exists_operation_of_shown built hc hmethod
    have used := Operation.uses_of_mem_hints made hh
    exact (used.spelled members hm).imp fun _ reached => ⟨operation, ho, reached⟩
  · obtain ⟨shape, ⟨operation, ho, root, hroot, reached⟩, named, made⟩ := made_of_declared built hd
    obtain ⟨_, _, describes⟩ := Declaration.ofMeeting_eq_ok made
    exact (describes.spelled named hh members hm).imp fun _ inside =>
      ⟨operation, ho, root, hroot, reached.trans inside⟩

/-- What is declared under a name that stands for one enumeration only is that enumeration. -/
theorem eq_of_owns {source : String} {values : List Value} (owns : description.Owns source values)
    {d : Declaration} (made : MadeFrom description.Reaches d) (same : d.name = ofRaw .type source) :
    d = ⟨ofRaw .type source, source, .enumeration (Entries.distinct Value.same values)⟩ := by
  obtain ⟨shape, reached, named, meeting⟩ := made
  obtain ⟨name, _, _⟩ := Declaration.ofMeeting_eq_ok meeting
  obtain ⟨only, title, nullable, rfl⟩ := owns shape d.source reached named (name.symm.trans same)
  rw [only, ofMeeting, Declaration.ofEnumeration] at meeting
  split at meeting
  · exact (Except.ok.inj meeting).symm
  · cases meeting

theorem reached_of_declared
    (built : (Client.ofDescription description settings before).result = .ok clients)
    {d : Declaration} (hd : d ∈ declared clients) {members : List Value}
    (body : d.body = .enumeration members) :
    ∃ title values nullable, description.Reaches (.enumeration title values nullable) ∧
      Shape.label? title = some d.source ∧ members = Entries.distinct Value.same values := by
  obtain ⟨shape, reached, named, meeting⟩ := made_of_declared built hd
  obtain ⟨title, values, nullable, rfl, listed⟩ :=
    Declaration.enumeration_of_ofMeeting meeting body
  exact ⟨title, values, nullable, reached, named, listed⟩

theorem listsEnumerations
    (built : (Client.ofDescription description settings before).result = .ok clients) :
    ListsEnumerations description clients where
  hinted _ hh _ hm := spelled_of_mem_hints built hh hm
  filled _ hh hm := (spelled_of_mem_hints built hh hm).ne_nil rfl
  declared _ hd _ body := reached_of_declared built hd body
  empty d hd body := by
    obtain ⟨title, values, nullable, reached, label, listed⟩ := reached_of_declared built hd body
    obtain rfl := Entries.distinct_eq_nil.mp listed.symm
    exact ⟨title, nullable, reached, label⟩
  named source values owns hint hh mentioned d := by
    have all := declared_of_mem_hints built hh _ mentioned
    obtain ⟨e, he, same⟩ := List.mem_map.mp all
    have only := eq_of_owns owns (made_of_declared built he) same
    constructor
    · rintro ⟨hd, same⟩
      exact eq_of_owns owns (made_of_declared built hd) same
    · rintro rfl
      exact ⟨only ▸ he, rfl⟩

open OpenApi in
/-- What stands for a schema that lists scalars is converted to an enumeration of its values apart
from null, which may be null if null is listed or allowed on the way. Without a name its hint lists
these once each, or may be anything if there are none. With a name it is declared by the list, even
where that is empty. -/
theorem enumerations_spelled {document schema : Value} {values : List Value}
    (enumerates : Enumerates schema values) :
    (allowsNullAmong schema values = true ↔ SaysNull schema ∨ .null ∈ values) ∧
    Value.Lists (Entries.distinct Value.same (present values)) (present values) ∧
    (∀ referrer n title nullable progress,
      document.isFinite = true → referrer.isFinite = true →
      StandsFor document schema n (.schema referrer) title nullable →
      Passed document (IsOther document schema) progress →
      ConvertsTo document referrer progress
        (.enumeration title (present values) (nullable || allowsNullAmong schema values))) ∧
    (∀ title context nullable, Shape.label? title = none →
      TypeHint.ofShape? context (.enumeration title (present values) nullable) =
        .ok (if present values = [] then .any nullable
          else .literal (Entries.distinct Value.same (present values)) nullable)) ∧
    (∀ title source context nullable, Shape.label? title = some source →
      TypeHint.ofShape? context (.enumeration title (present values) nullable) =
        .ok (.named (ofRaw .type source) true nullable)) ∧
    ∀ (description : Description) (settings : Settings) (before : Option Nat) (text : String),
      (generate description settings before).result = .ok text →
      ∃ clients dialect blocks, Rendered description settings before text clients dialect blocks ∧
        ListsEnumerations description clients := by
  refine ⟨allowsNullAmong_iff, Value.lists_distinct enumerates.scalars_present, ?_, ?_, ?_, ?_⟩
  · intro referrer n title nullable progress finite finiteReferrer stands passed
    exact enumerates.converts finite finiteReferrer stands passed
  · intro title context nullable label
    have fixed : (present values).all Value.isFixed = true := by
      rw [List.all_eq_true]
      intro v hv
      obtain ⟨s, rfl, _⟩ := enumerates.scalars_present v hv
      rfl
    rw [TypeHint.ofShape?, if_pos (by simp [TypeHint.canSpell, fixed]), TypeHint.ofShape, label]
    by_cases empty : present values = [] <;> simp [empty]
  · intro title source context nullable label
    have named : (Shape.enumeration title (present values) nullable).declaredName? =
        some source := label
    exact ofShape?_of_declaredName? named context
  · intro description settings before text h
    obtain ⟨clients, dialect, blocks, rendered⟩ := rendered_of_generate h
    exact ⟨clients, dialect, blocks, rendered, listsEnumerations rendered.built⟩

open OpenApi

def fruit : Value :=
  mapping [("enum", .list [.text "apple", .null, .text "pear", .text "apple"])]

def fruits : Value := withSchemas [("Fruit", fruit)]

theorem fruit_of_referenced {other : String} {target : Value}
    (named : namedSchema? other = some "Fruit") (found : referenced fruits other = .ok target) :
    target = fruit := by
  obtain ⟨place, known, leads⟩ := follow?_of_named named found
  simp only [schemaKeys, List.mem_cons, List.not_mem_nil, or_false] at known
  rcases known with rfl | rfl
  · exact (Option.some.inj leads).symm
  · cases leads

theorem fruit_of_enters {other : String} {later : Place}
    (named : namedSchema? other = some "Fruit") (enters : Enters fruits other "Fruit" later) :
    later = .inline fruit (some "Fruit") := by
  cases enters with
  | onward found refers =>
    rw [fruit_of_referenced named found] at refers
    cases refers
  | target found => rw [fruit_of_referenced named found]

theorem fruit_standsFor :
    StandsFor fruits fruit 1 (.schema (referTo "Fruit")) (some "Fruit") false := by
  have named : namedSchema? "#/components/schemas/Fruit" = some "Fruit" := by decide +kernel
  obtain ⟨target, found⟩ :
      ∃ target, referenced fruits "#/components/schemas/Fruit" = .ok target :=
    exists_eq_ok (by decide +kernel)
  obtain rfl := fruit_of_referenced named found
  refine .refers rfl rfl (.enter named (fun _ _ => fruit_of_enters) ?_ (.here _))
  exact .target found rfl rfl

/-- A list with null and with a value that comes twice, met through a reference. -/
theorem fruit_spelled :
    ∃ clients shape, ConvertsTo fruits (referTo "Fruit") {} shape ∧ shape.nullable = true ∧
      (Client.ofDescription
        { operations := [.answering "First" "GetFruit" [("200", shape)]] } .standard).result =
          .ok clients ∧
      ∀ d, d ∈ declared clients ∧ d.name = "Fruit" ↔
        d = ⟨"Fruit", "Fruit", .enumeration [.text "apple", .text "pear"]⟩ := by
  have enumerates : Enumerates fruit [.text "apple", .null, .text "pear", .text "apple"] := by
    refine ⟨rfl, rfl, rfl, rfl, by simp, fun v hv => ?_⟩
    simp only [List.mem_cons, List.not_mem_nil, or_false] at hv
    rcases hv with rfl | rfl | rfl | rfl <;> exact ⟨_, rfl, trivial⟩
  obtain ⟨null, _, converts, _, _, spelled⟩ := @enumerations_spelled fruits fruit _ enumerates
  have converted := converts (referTo "Fruit") 1 (some "Fruit") false {} (by decide +kernel)
    (by decide +kernel) fruit_standsFor .start
  have nullable := null.mpr (.inr (by simp))
  rw [nullable] at converted
  generalize hshape : Shape.enumeration (some "Fruit") _ _ = shape at converted
  obtain ⟨description, hd⟩ : ∃ description : Description, description =
    { operations := [.answering "First" "GetFruit" [("200", shape)]] } := ⟨_, rfl⟩
  obtain ⟨text, h⟩ : ∃ text, (generate description .standard).result = .ok text :=
    exists_eq_ok (by rw [hd, ← hshape]; decide +kernel)
  obtain ⟨clients, _, _, rendered, lists⟩ := spelled description .standard none text h
  have identifier : ofRaw .type "Fruit" = "Fruit" := by decide +kernel
  have owns : description.Owns "Fruit" [.text "apple", .text "pear", .text "apple"] := by
    rintro other source ⟨operation, ho, reached⟩ named _
    have only : other = shape := by
      refine Operation.Reaches.of_closed (motive := fun other => other = shape) ?_ ?_ reached
      · rw [hd] at ho
        obtain rfl := List.mem_singleton.mp ho
        simp
      · rintro _ rfl part hp
        rw [← hshape] at hp
        cases hp
    subst only
    rw [← hshape] at named ⊢
    exact ⟨(Option.some.inj named).symm, _, _, rfl⟩
  obtain ⟨hint, hh, mentioned⟩ : ∃ hint ∈ hints clients, "Fruit" ∈ hint.modelNames := by
    have seen : ((Client.ofDescription description .standard).result.map fun clients =>
        (hints clients).any fun hint => hint.modelNames.contains "Fruit") = .ok true := by
      rw [hd, ← hshape]
      decide +kernel
    rw [rendered.built] at seen
    simpa using Except.ok.inj seen
  have named := lists.named "Fruit" _ owns hint hh (identifier ▸ mentioned)
  rw [identifier] at named
  exact ⟨clients, shape, converted, by rw [← hshape]; rfl, hd ▸ rendered.built, named⟩

def nothing : Value := mapping [("enum", .list [.null])]

/-- A document in which an operation answers with a reference to the schema. -/
def answeringWith (name : String) (schema : Value) : Value :=
  mapping [("openapi", .text "3.0.0"),
    ("paths", mapping [("/ping", mapping [("get", mapping [("operationId", .text "Ping"),
      ("responses", mapping [("200", mapping [("description", .text "ok"),
        ("content", mapping [("application/json", mapping [("schema", referTo name)])])])])])])]),
    ("components", mapping [("schemas", mapping [(name, schema)])])]

/-- Where null is all that a schema with a name lists, its declaration lists nothing. -/
theorem nothing_listed_empty :
    Enumerates nothing [.null] ∧ present [.null] = [] ∧
    (generateFromDocument (answeringWith "Nothing" nothing) []).result.isOk = true ∧
    ((describeDocument (answeringWith "Nothing" nothing)).result.bind fun description =>
      (Client.ofDescription description .standard).result.map fun clients =>
        (declared clients).flatMap Declaration.lines) = .ok ["Nothing = Literal[]", "", ""] := by
  refine ⟨⟨rfl, rfl, rfl, rfl, by simp, ?_⟩, rfl, by decide +kernel, by decide +kernel⟩
  intro v hv
  exact ⟨.null, List.mem_singleton.mp hv, trivial⟩

end Module

end ApiBinding
