import ApiBinding.Proofs.Client.Partition
import ApiBinding.Proofs.MethodReference.Set

/-!
Which operations one reference names. Of each client it is one at most; operations of two clients
answer to one reference only where the class of one client goes by the tag of the other.
-/

namespace ApiBinding

open Identifier (ofRaw)

namespace MethodReference

/-- Whether the client of a reference is the class for one tag and is called like another tag. -/
def Crosses (reference : MethodReference) (settings : Settings) (tag other : String) : Prop :=
  reference.identifiers.1 = settings.clientName tag ∧
    other ≠ "" ∧ reference.identifiers.1 = ofRaw .type other

/-- The settings after one more method has been listed. A list of methods to wrap that is empty
stands for all methods, so that nothing can be added to it. -/
inductive Adds (reference : MethodReference) (settings : Settings) : Settings → Prop where
  | streamedResponse : Adds reference settings
      { settings with streamedResponses := insert reference settings.streamedResponses }
  | streamedRequest : Adds reference settings
      { settings with streamedRequests := insert reference settings.streamedRequests }
  | wrapped (some : settings.wrappedMethods ≠ []) : Adds reference settings
      { settings with wrappedMethods := insert reference settings.wrappedMethods }

end MethodReference

namespace Operation

variable {operation : Operation} {settings settings' : Settings} {reference : MethodReference}
  {references : List MethodReference}

/-- Whether a reference is among those that name the operation. -/
def AnswersTo (operation : Operation) (settings : Settings) (reference : MethodReference) : Prop :=
  ∃ names, operation.names settings = .ok names ∧ reference.identifiers ∈ names.pairs

theorem answersTo_iff :
    operation.AnswersTo settings reference ↔ operation.IsListed settings [reference] := by
  constructor
  · rintro ⟨names, named, among⟩
    rw [← lists_iff named]
    simpa [MethodReference.lists] using among
  · intro listed
    obtain ⟨_, _, raw, raw_eq, _⟩ := id listed
    have named : ∃ names, operation.names settings = .ok names := by
      rw [names, raw_eq]
      exact ⟨_, rfl⟩
    obtain ⟨names, named⟩ := named
    refine ⟨names, named, ?_⟩
    simpa [MethodReference.lists] using (lists_iff named).mpr listed

theorem isListed_insert :
    operation.IsListed settings (MethodReference.insert reference references) ↔
      operation.AnswersTo settings reference ∨ operation.IsListed settings references := by
  simp only [answersTo_iff, IsListed, MethodReference.mem_insert, List.mem_singleton, or_and_right,
    exists_or]

/-- The method of an operation hinges on what settings decide for it, and on nothing else of them
apart from the request factory. -/
theorem toMethod_congr (named : operation.names settings' = operation.names settings)
    (factory : settings'.useRequestFactory = settings.useRequestFactory)
    (decided : ∀ names, operation.names settings = .ok names →
      operation.streamsResponse settings' names = operation.streamsResponse settings names ∧
      wrapsResponse settings' names = wrapsResponse settings names ∧
      operation.streamsRequest settings' names = operation.streamsRequest settings names) :
    operation.toMethod settings' = operation.toMethod settings := by
  unfold toMethod
  rw [named]
  cases found : operation.names settings with
  | error failure => rfl
  | ok names =>
    obtain ⟨response, wraps, request⟩ := decided names found
    simp only [ok_bind, response, wraps, request, factory]

/-- An operation that does not answer to a reference has the same method when the reference is
listed. -/
theorem toMethod_of_adds (added : reference.Adds settings settings')
    (other : ¬operation.AnswersTo settings reference) :
    operation.toMethod settings' = operation.toMethod settings := by
  have same {names : Names} (named : operation.names settings = .ok names)
      (references : List MethodReference) :
      MethodReference.lists (MethodReference.insert reference references) names.pairs =
        MethodReference.lists references names.pairs := by
    rw [Bool.eq_iff_iff, lists_iff named, lists_iff named, isListed_insert, or_iff_right other]
  have filled (references : List MethodReference) :
      (MethodReference.insert reference references).isEmpty = false := by
    rw [List.isEmpty_eq_false_iff_exists_mem]
    exact ⟨reference, MethodReference.mem_insert.mpr (.inl rfl)⟩
  cases added with
  | streamedResponse =>
    refine toMethod_congr rfl rfl fun names named => ⟨?_, rfl, rfl⟩
    rw [streamsResponse, streamsResponse, same named]
  | streamedRequest =>
    refine toMethod_congr rfl rfl fun names named => ⟨rfl, rfl, ?_⟩
    rw [streamsRequest, streamsRequest, same named]
  | wrapped some =>
    refine toMethod_congr rfl rfl fun names named => ⟨rfl, ?_, rfl⟩
    rw [wrapsResponse, wrapsResponse, same named, filled, List.isEmpty_eq_false_iff.mpr some]

end Operation

namespace Client

variable {description : Description} {settings : Settings} {members : List Member}
  {clients : List Client} {taken : NameTable}

theorem clientName_of_type {tag other : String} (tagged : tag ≠ "") (otherTagged : other ≠ "")
    (same : ofRaw .type tag = ofRaw .type other) :
    settings.clientName tag = settings.clientName other := by
  unfold Settings.clientName Settings.clientNameFor
  rw [if_neg tagged, if_neg otherTagged, same]

theorem Built.clientName_ne (built : Built description settings members clients taken)
    (regular : ∀ operation ∈ description.operations, Text.IsRegular operation.tag)
    {first second : Operation} (hf : first ∈ description.operations)
    (hs : second ∈ description.operations) (apart : first.tag ≠ second.tag) :
    settings.clientName first.tag ≠ settings.clientName second.tag := by
  intro same
  have here : GoesBy settings first.tag (settings.clientName first.tag) := .inl rfl
  have there : GoesBy settings second.tag (settings.clientName first.tag) := .inl same
  exact apart (built.tag_eq_of_goesBy regular hf hs here there)

/-- Two operations that answer to one reference are of different clients, of which one has a class
that is called like the tag of the other. -/
theorem Built.crosses (built : Built description settings members clients taken)
    (regular : ∀ operation ∈ description.operations, Text.IsRegular operation.tag)
    {reference : MethodReference} {first second : Operation}
    (pair : [first, second].Sublist description.operations)
    (answers : first.AnswersTo settings reference)
    (answers' : second.AnswersTo settings reference) :
    first.tag ≠ second.tag ∧ (reference.Crosses settings first.tag second.tag ∨
      reference.Crosses settings second.tag first.tag) := by
  obtain ⟨_, only, a, ha, method, client⟩ := Operation.answersTo_iff.mp answers
  obtain rfl := List.mem_singleton.mp only
  obtain ⟨_, only, b, hb, method', client'⟩ := Operation.answersTo_iff.mp answers'
  obtain rfl := List.mem_singleton.mp only
  have apart : first.tag ≠ second.tag := by
    intro same
    exact built.not_hasTwins ⟨first, second, pair, same, a, b, ha, hb, method.symm.trans method'⟩
  have classes := built.clientName_ne regular (pair.subset (by simp)) (pair.subset (by simp)) apart
  refine ⟨apart, ?_⟩
  rcases client with by_class | ⟨tagged, by_tag⟩
  · rcases client' with by_class' | ⟨tagged', by_tag'⟩
    · exact absurd (by_class.symm.trans by_class') classes
    · exact .inl ⟨by_class, tagged', by_tag'⟩
  · rcases client' with by_class' | ⟨tagged', by_tag'⟩
    · exact .inr ⟨by_class', tagged, by_tag⟩
    · exact absurd (clientName_of_type tagged tagged' (by_tag.symm.trans by_tag')) classes

/-- A reference has one class and one tag at most, so it cannot cross three clients. -/
theorem Built.not_answered_thrice (built : Built description settings members clients taken)
    (regular : ∀ operation ∈ description.operations, Text.IsRegular operation.tag)
    {reference : MethodReference} {first second third : Operation}
    (triple : [first, second, third].Sublist description.operations) :
    ¬(first.AnswersTo settings reference ∧ second.AnswersTo settings reference ∧
      third.AnswersTo settings reference) := by
  rintro ⟨answers, answers', answers''⟩
  have front : [first, second].Sublist [first, second, third] :=
    List.sublist_append_left [first, second] [third]
  have ends : [first, third].Sublist [first, second, third] :=
    ((List.Sublist.refl [third]).cons second).cons_cons first
  have back : [second, third].Sublist [first, second, third] :=
    List.sublist_append_right [first] [second, third]
  have hf : first ∈ description.operations := triple.subset (by simp)
  have hs : second ∈ description.operations := triple.subset (by simp)
  have ht : third ∈ description.operations := triple.subset (by simp)
  obtain ⟨_, crossed⟩ := built.crosses regular (front.trans triple) answers answers'
  obtain ⟨apart, crossed'⟩ := built.crosses regular (ends.trans triple) answers answers''
  obtain ⟨apart', crossed''⟩ := built.crosses regular (back.trans triple) answers' answers''
  have classes := built.clientName_ne regular hf ht apart
  have classes' := built.clientName_ne regular hs ht apart'
  -- The third goes by its class or by its tag, as one of the others does.
  rcases crossed with ⟨class₁, tagged₂, tag₂⟩ | ⟨class₂, tagged₁, tag₁⟩
  · rcases crossed' with ⟨_, tagged₃, tag₃⟩ | ⟨class₃, _⟩
    · exact classes' (clientName_of_type tagged₂ tagged₃ (tag₂.symm.trans tag₃))
    · exact classes (class₁.symm.trans class₃)
  · rcases crossed'' with ⟨_, tagged₃, tag₃⟩ | ⟨class₃, _⟩
    · exact classes (clientName_of_type tagged₁ tagged₃ (tag₁.symm.trans tag₃))
    · exact classes' (class₂.symm.trans class₃)

/-- Where clients come out, operations that answer to one reference are at most two, and two only if
the class of one client is called like the tag of the other. The methods of all other operations stay
as they are when the reference is listed. -/
theorem answering_operations (description : Description) (settings : Settings)
    (regular : ∀ operation ∈ description.operations, Text.IsRegular operation.tag)
    {before : Option Nat} {clients : List Client}
    (made : (ofDescription description settings before).result = .ok clients)
    (reference : MethodReference) :
    (∀ first second, [first, second].Sublist description.operations →
      first.AnswersTo settings reference → second.AnswersTo settings reference →
      first.tag ≠ second.tag ∧ (reference.Crosses settings first.tag second.tag ∨
        reference.Crosses settings second.tag first.tag)) ∧
    (∀ first second third, [first, second, third].Sublist description.operations →
      ¬(first.AnswersTo settings reference ∧ second.AnswersTo settings reference ∧
        third.AnswersTo settings reference)) ∧
    ∀ settings', reference.Adds settings settings' → ∀ operation ∈ description.operations,
      ¬operation.AnswersTo settings reference →
        operation.toMethod settings' = operation.toMethod settings := by
  obtain ⟨members, taken, built⟩ := built_of_ofDescription made
  refine ⟨?_, ?_, ?_⟩
  · intro first second pair answers answers'
    exact built.crosses regular pair answers answers'
  · intro first second third triple
    exact built.not_answered_thrice regular triple
  · intro settings' added operation _ other
    exact Operation.toMethod_of_adds added other

/-- The operation of a tag that answers with a list of texts. -/
def listing (tag : String) : Operation :=
  .answering tag "List" [("200", .array (.primitive .string false) false true)]

/-- The class for `Bar` is called like the other tag. -/
def barBesideClient : Description where
  operations := [listing "Bar", listing "BarClient"]

theorem answering_operations_crossed :
    ("Bar" ≠ "BarClient" ∧
      (MethodReference.Crosses ⟨"BarClient", "List"⟩ .standard "Bar" "BarClient" ∨
        MethodReference.Crosses ⟨"BarClient", "List"⟩ .standard "BarClient" "Bar")) ∧
    (listing "Bar").toMethod
        { Settings.standard with streamedResponses := [⟨"BarClientClient", "List"⟩] } =
      (listing "Bar").toMethod .standard := by
  have regular : ∀ operation ∈ barBesideClient.operations, Text.IsRegular operation.tag := by
    decide +kernel
  have built : (ofDescription barBesideClient .standard).result.isOk = true := by decide +kernel
  obtain ⟨clients, made⟩ := exists_eq_ok built
  have pair : [listing "Bar", listing "BarClient"].Sublist barBesideClient.operations :=
    List.Sublist.refl _
  have answers : (listing "Bar").AnswersTo .standard ⟨"BarClient", "List"⟩ :=
    ⟨_, rfl, by decide +kernel⟩
  have answers' : (listing "BarClient").AnswersTo .standard ⟨"BarClient", "List"⟩ :=
    ⟨_, rfl, by decide +kernel⟩
  have other : ¬(listing "Bar").AnswersTo .standard ⟨"BarClientClient", "List"⟩ := by
    rintro ⟨names, named, among⟩
    cases named
    exact absurd among (by decide +kernel)
  constructor
  · exact (answering_operations _ _ regular made ⟨"BarClient", "List"⟩).1 _ _ pair answers answers'
  · exact (answering_operations _ _ regular made ⟨"BarClientClient", "List"⟩).2.2 _
      .streamedResponse _ (pair.subset (by simp)) other

def streamingBarClient : Settings :=
  { Settings.standard with streamedResponses := [⟨"BarClient", "List"⟩] }

/-- Two operations answer to the reference that names a class for one and the tag of the other, and
both are streamed when it is listed. -/
theorem reference_answered_twice :
    ∃ plain streamed, (ofDescription barBesideClient .standard).result = .ok plain ∧
      (ofDescription barBesideClient streamingBarClient).result = .ok streamed ∧
      (∀ operation ∈ barBesideClient.operations,
        operation.AnswersTo streamingBarClient ⟨"BarClient", "List"⟩) ∧
      (plain.flatMap methods).map Method.responseMode = [.plain, .plain] ∧
      (streamed.flatMap methods).map Method.responseMode = [.streamed, .streamed] := by
  have modes (settings : Settings) (expected : List ResponseMode)
      (h : ((ofDescription barBesideClient settings).result.map fun clients =>
        (clients.flatMap methods).map Method.responseMode) = .ok expected) :
      ∃ clients, (ofDescription barBesideClient settings).result = .ok clients ∧
        (clients.flatMap methods).map Method.responseMode = expected := map_eq_ok.mp h
  obtain ⟨plain, made, whole⟩ := modes .standard [.plain, .plain] (by decide +kernel)
  obtain ⟨streamed, made', itemwise⟩ :=
    modes streamingBarClient [.streamed, .streamed] (by decide +kernel)
  refine ⟨plain, streamed, made, made', ?_, whole, itemwise⟩
  rw [barBesideClient, List.forall_mem_cons, List.forall_mem_singleton]
  exact ⟨⟨_, rfl, by decide +kernel⟩, ⟨_, rfl, by decide +kernel⟩⟩

end Client

end ApiBinding
