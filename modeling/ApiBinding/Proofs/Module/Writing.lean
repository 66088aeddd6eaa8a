import ApiBinding.Module
import ApiBinding.Proofs.Client.NameClash
import ApiBinding.Proofs.Code.Client
import ApiBinding.Proofs.Dialect
import ApiBinding.Proofs.Method.Writing

/-!
In what a whole run can end: in the text of a module, in the collision of two names, or in a numeral
that cannot be read. Which of them it is, is settled by the names, the statuses and the version.
-/

namespace ApiBinding

open StatusTest (IsReadable)

/-- Whether a value is a scalar of which a literal can be written. -/
def Value.IsLiteral (v : Value) : Prop := ∃ s, v = .scalar s ∧ s.isWritable = true

/-- Whether the parts of an operation are of the kinds that are meant for them: names are texts,
free text may be left out, defaults and members of enumerations are scalars. -/
structure Operation.IsPlain (operation : Operation) : Prop where
  name : ∃ s, operation.name = .text s
  summary : operation.summary.IsProse
  parameters : ∀ parameter ∈ operation.parameters,
    (∃ s, parameter.name = .text s) ∧ parameter.default.IsLiteral
  responses : ∀ response ∈ operation.responses, response.description.IsProse
  fields : ∀ name fields additional nullable,
    operation.Reaches (.object name fields additional nullable) →
      ∀ field ∈ fields, ∃ s, field.name = .text s
  members : ∀ name members nullable, operation.Reaches (.enumeration name members nullable) →
    ∀ member ∈ members, member.IsLiteral

theorem Operation.IsPlain.isTyped {operation : Operation} (plain : operation.IsPlain) :
    operation.IsTyped where
  name := plain.name
  parameters parameter h := (plain.parameters parameter h).1
  members name members nullable h := by
    rw [List.all_eq_true]
    intro member given
    obtain ⟨s, rfl, _⟩ := plain.members name members nullable h member given
    rfl

theorem Code.builtPart_hingesOn {failure : Failure} {p : Prop} (builds : Bool)
    {written : Except Failure (List String)} (h : HingesOn failure p written) :
    HingesOn failure (builds = true → p) (builtPart builds written) := by
  unfold builtPart
  cases builds with
  | true => exact h.map.congr (by simp)
  | false => exact (HingesOn.of_ok _).congr (by simp)

namespace Client

variable {client : Client}

theorem exists_interfaceLines (prose : ∀ method ∈ client.methods, method.summary.IsProse)
    (dialect : Dialect) : ∃ lines, client.interfaceLines dialect = .ok lines := by
  have each : HingesOn (.misuse .numeral) (∀ method ∈ client.methods, True)
      (client.methods.mapM fun method => method.interfaceLines dialect) := by
    refine HingesOn.mapM _ fun method given => ?_
    obtain ⟨lines, written⟩ := Method.exists_interfaceLines (prose method given) dialect
    exact written ▸ HingesOn.of_ok lines
  obtain ⟨blocks, written⟩ := each.ok fun _ _ => trivial
  exact ⟨_, by rw [interfaceLines, written]; rfl⟩

theorem classLines_hingesOn (prose : ∀ method ∈ client.methods, method.summary.IsProse)
    (dialect : Dialect) :
    HingesOn (.misuse .numeral) (∀ method ∈ client.methods, method.IsReadable)
      (client.classLines dialect) := by
  have each := HingesOn.mapM client.methods fun method given =>
    Method.lines_hingesOn (prose method given) dialect client.buildsInterface
  exact each.finish fun _ => ⟨_, rfl⟩

/-- Statuses are read where classes are written, whether the classes are shown or not. -/
theorem blocks_hingesOn (prose : ∀ method ∈ client.methods, method.summary.IsProse)
    (dialect : Dialect) :
    HingesOn (.misuse .numeral)
      (client.buildsClass = true → ∀ method ∈ client.methods, method.IsReadable)
      (client.blocks dialect) := by
  obtain ⟨lines, interfaced⟩ := exists_interfaceLines prose dialect
  rw [Code.blocks_eq, interfaced]
  have interfaces : HingesOn (Failure.misuse .numeral) _ _ :=
    Code.builtPart_hingesOn client.buildsInterface (HingesOn.of_ok lines)
  have classes := Code.builtPart_hingesOn client.buildsClass (classLines_hingesOn prose dialect)
  refine (interfaces.bind fun _ _ => classes.finish fun _ => ⟨_, rfl⟩).congr ?_
  exact and_iff_right fun _ => trivial

end Client

namespace Module

open Client (ofDescription)

variable {description : Description} {settings : Settings}

/-- Whether the version and, as far as classes are built, the statuses can be read. -/
structure IsWritable (description : Description) (settings : Settings) : Prop where
  version : settings.minorDigits.length ≤ Numeral.digitLimit
  statuses : settings.generateClasses = true → ∀ operation ∈ description.operations,
    ∀ response ∈ operation.responses, IsReadable response.statusKey

theorem render_hingesOn {clients : List Client} (valid : settings.checked = .ok settings)
    (prose : ∀ client ∈ clients, ∀ method ∈ client.methods, method.summary.IsProse) :
    HingesOn (.misuse .numeral)
      (settings.minorDigits.length ≤ Numeral.digitLimit ∧
        ∀ client ∈ clients, client.buildsClass = true →
          ∀ method ∈ client.methods, method.IsReadable)
      (render clients settings) := by
  have blocks (dialect : Dialect) := HingesOn.mapM clients fun client given =>
    Client.blocks_hingesOn (prose client given) dialect
  refine HingesOn.finish ?_ fun _ => ⟨_, rfl⟩
  unfold parts
  exact (Settings.dialect_hingesOn valid).bind fun dialect _ =>
    (blocks dialect).finish fun _ => ⟨_, rfl⟩

/-- The statuses of clients whose classes are built are those of all responses. -/
theorem readable_clients {clients : List Client}
    (made : (ofDescription description settings).result = .ok clients) :
    (∀ client ∈ clients, client.buildsClass = true →
        ∀ method ∈ client.methods, method.IsReadable) ↔
      (settings.generateClasses = true → ∀ operation ∈ description.operations,
        ∀ response ∈ operation.responses, IsReadable response.statusKey) := by
  have builds : ∀ client ∈ clients, client.buildsClass = settings.generateClasses := by
    obtain ⟨members, taken, built⟩ := Client.built_of_ofDescription made
    rw [built.clients_eq]
    intro client given
    obtain ⟨tag, _, rfl⟩ := List.mem_map.mp given
    rfl
  constructor
  · intro each on operation ho
    obtain ⟨client, hclient, method, hmethod, gives⟩ := exists_method_of_mem_operations made ho
    refine (Operation.readable_iff gives).mp (each client hclient ?_ method hmethod)
    rw [builds client hclient, on]
  · intro each client hclient on method hmethod
    obtain ⟨operation, ho, gives⟩ := exists_operation_of_mem_methods made hclient hmethod
    refine (Operation.readable_iff gives).mpr (each ?_ operation ho)
    rw [← builds client hclient, on]

theorem prose_of_made {clients : List Client}
    (made : (ofDescription description settings).result = .ok clients)
    (plain : ∀ operation ∈ description.operations, operation.IsPlain) :
    ∀ client ∈ clients, ∀ method ∈ client.methods, method.summary.IsProse := by
  intro client hclient method hmethod
  obtain ⟨operation, ho, gives⟩ := exists_operation_of_mem_methods made hclient hmethod
  rw [Operation.summary_of_toMethod gives]
  exact (plain operation ho).summary

theorem generate_hingesOn {clients : List Client} (valid : settings.checked = .ok settings)
    (plain : ∀ operation ∈ description.operations, operation.IsPlain)
    (made : (ofDescription description settings).result = .ok clients) :
    HingesOn (.misuse .numeral) (IsWritable description settings)
      (generate description settings).result := by
  have rendered := render_hingesOn valid (prose_of_made made plain)
  rw [readable_clients made] at rendered
  rw [generate, made]
  refine rendered.congr ⟨fun both => ⟨both.1, both.2⟩, fun writable => ?_⟩
  exact ⟨writable.version, writable.statuses⟩

/-- A run that is not cancelled is refused for the collision of two names, and for nothing else as
long as its clients are built. With the clients there, its text comes out exactly if the version and
the statuses of the responses can be read; otherwise it fails for a numeral. -/
theorem collision_or_text_if_writable (valid : settings.checked = .ok settings)
    (plain : ∀ operation ∈ description.operations, operation.IsPlain) :
    (∀ failure, (ofDescription description settings).result = .error failure →
      (∃ scope name first second, failure = .collision scope name first second) ∧
        (generate description settings).result = .error failure) ∧
    ∀ clients, (ofDescription description settings).result = .ok clients →
      HingesOn (.misuse .numeral) (IsWritable description settings)
        (generate description settings).result := by
  refine ⟨fun failure refused => ⟨?_, ?_⟩, fun clients made => generate_hingesOn valid plain made⟩
  · exact Client.collision_of_error (fun operation h => (plain operation h).isTyped) refused
  · rw [generate, refused]
    rfl

/-- An operation that answers with the given statuses, without content. -/
def pinging (statuses : List String) : Operation where
  tag := "Pet"
  name := .text "Ping"
  method := "get"
  path := "/ping"
  responses := statuses.map fun status => { status }

theorem isPlain_pinging (statuses : List String) : (pinging statuses).IsPlain := by
  have empty {shape : Shape} : ¬(pinging statuses).Reaches shape := by
    rintro ⟨root, member, _⟩
    have none : (pinging statuses).shapes = [] := by
      show (statuses.map _).filterMap Response.type = []
      simp
    simp [none] at member
  refine ⟨⟨"Ping", rfl⟩, .inl rfl, by simp [pinging], fun response member => ?_,
    fun _ _ _ _ reached => absurd reached empty, fun _ _ _ reached => absurd reached empty⟩
  obtain ⟨status, _, rfl⟩ := List.mem_map.mp member
  exact .inl rfl

def describingPing (statuses : List String) : Description where
  operations := [pinging statuses]

theorem isPlain_of_describingPing {statuses : List String} :
    ∀ operation ∈ (describingPing statuses).operations, operation.IsPlain := by
  rintro _ (_ | ⟨_, ⟨⟩⟩)
  exact isPlain_pinging statuses

theorem collision_or_text_if_writable_ping :
    ∃ text, (generate (describingPing ["204", "4XX", "default"]) .standard).result = .ok text := by
  have built : (ofDescription (describingPing ["204", "4XX", "default"]) .standard).result.isOk =
      true := by decide +kernel
  obtain ⟨clients, made⟩ := exists_eq_ok built
  have hinges := (collision_or_text_if_writable rfl isPlain_of_describingPing).2 clients made
  exact hinges.ok ⟨by decide +kernel, fun _ => by decide +kernel⟩

/-- An extension key among the responses goes through as a status until the class is written. -/
theorem extension_status_unreadable :
    Settings.standard.checked = .ok .standard ∧
      (∀ operation ∈ (describingPing ["204", "x-internal"]).operations, operation.IsPlain) ∧
      (generate (describingPing ["204", "x-internal"]) .standard).result =
        .error (.misuse .numeral) := by
  have built : (ofDescription (describingPing ["204", "x-internal"]) .standard).result.isOk =
      true := by decide +kernel
  obtain ⟨clients, made⟩ := exists_eq_ok built
  have unreadable : ¬IsReadable "X-INTERNAL" := by decide +kernel
  refine ⟨rfl, isPlain_of_describingPing, ?_⟩
  refine (generate_hingesOn rfl isPlain_of_describingPing made).error fun writable => unreadable ?_
  exact writable.statuses rfl (pinging ["204", "x-internal"]) (by simp [describingPing])
    { status := "x-internal" } (by simp [pinging])

end Module

end ApiBinding
