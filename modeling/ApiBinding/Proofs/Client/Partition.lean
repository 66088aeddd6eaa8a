import ApiBinding.Proofs.Client.NameClash
import ApiBinding.Proofs.Text.Quoted
import Mathlib.Data.List.Nodup

/-!
The clients of a description as a partition of its operations: each operation gives one method of
the client of its tag, in the order of the description, and what would make two names one is
refused.
-/

namespace ApiBinding.Client

open Identifier (ofRaw)

/-- Whether clients hold the methods of operations by their tags, with no name given twice. -/
structure Partitions (settings : Settings) (operations : List Operation) (clients : List Client) :
    Prop where
  tags : clients.map tag = (operations.map Operation.tag).eraseDups
  methods : ∀ client ∈ clients, List.Forall₂
    (fun operation method => operation.toMethod settings = .ok method)
    (operations.filter (·.tag == client.tag)) client.methods
  named : ∀ client ∈ clients, client.className = settings.clientName client.tag ∧
    client.interfaceName = client.className ++ interfaceEnding
  methodNames : ∀ client ∈ clients, (client.methods.map Method.name).Nodup
  clientNames : (clients.flatMap fun client => [client.className, client.interfaceName]).Nodup

/-- Whether two operations of one tag give methods of one name. -/
def HasTwins (operations : List Operation) : Prop :=
  ∃ first second, [first, second].Sublist operations ∧ first.tag = second.tag ∧
    ∃ a b, first.rawName = .ok a ∧ second.rawName = .ok b ∧ ofRaw .method a = ofRaw .method b

/-- Whether the clients for two tags have a name in common. -/
def HasNamesakes (settings : Settings) (operations : List Operation) : Prop :=
  ∃ first ∈ operations, ∃ second ∈ operations, first.tag ≠ second.tag ∧
    ∃ name, GoesBy settings first.tag name ∧ GoesBy settings second.tag name

variable {settings : Settings} {taken taken' : NameTable}

theorem label_injective {first second : String} (hf : Text.IsRegular first)
    (hs : Text.IsRegular second) (same : label first = label second) : first = second := by
  have same : Text.quoted first = Text.quoted second := by
    simpa [label, ← String.toList_inj] using same
  exact Text.quoted_injective hf hs same

theorem nodup_of_requireDistinct {className : String} {methods : List Method}
    (h : requireDistinct className taken methods = .ok ()) : (methods.map Method.name).Nodup ∧
      ∀ method ∈ methods, taken.source? method.name = none := by
  induction methods generalizing taken with
  | nil => simp
  | cons method methods ih =>
    rw [requireDistinct] at h
    split at h
    next => cases h
    next free =>
      obtain ⟨distinct, others⟩ := ih h
      have apart : ∀ other ∈ methods, taken.source? other.name = none ∧
          method.name ≠ other.name := by
        intro other ho
        have absent := others other ho
        rw [NameTable.source?_concat, Option.or_eq_none_iff] at absent
        exact ⟨absent.1, fun same => by simp [same] at absent⟩
      refine ⟨List.nodup_cons.mpr ⟨fun repeated => ?_, distinct⟩, fun other ho => ?_⟩
      · obtain ⟨other, ho, same⟩ := List.mem_map.mp repeated
        exact (apart other ho).2 same.symm
      · rcases List.mem_cons.mp ho with rfl | ho
        · exact free
        · exact (apart other ho).1

/-- What a run over groups leaves in the table: all that stood there, and the names of the clients
with the labels of their tags. No group has two methods of one name. -/
theorem entered_of_ofGroups {groups : List (String × List Member)} {clients : List Client}
    (h : ofGroups settings taken groups = .ok (clients, taken')) :
    (∀ name source, taken.source? name = some source → taken'.source? name = some source) ∧
    ∀ group ∈ groups, ((group.2.map Prod.snd).map Method.name).Nodup ∧
      ∀ name, GoesBy settings group.1 name → taken'.source? name = some (label group.1) := by
  induction groups generalizing taken taken' clients with
  | nil =>
    cases h
    exact ⟨fun _ _ => id, by simp⟩
  | cons group groups ih =>
    obtain ⟨tag, members⟩ := group
    rw [ofGroups_cons] at h
    obtain ⟨_, distinct, h⟩ := bind_eq_ok.mp h
    obtain ⟨named, first, h⟩ := bind_eq_ok.mp h
    obtain ⟨both, second, h⟩ := bind_eq_ok.mp h
    obtain ⟨⟨_, _⟩, rest, h⟩ := bind_eq_ok.mp h
    cases h
    obtain ⟨kept, others⟩ := ih rest
    refine ⟨fun name source present => ?_, fun group hgroup => ?_⟩
    · exact kept _ _ (NameTable.source?_kept second (NameTable.source?_kept first present))
    · rcases List.mem_cons.mp hgroup with rfl | hgroup
      · refine ⟨(nodup_of_requireDistinct distinct).1, fun name goes => ?_⟩
        cases goes with
        | inl same =>
          rw [same]
          exact kept _ _ (NameTable.source?_kept second (NameTable.source?_of_enter first))
        | inr same =>
          rw [same]
          exact kept _ _ (NameTable.source?_of_enter second)
      · exact others group hgroup

namespace Built

variable {description : Description} {members : List Member} {clients : List Client}

theorem map_tag (built : Built description settings members clients taken) :
    clients.map tag = Client.tags description.operations := by
  rw [built.clients_eq, List.map_map]
  exact List.map_id _

theorem entered (built : Built description settings members clients taken)
    {operation : Operation} (h : operation ∈ description.operations) :
    (((membersOf operation.tag members).map Prod.snd).map Method.name).Nodup ∧
      ∀ name, GoesBy settings operation.tag name →
        taken.source? name = some (label operation.tag) := by
  refine (entered_of_ofGroups built.grouped).2 (operation.tag, membersOf operation.tag members) ?_
  rw [byTag_eq, built.operations]
  exact List.mem_map_of_mem (mem_tags.mpr ⟨operation, h, rfl⟩)

theorem forall₂_methods (built : Built description settings members clients taken)
    (tag : String) : List.Forall₂ (fun operation method => operation.toMethod settings = .ok method)
      (description.operations.filter (·.tag == tag))
      ((membersOf tag members).map Prod.snd) := by
  rw [← built.operations, List.filter_map, List.forall₂_map_left_iff, List.forall₂_map_right_iff]
  refine List.forall₂_same.mpr fun member h => ?_
  exact built.made member (List.mem_filter.mp h).1

theorem nodup_methodNames (built : Built description settings members clients taken)
    {client : Client} (h : client ∈ clients) : (client.methods.map Method.name).Nodup := by
  rw [ofGroups_eq_ok built.grouped] at h
  obtain ⟨group, hgroup, rfl⟩ := List.mem_map.mp h
  exact ((entered_of_ofGroups built.grouped).2 group hgroup).1

theorem tag_eq_of_goesBy (built : Built description settings members clients taken)
    (regular : ∀ operation ∈ description.operations, Text.IsRegular operation.tag)
    {first second : Operation} (hf : first ∈ description.operations)
    (hs : second ∈ description.operations) {name : String} (ha : GoesBy settings first.tag name)
    (hb : GoesBy settings second.tag name) : first.tag = second.tag := by
  have same := ((built.entered hf).2 name ha).symm.trans ((built.entered hs).2 name hb)
  exact label_injective (regular _ hf) (regular _ hs) (Option.some.inj same)

theorem nodup_clientNames (built : Built description settings members clients taken)
    (regular : ∀ operation ∈ description.operations, Text.IsRegular operation.tag) :
    (clients.flatMap fun client => [client.className, client.interfaceName]).Nodup := by
  rw [built.clients_eq, List.flatMap_map]
  refine List.nodup_flatMap.mpr ⟨fun tag _ => ?_, ?_⟩
  · have longer : settings.clientName tag ≠ settings.clientName tag ++ interfaceEnding := by
      intro same
      simpa [interfaceEnding] using congrArg String.length same
    simpa using longer
  · refine (nodup_tags description.operations).imp_of_mem fun {a b} ha hb differ name hna hnb => ?_
    obtain ⟨first, hf, rfl⟩ := mem_tags.mp ha
    obtain ⟨second, hs, rfl⟩ := mem_tags.mp hb
    exact differ (built.tag_eq_of_goesBy regular hf hs (by simpa [GoesBy] using hna)
      (by simpa [GoesBy] using hnb))

theorem partitions (built : Built description settings members clients taken)
    (regular : ∀ operation ∈ description.operations, Text.IsRegular operation.tag) :
    Partitions settings description.operations clients where
  tags := by
    rw [built.map_tag, Client.tags, Entries.firsts_id_eq_eraseDups]
  methods client h := by
    rw [built.clients_eq] at h
    obtain ⟨tag, _, rfl⟩ := List.mem_map.mp h
    exact built.forall₂_methods tag
  named client h := by
    rw [built.clients_eq] at h
    obtain ⟨tag, _, rfl⟩ := List.mem_map.mp h
    simp
  methodNames client h := built.nodup_methodNames h
  clientNames := built.nodup_clientNames regular

theorem not_hasTwins (built : Built description settings members clients taken) :
    ¬HasTwins description.operations := by
  rintro ⟨first, second, pair, sameTag, a, b, ha, hb, same⟩
  -- Both operations give methods of one client, where no name comes twice.
  have chosen : [first, second].Sublist
      (description.operations.filter (·.tag == first.tag)) := by
    simpa [sameTag] using pair.filter (·.tag == first.tag)
  rw [← built.operations, List.filter_map] at chosen
  obtain ⟨one, other, both, rfl, rfl⟩ := exists_pair_of_map chosen
  have inside {member : Member} (h : member ∈ [one, other]) : member ∈ members :=
    (List.mem_filter.mp (both.subset h)).1
  have name {member : Member} {raw : String} (h : member ∈ members)
      (named : member.1.rawName = .ok raw) : member.2.name = ofRaw .method raw := by
    obtain ⟨names, _, _, _, making⟩ := Operation.toMethod_eq_ok (built.made member h)
    obtain ⟨_, rawNamed, hnames⟩ := bind_eq_ok.mp making.named
    cases rawNamed.symm.trans named
    cases hnames
    exact making.name
  have distinct := (built.entered (pair.subset List.mem_cons_self)).1
  rw [List.map_map] at distinct
  have distinct := (both.map (Method.name ∘ Prod.snd)).nodup distinct
  have repeated : one.2.name = other.2.name := by
    rw [name (inside (by simp)) ha, name (inside (by simp)) hb, same]
  simp [repeated] at distinct

theorem not_hasNamesakes (built : Built description settings members clients taken)
    (regular : ∀ operation ∈ description.operations, Text.IsRegular operation.tag) :
    ¬HasNamesakes settings description.operations := by
  rintro ⟨first, hf, second, hs, differ, name, ha, hb⟩
  exact differ (built.tag_eq_of_goesBy regular hf hs ha hb)

end Built

/-- The clients that come out, cancelled or not, partition the operations by their tags; and two
operations of one tag with one method name are refused, as are two tags whose clients share a name.
Tags are told apart by their literals, so each has to be written in the one way that its codes give.
-/
theorem partitioned_by_tag (description : Description) (settings : Settings)
    (regular : ∀ operation ∈ description.operations, Text.IsRegular operation.tag) :
    (∀ before clients, (ofDescription description settings before).result = .ok clients →
      Partitions settings description.operations clients) ∧
    ((∀ operation ∈ description.operations, operation.IsTyped) →
      HasTwins description.operations ∨ HasNamesakes settings description.operations →
      ∃ scope name first second, (ofDescription description settings).result =
        .error (.collision scope name first second)) := by
  refine ⟨fun before clients h => ?_, fun typed repeated => ?_⟩
  · obtain ⟨members, taken, built⟩ := built_of_ofDescription h
    exact built.partitions regular
  · cases hresult : (ofDescription description settings).result with
    | ok clients =>
      obtain ⟨members, taken, built⟩ := built_of_ofDescription hresult
      cases repeated with
      | inl twins => exact absurd twins built.not_hasTwins
      | inr namesakes => exact absurd namesakes (built.not_hasNamesakes regular)
    | error failure =>
      obtain ⟨scope, name, first, second, rfl⟩ := collision_of_error typed hresult
      exact ⟨scope, name, first, second, rfl⟩

theorem isTyped_answering (tag name : String) :
    (Operation.answering tag name []).IsTyped where
  name := ⟨name, rfl⟩
  parameters := by simp [Operation.answering]
  members := by
    rintro _ _ _ ⟨shape, h, _⟩
    simp at h

/-- Operations of two tags, one tag before and after the other. -/
def petsAroundStore : Description where
  operations := [.answering "Pet" "Find" [], .answering "Store" "Find" [],
    .answering "Pet" "List" []]

def petBesideProtocol : Description where
  operations := [.answering "Pet" "Find" [], .answering "PetProtocol" "Find" []]

def namedByTag : Settings := { Settings.standard with classNameTemplate := "\x7btag\x7d" }

/-- Clients called by their tags come out in the order Pet, Store, but not for Pet and PetProtocol:
the interface for Pet and the class for the other have one name. -/
theorem partitioned_pets_around_store :
    (∃ clients, (ofDescription petsAroundStore namedByTag).result = .ok clients ∧
      Partitions namedByTag petsAroundStore.operations clients ∧
      clients.map tag = ["Pet", "Store"]) ∧
    ∃ scope name first second, (ofDescription petBesideProtocol namedByTag).result =
      .error (.collision scope name first second) := by
  constructor
  · have built : (ofDescription petsAroundStore namedByTag).result.isOk = true := by
      decide +kernel
    obtain ⟨clients, h⟩ := exists_eq_ok built
    have regular : ∀ operation ∈ petsAroundStore.operations, Text.IsRegular operation.tag := by
      decide +kernel
    have parts := (partitioned_by_tag petsAroundStore namedByTag regular).1 none clients h
    exact ⟨clients, h, parts, by rw [parts.tags]; decide⟩
  · refine (partitioned_by_tag petBesideProtocol namedByTag (by decide +kernel)).2 ?_ (.inr ?_)
    · simp [petBesideProtocol, isTyped_answering]
    · exact ⟨_, List.mem_cons_self, _, List.mem_cons_of_mem _ List.mem_cons_self, by decide,
        "PetProtocol", .inr (by decide +kernel), .inl (by decide +kernel)⟩

end ApiBinding.Client
