import ApiBinding.Client.OfDescription
import ApiBinding.Proofs.Entries
import ApiBinding.Proofs.Outcome
import Mathlib.Data.List.Induction

/-!
How the clients of a description come about: each operation gives a method, and the methods of one
tag go into one client in the order of the description.
-/

namespace ApiBinding.Client

/-- The tags of operations in the order in which they first appear. -/
def tags (operations : List Operation) : List String :=
  Entries.firsts id (operations.map Operation.tag)

/-- The operations in the order of the clients that their methods go into. -/
def grouped (operations : List Operation) : List Operation :=
  (tags operations).flatMap fun tag => operations.filter (·.tag == tag)

def membersOf (tag : String) (members : List Member) : List Member :=
  members.filter (·.1.tag == tag)

def toMember (settings : Settings) (operation : Operation) : Except Failure Member :=
  (operation.toMethod settings).map fun method => (operation, method)

def label (tag : String) : String := "client " ++ Text.quoted tag

section

variable (settings : Settings) (tag : String) (methods : List Method)

@[simp] theorem ofGroup_tag : (ofGroup settings tag methods).tag = tag := rfl

@[simp] theorem ofGroup_className :
    (ofGroup settings tag methods).className = settings.clientName tag := by
  simp only [ofGroup]

@[simp] theorem ofGroup_interfaceName :
    (ofGroup settings tag methods).interfaceName = settings.clientName tag ++ interfaceEnding := by
  simp only [ofGroup]

@[simp] theorem ofGroup_nameSource : (ofGroup settings tag methods).nameSource = label tag := rfl

@[simp] theorem ofGroup_isShown : (ofGroup settings tag methods).isShown =
    (settings.generateInterfaces && !settings.suppressInterfaces
      || settings.generateClasses && !settings.suppressClasses) := rfl

@[simp] theorem ofGroup_methods : (ofGroup settings tag methods).methods = methods := rfl

end

theorem mem_tags {tag : String} {operations : List Operation} :
    tag ∈ tags operations ↔ ∃ operation ∈ operations, operation.tag = tag := by
  have h : tag ∈ (Entries.firsts id (operations.map Operation.tag)).map id ↔
      tag ∈ (operations.map Operation.tag).map id := Entries.key_mem_map_firsts id
  simpa [tags] using h

theorem nodup_tags (operations : List Operation) : (tags operations).Nodup := by
  simpa [tags] using Entries.nodup_map_firsts (id : String → String) (operations.map Operation.tag)

theorem exists_pair_of_map {α β : Type} {f : α → β} {xs : List α} {x y : β}
    (h : [x, y].Sublist (xs.map f)) : ∃ a b, [a, b].Sublist xs ∧ x = f a ∧ y = f b := by
  obtain ⟨pair, chosen, images⟩ := List.sublist_map_iff.mp h
  match pair, images with
  | [a, b], images =>
    obtain ⟨ha, hb⟩ : x = f a ∧ y = f b := by simpa using images
    exact ⟨a, b, chosen, ha, hb⟩

theorem mem_grouped {operation : Operation} {operations : List Operation} :
    operation ∈ grouped operations ↔ operation ∈ operations := by
  simp only [grouped, List.mem_flatMap, List.mem_filter, beq_iff_eq]
  constructor
  · rintro ⟨_, _, h, _⟩
    exact h
  · intro h
    exact ⟨operation.tag, mem_tags.mpr ⟨operation, h, rfl⟩, h, rfl⟩

/-- Grouping members one by one gives the members of each tag. -/
theorem byTag_eq (members : List Member) :
    byTag members = (tags (members.map Prod.fst)).map fun tag => (tag, membersOf tag members) := by
  -- Members enter their groups from the front of the list on, so the last one is taken off.
  induction members using List.reverseRecOn with
  | nil => rfl
  | append_singleton members member ih =>
    have step : byTag (members ++ [member]) = addToGroup (byTag members) member := by
      simp [byTag]
    have before : (Entries.get? (· == ·) member.1.tag (byTag members)).getD [] =
        membersOf member.1.tag members := by
      rw [ih, Entries.get?_graph]
      split
      next => rfl
      next absent =>
        refine (List.filter_eq_nil_iff.mpr fun other ho same => absent ?_).symm
        exact mem_tags.mpr ⟨other.1, List.mem_map_of_mem ho, by simpa using same⟩
    have order : tags ((members ++ [member]).map Prod.fst) =
        if member.1.tag ∈ tags (members.map Prod.fst) then tags (members.map Prod.fst)
        else tags (members.map Prod.fst) ++ [member.1.tag] := by
      have same : member.1.tag ∈ tags (members.map Prod.fst) ↔
          member.1.tag ∈ (members.map Prod.fst).map Operation.tag := by
        simp [mem_tags]
      simp only [same]
      simpa [tags] using Entries.firsts_concat member.1.tag ((members.map Prod.fst).map Operation.tag)
    rw [step, addToGroup, before, ih, Entries.put_graph _ _ _ _ (nodup_tags _), order]
    apply List.map_congr_left
    intro tag _
    by_cases h : tag = member.1.tag
    · simp [h, membersOf]
    · simp [h, membersOf, Ne.symm h]

theorem result_toMethods (settings : Settings) (operations : List Operation) :
    (toMethods settings none operations).result = operations.mapM (toMember settings) := by
  induction operations with
  | nil => rfl
  | cons operation operations ih =>
    rw [toMethods, List.mapM_cons, if_neg (by simp)]
    cases hn : operation.names settings with
    | error failure => simp [toMember, Operation.toMethod, hn, Except.map]
    | ok names =>
      cases hm : operation.toMethod settings with
      | error failure => simp [toMember, hm, Except.map]
      | ok method =>
        simp only [toMember, hm, Except.map, ok_bind, Option.map_none, ih]
        cases operations.mapM (toMember settings) <;> rfl

theorem mapM_of_toMethods {settings : Settings} {before : Option Nat}
    {operations : List Operation} {members : List Member}
    (h : (toMethods settings before operations).result = .ok members) :
    operations.mapM (toMember settings) = .ok members := by
  induction operations generalizing before members with
  | nil => exact h
  | cons operation operations ih =>
    rw [toMethods] at h
    split at h
    next => cases h
    next =>
      split at h
      next => cases h
      next =>
        split at h
        next => cases h
        next method made =>
          obtain ⟨others, hothers, rfl⟩ := map_eq_ok.mp h
          rw [List.mapM_cons, ih hothers, toMember, made]
          rfl

theorem result_ofDescription (description : Description) (settings : Settings) :
    (ofDescription description settings).result = (do
      discard (description.operations.mapM fun operation => operation.names settings)
      ofMembers settings (← description.operations.mapM (toMember settings))) := by
  unfold ofDescription
  split
  next failure hn => rw [hn]; rfl
  next names hn =>
    dsimp only
    rw [hn, result_toMethods]
    rfl

/-- What the clients of a description are made of: a member for each operation, and the table of
the names of the clients, against which their declarations have been checked. -/
structure Built (description : Description) (settings : Settings) (members : List Member)
    (clients : List Client) (taken : NameTable) : Prop where
  operations : members.map Prod.fst = description.operations
  made : ∀ member ∈ members, member.1.toMethod settings = .ok member.2
  grouped : ofGroups settings [] (byTag members) = .ok (clients, taken)
  checked : settings.generateModels = true → checkDeclarations taken clients = .ok ()

theorem members_of_mapM {settings : Settings} {operations : List Operation} {members : List Member}
    (h : operations.mapM (toMember settings) = .ok members) :
    members.map Prod.fst = operations ∧
      ∀ member ∈ members, member.1.toMethod settings = .ok member.2 := by
  have h := mapM_eq_ok.mp h
  induction h with
  | nil => simp
  | cons made _ ih =>
    obtain ⟨method, hm, rfl⟩ := map_eq_ok.mp made
    obtain ⟨operations, rest⟩ := ih (mapM_eq_ok.mpr ‹_›)
    refine ⟨by simp [operations], fun member hmem => ?_⟩
    rcases List.mem_cons.mp hmem with rfl | hmem
    · exact hm
    · exact rest member hmem

theorem built_of_ofDescription {description : Description} {settings : Settings}
    {before : Option Nat} {clients : List Client}
    (h : (ofDescription description settings before).result = .ok clients) :
    ∃ members taken, Built description settings members clients taken := by
  unfold ofDescription at h
  split at h
  next => cases h
  next =>
    obtain ⟨members, hmembers, h⟩ := bind_eq_ok.mp h
    obtain ⟨⟨clients', taken⟩, hgroups, h⟩ := bind_eq_ok.mp h
    obtain ⟨operations, made⟩ := members_of_mapM (mapM_of_toMethods hmembers)
    dsimp only at h
    split at h
    next models =>
      obtain ⟨_, hchecked, h⟩ := bind_eq_ok.mp h
      cases h
      exact ⟨members, taken, operations, made, hgroups, fun _ => hchecked⟩
    next models =>
      cases h
      exact ⟨members, taken, operations, made, hgroups, fun on => absurd on models⟩

theorem ofGroups_cons (settings : Settings) (taken : NameTable) (tag : String)
    (members : List Member) (groups : List (String × List Member)) :
    ofGroups settings taken ((tag, members) :: groups) = (do
      requireDistinct (settings.clientName tag) [] (members.map Prod.snd)
      let taken ← taken.enter .clients (settings.clientName tag) (label tag)
      let taken ← taken.enter .clients (settings.clientName tag ++ interfaceEnding) (label tag)
      let others ← ofGroups settings taken groups
      return (ofGroup settings tag (members.map Prod.snd) :: others.1, others.2)) := by
  simp only [ofGroups, ofGroup_className, ofGroup_interfaceName, ofGroup_nameSource,
    ofGroup_methods]

theorem ofGroups_eq_ok {settings : Settings} {groups : List (String × List Member)}
    {taken taken' : NameTable} {clients : List Client}
    (h : ofGroups settings taken groups = .ok (clients, taken')) :
    clients = groups.map fun group => ofGroup settings group.1 (group.2.map Prod.snd) := by
  induction groups generalizing taken taken' clients with
  | nil =>
    cases h
    rfl
  | cons group groups ih =>
    rw [ofGroups_cons] at h
    obtain ⟨_, _, h⟩ := bind_eq_ok.mp h
    obtain ⟨_, _, h⟩ := bind_eq_ok.mp h
    obtain ⟨_, _, h⟩ := bind_eq_ok.mp h
    obtain ⟨⟨clients', _⟩, hrest, h⟩ := bind_eq_ok.mp h
    cases h
    rw [List.map_cons, ih hrest]

theorem mem_of_mem_allDeclarations {clients : List Client} {d : Declaration}
    (h : d ∈ allDeclarations clients) :
    ∃ client ∈ clients, ∃ method ∈ client.methods, d ∈ method.declarations := by
  obtain ⟨client, hclient, h⟩ := List.mem_flatMap.mp ((Entries.distinct_sublist _ _).subset h)
  obtain ⟨method, hmethod, h⟩ := List.mem_flatMap.mp ((Entries.distinct_sublist _ _).subset h)
  exact ⟨client, hclient, method, hmethod, h⟩

namespace Built

variable {description : Description} {settings : Settings} {members : List Member}
  {clients : List Client} {taken : NameTable}

theorem clients_eq (built : Built description settings members clients taken) :
    clients = (tags description.operations).map fun tag =>
      ofGroup settings tag ((membersOf tag members).map Prod.snd) := by
  rw [ofGroups_eq_ok built.grouped, byTag_eq, built.operations, List.map_map]
  rfl

/-- The methods of all clients come from the operations in the order of the clients. -/
theorem exists_ordered (built : Built description settings members clients taken) :
    ∃ ordered : List Member, ordered.map Prod.fst = Client.grouped description.operations ∧
      clients.flatMap methods = ordered.map Prod.snd ∧ ∀ member ∈ ordered, member ∈ members := by
  refine ⟨(tags description.operations).flatMap fun tag => membersOf tag members, ?_, ?_, ?_⟩
  · rw [Client.grouped, List.map_flatMap]
    apply List.flatMap_congr
    intro tag _
    rw [← built.operations, membersOf, List.filter_map]
    rfl
  · rw [built.clients_eq, List.flatMap_map, List.map_flatMap]
    rfl
  · intro member h
    obtain ⟨tag, _, h⟩ := List.mem_flatMap.mp h
    exact (List.mem_filter.mp h).1

/-- Each operation gives a method of the client of its tag. -/
theorem exists_method (built : Built description settings members clients taken)
    {operation : Operation} (h : operation ∈ description.operations) :
    ∃ client ∈ clients, client.tag = operation.tag ∧
      ∃ method ∈ client.methods, operation.toMethod settings = .ok method := by
  obtain ⟨member, hmember, rfl⟩ := List.mem_map.mp (built.operations ▸ h)
  rw [built.clients_eq]
  refine ⟨_, List.mem_map_of_mem (mem_tags.mpr ⟨_, h, rfl⟩), rfl, member.2, ?_,
    built.made member hmember⟩
  exact List.mem_map_of_mem (List.mem_filter.mpr ⟨hmember, beq_self_eq_true _⟩)

end Built

end ApiBinding.Client
