import ApiBinding.Proofs.Client.Grouping
import ApiBinding.Proofs.Method.Refusal

/-!
Why the clients of a description are refused: one of its operations is, two methods of a client or
two clients go by one name, or a declared type goes by the name of a client.
-/

namespace ApiBinding.Client

open Identifier (ofRaw)

/-- Whether the class or the interface for a tag goes by the name. -/
def GoesBy (settings : Settings) (tag name : String) : Prop :=
  name = settings.clientName tag ∨ name = settings.clientName tag ++ interfaceEnding

/-- Whether the names in a table are those of clients for the tags. -/
def HoldsClients (settings : Settings) (tags : List String) (table : NameTable) : Prop :=
  ∀ entry ∈ table, ∃ tag ∈ tags, GoesBy settings tag entry.1 ∧ entry.2 = label tag

/-- The failures in which building the clients of a description can end. -/
inductive Refusal (description : Description) (settings : Settings) : Failure → Prop
  | operation {operation : Operation} {failure : Failure} (h : operation ∈ description.operations)
      (refused : operation.Refusal failure) : Refusal description settings failure
  | methods {first second : Operation} {a b : Operation.Names}
      (h : [first, second].Sublist description.operations) (tag : first.tag = second.tag)
      (ha : first.names settings = .ok a) (hb : second.names settings = .ok b)
      (same : a.method = b.method) :
      Refusal description settings
        (.collision (.methods (settings.clientName first.tag)) a.method a.raw b.raw)
  | clients {first second : Operation} {name : String} (hf : first ∈ description.operations)
      (hs : second ∈ description.operations) (differ : first.tag ≠ second.tag)
      (ha : GoesBy settings first.tag name) (hb : GoesBy settings second.tag name) :
      Refusal description settings
        (.collision .clients name (label first.tag) (label second.tag))
  | taken {owner operation : Operation} {shape : Shape} {source : String}
      (models : settings.generateModels = true) (ho : owner ∈ description.operations)
      (h : operation ∈ description.operations) (reached : operation.Reaches shape)
      (named : shape.declaredName? = some source)
      (goes : GoesBy settings owner.tag (ofRaw .type source)) (differs : label owner.tag ≠ source) :
      Refusal description settings
        (.collision .types (ofRaw .type source) (label owner.tag) source)

/-- A method is refused for one before it of the same name. -/
theorem requireDistinct_failsOnly (className : String) (before methods : List Method)
    (taken : NameTable)
    (entered : ∀ entry ∈ taken, ∃ method ∈ before, entry = (method.name, method.rawName)) :
    FailsOnly (fun failure => ∃ first second, [first, second].Sublist (before ++ methods) ∧
      first.name = second.name ∧
      failure = .collision (.methods className) first.name first.rawName second.rawName)
      (requireDistinct className taken methods) := by
  -- The table holds the names of the methods before, which `entered` keeps.
  induction methods generalizing before taken with
  | nil => simp [requireDistinct]
  | cons method rest ih =>
    unfold requireDistinct
    split
    next raw present =>
      obtain ⟨earlier, he, same⟩ := entered _ (NameTable.mem_of_source? present)
      obtain ⟨hname, rfl⟩ := Prod.mk.inj same
      refine FailsOnly.error_iff.mpr ⟨earlier, method, ?_, hname.symm, by rw [hname]⟩
      exact (List.singleton_sublist.mpr he).append (List.singleton_sublist.mpr (by simp))
    next =>
      have step := ih (before ++ [method]) (taken ++ [(method.name, method.rawName)]) ?_
      · simpa using step
      · intro entry hentry
        rcases List.mem_append.mp hentry with hentry | hentry
        · obtain ⟨earlier, he, same⟩ := entered entry hentry
          exact ⟨earlier, List.mem_append_left _ he, same⟩
        · exact ⟨method, by simp, by simpa using hentry⟩

section tables

variable {settings : Settings} {tags : List String} {tag : String} {taken taken' : NameTable}

theorem HoldsClients.enter (holds : HoldsClients settings tags taken) (ht : tag ∈ tags)
    {name : String} (goes : GoesBy settings tag name)
    (h : taken.enter .clients name (label tag) = .ok taken') :
    HoldsClients settings tags taken' := by
  intro entry hentry
  rcases (NameTable.mem_of_enter h).mp hentry with hentry | rfl
  · exact holds entry hentry
  · exact ⟨tag, ht, goes, rfl⟩

/-- Whether a failure says that clients for two of the tags go by one name. -/
def Shares (settings : Settings) (tags : List String) (failure : Failure) : Prop :=
  ∃ first ∈ tags, ∃ second ∈ tags, first ≠ second ∧ ∃ name, GoesBy settings first name ∧
    GoesBy settings second name ∧ failure = .collision .clients name (label first) (label second)

theorem HoldsClients.enter_failsOnly (holds : HoldsClients settings tags taken) (ht : tag ∈ tags)
    {name : String} (goes : GoesBy settings tag name) :
    FailsOnly (Shares settings tags) (taken.enter .clients name (label tag)) := by
  refine (NameTable.enter_failsOnly .clients taken name (label tag)).mono ?_
  rintro failure ⟨source, present, differs, rfl⟩
  obtain ⟨first, hfirst, hgoes, rfl⟩ := holds _ present
  exact ⟨first, hfirst, tag, ht, fun same => differs (same ▸ rfl), name, hgoes, goes, rfl⟩

end tables

/-- Whether a failure says that two of the methods have one name. -/
def Repeats (className : String) (methods : List Method) (failure : Failure) : Prop :=
  ∃ first second, [first, second].Sublist methods ∧ first.name = second.name ∧
    failure = .collision (.methods className) first.name first.rawName second.rawName

theorem ofGroups_failsOnly {settings : Settings} {tags : List String}
    {groups : List (String × List Member)} {taken : NameTable}
    (ht : ∀ group ∈ groups, group.1 ∈ tags) (holds : HoldsClients settings tags taken) :
    FailsOnly (fun failure => Shares settings tags failure ∨ ∃ group ∈ groups,
        Repeats (settings.clientName group.1) (group.2.map Prod.snd) failure)
      (ofGroups settings taken groups) := by
  induction groups generalizing taken with
  | nil => simp [ofGroups]
  | cons group groups ih =>
    obtain ⟨tag, members⟩ := group
    have here : tag ∈ tags := ht (tag, members) (by simp)
    rw [ofGroups_cons]
    refine FailsOnly.bind ?_ fun _ _ => ?_
    · refine (requireDistinct_failsOnly _ [] _ [] (by simp)).mono fun failure repeats => ?_
      exact .inr ⟨(tag, members), by simp, repeats⟩
    · refine ((holds.enter_failsOnly here (.inl rfl)).mono fun _ => .inl).bind fun named first => ?_
      have holds := holds.enter here (.inl rfl) first
      refine ((holds.enter_failsOnly here (.inr rfl)).mono fun _ => .inl).bind fun both second => ?_
      have holds := holds.enter here (.inr rfl) second
      refine FailsOnly.bind ?_ fun _ _ => by simp
      refine (ih (fun group hg => ht group (by simp [hg])) holds).mono fun failure refused => ?_
      refine refused.imp_right ?_
      rintro ⟨group, hg, repeats⟩
      exact ⟨group, by simp [hg], repeats⟩

theorem holdsClients_of_ofGroups {settings : Settings} {tags : List String}
    {groups : List (String × List Member)} {taken taken' : NameTable} {clients : List Client}
    (ht : ∀ group ∈ groups, group.1 ∈ tags) (holds : HoldsClients settings tags taken)
    (h : ofGroups settings taken groups = .ok (clients, taken')) :
    HoldsClients settings tags taken' := by
  induction groups generalizing taken taken' clients with
  | nil =>
    cases h
    exact holds
  | cons group groups ih =>
    obtain ⟨tag, members⟩ := group
    have here : tag ∈ tags := ht (tag, members) (by simp)
    rw [ofGroups_cons] at h
    obtain ⟨_, _, h⟩ := bind_eq_ok.mp h
    obtain ⟨_, first, h⟩ := bind_eq_ok.mp h
    obtain ⟨_, second, h⟩ := bind_eq_ok.mp h
    obtain ⟨⟨_, _⟩, rest, h⟩ := bind_eq_ok.mp h
    cases h
    have holds := (holds.enter here (.inl rfl) first).enter here (.inr rfl) second
    exact ih (fun group hg => ht group (by simp [hg])) holds rest

/-- A declared type comes from a named shape of an operation. -/
theorem origin_of_mem_allDeclarations {settings : Settings} {members : List Member}
    {groups : List (String × List Member)} {taken taken' : NameTable} {clients : List Client}
    (made : ∀ member ∈ members, member.1.toMethod settings = .ok member.2)
    (inside : ∀ group ∈ groups, ∀ member ∈ group.2, member ∈ members)
    (h : ofGroups settings taken groups = .ok (clients, taken')) {d : Declaration}
    (hd : d ∈ allDeclarations clients) : ∃ member ∈ members, ∃ shape,
      member.1.Reaches shape ∧ shape.declaredName? = some d.source ∧
        d.name = ofRaw .type d.source := by
  obtain ⟨client, hclient, method, hmethod, hd⟩ := mem_of_mem_allDeclarations hd
  rw [ofGroups_eq_ok h] at hclient
  obtain ⟨group, hgroup, rfl⟩ := List.mem_map.mp hclient
  obtain ⟨member, hmember, rfl⟩ := List.mem_map.mp hmethod
  have hmember := inside group hgroup member hmember
  have collected := Operation.collected_of_toMethod (made member hmember)
  obtain ⟨met, _, covered⟩ := Declaration.covered_of_collected collected
  obtain ⟨shape, hshape, named, hname, _⟩ := covered.origin d hd
  exact ⟨member, hmember, shape, covered.within shape (.inl hshape), named, hname⟩

section members

variable {description : Description} {settings : Settings} {members : List Member}

theorem refusal_of_shares {failure : Failure}
    (shares : Shares settings (tags description.operations) failure) :
    Refusal description settings failure := by
  obtain ⟨first, hf, second, hs, differ, name, ha, hb, rfl⟩ := shares
  obtain ⟨a, hfirst, rfl⟩ := mem_tags.mp hf
  obtain ⟨b, hsecond, rfl⟩ := mem_tags.mp hs
  exact .clients hfirst hsecond differ ha hb

/-- Methods of one group that share a name come from two operations of its tag. -/
theorem refusal_of_repeats (operations : members.map Prod.fst = description.operations)
    (made : ∀ member ∈ members, member.1.toMethod settings = .ok member.2)
    {tag : String} {failure : Failure}
    (repeats : Repeats (settings.clientName tag) ((membersOf tag members).map Prod.snd) failure) :
    Refusal description settings failure := by
  obtain ⟨first, second, hpair, same, rfl⟩ := repeats
  obtain ⟨a, b, chosen, rfl, rfl⟩ := exists_pair_of_map hpair
  have tagged : ∀ member ∈ [a, b], member ∈ members ∧ member.1.tag = tag := by
    intro member h
    simpa [membersOf] using chosen.subset h
  obtain ⟨ha, hta⟩ := tagged a (by simp)
  obtain ⟨hb, htb⟩ := tagged b (by simp)
  obtain ⟨namesA, _, _, _, makingA⟩ := Operation.toMethod_eq_ok (made a ha)
  obtain ⟨namesB, _, _, _, makingB⟩ := Operation.toMethod_eq_ok (made b hb)
  have pair : [a.1, b.1].Sublist description.operations :=
    operations ▸ (chosen.trans List.filter_sublist).map Prod.fst
  rw [makingA.name, makingB.name] at same
  rw [← hta, makingA.name, makingA.rawName, makingB.rawName]
  exact .methods pair (hta.trans htb.symm) makingA.named makingB.named same

theorem mem_of_byTag {group : String × List Member} (h : group ∈ byTag members) :
    group.1 ∈ tags (members.map Prod.fst) ∧ group.2 = membersOf group.1 members := by
  rw [byTag_eq] at h
  obtain ⟨tag, ht, rfl⟩ := List.mem_map.mp h
  exact ⟨ht, rfl⟩

/-- Declared types are refused only where one goes by the name of a client. -/
theorem checkDeclarations_failsOnly (operations : members.map Prod.fst = description.operations)
    (made : ∀ member ∈ members, member.1.toMethod settings = .ok member.2)
    (models : settings.generateModels = true) {clients : List Client} {taken : NameTable}
    (grouped : ofGroups settings [] (byTag members) = .ok (clients, taken))
    (holds : HoldsClients settings (tags description.operations) taken) :
    FailsOnly (Refusal description settings) (checkDeclarations taken clients) := by
  have inside : ∀ group ∈ byTag members, ∀ member ∈ group.2, member ∈ members := by
    intro group hgroup member hmember
    rw [(mem_of_byTag hgroup).2] at hmember
    exact (List.mem_filter.mp hmember).1
  refine (NameTable.enterAll_failsOnly _ ?_ _).mono ?_
  · rw [List.map_map]
    exact Entries.nodup_map_firsts Declaration.name _
  · rintro failure ⟨name, first, second, hentry, present, differs, rfl⟩
    obtain ⟨d, hd, hentry⟩ := List.mem_map.mp hentry
    obtain ⟨rfl, rfl⟩ := Prod.mk.inj hentry
    obtain ⟨member, hmember, shape, reached, named, hname⟩ :=
      origin_of_mem_allDeclarations made inside grouped hd
    have listed : member.1 ∈ description.operations := operations ▸ List.mem_map_of_mem hmember
    obtain ⟨tag, ht, goes, hlabel⟩ := holds _ present
    obtain ⟨client, hclient, rfl⟩ := mem_tags.mp ht
    have hlabel : first = label client.tag := hlabel
    rw [hlabel] at differs ⊢
    rw [hname] at goes ⊢
    exact .taken models hclient listed reached named goes differs

theorem ofMembers_failsOnly (operations : members.map Prod.fst = description.operations)
    (made : ∀ member ∈ members, member.1.toMethod settings = .ok member.2) :
    FailsOnly (Refusal description settings) (ofMembers settings members) := by
  have inTags : ∀ group ∈ byTag members, group.1 ∈ tags description.operations :=
    fun group hgroup => operations ▸ (mem_of_byTag hgroup).1
  have empty : HoldsClients settings (tags description.operations) [] := by
    intro entry hentry
    cases hentry
  refine FailsOnly.bind ((ofGroups_failsOnly inTags empty).mono ?_) ?_
  · rintro failure (shares | ⟨group, hgroup, repeats⟩)
    · exact refusal_of_shares shares
    · rw [(mem_of_byTag hgroup).2] at repeats
      exact refusal_of_repeats operations made repeats
  · rintro ⟨clients, taken⟩ grouped
    have holds := holdsClients_of_ofGroups inTags empty grouped
    dsimp only
    split
    next models =>
      exact (checkDeclarations_failsOnly operations made models grouped holds).bind
        fun _ _ => by simp
    next => simp

end members

/-- The clients of a description are refused for nothing else. -/
theorem ofDescription_failsOnly (description : Description) (settings : Settings) :
    FailsOnly (Refusal description settings) (ofDescription description settings).result := by
  rw [result_ofDescription]
  have each {operation : Operation} (h : operation ∈ description.operations) {α : Type}
      {run : Except Failure α} (refused : FailsOnly operation.Refusal run) :
      FailsOnly (Refusal description settings) run := refused.mono fun _ => .operation h
  refine FailsOnly.bind ?_ fun _ _ => FailsOnly.bind (FailsOnly.mapM ?_) fun members h => ?_
  · refine FailsOnly.bind (FailsOnly.mapM fun operation h => ?_) fun _ _ => by simp
    exact each h (Operation.names_failsOnly settings)
  · intro operation h
    exact each h (Operation.toMethod_failsOnly settings).map
  · obtain ⟨operations, made⟩ := members_of_mapM h
    exact ofMembers_failsOnly operations made

end ApiBinding.Client
