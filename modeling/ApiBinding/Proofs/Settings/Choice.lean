import ApiBinding.Proofs.MethodReference.Set
import ApiBinding.Proofs.Settings.Check
import Mathlib.Data.Set.List

/-!
What a value comes to in the place of a setting: the settings with it differ in this place only, a
list of methods counts by what it lists, and a value of the wrong kind is a problem with settings.
-/

namespace ApiBinding

/-- What settings have in the place of one of them. -/
inductive Choice where
  | text (s : String)
  | name (given : Option String)
  | flag (isOn : Bool)
  | references (set : List MethodReference)
  | imports (lines : List String)

def Settings.choice (settings : Settings) : Setting → Choice
  | .classNameTemplate => .text settings.classNameTemplate
  | .configurationType => .name settings.configurationType
  | .baseClass => .name settings.baseClass
  | .baseInterface => .name settings.baseInterface
  | .injectTransport => .flag settings.injectTransport
  | .transportType => .name settings.transportType
  | .useRequestFactory => .flag settings.useRequestFactory
  | .streamedResponses => .references settings.streamedResponses
  | .streamedRequests => .references settings.streamedRequests
  | .wrapResponses => .flag settings.wrapResponses
  | .wrappedMethods => .references settings.wrappedMethods
  | .generateClasses => .flag settings.generateClasses
  | .suppressClasses => .flag settings.suppressClasses
  | .generateInterfaces => .flag settings.generateInterfaces
  | .suppressInterfaces => .flag settings.suppressInterfaces
  | .generateModels => .flag settings.generateModels
  | .additionalImports => .imports settings.additionalImports
  | .targetVersion => .text settings.targetVersion

namespace Setting

variable {setting : Setting} {key : Scalar}

/-- Whether the key is one of the two spellings of the setting. -/
def Names (setting : Setting) (key : Scalar) : Prop :=
  key = .text setting.key ∨ key = .text setting.otherKey

/-- What a value comes to in the place of a setting. -/
def read (setting : Setting) (v : Value) : Except Failure Choice :=
  match setting with
  | .classNameTemplate | .targetVersion => (Settings.readText setting v).map .text
  | .configurationType | .baseClass | .baseInterface | .transportType =>
    (Settings.readTypeName setting v).map .name
  | .injectTransport | .useRequestFactory | .wrapResponses | .generateClasses | .suppressClasses
  | .generateInterfaces | .suppressInterfaces | .generateModels =>
    (Settings.readFlag setting v).map .flag
  | .streamedResponses | .streamedRequests | .wrappedMethods =>
    (Settings.readReferences setting v).map .references
  | .additionalImports => (Settings.readImports v).map .imports

def listsMethods : Setting → Bool
  | .streamedResponses | .streamedRequests | .wrappedMethods => true
  | _ => false

theorem mem_all (setting : Setting) : setting ∈ all := by cases setting <;> decide

theorem key_ne_otherKey (setting : Setting) : setting.key ≠ setting.otherKey := by
  cases setting <;> decide

/-- The spellings of the settings are all different. -/
theorem named?_spelling (setting : Setting) :
    named? setting.key = some setting ∧ named? setting.otherKey = some setting := by
  have each : ∀ setting ∈ all,
      named? setting.key = some setting ∧ named? setting.otherKey = some setting := by
    decide +kernel
  exact each setting (mem_all setting)

theorem settingOf?_eq_some : Settings.settingOf? key = some setting ↔ setting.Names key := by
  constructor
  · intro found
    cases key with
    | text name =>
      have named : (setting.key == name || setting.otherKey == name) = true := by
        simpa using List.find?_some found
      rw [Bool.or_eq_true, beq_iff_eq, beq_iff_eq] at named
      rcases named with rfl | rfl
      · exact .inl rfl
      · exact .inr rfl
    | _ => cases found
  · rintro (rfl | rfl)
    · exact (named?_spelling setting).1
    · exact (named?_spelling setting).2

end Setting

namespace Settings

variable {settings settings' : Settings} {setting : Setting} {v : Value}

theorem eq_of_choice (same : ∀ setting, settings.choice setting = settings'.choice setting) :
    settings = settings' := by
  cases settings
  cases settings'
  rw [SettingsOf.mk.injEq]
  exact ⟨Choice.text.inj (same .classNameTemplate), Choice.name.inj (same .configurationType),
    Choice.name.inj (same .baseClass), Choice.name.inj (same .baseInterface),
    Choice.flag.inj (same .injectTransport), Choice.name.inj (same .transportType),
    Choice.flag.inj (same .useRequestFactory), Choice.references.inj (same .streamedResponses),
    Choice.references.inj (same .streamedRequests), Choice.flag.inj (same .wrapResponses),
    Choice.references.inj (same .wrappedMethods), Choice.flag.inj (same .generateClasses),
    Choice.flag.inj (same .suppressClasses), Choice.flag.inj (same .generateInterfaces),
    Choice.flag.inj (same .suppressInterfaces), Choice.flag.inj (same .generateModels),
    Choice.imports.inj (same .additionalImports), Choice.text.inj (same .targetVersion)⟩

/-- A value that is read for a setting becomes what the settings have for it, and all others stay. -/
theorem choice_of_withValue (given : settings.withValue setting v = .ok settings') :
    setting.read v = .ok (settings'.choice setting) ∧
      ∀ other, other ≠ setting → settings'.choice other = settings.choice other := by
  cases setting
  all_goals
    obtain ⟨t, read, same⟩ := bind_eq_ok.mp given
    cases same
    refine ⟨map_eq_ok.mpr ⟨t, read, rfl⟩, fun other different => ?_⟩
    cases other <;> first | rfl | exact absurd rfl different

theorem withValue_eq_error {failure : Failure} :
    settings.withValue setting v = .error failure ↔ setting.read v = .error failure := by
  have done {α : Type} {run : Except Failure α} {f : α → Settings} :
      (run >>= fun a => pure (f a)) = .error failure ↔ run = .error failure := by
    cases run <;> simp
  cases setting
  all_goals exact done.trans map_eq_error.symm

theorem exists_withValue (settings : Settings) {choice : Choice}
    (read : setting.read v = .ok choice) : ∃ next, settings.withValue setting v = .ok next := by
  cases given : settings.withValue setting v with
  | error failure => cases (withValue_eq_error.mp given).symm.trans read
  | ok next => exact ⟨next, rfl⟩

theorem mapM_text_eq_some {items : List Value} {texts : List String} :
    (items.mapM fun
      | .text s => some s
      | _ => none) = some texts ↔ items = texts.map Value.text := by
  induction items generalizing texts with
  | nil => cases texts <;> simp
  | cons item items ih =>
    rw [List.mapM_cons, Option.bind_eq_bind, Option.bind_eq_some_iff]
    constructor
    · rintro ⟨s, here, rest⟩
      obtain ⟨rest, read, same⟩ := Option.bind_eq_some_iff.mp rest
      cases same
      split at here
      next =>
        cases here
        rw [ih.mp read, List.map_cons]
      next => cases here
    · cases texts with
      | nil => exact nofun
      | cons s texts =>
        intro same
        cases same
        exact ⟨s, rfl, Option.bind_eq_some_iff.mpr ⟨texts, ih.mpr rfl, rfl⟩⟩

/-- A value is a list of texts if its items are those texts. -/
theorem texts?_eq_some {texts : List String} :
    texts? v = some texts ↔ items? v = some (texts.map Value.text) := by
  rw [texts?, Option.bind_eq_some_iff]
  constructor
  · rintro ⟨items, listed, read⟩
    rw [listed, mapM_text_eq_some.mp read]
  · exact fun listed => ⟨_, listed, mapM_text_eq_some.mpr rfl⟩

/-- Whether two values list the same items, in whatever order and however often. -/
def SameItems (v v' : Value) : Prop :=
  ∃ items items', items? v = some items ∧ items? v' = some items' ∧
    (∀ item, item ∈ items ↔ item ∈ items') ∧ ∀ s, .text s ∈ items → Text.IsRegular s

theorem SameItems.symm {v' : Value} (same : SameItems v v') : SameItems v' v := by
  obtain ⟨items, items', listed, listed', members, regular⟩ := same
  exact ⟨items', items, listed', listed, fun item => (members item).symm,
    fun s given => regular s ((members _).mpr given)⟩

theorem readReferences_of_sameItems {v' : Value} (same : SameItems v v')
    {set : List MethodReference} (read : readReferences setting v = .ok set) :
    readReferences setting v' = .ok set := by
  obtain ⟨items, items', listed, listed', members, regular⟩ := same
  rw [readReferences] at read
  split at read
  next texts given =>
    obtain rfl := Option.some.inj (listed.symm.trans (texts?_eq_some.mp given))
    obtain ⟨texts', rfl⟩ : items' ∈ Set.range (List.map Value.text) := by
      rw [Set.range_list_map]
      intro item member
      obtain ⟨s, _, rfl⟩ := List.mem_map.mp ((members item).mpr member)
      exact ⟨s, rfl⟩
    have injective : Function.Injective Value.text := fun s t same => by cases same; rfl
    rw [readReferences, texts?_eq_some.mpr listed']
    have same (s : String) : s ∈ texts ↔ s ∈ texts' := by
      rw [← List.mem_map_of_injective injective, members, List.mem_map_of_injective injective]
    refine (MethodReference.setOf_congr (fun s given => ?_) same).mp read
    exact regular s (List.mem_map_of_mem given)
  next => cases read

/-- The same items come to the same methods. -/
theorem read_of_sameItems {v' : Value} (lists : setting.listsMethods = true)
    (same : SameItems v v') {choice : Choice} (read : setting.read v = .ok choice) :
    setting.read v' = .ok choice := by
  cases setting
  case streamedResponses | streamedRequests | wrappedMethods =>
    obtain ⟨set, given, rfl⟩ := map_eq_ok.mp read
    exact map_eq_ok.mpr ⟨set, readReferences_of_sameItems same given, rfl⟩
  all_goals cases lists

/-- Whether a failure is a problem with settings. -/
def IsProblem (failure : Failure) : Prop := ∃ problem, failure = .settings problem

@[simp] theorem isProblem_settings (problem : SettingsProblem) : IsProblem (.settings problem) :=
  ⟨problem, rfl⟩

theorem failsOnly_readReferences (setting : Setting) (v : Value) :
    FailsOnly IsProblem (readReferences setting v) := by
  have parse (s : String) : FailsOnly IsProblem (MethodReference.parse s) := by
    unfold MethodReference.parse
    split
    · split <;> simp
    · simp
  unfold readReferences
  split
  · refine FailsOnly.bind (FailsOnly.mapM fun item member => ?_) fun _ _ => FailsOnly.ok _
    obtain ⟨s, _, rfl⟩ := List.mem_map.mp member
    exact parse s
  · simp

theorem failsOnly_read (setting : Setting) (v : Value) : FailsOnly IsProblem (setting.read v) := by
  have text : FailsOnly IsProblem (readText setting v) := by
    unfold readText
    split <;> simp
  have name : FailsOnly IsProblem (readTypeName setting v) := by
    unfold readTypeName
    split <;> simp
  have flag : FailsOnly IsProblem (readFlag setting v) := by
    unfold readFlag
    split <;> simp
  have imports : FailsOnly IsProblem (readImports v) := by
    unfold readImports
    split <;> simp
  have references := failsOnly_readReferences setting v
  cases setting <;> first
    | exact text.map | exact name.map | exact flag.map | exact references.map | exact imports.map

end Settings

end ApiBinding
