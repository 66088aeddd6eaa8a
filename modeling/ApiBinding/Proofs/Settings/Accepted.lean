import ApiBinding.Proofs.Module.Support
import ApiBinding.Settings.Loose

/-!
What the names and the version of settings are once these have passed their checks: dotted names and
a version of Python 3, except that each may have a line feed behind it. Lines into which such a name
is written break exactly where it has one.
-/

namespace ApiBinding

open Text (OneLine)

namespace SettingsOf

open Setting

variable {Flag Text : Type} {settings : SettingsOf Flag Text}

/-- The names of types that settings give. -/
def givenNames (settings : SettingsOf Flag Text) : List String :=
  settings.configurationType.toList ++ settings.baseClass.toList ++ settings.baseInterface.toList
    ++ settings.transportType.toList

/-- Whether the names are dotted ones, and the version is one of Python 3 in ASCII digits. -/
structure IsClean (settings : SettingsOf Flag Text) : Prop where
  names : ∀ name ∈ settings.givenNames, IsDottedName name
  version : IsVersion Char.isDigit settings.targetVersion

/-- Whether the names are dotted ones, and the version is one of Python 3 in decimal digits of any
script, each of them up to a line feed at the end. -/
structure IsAccepted (settings : SettingsOf Flag Text) : Prop where
  names : ∀ name ∈ settings.givenNames, UpToFeed IsDottedName name
  version : UpToFeed (IsVersion isDecimal) settings.targetVersion

/-- Whether the names and the version are without line feeds, and the version is in ASCII. -/
def IsPlain (settings : SettingsOf Flag Text) : Prop :=
  (∀ s ∈ settings.targetVersion :: settings.givenNames, '\n' ∉ s.toList) ∧
    ∀ c ∈ settings.targetVersion.toList, c.toNat < 128

theorem forall_mem_givenNames {p : String → Prop} : (∀ name ∈ settings.givenNames, p name) ↔
    (∀ name ∈ settings.configurationType, p name) ∧ (∀ name ∈ settings.baseClass, p name) ∧
      (∀ name ∈ settings.baseInterface, p name) ∧ ∀ name ∈ settings.transportType, p name := by
  simp only [givenNames, List.forall_mem_append, Option.mem_toList, Option.mem_def, and_assoc]

/-- Accepted settings are clean but for line feeds and for digits that are not ASCII. -/
theorem IsAccepted.isClean_iff (accepted : settings.IsAccepted) :
    settings.IsClean ↔ settings.IsPlain := by
  have name (s : String) (given : s ∈ settings.givenNames) :=
    upToFeed_plain_iff (fun t => IsDottedName.not_mem_feed) (accepted.names s given)
  have version := upToFeed_plain_iff (fun t => IsVersion.not_mem_feed) accepted.version
  rw [IsPlain, List.forall_mem_cons]
  constructor
  · intro clean
    obtain ⟨decimal, ascii⟩ := isVersion_ascii_iff.mp clean.version
    exact ⟨⟨version.mp decimal, fun s given => (name s given).mp (clean.names s given)⟩, ascii⟩
  · rintro ⟨⟨plain, names⟩, ascii⟩
    exact ⟨fun s given => (name s given).mpr (names s given),
      isVersion_ascii_iff.mpr ⟨version.mpr plain, ascii⟩⟩

theorem not_isClean {name : String} (given : name ∈ settings.givenNames) (feed : '\n' ∈ name.toList) :
    ¬settings.IsClean :=
  fun clean => (clean.names name given).not_mem_feed feed

theorem isAccepted_iff : settings.IsAccepted ↔
    checkTypeName .configurationType settings.configurationType = .ok () ∧
      checkTypeName .baseClass settings.baseClass = .ok () ∧
      checkTypeName .baseInterface settings.baseInterface = .ok () ∧
      checkTypeName .transportType settings.transportType = .ok () ∧
      checkVersion settings.targetVersion = .ok () := by
  simp only [checkTypeName_eq_ok, checkVersion_eq_ok]
  constructor
  · intro accepted
    obtain ⟨configuration, baseClass, baseInterface, transport⟩ :=
      forall_mem_givenNames.mp accepted.names
    exact ⟨configuration, baseClass, baseInterface, transport, accepted.version⟩
  · rintro ⟨configuration, baseClass, baseInterface, transport, version⟩
    exact ⟨forall_mem_givenNames.mpr ⟨configuration, baseClass, baseInterface, transport⟩, version⟩

end SettingsOf

theorem LooseSettings.checkTypeName_of_typeName {entries : List (Scalar × Value)}
    {setting : Setting} {given : Option String}
    (h : LooseSettings.typeName entries setting = .ok given) :
    Setting.checkTypeName setting given = .ok () := by
  unfold LooseSettings.typeName at h
  split at h
  next => cases h; rfl
  next => cases h; rfl
  next =>
    obtain ⟨_, valid, h⟩ := bind_eq_ok.mp h
    cases h
    exact valid
  next => cases h

theorem LooseSettings.checkVersion_of_version {entries : List (Scalar × Value)} {given : String}
    (h : LooseSettings.version entries = .ok given) : Setting.checkVersion given = .ok () := by
  unfold LooseSettings.version at h
  split at h
  next =>
    cases h
    decide
  next =>
    obtain ⟨_, valid, h⟩ := bind_eq_ok.mp h
    cases h
    exact valid
  next => cases h

theorem LooseSettings.isAccepted_of_ofEntries {entries : List (Scalar × Value)}
    {settings : LooseSettings} (h : LooseSettings.ofEntries entries = .ok settings) :
    settings.IsAccepted := by
  unfold LooseSettings.ofEntries at h
  dsimp only at h
  split at h
  · cases h
  obtain ⟨_, _, h⟩ := bind_eq_ok.mp h
  obtain ⟨_, _, h⟩ := bind_eq_ok.mp h
  obtain ⟨_, _, h⟩ := bind_eq_ok.mp h
  obtain ⟨_, _, h⟩ := bind_eq_ok.mp h
  obtain ⟨_, _, h⟩ := bind_eq_ok.mp h
  obtain ⟨_, _, h⟩ := bind_eq_ok.mp h
  obtain ⟨_, configuration, h⟩ := bind_eq_ok.mp h
  obtain ⟨_, baseClass, h⟩ := bind_eq_ok.mp h
  obtain ⟨_, baseInterface, h⟩ := bind_eq_ok.mp h
  obtain ⟨_, transport, h⟩ := bind_eq_ok.mp h
  obtain ⟨_, version, h⟩ := bind_eq_ok.mp h
  cases h
  exact SettingsOf.isAccepted_iff.mpr ⟨checkTypeName_of_typeName configuration,
    checkTypeName_of_typeName baseClass, checkTypeName_of_typeName baseInterface,
    checkTypeName_of_typeName transport, checkVersion_of_version version⟩

theorem Settings.checked_eq_ok_iff {settings settings' : Settings} :
    settings.checked = .ok settings' ↔
      Setting.mentionsTag settings.classNameTemplate = true ∧ settings.IsAccepted ∧
        settings = settings' := by
  have template (b : Bool) : Setting.checkTemplate b = .ok () ↔ b = true := by
    cases b <;> simp [Setting.checkTemplate]
  simp only [checked_eq_ok, template, SettingsOf.isAccepted_iff, and_assoc]

namespace Client

open Setting
open Text (joined)

variable {client : Client} {shape : Constructor} {dialect : Dialect} {lines : List String}

theorem oneLine_given (base : Option String) :
    (∀ s ∈ given base, OneLine s) ↔ ∀ name ∈ base, OneLine name := by
  have empty : OneLine "" := by decide
  cases base with
  | none => simp [given]
  | some name => by_cases none : name = "" <;> simp [given, none, empty]

theorem oneLine_opening {name : String} {bases : List String} (named : OneLine name) :
    OneLine (if bases.isEmpty then "class " ++ name ++ ":"
      else "class " ++ name ++ "(" ++ joined ", " bases ++ "):") ↔
      ∀ base ∈ bases, OneLine base := by
  have fixed : OneLine "class " ∧ OneLine ":" ∧ OneLine "(" ∧ OneLine "):" := by decide
  have comma : OneLine ", " := by decide
  split
  next none =>
    obtain rfl := List.isEmpty_iff.mp none
    simp [named, fixed]
  next => simp [named, fixed, Text.oneLine_joined comma]

theorem oneLine_configurationPart (shape : Constructor) :
    ((∀ s ∈ (configurationPart shape).1, OneLine s) ↔
        ∀ type ∈ shape.configurationType, OneLine type) ∧
      ∀ s ∈ (configurationPart shape).2, OneLine s := by
  have opens : OneLine "configuration: " := by decide
  have fixed : OneLine (bodyIndent ++ "super().__init__(configuration)") ∧
      OneLine (bodyIndent ++ "self.configuration = configuration") ∧
      OneLine (bodyIndent ++ "super().__init__()") := by decide
  unfold configurationPart
  cases shape.configurationType with
  | none => cases shape.initializesBase <;> simp [fixed]
  | some type => cases shape.passesConfiguration <;> simp [opens, fixed]

theorem oneLine_transportPart (shape : Constructor) :
    (∀ s ∈ (transportPart shape).1 ++ (transportPart shape).2, OneLine s) ↔
      OneLine shape.transportType := by
  have fixed : OneLine "transport: " ∧ OneLine (bodyIndent ++ "self._transport = transport") ∧
      OneLine (bodyIndent ++ "self._transport = ") ∧ OneLine "()" := by decide
  unfold transportPart
  cases shape.transport <;> simp [fixed]

theorem oneLine_closingLines {className : String} (named : OneLine className) :
    ∀ line ∈ closingLines className, OneLine line := by
  simp only [closingLines, List.forall_mem_cons, Text.oneLine_append, named]
  decide

theorem oneLine_constructorLines (named : OneLine client.className) :
    (∀ line ∈ client.constructorLines, OneLine line) ↔
      (∀ type ∈ client.constructor.configurationType, OneLine type) ∧
        OneLine client.constructor.transportType := by
  have fixed : OneLine "    def __init__(" ∧ OneLine ") -> None:" ∧ OneLine "self" := by decide
  have comma : OneLine ", " := by decide
  obtain ⟨configuration, configure⟩ := oneLine_configurationPart client.constructor
  have closing : ∀ line ∈ (if client.constructor.transport = .owned
      then closingLines client.className else []), OneLine line := by
    split
    · exact oneLine_closingLines named
    · exact List.forall_mem_nil _
  have transport := oneLine_transportPart client.constructor
  rw [List.forall_mem_append] at transport
  rw [← configuration, ← transport]
  unfold constructorLines
  dsimp only
  simp only [List.forall_mem_cons, List.forall_mem_append, Text.oneLine_append,
    Text.oneLine_joined comma, fixed, true_and, and_true]
  constructor
  · rintro ⟨⟨⟨⟨⟨_, first⟩, second⟩, _⟩, connect⟩, _⟩
    exact ⟨first, second, connect⟩
  · rintro ⟨first, second, connect⟩
    exact ⟨⟨⟨⟨⟨List.forall_mem_nil _, first⟩, second⟩, configure⟩, connect⟩, closing⟩

theorem header_interfaceLines (named : OneLine client.interfaceName)
    (written : client.interfaceLines dialect = .ok lines) :
    ∃ header rest, lines = header :: rest ∧
      (OneLine header ↔ ∀ name ∈ client.baseInterface, OneLine name) := by
  obtain ⟨blocks, _, h⟩ := bind_eq_ok.mp written
  cases h
  have protocol : OneLine "Protocol" := by decide
  have bases : (∀ base ∈ given client.baseInterface ++ ["Protocol"], OneLine base) ↔
      ∀ name ∈ client.baseInterface, OneLine name := by
    rw [List.forall_mem_append, oneLine_given, List.forall_mem_singleton, and_iff_left protocol]
  have opening := (oneLine_opening named).trans bases
  rw [if_neg (by simp)] at opening
  exact ⟨_, _, rfl, opening⟩

theorem header_classLines (named : OneLine client.className)
    (interface : OneLine client.interfaceName)
    (written : client.classLines dialect = .ok lines) :
    ∃ header rest,
      lines = header :: "    base_url: str = ''" :: "" :: client.constructorLines ++ rest ∧
      (OneLine header ↔ ∀ name ∈ client.baseClass, OneLine name) := by
  obtain ⟨blocks, _, h⟩ := bind_eq_ok.mp written
  cases h
  have own : ∀ base ∈ (if client.buildsInterface then [client.interfaceName] else []),
      OneLine base := by
    split
    · simpa using interface
    · exact List.forall_mem_nil _
  have bases : (∀ base ∈ given client.baseClass
      ++ (if client.buildsInterface then [client.interfaceName] else []), OneLine base) ↔
      ∀ name ∈ client.baseClass, OneLine name := by
    rw [List.forall_mem_append, oneLine_given, and_iff_left own]
  exact ⟨_, _, rfl, (oneLine_opening named).trans bases⟩

/-- Whether lines of a client into which names from the settings are written break exactly where
these names have line feeds: the line that begins its interface, the one that begins its class, and
those of its constructor. -/
structure BreaksWith (settings : Settings) (client : Client) : Prop where
  ofInterface : ∀ {dialect lines}, client.interfaceLines dialect = .ok lines →
    ∃ header rest, lines = header :: rest ∧
      (OneLine header ↔ ∀ name ∈ settings.baseInterface, '\n' ∉ name.toList)
  ofClass : ∀ {dialect lines}, client.classLines dialect = .ok lines →
    ∃ header rest,
      lines = header :: "    base_url: str = ''" :: "" :: client.constructorLines ++ rest ∧
      (OneLine header ↔ ∀ name ∈ settings.baseClass, '\n' ∉ name.toList)
  ofConstructor : (∀ line ∈ client.constructorLines, OneLine line) ↔
    (∀ name ∈ settings.configurationType, '\n' ∉ name.toList) ∧
      ∀ name ∈ settings.transportType, '\n' ∉ name.toList

theorem breaksWith_ofGroup {settings : Settings} (accepted : settings.IsAccepted) (tag : String)
    (methods : List Method) : (ofGroup settings tag methods).BreaksWith settings := by
  have named : OneLine (ofGroup settings tag methods).className := by
    obtain ⟨raw, same⟩ := Code.exists_clientName settings tag
    rw [ofGroup_className, same]
    exact Identifier.oneLine_type raw
  have interface : OneLine (ofGroup settings tag methods).interfaceName := by
    rw [ofGroup_className] at named
    rw [ofGroup_interfaceName, Text.oneLine_append]
    exact ⟨named, by decide⟩
  have plain (name : Option String) (h : ∀ s ∈ name, UpToFeed IsDottedName s) :
      (∀ s ∈ name, '\n' ∉ s.toList) ↔ ∀ s ∈ name, OneLine s :=
    forall₂_congr fun s member => (Setting.oneLine_iff (h s member)).symm
  obtain ⟨configuration, baseClass, baseInterface, transport⟩ :=
    SettingsOf.forall_mem_givenNames.mp accepted.names
  have usual : OneLine (settings.transportType.getD usualTransport) ↔
      ∀ name ∈ settings.transportType, OneLine name := by
    cases settings.transportType with
    | none => exact iff_of_true (by decide) nofun
    | some type => simp
  constructor
  · intro dialect lines written
    rw [plain _ baseInterface]
    exact header_interfaceLines interface written
  · intro dialect lines written
    rw [plain _ baseClass]
    exact header_classLines named interface written
  · rw [oneLine_constructorLines named, plain _ configuration, plain _ transport, ← usual]
    rfl

end Client

namespace Settings

theorem ofEntries_eq_ok_iff {entries : List (Scalar × Value)} {settings : Settings} :
    Settings.ofEntries entries = .ok settings ↔
      readEntries [] standard entries = .ok settings ∧
        Setting.mentionsTag settings.classNameTemplate = true ∧ settings.IsAccepted :=
  ofEntries_eq_ok.trans <| and_congr_right fun _ =>
    checked_eq_ok_iff.trans (and_congr_right fun _ => and_iff_left rfl)

/-- Settings read from entries are accepted exactly if they have dotted names and a version of
Python 3, up to a line feed behind each of them and to digits of any script, and settings given one
by one are of this form too. Such settings are clean exactly if no line feed and no other digit is
there, and the lines of clients that the names are written into break exactly at these line feeds. -/
theorem accepted_up_to_feed (entries : List (Scalar × Value)) (settings : Settings) :
    (Settings.ofEntries entries = .ok settings ↔
      readEntries [] standard entries = .ok settings ∧
        Setting.mentionsTag settings.classNameTemplate = true ∧ settings.IsAccepted) ∧
    (∀ loose, LooseSettings.ofEntries entries = .ok loose →
      loose.IsAccepted ∧ (loose.IsClean ↔ loose.IsPlain)) ∧
    (settings.IsAccepted → (settings.IsClean ↔ settings.IsPlain) ∧
      ∀ {description before clients},
        (Client.ofDescription description settings before).result = .ok clients →
        ∀ client ∈ clients, client.BreaksWith settings) := by
  refine ⟨ofEntries_eq_ok_iff, fun loose given => ?_, fun accepted => ⟨accepted.isClean_iff, ?_⟩⟩
  · have accepted := LooseSettings.isAccepted_of_ofEntries given
    exact ⟨accepted, accepted.isClean_iff⟩
  · intro description before clients built client inside
    obtain ⟨tag, methods, rfl⟩ := Module.exists_ofGroup built inside
    exact Client.breaksWith_ofGroup accepted tag methods

/-- Entries that give a base class in a package and a version. -/
def packaged : List (Scalar × Value) :=
  [(.text "baseClassName", .text "api.v2.Base"), (.text "target_python", .text "3.12")]

/-- Entries without a line feed give clean settings. -/
theorem accepted_packaged :
    ∃ settings, Settings.ofEntries packaged = .ok settings ∧ settings.IsClean := by
  have read : (Settings.ofEntries packaged).toOption.map
      (fun settings => (settings.targetVersion, settings.givenNames)) =
        some ("3.12", ["api.v2.Base"]) := by decide +kernel
  obtain ⟨settings, same, given⟩ := Option.map_eq_some_iff.mp read
  obtain ⟨version, names⟩ := Prod.mk.inj given
  have read := eq_ok_of_toOption same
  obtain ⟨accepts, _, meets⟩ := accepted_up_to_feed packaged settings
  refine ⟨settings, read, (meets (accepts.mp read).2.2).1.mpr ?_⟩
  rw [SettingsOf.IsPlain, version, names]
  simp

/-- Entries that name a transport with a line feed behind it, as a block of text in a file does. -/
def transportWithFeed : List (Scalar × Value) :=
  [(.text "custom_transport_type_name", .text "httpx.AsyncClient\n")]

/-- Both readers accept a transport with a line feed, which breaks a line of the constructor. -/
theorem transport_with_feed_accepted :
    (∃ settings, Settings.ofEntries transportWithFeed = .ok settings ∧ ¬settings.IsClean ∧
      ∀ tag methods, ∃ line ∈ (Client.ofGroup settings tag methods).constructorLines,
        ¬OneLine line) ∧
    ∃ settings, LooseSettings.ofEntries transportWithFeed = .ok settings ∧ ¬settings.IsClean := by
  have feed : '\n' ∈ "httpx.AsyncClient\n".toList := by decide
  constructor
  · have read : (Settings.ofEntries transportWithFeed).toOption.map SettingsOf.transportType =
        some (some "httpx.AsyncClient\n") := by decide +kernel
    obtain ⟨settings, same, transport⟩ := Option.map_eq_some_iff.mp read
    have read := eq_ok_of_toOption same
    obtain ⟨_, _, accepted⟩ := ofEntries_eq_ok_iff.mp read
    refine ⟨settings, read, SettingsOf.not_isClean ?_ feed, fun tag methods => ?_⟩
    · simp [SettingsOf.givenNames, transport]
    · by_contra unbroken
      have whole : ∀ line ∈ (Client.ofGroup settings tag methods).constructorLines, OneLine line :=
        fun line member => by_contra fun broken => unbroken ⟨line, member, broken⟩
      obtain ⟨_, plain⟩ := (Client.breaksWith_ofGroup accepted tag methods).ofConstructor.mp whole
      exact plain _ transport feed
  · have read : (LooseSettings.ofEntries transportWithFeed).toOption.map
        SettingsOf.transportType = some (some "httpx.AsyncClient\n") := by decide +kernel
    obtain ⟨settings, same, transport⟩ := Option.map_eq_some_iff.mp read
    refine ⟨settings, eq_ok_of_toOption same, SettingsOf.not_isClean ?_ feed⟩
    simp [SettingsOf.givenNames, transport]

end Settings

end ApiBinding
