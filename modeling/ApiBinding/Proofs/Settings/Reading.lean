import ApiBinding.Proofs.Settings.Choice

/-!
Reading settings from entries. What is read depends on no order and on no spelling of the keys: each
setting has what its one entry comes to, or what is standard.
-/

namespace ApiBinding

namespace Settings

variable {settings settings' : Settings} {setting : Setting} {v : Value}

/-- What entries say: for which setting each one is, if for any, and its value. -/
def said (entries : List (Scalar × Value)) : List (Option Setting × Value) :=
  entries.map fun entry => (settingOf? entry.1, entry.2)

/-- What settings are given by entries over others that hold where nothing is said. -/
structure Gives (start : Settings) (said : List (Option Setting × Value)) (settings : Settings) :
    Prop where
  known : none ∉ said.map Prod.fst
  once : (said.map Prod.fst).Nodup
  read : ∀ setting v, (some setting, v) ∈ said → setting.read v = .ok (settings.choice setting)
  others : ∀ setting, some setting ∉ said.map Prod.fst →
    settings.choice setting = start.choice setting

variable {start : Settings} {entries entries' : List (Scalar × Value)}
  {pairs pairs' : List (Option Setting × Value)}

theorem gives_nil : Gives start [] settings ↔ start = settings := by
  constructor
  · intro gives
    exact (eq_of_choice fun setting => gives.others setting List.not_mem_nil).symm
  · rintro rfl
    exact ⟨List.not_mem_nil, List.nodup_nil, nofun, fun _ _ => rfl⟩

theorem not_gives_unknown : ¬Gives start ((none, v) :: pairs) settings :=
  fun gives => gives.known (List.mem_cons_self ..)

/-- One entry more gives what the others give over settings with its value. -/
theorem gives_cons : Gives start ((some setting, v) :: pairs) settings ↔
    some setting ∉ pairs.map Prod.fst ∧
      ∃ next, start.withValue setting v = .ok next ∧ Gives next pairs settings := by
  constructor
  · intro gives
    obtain ⟨fresh, once⟩ := List.nodup_cons.mp gives.once
    have read := gives.read setting v (List.mem_cons_self ..)
    obtain ⟨next, given⟩ := exists_withValue start read
    obtain ⟨read', kept⟩ := choice_of_withValue given
    refine ⟨fresh, next, given, fun h => gives.known (List.mem_cons_of_mem _ h), once,
      fun other w h => gives.read other w (List.mem_cons_of_mem _ h), fun other unsaid => ?_⟩
    by_cases same : other = setting
    · subst same
      exact Except.ok.inj (read.symm.trans read')
    · rw [kept other same]
      refine gives.others other fun h => ?_
      rcases List.mem_cons.mp h with here | h
      · exact same (Option.some.inj here)
      · exact unsaid h
  · rintro ⟨fresh, next, given, gives⟩
    obtain ⟨read, kept⟩ := choice_of_withValue given
    refine ⟨fun h => ?_, List.nodup_cons.mpr ⟨fresh, gives.once⟩, fun other w h => ?_,
      fun other unsaid => ?_⟩
    · rcases List.mem_cons.mp h with here | h
      · cases here
      · exact gives.known h
    · rcases List.mem_cons.mp h with here | h
      · cases here
        rwa [gives.others setting fresh]
      · exact gives.read other w h
    · rw [List.map_cons, List.mem_cons, not_or] at unsaid
      rw [gives.others other unsaid.2, kept other fun same => unsaid.1 (congrArg some same)]

/-- The order in which entries are read is of no account. -/
theorem Gives.perm (gives : Gives start pairs settings) (order : pairs.Perm pairs') :
    Gives start pairs' settings := by
  have names := order.map Prod.fst
  exact ⟨fun h => gives.known (names.mem_iff.mpr h), names.nodup gives.once,
    fun setting v h => gives.read setting v (order.mem_iff.mpr h),
    fun setting h => gives.others setting fun h' => h (names.mem_iff.mp h')⟩

theorem settingOf_of_some {key : Scalar} (named : settingOf? key = some setting) :
    settingOf key = .ok setting := by
  rw [settingOf, named]

theorem settingOf_of_none {key : Scalar} (unnamed : settingOf? key = none) :
    ∀ setting, settingOf key ≠ .ok setting := by
  intro setting known
  rw [settingOf, unnamed] at known
  obtain ⟨_, _, known⟩ := bind_eq_ok.mp known
  cases known

/-- Entries are read as the settings that they give, if none is for a setting given before. -/
theorem readEntries_eq_ok (given : List Setting) :
    readEntries given start entries = .ok settings ↔
      Gives start (said entries) settings ∧
        ∀ setting ∈ given, some setting ∉ (said entries).map Prod.fst := by
  induction entries generalizing given start with
  | nil => simp [readEntries, said, gives_nil]
  | cons entry entries ih =>
    obtain ⟨key, v⟩ := entry
    rw [readEntries, bind_eq_ok]
    cases named : settingOf? key with
    | none =>
      have front : said ((key, v) :: entries) = (none, v) :: said entries := by
        rw [said, List.map_cons, named, said]
      refine iff_of_false ?_ fun h => not_gives_unknown (front ▸ h.1)
      rintro ⟨setting, known, _⟩
      exact settingOf_of_none named setting known
    | some setting =>
      have front : said ((key, v) :: entries) = (some setting, v) :: said entries := by
        rw [said, List.map_cons, named, said]
      rw [front, gives_cons, List.map_cons, settingOf_of_some named]
      simp only [Except.ok.injEq, exists_eq_left', List.mem_cons, not_or]
      by_cases taken : setting ∈ given
      · rw [if_pos (by simpa using taken)]
        exact iff_of_false nofun fun h => (h.2 setting taken).1 rfl
      · rw [if_neg (by simpa using taken), bind_eq_ok]
        simp only [ih, List.forall_mem_cons]
        constructor
        · rintro ⟨next, read, gives, fresh, others⟩
          exact ⟨⟨fresh, next, read, gives⟩, fun other before =>
            ⟨fun same => taken (Option.some.inj same ▸ before), others other before⟩⟩
        · rintro ⟨⟨fresh, next, read, gives⟩, others⟩
          exact ⟨next, read, gives, fresh, fun other before => (others other before).2⟩

theorem ofEntries_eq_ok_gives :
    Settings.ofEntries entries = .ok settings ↔
      Gives standard (said entries) settings ∧ settings.checked = .ok settings := by
  rw [ofEntries_eq_ok, readEntries_eq_ok, and_iff_left (List.forall_mem_nil _)]

/-- Whether entries say the same as others: in another order, by the other spelling of a key, with
the items of a list of methods in another order or repeated, or by several such changes. -/
inductive Rearranged : List (Scalar × Value) → List (Scalar × Value) → Prop where
  | permuted {entries entries' : List (Scalar × Value)} (order : entries.Perm entries') :
    Rearranged entries entries'
  | respelled (before after : List (Scalar × Value)) {setting : Setting} {key key' : Scalar}
    (v : Value) (named : setting.Names key) (named' : setting.Names key') :
    Rearranged (before ++ (key, v) :: after) (before ++ (key', v) :: after)
  | relisted (before after : List (Scalar × Value)) {setting : Setting} {key : Scalar}
    {v v' : Value} (named : setting.Names key) (lists : setting.listsMethods = true)
    (same : SameItems v v') : Rearranged (before ++ (key, v) :: after) (before ++ (key, v') :: after)
  | trans {entries entries' entries'' : List (Scalar × Value)}
    (first : Rearranged entries entries') (second : Rearranged entries' entries'') :
    Rearranged entries entries''

theorem Rearranged.symm (rearranged : Rearranged entries entries') :
    Rearranged entries' entries := by
  induction rearranged with
  | permuted order => exact .permuted order.symm
  | respelled before after v named named' => exact .respelled before after v named' named
  | relisted before after named lists same => exact .relisted before after named lists same.symm
  | trans _ _ ih ih' => exact ih'.trans ih

/-- Another value that comes to the same for its setting makes no difference. -/
theorem Gives.replace {before after : List (Option Setting × Value)} {v' : Value}
    (gives : Gives start (before ++ (some setting, v) :: after) settings)
    (same : ∀ choice, setting.read v = .ok choice → setting.read v' = .ok choice) :
    Gives start (before ++ (some setting, v') :: after) settings := by
  have names : (before ++ (some setting, v') :: after).map Prod.fst =
      (before ++ (some setting, v) :: after).map Prod.fst := by simp
  refine ⟨names ▸ gives.known, names ▸ gives.once, fun other w h => ?_, names ▸ gives.others⟩
  have elsewhere (h : (some other, w) ∈ before ∨ (some other, w) ∈ after) :
      other.read w = .ok (settings.choice other) := by
    refine gives.read other w (List.mem_append.mpr (h.imp_right fun h => ?_))
    exact List.mem_cons_of_mem _ h
  rcases List.mem_append.mp h with h | h
  · exact elsewhere (.inl h)
  · rcases List.mem_cons.mp h with here | h
    · cases here
      exact same _ (gives.read setting v (by simp))
    · exact elsewhere (.inr h)

theorem said_between {before after : List (Scalar × Value)} {key : Scalar}
    (named : setting.Names key) :
    said (before ++ (key, v) :: after) = said before ++ (some setting, v) :: said after := by
  rw [said, List.map_append, List.map_cons, Setting.settingOf?_eq_some.mpr named]
  rfl

/-- What entries give, entries that say the same give too. -/
theorem Rearranged.gives (rearranged : Rearranged entries entries')
    (gives : Gives start (said entries) settings) : Gives start (said entries') settings := by
  induction rearranged with
  | permuted order => exact gives.perm (order.map _)
  | respelled before after v named named' =>
    rwa [said_between named', ← said_between named]
  | relisted before after named lists same =>
    rw [said_between named] at gives ⊢
    exact gives.replace fun choice => read_of_sameItems lists same
  | trans _ _ ih ih' => exact ih' (ih gives)

theorem failsOnly_settingOf {key : Scalar} (writable : key.isWritable = true) :
    FailsOnly IsProblem (settingOf key) := by
  have written : (Value.scalar key).checkWritable = .ok () := by
    simp [Value.checkWritable, Value.scalars, writable]
  unfold settingOf
  split <;> simp [written]

theorem failsOnly_readEntries (writable : ∀ entry ∈ entries, entry.1.isWritable = true)
    (given : List Setting) (start : Settings) :
    FailsOnly IsProblem (readEntries given start entries) := by
  induction entries generalizing given start with
  | nil => exact FailsOnly.ok _
  | cons entry entries ih =>
    rw [List.forall_mem_cons] at writable
    refine FailsOnly.bind (failsOnly_settingOf writable.1) fun setting _ => ?_
    split
    · simp
    · refine FailsOnly.bind (fun failure failed => ?_) fun next _ => ih writable.2 _ next
      exact failsOnly_read setting entry.2 failure (withValue_eq_error.mp failed)

theorem failsOnly_checked (settings : Settings) : FailsOnly IsProblem settings.checked := by
  have template (mentions : Bool) : FailsOnly IsProblem (Setting.checkTemplate mentions) := by
    unfold Setting.checkTemplate
    split <;> simp
  have typeName (setting : Setting) (given : Option String) :
      FailsOnly IsProblem (Setting.checkTypeName setting given) := by
    cases given with
    | none => simp [Setting.checkTypeName]
    | some s =>
      rw [Setting.checkTypeName]
      split <;> simp
  have version (s : String) : FailsOnly IsProblem (Setting.checkVersion s) := by
    unfold Setting.checkVersion
    split <;> simp
  exact (template _).bind fun _ _ => (typeName _ _).bind fun _ _ => (typeName _ _).bind fun _ _ =>
    (typeName _ _).bind fun _ _ => (typeName _ _).bind fun _ _ => (version _).bind fun _ _ =>
      FailsOnly.ok _

/-- Reading settings from entries with keys that can be written, as all texts can, ends in settings
or in a problem with them. -/
theorem failsOnly_ofEntries (writable : ∀ entry ∈ entries, entry.1.isWritable = true) :
    FailsOnly IsProblem (Settings.ofEntries entries) :=
  (failsOnly_readEntries writable [] standard).bind fun settings _ => failsOnly_checked settings

/-- Entries that give one setting by both of its spellings are not read. -/
theorem not_gives_twice {v' : Value} (first : (.text setting.key, v) ∈ entries)
    (second : (.text setting.otherKey, v') ∈ entries) : ¬Gives start (said entries) settings := by
  intro gives
  have once : (entries.map fun entry => settingOf? entry.1).Nodup := by
    simpa [said, Function.comp_def] using gives.once
  have named : settingOf? (.text setting.key) = some setting :=
    Setting.settingOf?_eq_some.mpr (.inl rfl)
  have named' : settingOf? (.text setting.otherKey) = some setting :=
    Setting.settingOf?_eq_some.mpr (.inr rfl)
  have same := List.inj_on_of_nodup_map once first second (named.trans named'.symm)
  exact setting.key_ne_otherKey (Scalar.text.inj (Prod.mk.inj same).1)

/-- Settings are read alike from entries in any order, by either spelling of the keys and from
lists of methods in any order and with repetitions; the texts in such a list are as readers make
them. Entries that give a setting by both spellings are refused for it or for another problem with
settings; keys that are texts, or no numbers that are too long to be written, are taken for
granted. -/
theorem ofEntries_rearranged :
    (∀ {entries entries'}, Rearranged entries entries' → ∀ settings,
      Settings.ofEntries entries = .ok settings ↔ Settings.ofEntries entries' = .ok settings) ∧
    ∀ {entries : List (Scalar × Value)} {setting : Setting} {v v' : Value},
      (∀ entry ∈ entries, entry.1.isWritable = true) → (.text setting.key, v) ∈ entries →
      (.text setting.otherKey, v') ∈ entries →
      ∃ problem, Settings.ofEntries entries = .error (.settings problem) := by
  refine ⟨fun rearranged settings => ?_, fun {entries setting v v'} writable first second => ?_⟩
  · rw [ofEntries_eq_ok_gives, ofEntries_eq_ok_gives]
    exact and_congr_left fun _ => ⟨rearranged.gives, rearranged.symm.gives⟩
  · cases read : Settings.ofEntries entries with
    | ok settings => exact absurd (ofEntries_eq_ok_gives.mp read).1 (not_gives_twice first second)
    | error failure =>
      obtain ⟨problem, rfl⟩ := failsOnly_ofEntries writable failure read
      exact ⟨problem, rfl⟩

/-- Entries that ask for wrapped results and for streaming of two methods. -/
def wrappedStreams : List (Scalar × Value) :=
  [(.text "wrapResponses", .bool true),
    (.text "large_array_response_methods", .list [.text "Pet.List", .text "Pet.Find"])]

/-- The same the other way round, with other spellings and one method given twice. -/
def streamsWrapped : List (Scalar × Value) :=
  [(.text "largeArrayResponseMethods", .list [.text "Pet.Find", .text "Pet.List", .text "Pet.Find"]),
    (.text "wrap_responses", .bool true)]

/-- One setting by both of its spellings. -/
def wrappedTwice : List (Scalar × Value) :=
  [(.text "wrapResponses", .bool true), (.text "wrap_responses", .bool false)]

/-- Streams are read alike from both, and a setting given twice is refused. -/
theorem streams_rearranged :
    (∃ settings, Settings.ofEntries wrappedStreams = .ok settings ∧
      Settings.ofEntries streamsWrapped = .ok settings) ∧
    ∃ problem, Settings.ofEntries wrappedTwice = .error (.settings problem) := by
  have wraps : Setting.wrapResponses.Names (.text "wrap_responses") := .inl rfl
  have wraps' : Setting.wrapResponses.Names (.text "wrapResponses") := .inr rfl
  have streams : Setting.streamedResponses.Names (.text "large_array_response_methods") := .inl rfl
  have streams' : Setting.streamedResponses.Names (.text "largeArrayResponseMethods") := .inr rfl
  have same : SameItems (.list [.text "Pet.List", .text "Pet.Find"])
      (.list [.text "Pet.Find", .text "Pet.List", .text "Pet.Find"]) := by
    refine ⟨_, _, rfl, rfl, fun item => ?_, fun s given => ?_⟩
    · simp only [List.mem_cons, List.not_mem_nil, or_false]
      tauto
    · simp only [List.mem_cons, List.not_mem_nil, or_false] at given
      rcases given with given | given <;> cases given <;> decide
  have rearranged : Rearranged wrappedStreams streamsWrapped :=
    (Rearranged.respelled [] _ _ wraps' wraps).trans <|
      (Rearranged.respelled [(.text "wrap_responses", .bool true)] [] _ streams streams').trans <|
        (Rearranged.relisted _ [] streams' rfl same).trans <| .permuted (List.Perm.swap _ _ _)
  have read : (Settings.ofEntries wrappedStreams).isOk = true := by decide +kernel
  obtain ⟨settings, read⟩ := exists_eq_ok read
  have first : (.text Setting.wrapResponses.key, .bool false) ∈ wrappedTwice :=
    List.mem_cons_of_mem _ (List.mem_cons_self ..)
  have second : (.text Setting.wrapResponses.otherKey, .bool true) ∈ wrappedTwice :=
    List.mem_cons_self ..
  exact ⟨⟨settings, read, (ofEntries_rearranged.1 rearranged settings).mp read⟩,
    ofEntries_rearranged.2 (by decide) first second⟩

end Settings

end ApiBinding
