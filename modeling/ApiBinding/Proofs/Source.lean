import ApiBinding.Proofs.Settings.Reading
import ApiBinding.Source

/-!
How reading a document or settings by a name ends. It ends as declared, in what is read or in a
failure for the purpose of reading, unless it stumbles: over a name that nothing can have, over bytes
that spell no text, or over what a text says in its format but no value can be.
-/

namespace ApiBinding

/-- What a failure is declared for, if it is declared at all. -/
def Failure.purpose? : Failure → Option Purpose
  | .settings _ => some .settings
  | .description _ => some .description
  | .source purpose _ => some purpose
  | _ => none

/-- Whether a run only fails as declared for the purpose, but for the misuses it stumbles over. -/
structure EndsDeclared {α : Type} (purpose : Purpose) (stumbles : Misuse → Prop)
    (run : Except Failure α) : Prop where
  declared : FailsOnly (fun failure => failure.purpose? = some purpose ∨
    ∃ kind, stumbles kind ∧ failure = .misuse kind) run
  stumbling : ∀ kind, stumbles kind → run = .error (.misuse kind)

namespace EndsDeclared

variable {α β : Type} {purpose : Purpose} {stumbles others : Misuse → Prop}
  {run : Except Failure α}

theorem of_ok (smooth : ∀ kind, ¬stumbles kind) (a : α) :
    EndsDeclared purpose stumbles (.ok a : Except _ α) :=
  ⟨FailsOnly.ok a, fun kind h => absurd h (smooth kind)⟩

theorem of_error (smooth : ∀ kind, ¬stumbles kind) {failure : Failure}
    (declared : failure.purpose? = some purpose) :
    EndsDeclared purpose stumbles (.error failure : Except _ α) :=
  ⟨FailsOnly.error_iff.mpr (.inl declared), fun kind h => absurd h (smooth kind)⟩

theorem of_misuse {kind : Misuse} (same : ∀ other, stumbles other ↔ other = kind) :
    EndsDeclared purpose stumbles (.error (.misuse kind) : Except _ α) := by
  refine ⟨FailsOnly.error_iff.mpr (.inr ⟨kind, (same kind).mpr rfl, rfl⟩), fun other h => ?_⟩
  rw [(same other).mp h]

/-- What comes after a run adds what it stumbles over itself. -/
theorem bind {next : α → Except Failure β} {later : α → Misuse → Prop}
    (first : EndsDeclared purpose stumbles run)
    (rest : ∀ a, run = .ok a → EndsDeclared purpose (later a) (next a)) :
    EndsDeclared purpose
      (fun kind => stumbles kind ∨ ∃ a, run = .ok a ∧ later a kind) (run >>= next) := by
  refine ⟨(first.declared.mono fun failure => ?_).bind fun a ran => ?_, ?_⟩
  · exact Or.imp_right fun ⟨kind, h, same⟩ => ⟨kind, .inl h, same⟩
  · refine (rest a ran).declared.mono fun failure => ?_
    exact Or.imp_right fun ⟨kind, h, same⟩ => ⟨kind, .inr ⟨a, ran, h⟩, same⟩
  · rintro kind (h | ⟨a, ran, h⟩)
    · rw [first.stumbling kind h, error_bind]
    · rw [ran, ok_bind, (rest a ran).stumbling kind h]

theorem congr (ends : EndsDeclared purpose stumbles run)
    (same : ∀ kind, stumbles kind ↔ others kind) : EndsDeclared purpose others run :=
  ⟨ends.declared.mono fun _ => Or.imp_right fun ⟨kind, h, is⟩ => ⟨kind, (same kind).mp h, is⟩,
    fun kind h => ends.stumbling kind ((same kind).mpr h)⟩

end EndsDeclared

namespace Settings

/-- Whether entries have a key that is too long a number to be told of, where all entries before it
can be read. -/
def HasUntellableKey (entries : List (Scalar × Value)) : Prop :=
  ∃ before key v after settings, entries = before ++ (key, v) :: after ∧
    readEntries [] standard before = .ok settings ∧ key.isWritable = false

variable {key : Scalar}

theorem settingOf_untellable (long : key.isWritable = false) :
    settingOf key = .error (.misuse .numeral) := by
  cases key with
  | int i =>
    have written : (Value.scalar (.int i)).checkWritable = .error (.misuse .numeral) := by
      simp [Value.checkWritable, Value.scalars, long]
    have unnamed : settingOf? (.int i) = none := rfl
    rw [settingOf, unnamed, written]
    rfl
  | _ => cases long

theorem readEntries_untellable (long : key.isWritable = false) (given : List Setting)
    (start : Settings) (before : List (Scalar × Value)) (v : Value)
    (after : List (Scalar × Value)) :
    readEntries given start (before ++ (key, v) :: after) =
      readEntries given start before >>= fun _ => .error (.misuse .numeral) := by
  induction before generalizing given start with
  | nil =>
    simp only [List.nil_append, readEntries, settingOf_untellable long, error_bind, ok_bind]
  | cons entry before ih =>
    rw [List.cons_append, readEntries, readEntries]
    cases settingOf entry.1 with
    | error failure => rfl
    | ok setting =>
      simp only [ok_bind]
      split
      · rfl
      · cases start.withValue setting entry.2 with
        | error failure => rfl
        | ok next => exact ih _ _

theorem endsDeclared_ofEntries (entries : List (Scalar × Value)) :
    EndsDeclared .settings (fun kind => kind = .numeral ∧ HasUntellableKey entries)
      (Settings.ofEntries entries) := by
  have declared {failure : Failure} (h : IsProblem failure) :
      failure.purpose? = some .settings := by
    obtain ⟨problem, rfl⟩ := h
    rfl
  cases untold : entries.find? fun entry => !entry.1.isWritable with
  | none =>
    have writable : ∀ entry ∈ entries, entry.1.isWritable = true := by
      simpa using untold
    refine ⟨(failsOnly_ofEntries writable).mono fun failure h => .inl (declared h), ?_⟩
    rintro kind ⟨_, before, key, v, after, settings, rfl, _, long⟩
    rw [writable (key, v) (by simp)] at long
    cases long
  | some entry =>
    obtain ⟨long, before, after, rfl, writable⟩ := List.find?_eq_some_iff_append.mp untold
    rw [Bool.not_eq_true'] at long
    have told := readEntries_untellable long [] standard before entry.2 after
    have whole : Settings.ofEntries (before ++ entry :: after) =
        readEntries [] standard before >>= fun _ => .error (.misuse .numeral) := by
      rw [Settings.ofEntries, told]
      cases readEntries [] standard before <;> rfl
    rw [whole]
    cases read : readEntries [] standard before with
    | ok settings =>
      refine EndsDeclared.of_misuse fun kind => and_iff_left ?_
      exact ⟨before, entry.1, entry.2, after, settings, rfl, read, long⟩
    | error failure =>
      have writable : ∀ entry ∈ before, entry.1.isWritable = true := by simpa using writable
      have problem := failsOnly_readEntries writable [] standard failure read
      refine ⟨FailsOnly.error_iff.mpr (.inl (declared problem)), ?_⟩
      rintro kind ⟨rfl, before', key, v, after', settings, same, read', long'⟩
      have told' := readEntries_untellable long' [] standard before' v after'
      rw [← same, told, read, read'] at told'
      rw [error_bind] at told' ⊢
      exact told'

end Settings

/-- An address is refused in one way only. -/
theorem Url.parse_eq_error {name : String} {failure : Failure}
    (refused : Url.parse name = .error failure) : failure = .misuse .numeral := by
  unfold Url.parse at refused
  dsimp only at refused
  split at refused <;> cases refused
  rfl

namespace Source

variable {name text : String} {code : ByteArray} {bytes : Option ByteArray} {purpose : Purpose}
  {content : Content} {failure malformed : Failure}

theorem decoded_eq_ok : decoded code = .ok text ↔ text.toUTF8 = code := by
  unfold decoded String.fromUTF8?
  constructor
  · intro read
    split at read
    next spelled =>
      split at spelled
      next => cases spelled; cases read; rfl
      next => cases spelled
    next => cases read
  · rintro rfl
    have valid : text.toUTF8.IsValidUTF8 := text.isValidUTF8
    rw [dif_pos valid]
    rfl

theorem decoded_eq_error :
    decoded code = .error failure ↔
      (∀ text : String, text.toUTF8 ≠ code) ∧ failure = .misuse .encoding := by
  constructor
  · intro failed
    refine ⟨fun text spells => ?_, ?_⟩
    · rw [decoded_eq_ok.mpr spells] at failed
      cases failed
    · unfold decoded at failed
      split at failed <;> cases failed
      rfl
  · rintro ⟨spells, rfl⟩
    cases read : decoded code with
    | ok text => exact absurd (decoded_eq_ok.mp read) (spells text)
    | error failure =>
      unfold decoded at read
      split at read <;> cases read
      rfl

/-- Whether a name can be that of a file. -/
structure IsFileName (name : String) : Prop where
  spelled : FileName.isSpelled name = true
  whole : '\x00' ∉ name.toList
  short : FileName.isTooLong name = false
  leaf : FileName.isDirectory name = false

/-- Whether a name leads to a content: the text that bytes of the web spell, or those of a file, in
which all lines end with line feeds. -/
inductive Holds (name : String) (bytes : Option ByteArray) : Content → Prop
  | web {url : Url} {text : String} (address : Url.parse name = .ok url)
      (isWeb : url.isWeb = true) (spelled : bytes = some text.toUTF8) :
      Holds name bytes ⟨text, url.extension⟩
  | file {url : Url} {text : String} (address : Url.parse name = .ok url)
      (isWeb : url.isWeb = false) (isFile : IsFileName name)
      (spelled : bytes = some text.toUTF8) :
      Holds name bytes
        ⟨String.ofList (Text.withLineFeeds text.toList), FileName.extension name⟩

/-- What looking for the content of a name stumbles over: the form of an address, a half or a null
character in the name of a file, and bytes that spell no text. -/
inductive Unreadable (name : String) (bytes : Option ByteArray) : Misuse → Prop
  | address (wrong : ∀ url, Url.parse name ≠ .ok url) : Unreadable name bytes .numeral
  | half {url : Url} (address : Url.parse name = .ok url) (isWeb : url.isWeb = false)
      (half : FileName.isSpelled name = false) : Unreadable name bytes .loneHalf
  | null {url : Url} (address : Url.parse name = .ok url) (isWeb : url.isWeb = false)
      (spelled : FileName.isSpelled name = true) (null : '\x00' ∈ name.toList) :
      Unreadable name bytes .numeral
  | code {url : Url} {code : ByteArray} (address : Url.parse name = .ok url)
      (found : url.isWeb = true ∨ IsFileName name) (given : bytes = some code)
      (spells : ∀ text : String, text.toUTF8 ≠ code) : Unreadable name bytes .encoding

/-- The text in a file with the name, as it is read from the bytes in it. -/
def fileContent (name : String) (code : ByteArray) : Except Failure Content := do
  return ⟨String.ofList (Text.withLineFeeds (← decoded code).toList), FileName.extension name⟩

theorem opened_of_isFileName (isFile : IsFileName name) (purpose : Purpose) (code : ByteArray) :
    opened purpose name (some code) = fileContent name code := by
  have whole : name.toList.contains '\x00' = false := by simpa using isFile.whole
  simp only [opened, isFile.spelled, isFile.short, isFile.leaf, whole, Bool.not_true,
    Bool.false_eq_true, if_false]
  rfl

theorem opened_half (half : FileName.isSpelled name = false) (purpose : Purpose)
    (bytes : Option ByteArray) : opened purpose name bytes = .error (.misuse .loneHalf) := by
  simp [opened, half]

theorem opened_null (spelled : FileName.isSpelled name = true) (null : '\x00' ∈ name.toList)
    (purpose : Purpose) (bytes : Option ByteArray) :
    opened purpose name bytes = .error (.misuse .numeral) := by
  simp [opened, spelled, null]

/-- How opening a file by a name ends: the name is out of form, the file is read, or else the failure
is declared. -/
theorem opened_cases (purpose : Purpose) (name : String) (bytes : Option ByteArray) :
    FileName.isSpelled name = false ∨
      (FileName.isSpelled name = true ∧ '\x00' ∈ name.toList) ∨
      (IsFileName name ∧ ∃ code, bytes = some code) ∨
      ∃ problem, opened purpose name bytes = .error (.source purpose problem) := by
  cases spelled : FileName.isSpelled name with
  | false => exact .inl rfl
  | true =>
    by_cases null : '\x00' ∈ name.toList
    · exact .inr (.inl ⟨rfl, null⟩)
    · refine .inr (.inr ?_)
      cases long : FileName.isTooLong name with
      | true => exact .inr ⟨_, by simp [opened, spelled, null, long]; rfl⟩
      | false =>
        cases directory : FileName.isDirectory name with
        | true => exact .inr ⟨_, by simp [opened, spelled, null, long, directory]; rfl⟩
        | false =>
          cases bytes with
          | none => exact .inr ⟨_, by simp [opened, spelled, null, long, directory]; rfl⟩
          | some code => exact .inl ⟨⟨spelled, null, long, directory⟩, code, rfl⟩

theorem content_of_isWeb {url : Url} (address : Url.parse name = .ok url)
    (isWeb : url.isWeb = true) (purpose : Purpose) (bytes : Option ByteArray) :
    Source.content purpose name bytes = fetched purpose name url bytes := by
  rw [Source.content, address, ok_bind, if_pos isWeb]

theorem content_of_not_isWeb {url : Url} (address : Url.parse name = .ok url)
    (isWeb : url.isWeb = false) (purpose : Purpose) (bytes : Option ByteArray) :
    Source.content purpose name bytes = opened purpose name bytes := by
  rw [Source.content, address, ok_bind, isWeb, if_neg Bool.false_ne_true]

theorem content_of_holds (holds : Holds name bytes content) (purpose : Purpose) :
    Source.content purpose name bytes = .ok content := by
  cases holds with
  | web address isWeb spelled =>
    rw [content_of_isWeb address isWeb, spelled, fetched, decoded_eq_ok.mpr rfl]
    rfl
  | file address isWeb isFile spelled =>
    rw [content_of_not_isWeb address isWeb, spelled, opened_of_isFileName isFile, fileContent,
      decoded_eq_ok.mpr rfl]
    rfl

theorem content_of_unreadable {kind : Misuse} (unreadable : Unreadable name bytes kind)
    (purpose : Purpose) : Source.content purpose name bytes = .error (.misuse kind) := by
  cases unreadable with
  | address wrong =>
    cases address : Url.parse name with
    | ok url => exact absurd address (wrong url)
    | error failure =>
      rw [Source.content, address, error_bind, Url.parse_eq_error address]
  | half address isWeb half => rw [content_of_not_isWeb address isWeb, opened_half half]
  | null address isWeb spelled null =>
    rw [content_of_not_isWeb address isWeb, opened_null spelled null]
  | @code url code address found given spells =>
    have undecoded := decoded_eq_error.mpr ⟨spells, rfl⟩
    cases isWeb : url.isWeb with
    | true =>
      rw [content_of_isWeb address isWeb, given, fetched, undecoded]
      rfl
    | false =>
      have isFile : IsFileName name := found.resolve_left (by simp [isWeb])
      rw [content_of_not_isWeb address isWeb, given, opened_of_isFileName isFile, fileContent,
        undecoded]
      rfl

/-- Every name leads to a content, is unreadable, or is refused as declared. -/
theorem content_cases (purpose : Purpose) (name : String) (bytes : Option ByteArray) :
    (∃ content, Holds name bytes content) ∨ (∃ kind, Unreadable name bytes kind) ∨
      ∃ problem, Source.content purpose name bytes = .error (.source purpose problem) := by
  cases address : Url.parse name with
  | error failure =>
    exact .inr (.inl ⟨_, .address fun url read => by cases address.symm.trans read⟩)
  | ok url =>
    have reached (code : ByteArray) (given : bytes = some code)
        (found : url.isWeb = true ∨ IsFileName name) :
        (∃ content, Holds name bytes content) ∨ ∃ kind, Unreadable name bytes kind := by
      by_cases spells : ∃ text : String, text.toUTF8 = code
      · obtain ⟨text, rfl⟩ := spells
        cases isWeb : url.isWeb with
        | true => exact .inl ⟨_, .web address isWeb given⟩
        | false => exact .inl ⟨_, .file address isWeb (found.resolve_left (by simp [isWeb])) given⟩
      · exact .inr ⟨_, .code address found given (not_exists.mp spells)⟩
    cases isWeb : url.isWeb with
    | true =>
      cases bytes with
      | none => exact .inr (.inr ⟨_, by rw [content_of_isWeb address isWeb]; rfl⟩)
      | some code => exact or_assoc.mp (.inl (reached code rfl (.inl isWeb)))
    | false =>
      rcases opened_cases purpose name bytes with
        half | ⟨spelled, null⟩ | ⟨isFile, code, given⟩ | ⟨problem, refused⟩
      · exact .inr (.inl ⟨_, .half address isWeb half⟩)
      · exact .inr (.inl ⟨_, .null address isWeb spelled null⟩)
      · exact or_assoc.mp (.inl (reached code given (.inr isFile)))
      · exact .inr (.inr ⟨problem, by rw [content_of_not_isWeb address isWeb, refused]⟩)

theorem content_eq_ok :
    Source.content purpose name bytes = .ok content ↔ Holds name bytes content := by
  refine ⟨fun read => ?_, fun holds => content_of_holds holds purpose⟩
  rcases content_cases purpose name bytes with ⟨found, holds⟩ | ⟨kind, unreadable⟩ | ⟨_, refused⟩
  · have same := (content_of_holds holds purpose).symm.trans read
    exact Except.ok.inj same ▸ holds
  · cases (content_of_unreadable unreadable purpose).symm.trans read
  · cases refused.symm.trans read

theorem endsDeclared_content (purpose : Purpose) (name : String) (bytes : Option ByteArray) :
    EndsDeclared purpose (Unreadable name bytes) (Source.content purpose name bytes) := by
  refine ⟨?_, fun kind unreadable => content_of_unreadable unreadable purpose⟩
  rcases content_cases purpose name bytes with ⟨found, holds⟩ | ⟨kind, unreadable⟩ |
    ⟨problem, refused⟩
  · rw [content_of_holds holds]
    exact FailsOnly.ok found
  · rw [content_of_unreadable unreadable]
    exact FailsOnly.error_iff.mpr (.inr ⟨kind, unreadable, rfl⟩)
  · rw [refused]
    exact FailsOnly.error_iff.mpr (.inl rfl)

/-- Whether a content is taken as YAML by its ending. -/
def Content.IsYaml (content : Content) : Prop := content.extension ∈ [".yaml", ".yml"]

/-- What making a value of a content stumbles over: a whole number in JSON that is too long, and what
no value can be made of in YAML, which is tried where the ending says so or JSON does not fit. -/
inductive Unmakeable (content : Content) : Misuse → Prop
  | numeral (json : ¬content.IsYaml) (long : Json.read content.text = .error .longNumeral) :
    Unmakeable content .numeral
  | yaml {kind : Misuse} (yaml : content.IsYaml ∨ Json.read content.text = .error .malformed)
      (wrong : Yaml.read content.text = .error (.misuse kind)) : Unmakeable content kind

theorem value_of_yaml (yaml : content.IsYaml ∨ Json.read content.text = .error .malformed)
    (malformed : Failure) : value malformed content = yamlValue malformed content.text := by
  unfold value
  split
  · rfl
  next json =>
    have json : ¬content.IsYaml := by simpa [Content.IsYaml] using json
    rw [yaml.resolve_left json]

theorem value_of_json (json : ¬content.IsYaml) (malformed : Failure) :
    (∀ v, Json.read content.text = .ok v → value malformed content = .ok v) ∧
      (Json.read content.text = .error .longNumeral →
        value malformed content = .error (.misuse .numeral)) := by
  have json : ¬[".yaml", ".yml"].contains content.extension = true := by
    simpa [Content.IsYaml] using json
  rw [value, if_neg json]
  refine ⟨fun v read => ?_, fun long => ?_⟩
  · rw [read]
  · rw [long]

theorem endsDeclared_value (declared : malformed.purpose? = some purpose) (content : Content) :
    EndsDeclared purpose (Unmakeable content) (value malformed content) := by
  constructor
  · by_cases yaml : content.IsYaml ∨ Json.read content.text = .error .malformed
    · rw [value_of_yaml yaml, yamlValue]
      split
      · exact FailsOnly.ok _
      · exact FailsOnly.error_iff.mpr (.inl declared)
      next kind read => exact FailsOnly.error_iff.mpr (.inr ⟨kind, .yaml yaml read, rfl⟩)
    · obtain ⟨json, fits⟩ := not_or.mp yaml
      obtain ⟨read, long⟩ := value_of_json json malformed
      match given : Json.read content.text with
      | .ok v =>
        rw [read v given]
        exact FailsOnly.ok v
      | .error .malformed => exact absurd given fits
      | .error .longNumeral =>
        rw [long given]
        exact FailsOnly.error_iff.mpr (.inr ⟨.numeral, .numeral json given, rfl⟩)
  · intro kind h
    cases h with
    | numeral json long => exact (value_of_json json malformed).2 long
    | yaml yaml wrong => rw [value_of_yaml yaml, yamlValue, wrong]

/-- What reading a value by a name stumbles over. -/
def Stumbles (name : String) (bytes : Option ByteArray) (kind : Misuse) : Prop :=
  Unreadable name bytes kind ∨ ∃ content, Holds name bytes content ∧ Unmakeable content kind

theorem endsDeclared_map (purpose : Purpose) (name : String) (bytes : Option ByteArray) :
    EndsDeclared purpose (Stumbles name bytes) ((named name).map purpose bytes) := by
  have kept (v : Value) : EndsDeclared purpose (fun _ => False)
      (if v.isMap then return v else throw (.source purpose (.noMap name))) := by
    split
    · exact EndsDeclared.of_ok (fun _ => id) v
    · exact EndsDeclared.of_error (fun _ => id) rfl
  refine ((endsDeclared_content purpose name bytes).bind fun content _ =>
    (endsDeclared_value rfl content).bind fun v _ => kept v).congr fun kind => ?_
  simp only [content_eq_ok, and_false, exists_false, or_false, Stumbles]

/-- Whether a document states a version that is supported. -/
def IsVersioned (document : Value) : Prop :=
  ∃ version, OpenApi.versionOf document = .text version ∧
    (Text.startsWith "2." version = true ∨ Text.startsWith "3." version = true)

theorem checkVersion_eq_ok {document : Value} :
    OpenApi.checkVersion document = .ok () ↔ IsVersioned document := by
  unfold OpenApi.checkVersion IsVersioned
  split
  next version stated =>
    rw [stated]
    split <;> simp_all
  next unstated => exact iff_of_false nofun fun ⟨version, stated, _⟩ => unstated version stated

theorem isMap_of_map {v : Value} (read : (named name).map purpose bytes = .ok v) :
    v.isMap = true := by
  obtain ⟨content, _, read⟩ := bind_eq_ok.mp read
  obtain ⟨w, _, read⟩ := bind_eq_ok.mp read
  split at read
  next isMap =>
    cases read
    exact isMap
  next => cases read

theorem exists_entries {v : Value} (isMap : v.isMap = true) :
    ∃ entries, v.entries = .ok entries := by
  unfold Value.isMap at isMap
  split at isMap
  next entries opened => exact ⟨entries, by rw [Value.entries, opened]⟩
  next => cases isMap

/-- What reading settings by a name stumbles over: besides what reading any value does, a key that no
setting has and that is too long a number to be told of. -/
def StumblesInSettings (name : String) (bytes : Option ByteArray) (kind : Misuse) : Prop :=
  Stumbles name bytes kind ∨ ∃ v entries, (named name).map .settings bytes = .ok v ∧
    v.entries = .ok entries ∧ kind = .numeral ∧ Settings.HasUntellableKey entries

end Source

end ApiBinding
