import ApiBinding.Proofs.Settings.Check

/-!
Which versions have features. Settings that pass their checks name a version of Python 3 whose minor
part is made of digits; there may still be too many of them.
-/

namespace ApiBinding

namespace Settings

variable {settings : Settings}

/-- The minor part of the version that the module is made for. -/
def minorDigits (settings : Settings) : List Char :=
  (Setting.withoutLastFeed settings.targetVersion.toList).drop 2

theorem version_of_checked (valid : settings.checked = .ok settings) :
    Setting.withoutLastFeed settings.targetVersion.toList = '3' :: '.' :: settings.minorDigits ∧
      settings.minorDigits ≠ [] ∧
      ∀ c ∈ settings.minorDigits, (Text.digitValue? c).isSome = true := by
  have version := isVersion_of_checked valid
  unfold Setting.isVersion at version
  unfold minorDigits
  split at version
  next rest whole =>
    rw [whole]
    simpa using version
  next => cases version

/-- The version of checked settings has features if its minor part is not too long to be read. -/
theorem dialect_hingesOn (valid : settings.checked = .ok settings) :
    HingesOn (.misuse .numeral) (settings.minorDigits.length ≤ Numeral.digitLimit)
      settings.dialect := by
  obtain ⟨start, filled, digits⟩ := version_of_checked valid
  obtain ⟨feed, whole, feeds⟩ := Setting.exists_feed settings.targetVersion.toList
  rw [start] at whole
  have minor : ∀ c ∈ settings.minorDigits ++ feed, (c == '.') = false := by
    simp only [List.forall_mem_append, beq_eq_false_iff_ne]
    refine ⟨fun c hc => (Numeral.plain_of_digit (digits c hc)).2.2.2.2, fun c hc => ?_⟩
    rw [feeds c hc]
    decide
  have pieces : Text.piecesAt '.' settings.targetVersion =
      ["3", String.ofList (settings.minorDigits ++ feed)] := by
    have split : Text.pieces (· == '.') (['3'] ++ '.' :: (settings.minorDigits ++ feed)) =
        ['3'] :: Text.pieces (· == '.') (settings.minorDigits ++ feed) :=
      Text.pieces_word (by decide) (by decide) _
    rw [Text.pieces_whole minor] at split
    rw [Text.piecesAt, whole]
    exact congrArg (List.map String.ofList) split
  have major : Dialect.number "3" = .ok 3 := by decide
  have read := Numeral.isSome_int?_iff (s := String.ofList (settings.minorDigits ++ feed))
    String.toList_ofList filled digits fun c hc => by rw [feeds c hc]; decide
  rw [dialect, Dialect.ofText, pieces]
  dsimp only
  rw [major, ok_bind, Dialect.number]
  cases value : Numeral.int? (String.ofList (settings.minorDigits ++ feed)) with
  | none =>
    rw [value] at read
    exact ⟨fun short => by simpa using read.mpr short, fun _ => rfl⟩
  | some minor =>
    rw [value] at read
    exact ⟨fun _ => ⟨_, rfl⟩, fun long => absurd (read.mp rfl) long⟩

end Settings

end ApiBinding
