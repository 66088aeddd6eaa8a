import ApiBinding.Text.Pieces
import Mathlib.Data.List.TakeWhile

/-!
What taking texts apart gives back of texts that were put together.
-/

namespace ApiBinding.Text

theorem after?_append (start rest : List Char) : after? start (start ++ rest) = some rest := by
  induction start with
  | nil => cases rest <;> rfl
  | cons c start ih => simp [after?, ih]

@[simp] theorem rest?_append (start rest : String) : rest? start (start ++ rest) = some rest := by
  simp [rest?, after?_append]

theorem piecesFrom_append {isSeparator : Char → Bool} {word : List Char}
    (whole : ∀ c ∈ word, isSeparator c = false) (start rest : List Char) :
    piecesFrom isSeparator start (word ++ rest) =
      piecesFrom isSeparator (word.reverse ++ start) rest := by
  induction word generalizing start with
  | nil => rfl
  | cons c word ih =>
    have here : isSeparator c = false := whole c (by simp)
    rw [List.cons_append, piecesFrom, here, if_neg Bool.false_ne_true,
      ih fun d hd => whole d (by simp [hd])]
    simp

theorem pieces_word {isSeparator : Char → Bool} {word : List Char}
    (whole : word.any isSeparator = false) {c : Char} (separates : isSeparator c = true)
    (rest : List Char) :
    pieces isSeparator (word ++ c :: rest) = word :: pieces isSeparator rest := by
  have whole : ∀ c ∈ word, isSeparator c = false := by simpa using whole
  rw [pieces, piecesFrom_append whole, piecesFrom, if_pos separates]
  simp [pieces]

theorem pieces_whole {isSeparator : Char → Bool} {word : List Char}
    (whole : ∀ c ∈ word, isSeparator c = false) : pieces isSeparator word = [word] := by
  have read := piecesFrom_append whole [] []
  simpa [pieces, piecesFrom] using read

theorem all_piecesFrom {isSeparator : Char → Bool} {cs : List Char} (start : List Char)
    (h : start.all (fun c => !isSeparator c) = true) :
    ∀ piece ∈ piecesFrom isSeparator start cs,
      piece.all (fun c => !isSeparator c) = true := by
  induction cs generalizing start with
  | nil =>
    intro piece member
    obtain rfl := List.mem_singleton.mp member
    rwa [List.all_reverse]
  | cons c cs ih =>
    intro piece member
    rw [piecesFrom] at member
    split at member
    next =>
      rcases List.mem_cons.mp member with rfl | member
      · rwa [List.all_reverse]
      · exact ih [] rfl piece member
    next whole =>
      refine ih (c :: start) ?_ piece member
      rw [List.all_cons, h, Bool.and_true, Bool.not_eq_true']
      simpa using whole

theorem all_of_piecesFrom {isSeparator p : Char → Bool} {start cs : List Char}
    (h : ∀ piece ∈ piecesFrom isSeparator start cs, piece.all p = true) :
    cs.all (fun c => isSeparator c || p c) = true ∧ start.all p = true := by
  induction cs generalizing start with
  | nil => simpa [piecesFrom] using h
  | cons c cs ih =>
    rw [piecesFrom] at h
    split at h
    next separates =>
      rw [List.forall_mem_cons, List.all_reverse] at h
      obtain ⟨rest, _⟩ := ih h.2
      rw [List.all_cons, separates, rest]
      exact ⟨rfl, h.1⟩
    next =>
      obtain ⟨rest, word⟩ := ih h
      rw [List.all_cons, Bool.and_eq_true] at word
      rw [List.all_cons, word.1, rest, Bool.or_true]
      exact ⟨rfl, word.2⟩

theorem eq_append_of_after? {start cs rest : List Char} (h : after? start cs = some rest) :
    cs = start ++ rest := by
  induction start generalizing cs with
  | nil => cases cs <;> simp_all [after?]
  | cons c start ih =>
    cases cs with
    | nil => cases h
    | cons d cs =>
      rw [after?] at h
      split at h
      next same => rw [same, List.cons_append, ← ih h]
      next => cases h

theorem eq_append_of_rest? {start s rest : String} (h : rest? start s = some rest) :
    s = start ++ rest := by
  obtain ⟨cs, read, rfl⟩ := Option.map_eq_some_iff.mp h
  rw [← String.toList_inj, eq_append_of_after? read]
  simp

theorem replaceFrom_single (c : Char) (new cs : List Char) :
    replaceFrom [c] new 0 cs = cs.flatMap fun d => if c = d then new else [d] := by
  induction cs with
  | nil => rfl
  | cons d cs ih =>
    rw [List.flatMap_cons, ← ih, replaceFrom]
    by_cases same : c = d <;> simp [after?, same]

/-- A text starts as its first part does. -/
theorem head_append {p : Char → Bool} {s : String} (h : s.toList.head?.any p = true) (t : String) :
    (s ++ t).toList.head?.any p = true := by
  rw [String.toList_append, List.head?_append]
  revert h
  cases s.toList.head? with
  | none => nofun
  | some c => exact id

theorem joined_cons_cons (separator s t : String) (rest : List String) :
    joined separator (s :: t :: rest) = s ++ separator ++ joined separator (t :: rest) := rfl

theorem joined_append_head (separator start s : String) (rest : List String) :
    joined separator ((start ++ s) :: rest) = start ++ joined separator (s :: rest) := by
  cases rest with
  | nil => rfl
  | cons t rest => simp [joined_cons_cons, String.append_assoc]

theorem joined_append_last (separator s ending : String) (texts : List String) :
    joined separator (texts ++ [s ++ ending]) = joined separator (texts ++ [s]) ++ ending := by
  induction texts with
  | nil => rfl
  | cons t texts ih =>
    have filled (s : String) : texts ++ [s] ≠ [] := by simp
    obtain ⟨u, rest, text⟩ := List.exists_cons_of_ne_nil (filled s)
    obtain ⟨v, rest', text'⟩ := List.exists_cons_of_ne_nil (filled (s ++ ending))
    rw [List.cons_append, List.cons_append, text, text', joined_cons_cons, joined_cons_cons,
      ← text, ← text', ih, ← String.append_assoc]

theorem piecesFrom_ne_nil (isSeparator : Char → Bool) (start cs : List Char) :
    piecesFrom isSeparator start cs ≠ [] := by
  induction cs generalizing start with
  | nil => exact List.cons_ne_nil _ _
  | cons c cs ih =>
    rw [piecesFrom]
    split
    · exact List.cons_ne_nil _ _
    · exact ih (c :: start)

section

variable {c : Char} {separator : String} (single : separator.toList = [c])

include single

/-- Texts that do not hold the separator are found again in the text that they make up. -/
theorem piecesAt_joined {texts : List String} (filled : texts ≠ [])
    (whole : ∀ text ∈ texts, c ∉ text.toList) : piecesAt c (joined separator texts) = texts := by
  induction texts with
  | nil => exact absurd rfl filled
  | cons s rest ih =>
    rw [List.forall_mem_cons] at whole
    have here : ∀ d ∈ s.toList, (d == c) = false := fun d member => by
      rw [beq_eq_false_iff_ne]
      rintro rfl
      exact whole.1 member
    cases rest with
    | nil => simp [joined, piecesAt, pieces_whole here]
    | cons t rest =>
      have text : (joined separator (s :: t :: rest)).toList =
          s.toList ++ c :: (joined separator (t :: rest)).toList := by
        simp [joined_cons_cons, single]
      have first : pieces (· == c) (s.toList ++ c :: (joined separator (t :: rest)).toList) =
          s.toList :: pieces (· == c) (joined separator (t :: rest)).toList :=
        pieces_word (by simpa using here) (by simp) _
      have further : piecesAt c (joined separator (t :: rest)) = t :: rest :=
        ih (List.cons_ne_nil _ _) whole.2
      rw [piecesAt] at further
      rw [piecesAt, text, first, List.map_cons, further, String.ofList_toList]

/-- The pieces of a text make it up. -/
theorem joined_piecesAt (s : String) : joined separator (piecesAt c s) = s := by
  have each (start cs : List Char) :
      (joined separator ((piecesFrom (· == c) start cs).map String.ofList)).toList =
        start.reverse ++ cs := by
    induction cs generalizing start with
    | nil => simp [piecesFrom, joined]
    | cons d cs ih =>
      rw [piecesFrom]
      split
      next separates =>
        obtain ⟨t, rest, further⟩ :=
          List.exists_cons_of_ne_nil (piecesFrom_ne_nil (· == c) [] cs)
        rw [further, List.map_cons, List.map_cons, joined_cons_cons, ← List.map_cons, ← further,
          String.toList_append, String.toList_append, ih, single, beq_iff_eq.mp separates]
        simp
      next => simp [ih]
  rw [← String.toList_inj, piecesAt, pieces, each]
  rfl

end

theorem splitLast?_append {separator : Char} {ending : List Char} (last : separator ∉ ending)
    (start : List Char) :
    splitLast? separator (start ++ separator :: ending) = some (start, ending) := by
  have whole : ∀ c ∈ ending.reverse, (c != separator) = true := by
    intro c inside
    rw [bne_iff_ne]
    rintro rfl
    exact last (List.mem_reverse.mp inside)
  have found : (start ++ separator :: ending).reverse.takeWhile (· != separator) =
      ending.reverse := by
    rw [List.reverse_append, List.reverse_cons, List.append_assoc,
      List.takeWhile_append_of_pos whole]
    simp
  have shorter : ending.length ≠ (start ++ separator :: ending).length := by
    simp only [List.length_append, List.length_cons]
    omega
  have before : (start ++ separator :: ending).length - ending.length - 1 = start.length := by
    simp only [List.length_append, List.length_cons]
    omega
  rw [splitLast?, found, List.length_reverse, if_neg shorter, before, List.reverse_reverse]
  simp

/-- A text is split at the last separator in it. -/
theorem splitLast?_eq_some {separator : Char} {cs start ending : List Char} :
    splitLast? separator cs = some (start, ending) ↔
      cs = start ++ separator :: ending ∧ separator ∉ ending := by
  constructor
  · intro split
    by_cases inside : separator ∈ cs
    · obtain ⟨after, before, text, free⟩ :=
        List.eq_append_cons_of_mem (List.mem_reverse.mpr inside)
      have text : cs = before.reverse ++ separator :: after.reverse := by
        rw [← List.reverse_inj, text]
        simp
      have free : separator ∉ after.reverse := fun h => free (List.mem_reverse.mp h)
      rw [text, splitLast?_append free] at split
      cases split
      exact ⟨text, free⟩
    · have whole : cs.reverse.takeWhile (· != separator) = cs.reverse := by
        rw [List.takeWhile_eq_self_iff]
        intro c member
        rw [bne_iff_ne]
        rintro rfl
        exact inside (List.mem_reverse.mp member)
      simp [splitLast?, whole] at split
  · rintro ⟨rfl, free⟩
    exact splitLast?_append free start

end ApiBinding.Text
