import ApiBinding.Method

/-!
Lines of generated code, read character by character for the names that stand in them outside of
literals and comments. Texts that begin and end in code can be read one after the other.
-/

namespace ApiBinding.Code

/-- Where in the code a character stands: after the characters of a path, in reverse, in a comment,
after one or two quotes, or in a literal between single or triple quotes. -/
inductive Mode where
  | plain (path : List Char)
  | comment
  | opened (quote : Char)
  | empty (quote : Char)
  | short (quote : Char) (escaped : Bool)
  | long (quote : Char) (closing : Nat) (escaped : Bool)
deriving DecidableEq

def isQuote (c : Char) : Bool := c == '\'' || c == '"'

/-- Whether a character belongs to a path of names with points between them. -/
def isPathChar (c : Char) : Bool := c.isAlphanum || c == '_' || c == '.' || decide (128 ≤ c.toNat)

/-- The name that a path starts with; the others are looked up in what it names. -/
def rootOf (path : List Char) : String := String.ofList (path.takeWhile (· != '.'))

/-- The mode after a character in code that belongs to no path. -/
def Mode.after (c : Char) : Mode :=
  if isQuote c then .opened c else if c = '#' then .comment else .plain []

/-- The name that was read when a path ends. -/
def found (path : List Char) : List String :=
  if path.isEmpty then [] else [rootOf path.reverse]

def step : Mode → Char → List String × Mode
  | .plain path, c =>
    if isPathChar c then ([], .plain (c :: path)) else (found path, .after c)
  | .comment, _ => ([], .comment)
  | .opened quote, c => ([], if c = quote then .empty quote else .short quote (c == '\\'))
  | .empty quote, c =>
    if c = quote then ([], .long quote 0 false)
    else if isPathChar c then ([], .plain [c])
    else ([], .after c)
  | .short quote escaped, c =>
    ([], if escaped then .short quote false
      else if c = quote then .plain [] else .short quote (c == '\\'))
  | .long quote closing escaped, c =>
    ([], if escaped then .long quote 0 false
      else if c = quote then
        if closing = 2 then .plain [] else .long quote (closing + 1) false
      else .long quote 0 (c == '\\'))

/-- The names that are read from characters, and the mode after them. -/
def read : Mode → List Char → List String × Mode
  | mode, [] => ([], mode)
  | mode, c :: cs =>
    let (names, next) := step mode c
    let (more, last) := read next cs
    (names ++ more, last)

/-- At the end of a line only literals between triple quotes go on. -/
def endLine : Mode → List String × Mode
  | .plain path => (found path, .plain [])
  | .long quote _ _ => ([], .long quote 0 false)
  | _ => ([], .plain [])

def readLine (mode : Mode) (line : String) : List String × Mode :=
  let (names, last) := read mode line.toList
  let (more, next) := endLine last
  (names ++ more, next)

def readLines : Mode → List String → List String × Mode
  | mode, [] => ([], mode)
  | mode, line :: rest =>
    let (names, next) := readLine mode line
    let (more, last) := readLines next rest
    (names ++ more, last)

/-- The names in lines of code. -/
def names (lines : List String) : List String := (readLines (.plain []) lines).1

theorem read_cons (mode : Mode) (c : Char) (cs : List Char) :
    read mode (c :: cs) =
      ((step mode c).1 ++ (read (step mode c).2 cs).1, (read (step mode c).2 cs).2) := rfl

theorem read_append (mode : Mode) (first second : List Char) :
    read mode (first ++ second) =
      ((read mode first).1 ++ (read (read mode first).2 second).1,
        (read (read mode first).2 second).2) := by
  induction first generalizing mode with
  | nil => simp [read]
  | cons c first ih => simp [read, ih]

theorem readLines_append (mode : Mode) (first second : List String) :
    readLines mode (first ++ second) =
      ((readLines mode first).1 ++ (readLines (readLines mode first).2 second).1,
        (readLines (readLines mode first).2 second).2) := by
  induction first generalizing mode with
  | nil => simp [readLines]
  | cons line first ih => simp [readLines, ih]

theorem mem_names_append {first second : List String} {name : String}
    (closed : (readLines (.plain []) first).2 = .plain []) :
    name ∈ names (first ++ second) ↔ name ∈ names first ∨ name ∈ names second := by
  rw [names, readLines_append, closed, List.mem_append]
  rfl

section

variable {allowed other : String → Prop} {s t : String}

/-- Whether code may go on after a mode as it does between two paths, and ends in an allowed name if
in any. -/
def RestsIn (allowed : String → Prop) : Mode → Prop
  | .plain path => ∀ name ∈ found path, allowed name
  | .empty quote => isQuote quote = true
  | _ => False

/-- A text that begins and ends in code and names only what is allowed. -/
structure SaysOnly (allowed : String → Prop) (s : String) : Prop where
  names : ∀ name ∈ (read (.plain []) s.toList).1, allowed name
  rests : RestsIn allowed (read (.plain []) s.toList).2

/-- A text of code after which a new path may begin. -/
structure ClosesOnly (allowed : String → Prop) (s : String) : Prop where
  names : ∀ name ∈ (read (.plain []) s.toList).1, allowed name
  closed : (read (.plain []) s.toList).2 = .plain []

/-- Whether a character ends the path before it. -/
def isStop (c : Char) : Bool := !isPathChar c && !isQuote c

/-- A text of code that ends the path before it and after which a new one may begin. -/
structure JoinsOnly (allowed : String → Prop) (s : String) : Prop extends ClosesOnly allowed s where
  stops : s.toList.head?.any isStop = true

/-- Lines that are read from code to code and name only what is allowed. -/
structure ReadsOnly (allowed : String → Prop) (lines : List String) : Prop where
  names : ∀ name ∈ (readLines (.plain []) lines).1, allowed name
  closed : (readLines (.plain []) lines).2 = .plain []

section

variable [DecidablePred allowed]

instance (mode : Mode) : Decidable (RestsIn allowed mode) := by
  unfold RestsIn
  split <;> infer_instance

instance : Decidable (SaysOnly allowed s) :=
  decidable_of_iff ((read (.plain []) s.toList).1.all (fun name => decide (allowed name)) ∧
      RestsIn allowed (read (.plain []) s.toList).2) <| by
    rw [List.all_eq_true]
    exact ⟨fun h => ⟨fun name member => of_decide_eq_true (h.1 name member), h.2⟩,
      fun h => ⟨fun name member => decide_eq_true (h.names name member), h.rests⟩⟩

instance : Decidable (ClosesOnly allowed s) :=
  decidable_of_iff ((read (.plain []) s.toList).1.all (fun name => decide (allowed name)) ∧
      (read (.plain []) s.toList).2 = .plain []) <| by
    rw [List.all_eq_true]
    exact ⟨fun h => ⟨fun name member => of_decide_eq_true (h.1 name member), h.2⟩,
      fun h => ⟨fun name member => decide_eq_true (h.names name member), h.closed⟩⟩

instance : Decidable (JoinsOnly allowed s) :=
  decidable_of_iff (ClosesOnly allowed s ∧ s.toList.head?.any isStop = true)
    ⟨fun h => ⟨h.1, h.2⟩, fun h => ⟨h.toClosesOnly, h.stops⟩⟩

end

theorem ClosesOnly.weaken (weaker : ∀ name, allowed name → other name) (h : ClosesOnly allowed s) :
    ClosesOnly other s := ⟨fun name member => weaker name (h.names name member), h.closed⟩

theorem JoinsOnly.weaken (weaker : ∀ name, allowed name → other name) (h : JoinsOnly allowed s) :
    JoinsOnly other s := ⟨h.toClosesOnly.weaken weaker, h.stops⟩

theorem SaysOnly.weaken (weaker : ∀ name, allowed name → other name) (h : SaysOnly allowed s) :
    SaysOnly other s := by
  refine ⟨fun name member => weaker name (h.names name member), ?_⟩
  have rests := h.rests
  generalize (read (.plain []) s.toList).2 = mode at rests ⊢
  cases mode with
  | plain path => exact fun name member => weaker name (rests name member)
  | empty => exact rests
  | _ => cases rests

theorem ReadsOnly.weaken {lines : List String} (weaker : ∀ name, allowed name → other name)
    (h : ReadsOnly allowed lines) : ReadsOnly other lines :=
  ⟨fun name member => weaker name (h.names name member), h.closed⟩

theorem ClosesOnly.toSays (h : ClosesOnly allowed s) : SaysOnly allowed s := by
  refine ⟨h.names, ?_⟩
  rw [h.closed]
  exact fun _ member => nomatch member

theorem ClosesOnly.append (h : ClosesOnly allowed s) (h' : SaysOnly allowed t) :
    SaysOnly allowed (s ++ t) := by
  constructor <;> rw [String.toList_append, read_append, h.closed]
  · intro name member
    exact (List.mem_append.mp member).elim (h.names name) (h'.names name)
  · exact h'.rests

theorem RestsIn.step {mode : Mode} (h : RestsIn allowed mode) {c : Char} (stop : isStop c = true) :
    (∀ name ∈ (step mode c).1, allowed name) ∧ (step mode c).2 = .after c := by
  rw [isStop, Bool.and_eq_true, Bool.not_eq_true', Bool.not_eq_true'] at stop
  obtain ⟨noPath, noQuote⟩ := stop
  cases mode with
  | plain path =>
    rw [Code.step, noPath]
    exact ⟨h, rfl⟩
  | empty quote =>
    rw [Code.step, noPath]
    have other : c ≠ quote := by
      rintro rfl
      rw [h] at noQuote
      cases noQuote
    rw [if_neg other]
    exact ⟨nofun, rfl⟩
  | _ => cases h

/-- After code at rest, a text that ends a path is read as at the start. -/
theorem RestsIn.read {mode : Mode} (h : RestsIn allowed mode)
    (stops : t.toList.head?.any isStop = true)
    (names : ∀ name ∈ (read (.plain []) t.toList).1, allowed name) :
    (∀ name ∈ (read mode t.toList).1, allowed name) ∧
      (Code.read mode t.toList).2 = (Code.read (.plain []) t.toList).2 := by
  have start : RestsIn allowed (.plain []) := fun _ member => nomatch member
  generalize t.toList = text at stops names ⊢
  obtain _ | ⟨c, cs⟩ := text
  · cases stops
  have stop : isStop c = true := stops
  simp only [Code.read, (h.step stop).2, (start.step stop).2] at names ⊢
  refine ⟨fun name member => ?_, trivial⟩
  rcases List.mem_append.mp member with member | member
  · exact (h.step stop).1 name member
  · exact names name (List.mem_append_right _ member)

theorem SaysOnly.append (h : SaysOnly allowed s) (stops : t.toList.head?.any isStop = true)
    (h' : SaysOnly allowed t) : SaysOnly allowed (s ++ t) := by
  obtain ⟨names, same⟩ := h.rests.read stops h'.names
  constructor <;> rw [String.toList_append, read_append]
  · intro name member
    exact (List.mem_append.mp member).elim (h.names name) (names name)
  · rw [same]
    exact h'.rests

theorem SaysOnly.join (h : SaysOnly allowed s) (h' : JoinsOnly allowed t) :
    ClosesOnly allowed (s ++ t) := by
  obtain ⟨names, same⟩ := h.rests.read h'.stops h'.names
  constructor <;> rw [String.toList_append, read_append]
  · intro name member
    exact (List.mem_append.mp member).elim (h.names name) (names name)
  · rw [same]
    exact h'.closed

theorem says_nothing : SaysOnly allowed "" := ⟨nofun, fun _ member => nomatch member⟩

theorem says_joined {separator : String} (joins : JoinsOnly allowed separator) {texts : List String}
    (h : ∀ s ∈ texts, SaysOnly allowed s) : SaysOnly allowed (Text.joined separator texts) := by
  induction texts with
  | nil => exact says_nothing
  | cons s rest ih =>
    have rest' := ih fun t member => h t (List.mem_cons_of_mem s member)
    have first := h s (List.mem_cons_self ..)
    cases rest with
    | nil => exact first
    | cons t rest => exact (first.join joins).append rest'

theorem ReadsOnly.nil : ReadsOnly allowed [] := ⟨nofun, rfl⟩

theorem reads_of_nothing {lines : List String}
    (h : readLines (.plain []) lines = ([], .plain [])) : ReadsOnly allowed lines := by
  constructor <;> rw [h]
  · exact nofun

theorem ReadsOnly.append {first second : List String} (h : ReadsOnly allowed first)
    (h' : ReadsOnly allowed second) : ReadsOnly allowed (first ++ second) := by
  constructor
  · intro name member
    rw [readLines_append, h.closed] at member
    exact (List.mem_append.mp member).elim (h.names name) (h'.names name)
  · rw [readLines_append, h.closed]
    exact h'.closed

theorem SaysOnly.reads (h : SaysOnly allowed s) : ReadsOnly allowed [s] := by
  have rests := h.rests
  have ended : (∀ name ∈ (endLine (Code.read (.plain []) s.toList).2).1, allowed name) ∧
      (endLine (Code.read (.plain []) s.toList).2).2 = .plain [] := by
    generalize (Code.read (.plain []) s.toList).2 = mode at rests ⊢
    cases mode with
    | plain path => exact ⟨rests, rfl⟩
    | empty => exact ⟨nofun, rfl⟩
    | _ => cases rests
  refine ⟨fun name member => ?_, ended.2⟩
  have member : name ∈ ((Code.read (.plain []) s.toList).1 ++
      (endLine (Code.read (.plain []) s.toList).2).1) ++ [] := member
  rw [List.append_nil] at member
  exact (List.mem_append.mp member).elim (h.names name) (ended.1 name)

theorem reads_of_lines {lines : List String} (h : ∀ line ∈ lines, SaysOnly allowed line) :
    ReadsOnly allowed lines := by
  induction lines with
  | nil => exact .nil
  | cons line lines ih =>
    have rest := ih fun other member => h other (List.mem_cons_of_mem line member)
    exact (h line (List.mem_cons_self ..)).reads.append rest

theorem ReadsOnly.flatten {blocks : List (List String)}
    (h : ∀ block ∈ blocks, ReadsOnly allowed block) : ReadsOnly allowed blocks.flatten := by
  induction blocks with
  | nil => exact .nil
  | cons block blocks ih =>
    have rest := ih fun other member => h other (List.mem_cons_of_mem block member)
    exact (h block (List.mem_cons_self ..)).append rest

end

/-- Whether a name may stand in code that relies on the given support classes. -/
def Allows (support : List SupportClass) (name : String) : Prop :=
  name ∈ SupportClass.all.map SupportClass.name → name ∈ support.map SupportClass.name

instance (support : List SupportClass) : DecidablePred (Allows support) := fun name => by
  unfold Allows
  infer_instance

/-- A text of code that names no support class but the given ones. -/
abbrev Says (support : List SupportClass) : String → Prop := SaysOnly (Allows support)

abbrev Closes (support : List SupportClass) : String → Prop := ClosesOnly (Allows support)

abbrev Joins (support : List SupportClass) : String → Prop := JoinsOnly (Allows support)

abbrev Reads (support : List SupportClass) : List String → Prop := ReadsOnly (Allows support)

section

variable {support more : List SupportClass} {s : String}

theorem Allows.mono (subset : support ⊆ more) {name : String} (h : Allows support name) :
    Allows more name := fun member => List.map_subset _ subset (h member)

theorem ClosesOnly.mono (subset : support ⊆ more) (h : Closes support s) : Closes more s :=
  h.weaken fun _ => Allows.mono subset

theorem JoinsOnly.mono (subset : support ⊆ more) (h : Joins support s) : Joins more s :=
  h.weaken fun _ => Allows.mono subset

theorem SaysOnly.mono (subset : support ⊆ more) (h : Says support s) : Says more s :=
  h.weaken fun _ => Allows.mono subset

theorem ReadsOnly.mono {lines : List String} (subset : support ⊆ more) (h : Reads support lines) :
    Reads more lines := h.weaken fun _ => Allows.mono subset

theorem ClosesOnly.of_nil (h : Closes [] s) : Closes support s := h.mono (List.nil_subset _)

theorem JoinsOnly.of_nil (h : Joins [] s) : Joins support s := h.mono (List.nil_subset _)

theorem SaysOnly.of_nil (h : Says [] s) : Says support s := h.mono (List.nil_subset _)

theorem ReadsOnly.of_nil {lines : List String} (h : Reads [] lines) : Reads support lines :=
  h.mono (List.nil_subset _)

theorem ClosesOnly.of_mem {one : SupportClass} (h : Closes [one] s) (member : one ∈ support) :
    Closes support s := h.mono (by simpa using member)

theorem SaysOnly.of_mem {one : SupportClass} (h : Says [one] s) (member : one ∈ support) :
    Says support s := h.mono (by simpa using member)

end

end ApiBinding.Code
