import Reckon.CommandLine.Run
import Reckon.Proofs.Except
import Reckon.Proofs.Binary64.Comparison

/-! # Settings are always valid

Every field of settings has its own variable of the environment and its own test for the texts it takes.
Whatever steps settings go through, each field has the value that was written last.
-/
namespace Reckon.Settings
set_option autoImplicit false

inductive Field
  | mode | maxDepth | epsilon | logLevel

namespace Field

/-- The fields in the order of their warnings. -/
def all : List Field := [mode, maxDepth, epsilon, logLevel]

abbrev Value : Field → Type
  | mode => Mode
  | maxDepth => Int
  | epsilon => Float
  | logLevel => String

def variableName : Field → String
  | mode => "GRIDCALC_MODE"
  | maxDepth => "GRIDCALC_MAX_DEPTH"
  | epsilon => "GRIDCALC_EPSILON"
  | logLevel => "GRIDCALC_LOG_LEVEL"

/-- The text as its field compares and quotes it. -/
def word : Field → String → List Char
  | mode, text => Text.lower (Text.strip Text.isBlank text.toList)
  | maxDepth, text | epsilon, text => text.toList
  | logLevel, text => Text.upper (Text.strip Text.isBlank text.toList)

/-- The value of a text, unless the field does not accept it: a mode has one of two names, a depth is a
    positive integer, an `epsilon` is a number and not negative, and there are five levels of the log. -/
def read : (field : Field) → String → Option field.Value
  | mode, text => Mode.ofName? (String.ofList (word mode text))
  | maxDepth, text => (Text.integer? text).filter (1 ≤ ·)
  | epsilon, text => (Text.float? text).filter fun x => !decide (x < 0) && !x.isNaN
  | logLevel, text => some (String.ofList (word logLevel text)) |>.filter logLevels.contains

def expected : Field → String
  | mode => " (expected 'real' or 'complex')"
  | maxDepth => " (expected a positive integer)"
  | epsilon => " (expected a non-negative number)"
  | logLevel => ""

def warning (field : Field) (text : String) : String :=
  "Ignoring " ++ field.variableName ++ "=" ++ String.ofList (Text.quoted (field.word text)) ++ field.expected

/-- The warning about a variable, which is there only if it is set to a text that the field does not
    accept. -/
def complaint? (field : Field) : Option String → Option String
  | none => none
  | some text => if (field.read text).isNone then some (field.warning text) else none

end Field

def get (s : Settings) : (field : Field) → field.Value
  | .mode => s.mode
  | .maxDepth => s.maxDepth
  | .epsilon => s.epsilon
  | .logLevel => s.logLevel

/-- The value can stand in the field. -/
def Field.Allows : (field : Field) → field.Value → Prop
  | .mode, (m : Mode) => m = .real ∨ m = .complex
  | .maxDepth, (depth : Int) => 1 ≤ depth
  | .epsilon, (x : Float) => 0 ≤ x ∧ x.isNaN = false
  | .logLevel, (level : String) => level ∈ logLevels

def Valid (s : Settings) : Prop := ∀ field : Field, field.Allows (s.get field)

theorem valid_default : Valid {} := by
  unfold Valid
  intro field
  cases field with
  | mode => exact .inr rfl
  | maxDepth => exact (by decide : (1 : Int) ≤ 100)
  | epsilon => exact ⟨by decide +kernel, by decide +kernel⟩
  | logLevel => exact (by decide : "WARNING" ∈ logLevels)

/-! ## One variable -/

theorem zero_le_iff {x : Float} : 0 ≤ x ↔ (!decide (x < 0) && !x.isNaN) = true := by
  have hZero : (0 : Float).isNaN = false := by decide +kernel
  rw [← Decidable.not_not (p := 0 ≤ x), Binary64.not_le_iff, hZero]
  simp

theorem Field.allows_of_read {field : Field} {text : String} {value : field.Value}
    (h : field.read text = some value) : field.Allows value := by
  cases field with
  | mode =>
    change Mode at value
    cases value with
    | real => exact .inl rfl
    | complex => exact .inr rfl
  | maxDepth =>
    obtain ⟨-, hPositive⟩ := Option.filter_eq_some_iff.mp h
    exact of_decide_eq_true (p := 1 ≤ (value : Int)) hPositive
  | epsilon =>
    obtain ⟨-, hAccepted⟩ := Option.filter_eq_some_iff.mp h
    have hLe := zero_le_iff.mpr hAccepted
    exact ⟨hLe, (Binary64.isNaN_eq_false_of_le hLe).2⟩
  | logLevel =>
    change Option.filter logLevels.contains (some (String.ofList (word logLevel text))) = some value at h
    obtain ⟨-, hKnown⟩ := Option.filter_eq_some_iff.mp h
    exact List.contains_iff_mem.mp hKnown

/-- A field as its variable gives it: the value that it reads, and else the default and a warning if there was
    something to read. -/
def Field.adopt (field : Field) (text : Option String) : Adopted field.Value :=
  ⟨(text.bind field.read).getD (get {} field), field.complaint? text⟩

theorem Field.adopt_of_read {field : Field} {text : String} {value : field.Value}
    (h : field.read text = some value) : field.adopt (some text) = ⟨value, none⟩ := by
  simp [adopt, complaint?, h]

theorem Field.adopt_of_not_read {field : Field} {text : String} (h : field.read text = none) :
    field.adopt (some text) = ⟨get {} field, some (field.warning text)⟩ := by
  simp [adopt, complaint?, h]

theorem adoptMode_eq (text : Option String) : adoptMode text = Field.mode.adopt text := by
  cases text with
  | none => rfl
  | some text =>
    unfold adoptMode
    dsimp only
    cases hName : Mode.ofName? (String.ofList (Text.lower (Text.strip Text.isBlank text.toList))) with
    | none =>
      have hRead : Field.mode.read text = none := hName
      rw [Field.adopt_of_not_read hRead]
      rfl
    | some mode =>
      have hRead : Field.mode.read text = some mode := hName
      rw [Field.adopt_of_read hRead]

theorem adoptMaxDepth_eq (text : Option String) : adoptMaxDepth text = Field.maxDepth.adopt text := by
  cases text with
  | none => rfl
  | some text =>
    unfold adoptMaxDepth
    dsimp only
    cases hNumber : Text.integer? text with
    | none =>
      have hRead : Field.maxDepth.read text = none := by rw [Field.read, hNumber]; rfl
      rw [Field.adopt_of_not_read hRead]
      rfl
    | some depth =>
      rw [Option.getD_some]
      by_cases hLow : depth < 1
      · have hRead : Field.maxDepth.read text = none := by
          rw [Field.read, hNumber, Option.filter_some, decide_eq_false (not_le.mpr hLow)]
          rfl
        rw [if_pos hLow, Field.adopt_of_not_read hRead]
        rfl
      · have hRead : Field.maxDepth.read text = some depth := by
          rw [Field.read, hNumber, Option.filter_some, decide_eq_true (not_lt.mp hLow)]
          rfl
        rw [if_neg hLow, Field.adopt_of_read hRead]

theorem adoptEpsilon_eq (text : Option String) : adoptEpsilon text = Field.epsilon.adopt text := by
  cases text with
  | none => rfl
  | some text =>
    unfold adoptEpsilon
    dsimp only
    cases hNumber : Text.float? text with
    | none =>
      have hRead : Field.epsilon.read text = none := by rw [Field.read, hNumber]; rfl
      have hNegative : ¬ (0 : Float) ≤ -1 := by decide +kernel
      rw [Option.getD_none, if_neg hNegative, Field.adopt_of_not_read hRead]
      rfl
    | some x =>
      rw [Option.getD_some]
      by_cases hAccepted : 0 ≤ x
      · have hRead : Field.epsilon.read text = some x := by
          rw [Field.read, hNumber, Option.filter_some, zero_le_iff.mp hAccepted]
          rfl
        rw [if_pos hAccepted, Field.adopt_of_read hRead]
      · have hRead : Field.epsilon.read text = none := by
          rw [Field.read, hNumber, Option.filter_some, Bool.eq_false_iff.mpr (mt zero_le_iff.mpr hAccepted)]
          rfl
        rw [if_neg hAccepted, Field.adopt_of_not_read hRead]
        rfl

theorem adoptLogLevel_eq (text : Option String) : adoptLogLevel text = Field.logLevel.adopt text := by
  cases text with
  | none => rfl
  | some text =>
    unfold adoptLogLevel
    dsimp only
    by_cases hKnown : logLevels.contains (String.ofList (Text.upper (Text.strip Text.isBlank text.toList))) = true
    · have hRead : Field.logLevel.read text = some (String.ofList (Field.logLevel.word text)) :=
        Option.filter_some_pos hKnown
      rw [if_pos hKnown, Field.adopt_of_read hRead]
      rfl
    · have hRead : Field.logLevel.read text = none :=
        Option.filter_some_neg (Bool.eq_false_iff.mpr hKnown)
      rw [if_neg hKnown, Field.adopt_of_not_read hRead]
      rfl

theorem get_ofEnvironment (env : Environment) (field : Field) :
    (ofEnvironment env).1.get field = ((env field.variableName).bind field.read).getD (get {} field) := by
  unfold ofEnvironment
  cases field with
  | mode => exact congrArg Adopted.value (adoptMode_eq _)
  | maxDepth => exact congrArg Adopted.value (adoptMaxDepth_eq _)
  | epsilon => exact congrArg Adopted.value (adoptEpsilon_eq _)
  | logLevel => exact congrArg Adopted.value (adoptLogLevel_eq _)

theorem warnings_ofEnvironment (env : Environment) :
    (ofEnvironment env).2 = Field.all.filterMap fun field => field.complaint? (env field.variableName) := by
  rw [ofEnvironment, adoptMode_eq, adoptMaxDepth_eq, adoptEpsilon_eq, adoptLogLevel_eq,
    List.filterMap_eq_flatMap_toList, Field.all]
  simp only [List.flatMap_cons, List.flatMap_nil, List.append_nil, List.append_assoc]
  rfl

theorem Field.allows_getD {field : Field} {value : Option field.Value} {other : field.Value}
    (h : ∀ v, value = some v → field.Allows v) (hOther : field.Allows other) :
    field.Allows (value.getD other) := by
  cases value with
  | none => exact hOther
  | some v => exact h v rfl

theorem valid_ofEnvironment (env : Environment) : Valid (ofEnvironment env).1 := by
  intro field
  rw [get_ofEnvironment]
  refine Field.allows_getD (fun value hValue => ?_) (valid_default field)
  obtain ⟨text, -, hRead⟩ := Option.bind_eq_some_iff.mp hValue
  exact Field.allows_of_read hRead

/-! ## Sequences of changes -/

/-- The value that a step gives to a field. A step that is refused gives none. -/
def Change.writes : Change → (field : Field) → Option field.Value
  | .adopt env, field => some ((ofEnvironment env).1.get field)
  | .override mode maxDepth logLevel, field =>
    match namedMode mode with
    | .error _ => none
    | .ok mode =>
      match field with
      | .mode => mode
      | .maxDepth => maxDepth
      | .epsilon => none
      | .logLevel => logLevel

theorem get_after (s : Settings) (c : Change) (field : Field) :
    (s.after c).get field = (c.writes field).getD (s.get field) := by
  unfold after change Change.writes
  cases c with
  | adopt env => rfl
  | override mode maxDepth logLevel =>
    dsimp only
    cases namedMode mode with
    | error name => rfl
    | ok mode => cases field <;> rfl

/-- The value that was written last in the sequence. -/
def lastWritten (changes : List Change) (field : Field) : Option field.Value :=
  changes.reverse.findSome? fun c => c.writes field

theorem get_follow (s : Settings) (changes : List Change) (field : Field) :
    (s.follow changes).get field = (lastWritten changes field).getD (s.get field) := by
  induction changes generalizing s with
  | nil => rfl
  | cons c changes ih =>
    rw [follow, ih, get_after, lastWritten, lastWritten, List.reverse_cons, List.findSome?_append,
      List.findSome?_singleton, Option.getD_or]

theorem exists_of_lastWritten {changes : List Change} {field : Field} {value : field.Value}
    (h : lastWritten changes field = some value) : ∃ c ∈ changes, c.writes field = some value := by
  obtain ⟨c, hMem, hWrites⟩ := List.exists_of_findSome?_eq_some h
  exact ⟨c, List.mem_reverse.mp hMem, hWrites⟩

/-- What no step writes stays as it was. -/
theorem get_follow_of_unwritten {s : Settings} {changes : List Change} {field : Field}
    (h : ∀ c ∈ changes, c.writes field = none) : (s.follow changes).get field = s.get field := by
  rw [get_follow]
  cases hLast : lastWritten changes field with
  | none => rfl
  | some value =>
    obtain ⟨c, hMem, hWrites⟩ := exists_of_lastWritten hLast
    rw [h c hMem] at hWrites
    cases hWrites

theorem Change.writes_epsilon {c : Change} (h : ∀ env, c ≠ .adopt env) : c.writes .epsilon = none := by
  cases c with
  | adopt env => exact absurd rfl (h env)
  | override mode maxDepth logLevel =>
    unfold writes
    dsimp only
    split <;> rfl

/-- The step writes nothing that its field does not allow. -/
def Change.Proper (c : Change) : Prop :=
  ∀ (field : Field) (value : field.Value), c.writes field = some value → field.Allows value

theorem Change.proper_adopt (env : Environment) : Change.Proper (.adopt env) := by
  rintro field value ⟨⟩
  exact valid_ofEnvironment env field

theorem valid_follow {s : Settings} {changes : List Change} (h : s.Valid) (hProper : ∀ c ∈ changes, c.Proper) :
    (s.follow changes).Valid := by
  intro field
  rw [get_follow]
  refine Field.allows_getD (fun value hLast => ?_) (h field)
  obtain ⟨c, hMem, hWrites⟩ := exists_of_lastWritten hLast
  exact hProper c hMem field value hWrites

/-! ## Steps that are refused -/

theorem ofName?_eq_none_iff {name : String} : Mode.ofName? name = none ↔ ∀ mode : Mode, name ≠ mode.name := by
  constructor
  · rintro h mode rfl
    rw [Mode.ofName?_name] at h
    cases h
  · intro h
    unfold Mode.ofName?
    split
    · exact absurd rfl (h .real)
    · exact absurd rfl (h .complex)
    · rfl

theorem namedMode_eq_error_iff {mode : Option String} {name : String} :
    namedMode mode = .error name ↔ mode = some name ∧ ∀ m : Mode, name ≠ m.name := by
  cases mode with
  | none => simp [namedMode]
  | some word =>
    rw [namedMode, ← ofName?_eq_none_iff, Option.some_inj]
    cases hName : Mode.ofName? word with
    | none =>
      constructor
      · rintro ⟨⟩
        exact ⟨rfl, hName⟩
      · rintro ⟨rfl, -⟩
        rfl
    | some m =>
      refine iff_of_false (fun h => ?_) ?_
      · cases h
      · rintro ⟨rfl, hNone⟩
        rw [hName] at hNone
        cases hNone

theorem change_eq_error_iff {s : Settings} {c : Change} {name : String} :
    s.change c = .error name ↔
      ∃ maxDepth logLevel, c = .override (some name) maxDepth logLevel ∧ ∀ mode : Mode, name ≠ mode.name := by
  cases c with
  | adopt env =>
    refine iff_of_false ?_ ?_
    · rintro ⟨⟩
    · rintro ⟨maxDepth, logLevel, ⟨⟩, -⟩
  | override mode maxDepth logLevel =>
    rw [change, bind_eq_error_iff, namedMode_eq_error_iff]
    constructor
    · rintro (⟨rfl, hName⟩ | ⟨m, -, ⟨⟩⟩)
      exact ⟨maxDepth, logLevel, rfl, hName⟩
    · rintro ⟨depth, level, ⟨⟩, hName⟩
      exact .inl ⟨rfl, hName⟩

theorem follow_append (s : Settings) (first second : List Change) :
    s.follow (first ++ second) = (s.follow first).follow second := by
  induction first generalizing s with
  | nil => rfl
  | cons c first ih => rw [List.cons_append, follow, follow, ih]

theorem follow_of_refused (s : Settings) (before later : List Change) {c : Change} {name : String}
    (h : ∀ s' : Settings, s'.change c = .error name) :
    s.follow (before ++ c :: later) = s.follow (before ++ later) := by
  rw [follow_append, follow_append, follow, after, h]

/-- The settings of a command are those of the environment under the preferences. -/
theorem follow_of_command {env : Environment} {p : CommandLine.Preferences} {s : Settings}
    {warnings : List String} (h : CommandLine.settings env p = .ok (s, warnings)) :
    warnings = (ofEnvironment env).2 ∧ ∃ mode : Option Mode, CommandLine.chosenMode p.mode = .ok mode ∧
      s = follow {} [.adopt env,
        .override (mode.map Mode.name) p.maxDepth (if p.verbose then some "DEBUG" else none)] := by
  unfold CommandLine.settings at h
  split at h
  · cases h
  · rename_i mode hMode
    cases h
    refine ⟨rfl, mode, hMode, ?_⟩
    cases mode with
    | none => rfl
    | some m => cases m <;> rfl

/-- With a positive depth, or none, the preferences of a command leave settings valid. -/
theorem valid_of_command {env : Environment} {p : CommandLine.Preferences} {s : Settings}
    {warnings : List String} (h : CommandLine.settings env p = .ok (s, warnings))
    (hDepth : ∀ depth, p.maxDepth = some depth → 1 ≤ depth) : s.Valid := by
  obtain ⟨-, mode, -, rfl⟩ := follow_of_command h
  refine valid_follow valid_default fun c hMem => ?_
  simp only [List.mem_cons, List.not_mem_nil, or_false] at hMem
  rcases hMem with rfl | rfl
  · exact Change.proper_adopt env
  · intro field value hWrites
    have hNamed : namedMode (mode.map Mode.name) = .ok mode := by
      cases mode with
      | none => rfl
      | some m => cases m <;> rfl
    rw [Change.writes, hNamed] at hWrites
    cases field with
    | mode => cases (value : Mode) with
      | real => exact .inl rfl
      | complex => exact .inr rfl
    | maxDepth => exact hDepth value hWrites
    | epsilon => cases hWrites
    | logLevel =>
      cases hVerbose : p.verbose <;> rw [hVerbose] at hWrites <;> cases hWrites
      exact (by decide : "DEBUG" ∈ logLevels)

/-! ## All settings -/

/-- Every environment gives valid settings: a field has the value that its own variable reads, and where the
    variable is not set or its text is not accepted the default, in the latter case with a warning, which come
    in the order of the fields. After any sequence of steps a field has the value that the last step gave that
    wrote it, and only environments write `epsilon`. A step is refused exactly for the name of a mode that
    there is not, and makes no difference wherever it stands. -/
theorem settings_of_changes :
    (∀ env : Environment, Valid (ofEnvironment env).1 ∧
      (∀ field : Field, (ofEnvironment env).1.get field =
        ((env field.variableName).bind field.read).getD (get {} field)) ∧
      (ofEnvironment env).2 = Field.all.filterMap fun field => field.complaint? (env field.variableName)) ∧
    (∀ (s : Settings) (changes : List Change),
      (∀ field, (s.follow changes).get field = (lastWritten changes field).getD (s.get field)) ∧
      ((∀ c ∈ changes, ∀ env, c ≠ .adopt env) → (s.follow changes).epsilon = s.epsilon) ∧
      (s.Valid → (∀ c ∈ changes, c.Proper) → (s.follow changes).Valid)) ∧
    (∀ (s : Settings) (c : Change) (name : String), s.change c = .error name ↔
      ∃ maxDepth logLevel, c = .override (some name) maxDepth logLevel ∧ ∀ mode : Mode, name ≠ mode.name) ∧
    ∀ (s : Settings) (before later : List Change) (name : String) (maxDepth : Option Int)
      (logLevel : Option String), (∀ mode : Mode, name ≠ mode.name) →
      s.follow (before ++ .override (some name) maxDepth logLevel :: later) = s.follow (before ++ later) := by
  refine ⟨fun env => ⟨valid_ofEnvironment env, get_ofEnvironment env, warnings_ofEnvironment env⟩,
    fun s changes => ⟨get_follow s changes, fun hOverrides => ?_, valid_follow⟩,
    fun s c name => change_eq_error_iff, fun s before later name maxDepth logLevel hName => ?_⟩
  · have hUnwritten : ∀ c ∈ changes, c.writes .epsilon = none :=
      fun c hMem => Change.writes_epsilon (hOverrides c hMem)
    exact get_follow_of_unwritten hUnwritten
  · exact follow_of_refused s before later fun s' => change_eq_error_iff.mpr ⟨maxDepth, logLevel, rfl, hName⟩

/-- With the name of a mode that there is not, a depth is lost as well. -/
theorem settings_of_changes_three_steps :
    follow {} [.override (some "real") none none, .override (some "unreal") (some 7) none,
        .override none (some 9) none] =
      follow {} [.override (some "real") none none, .override none (some 9) none] ∧
    (follow {} [.override (some "real") none none, .override none (some 9) none]).epsilon = defaultEpsilon := by
  obtain ⟨-, hRuns, -, hRefused⟩ := settings_of_changes
  refine ⟨?_, (hRuns {} _).2.1 ?_⟩
  · refine hRefused {} [.override (some "real") none none] [.override none (some 9) none] "unreal" (some 7) none ?_
    intro mode
    cases mode <;> decide
  · intro c hMem env
    simp only [List.mem_cons, List.not_mem_nil, or_false] at hMem
    rcases hMem with rfl | rfl <;> exact Change.noConfusion

end Reckon.Settings
