import Reckon.Arithmetic
import Reckon.Text.Case
import Reckon.Text.NumberText

/-! # Settings

Settings come from variables of the environment, field by field; an unacceptable text leaves the
field at its default and is answered by a warning. Overrides replace single fields.
-/
namespace Reckon
set_option autoImplicit false

structure Settings where
  mode : Mode := .complex
  maxDepth : Int := 100
  epsilon : Float := defaultEpsilon
  logLevel : String := "WARNING"

abbrev Environment := String → Option String

namespace Settings

def logLevels : List String := ["DEBUG", "INFO", "WARNING", "ERROR", "CRITICAL"]

/-- A field as taken from the environment, with a warning where the text was not acceptable. -/
structure Adopted (α : Type) where
  value : α
  warning : Option String

def ignoring (name : String) (text : List Char) (expected : String) : Option String :=
  some ("Ignoring " ++ name ++ "=" ++ String.ofList (Text.quoted text) ++ expected)

def adoptMode : Option String → Adopted Mode
  | none => ⟨.complex, none⟩
  | some text =>
    let word := Text.lower (Text.strip Text.isBlank text.toList)
    match Mode.ofName? (String.ofList word) with
    | some mode => ⟨mode, none⟩
    | none => ⟨.complex, ignoring "GRIDCALC_MODE" word " (expected 'real' or 'complex')"⟩

def adoptMaxDepth : Option String → Adopted Int
  | none => ⟨100, none⟩
  | some text =>
    let depth := (Text.integer? text).getD 0
    if depth < 1 then
      ⟨100, ignoring "GRIDCALC_MAX_DEPTH" text.toList " (expected a positive integer)"⟩
    else ⟨depth, none⟩

def adoptEpsilon : Option String → Adopted Float
  | none => ⟨defaultEpsilon, none⟩
  | some text =>
    let epsilon := (Text.float? text).getD (-1)
    if 0 ≤ epsilon then ⟨epsilon, none⟩
    else ⟨defaultEpsilon, ignoring "GRIDCALC_EPSILON" text.toList " (expected a non-negative number)"⟩

def adoptLogLevel : Option String → Adopted String
  | none => ⟨"WARNING", none⟩
  | some text =>
    let word := Text.upper (Text.strip Text.isBlank text.toList)
    if logLevels.contains (String.ofList word) then ⟨String.ofList word, none⟩
    else ⟨"WARNING", ignoring "GRIDCALC_LOG_LEVEL" word ""⟩

/-- The settings of an environment and the warnings on the way, in the order of the fields. -/
def ofEnvironment (env : Environment) : Settings × List String :=
  let mode := adoptMode (env "GRIDCALC_MODE")
  let maxDepth := adoptMaxDepth (env "GRIDCALC_MAX_DEPTH")
  let epsilon := adoptEpsilon (env "GRIDCALC_EPSILON")
  let logLevel := adoptLogLevel (env "GRIDCALC_LOG_LEVEL")
  (⟨mode.value, maxDepth.value, epsilon.value, logLevel.value⟩,
    mode.warning.toList ++ maxDepth.warning.toList ++ epsilon.warning.toList ++
      logLevel.warning.toList)

def override (s : Settings) (mode : Option Mode) (maxDepth : Option Int)
    (logLevel : Option String) : Settings :=
  { s with
    mode := mode.getD s.mode
    maxDepth := maxDepth.getD s.maxDepth
    logLevel := logLevel.getD s.logLevel }

def arithmetic (s : Settings) : Arithmetic := ⟨s.mode, s.epsilon⟩

/-- One step in the life of settings. An overriding mode comes by its name. -/
inductive Change
  | adopt (env : Environment)
  | override (mode : Option String) (maxDepth : Option Int) (logLevel : Option String)

def namedMode : Option String → Except String (Option Mode)
  | none => .ok none
  | some name =>
    match Mode.ofName? name with
    | some mode => .ok (some mode)
    | none => .error name

/-- The settings after a step and its warnings, or the name of the mode that there is not. -/
def change (s : Settings) : Change → Except String (Settings × List String)
  | .adopt env => .ok (ofEnvironment env)
  | .override mode maxDepth logLevel => do
    return (s.override (← namedMode mode) maxDepth logLevel, [])

/-- A step that is refused leaves the settings as they were. -/
def after (s : Settings) (c : Change) : Settings :=
  match s.change c with
  | .ok (s', _) => s'
  | .error _ => s

def follow (s : Settings) : List Change → Settings
  | [] => s
  | c :: changes => (s.after c).follow changes

end Settings
end Reckon
