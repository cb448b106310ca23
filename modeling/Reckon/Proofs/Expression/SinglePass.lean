import Reckon.Proofs.Expression.Execution

/-! # Calculating while reading

The value of a text is calculated in a single pass: each level of the grammar gives the value of what it
reads along with the cursor behind it, and an operation is done as soon as its operands have been read.
Reading a text into code and running the code comes to the same, with the same failures.
-/
namespace Reckon.Expression
set_option autoImplicit false
open Text (isBlank)

/-- From a cursor to the value of what was read there and the cursor behind it. -/
abbrev Calculator := Cursor → Except Stop (Number × Cursor)

namespace SinglePass

def refuse {α : Type} (cause : Cause) (c : Cursor) : Except Stop α :=
  .error ⟨.cause cause, c.position, c.position⟩

/-- An operation whose operands have been read up to the cursor. -/
def perform (result : Except Failure Number) : Calculator := fun c =>
  (·, c) <$> reportedAt c.position result

section Levels

variable (A : Arithmetic)

def numeral : Calculator := fun c =>
  match Numeral.scan? c.rest with
  | none => refuse .lonePoint c
  | some (n, _) => perform (A.coerce (.real n.value.toFloat)) (c.advance n.text.length)

def suffixes (negated : Bool) (x : Number) (position : Nat) : List Char → Except Stop (Number × Cursor)
  | [] => .ok (x, ⟨position, []⟩)
  | c :: rest =>
    if isBlank c then suffixes negated x (position + 1) rest
    else if c = '!' then do
      let y ← reportedAt (position + 1) (A.factorial x negated)
      suffixes negated y (position + 1) rest
    else if c = '%' then do
      let y ← reportedAt (position + 1) (A.percent x)
      suffixes negated y (position + 1) rest
    else .ok (x, ⟨position, c :: rest⟩)

/-- Arguments behind commas, after those that have been read. -/
def moreArguments (inside : Calculator) : Nat → List Number → Cursor → Except Stop (List Number × Cursor)
  | 0, xs, c => .ok (xs, c)
  | bound + 1, xs, c =>
    match c.rest with
    | ',' :: _ => do
      let (x, c) ← inside (c.advance 1)
      moreArguments inside bound (xs ++ [x]) c
    | _ => .ok (xs, c)

def call (inside : Calculator) (f : Builtin) (start : Nat) : Calculator := fun c => do
  let (x, c) ← inside c
  let (xs, c) ← moreArguments inside c.rest.length [x] c
  match c.rest with
  | ')' :: _ =>
    let after := c.advance 1
    if xs.length = f.arity then perform (f.apply A xs) after
    else .error ⟨.cause (.arityMismatch f xs.length), start, after.position⟩
  | _ => refuse (.openArguments f) c

def name (inside : Calculator) : Calculator := fun c =>
  let letters := c.rest.takeWhile Char.isAlpha
  let word := String.ofList letters
  let after := (c.advance letters.length).skipBlanks
  match after.rest with
  | '(' :: _ =>
    match Builtin.ofName? word with
    | none => .error ⟨.cause (.unknownFunction word), c.position, after.position⟩
    | some f => call A inside f c.position (after.advance 1)
  | _ =>
    match Constant.ofName? A.mode word with
    | some constant => .ok (A.constant constant, after)
    | none => .error ⟨.cause (.unknownIdentifier word), c.position, after.position⟩

def group (inside : Calculator) (b : Bracket) : Calculator := fun c => do
  let (x, c) ← inside (c.advance 1)
  match c.rest with
  | closer :: _ => if closer = b.closer then .ok (x, c.advance 1) else refuse (.openBracket b) c
  | [] => refuse (.openBracket b) c

def primary (inside : Calculator) : Calculator := fun c =>
  match c.rest with
  | [] => refuse .endOfInput c
  | first :: _ =>
    if first.isAlpha then name A inside c
    else if first.isDigit || first = '.' then numeral A c
    else match Bracket.ofOpener? first with
      | some b => group inside b c
      | none => refuse (.unexpected first) c

def factor (inside : Calculator) : Calculator := fun c => do
  let (negated, c) := minusSigns false c.position c.rest
  let (x, c) ← primary A inside c
  let (x, c) ← suffixes A negated x c.position c.rest
  if negated then perform (A.negate x) c else .ok (x, c)

def powerOf (inside exponent : Calculator) : Calculator := fun c => do
  let (base, c) ← factor A inside c
  match c.rest with
  | '^' :: _ => do
    let (x, c) ← exponent (c.advance 1)
    perform (A.pow base x) c
  | _ => .ok (base, c)

def links (operator? : List Char → Option (Operator × Nat)) (operand : Calculator) : Nat → Number → Calculator
  | 0, x, c => .ok (x, c)
  | bound + 1, x, c =>
    match operator? c.rest with
    | none => .ok (x, c)
    | some (op, width) => do
      let (y, c) ← operand (c.advance width)
      let (z, c) ← perform (op.apply A x y) c
      links operator? operand bound z c

def chain (operator? : List Char → Option (Operator × Nat)) (operand : Calculator) : Calculator := fun c => do
  let (x, c) ← operand c
  links A operator? operand c.rest.length x c

def sumsOf (power : Calculator) : Calculator := chain A sumOperator? (chain A productOperator? power)

def power (deep : Cause) : Nat → Calculator
  | 0 => powerOf A (refuse deep) (refuse deep)
  | levels + 1 => powerOf A (sumsOf A (power deep levels)) (power deep levels)

def expression (deep : Cause) : Nat → Calculator
  | 0 => refuse deep
  | levels + 1 => sumsOf A (power A deep levels)

def value [Interpreter] (limit : Int) (text : List Char) : Except Stop Number := do
  let (x, c) ← expression A (tooDeep limit) (levels limit) ⟨0, text⟩
  match c.rest with
  | [] => .ok x
  | next :: _ => refuse (.trailing next) c

end Levels

/-! ## Reading and running -/

variable {α : Type} {A : Arithmetic} {reader : Reader} {calculator : Calculator}

/-- What is read puts on the stack what is calculated, or fails where the calculation does. -/
def Performs (A : Arithmetic) (reader : Reader) (calculator : Calculator) : Prop :=
  ∀ c stack, execute A (reader c) stack = (fun r => (r.2, r.1 :: stack)) <$> calculator c

theorem execute_then (h : Performs A reader calculator) (next : Cursor → Reading α) (c : Cursor) (stack : Stack) :
    execute A (reader c >>= next) stack =
      calculator c >>= fun r => execute A (next r.2) (r.1 :: stack) := by
  rw [execute_bind, h, bind_map_left]

theorem execute_emit_then {action : Action} {stack stack' : Stack} {result : Except Failure Number}
    (h : action.apply A stack = (· :: stack') <$> result) (c : Cursor) (next : Reading α) :
    execute A (c.emit action >>= fun _ => next) stack =
      reportedAt c.position result >>= fun x => execute A next (x :: stack') := by
  rw [execute_bind, Cursor.emit, execute_emit, h, map_mapError, bind_map_left]

theorem execute_perform {action : Action} {stack stack' : Stack} {result : Except Failure Number}
    (h : action.apply A stack = (· :: stack') <$> result) (c : Cursor) :
    execute A (c.emit action >>= fun _ => pure c) stack =
      (fun r => (r.2, r.1 :: stack')) <$> perform result c := by
  rw [execute_emit_then h, perform]
  cases reportedAt c.position result <;> rfl

theorem performs_refuse (cause : Cause) : Performs A (Expression.refuse cause) (refuse cause) :=
  fun _ _ => rfl

theorem performs_numeral : Performs A Expression.numeral (numeral A) := by
  intro c stack
  rw [Expression.numeral, numeral]
  cases Numeral.scan? c.rest with
  | none => rfl
  | some found => exact execute_perform rfl _

theorem execute_suffixes (negated : Bool) (x : Number) (position : Nat) (rest : List Char) (stack : Stack) :
    execute A (Expression.suffixes negated position rest) (x :: stack) =
      (fun r => (r.2, r.1 :: stack)) <$> suffixes A negated x position rest := by
  induction rest generalizing x position with
  | nil => rfl
  | cons c rest ih =>
    rw [Expression.suffixes, suffixes]
    split
    · exact ih x (position + 1)
    · split
      · rw [execute_emit_then rfl, map_bind]
        exact bind_congr fun y => ih y (position + 1)
      · split
        · rw [execute_emit_then rfl, map_bind]
          exact bind_congr fun y => ih y (position + 1)
        · rfl

/-! ## Primaries -/

section Levels

variable {inside : Reader} {inside' : Calculator} (hInside : Performs A inside inside')
include hInside

theorem execute_moreArguments (bound : Nat) (xs : List Number) (c : Cursor) (stack : Stack) :
    execute A (Expression.moreArguments inside bound xs.length c) (xs.reverse ++ stack) =
      (fun r => ((r.1.length, r.2), r.1.reverse ++ stack)) <$> moreArguments inside' bound xs c := by
  induction bound generalizing xs c with
  | zero => rfl
  | succ bound ih =>
    rw [Expression.moreArguments, moreArguments]
    by_cases hComma : ∃ rest, c.rest = ',' :: rest
    · obtain ⟨rest, hRest⟩ := hComma
      simp only [hRest]
      rw [execute_then hInside, map_bind]
      refine bind_congr fun r => ?_
      have hNext := ih (xs ++ [r.1]) r.2
      rwa [List.length_append, List.reverse_append] at hNext
    · simp only [not_exists.mp hComma, imp_self, implies_true]
      rfl

theorem performs_call (f : Builtin) (start : Nat) :
    Performs A (Expression.call inside f start) (call A inside' f start) := by
  intro c stack
  rw [Expression.call, call, execute_then hInside, map_bind]
  refine bind_congr fun r => ?_
  have hMore := execute_moreArguments hInside r.2.rest.length [r.1] r.2 stack
  rw [List.length_singleton, List.reverse_singleton, List.singleton_append] at hMore
  rw [execute_bind, hMore, bind_map_left, map_bind]
  refine bind_congr fun s => ?_
  dsimp only
  by_cases hClosed : ∃ rest, s.2.rest = ')' :: rest
  · obtain ⟨rest, hRest⟩ := hClosed
    simp only [hRest]
    split
    · rename_i hArity
      exact execute_perform (apply_call hArity stack) _
    · rfl
  · simp only [not_exists.mp hClosed, imp_self, implies_true]
    rfl

theorem performs_name : Performs A (Expression.name inside) (name A inside') := by
  intro c stack
  rw [Expression.name, name]
  generalize (c.advance (c.rest.takeWhile Char.isAlpha).length).skipBlanks = after
  by_cases hOpen : ∃ rest, after.rest = '(' :: rest
  · obtain ⟨rest, hRest⟩ := hOpen
    simp only [hRest]
    cases Builtin.ofName? (String.ofList (c.rest.takeWhile Char.isAlpha)) with
    | none => rfl
    | some f => exact performs_call hInside f _ _ stack
  · simp only [not_exists.mp hOpen, imp_self, implies_true, execute_bind, execute_emit, Action.apply]
    cases Constant.ofName? A.mode (String.ofList (c.rest.takeWhile Char.isAlpha)) <;> rfl

theorem performs_group (b : Bracket) : Performs A (Expression.group inside b) (group inside' b) := by
  intro c stack
  rw [Expression.group, group, execute_then hInside, map_bind]
  refine bind_congr fun r => ?_
  dsimp only
  cases r.2.rest with
  | nil => rfl
  | cons closer rest =>
    dsimp only
    split <;> rfl

theorem performs_primary : Performs A (Expression.primary inside) (primary A inside') := by
  intro c stack
  rw [Expression.primary, primary]
  cases c.rest with
  | nil => rfl
  | cons first rest =>
    dsimp only
    split
    · exact performs_name hInside c stack
    · split
      · exact performs_numeral c stack
      · cases Bracket.ofOpener? first with
        | some b => exact performs_group hInside b c stack
        | none => rfl

/-! ## Operators -/

theorem performs_factor : Performs A (Expression.factor inside) (factor A inside') := by
  intro c stack
  rw [Expression.factor, factor]
  dsimp only
  rw [execute_then (performs_primary hInside), map_bind]
  refine bind_congr fun r => ?_
  rw [execute_bind, execute_suffixes, bind_map_left, map_bind]
  refine bind_congr fun s => ?_
  split
  · exact execute_perform rfl s.2
  · rfl

theorem performs_powerOf {exponent : Reader} {exponent' : Calculator} (hExponent : Performs A exponent exponent') :
    Performs A (Expression.powerOf inside exponent) (powerOf A inside' exponent') := by
  intro c stack
  rw [Expression.powerOf, powerOf, execute_then (performs_factor hInside), map_bind]
  refine bind_congr fun r => ?_
  dsimp only
  by_cases hPower : ∃ rest, r.2.rest = '^' :: rest
  · obtain ⟨rest, hRest⟩ := hPower
    simp only [hRest]
    rw [execute_then hExponent, map_bind]
    exact bind_congr fun s => execute_perform rfl s.2
  · simp only [not_exists.mp hPower, imp_self, implies_true]
    rfl

end Levels

theorem execute_links (h : Performs A reader calculator) (operator? : List Char → Option (Operator × Nat))
    (bound : Nat) (x : Number) (c : Cursor) (stack : Stack) :
    execute A (Expression.links operator? reader bound c) (x :: stack) =
      (fun r => (r.2, r.1 :: stack)) <$> links A operator? calculator bound x c := by
  induction bound generalizing x c with
  | zero => rfl
  | succ bound ih =>
    rw [Expression.links, links]
    cases operator? c.rest with
    | none => rfl
    | some found =>
      dsimp only
      rw [execute_then h, map_bind]
      refine bind_congr fun r => ?_
      rw [execute_emit_then rfl, perform, bind_map_left, map_bind]
      exact bind_congr fun z => ih z r.2

theorem performs_chain (h : Performs A reader calculator) (operator? : List Char → Option (Operator × Nat)) :
    Performs A (Expression.chain operator? reader) (chain A operator? calculator) := by
  intro c stack
  rw [Expression.chain, chain, execute_then h, map_bind]
  exact bind_congr fun r => execute_links h operator? _ r.1 r.2 stack

theorem performs_sumsOf (h : Performs A reader calculator) :
    Performs A (Expression.sumsOf reader) (sumsOf A calculator) :=
  performs_chain (performs_chain h productOperator?) sumOperator?

theorem performs_power (deep : Cause) (levels : Nat) :
    Performs A (Expression.power deep levels) (power A deep levels) := by
  induction levels with
  | zero => exact performs_powerOf (performs_refuse deep) (performs_refuse deep)
  | succ levels ih => exact performs_powerOf (performs_sumsOf ih) ih

theorem performs_expression (deep : Cause) (levels : Nat) :
    Performs A (Expression.expression deep levels) (expression A deep levels) := by
  cases levels with
  | zero => exact performs_refuse deep
  | succ levels => exact performs_sumsOf (performs_power deep levels)

end SinglePass

/-- Reading a text and running its code gives what a single pass over the text calculates. -/
theorem value_eq_singlePass [Interpreter] (A : Arithmetic) (limit : Int) (text : List Char) :
    value A limit text = SinglePass.value A limit text := by
  rw [value_eq_execute, read, SinglePass.value,
    SinglePass.execute_then (SinglePass.performs_expression (tooDeep limit) (levels limit)), map_bind]
  refine bind_congr fun r => ?_
  dsimp only
  cases r.2.rest <;> rfl

end Reckon.Expression
