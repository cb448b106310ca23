import Reckon.CommandLine.Run
import Reckon.Proofs.Session

/-! # A session and single evaluations

The commands take the same options, so a line that is evaluated by itself behind two dashes is evaluated under
the settings of the session.
-/
namespace Reckon.CommandLine
set_option autoImplicit false

variable {known more : List Switch} {body : List Char} {said : Said} {args : List String} {a : Arguments}

/-! ## Options that a command knows -/

structure Said.Knows (known : List Switch) (said : Said) : Prop where
  given : ∀ g ∈ said.given, g.switch ∈ known
  awaits : ∀ switch ∈ said.awaits, switch ∈ known

theorem Said.Knows.awaiting {switch : Switch} (h : switch ∈ known) :
    Said.Knows known { awaits := some switch } where
  given := fun _ hMem => absurd hMem List.not_mem_nil
  awaits := fun _ hMem => Option.mem_some.mp hMem ▸ h

theorem Said.Knows.giving {switch : Switch} (h : switch ∈ known) (text : List Char) :
    Said.Knows known { given := [⟨switch, text⟩] } where
  given := List.forall_mem_singleton.mpr h
  awaits := fun _ hMem => absurd hMem (Option.not_mem_none _)

theorem knows_of_cluster (h : cluster? known body = some said) : said.Knows known := by
  induction body generalizing said with
  | nil =>
    cases h
    exact ⟨fun g hMem => absurd hMem List.not_mem_nil, fun s hMem => absurd hMem (Option.not_mem_none s)⟩
  | cons c body ih =>
    rw [cluster?] at h
    cases hFound : known.find? (·.short? == some c) with
    | none =>
      rw [hFound] at h
      cases h
    | some switch =>
      rw [hFound] at h
      have hSwitch := List.mem_of_find?_eq_some hFound
      dsimp only at h
      split at h
      · split at h
        · cases h
          exact .awaiting hSwitch
        · cases h
          exact .giving hSwitch body
      · obtain ⟨later, hLater, rfl⟩ := Option.map_eq_some_iff.mp h
        exact ⟨List.forall_mem_cons.mpr ⟨hSwitch, (ih hLater).given⟩, (ih hLater).awaits⟩

theorem knows_of_long (h : long? known body = some said) : said.Knows known := by
  unfold long? at h
  dsimp only at h
  split at h
  · cases h
  · rename_i hFound _
    split at h
    · cases h
      exact .giving (List.mem_of_find?_eq_some hFound) _
    · cases h
  · rename_i hFound _
    split at h
    · cases h
      exact .awaiting (List.mem_of_find?_eq_some hFound)
    · cases h
      exact .giving (List.mem_of_find?_eq_some hFound) []

/-! ## Arguments by cases -/

theorem known_of_continue {later : List String → Option Arguments}
    (hLater : ∀ args a, later args = some a → ∀ g ∈ a.given, g.switch ∈ known)
    (hSaid : said.Knows known) (h : continueWith said later args = some a) :
    ∀ g ∈ a.given, g.switch ∈ known := by
  unfold continueWith at h
  split at h
  · obtain ⟨b, hRest, rfl⟩ := Option.map_eq_some_iff.mp h
    exact List.forall_mem_append.mpr ⟨hSaid.given, hLater _ _ hRest⟩
  · cases h
  · rename_i switch value args hAwaits
    obtain ⟨b, hRest, rfl⟩ := Option.map_eq_some_iff.mp h
    exact List.forall_mem_append.mpr ⟨hSaid.given,
      List.forall_mem_cons.mpr ⟨hSaid.awaits switch hAwaits, hLater _ _ hRest⟩⟩

theorem known_of_arguments {count : Nat} (h : argumentsWithin? known count args = some a) :
    ∀ g ∈ a.given, g.switch ∈ known := by
  induction count generalizing args a with
  | zero =>
    cases h
    exact fun g hMem => absurd hMem List.not_mem_nil
  | succ count ih =>
    cases args with
    | nil =>
      cases h
      exact fun g hMem => absurd hMem List.not_mem_nil
    | cons arg args =>
      unfold argumentsWithin? at h
      dsimp only at h
      split at h
      · cases h
        exact fun g hMem => absurd hMem List.not_mem_nil
      · obtain ⟨said, hSaid, hRest⟩ := Option.bind_eq_some_iff.mp h
        exact known_of_continue (fun _ _ => ih) (knows_of_long hSaid) hRest
      · obtain ⟨said, hSaid, hRest⟩ := Option.bind_eq_some_iff.mp h
        exact known_of_continue (fun _ _ => ih) (knows_of_cluster hSaid) hRest
      · obtain ⟨b, hRest, rfl⟩ := Option.map_eq_some_iff.mp h
        exact fun g hMem => ih hRest g hMem

/-! ## Options of two commands -/

/-- The longer list of options has the options of the shorter one under the same names. -/
structure Extends (more known : List Switch) : Prop where
  long : ∀ name switch, known.find? (·.long == name) = some switch →
    more.find? (·.long == name) = some switch
  short : ∀ c switch, known.find? (·.short? == some c) = some switch →
    more.find? (·.short? == some c) = some switch

theorem extends_eval_repl : Extends Command.eval.switches Command.repl.switches where
  long := by
    intro name switch h
    have hName := List.find?_some h
    obtain rfl : switch.long = name := beq_iff_eq.mp hName
    cases switch with
    | json => cases h
    | mode | maxDepth | verbose | help => rfl
  short := by
    intro c switch h
    have hFound := List.find?_some h
    have hName : switch.short? = some c := beq_iff_eq.mp hFound
    cases switch with
    | maxDepth | json | help => cases hName
    | mode | verbose =>
      cases hName
      rfl

theorem Extends.cluster? (hMore : Extends more known)
    (h : cluster? known body = some said) : cluster? more body = some said := by
  induction body generalizing said with
  | nil => exact h
  | cons c body ih =>
    rw [CommandLine.cluster?] at h ⊢
    cases hFound : known.find? (·.short? == some c) with
    | none =>
      rw [hFound] at h
      cases h
    | some switch =>
      rw [hFound] at h
      rw [hMore.short c switch hFound]
      dsimp only at h ⊢
      split at h
      · rename_i hTakes
        rw [if_pos hTakes]
        exact h
      · rename_i hTakes
        obtain ⟨rest, hRest, rfl⟩ := Option.map_eq_some_iff.mp h
        rw [if_neg hTakes, ih hRest]
        rfl

theorem Extends.long? (hMore : Extends more known)
    (h : long? known body = some said) : long? more body = some said := by
  unfold CommandLine.long? at h ⊢
  dsimp only at h ⊢
  cases hFound : known.find? (·.long == String.ofList (body.takeWhile (· != '='))) with
  | none =>
    rw [hFound] at h
    cases h
  | some switch =>
    rw [hFound] at h
    rw [hMore.long _ switch hFound]
    exact h

/-! ## An operand behind two dashes -/

/-- The arguments with one more operand. -/
def Arguments.adding (a : Arguments) (text : String) : Arguments := { a with operands := a.operands ++ [text] }

theorem continue_append {later laterMore : List String → Option Arguments} {count : Nat} (text : String)
    (hLater : ∀ args a, args.length ≤ count → "--" ∉ args → later args = some a →
      laterMore (args ++ ["--", text]) = some (a.adding text))
    (hCount : args.length ≤ count) (hDashes : "--" ∉ args) (h : continueWith said later args = some a) :
    continueWith said laterMore (args ++ ["--", text]) = some (a.adding text) := by
  unfold continueWith at h
  split at h
  · rename_i hAwaits
    obtain ⟨b, hRest, rfl⟩ := Option.map_eq_some_iff.mp h
    unfold continueWith
    rw [hAwaits]
    dsimp only
    rw [hLater _ b hCount hDashes hRest]
    rfl
  · cases h
  · rename_i switch value args hAwaits
    obtain ⟨b, hRest, rfl⟩ := Option.map_eq_some_iff.mp h
    unfold continueWith
    rw [List.cons_append, hAwaits]
    dsimp only
    rw [hLater args b (Nat.le_of_succ_le hCount) (fun hMem => hDashes (List.mem_cons_of_mem value hMem)) hRest]
    rfl

/-- An expression behind two dashes adds an operand to arguments without dashes. -/
theorem Extends.arguments (hMore : Extends more known) {count : Nat}
    (text : String) (hCount : args.length ≤ count) (hDashes : "--" ∉ args)
    (h : argumentsWithin? known count args = some a) :
    argumentsWithin? more (count + 2) (args ++ ["--", text]) = some (a.adding text) := by
  induction count generalizing args a with
  | zero =>
    obtain rfl := List.length_eq_zero_iff.mp (Nat.le_zero.mp hCount)
    cases h
    rfl
  | succ count ih =>
    cases args with
    | nil =>
      cases h
      rfl
    | cons arg args =>
      have hArgs : args.length ≤ count := Nat.le_of_succ_le_succ hCount
      have hOther : "--" ∉ args := fun hMem => hDashes (List.mem_cons_of_mem arg hMem)
      have hLater : ∀ args a, args.length ≤ count → "--" ∉ args → argumentsWithin? known count args = some a →
          argumentsWithin? more (count + 2) (args ++ ["--", text]) = some (a.adding text) :=
        fun _ _ => ih
      unfold argumentsWithin? at h
      dsimp only at h
      rw [List.cons_append, argumentsWithin?]
      split at h
      · rename_i hArg
        obtain rfl : arg = "--" := String.toList_inj.mp hArg
        exact absurd List.mem_cons_self hDashes
      · obtain ⟨said, hSaid, hRest⟩ := Option.bind_eq_some_iff.mp h
        exact Option.bind_eq_some_iff.mpr
          ⟨said, hMore.long? hSaid, continue_append text hLater hArgs hOther hRest⟩
      · obtain ⟨said, hSaid, hRest⟩ := Option.bind_eq_some_iff.mp h
        exact Option.bind_eq_some_iff.mpr
          ⟨said, hMore.cluster? hSaid, continue_append text hLater hArgs hOther hRest⟩
      · obtain ⟨b, hRest, rfl⟩ := Option.map_eq_some_iff.mp h
        rw [hLater args b hArgs hOther hRest]
        rfl

theorem eval_of_repl {options : List String} {p : Preferences} (text : String) (hDashes : "--" ∉ options)
    (h : request? ("repl" :: options) = some (.converse p)) :
    request? ("eval" :: (options ++ ["--", text])) = some (.evaluate [text] false p) := by
  have hRepl : Command.repl.request? options = some (.converse p) := h
  obtain ⟨a, hArguments, hRequest⟩ := Option.bind_eq_some_iff.mp hRepl
  have hMore : arguments? Command.eval.switches (options ++ ["--", text]) = some (a.adding text) := by
    rw [arguments?, List.length_append]
    exact extends_eval_repl.arguments text le_rfl hDashes hArguments
  have hJson : a.has .json = false := by
    rw [Arguments.has, List.any_eq_false]
    intro g hMem hIs
    have hKnown := known_of_arguments hArguments g hMem
    rw [beq_iff_eq.mp hIs] at hKnown
    exact absurd hKnown (by decide)
  split at hRequest
  · cases hRequest
  · rename_i hHelp
    obtain ⟨q, hPreferences, hRequest⟩ := Option.bind_eq_some_iff.mp hRequest
    cases hOperands : a.operands with
    | cons operand operands =>
      rw [hOperands] at hRequest
      cases hRequest
    | nil =>
      rw [hOperands] at hRequest
      cases hRequest
      have hPreferencesMore : preferences? (a.adding text) = some p := hPreferences
      have hHelpMore : ¬ (a.adding text).has .help = true := hHelp
      have hOperandsMore : (a.adding text).operands = [text] := by
        rw [Arguments.adding, hOperands]
        rfl
      have hJsonMore : (a.adding text).has .json = false := hJson
      change Command.eval.request? (options ++ ["--", text]) = _
      rw [Command.request?, hMore, Option.bind_eq_bind, Option.bind_some, if_neg hHelpMore, hPreferencesMore,
        Option.bind_eq_bind, Option.bind_some, hOperandsMore, hJsonMore]
      rfl

/-! ## What is printed -/

variable {s : Settings} {lines : List (List Char)} {line : List Char}

theorem evaluateAll_single [Interpreter] {text : String} {o : Outcome} (h : evaluate s text = .ok o) :
    (evaluateAll [text] false s).output = Session.shown (o.display s.epsilon) := by
  rw [evaluateAll, outcomes, h]
  rfl

theorem converse_of_answers [Interpreter] {input : String} (hLines : Session.lines input.toList = lines)
    (h : ∀ line ∈ Session.heard lines, Session.Answers s line) :
    converse input s =
      { exitCode := 0
        output := String.join ((Session.heard lines).map fun line => Session.prompt ++ Session.reply s line) ++
          (if lines.any Session.quits then "" else Session.prompt)
        messages := banner s
        notes := (Session.heard lines).flatMap fun line => (Session.noteOf s line).toList } := by
  rw [converse, hLines, Session.run_of_answers h]
  cases lines.any Session.quits with
  | true => rfl
  | false => rfl

/-- A session is a map over the lines that are heard. If they have outcomes that fit the terminal, it prints for
    each a prompt and its reply, which no other line changes, and ends well; the reply to a line is one line,
    the one that is printed when the line, with its blanks, is evaluated by itself under the same preferences.
    For any options of the session the command line that asks for that has the same options, two dashes and the
    line. -/
theorem converse_is_evaluate [Interpreter] (env : Environment) (input : String) (p : Preferences)
    {warnings : List String}
    (hLines : Session.lines input.toList = lines) (hSettings : settings env p = .ok (s, warnings))
    (hAnswers : ∀ line ∈ Session.heard lines, Session.Answers s line) :
    answer env input (.converse p) =
        { exitCode := 0
          output := String.join ((Session.heard lines).map fun line => Session.prompt ++ Session.reply s line) ++
            (if lines.any Session.quits then "" else Session.prompt)
          messages := warningText warnings ++ banner s
          warnings
          notes := if keepsNotes s then
            (Session.heard lines).flatMap fun line => (Session.noteOf s line).toList else [] } ∧
      ∀ line ∈ Session.heard lines, Session.silent line = false →
        (∃ text, '\n' ∉ text.toList ∧ Session.reply s line = text ++ "\n") ∧
        (∀ unread, (answer env unread (.evaluate [String.ofList line] false p)).output = Session.reply s line) ∧
        ∀ options, "--" ∉ options → request? ("repl" :: options) = some (.converse p) →
          request? ("eval" :: (options ++ ["--", String.ofList line])) =
            some (.evaluate [String.ofList line] false p) := by
  constructor
  · rw [answer, withSettings, hSettings]
    dsimp only
    rw [converse_of_answers hLines hAnswers]
  · intro line hLine hSilent
    have hAnswer := hAnswers line hLine
    obtain ⟨o, hOutcome, hShown⟩ := Session.reply_eq_shown hAnswer hSilent
    refine ⟨Session.reply_eq_line hAnswer hSilent, fun unread => ?_, fun options => eval_of_repl _⟩
    rw [answer, withSettings, hSettings]
    dsimp only
    rw [evaluateAll_single hOutcome, hShown]

/-- A value, a fault behind a blank and a word to quit, with one more line that is not read. -/
theorem converse_is_evaluate_until_quit :
    Session.lines "2x3\n 1/0\nQuit\n4".toList = ["2x3", " 1/0", "Quit", "4"].map String.toList ∧
      settings (fun _ => none) ⟨none, none, false⟩ = .ok ({}, []) ∧
      (∀ line ∈ Session.heard (["2x3", " 1/0", "Quit", "4"].map String.toList), Session.Answers {} line) ∧
      (answer (fun _ => none) "2x3\n 1/0\nQuit\n4" (.converse ⟨none, none, false⟩)).output =
        "> 6\n> Error: DivisionByZero: division by zero\n> " ∧
      (answer (fun _ => none) "" (.evaluate [" 1/0"] false ⟨none, none, false⟩)).output =
        "Error: DivisionByZero: division by zero\n" := by
  have hLines : Session.lines "2x3\n 1/0\nQuit\n4".toList = ["2x3", " 1/0", "Quit", "4"].map String.toList := by
    decide
  have hSettings : settings (fun _ => none) ⟨none, none, false⟩ = .ok ({}, []) := by
    rfl
  have hValue : evaluate {} "2x3" = .ok ⟨"2x3", .ok (.complex ⟨6, 0⟩)⟩ := by decide +kernel
  have hFault : evaluate {} "1/0" = .ok ⟨"1/0", .error (Cause.divisionByZero.fault 3)⟩ := by decide +kernel
  have hHeard : Session.heard (["2x3", " 1/0", "Quit", "4"].map String.toList) =
      ["2x3", " 1/0", "Quit"].map String.toList := by
    decide
  have hAnswers : ∀ line ∈ Session.heard (["2x3", " 1/0", "Quit", "4"].map String.toList),
      Session.Answers {} line := by
    rw [hHeard]
    simp only [List.map_cons, List.map_nil, List.forall_mem_cons, List.not_mem_nil, false_implies, implies_true,
      and_true]
    exact ⟨fun _ => ⟨_, hValue, by decide +kernel⟩, fun _ => ⟨_, hFault, by decide +kernel⟩,
      fun hSilent => absurd hSilent (by decide)⟩
  have hRun := converse_is_evaluate (fun _ => none) _ ⟨none, none, false⟩ hLines hSettings hAnswers
  refine ⟨hLines, hSettings, hAnswers, ?_, ?_⟩
  · rw [hRun.1]
    decide +kernel
  · have hLine := (hRun.2 " 1/0".toList (by decide) (by decide)).2.1 ""
    rw [String.ofList_toList] at hLine
    rw [hLine]
    decide +kernel

end Reckon.CommandLine
