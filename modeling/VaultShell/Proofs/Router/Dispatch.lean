import VaultShell.Proofs.Router.Respond
import VaultShell.Proofs.Shell.Confinement

/-!
# Who understands a line

A line for the terminal is read three times.  It is told from chat by its first word and by the way it
reads, it is held against the two words that stand on their own, and it is taken apart and looked up
in the table.  The three have their own lists and trim and split for themselves.  This module shows
that they cannot disagree: whatever is let through as a line is a line to all of them.

So two branches of the program are never taken.  No line that is let through is unknown to the table,
and what the table takes for a sentinel has been answered before the line gets there.

## Main statements

* `Mode.ofUtterance_idem`: a line is let through again, as it is
* `Mode.parse?_of_terminal`: a line is read, and its command is a sentinel's if the line is
* `Router.terminal_lines_known`: what the three readers make of a line, of an answer and of a history
-/

namespace VaultShell

namespace Mode

variable {utterance line : String}

/-- **A line is let through again, as it is.** -/
theorem ofUtterance_idem (mode : ofUtterance utterance = .terminal line) :
    ofUtterance line = .terminal line := by
  rcases ofUtterance_eq_terminal mode with ⟨sentinel, -, rfl⟩ | ⟨-, rfl, -⟩
  · exact ofUtterance_of_ofLine? (Sentinel.ofLine?_word sentinel)
  · rw [ofUtterance_trim, mode]

/-- **A line is read, and its command is a sentinel's if the line is.** -/
theorem parse?_of_terminal (mode : ofUtterance utterance = .terminal line) :
    ∃ (command : Command) (arguments : List String),
      CommandLine.parse? line = some ⟨line, command.name, arguments⟩ ∧
      command.sentinel? = Sentinel.ofLine? line := by
  rcases ofUtterance_eq_terminal mode with
    ⟨sentinel, -, rfl⟩ | ⟨unasked, rfl, command, arguments, parsed, unreserved⟩
  · obtain ⟨command, parsed, reserved⟩ := parse?_word sentinel
    rw [Sentinel.ofLine?_word]
    exact ⟨command, [], parsed, reserved⟩
  · rw [CommandLine.parse?_trim, Sentinel.ofLine?_trim, unasked]
    exact ⟨command, arguments, parsed, unreserved⟩

/-- A line asks for a sentinel in the sentinel's own word. -/
theorem ofLine?_isSome_iff (mode : ofUtterance utterance = .terminal line) :
    (Sentinel.ofLine? line).isSome = true ↔ line = "clear" ∨ line = "exit" := by
  constructor
  · intro asks
    obtain ⟨sentinel, asked⟩ := Option.isSome_iff_exists.1 asks
    have words := ofUtterance_of_ofLine? asked
    rw [ofUtterance_idem mode, Mode.terminal.injEq] at words
    rw [words]
    cases sentinel with
    | clearScreen => exact Or.inl rfl
    | exitSession => exact Or.inr rfl
  · rintro (rfl | rfl)
    · exact Option.isSome_iff_exists.2 ⟨_, Sentinel.ofLine?_word .clearScreen⟩
    · exact Option.isSome_iff_exists.2 ⟨_, Sentinel.ofLine?_word .exitSession⟩

/-- A line that is run on the vault is one of its own. -/
theorem vaultLine?_idem (found : (ofUtterance utterance).vaultLine? = some line) :
    (ofUtterance line).vaultLine? = some line := by
  obtain ⟨mode, -⟩ := vaultLine?_eq_some found
  rw [ofUtterance_idem mode, ← mode, found]

end Mode

/-- **The lines of a history are a history of their own**, with the same lines. -/
theorem vaultLines_map_ofUser (history : List Turn) :
    vaultLines ((vaultLines history).map Turn.ofUser) = vaultLines history := by
  unfold vaultLines
  rw [List.filterMap_map, List.filterMap_filterMap]
  refine List.filterMap_congr ?_
  intro turn _
  obtain ⟨speaker, text⟩ := turn
  cases speaker with
  | bot => rfl
  | user =>
      show ((Mode.ofUtterance text).vaultLine?.bind fun line => (Mode.ofUtterance line).vaultLine?) =
        (Mode.ofUtterance text).vaultLine?
      cases found : (Mode.ofUtterance text).vaultLine? with
      | none => rfl
      | some line => exact Mode.vaultLine?_idem found

/-! ## Answers to lines -/

namespace Router

variable {line : String}

/-- A line that asks for no sentinel is never taken for one by the table. -/
theorem run_ne_sentinel {utterance : String} (mode : Mode.ofUtterance utterance = .terminal line)
    (unasked : Sentinel.ofLine? line = none) (shell : Shell) (wallClock : String)
    (sentinel : Sentinel) : (shell.run table wallClock line).2 ≠ .sentinel sentinel := by
  obtain ⟨command, arguments, parsed, reserved⟩ := Mode.parse?_of_terminal mode
  unfold table
  rw [Shell.run_command parsed (reserved.trans unasked)]
  intro taken
  cases taken

/-- **A line is answered by the command that it names**, on the state that the history leads to. -/
theorem respond_of_terminal (model : LanguageModel) (wallClock : String) (router : Router)
    {request : Request} (mode : Mode.ofUtterance request.query = .terminal line) :
    ∃ (command : Command) (arguments : List String),
      CommandLine.parse? line = some ⟨line, command.name, arguments⟩ ∧
      command.sentinel? = Sentinel.ofLine? line ∧
      (router.respond model wallClock request).response.text =
        match Sentinel.ofLine? line with
        | some sentinel => sentinel.token
        | none =>
          let shell := (router.opened.replay (router.heard request.history)).2
          Shell.resultText (command.execute wallClock shell.tick arguments).2 := by
  obtain ⟨command, arguments, parsed, reserved⟩ := Mode.parse?_of_terminal mode
  refine ⟨command, arguments, parsed, reserved, ?_⟩
  rw [respond_eq]
  rcases Mode.ofUtterance_eq_terminal mode with ⟨sentinel, asked, rfl⟩ | ⟨unasked, rfl, -⟩
  · rw [answer_of_ofLine? asked, Sentinel.ofLine?_word]
  · have found : (Mode.ofUtterance request.query).vaultLine? = some (Text.trim request.query) := by
      simp [mode, Mode.vaultLine?, unasked]
    obtain ⟨text, ran, answered⟩ := answer_of_vaultLine? model wallClock router.opened
      (router.heard request.history) found
    rw [Sentinel.ofLine?_trim] at reserved ⊢
    rw [CommandLine.parse?_trim] at parsed
    rw [Shell.run_command parsed (reserved.trans unasked)] at ran
    rw [answered, unasked]
    exact (Reply.output.inj ran).symm

/-- **The three readers of a line agree.**

* A line that is let through is let through again as it is.  It is read, its name is one of the table,
  and its command is a sentinel's if and only if the line is one of two words, and that is if and only
  if the line asks for a sentinel.
* Whatever a router has been asked before, it answers a line with the token of the sentinel that the
  line asks for, or with what the command of that name gives: its output or a failure of its own, which
  is never that no such command is known.
* In the second case the table takes the line for no sentinel, on any state.
* The lines that make up the state are a history of their own, with the same lines and the same state. -/
theorem terminal_lines_known :
    (∀ utterance line, Mode.ofUtterance utterance = .terminal line →
      Mode.ofUtterance line = .terminal line ∧
      ∃ parsed action, CommandLine.parse? line = some parsed ∧
        CommandTable.standard.find? parsed.name = some action ∧
        (action.sentinel?.isSome = true ↔ line = "clear" ∨ line = "exit") ∧
        ((Sentinel.ofLine? line).isSome = true ↔ line = "clear" ∨ line = "exit")) ∧
    (∀ (router : Router) model wallClock request line,
      Mode.ofUtterance request.query = .terminal line →
      let answer := (router.respond model wallClock request).response.text
      (∃ sentinel, Sentinel.ofLine? line = some sentinel ∧ answer = sentinel.token) ∨
      ∃ parsed action result, CommandLine.parse? line = some parsed ∧
        table.find? parsed.name = some action ∧
        result = (action.execute wallClock
          (router.opened.replay (router.heard request.history)).2.tick parsed.arguments).2 ∧
        answer = Shell.resultText result ∧
        ∀ raw, result ≠ .error (.unrecognized raw)) ∧
    (∀ utterance line, Mode.ofUtterance utterance = .terminal line →
      Sentinel.ofLine? line = none → ∀ (shell : Shell) wallClock sentinel,
        (shell.run table wallClock line).2 ≠ .sentinel sentinel) ∧
    ∀ history : List Turn,
      let lines := (vaultLines history).map Turn.ofUser
      vaultLines lines = vaultLines history ∧
        ∀ start : Shell, start.afterHistory .standard lines = start.afterHistory .standard history := by
  have known : ∀ command : Command,
      CommandTable.standard.find? command.name = some command.action := by
    intro command
    rw [CommandTable.standard_find?, Command.ofName?_name]
    rfl
  refine ⟨?_, ?_, fun _ _ => run_ne_sentinel, ?_⟩
  · intro utterance line mode
    obtain ⟨command, arguments, parsed, reserved⟩ := Mode.parse?_of_terminal mode
    have words := Mode.ofLine?_isSome_iff mode
    refine ⟨Mode.ofUtterance_idem mode, _, command.action, parsed, known command, ?_, words⟩
    rwa [← reserved] at words
  · intro router model wallClock request line mode answer
    obtain ⟨command, arguments, parsed, reserved, answered⟩ :=
      router.respond_of_terminal model wallClock mode
    cases asked : Sentinel.ofLine? line with
    | some sentinel =>
        rw [asked] at answered
        exact Or.inl ⟨sentinel, rfl, answered⟩
    | none =>
        rw [asked] at answered
        refine Or.inr ⟨_, command.action, _, parsed, known command, rfl, answered, ?_⟩
        intro raw failed
        exact (command.execute_atomic wallClock _ arguments _ failed).2
  · intro history lines
    have same : vaultLines lines = vaultLines history := vaultLines_map_ofUser history
    refine ⟨same, fun start => ?_⟩
    unfold Shell.afterHistory
    rw [same]

/-- A line with blanks around it and between its words. -/
theorem terminal_lines_known_spaced :
    Mode.ofUtterance "ls  -a" = .terminal "ls  -a" ∧
      (∃ parsed action, CommandLine.parse? "ls  -a" = some parsed ∧
        CommandTable.standard.find? parsed.name = some action ∧
        ¬ action.sentinel?.isSome = true) ∧
      ∀ sentinel, ((Shell.fresh "vault-user" .origin).run table "" "ls  -a").2 ≠ .sentinel sentinel := by
  have mode : Mode.ofUtterance "  ls  -a\n" = .terminal "ls  -a" := by decide +kernel
  have unasked : Sentinel.ofLine? "ls  -a" = none := by decide +kernel
  obtain ⟨readers, -, runs, -⟩ := terminal_lines_known
  obtain ⟨again, parsed, action, read, found, reserved, -⟩ := readers _ _ mode
  refine ⟨again, ⟨parsed, action, read, found, ?_⟩, runs _ _ mode unasked _ ""⟩
  rw [reserved]
  decide

end Router

end VaultShell
