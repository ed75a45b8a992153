import Mathlib.Logic.Function.Iterate
import VaultShell.Proofs.Conversation.Utterance
import VaultShell.Proofs.Shell.Confinement
import VaultShell.Conversation.Basic
import VaultShell.Router.Settings

/-!
# The logical clock

The clock counts lines.  It goes on by a minute for each line that a command of the vault carries out,
whatever comes of it, and stands still for all others.  So the clock after a run is the epoch and a
number of ticks, and the number can be read off the lines without running them.  Instants have no
upper bound here, so the clock never runs out of them.

A node gets its modification time from the clock at the moment of a line, or keeps the one it has,
whatever becomes of it after that; the times of a vault are therefore times that the clock has shown.

## Main definitions

* `CommandTable.carriesOut`: the lines that count
* `Shell.Dated`: a property of all modification times

## Main statements

* `Shell.clock_afterAll`: the clock after a run of lines
* `Shell.Move.dated`, `Shell.dated_afterAll`: what holds of the times of the clock holds of all
  modification times
* `Shell.clock_and_times`: the two together, for every run and every history
-/

namespace VaultShell

/-! ## Ticks -/

namespace Instant

/-- Every tick is a minute. -/
theorem seconds_iterate_tick (time : Instant) (n : Nat) :
    (tick^[n] time).seconds = time.seconds + 60 * n := by
  induction n generalizing time with
  | zero => simp
  | succ n ih =>
      rw [Function.iterate_succ_apply, ih]
      simp only [tick]
      push_cast
      omega

/-- More ticks lead to a later time. -/
theorem iterate_tick_le (time : Instant) {m n : Nat} (h : m ≤ n) :
    tick^[m] time ≤ tick^[n] time := by
  rcases Nat.eq_or_lt_of_le h with rfl | lt
  · exact Or.inr ⟨rfl, Nat.le_refl _⟩
  · refine Or.inl ?_
    rw [seconds_iterate_tick, seconds_iterate_tick]
    omega

end Instant

/-- **Whether a line is carried out by a command of the vault**: its first word is a name of the
table, and none that the session handles. -/
def CommandTable.carriesOut (table : CommandTable) (input : String) : Bool :=
  ((CommandLine.parse? input).bind fun line => table.find? line.name).any fun action =>
    action.sentinel?.isNone

theorem CommandTable.carriesOut_standard_iff {input : String} :
    standard.carriesOut input = true ↔
      ∃ (raw : String) (command : Command) (arguments : List String),
        CommandLine.parse? input = some ⟨raw, command.name, arguments⟩ ∧
        command.sentinel? = none := by
  simp only [carriesOut, Option.any_eq_true, Option.bind_eq_some_iff, standard_find?,
    Option.map_eq_some_iff]
  constructor
  · rintro ⟨_, ⟨⟨raw, name, arguments⟩, parsed, command, named, rfl⟩, unreserved⟩
    obtain rfl := Command.name_of_ofName? named
    exact ⟨raw, command, arguments, parsed, Option.isNone_iff_eq_none.1 unreserved⟩
  · rintro ⟨raw, command, arguments, parsed, unreserved⟩
    exact ⟨command.action, ⟨_, parsed, command, Command.ofName?_name command, rfl⟩,
      Option.isNone_iff_eq_none.2 unreserved⟩

namespace Shell

/-- **One line**, whatever its command does with it. -/
theorem clock_after (shell : Shell) (input : String) :
    (shell.after .standard input).clock =
      if CommandTable.standard.carriesOut input then shell.clock.tick else shell.clock := by
  split
  case isTrue counts =>
    obtain ⟨raw, command, arguments, parsed, unreserved⟩ := CommandTable.carriesOut_standard_iff.1 counts
    unfold after
    rw [run_command parsed unreserved]
    exact (command.execute_clock_identity "" shell.tick arguments).1
  case isFalse still =>
    rcases after_cases shell input with same | ⟨raw, command, arguments, parsed, unreserved, -⟩
    · rw [same]
    · exact absurd (CommandTable.carriesOut_standard_iff.2
        ⟨raw, command, arguments, parsed, unreserved⟩) still

/-- **The clock after a run of lines** has gone on by a tick for each line that counts. -/
theorem clock_afterAll (shell : Shell) (inputs : List String) :
    (shell.afterAll .standard inputs).clock =
      Instant.tick^[inputs.countP CommandTable.standard.carriesOut] shell.clock := by
  induction inputs generalizing shell with
  | nil => rfl
  | cons input rest ih =>
      rw [afterAll_cons, ih, clock_after, List.countP_cons]
      split
      · rw [Function.iterate_succ_apply]
      · rfl

/-- The lines of a history all count. -/
theorem countP_vaultLines (history : List Turn) :
    (vaultLines history).countP CommandTable.standard.carriesOut = (vaultLines history).length := by
  rw [List.countP_eq_length]
  intro line found
  obtain ⟨⟨speaker, text⟩, -, found⟩ := List.mem_filterMap.1 found
  cases speaker with
  | bot => cases found
  | user =>
      obtain ⟨-, -, rfl, command, arguments, parsed, unreserved⟩ := Mode.vaultLine?_eq_some found
      rw [← CommandLine.parse?_trim] at parsed
      exact CommandTable.carriesOut_standard_iff.2 ⟨_, command, arguments, parsed, unreserved⟩

/-! ## Modification times -/

/-- **Everywhere in the vault the modification time has a property.** -/
def Dated (P : Instant → Prop) (shell : Shell) : Prop :=
  shell.vault.root.Everywhere fun node => P node.modified

variable {P : Instant → Prop} {copies : Prop} {shell after : Shell}

theorem modified_stamp (node : Node) (time : Instant) : (node.stamp time).modified = time := by
  cases node <;> rfl

theorem modified_rename (node : Node) (name : String) :
    (node.rename name).modified = node.modified := by
  cases node <;> rfl

/-- **A move sets no other times than that of the clock.**  What is copied or moved takes the times
beneath it along. -/
theorem Move.dated (move : Move copies shell after) (now : P shell.clock) (dated : shell.Dated P) :
    after.Dated P := by
  refine move.everywhere ?_ ?_ ?_ ?_ dated
  · intro node _
    rwa [modified_stamp]
  · intro node name _ held
    rwa [modified_rename]
  · exact fun _ _ => now
  · exact fun _ _ => now

theorem Move.clock (move : Move copies shell after) : after.clock = shell.clock := by
  cases move <;> rfl

/-- All moves of a line are made at the same time. -/
theorem Moves.clock (moves : Moves copies shell after) : after.clock = shell.clock := by
  induction moves with
  | refl => rfl
  | tail _ move ih => exact move.clock.trans ih

theorem Moves.dated (moves : Moves copies shell after) (now : P shell.clock)
    (dated : shell.Dated P) : after.Dated P := by
  induction moves with
  | refl => exact dated
  | tail earlier move ih => exact move.dated (Moves.clock earlier ▸ now) ih

/-- **A line sets no other times than the one that the clock shows after it.** -/
theorem dated_after (typed : shell.Typed) (input : String)
    (now : P (shell.after .standard input).clock) (dated : shell.Dated P) :
    (shell.after .standard input).Dated P := by
  rcases after_moves typed input with same | moves
  · rwa [same]
  · rw [moves.clock] at now
    exact moves.dated now dated

/-- **A run of lines sets no other times than those that the clock shows on the way.** -/
theorem dated_afterAll (typed : shell.Typed) (inputs : List String)
    (times : ∀ before, before <+: inputs → P (shell.afterAll .standard before).clock)
    (dated : shell.Dated P) : (shell.afterAll .standard inputs).Dated P := by
  induction inputs generalizing shell with
  | nil => exact dated
  | cons input rest ih =>
      rw [afterAll_cons]
      refine ih (after_typed typed input) ?_ ?_
      · intro before begins
        have shown := times (input :: before) (List.cons_prefix_cons.2 ⟨rfl, begins⟩)
        rw [afterAll_cons] at shown
        exact shown
      · have shown := times [input] (List.cons_prefix_cons.2 ⟨rfl, List.nil_prefix⟩)
        rw [afterAll_cons, afterAll_nil] at shown
        exact dated_after typed input shown dated

/-- **The clock counts the lines that are carried out, and all times are times that it has shown.**
After any lines the clock has gone on from the epoch by a tick, which is a minute, for each line that a
command of the vault carries out, whether it succeeds, fails or prints its help, and by nothing else.
The modification time of every node is the clock after some of the first lines, and so it is neither
before the epoch nor after the clock.  A history moves the clock by a tick for each of its lines. -/
theorem clock_and_times (settings : Settings) :
    (∀ lines : List String,
      let shell := settings.start.afterAll .standard lines
      let ticks := lines.countP CommandTable.standard.carriesOut
      shell.clock = Instant.tick^[ticks] settings.epochOrOrigin ∧
        shell.clock.seconds = settings.epochOrOrigin.seconds + 60 * ticks ∧
        shell.vault.root.Everywhere fun node =>
          (∃ before, before <+: lines ∧
            node.modified = (settings.start.afterAll .standard before).clock) ∧
          settings.epochOrOrigin ≤ node.modified ∧ node.modified ≤ shell.clock) ∧
    ∀ history : List Turn,
      (settings.start.afterHistory .standard history).clock =
        Instant.tick^[(vaultLines history).length] settings.epochOrOrigin := by
  refine ⟨?_, ?_⟩
  · intro lines shell ticks
    have clock : shell.clock = Instant.tick^[ticks] settings.epochOrOrigin :=
      clock_afterAll settings.start lines
    refine ⟨clock, by rw [clock, Instant.seconds_iterate_tick], ?_⟩
    -- The bounds are shown of the times of the clock, and the vault has no others.
    let Shown : Instant → Prop := fun time =>
      (∃ before, before <+: lines ∧ time = (settings.start.afterAll .standard before).clock) ∧
        settings.epochOrOrigin ≤ time ∧ time ≤ shell.clock
    have shown : ∀ before, before <+: lines →
        Shown (settings.start.afterAll .standard before).clock := by
      intro before begins
      have earlier : before.countP CommandTable.standard.carriesOut ≤ ticks :=
        begins.sublist.countP_le
      refine ⟨⟨before, begins, rfl⟩, ?_⟩
      rw [clock, clock_afterAll]
      exact ⟨Instant.iterate_tick_le _ (Nat.zero_le _), Instant.iterate_tick_le _ earlier⟩
    have epoch : Shown settings.epochOrOrigin := shown [] List.nil_prefix
    have start : settings.start.Dated Shown :=
      Vault.everywhere_initial epoch epoch epoch fun _ _ => epoch
    exact dated_afterAll (typed_fresh settings.identity settings.epochOrOrigin) lines shown start
  · intro history
    unfold afterHistory
    rw [clock_afterAll, countP_vaultLines]
    rfl

end Shell

end VaultShell
