import VaultShell.Conversation.Basic
import VaultShell.Router.Settings

/-!
# The last replay cannot be seen

Keeping the last replay saves running lines again and must do nothing else.  What it rests on is one
sentence about what is kept, `LastReplay.Faithful`: the state kept is the one that the lines kept
lead to.  Every call keeps it true, whatever the calls before were, and as long as it is true a
history that goes on from the lines kept may be finished from the state kept.

## Main definitions

* `LastReplay.Faithful`: the state kept is where the lines kept lead
* `CacheCall`, `LastReplay.answers`: the calls that a cache takes, and its answers to a list of them

## Main statements

* `LastReplay.shell_catchUp`: by way of a faithful replay a history leads where it leads anyway
* `LastReplay.answers_eq_map`: no list of calls tells the cache from replaying everything each time
-/

namespace VaultShell

/-- Replaying a history in two parts: the lines of the first one make the state that those of the
second one run on. -/
theorem Shell.afterHistory_append (table : CommandTable) (start : Shell) (history more : List Turn) :
    start.afterHistory table (history ++ more) =
      (start.afterHistory table history).afterHistory table more := by
  unfold Shell.afterHistory vaultLines
  rw [List.filterMap_append, Shell.afterAll_append]

/-- Of a message and its response only the message may count for the state. -/
theorem vaultLines_exchange (query text : String) :
    vaultLines [.ofUser query, .ofBot text] = (Mode.ofUtterance query).vaultLine?.toList := by
  have message : (Turn.ofUser query).vaultLine? = (Mode.ofUtterance query).vaultLine? := rfl
  have answer : (Turn.ofBot text).vaultLine? = none := rfl
  unfold vaultLines
  rw [List.filterMap_cons, List.filterMap_cons, message, answer]
  cases (Mode.ofUtterance query).vaultLine? <;> rfl

namespace LastReplay

variable {table : CommandTable} {start : Shell}

/-- **What makes a replay worth keeping**: its state is the one that its lines lead to.  That there
is nothing kept is faithful as well. -/
def Faithful (table : CommandTable) (start : Shell) (last : Option LastReplay) : Prop :=
  ∀ kept, last = some kept → kept.shell = start.afterAll table kept.lines

theorem faithful_none : Faithful table start none := by
  intro kept hkept
  cases hkept

/-- A list of lines leads to the same state from a faithful replay as from the start: a prefix that
was run before and the rest of the lines make one full run. -/
theorem replay_eq_afterAll {last : Option LastReplay} (hlast : Faithful table start last)
    (lines : List String) : replay table start last lines = start.afterAll table lines := by
  cases last with
  | none => rfl
  | some kept =>
      unfold replay
      by_cases hstart : kept.lines.isPrefixOf lines = true
      · have hsplit : kept.lines ++ lines.drop kept.lines.length = lines :=
          List.prefix_iff_eq_append.1 (List.isPrefixOf_iff_prefix.1 hstart)
        simp only [hstart, if_true]
        rw [hlast kept rfl, ← Shell.afterAll_append, hsplit]
      · simp only [hstart, if_false, Bool.false_eq_true]

/-- **By way of a faithful replay a history leads where it leads anyway.** -/
theorem shell_catchUp {last : Option LastReplay} (hlast : Faithful table start last)
    (history : List Turn) :
    (catchUp table start last history).shell = start.afterHistory table history :=
  replay_eq_afterAll hlast (vaultLines history)

/-- What is kept after a history is faithful again. -/
theorem faithful_catchUp {last : Option LastReplay} (hlast : Faithful table start last)
    (history : List Turn) : Faithful table start (some (catchUp table start last history)) := by
  intro kept hkept
  obtain rfl := Option.some.inj hkept
  exact replay_eq_afterAll hlast (vaultLines history)

end LastReplay

/-! ## Calls in any order -/

/-- A call of the cache: to forget what is kept, or to give the state that a history leads to. -/
inductive CacheCall where
  | reset
  | snapshot (history : List Turn)
  deriving DecidableEq, Repr

namespace CacheCall

/-- What is kept after a call. -/
def kept (table : CommandTable) (start : Shell) (last : Option LastReplay) :
    CacheCall → Option LastReplay
  | .reset => none
  | .snapshot history => some (LastReplay.catchUp table start last history)

/-- What the cache answers; forgetting has no answer. -/
def answer (table : CommandTable) (start : Shell) (last : Option LastReplay) :
    CacheCall → Option Shell
  | .reset => none
  | .snapshot history => some (LastReplay.catchUp table start last history).shell

/-- What a full replay from the start answers. -/
def fullAnswer (table : CommandTable) (start : Shell) : CacheCall → Option Shell
  | .reset => none
  | .snapshot history => some (start.afterHistory table history)

end CacheCall

namespace LastReplay

variable {table : CommandTable} {start : Shell}

/-- The answers to calls that come one after the other. -/
def answers (table : CommandTable) (start : Shell) (last : Option LastReplay) :
    List CacheCall → List (Option Shell)
  | [] => []
  | call :: rest => call.answer table start last :: answers table start (call.kept table start last) rest

/-- One call keeps what is kept faithful. -/
theorem Faithful.kept {last : Option LastReplay} (hlast : Faithful table start last)
    (call : CacheCall) : Faithful table start (call.kept table start last) := by
  cases call with
  | reset => exact faithful_none
  | snapshot history => exact faithful_catchUp hlast history

/-- One call is answered as by a full replay. -/
theorem Faithful.answer {last : Option LastReplay} (hlast : Faithful table start last)
    (call : CacheCall) : call.answer table start last = call.fullAnswer table start := by
  cases call with
  | reset => rfl
  | snapshot history => exact congrArg some (shell_catchUp hlast history)

/-- From a faithful replay on, every call is answered as by a full replay.  The induction is over
the calls, and what is kept changes along with it. -/
theorem Faithful.answers {last : Option LastReplay} (hlast : Faithful table start last)
    (calls : List CacheCall) :
    LastReplay.answers table start last calls = calls.map (CacheCall.fullAnswer table start) := by
  induction calls generalizing last with
  | nil => rfl
  | cons call rest ih =>
      unfold LastReplay.answers
      rw [List.map_cons, hlast.answer call, ih (hlast.kept call)]

/-- **The last replay cannot be seen.**  Under any table and any settings, a cache that starts with
nothing kept answers every call of every list of calls as a full replay from the start does: the
vault with its modification times, both directories, the clock and the identity. -/
theorem answers_eq_map (table : CommandTable) (settings : Settings) (calls : List CacheCall) :
    answers table settings.start none calls =
      calls.map (CacheCall.fullAnswer table settings.start) :=
  faithful_none.answers calls

end LastReplay

end VaultShell
