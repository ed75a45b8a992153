import VaultShell.Proofs.Router.Respond
import VaultShell.Proofs.Shell.Output

/-!
# Which responses are taken for a sentinel

A response is a text, and a text that is a token is taken for the sentinel, whoever wrote it.  The
answers of a language model are checked for that before they are shown; what a command prints is not.
This module says for every request of every session which responses are taken for a sentinel: those
to the two words that ask for one, and the listings of a single name that is a token.

The second kind is a forgery.  A file may have any name, and `ls` repeats it.

## Main definitions

* `Settings.NoTokens`: settings whose own texts are no tokens
* `Router.ListsOnly`: a message that gets a listing of a single name

## Main statements

* `Router.sentinel?_respond_iff`: when a response is taken for a sentinel
* `Router.sentinel?_respond_forged`: it need not have been asked for
-/

namespace VaultShell

open Sentinel

/-! ## The texts of the settings -/

/-- The texts of the settings that are shown as they are, none of them a token. -/
structure Settings.NoTokens (settings : Settings) : Prop where
  identity : ¬ IsToken settings.identity
  apologyMessage : ¬ IsToken settings.apologyMessage
  emptyReplyMessage : ¬ IsToken settings.emptyReplyMessage

theorem Settings.noTokens_standard : Settings.standard.NoTokens where
  identity := (foreign_ofList rfl : Foreign "vault-user").not_isToken
  apologyMessage :=
    (foreign_ofList rfl : Foreign "Sorry, I encountered an error. Please try again.").not_isToken
  emptyReplyMessage := (foreign_ofList rfl : Foreign "No relevant data found.").not_isToken

/-! ## The state that a history leads to -/

namespace Shell

/-- No move changes who the user is. -/
theorem Move.identity {copies : Prop} {shell after : Shell} (move : Move copies shell after) :
    after.identity = shell.identity := by
  cases move <;> rfl

theorem identity_afterAll (settings : Settings) (lines : List String) :
    (settings.start.afterAll .standard lines).identity = settings.identity := by
  let Invariant := fun shell : Shell => shell.identity = settings.identity
  have ticks : ∀ shell, Invariant shell → Invariant shell.tick := fun _ h => h
  have keeps : ∀ shell after, shell.Typed → Move True shell after → Invariant shell →
      Invariant after := fun _ _ _ move h => move.identity.trans h
  exact afterAll_invariant ticks keeps (typed_fresh settings.identity settings.epochOrOrigin) rfl
    lines

end Shell

namespace Router

variable {settings : Settings} {router : Router} {query line : String}

/-! ## Answers of the language model -/

/-- **No answer of a model is shown as a token.** -/
theorem not_isToken_shownAnswer (noTokens : settings.NoTokens) (answer : Answer) :
    ¬ IsToken (shownAnswer settings answer) := by
  cases answer with
  | text text =>
      simp only [shownAnswer]
      split
      · exact noTokens.emptyReplyMessage
      case isFalse kept =>
        -- The text is a token only if it is its own trimmed form, which was checked.
        rintro ⟨sentinel, rfl⟩
        have trimmed : Text.trim sentinel.token = sentinel.token := by
          cases sentinel <;> decide +kernel
        rw [trimmed, ofToken?_token] at kept
        exact kept rfl
  | toolCall call => exact noTokens.emptyReplyMessage
  | failure error => exact noTokens.apologyMessage
  | silence => exact noTokens.apologyMessage

/-! ## Messages that get a listing -/

/-- **A message that gets a listing of a single name**: it is a line for the vault that runs `ls`,
and in the state that the history leads to there is nothing else to show. -/
def ListsOnly (settings : Settings) (history : List Turn) (query name : String) : Prop :=
  (Mode.ofUtterance query).vaultLine?.isSome = true ∧
    ∃ arguments, CommandLine.parse? query = some ⟨Text.trim query, "ls", arguments⟩ ∧
      (settings.start.afterHistory .standard history).ListsOnly arguments name

/-- Only lines for the vault get a listing. -/
theorem not_listsOnly (h : (Mode.ofUtterance query).vaultLine? = none) {history : List Turn}
    {name : String} : ¬ ListsOnly settings history query name := by
  rintro ⟨line, -⟩
  rw [h] at line
  cases line

/-- **What is printed for a line is a token** only if it is a listing of one. -/
theorem run_eq_token_iff (noTokens : settings.NoTokens) (now : Instant) (history : List Turn)
    {text : String} (found : (Mode.ofUtterance query).vaultLine? = some line)
    (ran : ((settings.start.afterHistory .standard history).run .standard (ClockTime.full now)
      query).2 = .output text) (sentinel : Sentinel) :
    text = sentinel.token ↔ ListsOnly settings history query sentinel.token := by
  obtain ⟨-, -, rfl, command, arguments, parsed, unreserved⟩ := Mode.vaultLine?_eq_some found
  rw [Shell.run_command parsed unreserved, Reply.output.injEq] at ran
  have typed : (settings.start.afterHistory .standard history).Typed :=
    Shell.afterAll_typed (Shell.typed_fresh settings.identity settings.epochOrOrigin) _
  have stocked : (settings.start.afterHistory .standard history).Stocked :=
    Shell.stocked_afterAll settings _
  have identity : (settings.start.afterHistory .standard history).identity = settings.identity :=
    Shell.identity_afterAll settings _
  have printed := Command.resultText_execute_eq_token_iff typed.tick stocked
    (identity ▸ noTokens.identity) now command arguments sentinel
  rw [← ran, printed, Shell.listsOnly_tick]
  constructor
  · rintro ⟨rfl, lists⟩
    exact ⟨by rw [found]; rfl, arguments, parsed, lists⟩
  · rintro ⟨-, others, parsedAgain, lists⟩
    rw [parsed, Option.some.injEq, CommandLine.mk.injEq] at parsedAgain
    obtain ⟨-, name, rfl⟩ := parsedAgain
    exact ⟨Command.name_injective name, lists⟩

/-! ## Responses -/

/-- Chat neither asks for a sentinel nor gets a listing. -/
theorem not_asked_of_chat (mode : Mode.ofUtterance query = .chat) {history : List Turn}
    {sentinel : Sentinel} :
    ¬ (Sentinel.ofLine? query = some sentinel ∨
      ListsOnly settings history query sentinel.token) := by
  rintro (asked | lists)
  · rw [Mode.ofUtterance_of_ofLine? asked] at mode
    cases mode
  · exact not_listsOnly (by rw [mode]; rfl) lists

/-- **When a response is taken for a sentinel.**  Under settings whose own texts are no tokens, in
any session and whatever the model says, there are two cases: the message asked for the sentinel, in
letters of any case; or it got a listing, and all that the listing shows is a name that is the
token. -/
theorem sentinel?_respond_iff (noTokens : settings.NoTokens) (reachable : Reachable settings router)
    (model : LanguageModel) (now : Instant) (request : Request) (sentinel : Sentinel) :
    (router.respond model (ClockTime.full now) request).response.sentinel? = some sentinel ↔
      (Text.trim request.query).toLower = sentinel.word ∨
        ListsOnly settings (router.heard request.history) request.query sentinel.token := by
  obtain ⟨query, history⟩ := request
  have kept : router.opened.settings = settings :=
    (opened_settings router).trans reachable.settings_eq
  rw [respond_eq, Response.sentinel?, ofToken?_eq_some_iff, ← ofLine?_eq_some_iff]
  rcases Mode.ofUtterance_cases query with blank | ⟨asked, word⟩ | ⟨line, found⟩ | ⟨said, mode⟩
  · rw [answer_of_trim_eq_empty blank]
    refine iff_of_false ?_ (not_asked_of_chat (Mode.ofUtterance_of_trim_eq_empty blank))
    intro heq
    exact not_isToken_empty ⟨sentinel, heq⟩
  · rw [answer_of_ofLine? word, word, Option.some.injEq]
    have mode := Mode.ofUtterance_of_ofLine? word
    have unlisted := @not_listsOnly settings query (by rw [mode]; simp [Mode.vaultLine?])
    constructor
    · intro heq
      exact Or.inl (token_injective heq)
    · rintro (rfl | lists)
      · rfl
      · exact absurd lists unlisted
  · obtain ⟨text, ran, answered⟩ :=
      answer_of_vaultLine? model (ClockTime.full now) router.opened (router.heard history) found
    rw [replay_snd (coherent_opened reachable.coherent), kept] at ran
    obtain ⟨-, unasked, -⟩ := Mode.vaultLine?_eq_some found
    rw [answered, unasked]
    simp only [reduceCtorEq, false_or]
    exact run_eq_token_iff noTokens now (router.heard history) found ran sentinel
  · rw [answer_of_chat said mode]
    refine iff_of_false ?_ (not_asked_of_chat mode)
    intro heq
    have shown := not_isToken_shownAnswer noTokens
      (model (prompt settings (Text.trim query) (router.heard history)))
    rw [← kept] at shown
    exact shown ⟨sentinel, heq⟩

/-- A word in capitals, in a session that has a file with the name of a token. -/
theorem sentinel?_respond_word :
    let touched := (fresh .standard).respond .offline (ClockTime.full .origin)
      ⟨"touch EXIT_SESSION", []⟩
    (touched.router.respond .offline (ClockTime.full .origin)
      ⟨"Clear ", [.ofUser "touch EXIT_SESSION", .ofBot touched.response.text]⟩).response.sentinel? =
        some .clearScreen := by
  intro touched
  have reachable : Reachable .standard touched.router := .respond _ _ _ .fresh
  have word : (Text.trim "Clear ").toLower = Sentinel.word .clearScreen := by decide +kernel
  exact (sentinel?_respond_iff Settings.noTokens_standard reachable .offline .origin _ _).2
    (Or.inl word)

/-- **A sentinel need not have been asked for.**  A file was named like a token, and a listing of it
is taken for the sentinel, although the message is not its word. -/
theorem sentinel?_respond_forged :
    let touched := (fresh .standard).respond .offline (ClockTime.full .origin)
      ⟨"touch CLEAR_SCREEN", []⟩
    let listed := touched.router.respond .offline (ClockTime.full .origin)
      ⟨"ls CLEAR_SCREEN", [.ofUser "touch CLEAR_SCREEN", .ofBot touched.response.text]⟩
    listed.response.sentinel? = some .clearScreen ∧
      (Text.trim "ls CLEAR_SCREEN").toLower ≠ Sentinel.word .clearScreen := by
  decide +kernel

end Router

end VaultShell
