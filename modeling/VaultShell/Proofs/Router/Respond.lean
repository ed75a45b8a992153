import VaultShell.Proofs.Conversation.Cache
import VaultShell.Proofs.Conversation.Utterance
import VaultShell.Router.Basic

/-!
# What comes of a request

A request has one of four outcomes: nothing was said, a sentinel was asked for, a line was run on
the vault, or the language model was asked.  For each of them one equation gives the whole exchange,
so that nothing later has to look into `Router.respond`.

A request to a router whose session has ended is a request to the router of a new session, with no
history.  `Router.opened` and `Router.heard` take that step out of the way.

What a router keeps between two requests is good for nothing but saving work, as long as it is
`Coherent`; `Router.Reachable` are the routers that requests can lead to, and they all are.

## Main statements

* `Router.answer_of_vaultLine?`: a line is answered from the state that the history leads to
* `Router.respond_call`: when the language model is asked, and what
* `Router.respond_ended`, `Router.respond_sessionNumber`: when a session ends, and when one begins
* `Router.Reachable.coherent`: whatever was asked before, the last replay is faithful
-/

namespace VaultShell

/-- **The four kinds of utterances.** -/
theorem Mode.ofUtterance_cases (utterance : String) :
    Text.trim utterance = "" ∨
      (∃ sentinel, Sentinel.ofLine? utterance = some sentinel) ∨
      (∃ line, (ofUtterance utterance).vaultLine? = some line) ∨
      (Text.trim utterance ≠ "" ∧ ofUtterance utterance = .chat) := by
  by_cases blank : Text.trim utterance = ""
  · exact Or.inl blank
  · refine Or.inr ?_
    cases mode : ofUtterance utterance with
    | chat => exact Or.inr (Or.inr ⟨blank, rfl⟩)
    | terminal line =>
        rcases ofUtterance_eq_terminal mode with ⟨sentinel, asked, -⟩ | ⟨unasked, rfl, -⟩
        · exact Or.inl ⟨sentinel, asked⟩
        · refine Or.inr (Or.inl ⟨Text.trim utterance, ?_⟩)
          simp [vaultLine?, unasked]

namespace Router

/-- The router of the session that a request belongs to. -/
def opened (router : Router) : Router :=
  if router.ended then router.restart else router

/-- The part of a history that counts: all of it, unless it belongs to a session that has ended. -/
def heard (router : Router) (history : List Turn) : List Turn :=
  if router.ended then [] else history

@[simp] theorem opened_settings (router : Router) : router.opened.settings = router.settings := by
  unfold opened
  split <;> rfl

@[simp] theorem opened_ended (router : Router) : router.opened.ended = false := by
  unfold opened
  cases ended : router.ended with
  | true => rfl
  | false => simpa using ended

theorem respond_eq (model : LanguageModel) (wallClock : String) (router : Router)
    (request : Request) :
    router.respond model wallClock request =
      router.opened.answer model wallClock request.query (router.heard request.history) := by
  unfold respond opened heard
  split <;> rfl

/-! ## One equation for each outcome -/

variable {model : LanguageModel} {wallClock query line : String} {router : Router}
  {history : List Turn} {sentinel : Sentinel}

theorem answer_of_trim_eq_empty (blank : Text.trim query = "") :
    router.answer model wallClock query history = ⟨router, ⟨""⟩, none⟩ := by
  simp [answer, blank]

theorem answer_of_chat (said : Text.trim query ≠ "") (mode : Mode.ofUtterance query = .chat) :
    router.answer model wallClock query history = router.ask model (Text.trim query) history := by
  simp [answer, said, mode]

/-- Who asks for a sentinel says something. -/
theorem trim_ne_empty_of_ofLine? (asked : Sentinel.ofLine? query = some sentinel) :
    Text.trim query ≠ "" := by
  intro blank
  have unasked := Mode.ofLine?_eq_none_of_chat (Mode.ofUtterance_of_trim_eq_empty blank)
  rw [unasked] at asked
  cases asked

/-- So does who types a line. -/
theorem trim_ne_empty_of_vaultLine? (found : (Mode.ofUtterance query).vaultLine? = some line) :
    Text.trim query ≠ "" := by
  intro blank
  rw [Mode.ofUtterance_of_trim_eq_empty blank] at found
  cases found

theorem answer_of_ofLine? (asked : Sentinel.ofLine? query = some sentinel) :
    router.answer model wallClock query history =
      ⟨(router.applySentinel sentinel).1, ⟨sentinel.token⟩, none⟩ := by
  have said := trim_ne_empty_of_ofLine? asked
  simp [answer, said, Mode.ofUtterance_of_ofLine? asked, runLine, applySentinel]

/-- **A line is answered from the state that the history leads to**, and the router remembers that
state and not the one after the line. -/
theorem answer_of_vaultLine? (model : LanguageModel) (wallClock : String) (router : Router)
    (history : List Turn) (found : (Mode.ofUtterance query).vaultLine? = some line) :
    ∃ text, ((router.replay history).2.run .standard wallClock query).2 = .output text ∧
      router.answer model wallClock query history =
        ⟨(router.replay history).1, ⟨text⟩, none⟩ := by
  obtain ⟨mode, unasked, rfl, command, arguments, parsed, unreserved⟩ :=
    Mode.vaultLine?_eq_some found
  have said := trim_ne_empty_of_vaultLine? found
  have ran := Shell.run_command parsed unreserved (router.replay history).2 wallClock
  refine ⟨_, congrArg Prod.snd ran, ?_⟩
  simp [answer, said, mode, runLine, unasked, table, ran]

/-! ## What the language model is asked -/

/-- Whether a message is none for the language model: it is blank or for the terminal. -/
def ForVault (query : String) : Prop :=
  Text.trim query = "" ∨ (Mode.ofUtterance query).isTerminal = true

instance (query : String) : Decidable (ForVault query) :=
  inferInstanceAs (Decidable (_ ∨ _))

theorem not_forVault_iff :
    ¬ ForVault query ↔ Text.trim query ≠ "" ∧ Mode.ofUtterance query = .chat := by
  unfold ForVault
  cases Mode.ofUtterance query <;> simp [Mode.isTerminal]

theorem forVault_of_ofLine? (asked : Sentinel.ofLine? query = some sentinel) : ForVault query := by
  refine Or.inr ?_
  rw [Mode.ofUtterance_of_ofLine? asked]
  rfl

theorem forVault_of_vaultLine? (found : (Mode.ofUtterance query).vaultLine? = some line) :
    ForVault query := by
  obtain ⟨mode, -⟩ := Mode.vaultLine?_eq_some found
  refine Or.inr ?_
  rw [mode]
  rfl

/-- What the language model would be asked about a request, and how long it would be given. -/
def question (router : Router) (request : Request) : ModelCall :=
  ⟨prompt router.settings (Text.trim request.query) (router.heard request.history),
    router.settings.modelTimeoutMs⟩

/-- **The language model is asked** about chat that says something, once for each request, and about
nothing else. -/
theorem respond_call (model : LanguageModel) (wallClock : String) (router : Router)
    (request : Request) :
    (router.respond model wallClock request).call =
      if ForVault request.query then none else some (router.question request) := by
  rw [respond_eq]
  rcases Mode.ofUtterance_cases request.query with
    blank | ⟨sentinel, asked⟩ | ⟨line, found⟩ | ⟨said, mode⟩
  · have forVault : ForVault request.query := Or.inl blank
    rw [answer_of_trim_eq_empty blank, if_pos forVault]
  · rw [answer_of_ofLine? asked, if_pos (forVault_of_ofLine? asked)]
  · obtain ⟨text, -, answered⟩ := answer_of_vaultLine? model wallClock router.opened
      (router.heard request.history) found
    rw [answered, if_pos (forVault_of_vaultLine? found)]
  · rw [answer_of_chat said mode, if_neg (not_forVault_iff.2 ⟨said, mode⟩)]
    unfold ask question
    rw [opened_settings]

/-! ## What a request leaves behind -/

/-- **A session ends with the request that asks for it**, and with no other. -/
theorem respond_ended (model : LanguageModel) (wallClock : String) (router : Router)
    (request : Request) :
    (router.respond model wallClock request).router.ended =
      decide (Sentinel.ofLine? request.query = some .exitSession) := by
  rw [respond_eq]
  rcases Mode.ofUtterance_cases request.query with
    blank | ⟨sentinel, asked⟩ | ⟨line, found⟩ | ⟨said, mode⟩
  · have unasked := Mode.ofLine?_eq_none_of_chat (Mode.ofUtterance_of_trim_eq_empty blank)
    rw [answer_of_trim_eq_empty blank, unasked]
    exact opened_ended router
  · rw [answer_of_ofLine? asked, asked]
    simp [applySentinel]
  · obtain ⟨-, unasked, -⟩ := Mode.vaultLine?_eq_some found
    obtain ⟨text, -, answered⟩ := answer_of_vaultLine? model wallClock router.opened
      (router.heard request.history) found
    rw [answered, unasked]
    exact opened_ended router
  · rw [answer_of_chat said mode, Mode.ofLine?_eq_none_of_chat mode]
    exact opened_ended router

/-- Answering does not change the number of the session. -/
theorem answer_sessionNumber (model : LanguageModel) (wallClock query : String) (router : Router)
    (history : List Turn) :
    (router.answer model wallClock query history).router.sessionNumber = router.sessionNumber := by
  rcases Mode.ofUtterance_cases query with blank | ⟨sentinel, asked⟩ | ⟨line, found⟩ | ⟨said, mode⟩
  · rw [answer_of_trim_eq_empty blank]
  · rw [answer_of_ofLine? asked]
    rfl
  · obtain ⟨text, -, answered⟩ := answer_of_vaultLine? model wallClock router history found
    rw [answered]
    rfl
  · rw [answer_of_chat said mode]
    rfl

/-- **A request begins a session** if and only if the one before has ended. -/
theorem respond_sessionNumber (model : LanguageModel) (wallClock : String) (router : Router)
    (request : Request) :
    (router.respond model wallClock request).router.sessionNumber =
      if router.ended then router.sessionNumber + 1 else router.sessionNumber := by
  rw [respond_eq, answer_sessionNumber]
  unfold opened
  split
  · rfl
  · rfl

/-! ## What a router keeps -/

/-- What a router keeps is the state that the lines kept lead to. -/
def Coherent (router : Router) : Prop :=
  LastReplay.Faithful table router.settings.start router.lastReplay

theorem coherent_fresh (settings : Settings) : (fresh settings).Coherent :=
  LastReplay.faithful_none

theorem coherent_opened (coherent : router.Coherent) : router.opened.Coherent := by
  unfold opened
  split
  · exact LastReplay.faithful_none
  · exact coherent

theorem coherent_applySentinel (router : Router) (sentinel : Sentinel) :
    (router.applySentinel sentinel).1.Coherent :=
  LastReplay.faithful_none

theorem coherent_replay (coherent : router.Coherent) (history : List Turn) :
    (router.replay history).1.Coherent :=
  LastReplay.faithful_catchUp coherent history

/-- **A coherent router finds the state that a history leads to.** -/
theorem replay_snd (coherent : router.Coherent) (history : List Turn) :
    (router.replay history).2 = router.settings.start.afterHistory .standard history :=
  LastReplay.shell_catchUp coherent history

/-- What a request does to a router, whatever its outcome is: the settings stay, and what is kept
stays coherent. -/
theorem answer_router (coherent : router.Coherent) (model : LanguageModel)
    (wallClock query : String) (history : List Turn) :
    (router.answer model wallClock query history).router.settings = router.settings ∧
      (router.answer model wallClock query history).router.Coherent := by
  rcases Mode.ofUtterance_cases query with blank | ⟨sentinel, asked⟩ | ⟨line, found⟩ | ⟨said, mode⟩
  · rw [answer_of_trim_eq_empty blank]
    exact ⟨rfl, coherent⟩
  · rw [answer_of_ofLine? asked]
    exact ⟨rfl, coherent_applySentinel router sentinel⟩
  · obtain ⟨text, -, answered⟩ := answer_of_vaultLine? model wallClock router history found
    rw [answered]
    exact ⟨rfl, coherent_replay coherent history⟩
  · rw [answer_of_chat said mode]
    exact ⟨rfl, coherent⟩

/-! ## Reachable routers -/

/-- The routers that requests and looks at the working directory can lead to. -/
inductive Reachable (settings : Settings) : Router → Prop
  | fresh : Reachable settings (fresh settings)
  | respond {router : Router} (model : LanguageModel) (wallClock : String) (request : Request) :
      Reachable settings router →
        Reachable settings (router.respond model wallClock request).router
  | workingDirectory {router : Router} (history : List Turn) :
      Reachable settings router → Reachable settings (router.workingDirectory history).1

/-- Reachable routers have the settings they were made with, and what they keep is coherent. -/
theorem Reachable.settings_and_coherent {settings : Settings} (reachable : Reachable settings router) :
    router.settings = settings ∧ router.Coherent := by
  induction reachable with
  | fresh => exact ⟨rfl, coherent_fresh settings⟩
  | @respond router model wallClock request _ ih =>
      obtain ⟨rfl, coherent⟩ := ih
      rw [respond_eq]
      have kept := answer_router (coherent_opened coherent) model wallClock request.query
        (router.heard request.history)
      rw [opened_settings] at kept
      exact kept
  | workingDirectory history _ ih => exact ⟨ih.1, coherent_replay ih.2 history⟩

theorem Reachable.settings_eq {settings : Settings} (reachable : Reachable settings router) :
    router.settings = settings :=
  reachable.settings_and_coherent.1

/-- **Whatever was asked before, the last replay of a router is faithful.** -/
theorem Reachable.coherent {settings : Settings} (reachable : Reachable settings router) :
    router.Coherent :=
  reachable.settings_and_coherent.2

end Router

end VaultShell
