import VaultShell.Proofs.Router.Respond

/-!
# The vault hears the user alone

A router keeps a replay between two requests, it asks a language model and writes down nothing of the
answer, and it takes a history as it comes, with the bot's turns in it.  None of this reaches the
vault.  What a message for the vault is answered is a function of the settings and of what the user
has said, `vaultAnswer`, and no router, model or turn of the bot has a part in it.

So two routers may have been asked anything, by way of any models, and may be given histories in which
the bot says different things: as long as the user said the same, nobody can tell them apart by asking
for the vault.  A model is taken together with the timer that runs beside it; an answer that comes too
late is one of the answers that a model may give.

## Main definitions

* `userTexts`, `userLines`: what the user said in a history, and the lines for the terminal in it
* `Router.vaultAnswer`: the answer to a message that is not for the model
* `Visit`, `Router.vaultAnswers`: requests one after the other, and what the vault answers

## Main statements

* `Router.Reachable.respond_response`: the answer is that function, whatever was asked before
* `Router.vaultAnswers_eq`: two runs of requests that are the same for the vault
* `Router.respond_of_same_userTexts`: the vault is a function of the user's turns
-/

namespace VaultShell

/-! ## What the user said -/

/-- What the user said in a history, oldest first. -/
def userTexts (history : List Turn) : List String :=
  (history.filter (·.speaker = .user)).map Turn.text

/-- The lines for the terminal among what the user said, as they were typed. -/
def userLines (history : List Turn) : List String :=
  (userTexts history).filter fun text => (Mode.ofUtterance text).isTerminal

/-- The lines that make up the state are found among what the user said. -/
theorem vaultLines_eq_filterMap_userTexts (history : List Turn) :
    vaultLines history =
      (userTexts history).filterMap fun text => (Mode.ofUtterance text).vaultLine? := by
  unfold vaultLines userTexts
  rw [List.filterMap_map, List.filterMap_filter]
  congr 1
  funext ⟨speaker, text⟩
  cases speaker with
  | user => rfl
  | bot => rfl

/-- Chat does not count for the state. -/
theorem vaultLines_eq_filterMap_userLines (history : List Turn) :
    vaultLines history =
      (userLines history).filterMap fun text => (Mode.ofUtterance text).vaultLine? := by
  rw [vaultLines_eq_filterMap_userTexts, userLines, List.filterMap_filter]
  congr 1
  funext text
  cases Mode.ofUtterance text <;> rfl

/-- Where the user said the same, the user's lines are the same. -/
theorem userLines_congr {history other : List Turn} (same : userTexts history = userTexts other) :
    userLines history = userLines other := by
  unfold userLines
  rw [same]

/-- An exchange of chat brings no line in. -/
theorem userLines_exchange {query : String} (mode : Mode.ofUtterance query = .chat) (text : String)
    (before after : List Turn) :
    userLines (before ++ .ofUser query :: .ofBot text :: after) = userLines (before ++ after) := by
  simp [userLines, userTexts, Turn.ofUser, Turn.ofBot, mode, Mode.isTerminal]

/-- Whether a message is a line that asks for the time of day. -/
def AsksForTime (query : String) : Prop :=
  (Mode.ofUtterance query).vaultLine?.isSome = true ∧
    (CommandLine.parse? query).map CommandLine.name = some "date"

instance (query : String) : Decidable (AsksForTime query) :=
  inferInstanceAs (Decidable (_ ∧ _))

/-- A request, with the model that it would be put to and the reading of the clock when it comes. -/
structure Visit where
  model : LanguageModel
  wallClock : String
  request : Request

/-- **Two requests that are the same for the vault**: the same message after the same lines of the
user.  The clocks may differ unless the message asks for the time. -/
structure Visit.SameForVault (visit other : Visit) : Prop where
  query_eq : visit.request.query = other.request.query
  lines_eq : userLines visit.request.history = userLines other.request.history
  wallClock_eq : AsksForTime visit.request.query → visit.wallClock = other.wallClock

namespace Router

/-! ## The answer as a function -/

/-- The answer to a message that is not for the language model, from the lines that make up the
state. -/
def vaultAnswer (settings : Settings) (wallClock : String) (lines : List String) (query : String) :
    Response :=
  if Text.trim query = "" then ⟨""⟩
  else
    match Sentinel.ofLine? query with
    | some sentinel => ⟨sentinel.token⟩
    | none =>
      match ((settings.start.afterAll .standard lines).run .standard wallClock query).2 with
      | .output text => ⟨text⟩
      | .sentinel sentinel => ⟨sentinel.token⟩

/-- Who asks for the time is told the time, whatever the lines are. -/
theorem vaultAnswer_of_asksForTime {query : String} (asks : AsksForTime query) (settings : Settings)
    (wallClock : String) (lines : List String) :
    vaultAnswer settings wallClock lines query = ⟨wallClock⟩ := by
  obtain ⟨isLine, named⟩ := asks
  obtain ⟨line, found⟩ := Option.isSome_iff_exists.1 isLine
  obtain ⟨-, unasked, -, command, arguments, parsed, unreserved⟩ := Mode.vaultLine?_eq_some found
  have date : command.name = Command.date.name := by
    rw [parsed] at named
    exact Option.some.inj named
  obtain rfl : command = .date := Command.name_injective date
  unfold vaultAnswer
  rw [if_neg (trim_ne_empty_of_vaultLine? found), unasked, Shell.run_command parsed unreserved]
  rfl

/-- For every other message the clock is not read. -/
theorem vaultAnswer_of_not_asksForTime {query : String} (untimed : ¬ AsksForTime query)
    (forVault : ForVault query) (settings : Settings) (wallClock other : String)
    (lines : List String) :
    vaultAnswer settings wallClock lines query = vaultAnswer settings other lines query := by
  unfold vaultAnswer
  rcases Mode.ofUtterance_cases query with blank | ⟨sentinel, asked⟩ | ⟨line, found⟩ | ⟨said, mode⟩
  · rw [if_pos blank, if_pos blank]
  · rw [asked]
  · obtain ⟨-, -, -, command, arguments, parsed, unreserved⟩ := Mode.vaultLine?_eq_some found
    have undated : command.name ≠ "date" := by
      intro date
      exact untimed ⟨Option.isSome_iff_exists.2 ⟨line, found⟩, by rw [parsed, ← date]; rfl⟩
    rw [Shell.run_snd_of_ne_date parsed unreserved undated wallClock other]
  · exact absurd forVault (not_forVault_iff.2 ⟨said, mode⟩)

variable {settings : Settings} {router other : Router} {query : String}

/-- **The answer is that function**, whatever was asked before, whatever the model, and whatever else
stands in the history. -/
theorem Reachable.respond_response (reachable : Reachable settings router) (forVault : ForVault query)
    (model : LanguageModel) (wallClock : String) (history : List Turn) :
    (router.respond model wallClock ⟨query, history⟩).response =
      vaultAnswer settings wallClock (vaultLines (router.heard history)) query := by
  rw [respond_eq]
  unfold vaultAnswer
  rcases Mode.ofUtterance_cases query with blank | ⟨sentinel, asked⟩ | ⟨line, found⟩ | ⟨said, mode⟩
  · rw [answer_of_trim_eq_empty blank, if_pos blank]
  · rw [answer_of_ofLine? asked, if_neg (trim_ne_empty_of_ofLine? asked), asked]
  · obtain ⟨text, ran, answered⟩ :=
      answer_of_vaultLine? model wallClock router.opened (router.heard history) found
    rw [replay_snd (coherent_opened reachable.coherent), opened_settings, reachable.settings_eq] at ran
    obtain ⟨-, unasked, -⟩ := Mode.vaultLine?_eq_some found
    unfold Shell.afterHistory at ran
    rw [answered, if_neg (trim_ne_empty_of_vaultLine? found), unasked]
    simp only [ran]
  · exact absurd forVault (not_forVault_iff.2 ⟨said, mode⟩)

/-- Chat is answered with what is shown of the model's answer. -/
theorem respond_response_of_chat (said : Text.trim query ≠ "") (mode : Mode.ofUtterance query = .chat)
    (model : LanguageModel) (wallClock : String) (router : Router) (history : List Turn) :
    (router.respond model wallClock ⟨query, history⟩).response =
      ⟨shownAnswer router.settings
        (model (prompt router.settings (Text.trim query) (router.heard history)))⟩ := by
  rw [respond_eq, answer_of_chat said mode]
  unfold ask
  rw [opened_settings]

/-- A message for the vault is not put to the language model. -/
theorem respond_call_of_forVault (forVault : ForVault query) (model : LanguageModel)
    (wallClock : String) (router : Router) (history : List Turn) :
    (router.respond model wallClock ⟨query, history⟩).call = none := by
  rw [respond_call, if_pos forVault]

/-! ## Two runs -/

/-- What is answered to requests that come one after the other, the answers to chat apart. -/
def vaultAnswers (router : Router) : List Visit → List (Option Response)
  | [] => []
  | visit :: rest =>
    let exchange := router.respond visit.model visit.wallClock visit.request
    (if ForVault visit.request.query then some exchange.response else none) ::
      exchange.router.vaultAnswers rest

/-- Two routers, both ended or both not, hear the same lines if the user said them in both histories;
what has ended hears none. -/
theorem vaultLines_heard_eq (sameEnded : router.ended = other.ended) {history otherHistory : List Turn}
    (same : router.ended = false → userLines history = userLines otherHistory) :
    vaultLines (router.heard history) = vaultLines (other.heard otherHistory) := by
  unfold heard
  rw [← sameEnded]
  cases ended : router.ended with
  | true => rfl
  | false =>
      simp only [Bool.false_eq_true, if_false]
      rw [vaultLines_eq_filterMap_userLines, vaultLines_eq_filterMap_userLines, same ended]

/-- **One request that is the same for the vault is answered the same**, the time of day apart, unless
it is chat. -/
theorem respond_response_alike (reachable : Reachable settings router)
    (otherReachable : Reachable settings other) (sameEnded : router.ended = other.ended)
    {history otherHistory : List Turn}
    (same : router.ended = false → userLines history = userLines otherHistory)
    (forVault : ForVault query) (model otherModel : LanguageModel) (wallClock otherClock : String) :
    let response := (router.respond model wallClock ⟨query, history⟩).response
    let otherResponse := (other.respond otherModel otherClock ⟨query, otherHistory⟩).response
    if AsksForTime query then response = ⟨wallClock⟩ ∧ otherResponse = ⟨otherClock⟩
    else response = otherResponse := by
  intro response otherResponse
  have answered : response = _ := reachable.respond_response forVault model wallClock history
  have otherAnswered : otherResponse = _ :=
    otherReachable.respond_response forVault otherModel otherClock otherHistory
  rw [answered, otherAnswered]
  split
  case isTrue asks => exact ⟨vaultAnswer_of_asksForTime asks .., vaultAnswer_of_asksForTime asks ..⟩
  case isFalse untimed =>
      rw [vaultLines_heard_eq sameEnded same]
      exact vaultAnswer_of_not_asksForTime untimed forVault ..

/-- **Two runs of requests that are the same for the vault** have the same answers from it.  The
induction is over the requests; after each of them both routers are reachable again, and both have
ended or both have not. -/
theorem vaultAnswers_eq {visits otherVisits : List Visit}
    (same : List.Forall₂ Visit.SameForVault visits otherVisits)
    (reachable : Reachable settings router) (otherReachable : Reachable settings other)
    (sameEnded : router.ended = other.ended) :
    router.vaultAnswers visits = other.vaultAnswers otherVisits := by
  induction same generalizing router other with
  | nil => rfl
  | @cons visit otherVisit rest otherRest first later ih =>
      obtain ⟨model, wallClock, query, history⟩ := visit
      obtain ⟨otherModel, otherClock, otherQuery, otherHistory⟩ := otherVisit
      obtain ⟨query_eq, lines_eq, wallClock_eq⟩ := first
      obtain rfl : query = otherQuery := query_eq
      have endedAlike : (router.respond model wallClock ⟨query, history⟩).router.ended =
          (other.respond otherModel otherClock ⟨query, otherHistory⟩).router.ended := by
        rw [respond_ended, respond_ended]
      have later := ih (reachable.respond model wallClock ⟨query, history⟩)
        (otherReachable.respond otherModel otherClock ⟨query, otherHistory⟩) endedAlike
      unfold vaultAnswers
      refine List.cons_eq_cons.2 ⟨?_, later⟩
      by_cases forVault : ForVault query
      · rw [if_pos forVault, if_pos forVault, Option.some.injEq]
        have alike := respond_response_alike reachable otherReachable sameEnded (fun _ => lines_eq)
          forVault model otherModel wallClock otherClock
        split at alike
        case isTrue asks =>
            have sameTime : wallClock = otherClock := wallClock_eq asks
            rw [alike.1, alike.2, sameTime]
        case isFalse => exact alike
      · rw [if_neg forVault, if_neg forVault]

/-- A router that has ended answers as a new one does, and asks the model the same. -/
theorem respond_of_ended (reachable : Reachable settings router) (ended : router.ended = true)
    (model : LanguageModel) (wallClock query : String) (history : List Turn) :
    let exchange := router.respond model wallClock ⟨query, history⟩
    let first := (fresh settings).respond model wallClock ⟨query, []⟩
    exchange.response = first.response ∧ exchange.call = first.call ∧
      exchange.router.ended = first.router.ended := by
  intro exchange first
  have unheard : router.heard history = (fresh settings).heard [] := by
    unfold heard
    rw [ended]
    rfl
  have same : router.settings = (fresh settings).settings := reachable.settings_eq
  refine ⟨?_, ?_, ?_⟩
  · by_cases forVault : ForVault query
    · rw [reachable.respond_response forVault, Reachable.fresh.respond_response forVault, unheard]
    · obtain ⟨said, mode⟩ := not_forVault_iff.1 forVault
      rw [respond_response_of_chat said mode, respond_response_of_chat said mode, unheard, same]
  · rw [respond_call, respond_call]
    unfold question
    rw [unheard, same]
  · rw [respond_ended, respond_ended]

/-- **The vault is a function of the user's turns.**  Two routers with the same settings, both ended
or both not, have been asked anything.

* A message that is no chat is not put to any model.  If the user said the same in both histories it
  is answered the same, unless the answer is the time of day, and both sessions go on or both end.
* If they have ended, a request is answered as the first one of all, and its history is no matter.
* Chat with a session that goes on does not end it, whatever the model answers, and all that is asked
  of the vault later is answered as if the chat had not been, whether or not it stands in the history.
* A request begins a new session if and only if the one before has ended. -/
theorem respond_of_same_userTexts (reachable : Reachable settings router)
    (otherReachable : Reachable settings other) (sameEnded : router.ended = other.ended) :
    (∀ model otherModel wallClock otherClock query history otherHistory,
      (Text.trim query = "" ∨ (Mode.ofUtterance query).isTerminal = true) →
      (router.ended = false → userTexts history = userTexts otherHistory) →
      let exchange := router.respond model wallClock ⟨query, history⟩
      let otherExchange := other.respond otherModel otherClock ⟨query, otherHistory⟩
      exchange.call = none ∧ otherExchange.call = none ∧
        exchange.router.ended = otherExchange.router.ended ∧
        if AsksForTime query then
          exchange.response = ⟨wallClock⟩ ∧ otherExchange.response = ⟨otherClock⟩
        else exchange.response = otherExchange.response) ∧
    (router.ended = true → ∀ model wallClock query history,
      let exchange := router.respond model wallClock ⟨query, history⟩
      let first := (fresh settings).respond model wallClock ⟨query, []⟩
      exchange.response = first.response ∧ exchange.call = first.call ∧
        exchange.router.ended = first.router.ended) ∧
    (router.ended = false → ∀ model wallClock query history, Mode.ofUtterance query = .chat →
      let asked := (router.respond model wallClock ⟨query, history⟩).router
      asked.ended = false ∧
        ∀ visits otherVisits, List.Forall₂ Visit.SameForVault visits otherVisits →
          asked.vaultAnswers visits = router.vaultAnswers otherVisits) ∧
    ∀ model wallClock request,
      (router.respond model wallClock request).router.sessionNumber ≠ router.sessionNumber ↔
        router.ended = true := by
  refine ⟨?_, fun ended => respond_of_ended reachable ended, ?_, ?_⟩
  · intro model otherModel wallClock otherClock query history otherHistory forVault sameTexts
    refine ⟨respond_call_of_forVault forVault .., respond_call_of_forVault forVault .., ?_, ?_⟩
    · rw [respond_ended, respond_ended]
    · exact respond_response_alike reachable otherReachable sameEnded
        (fun goesOn => userLines_congr (sameTexts goesOn)) forVault ..
  · intro goesOn model wallClock query history mode asked
    have stillGoesOn : asked.ended = false := by
      rw [respond_ended, Mode.ofLine?_eq_none_of_chat mode]
      rfl
    refine ⟨stillGoesOn, fun visits otherVisits same => ?_⟩
    exact vaultAnswers_eq same (reachable.respond model wallClock _) reachable
      (stillGoesOn.trans goesOn.symm)
  · intro model wallClock request
    rw [respond_sessionNumber]
    split
    case isTrue ended => simp [ended]
    case isFalse goesOn => simp [goesOn]

/-- A router that has been asked chat, and one that was asked for the working directory after another
line: both know nothing of it.  And chat that stands in the history of a later request. -/
theorem respond_of_same_userTexts_ls :
    let router := ((fresh .standard).respond (.fixed "EXIT_SESSION") "" ⟨"tell me a joke", []⟩).router
    let other := ((fresh .standard).workingDirectory [.ofUser "mkdir b"]).1
    let touched : List Turn := [.ofUser "touch a", .ofBot ""]
    let joke : List Turn := [.ofUser "tell me a joke", .ofBot "rm a"]
    (router.respond .offline "12:00" ⟨"ls", touched⟩).response =
        (other.respond (.fixed "rm a") "13:00" ⟨"ls", .ofBot "rm a" :: touched⟩).response ∧
      (router.respond (.fixed "rm a") "" ⟨"tell me a joke", touched⟩).router.vaultAnswers
          [⟨.offline, "12:00", ⟨"ls", touched ++ joke⟩⟩] =
        router.vaultAnswers [⟨.offline, "13:00", ⟨"ls", touched⟩⟩] := by
  intro router other touched joke
  have reachable : Reachable .standard router := .respond _ _ _ .fresh
  have otherReachable : Reachable .standard other := .workingDirectory _ .fresh
  have goesOn : router.ended = false := by decide +kernel
  have alike := respond_of_same_userTexts reachable otherReachable goesOn
  have mode : Mode.ofUtterance "tell me a joke" = .chat := by decide +kernel
  have line : (Mode.ofUtterance "ls").isTerminal = true := by decide +kernel
  have untimed : ¬ AsksForTime "ls" := by decide +kernel
  refine ⟨?_, ?_⟩
  · have answered := alike.1 .offline (.fixed "rm a") "12:00" "13:00" "ls" touched
      (.ofBot "rm a" :: touched) (Or.inr line) (fun _ => rfl)
    exact (if_neg untimed).mp answered.2.2.2
  · refine (alike.2.2.1 goesOn (.fixed "rm a") "" "tell me a joke" touched mode).2 _ _ ?_
    refine .cons ⟨rfl, ?_, fun asks => absurd asks untimed⟩ .nil
    exact userLines_exchange mode "rm a" touched []

end Router

end VaultShell
