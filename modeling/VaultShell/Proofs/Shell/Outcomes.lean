import VaultShell.Proofs.Vault.Frame
import VaultShell.Shell.Creation
import VaultShell.Shell.Reading
import VaultShell.Shell.Removal

/-!
# What comes of a request

A command asks the vault for one thing after the other: to create a directory, to touch or to remove
what an operand names.  Each request goes through checks of its own, but all of them end in one of two
ways.  Either all checks pass, and then the vault and the result are settled; or a check fails, and then
the state is what it was and the result says why.  So of each request it is said once what is granted
and what a refusal looks like, and whatever else is to be known of it follows from that.

What is kept by every request is kept by all of them, one after the other.  How the requests of a command
follow on each other is said here too: for the operands of a line, for the way down to a path and for the
directories above an operand.

## Main definitions

* `Shell.Outcome`: what comes of a request
* `Shell.MakeGrant`, `Shell.TouchGrant`, `Shell.RemoveGrant`, `Shell.EmptyGrant`: what is granted
* `Failure.IsOwn`: the failures that a command can report, an unknown name not among them
* `Shell.Refuses`: such a failure, told in a command's own words
* `Shell.Walk`: what a command comes to that takes its operands one after the other

## Main statements

* `Shell.Outcome.fst_congr`: requests that are granted the same leave the same state
* `Shell.makeDirectory_outcome`, `Shell.touchOperand_outcome`, `Shell.removeNode_outcome`,
  `Shell.removeEmpty_outcome`: what comes of each request
* `Shell.eachOperand_fst`, `Shell.makePath_fst`, `Shell.removeChain_fst`: several requests
* `Shell.makeDirectories_walk`, `Shell.touch_walk`, `Shell.remove_walk`, `Shell.removeDirectories_walk`:
  the commands
-/

namespace VaultShell

/-- **A failure that a command reports of itself**: its arguments are no good, or the vault refused.
The third kind of failure is that no command was found. -/
def Failure.IsOwn : Failure → Prop
  | .usage _ => True
  | .fault _ _ => True
  | .unrecognized _ => False

namespace Shell

variable {shell : Shell}

/-! ## Outcomes -/

/-- What is granted may be the vault as it is. -/
@[simp] theorem withVault_vault (shell : Shell) : shell.withVault shell.vault = shell := rfl

/-- **What comes of a request.**  Where a vault and a result are granted, these are what comes of it; and
if nothing is granted, then the state stays as it was and the result is a refusal. -/
structure Outcome {β : Type} (shell : Shell) (Grant : Vault → β → Prop) (Refusal : β → Prop)
    (outcome : Shell × β) : Prop where
  granted : ∀ vault result, Grant vault result → outcome = (shell.withVault vault, result)
  cases : (∃ vault result, Grant vault result ∧ outcome = (shell.withVault vault, result)) ∨
    ∃ result, Refusal result ∧ outcome = (shell, result)

namespace Outcome

variable {β : Type} {Grant Grant' : Vault → β → Prop} {Refusal Refusal' : β → Prop}
  {outcome outcome' : Shell × β}

/-- What holds of the state as it was, and with every vault that is granted, holds afterwards. -/
theorem fst {P : Shell → Prop} (h : Outcome shell Grant Refusal outcome) (stays : P shell)
    (grants : ∀ vault result, Grant vault result → P (shell.withVault vault)) : P outcome.1 := by
  rcases h.cases with ⟨vault, result, grant, done⟩ | ⟨result, -, refused⟩
  · rw [done]
    exact grants vault result grant
  · rw [refused]
    exact stays

/-- A result that is never granted is a refusal, and the state is as it was. -/
theorem refused (h : Outcome shell Grant Refusal outcome) {result : β} (reported : outcome.2 = result)
    (never : ∀ vault, ¬ Grant vault result) : Refusal result ∧ outcome.1 = shell := by
  subst reported
  rcases h.cases with ⟨vault, result, grant, done⟩ | ⟨result, refusal, refused⟩
  · rw [done] at never
    exact absurd grant (never vault)
  · rw [refused]
    exact ⟨refusal, rfl⟩

/-- **Requests that are granted the same leave the same state.** -/
theorem fst_congr (one : Outcome shell Grant Refusal outcome)
    (two : Outcome shell Grant' Refusal' outcome')
    (same : ∀ vault result, Grant vault result ↔ Grant' vault result) : outcome.1 = outcome'.1 := by
  rcases one.cases with ⟨vault, result, grant, done⟩ | ⟨result, -, refused⟩
  · rw [done, two.granted vault result ((same vault result).1 grant)]
  · rcases two.cases with ⟨vault, result, grant, done⟩ | ⟨other, -, refused'⟩
    · rw [one.granted vault result ((same vault result).2 grant), done]
    · rw [refused, refused']

end Outcome

/-! ## The words of a failure -/

/-- A text begins with some words. -/
def Begins (words text : String) : Prop :=
  words.toList <+: text.toList

instance (words text : String) : Decidable (Begins words text) :=
  inferInstanceAs (Decidable (_ <+: _))

theorem begins_self (words : String) : Begins words words :=
  List.prefix_refl _

theorem Begins.append {words text : String} (begins : Begins words text) (more : String) :
    Begins words (text ++ more) := by
  unfold Begins
  rw [String.toList_append]
  exact begins.trans (List.prefix_append _ _)

/-- **A failure that is told in a command's own words**: that is how its message begins. -/
def Refuses (words : String) {α : Type} (result : Except Failure α) : Prop :=
  ∃ failure, result = .error failure ∧ failure.IsOwn ∧ Begins words failure.message

theorem refuses_usage {α : Type} {words text : String} (begins : Begins words text) :
    Refuses words (.error (.usage text) : Except Failure α) :=
  ⟨_, rfl, trivial, begins⟩

/-- The context of a fault stands before it. -/
theorem refuses_fault {α : Type} {words context : String} (begins : Begins words context)
    (cause : Fault) : Refuses words (.error (.fault context cause) : Except Failure α) :=
  ⟨_, rfl, trivial, (begins.append _).append _⟩

/-! ## Creating -/

theorem isCanonical_resolve (shell : Shell) (operand : String) :
    Path.IsCanonical (shell.resolve operand) :=
  Path.isCanonical_resolve shell.cwd operand

/-- **What `mkdir` is granted at a path**: nothing is done if something is there, otherwise a directory is
created. -/
inductive MakeGrant (shell : Shell) (path : String) : Vault → Except Fault (List String) → Prop
  | there (taken : shell.vault.has path = true) : MakeGrant shell path shell.vault (.ok [])
  | created {vault : Vault} (free : shell.vault.has path = false)
      (created : shell.vault.createDirectory path shell.clock = .ok vault) :
      MakeGrant shell path vault (.ok [path])

theorem makeDirectory_outcome (shell : Shell) (operand : String) :
    Outcome shell (MakeGrant shell (shell.resolve operand))
      (fun result => ∃ fault, result = .error fault) (shell.makeDirectory operand) where
  granted := by
    rintro vault result (taken | ⟨free, created⟩)
    · simp only [makeDirectory, taken, if_true]
      rfl
    · simp only [makeDirectory, free, Bool.false_eq_true, if_false, created]
  cases := by
    simp only [makeDirectory]
    split
    case isTrue taken => exact Or.inl ⟨_, _, .there taken, rfl⟩
    case isFalse free =>
      split
      case h_1 fault _ => exact Or.inr ⟨_, ⟨fault, rfl⟩, rfl⟩
      case h_2 vault created => exact Or.inl ⟨_, _, .created (Bool.eq_false_iff.2 free) created, rfl⟩

/-- What is reported has no part in what is created. -/
theorem makeOperand_fst (settings : MakeSettings) (shell : Shell) (operand : String) :
    (makeOperand settings shell operand).1 =
      (if settings.parents then shell.makePath operand else shell.makeDirectory operand).1 := by
  simp only [makeOperand]
  split <;> rfl

theorem createPlaceholder_eq_ok {vault made : Vault} {path : String} {time : Instant}
    (created : createPlaceholder vault path time = .ok made) :
    ∃ parent name, Path.split path = .ok (parent, name) ∧
      vault.createFile path (placeholder name) time = .ok made := by
  unfold createPlaceholder at created
  split at created
  case h_1 => cases created
  case h_2 parent name split => exact ⟨parent, name, split, created⟩

/-- **What `touch` is granted at a path**: the modification time is set, or where nothing is, nothing is
done or a file is created, as it was asked for. -/
inductive TouchGrant (noCreate : Bool) (shell : Shell) (path : String) : Vault → List String → Prop
  | stamped {vault : Vault} (stamped : shell.vault.stamp? path shell.clock = some vault) :
      TouchGrant noCreate shell path vault []
  | passed (missing : shell.vault.stamp? path shell.clock = none) (asked : noCreate = true) :
      TouchGrant noCreate shell path shell.vault []
  | created {vault : Vault} (missing : shell.vault.stamp? path shell.clock = none)
      (asked : noCreate = false)
      (created : createPlaceholder shell.vault path shell.clock = .ok vault) :
      TouchGrant noCreate shell path vault []

theorem touchOperand_outcome (noCreate : Bool) (shell : Shell) (operand : String) :
    Outcome shell (TouchGrant noCreate shell (shell.resolve operand))
      (fun report => ∃ fault, report = [touchMessage operand fault])
      (touchOperand noCreate shell operand) where
  granted := by
    rintro vault report (stamped | ⟨missing, asked⟩ | ⟨missing, asked, created⟩)
    · simp only [touchOperand, stamped]
    · simp only [touchOperand, missing, asked, if_true]
      rfl
    · simp only [touchOperand, missing, asked, Bool.false_eq_true, if_false, created]
  cases := by
    simp only [touchOperand]
    split
    case h_1 vault stamped => exact Or.inl ⟨_, _, .stamped stamped, rfl⟩
    case h_2 missing =>
      split
      case isTrue asked => exact Or.inl ⟨_, _, .passed missing asked, rfl⟩
      case isFalse asked =>
        split
        case h_1 fault _ => exact Or.inr ⟨_, ⟨fault, rfl⟩, rfl⟩
        case h_2 vault created =>
          exact Or.inl ⟨_, _, .created missing (Bool.eq_false_iff.2 asked) created, rfl⟩

/-! ## Removing -/

/-- What is known of a node that may be removed. -/
theorem removalFault?_eq_none {settings : RemoveSettings} {path : String} {node : Node}
    (h : shell.removalFault? settings path node = none) :
    (node.isDirectory = true → Path.isUnder shell.cwd path = false) ∧
      (settings.recursive = false → node.bare = node) ∧
      (settings.recursive = false → node.isDirectory = true → settings.emptyDirectories = true) := by
  cases node with
  | file attributes content => exact ⟨nofun, fun _ => rfl, nofun⟩
  | directory attributes children =>
      simp only [removalFault?] at h
      split at h
      · cases h
      case isFalse free =>
        split at h
        · cases h
        case isFalse apart =>
          have empty : settings.recursive = false →
              settings.emptyDirectories = true ∧ children = [] := by
            intro single
            simpa [single] using free
          refine ⟨fun _ => Bool.eq_false_iff.2 apart, ?_, fun single _ => (empty single).1⟩
          intro single
          rw [(empty single).2]
          rfl

/-- What is removed at a canonical path is what was found there. -/
theorem eq_of_find?_of_remove {vault without : Vault} {path : String} {node taken : Node}
    (canonical : Path.IsCanonical path) (found : vault.find? path = some node)
    (removed : vault.remove path = .ok (taken, without)) : node = taken := by
  obtain ⟨-, held⟩ := Vault.remove_eq_ok removed
  rw [← Path.components_eq_canonicalComponents canonical] at held
  exact Option.some.inj (found.symm.trans held)

/-- **What `rm` is granted at a path**: nothing is done if nothing is there, otherwise the node is taken
out. -/
inductive RemoveGrant (settings : RemoveSettings) (shell : Shell) (path : String) :
    Vault → Except Failure Bool → Prop
  | nothing (missing : shell.vault.find? path = none) :
      RemoveGrant settings shell path shell.vault (.ok false)
  | taken {node : Node} {vault : Vault} (found : shell.vault.find? path = some node)
      (allowed : shell.removalFault? settings path node = none)
      (removed : shell.vault.remove path = .ok (node, vault)) :
      RemoveGrant settings shell path vault (.ok true)

theorem removeNode_outcome (settings : RemoveSettings) (shell : Shell) (operand : String) :
    Outcome shell (RemoveGrant settings shell (shell.resolve operand))
      (Refuses s!"rm: cannot remove '{operand}'") (removeNode settings shell operand) where
  granted := by
    rintro vault result (missing | ⟨found, allowed, removed⟩)
    · simp only [removeNode, missing]
      rfl
    · simp only [removeNode, found, allowed, removed]
  cases := by
    simp only [removeNode]
    split
    case h_1 missing => exact Or.inl ⟨_, _, .nothing missing, rfl⟩
    case h_2 node found =>
      split
      case h_1 fault _ => exact Or.inr ⟨_, refuses_fault (begins_self _) fault, rfl⟩
      case h_2 allowed =>
        split
        case h_1 fault _ => exact Or.inr ⟨_, refuses_fault (begins_self _) fault, rfl⟩
        case h_2 taken vault removed =>
          obtain rfl := eq_of_find?_of_remove (shell.isCanonical_resolve operand) found removed
          exact Or.inl ⟨_, _, .taken found allowed removed, rfl⟩

/-- What is reported has no part in what is removed. -/
theorem removeOperand_fst (settings : RemoveSettings) (shell : Shell) (operand : String) :
    (removeOperand settings shell operand).1 = (removeNode settings shell operand).1 := by
  unfold removeOperand
  generalize removeNode settings shell operand = outcome
  rfl

theorem removeOperand_snd (settings : RemoveSettings) (shell : Shell) (operand : String) :
    (removeOperand settings shell operand).2 =
      reportOf (fun removed => if removed && settings.verbose then [s!"removed '{operand}'"] else [])
        (removeNode settings shell operand).2 := by
  unfold removeOperand
  generalize removeNode settings shell operand = outcome
  rfl

/-- **What `rmdir` is granted at a path**: nothing is done if nothing is there, otherwise a directory is
taken out that holds nothing and in which the shell does not work. -/
inductive EmptyGrant (shell : Shell) (path : String) : Vault → Except Fault Bool → Prop
  | nothing (missing : shell.vault.find? path = none) : EmptyGrant shell path shell.vault (.ok false)
  | taken {attributes : Attributes} {node : Node} {vault : Vault}
      (found : shell.vault.find? path = some (.directory attributes []))
      (apart : Path.isUnder shell.cwd path = false)
      (removed : shell.vault.remove path = .ok (node, vault)) :
      EmptyGrant shell path vault (.ok true)

theorem removeEmpty_outcome (shell : Shell) (path : String) :
    Outcome shell (EmptyGrant shell path) (fun result => ∃ fault, result = .error fault)
      (shell.removeEmpty path) where
  granted := by
    rintro vault result (missing | ⟨found, apart, removed⟩)
    · simp only [removeEmpty, missing]
      rfl
    · simp only [removeEmpty, found, List.isEmpty_nil, Bool.not_true, Bool.false_eq_true, if_false,
        apart, removed]
  cases := by
    simp only [removeEmpty]
    split
    case h_1 missing => exact Or.inl ⟨_, _, .nothing missing, rfl⟩
    case h_2 => exact Or.inr ⟨_, ⟨_, rfl⟩, rfl⟩
    case h_3 attributes children found =>
      split
      case isTrue => exact Or.inr ⟨_, ⟨_, rfl⟩, rfl⟩
      case isFalse empty =>
        obtain rfl : children = [] := by simpa using empty
        split
        case isTrue => exact Or.inr ⟨_, ⟨_, rfl⟩, rfl⟩
        case isFalse apart =>
          split
          case h_1 => exact Or.inr ⟨_, ⟨_, rfl⟩, rfl⟩
          case h_2 node vault removed =>
            exact Or.inl ⟨_, _, .taken found (Bool.eq_false_iff.2 apart) removed, rfl⟩

/-! ## Numbers of lines -/

theorem isOwn_and_begins_of_lineCount {side : FileEnd} {spelling : String} {failure : Failure}
    (failed : lineCount side spelling = .error failure) :
    failure.IsOwn ∧ Begins side.command failure.message := by
  unfold lineCount at failed
  split at failed
  case h_1 => cases failed
  case h_2 =>
    obtain rfl := Except.error.inj failed
    exact ⟨trivial, (((begins_self _).append _).append _).append _⟩

/-- The arguments of `head` and `tail` are refused for a number that is none, or for one that is missing.
The induction follows the reading from left to right. -/
theorem isOwn_and_begins_of_excerptRequest {side : FileEnd} {count : Nat} {arguments : List String}
    {failure : Failure} (failed : excerptRequest side count arguments = .error failure) :
    failure.IsOwn ∧ Begins side.command failure.message := by
  fun_induction excerptRequest side count arguments
  case case1 => cases failed
  case case2 =>
    obtain rfl := Except.error.inj failed
    exact ⟨trivial, (begins_self _).append _⟩
  case case3 refused =>
    obtain rfl := Except.error.inj failed
    exact isOwn_and_begins_of_lineCount refused
  case case4 ih => exact ih failed
  case case5 refused =>
    obtain rfl := Except.error.inj failed
    exact isOwn_and_begins_of_lineCount refused
  case case6 ih => exact ih failed
  case case7 ih => exact ih failed
  case case8 refused ih =>
    obtain rfl := Except.error.inj failed
    exact ih refused
  case case9 => cases failed

/-! ## Several requests -/

variable {P : Shell → Prop}

/-- **What every step keeps, a run of steps keeps.** -/
theorem eachOperand_fst {step : Shell → String → Shell × List String} {operands : List String}
    (keeps : ∀ before, ∀ operand ∈ operands, P before → P (step before operand).1) (holds : P shell) :
    P (shell.eachOperand step operands).1 := by
  induction operands generalizing shell with
  | nil => exact holds
  | cons operand rest ih =>
      exact ih (fun before other member => keeps before other (List.mem_cons_of_mem operand member))
        (keeps shell operand List.mem_cons_self holds)

/-- **What every creation keeps, the way down keeps.**  On it `above` is the text of the names `done`,
apart from the root's slash. -/
theorem makeDown_fst {done names : List String} {above : String}
    (leads : ∀ name, above ++ "/" ++ name = Path.render (done ++ [name]))
    (keeps : ∀ before vault, ∀ path ∈ Path.wayDown done names,
      before.vault.createDirectory path before.clock = .ok vault → P before →
        P (before.withVault vault))
    (holds : P shell) : P (makeDown shell above names).1 := by
  induction names generalizing shell done above with
  | nil => exact holds
  | cons name rest ih =>
      rw [Path.wayDown_cons, ← leads name] at keeps
      have next := Path.append_slash_eq_render leads name
      have further := fun before vault path member =>
        keeps before vault path (List.mem_cons_of_mem _ member)
      simp only [makeDown]
      split
      case h_1 => exact ih next further holds
      case h_2 => exact holds
      case h_3 =>
        split
        case h_1 => exact holds
        case h_2 vault created =>
          exact ih next further (keeps shell vault _ List.mem_cons_self created holds)

theorem makePath_fst {operand : String}
    (keeps : ∀ before vault, ∀ path ∈ Path.wayTo (shell.resolve operand),
      before.vault.createDirectory path before.clock = .ok vault → P before →
        P (before.withVault vault))
    (holds : P shell) : P (shell.makePath operand).1 := by
  have leads : ∀ name, "" ++ "/" ++ name = Path.render ([] ++ [name]) :=
    fun name => (Path.render_eq [name]).symm
  exact makeDown_fst leads keeps holds

/-- **What every round keeps, a walk of `rmdir` keeps.** -/
theorem removeChain_fst {settings : RemoveDirectorySettings} {texts : List String}
    (keeps : ∀ before, ∀ text ∈ texts, P before → P (before.removeEmpty (before.resolve text)).1)
    (holds : P shell) : P (removeChain settings shell texts).1 := by
  induction texts generalizing shell with
  | nil => exact holds
  | cons text rest ih =>
      have first := keeps shell text List.mem_cons_self holds
      have further := fun before other member =>
        keeps before other (List.mem_cons_of_mem text member)
      rw [removeChain]
      generalize shell.removeEmpty (shell.resolve text) = outcome at first
      rcases outcome with ⟨after, fault | _ | _⟩
      · dsimp only
        split <;> exact first
      · exact first
      · exact ih further first

/-! ## Commands that go through their operands -/

/-- **What a command comes to that takes its operands one after the other.**  It answers a request for
help, or refuses its arguments, and then the state stays as it was; or it goes through operands with a
step, and the result is what the steps report. -/
inductive Walk (shell : Shell) (help words : String)
    (Through : (Shell → String → Shell × List String) → List String → Prop)
    (outcome : Shell × Except Failure String) : Prop
  | helped (eq : outcome = (shell, .ok help))
  | refused {result : Except Failure String} (refusal : Refuses words result)
      (eq : outcome = (shell, result))
  | walked {step : Shell → String → Shell × List String} {operands : List String}
      (through : Through step operands)
      (eq : outcome = ((shell.eachOperand step operands).1,
        .ok (Text.joinLines (shell.eachOperand step operands).2)))

theorem makeDirectories_walk (shell : Shell) (arguments : List String) :
    Walk shell makeDirectoriesHelp "mkdir: "
      (fun step operands => step = makeOperand (makeSettings arguments) ∧
        operands = operandsOf arguments) (shell.makeDirectories arguments) := by
  have unrecognized : Begins "mkdir: " "mkdir: unrecognized option '" := by decide
  unfold makeDirectories
  split
  case h_1 flag _ =>
    split
    case isTrue => exact .helped rfl
    case isFalse => exact .refused (refuses_usage ((unrecognized.append _).append _)) rfl
  case h_2 =>
    split
    case h_1 => exact .refused (refuses_usage (by decide)) rfl
    case h_2 => exact .walked ⟨rfl, rfl⟩ rfl

theorem touch_walk (shell : Shell) (arguments : List String) :
    Walk shell touchHelp "touch: "
      (fun step operands => step = touchOperand (hasFlag ["-c", "--no-create"] arguments) ∧
        operands = operandsOf arguments) (shell.touch arguments) := by
  unfold touch
  split
  case isTrue => exact .helped rfl
  case isFalse =>
    split
    case h_1 => exact .refused (refuses_usage (by decide)) rfl
    case h_2 => exact .walked ⟨rfl, rfl⟩ rfl

theorem remove_walk (shell : Shell) (arguments : List String) :
    Walk shell removeHelp "rm: "
      (fun step operands => step = removeOperand (removeSettings arguments) ∧
        operands = operandsOf arguments) (shell.remove arguments) := by
  unfold remove
  split
  case isTrue => exact .helped rfl
  case isFalse =>
    split
    case h_1 => exact .refused (refuses_usage (by decide)) rfl
    case h_2 => exact .walked ⟨rfl, rfl⟩ rfl

theorem removeDirectories_walk (shell : Shell) (arguments : List String) :
    Walk shell removeDirectoriesHelp "rmdir: "
      (fun step operands => step = removeDirectoryOperand (removeDirectorySettings arguments) ∧
        operands = operandsOf arguments) (shell.removeDirectories arguments) := by
  have unrecognized : Begins "rmdir: " "rmdir: unrecognized option '" := by decide
  unfold removeDirectories
  split
  case isTrue => exact .helped rfl
  case isFalse =>
    split
    case h_1 => exact .refused (refuses_usage ((unrecognized.append _).append _)) rfl
    case h_2 =>
      split
      case h_1 => exact .refused (refuses_usage (by decide)) rfl
      case h_2 => exact .walked ⟨rfl, rfl⟩ rfl

end Shell

end VaultShell
