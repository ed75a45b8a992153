import VaultShell.Shell.CommandLine

/-!
# Commands and chat

An utterance is a line for the terminal or a message for the chat. The decision is made on the words
alone. `clear` and `exit` are lines on their own. Any other line begins with one of a list of words
and does not read as a sentence: it has no sentence punctuation, no operand is a function word of
English, and behind a word that stands for a command without operands there is none. When in doubt an
utterance is chat, where it can do no harm.

The list is one of words. Nothing here knows what commands there are, or what is run for a word.

## Main definitions

* `Mode`: chat, or a line for the terminal
* `Mode.openingWords`, `Mode.bareWords`: the words that a line may begin with
* `Mode.ofUtterance`: the decision
-/

namespace VaultShell

/-- What an utterance is for. -/
inductive Mode where
  /-- A message that the language model answers, without a view of the vault. -/
  | chat
  /-- A line that is run on the vault. -/
  | terminal (line : String)
  deriving DecidableEq, Repr

namespace Mode

/-- Words that read as English where they stand as operands. -/
def functionWords : List String :=
  ["the", "an", "is", "are", "was", "were", "am", "be", "been", "to", "of", "for", "with", "about",
   "my", "your", "our", "their", "me", "you", "we", "they", "it", "this", "that", "these", "those",
   "what", "how", "why", "when", "where", "who", "please", "can", "could", "would", "should",
   "will", "and", "or", "but", "do", "does", "did", "not", "some", "any", "like", "on", "in", "at",
   "from", "into", "if", "so", "than", "then", "just", "really"]

/-- The words that a line may begin with. -/
def openingWords : List String :=
  ["ls", "cd", "pwd", "mkdir", "rmdir", "touch", "cp", "mv", "rm", "cat", "less", "head", "tail",
   "whoami", "date"]

/-- Those of them that no operand ever follows. -/
def bareWords : List String :=
  ["pwd", "whoami", "date"]

/-- Whether a comma or a semicolon stands before a blank. -/
def hasPause : List Char → Bool
  | c :: d :: rest => ((c == ',' || c == ';') && Text.isBlank d) || hasPause (d :: rest)
  | _ => false

/-- Whether the last characters, last one first, end a sentence: a question mark, an exclamation
mark, or a full stop behind a letter. -/
def endsSentence : List Char → Bool
  | '?' :: _ => true
  | '!' :: _ => true
  | '.' :: c :: _ => c.isAlpha
  | _ => false

/-- Whether a line without blanks around it is punctuated like a sentence. -/
def hasSentencePunctuation (line : String) : Bool :=
  endsSentence line.toList.reverse || hasPause line.toList

/-- Whether an operand is a function word, in any letter case. -/
def isFunctionWord (operand : String) : Bool :=
  operand.toLower ∈ functionWords

/-- Whether a line reads as a sentence although it begins with a word that a line may begin with. -/
def readsAsSentence (first : String) (operands : List String) (line : String) : Bool :=
  (first ∈ bareWords && !operands.isEmpty) || hasSentencePunctuation line ||
    operands.any isFunctionWord

/-- Decides what an utterance is for. -/
def ofUtterance (utterance : String) : Mode :=
  let line := Text.trim utterance
  match Sentinel.ofLine? line with
  | some sentinel => .terminal sentinel.word
  | none =>
    match Text.words line with
    | [] => .chat
    | first :: rest =>
      if first ∉ openingWords then .chat
      else if readsAsSentence first (operandsOf rest) line then .chat
      else .terminal line

/-- Whether the utterance is for the terminal. -/
def isTerminal : Mode → Bool
  | .chat => false
  | .terminal _ => true

/-- The sentinel that a line for the terminal asks for. -/
def sentinel? : Mode → Option Sentinel
  | .chat => none
  | .terminal line => Sentinel.ofLine? line

/-- The line, unless the utterance is chat or asks for a sentinel. -/
def vaultLine? : Mode → Option String
  | .chat => none
  | .terminal line => if (Sentinel.ofLine? line).isSome then none else some line

end Mode

end VaultShell
