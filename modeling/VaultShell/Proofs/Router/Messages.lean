import VaultShell.Proofs.Json.Record
import VaultShell.Router.Messages

/-!
# Messages keep what they say

A message that is written and read again is the same message.  For most kinds of messages nothing has to
be known of it, since strings, lists and whole numbers of the sizes that the fields have are all read
back.  A prompt and a tool call hold a value of any shape, and not every value is read back: it may nest
too deep, its keys may be out of order, its numbers may be no numbers of a text.  A value that was read
has none of these faults, if the text had no numbers but integers.  So what was read in one form,
whatever that was, is written in a form that gives the same message and is not changed by reading and
writing it again.

## Main definitions

* `Wire`: how a kind of message is written and read
* `Wire.Survives`: a message is read back from its text
* `Wire.Normalizes`: what a text gives is written in a form that stays the same
* `Json.IntegersOnly`: all numbers of a text are integers of 64 bits

## Main statements

* `messages_round_trip`: messages are read back, and so is what any text gives
-/

namespace VaultShell

open Json

/-- All numbers of a text are integers that a word of 64 bits holds, signed or not; zero may have a minus
sign. -/
def Json.IntegersOnly (text : String) : Prop :=
  ∀ tree ∈ Tree.ofText? text, ∀ n ∈ tree.numbers, n.IsWord

instance (text : String) : Decidable (IntegersOnly text) :=
  inferInstanceAs (Decidable (∀ tree ∈ Tree.ofText? text, ∀ n ∈ tree.numbers, n.IsWord))

/-- A kind of message: how it is written as a value, and how it is read. -/
structure Wire (α : Type) where
  encode : α → Value
  ofTree? : Tree → Option α

namespace Wire

variable {α : Type} {wire : Wire α} {message : α} {input : String}

/-- The text of a message. -/
def text (wire : Wire α) (message : α) : String :=
  (wire.encode message).write

/-- The message that a text gives. -/
def decode? (wire : Wire α) (text : String) : Option α :=
  decodeText? wire.ofTree? text

/-- The form in which the message of a text is written. -/
def normal? (wire : Wire α) (text : String) : Option String :=
  (wire.decode? text).map wire.text

/-- **The message is read back from its text.** -/
def Survives (wire : Wire α) (message : α) : Prop :=
  wire.decode? (wire.text message) = some message

/-- **If the text gives a message, then that message is read back from its own text**, and the form in
which it is written is not changed by reading and writing it again. -/
def Normalizes (wire : Wire α) (text : String) : Prop :=
  ∀ message, wire.decode? text = some message →
    wire.Survives message ∧ wire.normal? (wire.text message) = some (wire.text message)

/-- What has to be shown of a message: it has no numbers but integers of 64 bits, and it is read back
from its tree. -/
theorem survives_of_ofTree? {numbers : List Number}
    (same : (wire.encode message).numbers = numbers) (words : ∀ n ∈ numbers, n.IsWord)
    (readBack : wire.ofTree? (wire.encode message).toTree = some message) :
    wire.Survives message := by
  rw [Survives, decode?, text, decodeText?, Tree.ofText?_write (same ▸ words), Option.bind_some,
    readBack]

theorem normalizes_of_survives
    (survives : ∀ message, wire.decode? input = some message → wire.Survives message) :
    wire.Normalizes input := by
  intro message decoded
  have readBack := survives message decoded
  refine ⟨readBack, ?_⟩
  rw [normal?, readBack]
  rfl

/-- If all messages are read back, no text gives one that is not. -/
theorem normalizes (survives : ∀ message, wire.Survives message) (text : String) :
    wire.Normalizes text :=
  normalizes_of_survives fun message _ => survives message

end Wire

/-! ## Turns, requests and responses -/

/-- A turn on the wire. -/
def Turn.wire : Wire Turn := ⟨Turn.encode, Turn.ofTree?⟩

/-- A request on the wire. -/
def Request.wire : Wire Request := ⟨Request.encode, Request.ofTree?⟩

/-- A response on the wire. -/
def Response.wire : Wire Response := ⟨Response.encode, Response.ofTree?⟩

theorem Turn.ofTree?_encode (turn : Turn) : Turn.ofTree? turn.encode.toTree = some turn := by
  have slots : turn.encode.toTree.slots? ["sender", "text"] = some _ :=
    Tree.slots?_toTree_self rfl (by decide +kernel)
  obtain ⟨speaker, text⟩ := turn
  rw [Turn.ofTree?, slots]
  cases speaker <;> rfl

theorem ofTree?_encodeHistory (history : List Turn) :
    Tree.list? Turn.ofTree? (encodeHistory history).toTree = some history :=
  Tree.list?_toTree Turn.ofTree?_encode history

theorem numbers_encodeHistory (history : List Turn) : (encodeHistory history).numbers = [] := by
  rw [encodeHistory, Value.numbers]
  induction history with
  | nil => rfl
  | cons turn rest ih =>
      rw [List.map_cons, Value.numbersOfItems, ih]
      rfl

theorem Turn.survives (turn : Turn) : Turn.wire.Survives turn :=
  Wire.survives_of_ofTree? rfl (List.forall_mem_nil _) turn.ofTree?_encode

theorem Request.survives (request : Request) : Request.wire.Survives request := by
  have slots : request.encode.toTree.slots? ["query", "history"] = some _ :=
    Tree.slots?_toTree_self rfl (by decide +kernel)
  have numbers : request.encode.numbers = [] := by
    show (encodeHistory request.history).numbers ++ [] = []
    rw [numbers_encodeHistory]
    rfl
  refine Wire.survives_of_ofTree? numbers (List.forall_mem_nil _) ?_
  show Request.ofTree? request.encode.toTree = some request
  rw [Request.ofTree?, slots]
  simp [ofTree?_encodeHistory, Value.toTree]

theorem Response.survives (response : Response) : Response.wire.Survives response := by
  have slots : response.encode.toTree.slots? ["relevantData"] = some _ :=
    Tree.slots?_toTree_self rfl (by decide +kernel)
  refine Wire.survives_of_ofTree? rfl (List.forall_mem_nil _) ?_
  show Response.ofTree? response.encode.toTree = some response
  rw [Response.ofTree?, slots]
  rfl

/-! ## Permissions, kinds and settings -/

/-- Permissions on the wire. -/
def Permissions.wire : Wire Permissions := ⟨Permissions.encode, Permissions.ofTree?⟩

/-- A kind of node on the wire. -/
def Kind.wire : Wire Kind := ⟨Kind.encode, Kind.ofTree?⟩

/-- Settings on the wire. -/
def Settings.wire : Wire Settings := ⟨Settings.encode, Settings.ofTree?⟩

theorem isWord_natCast {n : Nat} (bound : n < Nat.pow 2 64) : (Number.integer n).IsWord := by
  have negative : -((Nat.pow 2 63 : Nat) : Int) ≤ 0 :=
    Int.neg_nonpos_of_nonneg (Int.natCast_nonneg _)
  exact ⟨Int.le_trans negative (Int.natCast_nonneg n), Int.ofNat_lt.2 bound⟩

theorem byte?_integer (byte : UInt8) : byte? (Value.integer byte.toNat).toTree = some byte := by
  have bound : (byte.toNat : Int) < UInt8.size := by exact_mod_cast byte.toNat_lt
  have whole : 0 ≤ (byte.toNat : Int) ∧ (byte.toNat : Int) < UInt8.size :=
    ⟨Int.natCast_nonneg _, bound⟩
  rw [byte?, Value.integer, Value.toTree, Tree.natural?, if_pos whole]
  simp

theorem Permissions.survives (p : Permissions) : Permissions.wire.Survives p := by
  have slots : p.encode.toTree.slots? ["user", "group", "other"] = some _ :=
    Tree.slots?_toTree_self rfl (by decide +kernel)
  have numbers : p.encode.numbers =
      [p.user, p.group, p.other].map fun byte => .integer byte.toNat := rfl
  refine Wire.survives_of_ofTree? numbers ?_ ?_
  · intro n hn
    obtain ⟨byte, -, rfl⟩ := List.mem_map.1 hn
    exact isWord_natCast (byte.toNat_lt.trans (by decide))
  · show Permissions.ofTree? p.encode.toTree = some p
    rw [Permissions.ofTree?, slots]
    simp [byte?_integer]

theorem Kind.survives (kind : Kind) : Kind.wire.Survives kind := by
  refine Wire.survives_of_ofTree? rfl (List.forall_mem_nil _) ?_
  cases kind <;> rfl

theorem Settings.milliseconds?_integer (ms : UInt64) :
    milliseconds? (Value.integer ms.toNat).toTree = some ms := by
  have bound : (ms.toNat : Int) < UInt64.size := by exact_mod_cast ms.toNat_lt
  have whole : 0 ≤ (ms.toNat : Int) ∧ (ms.toNat : Int) < UInt64.size :=
    ⟨Int.natCast_nonneg _, bound⟩
  rw [milliseconds?, Value.integer, Value.toTree, Tree.natural?, if_pos whole]
  simp

/-- The settings that the slots of a record give, with any slot that gives the time limit. -/
theorem Settings.ofTree?_of_slots? {settings : Settings} {tree : Tree} {limit : Slot}
    (slots : tree.slots? fields = some [.given (.string settings.identity),
      .given (.string settings.hostname), .given (.string settings.greeting),
      .given (.string settings.apologyMessage), .given (.string settings.emptyReplyMessage), limit,
      .given (.string settings.systemPrompt), .given (.string settings.epoch)])
    (limited : limit.withDefault? milliseconds? standard.modelTimeoutMs =
      some settings.modelTimeoutMs) :
    ofTree? tree = some settings := by
  rw [ofTree?, slots]
  simp only [Option.bind_eq_bind, Option.bind_some, Slot.withDefault?_given, limited,
    Tree.text?_string]
  rfl

theorem Settings.survives (settings : Settings) : Settings.wire.Survives settings := by
  have slots : settings.encode.toTree.slots? fields = some _ :=
    Tree.slots?_toTree_self rfl (by decide +kernel)
  have numbers : settings.encode.numbers = [.integer settings.modelTimeoutMs.toNat] := rfl
  refine Wire.survives_of_ofTree? numbers ?_ (Settings.ofTree?_of_slots? slots ?_)
  · rw [List.forall_mem_singleton]
    exact isWord_natCast settings.modelTimeoutMs.toNat_lt
  · rw [Slot.withDefault?_given]
    exact milliseconds?_integer settings.modelTimeoutMs

/-! ## Prompts and tool calls -/

/-- A prompt on the wire. -/
def Prompt.wire : Wire Prompt := ⟨Prompt.encode, Prompt.ofTree?⟩

/-- A tool call on the wire. -/
def ToolCall.wire : Wire ToolCall := ⟨ToolCall.encode, ToolCall.ofTree?⟩

/-- **A value that a message may hold**: it is read back from its tree, and its numbers from their
spellings. -/
structure Json.Value.Holds (value : Value) : Prop where
  again : anyValue? value.toTree = some value
  words : ∀ n ∈ value.numbers, n.IsWord

/-- A value that was read of a tree may be held, if the numbers of the tree are read back. -/
theorem holds_of_anyValue? {tree : Tree} {value : Value} (words : ∀ n ∈ tree.numbers, n.IsWord)
    (read : anyValue? tree = some value) : value.Holds := by
  have settled := Value.settled_of_ofTree? tree read
  exact ⟨settled.again, fun n hn => words n (settled.numbers n hn)⟩

/-- The prompt that the slots of a record give, with any slot that gives the tool schema. -/
theorem Prompt.ofTree?_of_slots? {prompt : Prompt} {tree : Tree} {schema : Slot}
    (slots : tree.slots? ["system", "transcript", "query", "toolSchema"] =
      some [.given (.string prompt.system), .given (encodeHistory prompt.transcript).toTree,
        .given (.string prompt.query), schema])
    (read : schema.optional? anyValue? = some prompt.toolSchema) : ofTree? tree = some prompt := by
  rw [ofTree?, slots]
  simp only [Option.bind_eq_bind, Option.bind_some, Slot.required?_given, Tree.text?_string,
    ofTree?_encodeHistory, read]
  rfl

theorem Prompt.survives {prompt : Prompt}
    (schema : ∀ value, prompt.toolSchema = some value → value.Holds ∧ value ≠ .null) :
    Prompt.wire.Survives prompt := by
  obtain ⟨system, transcript, query, toolSchema⟩ := prompt
  cases toolSchema with
  | none =>
      have numbers : (encode ⟨system, transcript, query, none⟩).numbers = [] := by
        show (encodeHistory transcript).numbers ++ [] = []
        rw [numbers_encodeHistory]
        rfl
      refine Wire.survives_of_ofTree? numbers (List.forall_mem_nil _) ?_
      have nodup : ["system", "transcript", "query"].Nodup := by decide +kernel
      have slots : (encode ⟨system, transcript, query, none⟩).toTree.slots? _ = some _ :=
        Tree.slots?_toTree (by exact nodup) ["system", "transcript", "query", "toolSchema"]
      exact Prompt.ofTree?_of_slots? slots rfl
  | some value =>
      obtain ⟨holds, some⟩ := schema value rfl
      have numbers : (encode ⟨system, transcript, query, .some value⟩).numbers = value.numbers := by
        show (encodeHistory transcript).numbers ++ (value.numbers ++ []) = value.numbers
        rw [numbers_encodeHistory, List.append_nil]
        rfl
      refine Wire.survives_of_ofTree? numbers holds.words ?_
      refine Prompt.ofTree?_of_slots? (Tree.slots?_toTree_self rfl (by decide +kernel)) ?_
      rw [Slot.optional?_given _ (value.toTree_ne_null some), holds.again]
      rfl

theorem ToolCall.survives {call : ToolCall} (holds : call.arguments.Holds) :
    ToolCall.wire.Survives call := by
  have slots : call.encode.toTree.slots? ["name", "arguments"] = some _ :=
    Tree.slots?_toTree_self rfl (by decide +kernel)
  have numbers : call.encode.numbers = call.arguments.numbers :=
    List.append_nil call.arguments.numbers
  refine Wire.survives_of_ofTree? numbers holds.words ?_
  show ToolCall.ofTree? call.encode.toTree = some call
  rw [ToolCall.ofTree?, slots]
  simp [holds.again, Value.toTree]

/-- The tool schema of a prompt that was read may be held. -/
theorem Prompt.schema_of_ofTree? {tree : Tree} {prompt : Prompt} {value : Value}
    (words : ∀ n ∈ tree.numbers, n.IsWord) (read : Prompt.ofTree? tree = some prompt)
    (held : prompt.toolSchema = some value) : value.Holds ∧ value ≠ .null := by
  unfold ofTree? at read
  obtain ⟨slots, found, read⟩ := Option.bind_eq_some_iff.1 read
  split at read
  case h_2 => cases read
  case h_1 system transcript query schema =>
    simp only [Option.bind_eq_bind, Option.bind_eq_some_iff] at read
    obtain ⟨_, -, _, -, _, -, toolSchema, given, heq⟩ := read
    obtain rfl := Option.some.inj heq
    obtain rfl : toolSchema = some value := held
    obtain ⟨item, rfl, some, made⟩ := Slot.given_of_optional? given
    refine ⟨holds_of_anyValue? (fun n hn => words n ?_) made, ?_⟩
    · exact Tree.numbers_of_slots? found (by simp) n hn
    · rintro rfl
      exact some (Value.eq_null_of_ofTree? made)

/-- So may the arguments of a tool call. -/
theorem ToolCall.arguments_of_ofTree? {tree : Tree} {call : ToolCall}
    (words : ∀ n ∈ tree.numbers, n.IsWord) (read : ToolCall.ofTree? tree = some call) :
    call.arguments.Holds := by
  unfold ofTree? at read
  obtain ⟨slots, found, read⟩ := Option.bind_eq_some_iff.1 read
  split at read
  case h_2 => cases read
  case h_1 name arguments =>
    simp only [Option.bind_eq_bind, Option.bind_eq_some_iff] at read
    obtain ⟨_, -, value, given, heq⟩ := read
    obtain rfl := Option.some.inj heq
    cases arguments with
    | given item =>
        refine holds_of_anyValue? (fun n hn => words n ?_) given
        exact Tree.numbers_of_slots? found (by simp) n hn
    | omitted =>
        obtain rfl := Option.some.inj given
        exact ⟨rfl, List.forall_mem_nil _⟩
    | beyond =>
        obtain rfl := Option.some.inj given
        exact ⟨rfl, List.forall_mem_nil _⟩

/-! ## Every text -/

theorem Prompt.normalizes {text : String} (integers : IntegersOnly text) :
    Prompt.wire.Normalizes text := by
  refine Wire.normalizes_of_survives fun prompt decoded => ?_
  obtain ⟨tree, found, read⟩ := Option.bind_eq_some_iff.1 decoded
  exact Prompt.survives fun value => Prompt.schema_of_ofTree? (integers tree found) read

theorem ToolCall.normalizes {text : String} (integers : IntegersOnly text) :
    ToolCall.wire.Normalizes text := by
  refine Wire.normalizes_of_survives fun call decoded => ?_
  obtain ⟨tree, found, read⟩ := Option.bind_eq_some_iff.1 decoded
  exact ToolCall.survives (ToolCall.arguments_of_ofTree? (integers tree found) read)

/-- **Messages keep what they say.**  Every turn, request, response, kind of node, all permissions and
all settings are read back from their texts.  What a text with no numbers but integers gives, as any
kind of message and in any form of it, is read back from its own text, and that text stays the same. -/
theorem messages_round_trip :
    ((∀ turn, Turn.wire.Survives turn) ∧ (∀ request, Request.wire.Survives request) ∧
      (∀ response, Response.wire.Survives response) ∧ (∀ p, Permissions.wire.Survives p) ∧
      (∀ kind, Kind.wire.Survives kind) ∧ ∀ settings, Settings.wire.Survives settings) ∧
    ∀ text, IntegersOnly text →
      (Turn.wire.Normalizes text ∧ Request.wire.Normalizes text ∧ Response.wire.Normalizes text ∧
        Permissions.wire.Normalizes text ∧ Kind.wire.Normalizes text ∧
        Settings.wire.Normalizes text) ∧
      Prompt.wire.Normalizes text ∧ ToolCall.wire.Normalizes text := by
  refine ⟨⟨Turn.survives, Request.survives, Response.survives, Permissions.survives, Kind.survives,
    Settings.survives⟩, fun text integers => ⟨?plain, Prompt.normalizes integers,
    ToolCall.normalizes integers⟩⟩
  case plain =>
    exact ⟨Wire.normalizes Turn.survives text, Wire.normalizes Request.survives text,
      Wire.normalizes Response.survives text, Wire.normalizes Permissions.survives text,
      Wire.normalizes Kind.survives text, Wire.normalizes Settings.survives text⟩

/-- A call with its members in another order, one of them unknown, and with arguments that nest, repeat
a key, and hold the greatest integer and a zero with a minus sign. -/
theorem messages_round_trip_nested_arguments : ∃ text, IntegersOnly text ∧
    ToolCall.wire.normal? text =
      some "\x7b\"name\":\"ls\",\"arguments\":\x7b\"a\":[18446744073709551615],\"b\":-0.0\x7d\x7d" ∧
    ToolCall.wire.Normalizes text := by
  have integers : IntegersOnly ("\x7b\"arguments\":\x7b\"b\":1,\"b\":-0," ++
    "\"a\":[18446744073709551615]\x7d,\"id\":7,\"name\":\"ls\"\x7d") := by decide +kernel
  exact ⟨_, integers, by decide +kernel, (messages_round_trip.2 _ integers).2.2⟩

end VaultShell
