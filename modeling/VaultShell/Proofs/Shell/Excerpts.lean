import VaultShell.Proofs.Text.Lines
import VaultShell.Shell.Command

/-!
# The first and the last lines of a file

`head` and `tail` read their arguments from left to right.  A number of lines can be given in five forms,
and two of them take the next argument along, so what an argument means depends on the one before it.
Still a number in one of the forms is read as a whole, whatever follows, and does nothing but replace the
number that was asked for before.  So of several numbers the last one counts, and where the file stands
among them is no matter.

A number that is too large is refused, and nothing in front of it can keep it from being refused: either
it is read as a number, or its first part is, behind a flag that waits for a number, and no number begins
with a hyphen.

The lines to be printed are a slice of the lines of the file.  Slices are taken by two indices, and one
with an index out of range would end the program; so the commands are written down a second time with
slices that may fail, and the two are the same.

## Main definitions

* `Text.IsNumeral`: a decimal numeral and what it stands for
* `CountForm`, `CountArgument`: the forms of a number of lines, and a number in one of them
* `slice?`, `Shell.excerptSliced?`: slices that fail out of range, and `head` and `tail` with them

## Main statements

* `Shell.excerptRequest_counts`: of several numbers the last one counts
* `Shell.exists_usage_of_large`: a number that is too large is refused, wherever it stands
* `Shell.excerptSliced?_eq`: no slice fails
* `Shell.excerpts_split_file`: `head` and `tail` of one file
-/

namespace VaultShell

/-! ## Numerals -/

namespace Text

/-- A decimal numeral and what it stands for. -/
structure IsNumeral (spelling : String) (value : Nat) : Prop where
  ne_empty : spelling ≠ ""
  digits : ∀ c ∈ spelling.toList, c.isDigit = true
  value_eq : Nat.ofDigitChars 10 spelling.toList 0 = value

variable {spelling : String} {value : Nat}

instance : Decidable (IsNumeral spelling value) :=
  decidable_of_iff
    (spelling ≠ "" ∧ spelling.toList.all Char.isDigit = true ∧
      Nat.ofDigitChars 10 spelling.toList 0 = value)
    ⟨fun ⟨something, digits, number⟩ => ⟨something, List.all_eq_true.1 digits, number⟩,
      fun numeral => ⟨numeral.ne_empty, List.all_eq_true.2 numeral.digits, numeral.value_eq⟩⟩

/-- A numeral has a first digit. -/
theorem IsNumeral.exists_first (numeral : IsNumeral spelling value) :
    ∃ digit rest, spelling.toList = digit :: rest ∧ digit.isDigit = true := by
  have something : spelling.toList ≠ [] :=
    fun empty => numeral.ne_empty (String.toList_injective empty)
  obtain ⟨digit, rest, text⟩ := List.exists_cons_of_ne_nil something
  exact ⟨digit, rest, text, numeral.digits digit (text ▸ List.mem_cons_self)⟩

/-- **Numerals are read as what they stand for**, up to the bound for counts. -/
theorem IsNumeral.readCount?_eq (numeral : IsNumeral spelling value) :
    readCount? spelling = if value < countBound then some value else none := by
  obtain ⟨digit, rest, text, isDigit⟩ := numeral.exists_first
  have noSign : digit ≠ '+' := by
    rintro rfl
    exact absurd isDigit (by decide)
  have digits : (digit :: rest).all Char.isDigit = true := by
    rw [← text]
    exact List.all_eq_true.2 numeral.digits
  have number : numberOfDigits (digit :: rest) = value := by
    rw [← numeral.value_eq, text, Nat.ofDigitChars_eq_foldl]
    rfl
  unfold readCount?
  rw [text]
  split
  case h_1 signed => exact absurd (List.cons.inj signed).1 noSign
  case h_2 => simp only [digits, number, List.isEmpty_cons, Bool.not_true, Bool.or_false, if_false,
    Bool.false_eq_true]

/-- No number begins with a hyphen. -/
theorem readCount?_eq_none_of_hyphen {rest : List Char} (text : spelling.toList = '-' :: rest) :
    readCount? spelling = none := by
  unfold readCount?
  rw [text]
  simp

end Text

/-! ## The forms of a number of lines -/

/-- The forms in which a number of lines is given. -/
inductive CountForm where
  | apart
  | attached
  | longApart
  | longAttached
  | bare
  deriving DecidableEq

/-- The arguments by which a number is given in a form. -/
def CountForm.arguments (spelling : String) : CountForm → List String
  | .apart => ["-n", spelling]
  | .attached => ["-n" ++ spelling]
  | .longApart => ["--lines", spelling]
  | .longAttached => ["--lines=" ++ spelling]
  | .bare => ["-" ++ spelling]

/-- **A number of lines that is given**: a numeral for a count that fits, in one of the forms. -/
structure CountArgument where
  form : CountForm
  spelling : String
  value : Nat
  isNumeral : Text.IsNumeral spelling value
  fits : value < Text.countBound

/-- The arguments by which the number is given. -/
def CountArgument.arguments (count : CountArgument) : List String :=
  count.form.arguments count.spelling

/-- The number that counts among several: the last one, and if there is none, the one that is not asked
for. -/
def lastCount (counts : List CountArgument) : Nat :=
  (counts.getLast?.map CountArgument.value).getD Shell.defaultLineCount

/-- Every form begins with a hyphen. -/
theorem CountForm.exists_first (spelling : String) (form : CountForm) :
    ∃ first rest cs, form.arguments spelling = first :: rest ∧ first.toList = '-' :: cs := by
  cases form with
  | apart => exact ⟨_, _, _, rfl, rfl⟩
  | attached => exact ⟨_, _, _, rfl, by rw [String.toList_append]; rfl⟩
  | longApart => exact ⟨_, _, _, rfl, rfl⟩
  | longAttached => exact ⟨_, _, _, rfl, by rw [String.toList_append]; rfl⟩
  | bare => exact ⟨_, _, _, rfl, by rw [String.toList_append]; rfl⟩

namespace Shell

variable {spelling operand content : String} {value : Nat}

/-! ## One argument of a request -/

/-- A number is only ever part of a flag. -/
theorem attachedCount?_eq_none {argument : String} (operand : isFlag argument = false) :
    attachedCount? argument = none := by
  unfold isFlag at operand
  unfold attachedCount?
  split at operand
  case h_1 => cases operand
  case h_2 plain =>
    split
    · exact absurd ‹_› (plain _ _)
    · exact absurd ‹_› (plain _ _)
    · exact absurd ‹_› (plain _ _)
    · rfl

section Request

variable (side : FileEnd) (count : Nat) (rest : List String)

theorem excerptRequest_number {argument : String} (number : argument = "-n" ∨ argument = "--lines")
    (spelling : String) :
    excerptRequest side count (argument :: spelling :: rest) =
      match lineCount side spelling with
      | .error failure => .error failure
      | .ok count => excerptRequest side count rest := by
  conv_lhs => unfold excerptRequest
  cases read : lineCount side spelling <;> simp only [number, if_true, read]

theorem excerptRequest_flag {argument : String} (number : ¬ (argument = "-n" ∨ argument = "--lines"))
    (flag : isFlag argument = true) :
    excerptRequest side count (argument :: rest) =
      match attachedCount? argument with
      | none => excerptRequest side count rest
      | some spelling =>
        match lineCount side spelling with
        | .error failure => .error failure
        | .ok count => excerptRequest side count rest := by
  conv_lhs => unfold excerptRequest
  simp only [number, if_false, flag, if_true]
  cases attachedCount? argument <;> rfl

/-- An operand is kept, and the arguments behind it are read as if it were not there. -/
theorem excerptRequest_operand {operand : String} (given : isFlag operand = false) :
    excerptRequest side count (operand :: rest) =
      (excerptRequest side count rest).map fun request => (request.1, operand :: request.2) := by
  have number : ¬ (operand = "-n" ∨ operand = "--lines") := by
    rintro (rfl | rfl) <;> exact absurd given (by decide)
  conv_lhs => unfold excerptRequest
  simp only [number, if_false, attachedCount?_eq_none given, given, Bool.false_eq_true]
  cases excerptRequest side count rest <;> rfl

end Request

/-! ## Numbers, in any form -/

/-- What has a hyphen and a number in one argument is no flag that waits for a number. -/
theorem attachedCount?_eq_some (numeral : Text.IsNumeral spelling value) {form : CountForm}
    {argument : String} (only : form.arguments spelling = [argument]) :
    attachedCount? argument = some spelling ∧ isFlag argument = true ∧
      ¬ (argument = "-n" ∨ argument = "--lines") := by
  obtain ⟨digit, rest, text, isDigit⟩ := numeral.exists_first
  have spelt : String.ofList (digit :: rest) = spelling := by rw [← text, String.ofList_toList]
  cases form with
  | apart => cases only
  | longApart => cases only
  | attached =>
      obtain rfl := List.singleton_inj.1 only
      have letters : ("-n" ++ spelling).toList = '-' :: 'n' :: digit :: rest := by
        rw [String.toList_append, text]
        rfl
      refine ⟨by simp only [attachedCount?, letters, spelt], by simp only [isFlag, letters], ?_⟩
      rintro (same | same) <;> simp [same] at letters
  | longAttached =>
      obtain rfl := List.singleton_inj.1 only
      have letters : ("--lines=" ++ spelling).toList =
          '-' :: '-' :: 'l' :: 'i' :: 'n' :: 'e' :: 's' :: '=' :: digit :: rest := by
        rw [String.toList_append, text]
        rfl
      refine ⟨by simp only [attachedCount?, letters, spelt], by simp only [isFlag, letters], ?_⟩
      rintro (same | same) <;> simp [same] at letters
  | bare =>
      obtain rfl := List.singleton_inj.1 only
      have letters : ("-" ++ spelling).toList = '-' :: digit :: rest := by
        rw [String.toList_append, text]
        rfl
      have notLetter : digit ≠ 'n' := by
        rintro rfl
        exact absurd isDigit (by decide)
      have notHyphen : digit ≠ '-' := by
        rintro rfl
        exact absurd isDigit (by decide)
      have digits : (digit :: rest).all Char.isDigit = true := by
        rw [← text]
        exact List.all_eq_true.2 numeral.digits
      refine ⟨?_, by simp only [isFlag, letters], ?_⟩
      · unfold attachedCount?
        rw [letters]
        split
        case h_1 same => exact absurd (List.cons.inj (List.cons.inj same).2).1 notLetter
        case h_2 same => exact absurd (List.cons.inj (List.cons.inj same).2).1 notHyphen
        case h_3 same =>
          obtain ⟨rfl, rfl⟩ := List.cons.inj (List.cons.inj same).2
          rw [if_pos digits, spelt]
        case h_4 other => exact absurd rfl (other digit rest)
      · rintro (same | same) <;> simp [same, notLetter.symm, notHyphen.symm] at letters

/-- **A number in any form is read as a whole**, whatever follows. -/
theorem excerptRequest_form (numeral : Text.IsNumeral spelling value) (form : CountForm)
    (side : FileEnd) (count : Nat) (rest : List String) :
    excerptRequest side count (form.arguments spelling ++ rest) =
      match lineCount side spelling with
      | .error failure => .error failure
      | .ok count => excerptRequest side count rest := by
  have attached : ∀ argument, form.arguments spelling = [argument] →
      excerptRequest side count ([argument] ++ rest) =
        match lineCount side spelling with
        | .error failure => .error failure
        | .ok count => excerptRequest side count rest := by
    intro argument only
    obtain ⟨found, flag, number⟩ := attachedCount?_eq_some numeral only
    rw [List.singleton_append, excerptRequest_flag side count rest number flag, found]
  cases form with
  | apart => exact excerptRequest_number side count rest (Or.inl rfl) spelling
  | longApart => exact excerptRequest_number side count rest (Or.inr rfl) spelling
  | attached => exact attached _ rfl
  | longAttached => exact attached _ rfl
  | bare => exact attached _ rfl

theorem lineCount_of_fits (numeral : Text.IsNumeral spelling value) (fits : value < Text.countBound)
    (side : FileEnd) : lineCount side spelling = .ok value := by
  rw [lineCount, numeral.readCount?_eq, if_pos fits]

theorem lineCount_of_large (numeral : Text.IsNumeral spelling value)
    (large : Text.countBound ≤ value) (side : FileEnd) :
    lineCount side spelling =
      .error (.usage s!"{side.command}: invalid number of lines: '{spelling}'") := by
  rw [lineCount, numeral.readCount?_eq, if_neg (Nat.not_lt.2 large)]

/-- **Of several numbers the last one counts.** -/
theorem excerptRequest_counts (side : FileEnd) (count : Nat) (counts : List CountArgument)
    (rest : List String) :
    excerptRequest side count (counts.flatMap CountArgument.arguments ++ rest) =
      excerptRequest side ((counts.getLast?.map CountArgument.value).getD count) rest := by
  induction counts generalizing count with
  | nil => rfl
  | cons first others ih =>
      rw [List.flatMap_cons, List.append_assoc, CountArgument.arguments,
        excerptRequest_form first.isNumeral, lineCount_of_fits first.isNumeral first.fits]
      show excerptRequest side first.value _ = _
      rw [ih, List.getLast?_cons]
      cases others.getLast? <;> rfl

/-- The request for one file, with numbers before and behind it. -/
theorem excerptRequest_single (given : isFlag operand = false) (side : FileEnd)
    (front back : List CountArgument) :
    excerptRequest side defaultLineCount
        (front.flatMap CountArgument.arguments ++
          operand :: back.flatMap CountArgument.arguments) =
      .ok (lastCount (front ++ back), [operand]) := by
  have behind := fun count => excerptRequest_counts side count back []
  simp only [List.append_nil] at behind
  rw [excerptRequest_counts, excerptRequest_operand side _ _ given, behind, lastCount,
    List.getLast?_append]
  cases back.getLast? <;> rfl

/-- **One file that can be read**: its picked lines, as many as the last number says. -/
theorem excerpt_single {shell : Shell} (given : isFlag operand = false)
    (readable : shell.vault.read (shell.resolve operand) = .ok content) (side : FileEnd)
    (front back : List CountArgument) :
    excerpt side shell
        (front.flatMap CountArgument.arguments ++
          operand :: back.flatMap CountArgument.arguments) =
      .ok (excerptOf side (lastCount (front ++ back)) content) := by
  unfold excerpt
  rw [excerptRequest_single given]
  simp only [List.map_cons, List.map_nil, excerptSection, readable, List.isEmpty_nil, Bool.not_true,
    Bool.false_eq_true, if_false, Text.joinLines, String.intercalate_singleton]

/-! ## Numbers that are too large -/

/-- What keeps a number from being read is a matter of usage. -/
theorem exists_usage_of_lineCount {side : FileEnd} {failure : Failure}
    (refused : lineCount side spelling = .error failure) : ∃ text, failure = .usage text := by
  unfold lineCount at refused
  split at refused
  · cases refused
  · exact ⟨_, (Except.error.inj refused).symm⟩

/-- **A number that is too large is refused, wherever it stands.**  The induction reads the arguments in
front of it.  If the last of them waits for a number, it takes the first part of the form for it, which
begins with a hyphen. -/
theorem exists_usage_of_large (numeral : Text.IsNumeral spelling value)
    (large : Text.countBound ≤ value) (form : CountForm) (side : FileEnd) (count : Nat)
    (front back : List String) :
    ∃ text, excerptRequest side count (front ++ form.arguments spelling ++ back) =
      .error (.usage text) := by
  rw [List.append_assoc]
  fun_induction excerptRequest side count front
  case case1 count =>
    rw [List.nil_append, excerptRequest_form numeral, lineCount_of_large numeral large]
    exact ⟨_, rfl⟩
  case case2 count argument number =>
    obtain ⟨first, rest, cs, forms, hyphen⟩ := form.exists_first spelling
    have refused : lineCount side first =
        .error (.usage s!"{side.command}: invalid number of lines: '{first}'") := by
      rw [lineCount, Text.readCount?_eq_none_of_hyphen hyphen]
    rw [forms]
    show ∃ text, excerptRequest side count (argument :: first :: (rest ++ back)) = _
    rw [excerptRequest_number side count _ number, refused]
    exact ⟨_, rfl⟩
  case case3 count argument number other rest failure refused =>
    obtain ⟨text, rfl⟩ := exists_usage_of_lineCount refused
    rw [List.cons_append, List.cons_append, excerptRequest_number side count _ number, refused]
    exact ⟨text, rfl⟩
  case case4 count argument number other rest found read ih =>
    rw [List.cons_append, List.cons_append, excerptRequest_number side count _ number, read]
    exact ih
  case case5 count argument rest number other attached failure refused =>
    obtain ⟨text, rfl⟩ := exists_usage_of_lineCount refused
    rw [List.cons_append, excerptRequest.eq_def]
    simp only [number, if_false, attached, refused]
    exact ⟨text, rfl⟩
  case case6 count argument rest number other attached found read ih =>
    rw [List.cons_append, excerptRequest.eq_def]
    simp only [number, if_false, attached, read]
    exact ih
  case case7 count argument rest number none flag ih =>
    rw [List.cons_append, excerptRequest_flag side count _ number flag, none]
    exact ih
  case case8 count argument rest number none given failure refused ih =>
    obtain ⟨text, refused⟩ := ih
    rw [List.cons_append, excerptRequest_operand side count _ (by simpa using given), refused]
    exact ⟨text, rfl⟩
  case case9 count argument rest number none given found operands read ih =>
    obtain ⟨text, refused⟩ := ih
    rw [List.cons_append, excerptRequest_operand side count _ (by simpa using given), refused]
    exact ⟨text, rfl⟩

/-! ## Slices -/

/-- The elements from one index up to another one, if both are in range. -/
def slice? {α : Type} (elements : List α) (start stop : Nat) : Option (List α) :=
  if start ≤ stop ∧ stop ≤ elements.length then some ((elements.take stop).drop start) else none

namespace FileEnd

/-- The indices between which lines are picked, for a text of so many lines. -/
def bounds (count length : Nat) : FileEnd → Nat × Nat
  | .front => (0, min count length)
  | .back => (length - count, length)

/-- **The indices are in range**, and the slice between them is what is picked. -/
theorem slice?_bounds {α : Type} (side : FileEnd) (count : Nat) (elements : List α) :
    slice? elements (side.bounds count elements.length).1 (side.bounds count elements.length).2 =
      some (side.pick count elements) := by
  cases side with
  | front =>
      have inRange : 0 ≤ min count elements.length ∧ min count elements.length ≤ elements.length := by
        omega
      simp only [slice?, bounds, inRange, and_self, if_true, pick, List.drop_zero]
      rw [← List.take_eq_take_min]
  | back =>
      have inRange : elements.length - count ≤ elements.length ∧ elements.length ≤ elements.length := by
        omega
      simp only [slice?, bounds, inRange, and_self, if_true, pick, List.take_length]

/-- How much is picked, told by the number of elements that there are. -/
theorem pick_eq {α : Type} (count : Nat) (elements : List α) :
    FileEnd.front.pick count elements = elements.take (min count elements.length) ∧
      FileEnd.back.pick count elements =
        elements.drop (elements.length - min count elements.length) := by
  refine ⟨List.take_eq_take_min, ?_⟩
  have start : elements.length - min count elements.length = elements.length - count := by omega
  rw [start]
  rfl

end FileEnd

/-- What stands for one file if its lines are picked by a slice; nothing if the slice fails. -/
def excerptSectionSliced? (shell : Shell) (side : FileEnd) (count : Nat) (headed : Bool)
    (operand : String) : Option String :=
  match shell.vault.read (shell.resolve operand) with
  | .error fault => some s!"{side.command}: cannot open '{operand}' for reading: {fault.message}"
  | .ok content =>
    let lines := Text.lines content
    let indices := side.bounds count lines.length
    (slice? lines indices.1 indices.2).map fun picked =>
      let body := Text.joinLines picked
      if headed then s!"==> {operand} <==\n{body}" else body

/-- `head` and `tail` with slices; nothing if one of them fails. -/
def excerptSliced? (side : FileEnd) (shell : Shell) (arguments : List String) :
    Option (Except Failure String) :=
  match excerptRequest side defaultLineCount arguments with
  | .error failure => some (.error failure)
  | .ok (_, []) => some (.error (.usage s!"Usage: {side.command} <filename>"))
  | .ok (count, operand :: rest) =>
    ((operand :: rest).mapM (shell.excerptSectionSliced? side count (!rest.isEmpty))).map
      fun sections => .ok (Text.joinLines sections)

theorem excerptSectionSliced?_eq (shell : Shell) (side : FileEnd) (count : Nat) (headed : Bool)
    (operand : String) :
    shell.excerptSectionSliced? side count headed operand =
      some (shell.excerptSection side count headed operand) := by
  unfold excerptSectionSliced? excerptSection
  cases shell.vault.read (shell.resolve operand) with
  | error fault => rfl
  | ok content =>
      simp only [FileEnd.slice?_bounds]
      rfl

/-- **No slice fails**, whatever the arguments are. -/
theorem excerptSliced?_eq (side : FileEnd) (shell : Shell) (arguments : List String) :
    excerptSliced? side shell arguments = some (excerpt side shell arguments) := by
  have sections : ∀ count headed, shell.excerptSectionSliced? side count headed =
      fun operand => pure (shell.excerptSection side count headed operand) := by
    intro count headed
    funext operand
    exact excerptSectionSliced?_eq shell side count headed operand
  unfold excerptSliced? excerpt
  rcases excerptRequest side defaultLineCount arguments with failure | ⟨count, _ | ⟨operand, rest⟩⟩
  · rfl
  · rfl
  · simp only [sections, List.mapM_pure]
    rfl

/-! ## Both ends of a file -/

/-- **The beginning and the rest of a text**, in lines, with a line feed between them. -/
theorem joinLines_excerpts {first last : Nat} (something : 0 < first) (more : 0 < last)
    (whole : first + last = (Text.lines content).length) :
    excerptOf .front first content ++ "\n" ++ excerptOf .back last content =
      Text.joinLines (Text.lines content) := by
  have start : (Text.lines content).length - last = first := by omega
  have beginning : (Text.lines content).take first ≠ [] := by
    apply List.ne_nil_of_length_pos
    rw [List.length_take]
    omega
  have ending : (Text.lines content).drop first ≠ [] := by
    apply List.ne_nil_of_length_pos
    rw [List.length_drop]
    omega
  unfold excerptOf FileEnd.pick Text.joinLines
  rw [start, ← String.intercalate_append_of_ne_nil beginning ending, List.take_append_drop]

/-- **`head` and `tail` split a file.**  In any state, of a file that can be read, whatever is in it,
`head` prints the first lines and `tail` the last ones, as many as the last number says that is given, in
whatever form and on whichever side of the file; all lines, if there are no more.  If the two numbers
make up the number of lines, what they print makes up the file, with a line feed between it.  A number
that is too large is a matter of usage, wherever it stands among whatever arguments.  And for no arguments
at all is a slice taken out of range. -/
theorem excerpts_split_file (wallClock : String) (shell : Shell) :
    (∀ operand content, isFlag operand = false →
      shell.vault.read (shell.resolve operand) = .ok content →
      let lines := Text.lines content
      (∀ front back : List CountArgument,
        let arguments := front.flatMap CountArgument.arguments ++
          operand :: back.flatMap CountArgument.arguments
        let shown := min (lastCount (front ++ back)) lines.length
        Command.head.execute wallClock shell arguments =
          (shell, .ok (Text.joinLines (lines.take shown))) ∧
        Command.tail.execute wallClock shell arguments =
          (shell, .ok (Text.joinLines (lines.drop (lines.length - shown))))) ∧
      ∀ first last : CountArgument, 0 < first.value → first.value < lines.length →
        last.value = lines.length - first.value →
        ∃ beginning ending,
          Command.head.execute wallClock shell (first.arguments ++ [operand]) =
            (shell, .ok beginning) ∧
          Command.tail.execute wallClock shell (last.arguments ++ [operand]) = (shell, .ok ending) ∧
          beginning ++ "\n" ++ ending = Text.joinLines lines) ∧
    (∀ spelling value, Text.IsNumeral spelling value → Text.countBound ≤ value →
      ∀ (form : CountForm) (front back : List String),
        let arguments := front ++ form.arguments spelling ++ back
        (∃ text, Command.head.execute wallClock shell arguments = (shell, .error (.usage text))) ∧
        ∃ text, Command.tail.execute wallClock shell arguments = (shell, .error (.usage text))) ∧
    ∀ side arguments,
      excerptSliced? side shell arguments = some (excerpt side shell arguments) := by
  refine ⟨?_, ?_, fun side arguments => excerptSliced?_eq side shell arguments⟩
  · intro operand content given readable lines
    refine ⟨?_, ?_⟩
    · intro front back arguments shown
      obtain ⟨first, last⟩ := FileEnd.pick_eq (lastCount (front ++ back)) lines
      have printed := fun side => excerpt_single given readable side front back
      unfold excerptOf at printed
      constructor
      · show (shell, excerpt .front shell arguments) = _
        rw [printed, first]
      · show (shell, excerpt .back shell arguments) = _
        rw [printed, last]
    · intro first last something more rest
      have alone : ∀ (side : FileEnd) (count : CountArgument),
          excerpt side shell (count.arguments ++ [operand]) = .ok (excerptOf side count.value content) := by
        intro side count
        have printed := excerpt_single given readable side [count] []
        simpa [lastCount] using printed
      have positive : 0 < last.value := by omega
      have whole : first.value + last.value = lines.length := by omega
      exact ⟨_, _, congrArg (Prod.mk shell) (alone .front first),
        congrArg (Prod.mk shell) (alone .back last), joinLines_excerpts something positive whole⟩
  · intro spelling value numeral large form front back arguments
    have refused : ∀ side, ∃ text, excerpt side shell arguments = .error (.usage text) := by
      intro side
      obtain ⟨text, refused⟩ := exists_usage_of_large numeral large form side defaultLineCount front back
      refine ⟨text, ?_⟩
      unfold excerpt
      rw [refused]
    obtain ⟨text, first⟩ := refused .front
    obtain ⟨text', last⟩ := refused .back
    exact ⟨⟨text, congrArg (Prod.mk shell) first⟩, ⟨text', congrArg (Prod.mk shell) last⟩⟩

/-- The readme behind a tilde: three numbers on both sides of it, its first line and the two others, and
a number of twenty digits that a flag in front of it takes for its own. -/
theorem excerpts_split_file_readme :
    isFlag "~/readme.txt" = false ∧
    (fresh "vault-user" .origin).vault.read ((fresh "vault-user" .origin).resolve "~/readme.txt") =
      .ok readmeContent ∧
    Command.head.execute "" (fresh "vault-user" .origin)
        ["-7", "--lines", "007", "~/readme.txt", "-n2"] =
      (fresh "vault-user" .origin, .ok (Text.joinLines ((Text.lines readmeContent).take 2))) ∧
    (∃ beginning ending,
      Command.head.execute "" (fresh "vault-user" .origin) ["--lines=1", "~/readme.txt"] =
        (fresh "vault-user" .origin, .ok beginning) ∧
      Command.tail.execute "" (fresh "vault-user" .origin) ["-n", "02", "~/readme.txt"] =
        (fresh "vault-user" .origin, .ok ending) ∧
      beginning ++ "\n" ++ ending = Text.joinLines (Text.lines readmeContent)) ∧
    ∃ text, Command.tail.execute "" (fresh "vault-user" .origin)
        ["~/readme.txt", "-n", "--lines=18446744073709551616"] =
      (fresh "vault-user" .origin, .error (.usage text)) := by
  have plain : isFlag "~/readme.txt" = false := by decide
  have readable : (fresh "vault-user" .origin).vault.read
      ((fresh "vault-user" .origin).resolve "~/readme.txt") = .ok readmeContent := by decide +kernel
  have three : (Text.lines readmeContent).length = 3 := by decide +kernel
  obtain ⟨single, large, -⟩ := excerpts_split_file "" (fresh "vault-user" .origin)
  obtain ⟨ends, both⟩ := single "~/readme.txt" readmeContent plain readable
  have seven : Text.IsNumeral "7" 7 := by decide
  have padded : Text.IsNumeral "007" 7 := by decide
  have two : Text.IsNumeral "2" 2 := by decide
  have one : Text.IsNumeral "1" 1 := by decide
  have rest : Text.IsNumeral "02" 2 := by decide
  have huge : Text.IsNumeral "18446744073709551616" 18446744073709551616 := by decide
  have numbers := (ends [⟨.bare, "7", 7, seven, by decide⟩, ⟨.longApart, "007", 7, padded, by decide⟩]
    [⟨.attached, "2", 2, two, by decide⟩]).1
  have before : 1 < (Text.lines readmeContent).length := by omega
  have after : 2 = (Text.lines readmeContent).length - 1 := by omega
  have parts := both ⟨.longAttached, "1", 1, one, by decide⟩ ⟨.apart, "02", 2, rest, by decide⟩
    Nat.one_pos before after
  have refused := (large _ _ huge (by decide) .longAttached ["~/readme.txt", "-n"] []).2
  rw [three] at numbers
  exact ⟨plain, readable, numbers, parts, refused⟩

end Shell

end VaultShell
