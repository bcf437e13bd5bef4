import OneShot.Assoc
import OneShot.Text.Digit

/-!
# Arguments

A command line is a list of words.  Options begin with dashes, and stand for
themselves or take a value; other words are operands.  A long option may be cut
short as long as it remains clear which one is meant, and a value may follow in
the same word.  Short options that stand for themselves may share a word, and
then the word counts as a whole: nothing of it is set if what it ends with lacks
its value.  Every word after the mark `--` is an operand.

Words that look like options are told from values by what is known of the
options: a negative number is a value, and so is a word with a blank in it.
-/

namespace OneShot.CommandLine

/-- An option. -/
structure OptionSpec where
  /-- What the option sets. -/
  key : String
  /-- The spellings of the option, with their dashes. -/
  names : List String
  takesValue : Bool := true
  /-- Whether a text can be its value. -/
  admits : String → Bool := fun _ => true
  /-- What may not be set together with it. -/
  rivals : List String := []

/-- Which words are operands. -/
inductive Operands where
  | none
  | one
  /-- The first operand and everything after it. -/
  | remainder
  deriving DecidableEq

/-- What a command line may consist of. -/
structure Grammar where
  options : List OptionSpec
  operands : Operands
  required : List String := []

/-- Why a command line cannot be read. -/
inductive UsageFault where
  | ambiguous (word : String)
  | unknown (word : String)
  | valueMissing (name : String)
  | valueNotTaken (name : String)
  | valueNotAdmitted (name value : String)
  | rivals (first second : String)
  | operandMissing
  | required (key : String)
  /-- Help was asked for. -/
  | help
  deriving Repr, DecidableEq

/-- What a command line says. -/
structure Reading where
  /-- The values of the options that take one. -/
  values : List (String × String) := []
  /-- The other options that are set. -/
  flags : List String := []
  operands : List String := []
  /-- Words that are nothing the command line may consist of. -/
  unknown : List String := []
  deriving Repr, DecidableEq

def Reading.has (reading : Reading) (key : String) : Bool :=
  (Assoc.get? reading.values key).isSome || reading.flags.contains key

def Reading.addUnknown (reading : Reading) (word : String) : Reading :=
  { reading with unknown := reading.unknown ++ [word] }

/-! ## Words -/

/-- The mark after which there are only operands. -/
def mark : String := "--"

/-- What follows the name of an option in its word. -/
inductive Suffix where
  | nothing
  /-- A value after an equals sign. -/
  | given (value : String)
  /-- The letters after a short name, which are a value or more options. -/
  | letters (text : String)

/-- What a word is. -/
inductive Word where
  | mark
  | plain (text : String)
  /-- An option by one of its names. -/
  | option (text : String) (spec : OptionSpec) (name : String) (suffix : Suffix)
  /-- Something that looks like an option and is none. -/
  | unknown (text : String)

def Word.text : Word → String
  | .mark => CommandLine.mark
  | .plain text | .unknown text | .option text .. => text

def isNegativeNumber (word : String) : Bool :=
  match word.toList with
  | '-' :: chars =>
      let chars := if chars.getLast? == some '\n' then chars.dropLast else chars
      let isDigit (c : Char) : Bool := (Text.decimalValue? c).isSome
      match chars.dropWhile isDigit with
      | [] => !chars.isEmpty
      | '.' :: places => !places.isEmpty && places.all isDigit
      | _ => false
  | _ => false

namespace Grammar

def option? (grammar : Grammar) (name : String) : Option OptionSpec :=
  grammar.options.find? fun spec => spec.names.contains name

/-- A word cut at its first equals sign. -/
def cut? (word : String) : Option (String × String) :=
  let chars := word.toList
  match chars.dropWhile (· != '=') with
  | '=' :: rest => some (String.ofList (chars.takeWhile (· != '=')), String.ofList rest)
  | _ => none

/-- The options that a word may mean, by their names, and what follows these. -/
def candidates (grammar : Grammar) (word : String) : List (OptionSpec × String × Suffix) :=
  let named := grammar.options.flatMap fun spec => spec.names.map fun name => (spec, name)
  if mark.toList.isPrefixOf word.toList then
    let (stem, suffix) : String × Suffix :=
      match cut? word with
      | some (stem, value) => (stem, .given value)
      | none => (word, .nothing)
    (named.filter fun entry => stem.toList.isPrefixOf entry.2.toList).map
      fun entry => (entry.1, entry.2, suffix)
  else
    named.filterMap fun entry =>
      if entry.2.toList == word.toList.take 2 then
        some (entry.1, entry.2, .letters (String.ofList (word.toList.drop 2)))
      else if word.toList.isPrefixOf entry.2.toList then some (entry.1, entry.2, .nothing)
      else none

def classify (grammar : Grammar) (word : String) : Except UsageFault Word :=
  if word.toList.head? != some '-' then .ok (.plain word)
  else
    match grammar.option? word with
    | some spec => .ok (.option word spec word .nothing)
    | none =>
        if word.length = 1 then .ok (.plain word)
        else
          let whole := (cut? word).bind fun (name, value) =>
            (grammar.option? name).map fun spec => Word.option word spec name (.given value)
          match whole with
          | some found => .ok found
          | none =>
              match grammar.candidates word with
              | [(spec, name, suffix)] => .ok (.option word spec name suffix)
              | _ :: _ :: _ => .error (.ambiguous word)
              | [] =>
                  if isNegativeNumber word || word.toList.contains ' ' then .ok (.plain word)
                  else .ok (.unknown word)

/-- What the words of a command line are. -/
def words (grammar : Grammar) : List String → Except UsageFault (List Word)
  | [] => .ok []
  | word :: rest =>
      if word == mark then .ok (.mark :: rest.map .plain)
      else do
        let first ← grammar.classify word
        return first :: (← grammar.words rest)

/-! ## Options -/

/-- Refuse an option that may not be set together with those that are. -/
def admitBeside (spec : OptionSpec) (reading : Reading) : Except UsageFault Unit :=
  match spec.rivals.find? reading.has with
  | some rival => .error (.rivals spec.key rival)
  | none => .ok ()

def setValue (spec : OptionSpec) (name value : String) (reading : Reading) :
    Except UsageFault Reading := do
  if !spec.admits value then throw (.valueNotAdmitted name value)
  admitBeside spec reading
  return { reading with values := Assoc.put reading.values spec.key value }

/-- The key of the option that asks for help. -/
def helpKey : String := "help"

def setFlag (spec : OptionSpec) (reading : Reading) : Except UsageFault Reading := do
  if spec.key == helpKey then throw .help
  admitBeside spec reading
  return { reading with flags := reading.flags ++ [spec.key] }

def setFlags (specs : List OptionSpec) (reading : Reading) : Except UsageFault Reading :=
  specs.foldlM (fun reading spec => setFlag spec reading) reading

/-- How a word with several short options ends. -/
inductive Ending where
  | nothing
  /-- Letters that are no option. -/
  | unknown (text : String)
  | value (spec : OptionSpec) (name value : String)
  /-- An option whose value is to come. -/
  | awaited (spec : OptionSpec) (name : String)

/-- The flags among the letters after a flag, and what the word ends with.  The
first option with a value takes the rest of the word. -/
def cluster (grammar : Grammar) : List Char → Except UsageFault (List OptionSpec × Ending)
  | [] => .ok ([], .nothing)
  | c :: rest =>
      let name := String.ofList ['-', c]
      if c == '-' then .error (.valueNotTaken name)
      else
        match grammar.option? name, rest with
        | none, rest => .ok ([], .unknown (String.ofList ('-' :: c :: rest)))
        | some spec, rest =>
            match spec.takesValue, rest with
            | true, [] => .ok ([], .awaited spec name)
            | true, '=' :: value | true, value => .ok ([], .value spec name (String.ofList value))
            | false, '=' :: _ => .error (.valueNotTaken name)
            | false, rest => (grammar.cluster rest).map fun found => (spec :: found.1, found.2)

/-- An option that waits for its value, and the flags in the same word. -/
structure Waiting where
  flags : List OptionSpec := []
  spec : OptionSpec
  name : String

/-- Note an option as far as its word goes; an option that waits for a value is
given back. -/
def setOption (grammar : Grammar) (spec : OptionSpec) (name : String) (suffix : Suffix)
    (reading : Reading) : Except UsageFault (Option Waiting × Reading) :=
  match spec.takesValue, suffix with
  | true, .nothing => .ok (some { spec, name }, reading)
  | true, .given value | true, .letters value => (setValue spec name value reading).map (none, ·)
  | false, .nothing => (setFlag spec reading).map (none, ·)
  | false, .given _ => .error (.valueNotTaken name)
  | false, .letters text => do
      let (flags, ending) ← grammar.cluster text.toList
      match ending with
      | .nothing => return (none, ← setFlags (spec :: flags) reading)
      | .unknown text => return (none, (← setFlags (spec :: flags) reading).addUnknown text)
      | .value last name value =>
          return (none, ← setValue last name value (← setFlags (spec :: flags) reading))
      | .awaited last name => return (some { flags := spec :: flags, spec := last, name }, reading)

/-! ## Command lines -/

/-- Read words.  An option that waits takes the next word if it is plain. -/
def readWords (grammar : Grammar) :
    Option Waiting → List Word → Reading → Except UsageFault Reading
  | some waiting, .plain text :: rest, reading => do
      let reading ← setFlags waiting.flags reading
      grammar.readWords none rest (← setValue waiting.spec waiting.name text reading)
  | some waiting, _, _ => .error (.valueMissing waiting.name)
  | none, [], reading => .ok reading
  | none, .unknown text :: rest, reading => grammar.readWords none rest (reading.addUnknown text)
  | none, .option _ spec name suffix :: rest, reading => do
      let (waiting, reading) ← grammar.setOption spec name suffix reading
      grammar.readWords waiting rest reading
  | none, .plain text :: rest, reading =>
      match grammar.operands, reading.operands with
      | .remainder, _ => .ok { reading with operands := text :: rest.map Word.text }
      | .one, [] =>
          let reading := { reading with operands := [text] }
          match rest with
          | [.mark] => .ok reading
          | rest => grammar.readWords none rest reading
      | _, _ => grammar.readWords none rest (reading.addUnknown text)
  | none, .mark :: rest, reading =>
      match grammar.operands, reading.operands, rest with
      | .one, [], .plain text :: rest =>
          .ok { reading with operands := [text], unknown := reading.unknown ++ rest.map Word.text }
      | .remainder, _, _ :: _ => .ok { reading with operands := mark :: rest.map Word.text }
      | _, _, _ => .ok { reading with unknown := reading.unknown ++ mark :: rest.map Word.text }

def complete (grammar : Grammar) (reading : Reading) : Except UsageFault Reading :=
  if grammar.operands ≠ .none && reading.operands.isEmpty then .error .operandMissing
  else
    match grammar.required.find? fun key => !reading.has key with
    | some key => .error (.required key)
    | none => .ok reading

/-- Read a command line; words that are nothing known are left to the caller. -/
def read (grammar : Grammar) (line : List String) : Except UsageFault Reading := do
  let words ← grammar.words line
  grammar.complete (← grammar.readWords none words {})

end Grammar

end OneShot.CommandLine
