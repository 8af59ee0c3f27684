import NilFlow.CommandLine.Option
import NilFlow.Text.EditDistance
import NilFlow.Text.Lowercase

/-!
# Arguments of the command line

* `Command`: the commands, with the options that each of them knows.
* `ArgumentError`: what is wrong with arguments.
* `Command.find`: the command that arguments name, and the arguments without its name.
* `Command.parse`: the options and words among the arguments of a command.
* `Invocation`, `Invocation.ofArguments`: a command with everything it was given.
-/

namespace NilFlow

inductive Command where
  /-- No command was named. -/
  | root
  | harvest
  | config
  | help
deriving DecidableEq, Repr

namespace Command

/-- The path of a command, which messages show. -/
def path : Command → String
  | root => "nilopt"
  | harvest => "nilopt harvest"
  | config => "nilopt config"
  | help => "nilopt help"

/-- The commands that can be named, in the order of suggestions. -/
def named : List (String × Command) := [("harvest", harvest), ("config", config), ("help", help)]

def ofName? (name : String) : Option Command := named.lookup name

def options : Command → List CommandOption
  | root | help => CommandOption.common
  | harvest =>
    [.format, .output, .directory, .tests, .roots, .declaration] ++ CommandOption.ofSettings ++ CommandOption.common
  | config => CommandOption.ofSettings ++ CommandOption.common

end Command

inductive ArgumentError where
  | unknownCommand (word parent : String) (suggestions : List String)
  | badForm (argument : String)
  | unknownOption (name : String)
  | unknownLetter (letters : String)
  | missingValue (name : String)
  | missingLetterValue (letter : Char)
  | badValue (value : String) (option : CommandOption) (cause : String)
  /-- Options that exclude each other. -/
  | exclusive
deriving DecidableEq, Repr

namespace ArgumentError

def quotedLetter (c : Char) : String :=
  String.ofList ('\'' :: (if c = '\'' then ['\\', c] else if c = '"' then [c] else quotedChar c) ++ ['\''])

/-- The first letter of a text. Letters are single bytes, so all letters beyond ASCII are shown as one and the same. -/
def firstLetter (text : String) : Char :=
  match text.toList with
  | [] => '\x00'
  | c :: _ => if c.toNat < 128 then c else 'Ã'

def suggestionText (suggestions : List String) : String :=
  if suggestions.isEmpty then ""
  else "\n\nDid you mean this?\n" ++ "".intercalate (suggestions.map fun s => "\t" ++ s ++ "\n")

def message : ArgumentError → String
  | unknownCommand word parent suggestions =>
    "unknown command " ++ quoted word ++ " for " ++ quoted parent ++ suggestionText suggestions
  | badForm a => "bad flag syntax: " ++ a
  | unknownOption name => "unknown flag: --" ++ name
  | unknownLetter letters =>
    "unknown shorthand flag: " ++ quotedLetter (firstLetter letters) ++ " in -" ++ letters
  | missingValue name => "flag needs an argument: --" ++ name
  | missingLetterValue c => "flag needs an argument: " ++ quotedLetter c ++ " in -" ++ String.ofList [c]
  | badValue value option cause =>
    "invalid argument " ++ quoted value ++ " for " ++ quoted option.shown ++ " flag: " ++ cause
  | exclusive => "if any flags in the group [root decl] are set none of the others can be; [decl root] were all set"

end ArgumentError

namespace Command

/-! ## Finding the command -/

/-- Whether an argument is an option whose value is the next argument, as far as the options of a command tell. Unknown
options count as such. -/
def takesNext (options : List CommandOption) (argument : String) : Bool :=
  !argument.toList.contains '=' && match argument.toList with
    | '-' :: '-' :: name => !options.any fun o => o.isSwitch && o.name = String.ofList name
    | ['-', c] => c.utf8Size = 1 && !options.any fun o => o.isSwitch && o.letter? = some c
    | _ => false

def isDashed (argument : String) : Bool := argument.toList.head? = some '-'

/-- The words among arguments that are neither options nor their values. A value at the very end is not looked at. -/
def words (options : List CommandOption) : List String → List String
  | [] => []
  | a :: rest =>
    if a = "--" then []
    else if takesNext options a then
      match rest with
      | _ :: b :: rest => words options (b :: rest)
      | _ => []
    else if a.isEmpty || isDashed a then words options rest
    else a :: words options rest

def withoutWord (options : List CommandOption) (word : String) : List String → List String
  | [] => []
  | a :: rest =>
    if a = "--" then a :: rest
    else if takesNext options a then
      match rest with
      | v :: rest => a :: v :: withoutWord options word rest
      | [] => [a]
    else if a = word then rest
    else a :: withoutWord options word rest

/-- Whether a command is suggested for a word: it is nearly the same, or starts with it. -/
def suggests (word name : String) : Bool :=
  let w := lowercase word
  editDistance w.toUTF8.toList name.toUTF8.toList ≤ 2 || w.toList.isPrefixOf name.toList

def suggestions (word : String) : List String := ["harvest", "config"].filter (suggests word)

/-- The command that arguments name, and the arguments without its name. -/
def find (args : List String) : Except ArgumentError (Command × List String) :=
  match words root.options args with
  | [] => .ok (root, args)
  | word :: _ =>
    match ofName? word with
    | some c => .ok (c, withoutWord root.options word args)
    | none => .error (.unknownCommand word root.path (suggestions word))

/-! ## Reading options -/

def give (o : CommandOptions) (option : CommandOption) (value : String) : Except ArgumentError CommandOptions :=
  (o.set value option).mapError (.badValue value option)

/-- Reads letters behind a dash. An option that still needs its value is handed back. What starts with `test.` is meant
for a test runner and passed over. -/
def readLetters (known : List CommandOption) : List Char → CommandOptions →
    Except ArgumentError (CommandOptions × Option (CommandOption × Char))
  | [], o => .ok (o, none)
  | 't' :: 'e' :: 's' :: 't' :: '.' :: _, o => .ok (o, none)
  | c :: rest, o =>
    match known.find? (·.letter? = some c) with
    | none => .error (.unknownLetter (String.ofList (c :: rest)))
    | some option =>
      match rest with
      | '=' :: v :: value => (give o option (String.ofList (v :: value))).map (·, none)
      | _ =>
        if option.isSwitch then
          match give o option (boolText true) with
          | .error e => .error e
          | .ok o => readLetters known rest o
        else if rest.isEmpty then .ok (o, some (option, c))
        else (give o option (String.ofList rest)).map (·, none)

def splitLong (text : List Char) : String × Option String :=
  match text.dropWhile (· ≠ '=') with
  | _ :: value => (String.ofList (text.takeWhile (· ≠ '=')), some (String.ofList value))
  | [] => (String.ofList text, none)

/-- Reads arguments: the options, and the words between them. -/
def readArguments (known : List CommandOption) : List String → CommandOptions →
    Except ArgumentError (CommandOptions × List String)
  | [], o => .ok (o, [])
  | a :: rest, o =>
    match a.toList with
    | ['-', '-'] => .ok (o, rest)
    | '-' :: '-' :: text =>
      if text.head? = some '-' || text.head? = some '=' then .error (.badForm a)
      else
        let (name, value) := splitLong text
        match known.find? (·.name = name) with
        | none => .error (.unknownOption name)
        | some option =>
          match value.or (if option.isSwitch then some (boolText true) else none) with
          | some v =>
            match give o option v with
            | .error e => .error e
            | .ok o => readArguments known rest o
          | none =>
            match rest with
            | [] => .error (.missingValue name)
            | v :: rest =>
              match give o option v with
              | .error e => .error e
              | .ok o => readArguments known rest o
    | '-' :: c :: text =>
      match readLetters known (c :: text) o with
      | .error e => .error e
      | .ok (o, none) => readArguments known rest o
      | .ok (o, some (option, letter)) =>
        match rest with
        | [] => .error (.missingLetterValue letter)
        | v :: rest =>
          match give o option v with
          | .error e => .error e
          | .ok o => readArguments known rest o
    | _ => (readArguments known rest o).map fun (o, ws) => (o, a :: ws)

def parse (c : Command) (args : List String) : Except ArgumentError (CommandOptions × List String) :=
  readArguments (c.options ++ [.help]) args .initial

end Command

/-! ## Invocations -/

/-- A command with its options and words. A plea for help is the help command. -/
structure Invocation where
  command : Command
  options : CommandOptions
  words : List String
deriving DecidableEq, Repr

namespace Invocation

/-- Checks what a command was given: `config` takes no words, and a root is named in one way only. -/
def check (i : Invocation) : Except ArgumentError Invocation :=
  match i.command, i.words with
  | .config, word :: _ => .error (.unknownCommand word Command.config.path [])
  | .harvest, _ => if i.options.roots.isSome && i.options.declaration.isSome then .error .exclusive else .ok i
  | _, _ => .ok i

def ofArguments (args : List String) : Except ArgumentError Invocation :=
  match Command.find args with
  | .error e => .error e
  | .ok (c, args) =>
    match c.parse args with
    | .error e => .error e
    | .ok (o, words) => if o.help then .ok ⟨.help, o, words⟩ else check ⟨c, o, words⟩

end Invocation

end NilFlow
