import CommitRisk.Text.Numeral

/-!
# Reading Arguments

What options a command has, and how a list of arguments is read along them.

An option is written with its full name and two dashes, with its value behind an
equals sign or as the next argument. The next argument is the value unless it
begins with a dash; a number with a minus may follow an option that says so. An
option may be given once. The value of an option is looked at when the next
option comes up or the arguments are at their end, so a fault in a later
argument can be reported before one in an earlier value.

A command's options end where the name of a subcommand stands in the place of an
option.

## Main definitions

* `OptionSpec`, `CommandSpec`: The options of a command.
* `UsageError`: What is wrong with some arguments, or what is asked for instead.
* `Given`: The options read so far.
* `readOptions`: The options at the front of some arguments, and the subcommand
  after them.
-/

namespace CommitRisk

/-- What is wrong with some arguments, or what they ask for instead of a run. -/
inductive UsageError where
  /-- The help on a command, at length or in short. -/
  | help (command : String) (long : Bool)
  | version
  | helpForMissing
  | missingSubcommand
  | invalidSubcommand
  | unknownArgument
  | missingRequired
  | invalidValue
  | malformedValue
  | conflict
  | unneededValue
deriving DecidableEq, Repr

/-- What the value of an option may be. -/
inductive ValueKind where
  /-- Any text. -/
  | text
  /-- A text that is not empty. -/
  | path
  /-- One of some words, each with what it means. -/
  | oneOf (words : List (String × String))
  /-- A number. -/
  | number
deriving DecidableEq, Repr

/-- An option: a switch if it has no kind of value. -/
structure OptionSpec where
  name : String
  kind : Option ValueKind
  /-- A number with a minus may follow as the next argument. -/
  allowsNegative : Bool
  required : Bool
  /-- The value of an option that is not given. -/
  byDefault : Option String
  /-- What the value is called in the help text. -/
  valueName : String
  about : String
deriving DecidableEq, Repr

/-- A command: its name, its options, its subcommands, and whether it tells its
    version. -/
structure CommandSpec where
  name : String
  about : String
  options : List OptionSpec
  subcommands : List String
  tellsVersion : Bool

/-- A value is of a kind. -/
def ValueKind.check (kind : ValueKind) (value : String) : Except UsageError Unit :=
  match kind with
  | .text => .ok ()
  | .path => if value.isEmpty then .error .invalidValue else .ok ()
  | .oneOf words => if (words.lookup value).isSome then .ok () else .error .invalidValue
  | .number => if (readFloat value.toList).isSome then .ok () else .error .malformedValue

/-- The options read so far with their values, and the one whose value has not
    been looked at or has not come yet. -/
structure Given where
  values : List (String × String)
  pending : Option (OptionSpec × Option String)

namespace Given

/-- Nothing has been read. -/
def none : Given :=
  ⟨[], Option.none⟩

/-- The value of an option. -/
def get? (g : Given) (name : String) : Option String :=
  g.values.lookup name

/-- The option was given. -/
def has (g : Given) (name : String) : Bool :=
  (g.get? name).isSome

/-- Takes in an option with its value, which has to be of its kind. An option
    may come only once. -/
def add (g : Given) (spec : OptionSpec) (value : String) : Except UsageError Given :=
  let added : Given := { g with values := g.values ++ [(spec.name, value)] }
  if g.has spec.name then .error .conflict
  else match spec.kind with
    | some kind => (kind.check value).map fun _ => added
    | Option.none => .ok added

/-- Takes in the option whose value has not been looked at. -/
def settle (g : Given) : Except UsageError Given :=
  match g.pending with
  | Option.none => .ok g
  | some (_, Option.none) => .error .invalidValue
  | some (spec, some value) => { g with pending := Option.none }.add spec value

/-- The option that the next argument is the value of. -/
def awaiting (g : Given) : Option OptionSpec :=
  match g.pending with
  | some (spec, Option.none) => some spec
  | _ => Option.none

end Given

/-- The letter in front of an exponent. -/
def isExponentMark (c : Char) : Bool :=
  c == 'e' || c == 'E'

/-- A number as it may follow an option with a minus in front: digits, with a
    point and an exponent after the first one, and no sign in the exponent. -/
def isPlainNumber (text : List Char) : Bool :=
  let isMantissa := match text.takeWhile fun c => !isExponentMark c with
    | [] => text.isEmpty
    | first :: rest =>
        first.isDigit && (rest.filter (· == '.')).length ≤ 1
          && rest.all fun c => c.isDigit || c == '.'
  let isExponent := match text.dropWhile fun c => !isExponentMark c with
    | [] => true
    | _ :: digits => !digits.isEmpty && digits.all Char.isDigit
  isMantissa && isExponent

/-- What the subcommand that asks for help is called. -/
def helpCommand : String := "help"

/-- What asking for help on some subcommand comes to. -/
def CommandSpec.helpOn (c : CommandSpec) : List String → UsageError
  | [] => .help c.name true
  | name :: rest =>
      if c.subcommands.contains name || name == helpCommand then
        if rest.isEmpty then .help name true else .invalidSubcommand
      else .invalidSubcommand

/-- An argument that is no option and no value. -/
def CommandSpec.unexpected (c : CommandSpec) (afterDashes : Bool) (arg : String) : UsageError :=
  if c.subcommands.isEmpty then .unknownArgument
  else if afterDashes && (c.subcommands.contains arg || arg == helpCommand) then .unknownArgument
  else .invalidSubcommand

/-- Reads an option by its full name, with the value behind its equals sign. -/
def CommandSpec.longOption (c : CommandSpec) (g : Given) (name : String)
    (attached : Option String) : Except UsageError Given :=
  match c.options.find? fun spec => spec.name == name with
  | some spec =>
      match spec.kind, attached with
      | some _, some value => g.settle.bind fun g => g.add spec value
      | some _, none => g.settle.map fun g => { g with pending := some (spec, none) }
      | none, some _ => .error .unneededValue
      | none, none => g.settle.bind fun g => g.add spec ""
  | none =>
      let asked : Option UsageError :=
        if name == "help" then some (.help c.name true)
        else if name == "version" && c.tellsVersion then some .version
        else none
      match asked with
      | none => .error .unknownArgument
      | some outcome =>
          if attached.isSome then .error .unneededValue
          else g.settle.bind fun _ => .error outcome

/-- Reads an argument of single letters, of which only the first one counts. -/
def CommandSpec.shortOption (c : CommandSpec) (g : Given) (letter : Char) :
    Except UsageError Given :=
  if letter == 'h' then g.settle.bind fun _ => .error (.help c.name false)
  else if letter == 'V' && c.tellsVersion then g.settle.bind fun _ => .error .version
  else .error .unknownArgument

/-- An argument by its first characters. -/
inductive ArgumentShape where
  | dashes
  | long (name : String) (attached : Option String)
  | short (letters : List Char)
  | plain

/-- The shape of an argument. -/
def ArgumentShape.of (arg : String) : ArgumentShape :=
  match arg.toList with
  | ['-', '-'] => .dashes
  | '-' :: '-' :: rest =>
      let name := rest.takeWhile fun c => c != '='
      match rest.dropWhile fun c => c != '=' with
      | [] => .long (String.ofList name) none
      | _ :: value => .long (String.ofList name) (some (String.ofList value))
  | '-' :: letter :: rest => .short (letter :: rest)
  | _ => .plain

/-- The options at the front of some arguments, and the subcommand after them
    with its own arguments. After two dashes alone there are no options. -/
def readOptions (c : CommandSpec) : Bool → Given → List String →
    Except UsageError (Given × Option (String × List String))
  | _, g, [] => .ok (g, none)
  | true, _, arg :: _ => .error (c.unexpected true arg)
  | false, g, arg :: rest =>
      let value (_ : Unit) : Except UsageError Given :=
        match g.awaiting with
        | some spec => .ok { g with pending := some (spec, some arg) }
        | none => .error (c.unexpected false arg)
      if g.awaiting.isNone && c.subcommands.contains arg then .ok (g, some (arg, rest))
      else if g.awaiting.isNone && !c.subcommands.isEmpty && arg == helpCommand then
        .error (c.helpOn rest)
      else match ArgumentShape.of arg with
        | .dashes => readOptions c true g rest
        | .long name attached =>
            (c.longOption g name attached).bind fun g => readOptions c false g rest
        | .short letters =>
            if (g.awaiting.any OptionSpec.allowsNegative) && isPlainNumber letters then
              (value ()).bind fun g => readOptions c false g rest
            else (c.shortOption g (letters.headD '-')).bind fun g => readOptions c false g rest
        | .plain => (value ()).bind fun g => readOptions c false g rest

/-- The first option that has to be given and was not. -/
def CommandSpec.checkRequired (c : CommandSpec) (g : Given) : Except UsageError Unit :=
  if c.options.any fun spec => spec.required && !g.has spec.name then .error .missingRequired
  else .ok ()

end CommitRisk
