import CommitRisk.CommandLine.Basic

/-!
# Help

The text that explains a command: what it is for, how it is called, its
subcommands and its options. In the short form an option takes one line, with
notes in brackets about its default and the words it takes. In the long form,
which only a command with words to explain has, an option takes a paragraph.

## Main definitions

* `HelpItem`: What there is to say about an option.
* `HelpItem.line`, `HelpItem.paragraph`: The two forms.
* `CommandSpec.helpText`: The help on a command.
* `helpText`: The help that some arguments ask for.
-/

namespace CommitRisk

/-- A text filled up with spaces to some width. -/
def padded (width : Nat) (s : String) : String :=
  s ++ String.ofList (List.replicate (width - s.length) ' ')

/-- What there is to say about an option: its letter, how it is called, what it
    is for, its default and the words it takes. -/
structure HelpItem where
  letter : Option Char
  call : String
  about : String
  byDefault : Option String
  words : List (String × String)

/-- An option with the name of its value. -/
def OptionSpec.call (o : OptionSpec) : String :=
  if o.kind.isSome then s!"--{o.name} <{o.valueName}>" else s!"--{o.name}"

/-- What there is to say about an option. -/
def OptionSpec.helpItem (o : OptionSpec) : HelpItem where
  letter := none
  call := o.call
  about := o.about
  byDefault := o.byDefault
  words := match o.kind with
    | some (.oneOf words) => words
    | _ => []

namespace HelpItem

/-- The option with its letter, or with room for one. -/
def head (i : HelpItem) : String :=
  match i.letter with
  | some letter => s!"  -{letter}, {i.call}"
  | none => s!"      {i.call}"

/-- The note on the default. -/
def defaultNote (i : HelpItem) : List String :=
  (i.byDefault.map fun d => s!"[default: {d}]").toList

/-- The note on the words. -/
def wordsNote (i : HelpItem) : List String :=
  if i.words.isEmpty then []
  else ["[possible values: " ++ ", ".intercalate (i.words.map Prod.fst) ++ "]"]

/-- The short form, with all that is said about an option in one column. -/
def line (width : Nat) (i : HelpItem) : String :=
  let notes := i.defaultNote ++ i.wordsNote
  padded (width + 2) i.head ++ " ".intercalate (i.about :: notes) ++ "\n"

/-- The white space in front of what is said about an option. -/
def margin : String := "          "

/-- The list of the words with what they mean. -/
def wordList (words : List (String × String)) : List String :=
  let width := (words.map fun w => w.1.length).foldl max 0
  words.map fun (word, about) => margin ++ "- " ++ padded (width + 2) (word ++ ":") ++ about

/-- The long form. -/
def paragraph (i : HelpItem) : String :=
  let words := if i.words.isEmpty then []
    else ["", margin ++ "Possible values:"] ++ wordList i.words
  let byDefault := i.defaultNote.flatMap fun note => [margin, margin ++ note]
  "\n".intercalate ([i.head, margin ++ i.about] ++ words ++ byDefault) ++ "\n"

end HelpItem

namespace CommandSpec

/-- The long form differs from the short one. -/
def hasLongHelp (c : CommandSpec) : Bool :=
  c.options.any fun o => !o.helpItem.words.isEmpty

/-- What there is to say about all options, those for help and for the version
    included. -/
def helpItems (c : CommandSpec) (long : Bool) : List HelpItem :=
  let help :=
    if !c.hasLongHelp then "Print help"
    else if long then "Print help (see a summary with '-h')"
    else "Print help (see more with '--help')"
  c.options.map OptionSpec.helpItem ++ [⟨some 'h', "--help", help, none, []⟩]
    ++ if c.tellsVersion then [⟨some 'V', "--version", "Print version", none, []⟩] else []

/-- How the command is called: options that may be left out are summed up, and
    those that may not are named. -/
def usageLine (c : CommandSpec) : String :=
  let call := if c.name == mainSpec.name then [mainSpec.name] else [mainSpec.name, c.name]
  let summary := if c.options.any fun o => !o.required then ["[OPTIONS]"] else []
  let named := (c.options.filter fun o => o.required).map OptionSpec.call
  let subcommand := if c.subcommands.isEmpty then [] else ["<COMMAND>"]
  "Usage: " ++ " ".intercalate (call ++ summary ++ named ++ subcommand) ++ "\n"

/-- The options of a command, one under the other. -/
def optionsText (c : CommandSpec) (long : Bool) : String :=
  let items := c.helpItems long
  let width := (items.map fun i => i.head.length).foldl max 0
  if long then "\n".intercalate (items.map HelpItem.paragraph)
  else String.join (items.map (HelpItem.line width))

/-- The help on a command, with a list of its subcommands. -/
def helpText (c : CommandSpec) (long : Bool) (subcommands : List (String × String)) : String :=
  let width := (subcommands.map fun s => s.1.length).foldl max 0
  let line (s : String × String) : String := "  " ++ padded (width + 2) s.1 ++ s.2 ++ "\n"
  let commands := if subcommands.isEmpty then ""
    else "Commands:\n" ++ String.join (subcommands.map line) ++ "\n"
  c.about ++ "\n\n" ++ c.usageLine ++ "\n" ++ commands ++ "Options:\n"
    ++ c.optionsText (long && c.hasLongHelp)

end CommandSpec

/-- What the subcommand that asks for help is for. -/
def helpAbout : String :=
  "Print this message or the help of the given subcommand(s)"

/-- The help that some arguments ask for. -/
def helpText (command : String) (long : Bool) : String :=
  if command == buildSpec.name then buildSpec.helpText long []
  else if command == predictSpec.name then predictSpec.helpText long []
  else if command == helpCommand then
    helpAbout ++ "\n\nUsage: " ++ mainSpec.name ++ " help [COMMAND]...\n\n"
      ++ "Arguments:\n  [COMMAND]...  Print help for the subcommand(s)\n"
  else
    mainSpec.helpText long (([buildSpec, predictSpec].map fun c => (c.name, c.about))
      ++ [(helpCommand, helpAbout)])

end CommitRisk
