import ProxyPlane.Command.Basic

/-!
# Help

## What is here

* `CommandSpec.helpText`, what is shown to somebody who asks for help.
-/

set_option autoImplicit false
namespace ProxyPlane
namespace CommandSpec

/-- A text with blanks behind it up to a width. -/
def padTo (width : Nat) (s : String) : String :=
  s ++ String.ofList (List.replicate (width - s.length) ' ')

/-- A table of two columns, indented. -/
def table (rows : List (String × String)) : List String :=
  let width := (rows.map fun r => r.1.length).foldl max 0
  rows.map fun r => "  " ++ padTo width r.1 ++ "  " ++ r.2

/-- How an option is written, with room for a letter in front. -/
def optionText (o : OptionSpec) : String :=
  let letter := match o.short with
    | some c => String.ofList ['-', c, ',', ' ']
    | none => "    "
  let value := match o.value with
    | some (_, name) => " <" ++ name ++ ">"
    | none => ""
  letter ++ "--" ++ o.long ++ value

/-- The option that all commands have. -/
def helpOption : OptionSpec := ⟨some 'h', "help", none, false, "Print help"⟩

/-- A paragraph with a heading. -/
def paragraph (heading : String) (rows : List (String × String)) : List String :=
  if rows.isEmpty then [] else "" :: (heading ++ ":") :: table rows

/-- The options of a table of help. -/
def optionRows (options : List OptionSpec) : List (String × String) :=
  (options ++ [helpOption]).map fun o => (optionText o, o.about)

/-- The line that shows how something is called. -/
def usage (parts : List String) : List String :=
  ["", "Usage: " ++ " ".intercalate (programName :: parts)]

/-- The word for options in a line of usage, if there are any. -/
def optionsWord (options : List OptionSpec) : List String :=
  if options.isEmpty then [] else ["[OPTIONS]"]

/-- The help on the program. -/
def programHelp : List String :=
  [programAbout] ++ usage (optionsWord programOptions ++ ["<COMMAND>"]) ++
  paragraph "Commands" ((all.map fun c => (c.name, c.about)) ++ [(helpName, helpAbout)]) ++
  paragraph "Options" (optionRows programOptions)

/-- The help on a command. -/
def help (c : CommandSpec) : List String :=
  let argument := c.argument.toList.map fun a => "<" ++ a.2 ++ ">"
  [c.about] ++ usage (c.name :: optionsWord c.options ++ argument) ++
  paragraph "Arguments" (argument.map fun a => (a, "")) ++
  paragraph "Options" (optionRows c.options)

/-- The help on the command that shows help. -/
def helpOnHelp : List String :=
  [helpAbout] ++ usage [helpName, "[COMMAND]..."] ++
  paragraph "Arguments" [("[COMMAND]...", "Print help for the subcommand(s)")]

/-- What is shown to somebody who asks for help, on the program or on a command. -/
def helpText : Option String → List String
  | none => programHelp
  | some name =>
    match find? name with
    | some c => c.help
    | none => helpOnHelp

end CommandSpec
end ProxyPlane
