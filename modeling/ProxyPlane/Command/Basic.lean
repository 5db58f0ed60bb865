/-!
# Commands

## What is here

* `Command` and `Invocation`, what the program can be told to do.
* `OptionSpec` and `CommandSpec`, the declarations of the command line, and `CommandSpec.all`.
  Both reading a command line and the help are made from them.
-/

set_option autoImplicit false
namespace ProxyPlane

/-- What the program can be told to do. -/
inductive Command
  /-- Bring the desired state to the proxy. -/
  | apply
  /-- Show the document of the desired state. -/
  | render
  /-- Check a document in a file. -/
  | validate (file : String)
  /-- Ask whether the proxy answers. -/
  | status
  /-- Show the document that the proxy runs. -/
  | current
  /-- Take over the hosts of a file that somebody else wrote. -/
  | importHosts (file : String) (commit : Bool) (skip rename : List String)
  /-- Show the last rows of the audit. -/
  | history (limit : Nat)
  /-- Bring the desired state to the proxy whenever the records change. -/
  | watch
deriving DecidableEq, Repr, Inhabited

/-- A command, and the choices that hold for all commands. -/
structure Invocation where
  /-- The file of the settings. -/
  config : Option String
  /-- The proxy's admin endpoint, in place of that of the settings. -/
  url : Option String
  command : Command
deriving DecidableEq, Repr, Inhabited

/-- A way to call the program that is not a command: a wish for help, or a mistake. -/
inductive Refusal
  /-- Help on the program, or on one of its commands. -/
  | help (command : Option String)
  | misuse
deriving DecidableEq, Repr, Inhabited

/-! ## Declarations -/

/-- The values that an option or argument takes. -/
inductive ValueKind
  | text
  /-- A path, which is not empty. -/
  | path
  /-- A natural number of 64 bits. -/
  | count
deriving DecidableEq, Repr, Inhabited

/-- An option of the command line. -/
structure OptionSpec where
  short : Option Char
  long : String
  /-- The values that it takes, and what they are called, unless it is a switch. -/
  value : Option (ValueKind × String)
  /-- Whether it may be given more than once. -/
  repeats : Bool
  about : String
deriving DecidableEq, Repr, Inhabited

/-- A command of the command line. -/
structure CommandSpec where
  name : String
  about : String
  /-- The one argument that it takes, if it takes one. -/
  argument : Option (ValueKind × String)
  options : List OptionSpec
deriving DecidableEq, Repr, Inhabited

namespace CommandSpec

/-- The name of the program. -/
def programName : String := "proxy-sync"

/-- What the program is for. -/
def programAbout : String :=
  "Compile routing records into proxy configuration and keep the proxy in sync"

/-- The options that stand before the command. -/
def programOptions : List OptionSpec :=
  [⟨some 'c', "config", some (.path, "CONFIG"), false,
      "TOML configuration file. Defaults apply when omitted"⟩,
   ⟨some 'u', "url", some (.text, "URL"), false, "Override the admin API URL"⟩]

/-- The rows of the audit that are shown unless somebody says otherwise. -/
def defaultLimit : Nat := 20

/-- The argument that names a file. -/
def fileArgument : Option (ValueKind × String) := some (.path, "FILE")

/-- All commands. -/
def all : List CommandSpec :=
  [⟨"apply", "Compile, validate, snapshot and push the desired state", none, []⟩,
   ⟨"render", "Print the compiled document without pushing it", none, []⟩,
   ⟨"validate", "Validate a JSON configuration document", fileArgument, []⟩,
   ⟨"status", "Check that the admin API is reachable", none, []⟩,
   ⟨"current", "Print the configuration the proxy is running", none, []⟩,
   ⟨"import", "Import hosts from a legacy configuration file", fileArgument,
     [⟨none, "commit", none, false, "Write the imported hosts to the record store"⟩,
      ⟨none, "skip", some (.text, "SKIP"), true, "Domain to leave out (repeatable)"⟩,
      ⟨none, "rename", some (.text, "RENAME"), true,
        "Domain to import under \"<domain>-imported\" (repeatable)"⟩]⟩,
   ⟨"history", "Show recent apply attempts", none,
     [⟨some 'l', "limit", some (.count, "LIMIT"), false, s!"[default: {defaultLimit}]"⟩]⟩,
   ⟨"watch", "Re-apply whenever the records file changes", none, []⟩]

/-- The name of the command that shows help. -/
def helpName : String := "help"

/-- What that command is for. -/
def helpAbout : String := "Print this message or the help of the given subcommand(s)"

/-- The command with a name. -/
def find? (name : String) : Option CommandSpec := all.find? fun c => c.name == name

end CommandSpec
end ProxyPlane
