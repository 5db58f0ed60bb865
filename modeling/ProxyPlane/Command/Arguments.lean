import ProxyPlane.Command.Basic
import ProxyPlane.Text.Numeral
import ProxyPlane.Text.Pieces

/-!
# Reading a command line

Options come first, then the command, then its own options and its argument in any order.  Words are
read from left to right, and the first mistake or wish for help ends the reading.

## What is here

* `Arguments.word`, what one word of the command line means among some options.
* `Invocation.read`, the invocation of a command line.
-/

set_option autoImplicit false
namespace ProxyPlane
namespace Arguments

/-- The options given so far, by their long names; a switch has an empty value. -/
abbrev Given := List (String × String)

/-- An option with its value. -/
abbrev Choice := OptionSpec × String

/-- Whether a value is one of its kind. -/
def accepts : ValueKind → String → Bool
  | .text, _ => true
  | .path, s => !s.isEmpty
  | .count, s => (Numeral.u64? s).isSome

/-- Whether a word looks like an option: it starts with a dash and is more than that. -/
def isDashed (word : String) : Bool :=
  match word.toList with
  | '-' :: _ :: _ => true
  | _ => false

/-- The word that ends the options. -/
def isEnd (word : String) : Bool := word == "--"

/-- What one word means. -/
inductive Meaning
  /-- Options, and the words behind them. -/
  | options (chosen : List Choice) (rest : List String)
  | refused (why : Refusal)
  /-- No option. -/
  | plain

/-- What follows once an option has its value, or has not. -/
def withValue (before : List Choice) (o : OptionSpec) (attached : Option String)
    (rest : List String) : Meaning :=
  match attached, rest with
  | some v, rest => .options (before ++ [(o, v)]) rest
  | none, v :: rest => if isDashed v then .refused .misuse else .options (before ++ [(o, v)]) rest
  | none, [] => .refused .misuse

/-- A value that is attached to a letter, with or without an equals sign. -/
def attachedValue : List Char → Option String
  | [] => none
  | '=' :: v => some (String.ofList v)
  | v => some (String.ofList v)

/-- What letters behind a single dash mean. -/
def letters (topic : Option String) (options : List OptionSpec) (before : List Choice)
    (rest : List String) : List Char → Meaning
  | [] => .options before rest
  | c :: more =>
    match options.find? fun o => o.short == some c with
    | some o =>
      match o.value with
      | some _ => withValue before o (attachedValue more) rest
      | none => letters topic options (before ++ [(o, "")]) rest more
    | none => .refused (if c = 'h' then .help topic else .misuse)

/-- What a name behind two dashes means. -/
def longName (topic : Option String) (options : List OptionSpec) (body : List Char)
    (rest : List String) : Meaning :=
  let (name, value) := match cutFirst? '=' body with
    | some (name, value) => (String.ofList name, some (String.ofList value))
    | none => (String.ofList body, none)
  match options.find? fun o => o.long == name with
  | some o =>
    match o.value, value with
    | some _, value => withValue [] o value rest
    | none, none => .options [(o, "")] rest
    | none, some _ => .refused .misuse
  | none => .refused (if name = "help" ∧ value.isNone then .help topic else .misuse)

/-- What a word means among some options; `topic` is what help is about here. -/
def word (topic : Option String) (options : List OptionSpec) (w : String) (rest : List String) :
    Meaning :=
  match w.toList with
  | '-' :: '-' :: body => longName topic options body rest
  | ['-'] => .plain
  | '-' :: cs => letters topic options [] rest cs
  | _ => .plain

/-- The options given so far with one more, if its value fits and it may still be given. -/
def give (given : Given) (c : Choice) : Except Refusal Given :=
  if !c.1.repeats && given.any (fun g => g.1 == c.1.long) then .error .misuse
  else
    match c.1.value with
    | some (kind, _) =>
      if accepts kind c.2 then .ok (given ++ [(c.1.long, c.2)]) else .error .misuse
    | none => .ok (given ++ [(c.1.long, c.2)])

/-- All values given for an option. -/
def values (given : Given) (long : String) : List String :=
  (given.filter fun g => g.1 == long).map (·.2)

/-! ## The words of a command -/

/-- The argument given so far with one more word, if the command takes it. -/
def giveArgument (spec : CommandSpec) (argument : Option String) (w : String) :
    Except Refusal (Option String) :=
  match spec.argument, argument with
  | some (kind, _), none => if accepts kind w then .ok (some w) else .error .misuse
  | _, _ => .error .misuse

/-- The words behind the end of the options, which are arguments whatever they look like. -/
def onlyArguments (spec : CommandSpec) (argument : Option String) :
    List String → Except Refusal (Option String)
  | [] => .ok argument
  | w :: rest => do onlyArguments spec (← giveArgument spec argument w) rest

/-- The options and the argument of a command; `fuel` bounds the number of words. -/
def ofCommand (spec : CommandSpec) : Nat → Given → Option String → List String →
    Except Refusal (Given × Option String)
  | 0, _, _, _ => .error .misuse
  | _ + 1, given, argument, [] => .ok (given, argument)
  | fuel + 1, given, argument, w :: rest =>
    if isEnd w then do return (given, ← onlyArguments spec argument rest)
    else
      match word (some spec.name) spec.options w rest with
      | .refused why => .error why
      | .options chosen rest => do ofCommand spec fuel (← chosen.foldlM give given) argument rest
      | .plain => do ofCommand spec fuel given (← giveArgument spec argument w) rest

/-- The command that a name, options and an argument make. -/
def command (spec : CommandSpec) (given : Given) (argument : Option String) :
    Except Refusal Command :=
  let withFile (f : String → Command) : Except Refusal Command :=
    match argument with
    | some file => .ok (f file)
    | none => .error .misuse
  match spec.name with
  | "apply" => .ok .apply
  | "render" => .ok .render
  | "validate" => withFile .validate
  | "status" => .ok .status
  | "current" => .ok .current
  | "import" =>
    withFile fun file =>
      .importHosts file (!(values given "commit").isEmpty) (values given "skip")
        (values given "rename")
  | "history" =>
    .ok (.history (((values given "limit").head?.bind Numeral.u64?).getD CommandSpec.defaultLimit))
  | "watch" => .ok .watch
  | _ => .error .misuse

/-- The command of the words behind its name. -/
def readCommand (spec : CommandSpec) (rest : List String) : Except Refusal Command := do
  let (given, argument) ← ofCommand spec (rest.length + 1) [] none rest
  command spec given argument

/-! ## The words before the command -/

/-- What is asked of the command that shows help. -/
def helpOn : List String → Refusal
  | [] => .help none
  | [name] =>
    if name == CommandSpec.helpName || (CommandSpec.find? name).isSome then .help (some name)
    else .misuse
  | _ => .misuse

/-- The options before the command, and the command.  The value of an option is looked at when the
next option is met, or when the command has been read; `last` is the one that waits. -/
def ofProgram : Nat → Given → List Choice → List String → Except Refusal (Given × Command)
  | 0, _, _, _ => .error .misuse
  | _ + 1, _, _, [] => .error .misuse
  | fuel + 1, given, last, w :: rest =>
    if isEnd w then .error .misuse
    else
      match word none CommandSpec.programOptions w rest with
      | .refused why => do
        let _ ← last.foldlM give given
        .error why
      | .options chosen rest => do ofProgram fuel (← last.foldlM give given) chosen rest
      | .plain =>
        if w == CommandSpec.helpName then .error (helpOn rest)
        else
          match CommandSpec.find? w with
          | none => .error .misuse
          | some spec => do
            let c ← readCommand spec rest
            return (← last.foldlM give given, c)

end Arguments

/-- The invocation of a command line. -/
def Invocation.read (arguments : List String) : Except Refusal Invocation := do
  let (given, command) ← Arguments.ofProgram (arguments.length + 1) [] [] arguments
  return ⟨(Arguments.values given "config").head?, (Arguments.values given "url").head?, command⟩

end ProxyPlane
