/-
Arguments of a command: long options with values, flags, and the options that every command has. Arguments are read from
left to right and the first fault is reported; that a required option is missing is seen at the end.
-/
import SheetPost.Text.Blank

namespace SheetPost.Command

open SheetPost.Text

/-! ## Options -/

/-- what an option does -/
inductive Action where
  /-- it has a value, shown under a name; a path must not be empty -/
  | value (shown : String) (isPath : Bool)
  | flag
  /-- it asks for information and ends the command -/
  | inform
deriving DecidableEq, Repr

/-- an option -/
structure Opt where
  name : String
  /-- a letter that stands for the option -/
  short : Option Char
  action : Action
  required : Bool
deriving DecidableEq, Repr

/-- the option as a complaint shows it -/
def Opt.shown (o : Opt) : String :=
  match o.action with
  | .value shown _ => "--" ++ o.name ++ " <" ++ shown ++ ">"
  | _ => "--" ++ o.name

/-- the option for the path of the configuration -/
def configOption : Opt := ⟨"config", none, .value "CONFIG" true, false⟩

/-- the option that shows how a command is used -/
def helpOption : Opt := ⟨"help", some 'h', .inform, false⟩

/-- the option that shows the version of a command -/
def versionOption : Opt := ⟨"version", some 'V', .inform, false⟩

/-! ## Faults -/

/-- what is wrong with arguments -/
inductive UsageError where
  | unexpected (argument : String)
  | noValue (shown : String)
  | repeated (shown : String)
  | needlessValue (value shown : String)
  | missing (shown : List String)
deriving DecidableEq, Repr

/-- the wording of a fault -/
def UsageError.message : UsageError → String
  | .unexpected argument => "unexpected argument '" ++ argument ++ "' found"
  | .noValue shown => "a value is required for '" ++ shown ++ "' but none was supplied"
  | .repeated shown => "the argument '" ++ shown ++ "' cannot be used multiple times"
  | .needlessValue value shown =>
    "unexpected value '" ++ value ++ "' for '" ++ shown ++ "' found; no more were accepted"
  | .missing shown =>
    "the following required arguments were not provided:" ++ String.join (shown.map fun s => "\n  " ++ s)

/-! ## Reading -/

/-- the options read so far with their values; a flag has an empty one -/
abbrev Given := List (String × String)

/-- what reading arguments comes to -/
inductive Reading where
  | given (options : Given)
  /-- an option asked for information -/
  | inform (name : String)
  | wrong (fault : UsageError)
deriving DecidableEq, Repr

/-- an option with its value after those before it -/
def take (o : Opt) (value : String) (given : Given) : Except UsageError Given :=
  if (given.lookup o.name).isSome then .error (.repeated o.shown)
  else
    match o.action with
    | .value _ true => if value.isEmpty then .error (.noValue o.shown) else .ok (given ++ [(o.name, value)])
    | _ => .ok (given ++ [(o.name, value)])

/-- the required options that are not given -/
def missing (options : List Opt) (given : Given) : List String :=
  (options.filter fun o => o.required && (given.lookup o.name).isNone).map Opt.shown

/-- an argument by its form -/
inductive Form where
  /-- two hyphens alone: no options follow -/
  | rest
  | long (name : String) (value : Option String)
  | short (letters : List Char)
  | plain (value : String)
deriving DecidableEq, Repr

/-- the form of an argument -/
def Form.ofArgument (argument : String) : Form :=
  match argument.toList with
  | ['-', '-'] => .rest
  | '-' :: '-' :: r =>
    match cutAt '=' r with
    | some (name, value) => .long (String.ofList name) (some (String.ofList value))
    | none => .long (String.ofList r) none
  | '-' :: c :: r => .short (c :: r)
  | _ => .plain argument

/-- what arguments come to at their end -/
def finish (options : List Opt) (given : Given) (waiting : Option Opt) : Reading :=
  match waiting with
  | some o => .wrong (.noValue o.shown)
  | none =>
    match missing options given with
    | [] => .given given
    | shown => .wrong (.missing shown)

/-- the reading of arguments, given an option that waits for its value -/
def readFrom (options : List Opt) (given : Given) (waiting : Option Opt) : List String → Reading
  | [] => finish options given waiting
  | argument :: more =>
    match Form.ofArgument argument, waiting with
    | .plain value, some o =>
      match take o value given with
      | .ok given => readFrom options given none more
      | .error fault => .wrong fault
    | .plain value, none => .wrong (.unexpected value)
    | .rest, _ =>
      match more with
      | [] => finish options given waiting
      | next :: _ => .wrong (.unexpected next)
    | .long name value, _ =>
      match options.find? (·.name == name) with
      | none => .wrong (.unexpected ("--" ++ name))
      | some o =>
        match o.action, value, waiting with
        | .flag, some v, _ => .wrong (.needlessValue v o.shown)
        | .inform, some v, _ => .wrong (.needlessValue v o.shown)
        | _, _, some before => .wrong (.noValue before.shown)
        | .inform, none, none => .inform o.name
        | .flag, none, none =>
          match take o "" given with
          | .ok given => readFrom options given none more
          | .error fault => .wrong fault
        | .value .., none, none => readFrom options given (some o) more
        | .value .., some v, none =>
          match take o v given with
          | .ok given => readFrom options given none more
          | .error fault => .wrong fault
    | .short [], _ => .wrong (.unexpected argument)
    | .short (c :: _), _ =>
      match options.find? (·.short == some c), waiting with
      | none, _ => .wrong (.unexpected (String.ofList ['-', c]))
      | some _, some before => .wrong (.noValue before.shown)
      | some o, none => .inform o.name

/-- the reading of all arguments -/
def read (options : List Opt) (arguments : List String) : Reading := readFrom options [] none arguments

end SheetPost.Command
