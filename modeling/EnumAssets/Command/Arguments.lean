/-
# The command line

Arguments are read from left to right.  An option with a value takes it from behind an equals sign,
for a short option also from the same argument without one, or else from the next argument, which
must not look like an option.  No option may be given twice, no value may be empty, and after `--`
all arguments are assets.  Whatever comes first, a request for help or something that cannot be
read, decides.
-/
import EnumAssets.Config

namespace EnumAssets.Command

/-! ## 1. Requests -/

/-- The form of the results on the screen. -/
inductive ReportForm where
  | text
  | json
deriving DecidableEq, Repr

/-- What a run is asked to do. -/
structure Arguments where
  config : Path := .ofText Config.defaultFile
  assets : List Path := []
  check : Bool := false
  report : ReportForm := .text
  verbose : Bool := false
deriving DecidableEq, Repr

/-- What the command line asks for. -/
inductive Request where
  | run (arguments : Arguments)
  | shortHelp
  | longHelp
  | version
  | unreadable
deriving DecidableEq, Repr

/-! ## 2. What has been read so far -/

/-- The options that take a value. -/
inductive Valued where
  | config
  | report
deriving DecidableEq, Repr

/-- What has been read so far; an option that has not been given has no value yet. -/
structure Seen where
  config : Option String := none
  report : Option ReportForm := none
  check : Bool := false
  verbose : Bool := false
  assets : List String := []
deriving DecidableEq, Repr

namespace Seen

/-- The form of a report by its name. -/
def form? (s : String) : Option ReportForm :=
  if s = "text" then some .text
  else if s = "json" then some .json
  else none

/-- Takes in the value of an option, unless it was given before or the value is not allowed. -/
def setValue (seen : Seen) (value : String) : Valued → Option Seen
  | .config =>
    if seen.config.isSome || value.isEmpty then none else some { seen with config := some value }
  | .report =>
    if seen.report.isSome then none
    else (form? value).map fun f => { seen with report := some f }

/-- Takes in the request only to check, unless it was given before. -/
def setCheck (seen : Seen) : Option Seen :=
  if seen.check then none else some { seen with check := true }

/-- Takes in the request for more records, unless it was given before. -/
def setVerbose (seen : Seen) : Option Seen :=
  if seen.verbose then none else some { seen with verbose := true }

/-- Takes in an asset, unless it is empty. -/
def addAsset (seen : Seen) (asset : String) : Option Seen :=
  if asset.isEmpty then none else some { seen with assets := seen.assets ++ [asset] }

/-- The arguments, with the defaults for what was not given. -/
def arguments (seen : Seen) : Arguments where
  config := .ofText (seen.config.getD Config.defaultFile)
  assets := seen.assets.map .ofText
  check := seen.check
  report := seen.report.getD .text
  verbose := seen.verbose

end Seen

/-! ## 3. One argument -/

/-- What one argument comes to. -/
inductive Step where
  | next (seen : Seen)
  | needsValue (seen : Seen) (option : Valued)
  | stop (request : Request)

/-- The step of a change that may not be allowed. -/
def Step.ofOption : Option Seen → Step
  | some seen => .next seen
  | none => .stop .unreadable

/-- An argument of two hyphens: the name of an option and perhaps its value. -/
def readLong (seen : Seen) (name : String) (value : Option String) : Step :=
  let valued (option : Valued) : Step :=
    match value with
    | some v => .ofOption (seen.setValue v option)
    | none => .needsValue seen option
  match name, value with
  | "config", _ => valued .config
  | "report", _ => valued .report
  | "check", none => .ofOption seen.setCheck
  | "verbose", none => .ofOption seen.setVerbose
  | "help", none => .stop .longHelp
  | "version", none => .stop .version
  | _, _ => .stop .unreadable

/-- An argument of one hyphen: the letters of options, the value of one behind it. -/
def readShort (seen : Seen) : List Char → Step
  | [] => .next seen
  | 'v' :: rest =>
    match seen.setVerbose with
    | some seen => readShort seen rest
    | none => .stop .unreadable
  | 'h' :: _ => .stop .shortHelp
  | 'V' :: _ => .stop .version
  | ['c'] => .needsValue seen .config
  | 'c' :: '=' :: value => .ofOption (seen.setValue (String.ofList value) .config)
  | 'c' :: value => .ofOption (seen.setValue (String.ofList value) .config)
  | _ :: _ => .stop .unreadable

/-- A single argument. -/
def readOne (seen : Seen) (argument : String) : Step :=
  match argument.toList with
  | '-' :: '-' :: rest =>
    let name := rest.takeWhile (· != '=')
    let value :=
      match rest.drop name.length with
      | [] => none
      | _ :: more => some (String.ofList more)
    readLong seen (String.ofList name) value
  | '-' :: c :: rest => readShort seen (c :: rest)
  | _ => .ofOption (seen.addAsset argument)

/-! ## 4. All arguments -/

/-- Whether an argument looks like an option, so that it is no value of the option before it. -/
def looksLikeOption (argument : String) : Bool :=
  match argument.toList with
  | '-' :: _ :: _ => true
  | _ => false

/-- Takes in all arguments as assets. -/
def readAssets (seen : Seen) : List String → Request
  | [] => .run seen.arguments
  | a :: rest =>
    match seen.addAsset a with
    | some seen => readAssets seen rest
    | none => .unreadable

/-- Reads the arguments behind what has been read so far. -/
def readFrom (seen : Seen) : List String → Request
  | [] => .run seen.arguments
  | a :: rest =>
    if a = "--" then readAssets seen rest
    else
      match readOne seen a with
      | .next seen => readFrom seen rest
      | .stop request => request
      | .needsValue seen option =>
        match rest with
        | [] => .unreadable
        | value :: rest =>
          if looksLikeOption value then .unreadable
          else
            match seen.setValue value option with
            | some seen => readFrom seen rest
            | none => .unreadable

/-- What a command line asks for. -/
def Request.read (arguments : List String) : Request :=
  readFrom {} arguments

end EnumAssets.Command
