/-
# Log records

A record has a level, a message, and fields with a name and a text.  A threshold decides which
levels are kept.  In a message the characters that could steer a terminal are written as their
number; fields are kept as they are.
-/
import EnumAssets.Text.Quoted

namespace EnumAssets.Command

/-! ## 1. Levels and thresholds -/

/-- The weight of a record. -/
inductive Level where
  | error
  | info
  | debug
deriving DecidableEq, Repr

/-- Which records are kept. -/
inductive Threshold where
  | off
  | error
  | warn
  | info
  | debug
  | trace
deriving DecidableEq, Repr

/-- The name of a level in front of a record. -/
def Level.label : Level → String
  | .error => "ERROR"
  | .info => "INFO"
  | .debug => "DEBUG"

/-- Whether a record of a level is kept. -/
def Threshold.keeps : Threshold → Level → Bool
  | .off, _ => false
  | .error, l | .warn, l => l == .error
  | .info, l => l != .debug
  | .debug, _ | .trace, _ => true

/-- The threshold of a name. -/
def Threshold.ofName? (s : String) : Option Threshold :=
  [("off", .off), ("error", .error), ("warn", .warn), ("info", .info), ("debug", .debug),
    ("trace", .trace)].lookup s

/-- The threshold of a run: the one that is asked for from outside, or else one that depends on
whether more records are wanted. -/
def Threshold.choose (asked : Option Threshold) (verbose : Bool) : Threshold :=
  asked.getD (if verbose then .debug else .info)

/-! ## 2. Records -/

/-- A log record. -/
structure Record where
  level : Level
  message : String
  fields : List (String × String) := []
deriving DecidableEq, Repr

/-- How a character of a message is written. -/
def visible (c : Char) : List Char :=
  match c with
  | '\x07' => ['\\', 'x', '0', '7']
  | '\x08' => ['\\', 'x', '0', '8']
  | '\x0c' => ['\\', 'x', '0', 'c']
  | '\x1b' => ['\\', 'x', '1', 'b']
  | '\x7f' => ['\\', 'x', '7', 'f']
  | c =>
    if 0x80 ≤ c.toNat ∧ c.toNat ≤ 0x9F then
      ['\\', 'u', '\x7b'] ++ Quoted.hexDigits c.toNat ++ ['\x7d']
    else [c]

/-- A record on one line, unless its texts hold line ends. -/
def Record.text (r : Record) : String :=
  r.level.label ++ " " ++ String.ofList (r.message.toList.flatMap visible) ++
    String.join (r.fields.map fun (name, value) => " " ++ name ++ "=" ++ value)

end EnumAssets.Command
