import FeatureRun.Listener.OutlineLog
import FeatureRun.Listener.ProgressLog

/-!
Command-line options of a runner. A value that is still due is settled when the next flag begins or
the arguments end, but an argument that nobody knows is refused at once.
-/

namespace FeatureRun

structure Options where
  coloring : Coloring := .auto
  deriving DecidableEq, Repr, Inhabited

namespace Options

inductive Refusal
  | unknownArgument
  | badValue
  | missingValue
  | unexpectedValue
  | repeated
  | helpWanted
  deriving DecidableEq, Repr, Inhabited

/-- How much of the option has been seen: its policy once that is settled, and a use of it whose
value is still due or not settled yet. -/
structure Reading where
  settled : Option Coloring := none
  due : Option (Option String) := none
  deriving DecidableEq, Repr, Inhabited

namespace Reading

def accept (p : Reading) (value : String) : Except Refusal Reading :=
  match p.settled, Coloring.ofText? value with
  | some _, _ => .error .repeated
  | none, some c => .ok { settled := some c }
  | none, none => .error .badValue

def settle (p : Reading) : Except Refusal Reading :=
  match p.due with
  | none => .ok p
  | some none => .error .missingValue
  | some (some value) => accept { p with due := none } value

end Reading

/-- A long argument without its dashes, parted at the first equals sign. -/
def splitLong (arg : String) : String × Option String :=
  let cs := arg.toList.drop 2
  let name := String.ofList (cs.takeWhile (· != '='))
  match cs.dropWhile (· != '=') with
  | [] => (name, none)
  | _ :: value => (name, some (String.ofList value))

inductive Argument
  | separator
  | long (name : String) (value : Option String)
  | short (flag : Char)
  | plain (value : String)
  deriving DecidableEq, Repr, Inhabited

def Argument.ofText (arg : String) : Argument :=
  match arg.toList with
  | ['-', '-'] => .separator
  | '-' :: '-' :: _ => let (name, value) := splitLong arg; .long name value
  | '-' :: flag :: _ => .short flag
  | _ => .plain arg

def readFrom (p : Reading) : List Argument → Except Refusal Reading
  | [] => p.settle
  | .separator :: rest => if rest.isEmpty then p.settle else .error .unknownArgument
  | .long "color" none :: rest => do
    let p ← p.settle
    readFrom { p with due := some none } rest
  | .long "color" (some value) :: rest => do
    let p ← p.settle
    let p ← p.accept value
    readFrom p rest
  | .long "help" none :: _ => do
    let _ ← p.settle
    .error .helpWanted
  | .long "help" (some _) :: _ => .error .unexpectedValue
  | .long _ _ :: _ => .error .unknownArgument
  | .short 'h' :: _ => do
    let _ ← p.settle
    .error .helpWanted
  | .short _ :: _ => .error .unknownArgument
  | .plain value :: rest =>
    if p.due = some none then readFrom { p with due := some (some value) } rest
    else .error .unknownArgument

def read (args : List String) : Except Refusal Options :=
  (readFrom {} (args.map Argument.ofText)).map fun p => { coloring := p.settled.getD .auto }

/-- Styles of the terminal that the options ask for. -/
def styles (supported : Bool) (o : Options) : Styles :=
  Styles.withColoring supported o.coloring (Styles.ofTerminal supported)

def progressLog (supported : Bool) (o : Options) : ProgressLog :=
  { terminal := some (o.styles supported) }

def outlineLog (supported : Bool) (o : Options) : OutlineLog :=
  { terminal := some (o.styles supported) }

end Options

end FeatureRun
