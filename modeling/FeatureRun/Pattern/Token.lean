import FeatureRun.Pattern.CharSet

/-!
The tokens of a written pattern. Scanning takes one token at a time off the front of the text, so as
many rounds as the text has characters are enough.
-/

namespace FeatureRun.Pattern

inductive Flag
  | ignoreCase
  | multiLine
  | dotAll
  deriving DecidableEq, Repr, Inhabited

structure FlagChange where
  on : List Flag := []
  off : List Flag := []
  deriving DecidableEq, Repr, Inhabited

inductive Token
  | set (s : CharSet)
  | dot
  | caret
  | dollar
  | wordEdge (negated : Bool)
  | textEdge (atEnd : Bool)
  | openCapture
  | openPlain (change : FlagChange)
  | change (c : FlagChange)
  | close
  | bar
  | times (min : Nat) (max : Option Nat)
  | question
  deriving Repr, Inhabited

namespace Token

def hexDigit? (c : Char) : Option Nat :=
  if '0' ≤ c ∧ c ≤ '9' then some (c.toNat - 48)
  else if 'a' ≤ c ∧ c ≤ 'f' then some (c.toNat - 87)
  else if 'A' ≤ c ∧ c ≤ 'F' then some (c.toNat - 55)
  else none

def hexNumber? (cs : List Char) : Option Nat :=
  cs.foldl (fun n c => do return 16 * (← n) + (← hexDigit? c)) (some 0)

def codePoint? (digits : List Char) : Option Char :=
  match digits, hexNumber? digits with
  | _ :: _, some n => if n.isValidChar then some (Char.ofNat n) else none
  | _, _ => none

/-- A code point given by a fixed number of digits, or by any number of them in braces. -/
def codePoint (width : Nat) : List Char → Option (Char × List Char)
  | '\x7b' :: cs =>
    match cs.dropWhile (· != '\x7d') with
    | _ :: rest => (codePoint? (cs.takeWhile (· != '\x7d'))).map (·, rest)
    | [] => none
  | cs =>
    if (cs.take width).length = width then (codePoint? (cs.take width)).map (·, cs.drop width)
    else none

/-- Characters that stand for themselves after a backslash. -/
def isMark (c : Char) : Bool :=
  c.toNat < 128 && !c.isAlphanum && c != '<' && c != '>'

/-- A class or a character behind a backslash. -/
def escaped : List Char → Option (SetItem × List Char)
  | 'd' :: cs => some (.oneOf .digit false, cs)
  | 'D' :: cs => some (.oneOf .digit true, cs)
  | 'w' :: cs => some (.oneOf .word false, cs)
  | 'W' :: cs => some (.oneOf .word true, cs)
  | 's' :: cs => some (.oneOf .space false, cs)
  | 'S' :: cs => some (.oneOf .space true, cs)
  | 'n' :: cs => some (.range '\n' '\n', cs)
  | 't' :: cs => some (.range '\t' '\t', cs)
  | 'r' :: cs => some (.range '\r' '\r', cs)
  | 'f' :: cs => some (.range '\x0c' '\x0c', cs)
  | 'v' :: cs => some (.range '\x0b' '\x0b', cs)
  | 'a' :: cs => some (.range '\x07' '\x07', cs)
  | 'x' :: cs => (codePoint 2 cs).map fun (c, rest) => (.range c c, rest)
  | 'u' :: cs => (codePoint 4 cs).map fun (c, rest) => (.range c c, rest)
  | 'U' :: cs => (codePoint 8 cs).map fun (c, rest) => (.range c c, rest)
  | c :: cs => if isMark c then some (.range c c, cs) else none
  | [] => none

def setMember : List Char → Option (SetItem × List Char)
  | '\\' :: cs => escaped cs
  | c :: cs => some (.range c c, cs)
  | [] => none

/-- One member of a bracketed set, or a range of them. A hyphen makes a range unless the set ends
behind it or an operation begins with it. -/
def memberOrRange (cs : List Char) : Option (SetItem × List Char) := do
  let (item, rest) ← setMember cs
  match rest with
  | '-' :: next :: after =>
    if next = ']' ∨ next = '-' then return (item, rest)
    else
      match item, ← setMember (next :: after) with
      | .range lo _, (.range hi _, after) => if lo ≤ hi then return (.range lo hi, after) else none
      | _, _ => none
  | _ => return (item, rest)

/-- An operation between two sets, written as a doubled character. -/
def setOperation? : List Char → Option ((CharSet → CharSet → CharSet) × List Char)
  | '&' :: '&' :: rest => some (.both, rest)
  | '-' :: '-' :: rest => some (.without, rest)
  | '~' :: '~' :: rest => some (.apart, rest)
  | _ => none

/-- A named class behind its opening bracket, as in `[:alpha:]` or `[:^alpha:]`. -/
def namedClass? : List Char → Option (SetItem × List Char)
  | ':' :: cs =>
    let (negated, cs) := match cs with
      | '^' :: rest => (true, rest)
      | _ => (false, cs)
    match cs.dropWhile (· != ':') with
    | ':' :: ']' :: rest =>
      (asciiClass? (String.ofList (cs.takeWhile (· != ':')))).map (.among · negated, rest)
    | _ => none
  | _ => none

/-- What a bracketed set opens with: whether it is negated, its first members, and the rest.
Hyphens right after the opening are members, and so is a closing bracket that comes first. -/
def setOpening (cs : List Char) : Bool × CharSet × List Char :=
  let (negated, cs) := match cs with
    | '^' :: rest => (true, rest)
    | _ => (false, cs)
  match cs with
  | ']' :: rest => (negated, .singleton ']', rest)
  | '-' :: rest => (negated, .singleton '-', rest.dropWhile (· = '-'))
  | _ => (negated, .nothing, cs)

/-- The rest of a bracketed set up to its closing bracket. `items` holds what has been read since
the last operation, and `apply` carries that operation out. -/
def setRest : Nat → (CharSet → CharSet) → CharSet → List Char → Option (CharSet × List Char)
  | 0, _, _, _ => none
  | fuel + 1, apply, items, cs =>
    match cs with
    | ']' :: rest => some (apply items, rest)
    | '[' :: rest =>
      match namedClass? rest with
      | some (item, rest) => setRest fuel apply (.either items (.item item)) rest
      | none => do
        let (negated, first, body) := setOpening rest
        let (s, rest) ← setRest fuel id first body
        setRest fuel apply (.either items (if negated then .other s else s)) rest
    | _ =>
      match setOperation? cs with
      | some (operation, rest) => setRest fuel (operation (apply items)) .nothing rest
      | none => do
        let (item, rest) ← memberOrRange cs
        setRest fuel apply (.either items (.item item)) rest

def bracketed (cs : List Char) : Option (CharSet × List Char) := do
  let (negated, first, body) := setOpening cs
  let (s, rest) ← setRest (cs.length + 1) id first body
  return (if negated then .other s else s, rest)

def flag? : Char → Option Flag
  | 'i' => some .ignoreCase
  | 'm' => some .multiLine
  | 's' => some .dotAll
  | _ => none

/-- Flags up to the end of their group's opening; those behind a hyphen are switched off. -/
def flags : Bool → FlagChange → List Char → Option (Token × List Char)
  | _, c, ')' :: cs => some (.change c, cs)
  | _, c, ':' :: cs => some (.openPlain c, cs)
  | false, c, '-' :: cs => flags true c cs
  | off, c, x :: cs => do
    let f ← flag? x
    flags off (if off then { c with off := f :: c.off } else { c with on := f :: c.on }) cs
  | _, _, [] => none

def groupName (cs : List Char) : Option (Token × List Char) :=
  match cs.dropWhile (· != '>') with
  | _ :: rest => if cs.head? == some '>' then none else some (.openCapture, rest)
  | [] => none

/-- What follows an opening parenthesis. -/
def opening : List Char → Option (Token × List Char)
  | '?' :: 'P' :: '<' :: cs => groupName cs
  | '?' :: '<' :: cs => groupName cs
  | '?' :: cs => flags false {} cs
  | cs => some (.openCapture, cs)

/-- A count, with blanks around it or without. -/
def number? (cs : List Char) : Option Nat :=
  let digits := Text.trimEnd (cs.dropWhile Text.isBlank)
  if digits.isEmpty then none
  else
    digits.foldl (fun n c => if c.isDigit then n.map (10 * · + (c.toNat - 48)) else none) (some 0)

/-- What follows an opening brace: one count, a least count, or both bounds. -/
def counts (cs : List Char) : Option (Token × List Char) :=
  match cs.dropWhile (· != '\x7d') with
  | [] => none
  | _ :: rest =>
    let inner := cs.takeWhile (· != '\x7d')
    let low := inner.takeWhile (· != ',')
    match inner.dropWhile (· != ',') with
    | [] => (number? low).map fun n => (.times n (some n), rest)
    | [_] => (number? low).map fun n => (.times n none, rest)
    | _ :: high => do
      let lo ← number? low
      let hi ← number? high
      if lo ≤ hi then return (.times lo (some hi), rest) else none

def scanOne : List Char → Option (Token × List Char)
  | [] => none
  | '.' :: cs => some (.dot, cs)
  | '^' :: cs => some (.caret, cs)
  | '$' :: cs => some (.dollar, cs)
  | '(' :: cs => opening cs
  | ')' :: cs => some (.close, cs)
  | '|' :: cs => some (.bar, cs)
  | '*' :: cs => some (.times 0 none, cs)
  | '+' :: cs => some (.times 1 none, cs)
  | '?' :: cs => some (.question, cs)
  | '\x7b' :: cs => counts cs
  | '[' :: cs => (bracketed cs).map fun (s, rest) => (.set s, rest)
  | '\\' :: 'b' :: cs => some (.wordEdge false, cs)
  | '\\' :: 'B' :: cs => some (.wordEdge true, cs)
  | '\\' :: 'A' :: cs => some (.textEdge false, cs)
  | '\\' :: 'z' :: cs => some (.textEdge true, cs)
  | '\\' :: cs => (escaped cs).map fun (item, rest) => (.set (.item item), rest)
  | c :: cs => some (.set (.singleton c), cs)

def scanUpTo : Nat → List Char → Option (List Token)
  | _, [] => some []
  | 0, _ => none
  | fuel + 1, cs => do
    let (t, rest) ← scanOne cs
    return t :: (← scanUpTo fuel rest)

/-- All tokens of a pattern, or nothing if some part of it is no token. -/
def scan (cs : List Char) : Option (List Token) := scanUpTo cs.length cs

end Token

end FeatureRun.Pattern
