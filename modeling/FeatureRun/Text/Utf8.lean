/-!
Octet sequences as text. An encoding takes one to four octets; the first fixes how many, and the
second is restricted further after some of them, which rules out overlong forms, surrogates and
code points beyond the last.
-/

namespace FeatureRun.Text

/-- Why a sequence is no text: the octets from `index` on begin no encoding, the first `length` of
them being at fault, or they are the beginning of an encoding and nothing follows. -/
inductive Utf8Error
  | invalid (length index : Nat)
  | incomplete (index : Nat)
  deriving DecidableEq, Repr, Inhabited

def Utf8Error.message : Utf8Error → String
  | .invalid length index => s!"invalid utf-8 sequence of {length} bytes from index {index}"
  | .incomplete index => s!"incomplete utf-8 byte sequence from index {index}"

def isTail (b : UInt8) : Bool := 0x80 ≤ b && b ≤ 0xBF

/-- Octets that may come second after a first octet of a longer encoding. -/
def isSecond (first b : UInt8) : Bool :=
  if first = 0xE0 then 0xA0 ≤ b && b ≤ 0xBF
  else if first = 0xED then 0x80 ≤ b && b ≤ 0x9F
  else if first = 0xF0 then 0x90 ≤ b && b ≤ 0xBF
  else if first = 0xF4 then 0x80 ≤ b && b ≤ 0x8F
  else isTail b

/-- The number of octets of an encoding that a first octet announces. -/
def encodingLength (first : UInt8) : Option Nat :=
  if first ≤ 0x7F then some 1
  else if 0xC2 ≤ first && first ≤ 0xDF then some 2
  else if 0xE0 ≤ first && first ≤ 0xEF then some 3
  else if 0xF0 ≤ first && first ≤ 0xF4 then some 4
  else none

def tailBits (b : UInt8) : Nat := b.toNat % 64

/-- Reads the octets from `index` on. -/
def decodeFrom (index : Nat) : List UInt8 → Except Utf8Error (List Char)
  | [] => .ok []
  | a :: rest =>
    match encodingLength a with
    | none => .error (.invalid 1 index)
    | some 1 => (decodeFrom (index + 1) rest).map (Char.ofNat a.toNat :: ·)
    | some 2 =>
      match rest with
      | [] => .error (.incomplete index)
      | b :: rest =>
        if isTail b then
          (decodeFrom (index + 2) rest).map (Char.ofNat (a.toNat % 32 * 64 + tailBits b) :: ·)
        else .error (.invalid 1 index)
    | some 3 =>
      match rest with
      | [] => .error (.incomplete index)
      | b :: rest =>
        if isSecond a b then
          match rest with
          | [] => .error (.incomplete index)
          | c :: rest =>
            if isTail c then
              (decodeFrom (index + 3) rest).map
                (Char.ofNat ((a.toNat % 16 * 64 + tailBits b) * 64 + tailBits c) :: ·)
            else .error (.invalid 2 index)
        else .error (.invalid 1 index)
    | some _ =>
      match rest with
      | [] => .error (.incomplete index)
      | b :: rest =>
        if isSecond a b then
          match rest with
          | [] => .error (.incomplete index)
          | c :: rest =>
            if isTail c then
              match rest with
              | [] => .error (.incomplete index)
              | d :: rest =>
                if isTail d then
                  (decodeFrom (index + 4) rest).map
                    (Char.ofNat
                      (((a.toNat % 8 * 64 + tailBits b) * 64 + tailBits c) * 64 + tailBits d) :: ·)
                else .error (.invalid 3 index)
            else .error (.invalid 2 index)
        else .error (.invalid 1 index)

def decode (bytes : List UInt8) : Except Utf8Error String :=
  (decodeFrom 0 bytes).map String.ofList

/-- A text that is written to. Octets are accepted only if they are text. -/
structure Writable where
  text : String := ""
  deriving DecidableEq, Repr, Inhabited

namespace Writable

inductive Write
  | string (s : String)
  | line (s : String)
  | octets (bytes : List UInt8)
  deriving Repr, Inhabited

def append (w : Writable) (s : String) : Writable := ⟨w.text ++ s⟩

def write (w : Writable) : Write → Except Utf8Error Writable
  | .string s => .ok (w.append s)
  | .line s => .ok ((w.append s).append "\n")
  | .octets bytes => (decode bytes).map w.append

/-- A refused write leaves the text as it was. -/
def writeAll (w : Writable) : List Write → Writable
  | [] => w
  | x :: rest =>
    match w.write x with
    | .ok w' => w'.writeAll rest
    | .error _ => w.writeAll rest

end Writable

end FeatureRun.Text
