import FeatureRun.Text.Spelled

namespace FeatureRun.Text

def hexDigits (n : Nat) : List Char := Nat.toDigits 16 n

/-- A character by its code point. -/
def spelled (c : Char) : List Char := ['\\', 'u', '\x7b'] ++ hexDigits c.toNat ++ ['\x7d']

def isSpelled (c : Char) : Bool :=
  c.toNat < 32 || c.toNat == 127 || Ranges.mem c.toNat Spelled.codes

def quotedChar (c : Char) : List Char :=
  if c = '"' then ['\\', '"']
  else if c = '\\' then ['\\', '\\']
  else if c = '\n' then ['\\', 'n']
  else if c = '\r' then ['\\', 'r']
  else if c = '\t' then ['\\', 't']
  else if c.toNat = 0 then ['\\', '0']
  else if isSpelled c then spelled c
  else [c]

def quoted (s : String) : String := String.ofList ('"' :: s.toList.flatMap quotedChar ++ ['"'])

def quotedList (texts : List String) : String :=
  "[" ++ ", ".intercalate (texts.map quoted) ++ "]"

end FeatureRun.Text
