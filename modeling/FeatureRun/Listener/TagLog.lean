import FeatureRun.Listener

/-!
The tag log: a line of markup for every notice, indented by the nesting of the tags. A writer that
accepts a number of bytes in all takes what still fits, and nothing more once something did not.
-/

namespace FeatureRun

structure TagLog where
  output : String := ""
  /-- How many bytes the writer still accepts; a text accepts any number. -/
  room : Option Nat := none
  deriving DecidableEq, Repr, Inhabited

namespace TagLog

/-- The line of a notice. -/
def tag : Notice → String
  | .beforeFeatures => "<features>"
  | .afterFeatures => "</features>"
  | .beforeFeature _ => "  <feature>"
  | .afterFeature _ => "  </feature>"
  | .beforeScenario _ => "    <scenario>"
  | .afterScenario _ => "    </scenario>"
  | .beforeStep _ => "      <step>"
  | .afterStep _ => "      </step>"
  | .stepResult r => "        <result success='" ++ toString r.isSuccessful ++ "'></result>"

/-- Writes a text, as far as it fits, and tells whether all of it did. -/
def write (text : String) (t : TagLog) : TagLog × Bool :=
  match t.room with
  | none => ({ t with output := t.output ++ text }, true)
  | some room =>
    let taken := text.toList.take room
    ({ output := t.output ++ String.ofList taken, room := some (room - taken.length) },
      text.length ≤ room)

/-- Writes a line, and its line feed only if the line itself was written. -/
def writeLine (line : String) (t : TagLog) : TagLog × Bool :=
  match t.write line with
  | (t, true) => t.write "\n"
  | (t, false) => (t, false)

def take (n : Notice) (t : TagLog) : Effect Emission TagLog :=
  match t.writeLine (tag n) with
  | (t, true) => .quiet t
  | (t, false) => .emit t [.traced .markupUnwritten]

instance : Listener TagLog where
  notice := take

end TagLog

end FeatureRun
