import FeatureRun.Listener
import FeatureRun.Support.Library

/-!
What happens during a run, in one order. The messages broadcast are those of the diagnostics that
announce a broadcast, so they are known even if nobody listens.
-/

namespace FeatureRun

inductive Occurrence
  | setUp
  | noted (text : String)
  | called (d : StepDefinition) (arguments : List String)
  | traced (d : Diagnostic)
  | handed (listener : Nat) (m : Message)
  | emitted (listener : Nat) (e : Emission)

namespace Occurrence

def message? : Occurrence → Option Message
  | .traced (.broadcasting m) => some m
  | _ => none

def call? : Occurrence → Option (StepDefinition × List String)
  | .called d arguments => some (d, arguments)
  | _ => none

def diagnostic? : Occurrence → Option Diagnostic
  | .traced d => some d
  | .emitted _ (.traced d) => some d
  | _ => none

def delivery? : Occurrence → Option (Nat × Message)
  | .handed i m => some (i, m)
  | _ => none

/-- The messages broadcast, in order. -/
def messages (log : List Occurrence) : List Message := log.filterMap message?

/-- The calls of step callbacks, in order. -/
def calls (log : List Occurrence) : List (StepDefinition × List String) := log.filterMap call?

def diagnostics (log : List Occurrence) : List Diagnostic := log.filterMap diagnostic?

/-- The pairs of a listener and a message it was handed, in order. -/
def deliveries (log : List Occurrence) : List (Nat × Message) := log.filterMap delivery?

@[simp] theorem messages_append (a b : List Occurrence) :
    messages (a ++ b) = messages a ++ messages b :=
  List.filterMap_append

@[simp] theorem calls_append (a b : List Occurrence) : calls (a ++ b) = calls a ++ calls b :=
  List.filterMap_append

@[simp] theorem deliveries_append (a b : List Occurrence) :
    deliveries (a ++ b) = deliveries a ++ deliveries b :=
  List.filterMap_append

end Occurrence

/-- What happens when support code is run and a library is made of it. -/
def Library.definingLog (code : List Registration) : List Occurrence :=
  code.map (fun r => .traced (.registered r.definition.pattern.text)) ++
    [.traced (.libraryDefined (define code).size)]

/-- What happens when the callback of a definition is called for a step. -/
def StepDefinition.invokingLog (d : StepDefinition) (name : String) (docString : Option String) :
    List Occurrence :=
  let arguments := d.arguments name docString
  [.traced (.invoking d.pattern.text name arguments.length), .called d arguments]

end FeatureRun
