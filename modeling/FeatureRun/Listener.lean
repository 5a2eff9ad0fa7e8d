import FeatureRun.Effect
import FeatureRun.Diagnostic

/-!
Listeners. A listener with states in `σ` takes notices, and hears messages; unless it says
otherwise, hearing a message is taking the notice that the message amounts to.
-/

namespace FeatureRun

universe u v

inductive Emission
  | printed (text : String)
  | hookCalled (hook : Nat) (s : Scenario)
  | linePassed (line : String)
  | traced (d : Diagnostic)
  deriving DecidableEq, Repr, Inhabited

/-- The calls of the hooks that run before a scenario, in the order of their registration. -/
def hookCalls (hooks : Nat) (s : Scenario) : List Emission :=
  (List.range hooks).map fun i => .hookCalled i s

class Listener (σ : Type u) where
  notice : Notice → σ → Effect Emission σ
  hear : Message → σ → Effect Emission σ := fun m s =>
    match m.notice? with
    | some n => notice n s
    | none => .quiet s

namespace Listener

/-- One way to address a listener: a message, or a notice given directly. -/
inductive Call
  | hear (m : Message)
  | notice (n : Notice)
  deriving DecidableEq, Repr, Inhabited

def take {σ : Type u} [Listener σ] : Call → σ → Effect Emission σ
  | .hear m, s => hear m s
  | .notice n, s => notice n s

/-- Calls made one after another, until one of them panics. -/
def takeAll {σ : Type u} [Listener σ] : List Call → σ → Effect Emission σ
  | [], s => .quiet s
  | c :: rest, s => (take c s).andThen (takeAll rest)

/-- A part of type `σ` inside values of type `τ`. What is put there is found there. -/
structure Part (τ : Type v) (σ : Type u) where
  get : τ → σ
  set : σ → τ → τ
  get_set : ∀ s t, get (set s t) = s

/-- The listener whose part hears everything in its place. -/
@[reducible] def through {τ : Type v} {σ : Type u} [Listener σ] (p : Part τ σ) : Listener τ where
  notice n t := (notice n (p.get t)).map fun s => p.set s t
  hear m t := (hear m (p.get t)).map fun s => p.set s t

instance {σ : Type u} {τ : Type v} [Listener σ] [Listener τ] : Listener (σ ⊕ τ) where
  notice
    | n, .inl s => (notice n s).map .inl
    | n, .inr t => (notice n t).map .inr
  hear
    | m, .inl s => (hear m s).map .inl
    | m, .inr t => (hear m t).map .inr

end Listener

end FeatureRun
