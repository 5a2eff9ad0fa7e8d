/-!
What a step of work on a state did: the state it left, what it made visible on the way, and the
message it panicked with, if it did. A panic cuts off whatever was to follow.
-/

namespace FeatureRun

universe u v w

structure Effect (ε : Type v) (σ : Type u) where
  state : σ
  log : List ε := []
  panic : Option String := none

namespace Effect

variable {ε : Type v} {σ : Type u}

def quiet (s : σ) : Effect ε σ := ⟨s, [], none⟩

def emit (s : σ) (log : List ε) : Effect ε σ := ⟨s, log, none⟩

def andThen (e : Effect ε σ) (next : σ → Effect ε σ) : Effect ε σ :=
  match e.panic with
  | some _ => e
  | none => let f := next e.state; ⟨f.state, e.log ++ f.log, f.panic⟩

/-- The same effect, seen from a state that has `σ` as a part. -/
def map {τ : Type w} (f : σ → τ) (e : Effect ε σ) : Effect ε τ := ⟨f e.state, e.log, e.panic⟩

@[simp] theorem quiet_andThen (s : σ) (next : σ → Effect ε σ) :
    (quiet s).andThen next = next s := by
  simp [quiet, andThen]

@[simp] theorem andThen_quiet (e : Effect ε σ) : e.andThen quiet = e := by
  rcases e with ⟨s, log, _ | m⟩ <;> simp [quiet, andThen]

theorem andThen_of_panic (e : Effect ε σ) (next : σ → Effect ε σ) (m : String)
    (h : e.panic = some m) : e.andThen next = e := by
  simp [andThen, h]

theorem andThen_of_no_panic (e : Effect ε σ) (next : σ → Effect ε σ) (h : e.panic = none) :
    e.andThen next =
      ⟨(next e.state).state, e.log ++ (next e.state).log, (next e.state).panic⟩ := by
  simp [andThen, h]

theorem andThen_assoc (e : Effect ε σ) (f g : σ → Effect ε σ) :
    (e.andThen f).andThen g = e.andThen fun s => (f s).andThen g := by
  rcases e with ⟨s, log, _ | m⟩
  · simp only [andThen]
    rcases f s with ⟨t, log', _ | m'⟩ <;> simp
  · simp [andThen]

end Effect

end FeatureRun
