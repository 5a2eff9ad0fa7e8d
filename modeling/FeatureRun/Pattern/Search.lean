import FeatureRun.Pattern.Program

/-!
The search for the leftmost match, preferred alternatives first. All ways to go on are kept side
by side in order of preference and take the text one character at a time. Two ways that stand at
the same instruction at the same place have the same future, so only the preferred one is kept;
this also ends a loop whose body consumed nothing. A match found drops every way behind it.
-/

namespace FeatureRun.Pattern

structure Thread where
  address : Nat
  slots : List (Option Nat)
  deriving Inhabited

/-- Follows threads to the instructions that read a character or stop, in order of preference.
`seen` has a bit for every instruction passed at this place. Each instruction is passed once and
adds at most two threads, which bounds the rounds. -/
def settle (code : Array Instruction) (before after : Option Char) (place : Nat) :
    Nat → Nat → List Thread → List Thread
  | 0, _, _ => []
  | _ + 1, _, [] => []
  | fuel + 1, seen, t :: rest =>
    if seen.testBit t.address then settle code before after place fuel seen rest
    else
      let seen := seen ||| (1 <<< t.address)
      let go := settle code before after place fuel seen
      match code[t.address]? with
      | some (.read _) | some .stop => t :: go rest
      | some (.look l) =>
        if l.holds before after then go ({ t with address := t.address + 1 } :: rest) else go rest
      | some (.mark slot) =>
        go ({ address := t.address + 1, slots := t.slots.set slot (some place) } :: rest)
      -- the preferred target comes first, with all that follows from it
      | some (.fork a b) => go ({ t with address := a } :: { t with address := b } :: rest)
      | some (.jump a) => go ({ t with address := a } :: rest)
      | none => go rest

/-- The threads that read `c`, up to the first that stops, and the slots of that one. -/
def advance (code : Array Instruction) (c : Char) :
    List Thread → List Thread × Option (List (Option Nat))
  | [] => ([], none)
  | t :: rest =>
    match code[t.address]? with
    | some .stop => ([], some t.slots)
    | some (.read s) =>
      let (next, found) := advance code c rest
      (if s.contains c then { t with address := t.address + 1 } :: next else next, found)
    | _ => advance code c rest

/-- The slots of the first thread that stops. -/
def stopped? (code : Array Instruction) : List Thread → Option (List (Option Nat))
  | [] => none
  | t :: rest =>
    match code[t.address]? with
    | some .stop => some t.slots
    | _ => stopped? code rest

/-- Goes on from a place between characters. A new thread starts there, behind all others, as long
as no match has been found. -/
def searchFrom (code : Array Instruction) (blank : List (Option Nat)) :
    Option Char → Nat → List Thread → Option (List (Option Nat)) → List Char →
      Option (List (Option Nat))
  | before, place, threads, best, rest =>
    -- a match that starts further to the right never replaces one that was found
    let start := if best.isNone then [⟨0, blank⟩] else []
    let waiting := threads ++ start
    let fuel := waiting.length + 2 * code.size + 1
    let ready := settle code before rest.head? place fuel 0 waiting
    match rest with
    | [] => (stopped? code ready).or best
    | c :: cs =>
      match advance code c ready with
      | ([], some found) => some found
      | (next, found) =>
        let best := found.or best
        if next.isEmpty && best.isSome then best
        else searchFrom code blank (some c) (place + 1) next best cs
  termination_by structural _ _ _ _ rest => rest

/-- The slots of the preferred match of a program in a text. -/
def search (code : Array Instruction) (slots : Nat) (text : List Char) :
    Option (List (Option Nat)) :=
  searchFrom code (List.replicate slots none) none 0 [] none text

end FeatureRun.Pattern
