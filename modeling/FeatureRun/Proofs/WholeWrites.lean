import FeatureRun.Proofs.Decoding

namespace FeatureRun.Text.Writable

/-- Why bytes are not written: they are refused, or nothing is taken of them. -/
inductive Failure
  | invalidData (e : Utf8Error)
  | writeZero
  deriving DecidableEq, Repr

/-- One go of writing bytes, and how many of them it takes. -/
def go (w : Writable) (bs : List UInt8) : Writable × Except Failure Nat :=
  match decode bs with
  | .ok s => (w.append s, .ok bs.length)
  | .error e => (w, .error (.invalidData e))

/-- Bytes written go by go, until there are none left or one of the goes fails. -/
def goes (w : Writable) (bs : List UInt8) : Writable × Except Failure Unit :=
  if bs = [] then (w, .ok ())
  else
    match w.go bs with
    | (w', .ok 0) => (w', .error .writeZero)
    | (w', .ok (n + 1)) => goes w' (bs.drop (n + 1))
    | (w', .error e) => (w', .error e)
termination_by bs.length
decreasing_by
  have hsome : 0 < bs.length := List.length_pos_iff.mpr ‹_›
  rw [List.length_drop]
  omega

/-- A write by way of its bytes. The line feed of a line is written once the line has been. -/
def byBytes (w : Writable) : Write → Writable × Except Failure Unit
  | .string s => w.goes (bytes s)
  | .line s =>
    match w.goes (bytes s) with
    | (w', .ok ()) => w'.goes (bytes "\n")
    | (w', .error e) => (w', .error e)
  | .octets bs => w.goes bs

/-- How a write ends: with the text after it, or with the reason why the text is as it was. -/
def outcome (w : Writable) : Except Utf8Error Writable → Writable × Except Failure Unit
  | .ok w' => (w', .ok ())
  | .error e => (w, .error (.invalidData e))

theorem goes_eq (w : Writable) (bs : List UInt8) :
    w.goes bs = w.outcome ((decode bs).map w.append) := by
  by_cases hbs : bs = []
  · subst hbs
    have hnothing : w.append "" = w := congrArg Writable.mk String.append_empty
    have hdecode : (decode []).map w.append = .ok (w.append "") := rfl
    rw [goes, if_pos rfl, hdecode, hnothing, outcome]
  · rw [goes, if_neg hbs, go]
    cases decode bs with
    | error e => rfl
    | ok s =>
      obtain ⟨n, hn⟩ := Nat.exists_eq_succ_of_ne_zero (mt List.length_eq_zero_iff.mp hbs)
      have hall : bs.drop (n + 1) = [] := List.drop_eq_nil_of_le (Nat.le_of_eq hn)
      have hnone : (w.append s).goes [] = (w.append s, .ok ()) := by rw [goes, if_pos rfl]
      simp only [hn, hall, hnone]
      rfl

/-- By way of bytes all is written as it is. -/
theorem byBytes_eq (w : Writable) (x : Write) : w.byBytes x = w.outcome (w.write x) := by
  have hstring (w : Writable) (s : String) : w.goes (bytes s) = (w.append s, .ok ()) := by
    rw [goes_eq, (decode_eq_ok_iff _ s).mpr rfl]
    rfl
  cases x with
  | string s => exact hstring w s
  | line s =>
    rw [byBytes, hstring w s]
    exact hstring _ "\n"
  | octets bs => exact goes_eq w bs

/-- The bytes of a write. -/
def Write.chunk : Write → List UInt8
  | .string s => bytes s
  | .line s => bytes s ++ bytes "\n"
  | .octets bs => bs

/-- What is written is a text. -/
def Write.IsText (x : Write) : Prop := ∃ s, bytes s = x.chunk

/-- A write adds a text, or it is refused and that for the reason told. -/
theorem write_cases (w : Writable) (x : Write) :
    (∃ s, bytes s = x.chunk ∧ w.write x = .ok (w.append s)) ∨
      ¬ x.IsText ∧ ∃ e : Utf8Error, e.Tells x.chunk ∧ w.write x = .error e := by
  cases x with
  | string s => exact Or.inl ⟨s, rfl, rfl⟩
  | line s =>
    refine Or.inl ⟨s ++ "\n", bytes_append s "\n", ?_⟩
    exact congrArg (Except.ok ∘ Writable.mk) (String.append_assoc ..)
  | octets bs =>
    have hwrite : w.write (.octets bs) = (decode bs).map w.append := rfl
    rcases decode_cases bs with ⟨s, hs, hok⟩ | ⟨hno, e, htells, herror⟩
    · exact Or.inl ⟨s, hs, by rw [hwrite, hok]; rfl⟩
    · exact Or.inr ⟨fun ⟨s, hs⟩ => hno s hs, e, htells, by rw [hwrite, herror]; rfl⟩

instance (x : Write) : Decidable x.IsText :=
  decidable_of_iff ((decode x.chunk).toOption.isSome = true) (by
    rcases decode_cases x.chunk with ⟨s, hs, hok⟩ | ⟨hno, e, _, herror⟩
    · rw [hok]
      exact iff_of_true rfl ⟨s, hs⟩
    · rw [herror]
      exact iff_of_false Bool.false_ne_true fun ⟨s, hs⟩ => hno s hs)

/-- The bytes of a text after writes are those it had, and those of the writes that are texts. -/
theorem bytes_writeAll (w : Writable) (writes : List Write) :
    bytes (w.writeAll writes).text =
      bytes w.text ++ (writes.filter (·.IsText)).flatMap Write.chunk := by
  induction writes generalizing w with
  | nil => exact (List.append_nil _).symm
  | cons x rest ih =>
    rcases w.write_cases x with ⟨s, hs, hok⟩ | ⟨hno, e, _, herror⟩
    · have htext : x.IsText := ⟨s, hs⟩
      have hadded : bytes (w.append s).text = bytes w.text ++ x.chunk := by
        rw [← hs]
        exact bytes_append w.text s
      have hkept : (x :: rest).filter (·.IsText) = x :: rest.filter (·.IsText) := by
        simp [htext]
      rw [writeAll, hok, hkept, List.flatMap_cons, ← List.append_assoc, ← hadded]
      exact ih _
    · have hleft : (x :: rest).filter (·.IsText) = rest.filter (·.IsText) := by
        simp [hno]
      rw [writeAll, herror, hleft]
      exact ih w

/-- Writes by way of their bytes leave the text that the writes themselves leave. -/
theorem foldl_byBytes (w : Writable) (writes : List Write) :
    writes.foldl (fun w x => (w.byBytes x).1) w = w.writeAll writes := by
  induction writes generalizing w with
  | nil => rfl
  | cons x rest ih =>
    rw [List.foldl_cons, byBytes_eq, writeAll]
    cases w.write x <;> exact ih _

/-- Strings and lines are always added. Bytes are added if they are those of a text, and if not,
they leave the text as it was and the error tells how far they could be read. After any writes the
bytes of the text are those that it had and, in order, those of the writes that are texts each by
itself. -/
theorem bytes_written_iff_text (w : Writable) (writes : List Write) :
    (∀ s, w.write (.string s) = .ok ⟨w.text ++ s⟩ ∧
      w.write (.line s) = .ok ⟨w.text ++ s ++ "\n"⟩) ∧
    (∀ bs, (∃ w', w.write (.octets bs) = .ok w') ↔ ∃ s, bytes s = bs) ∧
    (∀ s, w.write (.octets (bytes s)) = .ok ⟨w.text ++ s⟩) ∧
    (∀ bs, (¬ ∃ s, bytes s = bs) → ∃ e : Utf8Error, w.write (.octets bs) = .error e ∧
      w.byBytes (.octets bs) = (w, .error (.invalidData e)) ∧ e.Tells bs) ∧
    (∀ x, w.byBytes x = w.outcome (w.write x)) ∧
    writes.foldl (fun w x => (w.byBytes x).1) w = w.writeAll writes ∧
    bytes (w.writeAll writes).text =
      bytes w.text ++ (writes.filter (·.IsText)).flatMap Write.chunk := by
  have hrefused (bs : List UInt8) (h : ¬ ∃ s, bytes s = bs) :
      ∃ e : Utf8Error, e.Tells bs ∧ w.write (.octets bs) = .error e := by
    rcases w.write_cases (.octets bs) with ⟨s, hs, _⟩ | ⟨_, hrefused⟩
    · exact absurd ⟨s, hs⟩ h
    · exact hrefused
  have hadded (s : String) : w.write (.octets (bytes s)) = .ok ⟨w.text ++ s⟩ := by
    have hdecode := (decode_eq_ok_iff (bytes s) s).mpr rfl
    exact congrArg (Except.map w.append) hdecode
  refine ⟨fun s => ⟨rfl, rfl⟩, fun bs => ?_, hadded, fun bs h => ?_, w.byBytes_eq,
    w.foldl_byBytes writes, w.bytes_writeAll writes⟩
  · constructor
    · rintro ⟨w', hw'⟩
      by_contra h
      obtain ⟨e, _, herror⟩ := hrefused bs h
      exact absurd (hw'.symm.trans herror) (by simp)
    · rintro ⟨s, rfl⟩
      exact ⟨_, hadded s⟩
  · obtain ⟨e, htells, herror⟩ := hrefused bs h
    refine ⟨e, herror, ?_, htells⟩
    rw [byBytes_eq, herror]
    rfl

/-- The first bytes of a sign and its last one are refused one after the other, though they are the
bytes of a text together. -/
theorem parted_sign_refused :
    let w : Writable := ⟨"ß"⟩
    let writes : List Write := [.octets [0x61, 0xE2, 0x82], .octets [0xAC], .line "€"]
    (¬ ∃ s, bytes s = [0x61, 0xE2, 0x82]) ∧ bytes "a€" = [0x61, 0xE2, 0x82, 0xAC] ∧
      w.write (.octets [0x61, 0xE2, 0x82]) = .error (.incomplete 1) ∧
      (Utf8Error.incomplete 1).Tells [0x61, 0xE2, 0x82] ∧
      w.byBytes (.octets [0xAC]) = (w, .error (.invalidData (.invalid 1 0))) ∧
      bytes (w.writeAll writes).text = [0xC3, 0x9F, 0xE2, 0x82, 0xAC, 0x0A] := by
  intro w writes
  have hpart : ¬ ∃ s, bytes s = [0x61, 0xE2, 0x82] := by
    have herror : decode [0x61, 0xE2, 0x82] = .error (.incomplete 1) := by decide
    rintro ⟨s, hs⟩
    exact absurd (((decode_eq_ok_iff _ s).mpr hs).symm.trans herror) (by simp)
  obtain ⟨_, _, _, hrefused, hbytes, _, hall⟩ := bytes_written_iff_text w writes
  obtain ⟨e, herror, _, htells⟩ := hrefused _ hpart
  have hincomplete : w.write (.octets [0x61, 0xE2, 0x82]) = .error (.incomplete 1) := by decide
  obtain rfl : e = .incomplete 1 := Except.error.inj (herror.symm.trans hincomplete)
  refine ⟨hpart, by decide +kernel, herror, htells, (hbytes _).trans (by decide), ?_⟩
  exact hall.trans (by decide +kernel)

end FeatureRun.Text.Writable
