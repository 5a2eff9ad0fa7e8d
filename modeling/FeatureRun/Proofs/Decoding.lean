import Mathlib.Order.Bounds.Defs
import FeatureRun.Proofs.Encoding

/-!
Bytes read as text. Reading takes one encoding after another, and stops behind the longest text that
the bytes begin with.
-/

namespace FeatureRun.Text

open String (utf8EncodeChar)

/-- How bytes begin, and what is read of them. -/
inductive Front (index : Nat) : List UInt8 → Except Utf8Error (List Char) → Prop
  | nothing : Front index [] (.ok [])
  | char (c : Char) (rest : List UInt8) :
    Front index (utf8EncodeChar c ++ rest)
      ((decodeFrom (index + (utf8EncodeChar c).length) rest).map (c :: ·))
  | incomplete (bs : List UInt8) (c : Char) (hsome : bs ≠ []) (hc : bs <+: utf8EncodeChar c)
    (hpart : bs ≠ utf8EncodeChar c) : Front index bs (.error (.incomplete index))
  | invalid (bs : List UInt8) (length : Nat) (h : ∀ c, ¬ Meets bs c) :
    Front index bs (.error (.invalid length index))

section

variable (index : Nat) {n : Nat} {a : UInt8} {l : List UInt8}

theorem front_char {c : Char} {e : List UInt8} (hc : utf8EncodeChar c = e) (rest : List UInt8) :
    Front index (e ++ rest) ((decodeFrom (index + e.length) rest).map (c :: ·)) := by
  subst hc
  exact .char c rest

theorem front_incomplete (h : Begins n a l) (hmore : l.length + 1 < n) :
    Front index (a :: l) (.error (.incomplete index)) := by
  obtain ⟨c, hc, hn⟩ := h.exists_prefix
  refine .incomplete _ c (List.cons_ne_nil a l) hc fun heq => ?_
  rw [← heq, List.length_cons] at hn
  omega

theorem front_invalid (length : Nat) (ha : encodingLength a = some n)
    (h : ¬ Begins n a (l.take (n - 1))) :
    Front index (a :: l) (.error (.invalid length index)) := by
  refine .invalid _ length fun c hc => h ?_
  obtain ⟨n', hbegins⟩ := hc.begins
  obtain rfl : n' = n := Option.some.inj (hbegins.length.symm.trans ha)
  exact hbegins

variable (a l)

theorem front_none (ha : encodingLength a = none) :
    Front index (a :: l) (decodeFrom index (a :: l)) := by
  rw [decodeFrom.eq_def]
  simp only [ha]
  refine .invalid _ 1 fun c hc => ?_
  obtain ⟨n, hbegins⟩ := hc.begins
  exact absurd (hbegins.length.symm.trans ha) (by simp)

theorem front_one (ha : encodingLength a = some 1) :
    Front index (a :: l) (decodeFrom index (a :: l)) := by
  rw [decodeFrom.eq_def]
  simp only [ha]
  exact front_char index (encode_one a ha) l

theorem front_two (ha : encodingLength a = some 2) :
    Front index (a :: l) (decodeFrom index (a :: l)) := by
  rw [decodeFrom.eq_def]
  simp only [ha]
  rcases l with _ | ⟨b, rest⟩
  · exact front_incomplete index ⟨ha, by decide, by simp, by simp⟩ (by decide)
  by_cases hb : isTail b = true
  · simp only [if_pos hb]
    exact front_char index (encode_two a b ha hb) rest
  · simp only [if_neg hb]
    exact front_invalid index 1 ha fun h => hb (h.tail b (.head _))

theorem front_three (ha : encodingLength a = some 3) :
    Front index (a :: l) (decodeFrom index (a :: l)) := by
  rw [decodeFrom.eq_def]
  simp only [ha]
  rcases l with _ | ⟨b, rest⟩
  · exact front_incomplete index ⟨ha, by decide, by simp, by simp⟩ (by decide)
  by_cases hb : isSecond a b = true
  · simp only [if_pos hb]
    rcases rest with _ | ⟨c, rest⟩
    · exact front_incomplete index
        ⟨ha, by simp, by simpa using hb, by simpa using isTail_of_isSecond hb⟩ (by simp)
    by_cases hc : isTail c = true
    · simp only [if_pos hc]
      exact front_char index (encode_three a b c ha hb hc) rest
    · simp only [if_neg hc]
      exact front_invalid index 2 ha fun h => hc (h.tail c (.tail _ (.head _)))
  · simp only [if_neg hb]
    exact front_invalid index 1 ha fun h => hb (h.second b rfl)

theorem front_four (ha : encodingLength a = some 4) :
    Front index (a :: l) (decodeFrom index (a :: l)) := by
  rw [decodeFrom.eq_def]
  simp only [ha]
  rcases l with _ | ⟨b, rest⟩
  · exact front_incomplete index ⟨ha, by decide, by simp, by simp⟩ (by decide)
  by_cases hb : isSecond a b = true
  · simp only [if_pos hb]
    rcases rest with _ | ⟨c, rest⟩
    · exact front_incomplete index
        ⟨ha, by simp, by simpa using hb, by simpa using isTail_of_isSecond hb⟩ (by simp)
    by_cases hc : isTail c = true
    · simp only [if_pos hc]
      rcases rest with _ | ⟨d, rest⟩
      · exact front_incomplete index
          ⟨ha, by simp, by simpa using hb, by simpa [hc] using isTail_of_isSecond hb⟩ (by simp)
      by_cases hd : isTail d = true
      · simp only [if_pos hd]
        exact front_char index (encode_four a b c d ha hb hc hd) rest
      · simp only [if_neg hd]
        exact front_invalid index 3 ha fun h => hd (h.tail d (.tail _ (.tail _ (.head _))))
    · simp only [if_neg hc]
      exact front_invalid index 2 ha fun h => hc (h.tail c (.tail _ (.head _)))
  · simp only [if_neg hb]
    exact front_invalid index 1 ha fun h => hb (h.second b rfl)

end

/-- Reading goes by how bytes begin. -/
theorem front_decodeFrom (index : Nat) (bs : List UInt8) :
    Front index bs (decodeFrom index bs) := by
  cases bs with
  | nil => exact .nothing
  | cons a l =>
    cases ha : encodingLength a with
    | none => exact front_none index a l ha
    | some n =>
      rcases (encodingLength_eq_some_iff a n).mp ha with hn | hn | hn | hn
      · exact front_one index a l (hn.1 ▸ ha)
      · exact front_two index a l (hn.1 ▸ ha)
      · exact front_three index a l (hn.1 ▸ ha)
      · exact front_four index a l (hn.1 ▸ ha)

/-- The place of the first byte that has not been read. -/
def Utf8Error.index : Utf8Error → Nat
  | .invalid _ index => index
  | .incomplete index => index

def Utf8Error.isIncomplete : Utf8Error → Bool
  | .invalid _ _ => false
  | .incomplete _ => true

/-- Bytes are the beginning of an encoding, and not a whole one. -/
def Partial (bs : List UInt8) : Prop := ∃ c, bs <+: utf8EncodeChar c ∧ bs ≠ utf8EncodeChar c

/-- An error stops reading in front of bytes. -/
structure Stops (index : Nat) (rest : List UInt8) (e : Utf8Error) : Prop where
  more : rest ≠ []
  no_char : ∀ c, ¬ utf8EncodeChar c <+: rest
  index_eq : e.index = index
  incomplete_iff : e.isIncomplete = true ↔ Partial rest

theorem decodeFrom_cases (index : Nat) (bs : List UInt8) :
    (∃ cs : List Char, bs = cs.flatMap utf8EncodeChar ∧ decodeFrom index bs = .ok cs) ∨
      ∃ (cs : List Char) (rest : List UInt8) (e : Utf8Error),
        bs = cs.flatMap utf8EncodeChar ++ rest ∧
        Stops (index + (cs.flatMap utf8EncodeChar).length) rest e ∧
        decodeFrom index bs = .error e := by
  -- a character takes a byte at least, so the bytes left are fewer
  induction hlength : bs.length using Nat.strong_induction_on generalizing index bs with
  | h n ih =>
    have hfront := front_decodeFrom index bs
    generalize hread : decodeFrom index bs = read at hfront
    cases hfront with
    | nothing => exact Or.inl ⟨[], rfl, rfl⟩
    | char c rest =>
      have hsome := List.length_pos_iff.mpr (utf8EncodeChar_ne_nil c)
      have hless : rest.length < n := by
        rw [← hlength, List.length_append]
        omega
      rcases ih _ hless (index + (utf8EncodeChar c).length) rest rfl with
        ⟨cs, hcs, hok⟩ | ⟨cs, left, e, hcs, hstops, herror⟩
      · exact Or.inl ⟨c :: cs, by rw [List.flatMap_cons, ← hcs], by rw [hok]; rfl⟩
      · refine Or.inr ⟨c :: cs, left, e, ?_, ?_, by rw [herror]; rfl⟩
        · rw [List.flatMap_cons, List.append_assoc, ← hcs]
        · rw [List.flatMap_cons, List.length_append, ← Nat.add_assoc]
          exact hstops
    | incomplete _ c hsome hc hpart =>
      refine Or.inr ⟨[], bs, _, rfl, ⟨hsome, fun d hd => hpart ?_, rfl, ?_⟩, rfl⟩
      · obtain rfl := eq_of_encodings (hd.trans hc) List.prefix_rfl
        exact hc.eq_of_length (Nat.le_antisymm hc.length_le hd.length_le)
      · exact ⟨fun _ => ⟨c, hc, hpart⟩, fun _ => rfl⟩
    | invalid _ length h =>
      refine Or.inr ⟨[], bs, _, rfl, ⟨?_, fun d hd => h d (Or.inr hd), rfl, ?_⟩, rfl⟩
      · rintro rfl
        exact h default (Or.inl List.nil_prefix)
      · exact ⟨fun hno => absurd hno Bool.false_ne_true,
          fun ⟨c, hc, _⟩ => absurd (Or.inl hc) (h c)⟩

/-- A text that bytes begin with has been read, if no more characters can be. -/
theorem chars_prefix {cs ds : List Char} {rest : List UInt8}
    (hrest : ∀ c, ¬ utf8EncodeChar c <+: rest)
    (h : ds.flatMap utf8EncodeChar <+: cs.flatMap utf8EncodeChar ++ rest) : ds <+: cs := by
  induction ds generalizing cs with
  | nil => exact List.nil_prefix
  | cons d ds ih =>
    rw [List.flatMap_cons] at h
    have hd := (List.prefix_append _ _).trans h
    cases cs with
    | nil => exact absurd hd (hrest d)
    | cons c cs =>
      rw [List.flatMap_cons, List.append_assoc] at h hd
      obtain rfl := eq_of_encodings hd (List.prefix_append _ _)
      exact List.cons_prefix_cons.mpr ⟨rfl, ih ((List.prefix_append_right_inj _).mp h)⟩

theorem length_le_of_prefix {cs : List Char} {rest : List UInt8}
    (hrest : ∀ c, ¬ utf8EncodeChar c <+: rest) (s : String)
    (h : bytes s <+: cs.flatMap utf8EncodeChar ++ rest) :
    (bytes s).length ≤ (cs.flatMap utf8EncodeChar).length := by
  rw [bytes_eq_flatMap] at h ⊢
  obtain ⟨others, rfl⟩ := chars_prefix hrest h
  rw [List.flatMap_append]
  exact (List.prefix_append _ _).length_le

/-- What an error tells of bytes that are no text: how long a text they begin with, and whether they
end within a character. -/
structure Utf8Error.Tells (e : Utf8Error) (bs : List UInt8) : Prop where
  longest : IsGreatest {n | ∃ s, bytes s <+: bs ∧ (bytes s).length = n} e.index
  incomplete_iff : e.isIncomplete = true ↔ Partial (bs.drop e.index)

theorem decode_cases (bs : List UInt8) :
    (∃ s, bytes s = bs ∧ decode bs = .ok s) ∨
      (∀ s, bytes s ≠ bs) ∧ ∃ e : Utf8Error, e.Tells bs ∧ decode bs = .error e := by
  rw [decode]
  rcases decodeFrom_cases 0 bs with ⟨cs, hbs, hok⟩ | ⟨cs, rest, e, hbs, hstops, herror⟩
  · exact Or.inl ⟨String.ofList cs, by rw [bytes_ofList, hbs], by rw [hok]; rfl⟩
  · have hread := bytes_ofList cs
    obtain ⟨hmore, hno, hindex, hincomplete⟩ := hstops
    rw [Nat.zero_add] at hindex
    have hle (s : String) (h : bytes s <+: bs) : (bytes s).length ≤ e.index := by
      rw [hbs] at h
      rw [hindex]
      exact length_le_of_prefix hno s h
    refine Or.inr ⟨fun s hs => ?_, e, ⟨⟨⟨String.ofList cs, ?_, ?_⟩, ?_⟩, ?_⟩, by rw [herror]; rfl⟩
    · have hshort := hle s (hs ▸ List.prefix_rfl)
      rw [hs, hindex, hbs, List.length_append] at hshort
      have hlength := List.length_pos_iff.mpr hmore
      omega
    · rw [hread, hbs]
      exact List.prefix_append _ _
    · rw [hread, hindex]
    · rintro n ⟨s, hs, rfl⟩
      exact hle s hs
    · rw [hbs, hindex, List.drop_left]
      exact hincomplete

theorem decode_eq_ok_iff (bs : List UInt8) (s : String) : decode bs = .ok s ↔ bytes s = bs := by
  rcases decode_cases bs with ⟨t, ht, hok⟩ | ⟨hno, e, _, herror⟩
  · rw [hok, Except.ok.injEq]
    constructor
    · rintro rfl
      exact ht
    · exact fun hs => bytes_injective (ht.trans hs.symm)
  · rw [herror]
    exact ⟨fun h => absurd h (by simp), fun hs => absurd hs (hno s)⟩

end FeatureRun.Text
