import Mathlib.Data.List.Infix
import Mathlib.Tactic.SplitIfs
import FeatureRun.Text.Utf8

/-!
Texts as bytes. The first byte of an encoding fixes how many there are, and which may come second.
Bytes begin with one encoding at most, so they are the bytes of one text at most.
-/

namespace FeatureRun.Text

open String (utf8EncodeChar)

/-- The bytes of a text in UTF-8. -/
def bytes (text : String) : List UInt8 := text.toUTF8.data.toList

def Ascii (text : String) : Prop := ∀ c ∈ text.toList, c.toNat < 128

theorem bytes_eq_flatMap (text : String) : bytes text = text.toList.flatMap utf8EncodeChar := by
  have htext : text.toUTF8 = text.toList.utf8Encode := String.utf8Encode_toList.symm
  rw [bytes, htext]
  simp only [List.utf8Encode, List.data_toByteArray]

theorem bytes_ofList (cs : List Char) : bytes (String.ofList cs) = cs.flatMap utf8EncodeChar := by
  rw [bytes_eq_flatMap, String.toList_ofList]

theorem bytes_append (a b : String) : bytes (a ++ b) = bytes a ++ bytes b := by
  rw [bytes_eq_flatMap, bytes_eq_flatMap, bytes_eq_flatMap, String.toList_append,
    List.flatMap_append]

theorem bytes_injective {s t : String} (h : bytes s = bytes t) : s = t := by
  apply String.toByteArray_inj.mp
  exact ByteArray.ext (Array.toList_inj.mp h)

theorem bytes_of_ascii (text : String) (h : Ascii text) :
    bytes text = text.toList.map fun c => c.val.toUInt8 := by
  rw [bytes_eq_flatMap, List.map_eq_flatMap]
  apply List.flatMap_congr
  intro c hc
  apply String.utf8EncodeChar_eq_singleton
  rw [Char.utf8Size_eq_one_iff, UInt32.le_iff_toNat_le]
  exact Nat.le_of_lt_succ (h c hc)

theorem encodingLength_eq_some_iff (a : UInt8) (n : Nat) :
    encodingLength a = some n ↔
      n = 1 ∧ a.toNat ≤ 0x7F ∨ n = 2 ∧ 0xC2 ≤ a.toNat ∧ a.toNat ≤ 0xDF ∨
        n = 3 ∧ 0xE0 ≤ a.toNat ∧ a.toNat ≤ 0xEF ∨ n = 4 ∧ 0xF0 ≤ a.toNat ∧ a.toNat ≤ 0xF4 := by
  simp only [encodingLength, UInt8.le_iff_toNat_le, UInt8.reduceToNat]
  grind

theorem isTail_iff (b : UInt8) : isTail b = true ↔ 0x80 ≤ b.toNat ∧ b.toNat ≤ 0xBF := by
  simp only [isTail, Bool.and_eq_true, decide_eq_true_eq, UInt8.le_iff_toNat_le, UInt8.reduceToNat]

theorem isSecond_iff (a b : UInt8) :
    isSecond a b = true ↔ (0x80 ≤ b.toNat ∧ b.toNat ≤ 0xBF) ∧
      (a.toNat = 0xE0 → 0xA0 ≤ b.toNat) ∧ (a.toNat = 0xED → b.toNat ≤ 0x9F) ∧
      (a.toNat = 0xF0 → 0x90 ≤ b.toNat) ∧ (a.toNat = 0xF4 → b.toNat ≤ 0x8F) := by
  simp only [isSecond, ← UInt8.toNat_inj, UInt8.reduceToNat]
  split_ifs <;> simp only [isTail_iff, Bool.and_eq_true, decide_eq_true_eq, UInt8.le_iff_toNat_le,
    UInt8.reduceToNat] <;> omega

theorem isTail_of_isSecond {a b : UInt8} (h : isSecond a b = true) : isTail b = true :=
  (isTail_iff b).mpr ((isSecond_iff a b).mp h).1

/-- Only some first bytes of three or four restrict the second. -/
theorem isSecond_of_two {a b : UInt8} (ha : encodingLength a = some 2) :
    isSecond a b = true ↔ isTail b = true := by
  rw [encodingLength_eq_some_iff] at ha
  rw [isSecond_iff, isTail_iff]
  omega

theorem tailBits_add {b : UInt8} (h : isTail b = true) : tailBits b + 0x80 = b.toNat := by
  rw [isTail_iff] at h
  rw [tailBits]
  omega

/-- The bytes `a :: l` have the form of the first ones of an encoding of `n` bytes. -/
structure Begins (n : Nat) (a : UInt8) (l : List UInt8) : Prop where
  length : encodingLength a = some n
  fits : l.length < n
  second : ∀ b ∈ l.head?, isSecond a b = true
  tail : ∀ b ∈ l, isTail b = true

theorem utf8EncodeChar_of_toNat (c : Char) (n : Nat) (h : c.toNat = n) :
    utf8EncodeChar c =
      if n ≤ 0x7F then [.ofNat n]
      else if n ≤ 0x7FF then [.ofNat (n / 64 % 32 + 0xC0), .ofNat (n % 64 + 0x80)]
      else if n ≤ 0xFFFF then
        [.ofNat (n / 4096 % 16 + 0xE0), .ofNat (n / 64 % 64 + 0x80), .ofNat (n % 64 + 0x80)]
      else
        [.ofNat (n / 262144 % 8 + 0xF0), .ofNat (n / 4096 % 64 + 0x80),
          .ofNat (n / 64 % 64 + 0x80), .ofNat (n % 64 + 0x80)] := by
  subst h
  rfl

theorem isTail_ofNat (n : Nat) (h : n < 64) : isTail (.ofNat (n + 0x80)) = true := by
  rw [isTail_iff, UInt8.toNat_ofNat_of_lt' (show n + 0x80 < 256 by omega)]
  omega

/-- No encoding has another form. -/
theorem begins_utf8EncodeChar (c : Char) :
    ∃ a l, utf8EncodeChar c = a :: l ∧ Begins (l.length + 1) a l := by
  have hvalid : c.toNat < 0xD800 ∨ 0xDFFF < c.toNat ∧ c.toNat < 0x110000 := c.valid
  have hbyte (n : Nat) (h : n < 256) : (UInt8.ofNat n).toNat = n := UInt8.toNat_ofNat_of_lt' h
  rw [utf8EncodeChar_of_toNat c c.toNat rfl]
  split_ifs with hone htwo hthree
  · refine ⟨_, _, rfl, ?_, Nat.lt_succ_self _, by simp, by simp⟩
    rw [encodingLength_eq_some_iff, hbyte _ (by omega)]
    exact Or.inl ⟨rfl, hone⟩
  · have hlength : encodingLength (.ofNat (c.toNat / 64 % 32 + 0xC0)) = some 2 := by
      rw [encodingLength_eq_some_iff, hbyte _ (by omega)]
      omega
    have htail := isTail_ofNat (c.toNat % 64) (by omega)
    refine ⟨_, _, rfl, hlength, Nat.lt_succ_self _, ?_, ?_⟩
    · rintro _ ⟨⟩
      exact (isSecond_of_two hlength).mpr htail
    · simpa using htail
  · refine ⟨_, _, rfl, ?_, Nat.lt_succ_self _, ?_, ?_⟩
    · rw [encodingLength_eq_some_iff, hbyte _ (by omega)]
      exact Or.inr (Or.inr (Or.inl ⟨rfl, by omega⟩))
    · rintro _ ⟨⟩
      rw [isSecond_iff, hbyte _ (by omega), hbyte _ (by omega)]
      omega
    · simp only [List.forall_mem_cons, List.not_mem_nil, false_imp_iff, implies_true, and_true]
      exact ⟨isTail_ofNat _ (by omega), isTail_ofNat _ (by omega)⟩
  · refine ⟨_, _, rfl, ?_, Nat.lt_succ_self _, ?_, ?_⟩
    · rw [encodingLength_eq_some_iff, hbyte _ (by omega)]
      exact Or.inr (Or.inr (Or.inr ⟨rfl, by omega⟩))
    · rintro _ ⟨⟩
      rw [isSecond_iff, hbyte _ (by omega), hbyte _ (by omega)]
      omega
    · simp only [List.forall_mem_cons, List.not_mem_nil, false_imp_iff, implies_true, and_true]
      exact ⟨isTail_ofNat _ (by omega), isTail_ofNat _ (by omega), isTail_ofNat _ (by omega)⟩

theorem toNat_ofNat_of_valid (n : Nat) (h : n.isValidChar) : (Char.ofNat n).toNat = n := by
  rw [Char.ofNat, dif_pos h]
  rfl

theorem ofNat_eq_of_toNat {n : Nat} {a : UInt8} (h : n = a.toNat) : UInt8.ofNat n = a := by
  rw [h, UInt8.ofNat_toNat]

theorem encode_one (a : UInt8) (ha : encodingLength a = some 1) :
    utf8EncodeChar (Char.ofNat a.toNat) = [a] := by
  rw [encodingLength_eq_some_iff] at ha
  have hvalid : a.toNat.isValidChar := Or.inl (by omega)
  rw [utf8EncodeChar_of_toNat _ _ (toNat_ofNat_of_valid _ hvalid), if_pos (by omega),
    UInt8.ofNat_toNat]

theorem encode_two (a b : UInt8) (ha : encodingLength a = some 2) (hb : isTail b = true) :
    utf8EncodeChar (Char.ofNat (a.toNat % 32 * 64 + tailBits b)) = [a, b] := by
  have hbits := tailBits_add hb
  rw [encodingLength_eq_some_iff] at ha
  rw [isTail_iff] at hb
  have hvalid : (a.toNat % 32 * 64 + tailBits b).isValidChar := Or.inl (by omega)
  rw [utf8EncodeChar_of_toNat _ _ (toNat_ofNat_of_valid _ hvalid), if_neg (by omega),
    if_pos (by omega), ofNat_eq_of_toNat (a := a) (by omega), ofNat_eq_of_toNat (a := b) (by omega)]

theorem encode_three (a b c : UInt8) (ha : encodingLength a = some 3) (hb : isSecond a b = true)
    (hc : isTail c = true) :
    utf8EncodeChar (Char.ofNat ((a.toNat % 16 * 64 + tailBits b) * 64 + tailBits c)) =
      [a, b, c] := by
  have hbits := tailBits_add (isTail_of_isSecond hb)
  have hbits' := tailBits_add hc
  rw [encodingLength_eq_some_iff] at ha
  rw [isSecond_iff] at hb
  rw [isTail_iff] at hc
  have hvalid : ((a.toNat % 16 * 64 + tailBits b) * 64 + tailBits c).isValidChar := by
    rw [Nat.isValidChar]
    omega
  rw [utf8EncodeChar_of_toNat _ _ (toNat_ofNat_of_valid _ hvalid), if_neg (by omega),
    if_neg (by omega), if_pos (by omega), ofNat_eq_of_toNat (a := a) (by omega),
    ofNat_eq_of_toNat (a := b) (by omega), ofNat_eq_of_toNat (a := c) (by omega)]

theorem encode_four (a b c d : UInt8) (ha : encodingLength a = some 4) (hb : isSecond a b = true)
    (hc : isTail c = true) (hd : isTail d = true) :
    utf8EncodeChar (Char.ofNat
      (((a.toNat % 8 * 64 + tailBits b) * 64 + tailBits c) * 64 + tailBits d)) = [a, b, c, d] := by
  have hbits := tailBits_add (isTail_of_isSecond hb)
  have hbits' := tailBits_add hc
  have hbits'' := tailBits_add hd
  rw [encodingLength_eq_some_iff] at ha
  rw [isSecond_iff] at hb
  rw [isTail_iff] at hc hd
  have hvalid :
      (((a.toNat % 8 * 64 + tailBits b) * 64 + tailBits c) * 64 + tailBits d).isValidChar := by
    rw [Nat.isValidChar]
    omega
  rw [utf8EncodeChar_of_toNat _ _ (toNat_ofNat_of_valid _ hvalid), if_neg (by omega),
    if_neg (by omega), if_neg (by omega), ofNat_eq_of_toNat (a := a) (by omega),
    ofNat_eq_of_toNat (a := b) (by omega), ofNat_eq_of_toNat (a := c) (by omega),
    ofNat_eq_of_toNat (a := d) (by omega)]

namespace Begins

variable {n : Nat} {a : UInt8} {l : List UInt8}

/-- Bytes that have the form of an encoding are one. -/
theorem exists_char (h : Begins n a l) (hlast : l.length + 1 = n) :
    ∃ c, utf8EncodeChar c = a :: l := by
  obtain ⟨ha, _, hsecond, htail⟩ := h
  rcases (encodingLength_eq_some_iff a n).mp ha with hn | hn | hn | hn
  · obtain rfl := List.length_eq_zero_iff.mp (show l.length = 0 by omega)
    exact ⟨_, encode_one a (by rw [ha, hn.1])⟩
  · obtain ⟨b, rfl⟩ := List.length_eq_one_iff.mp (show l.length = 1 by omega)
    exact ⟨_, encode_two a b (by rw [ha, hn.1]) (htail b (by simp))⟩
  · obtain ⟨b, c, rfl⟩ := List.length_eq_two.mp (show l.length = 2 by omega)
    exact ⟨_, encode_three a b c (by rw [ha, hn.1]) (hsecond b rfl) (htail c (by simp))⟩
  · obtain ⟨b, c, d, rfl⟩ := List.length_eq_three.mp (show l.length = 3 by omega)
    exact ⟨_, encode_four a b c d (by rw [ha, hn.1]) (hsecond b rfl) (htail c (by simp))
      (htail d (by simp))⟩

/-- Some byte may come next. -/
theorem exists_next (h : Begins n a l) (hmore : l.length + 1 < n) :
    ∃ b, Begins n a (l ++ [b]) := by
  obtain ⟨ha, _, hsecond, htail⟩ := h
  have hfits (b : UInt8) : (l ++ [b]).length < n := by
    rw [List.length_append]
    exact hmore
  have htails (b : UInt8) (hb : isTail b = true) : ∀ x ∈ l ++ [b], isTail x = true := by
    intro x hx
    rcases List.mem_append.mp hx with hx | hx
    · exact htail x hx
    · rw [List.mem_singleton.mp hx]
      exact hb
  cases l with
  | nil =>
    obtain ⟨b, hb⟩ : ∃ b, isSecond a b = true := by
      by_cases hlow : a.toNat = 0xED ∨ a.toNat = 0xF4
      · exact ⟨0x80, (isSecond_iff a _).mpr (by simp; omega)⟩
      · exact ⟨0xBF, (isSecond_iff a _).mpr (by simp; omega)⟩
    refine ⟨b, ha, hfits b, ?_, htails b (isTail_of_isSecond hb)⟩
    rintro _ ⟨⟩
    exact hb
  | cons x rest => exact ⟨0x80, ha, hfits 0x80, hsecond, htails 0x80 (by decide)⟩

/-- Bytes that have the form of the first ones of an encoding are the first ones of one. -/
theorem exists_prefix (h : Begins n a l) :
    ∃ c, a :: l <+: utf8EncodeChar c ∧ (utf8EncodeChar c).length = n := by
  obtain ⟨missing, hmissing⟩ : ∃ k, l.length + 1 + k = n := Nat.le.dest h.fits
  induction missing generalizing l with
  | zero =>
    obtain ⟨c, hc⟩ := h.exists_char hmissing
    refine ⟨c, ?_, ?_⟩
    · rw [hc]
    · rw [hc]
      exact hmissing
  | succ k ih =>
    obtain ⟨b, hb⟩ := h.exists_next (by omega)
    have hlength : (l ++ [b]).length = l.length + 1 := List.length_append
    obtain ⟨c, hc, hn⟩ := ih hb (by omega)
    refine ⟨c, List.IsPrefix.trans ?_ hc, hn⟩
    rw [← List.cons_append]
    exact List.prefix_append _ _

end Begins

/-- Of bytes and those of a character, the ones are the beginning of the others. -/
def Meets (bs : List UInt8) (c : Char) : Prop :=
  bs <+: utf8EncodeChar c ∨ utf8EncodeChar c <+: bs

theorem Meets.begins {a : UInt8} {l : List UInt8} {c : Char} (h : Meets (a :: l) c) :
    ∃ n, Begins n a (l.take (n - 1)) := by
  obtain ⟨x, m, hc, hbegins⟩ := begins_utf8EncodeChar c
  rw [Meets, hc, List.cons_prefix_cons, List.cons_prefix_cons] at h
  obtain ⟨rfl, hm⟩ : a = x ∧ l.take m.length <+: m := by
    rcases h with ⟨rfl, h⟩ | ⟨rfl, h⟩
    · exact ⟨rfl, (List.take_prefix _ l).trans h⟩
    · exact ⟨rfl, (List.prefix_iff_eq_take.mp h) ▸ List.prefix_rfl⟩
  refine ⟨m.length + 1, hbegins.length, ?_, ?_, ?_⟩
  · exact Nat.lt_succ_of_le hm.length_le
  · intro b hb
    obtain ⟨others, hothers⟩ := hm
    have hhead : (l.take m.length).head? = some b := hb
    apply hbegins.second
    rw [← hothers, List.head?_append, hhead]
    rfl
  · exact fun b hb => hbegins.tail b (hm.subset hb)

theorem utf8EncodeChar_ne_nil (c : Char) : utf8EncodeChar c ≠ [] := by
  obtain ⟨a, l, hc, _⟩ := begins_utf8EncodeChar c
  rw [hc]
  exact List.cons_ne_nil a l

/-- Bytes begin with the encoding of one character only. -/
theorem eq_of_encodings {c d : Char} {bs : List UInt8} (hc : utf8EncodeChar c <+: bs)
    (hd : utf8EncodeChar d <+: bs) : c = d := by
  have hread (x : Char) (h : utf8EncodeChar x <+: bs) :
      bs.toByteArray.utf8DecodeChar? 0 = some x := by
    obtain ⟨rest, rfl⟩ := h
    rw [List.toByteArray_append]
    exact ByteArray.utf8DecodeChar?_utf8EncodeChar_append
  exact Option.some.inj ((hread c hc).symm.trans (hread d hd))

end FeatureRun.Text
