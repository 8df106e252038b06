import Fanout.Proofs.Traversal
import Fanout.Text.Utf8

/-!
# Texts

`decode` is the inverse of `encode` (`Utf8.decode_encode`) and rejects every other byte string
(`Utf8.decode_eq_ok_iff`). Only control characters are encoded with bytes below 32
(`Utf8.le_of_mem_encode`), so a text without them contains no newline byte.

A decimal determines its number (`Text.toDigits_inj`), and a text followed by a dash and a decimal
determines both the text and the number, since no decimal contains a dash (`Text.numbered_inj`).
-/

namespace Fanout

/-! ## Bytes -/

namespace Utf8

theorem toNat_ofNat {n : Nat} (h : n < 256) : (UInt8.ofNat n).toNat = n :=
  UInt8.toNat_ofNat_of_lt' h

/-- No character is a surrogate or lies past the last plane. -/
theorem toNat_cases (c : Char) : c.toNat < 0xD800 ∨ 0xDFFF < c.toNat ∧ c.toNat < 0x110000 :=
  c.valid

theorem toNat_charOfNat {n : Nat} (h : n.isValidChar) : (Char.ofNat n).toNat = n := by
  rw [Char.ofNat, dif_pos h]
  rfl

/-- A byte with the mark `0x80` is a continuation byte. -/
theorem continues_ofNat (n : Nat) : continues (UInt8.ofNat (0x80 + n % 64)) = true := by
  rw [continues, within, toNat_ofNat (by omega)]
  simp
  omega

section Encoding

variable (c : Char) (index : Nat) (rest : List UInt8)

theorem decodeFrom_one (h : c.toNat < 0x80) :
    decodeFrom index (encodeChar c ++ rest) = (decodeFrom (index + 1) rest).map (c :: ·) := by
  have ha := toNat_ofNat (n := c.toNat) (by omega)
  have hlead : Lead.ofByte (UInt8.ofNat c.toNat) = .one := by
    rw [Lead.ofByte, ha, if_pos h]
  rw [encodeChar, if_pos h, List.singleton_append, decodeFrom.eq_def]
  simp only [hlead, ha, Char.ofNat_toNat]

theorem decodeFrom_two (h : 0x80 ≤ c.toNat) (h' : c.toNat < 0x800) :
    decodeFrom index (encodeChar c ++ rest) = (decodeFrom (index + 2) rest).map (c :: ·) := by
  have ha := toNat_ofNat (n := 0xC0 + c.toNat / 64) (by omega)
  have hb := toNat_ofNat (n := 0x80 + c.toNat % 64) (by omega)
  have hlead : Lead.ofByte (UInt8.ofNat (0xC0 + c.toNat / 64)) = .two := by
    rw [Lead.ofByte, ha, if_neg (by omega), if_neg (by omega), if_pos (by omega)]
  have hcontinues := continues_ofNat c.toNat
  have hvalue : (0xC0 + c.toNat / 64) % 32 * 64 + (0x80 + c.toNat % 64) % 64 = c.toNat := by omega
  rw [encodeChar, if_neg (by omega), if_pos h', List.cons_append, List.singleton_append,
    decodeFrom.eq_def]
  simp only [hlead, hcontinues, tail, ha, hb, hvalue, Char.ofNat_toNat]
  rfl

/-- A character of three bytes is read. The second byte keeps overlong forms and surrogates out. -/
theorem decodeFrom_three (h : 0x800 ≤ c.toNat) (h' : c.toNat < 0x10000) :
    decodeFrom index (encodeChar c ++ rest) = (decodeFrom (index + 3) rest).map (c :: ·) := by
  have hchar := toNat_cases c
  have ha := toNat_ofNat (n := 0xE0 + c.toNat / 4096) (by omega)
  have hb := toNat_ofNat (n := 0x80 + c.toNat / 64 % 64) (by omega)
  have hc := toNat_ofNat (n := 0x80 + c.toNat % 64) (by omega)
  -- the second byte of a character that needs three bytes is in the range its lead announces
  obtain ⟨low, high, hlead, hlow, hhigh⟩ : ∃ low high,
      Lead.ofByte (UInt8.ofNat (0xE0 + c.toNat / 4096)) = .three low high ∧
        low ≤ 0x80 + c.toNat / 64 % 64 ∧ 0x80 + c.toNat / 64 % 64 ≤ high := by
    rw [Lead.ofByte, ha, if_neg (by omega), if_neg (by omega), if_neg (by omega)]
    split
    · exact ⟨_, _, rfl, by omega, by omega⟩
    · split
      · exact ⟨_, _, rfl, by omega, by omega⟩
      · rw [if_pos (by omega)]
        exact ⟨_, _, rfl, by omega, by omega⟩
  have hwithin : within (UInt8.ofNat (0x80 + c.toNat / 64 % 64)) low high = true := by
    rw [within, hb]
    simp [hlow, hhigh]
  have hcontinues := continues_ofNat c.toNat
  have hvalue : (0xE0 + c.toNat / 4096) % 16 * 4096 + (0x80 + c.toNat / 64 % 64) % 64 * 64 +
      (0x80 + c.toNat % 64) % 64 = c.toNat := by omega
  rw [encodeChar, if_neg (by omega), if_neg (by omega), if_pos h', List.cons_append,
    List.cons_append, List.singleton_append, decodeFrom.eq_def]
  simp only [hlead, hwithin, hcontinues, tail, ha, hb, hc, hvalue, Char.ofNat_toNat]
  rfl

/-- A character of four bytes is read. The second byte keeps overlong forms and what lies past the
last plane out. -/
theorem decodeFrom_four (h : 0x10000 ≤ c.toNat) :
    decodeFrom index (encodeChar c ++ rest) = (decodeFrom (index + 4) rest).map (c :: ·) := by
  have hchar := toNat_cases c
  have ha := toNat_ofNat (n := 0xF0 + c.toNat / 262144) (by omega)
  have hb := toNat_ofNat (n := 0x80 + c.toNat / 4096 % 64) (by omega)
  have hc := toNat_ofNat (n := 0x80 + c.toNat / 64 % 64) (by omega)
  have hd := toNat_ofNat (n := 0x80 + c.toNat % 64) (by omega)
  obtain ⟨low, high, hlead, hlow, hhigh⟩ : ∃ low high,
      Lead.ofByte (UInt8.ofNat (0xF0 + c.toNat / 262144)) = .four low high ∧
        low ≤ 0x80 + c.toNat / 4096 % 64 ∧ 0x80 + c.toNat / 4096 % 64 ≤ high := by
    rw [Lead.ofByte, ha, if_neg (by omega), if_neg (by omega), if_neg (by omega),
      if_neg (by omega), if_neg (by omega), if_neg (by omega)]
    split
    · exact ⟨_, _, rfl, by omega, by omega⟩
    · split
      · exact ⟨_, _, rfl, by omega, by omega⟩
      · rw [if_pos (by omega)]
        exact ⟨_, _, rfl, by omega, by omega⟩
  have hwithin : within (UInt8.ofNat (0x80 + c.toNat / 4096 % 64)) low high = true := by
    rw [within, hb]
    simp [hlow, hhigh]
  have hcontinues := continues_ofNat (c.toNat / 64)
  have hcontinues' := continues_ofNat c.toNat
  have hvalue : (0xF0 + c.toNat / 262144) % 8 * 262144 + (0x80 + c.toNat / 4096 % 64) % 64 * 4096 +
      (0x80 + c.toNat / 64 % 64) % 64 * 64 + (0x80 + c.toNat % 64) % 64 = c.toNat := by omega
  rw [encodeChar, if_neg (by omega), if_neg (by omega), if_neg (by omega), List.cons_append,
    List.cons_append, List.cons_append, List.singleton_append, decodeFrom.eq_def]
  simp only [hlead, hwithin, hcontinues, hcontinues', tail, ha, hb, hc, hd, hvalue,
    Char.ofNat_toNat]
  rfl

/-- `decodeFrom` inverts `encodeChar`. -/
theorem exists_decodeFrom_encodeChar : ∃ next,
    decodeFrom index (encodeChar c ++ rest) = (decodeFrom next rest).map (c :: ·) := by
  rcases Nat.lt_or_ge c.toNat 0x80 with h | h
  · exact ⟨_, decodeFrom_one c index rest h⟩
  rcases Nat.lt_or_ge c.toNat 0x800 with h' | h'
  · exact ⟨_, decodeFrom_two c index rest h h'⟩
  rcases Nat.lt_or_ge c.toNat 0x10000 with h'' | h''
  · exact ⟨_, decodeFrom_three c index rest h' h''⟩
  · exact ⟨_, decodeFrom_four c index rest h''⟩

end Encoding

/-- `decodeFrom` inverts `encodeChar` on some characters. -/
theorem decodeFrom_flatMap (cs : List Char) (index : Nat) :
    decodeFrom index (cs.flatMap encodeChar) = .ok cs := by
  -- one character at a time, with the bytes of the others behind it
  induction cs generalizing index with
  | nil => rw [List.flatMap_nil, decodeFrom.eq_def]
  | cons c cs ih =>
    obtain ⟨next, h⟩ := exists_decodeFrom_encodeChar c index (cs.flatMap encodeChar)
    rw [List.flatMap_cons, h, ih next]
    rfl

/-- `decode` inverts `encode`. -/
theorem decode_encode (s : String) : decode (encode s) = .ok s := by
  rw [decode, encode, decodeFrom_flatMap]
  exact congrArg Except.ok (String.ofList_toList ..)

theorem encode_append (s t : String) : encode (s ++ t) = encode s ++ encode t := by
  rw [encode, String.toList_append, List.flatMap_append]
  rfl

/-- Only control characters have bytes below 32. -/
theorem le_of_mem_encodeChar {c : Char} (h : 32 ≤ c.toNat) {b : UInt8} (hb : b ∈ encodeChar c) :
    32 ≤ b.toNat := by
  have hchar := toNat_cases c
  unfold encodeChar at hb
  dsimp only at hb
  split at hb
  · rw [List.mem_singleton.mp hb, toNat_ofNat (by omega)]
    exact h
  split at hb
  · simp only [List.mem_cons, List.not_mem_nil, or_false] at hb
    rcases hb with rfl | rfl <;> rw [toNat_ofNat (by omega)] <;> omega
  split at hb
  · simp only [List.mem_cons, List.not_mem_nil, or_false] at hb
    rcases hb with rfl | rfl | rfl <;> rw [toNat_ofNat (by omega)] <;> omega
  · simp only [List.mem_cons, List.not_mem_nil, or_false] at hb
    rcases hb with rfl | rfl | rfl | rfl <;> rw [toNat_ofNat (by omega)] <;> omega

/-- A text without control characters has no byte below 32. -/
theorem le_of_mem_encode {s : String} (h : ∀ c ∈ s.toList, 32 ≤ c.toNat) {b : UInt8}
    (hb : b ∈ encode s) : 32 ≤ b.toNat := by
  obtain ⟨c, hc, hb⟩ := List.mem_flatMap.mp hb
  exact le_of_mem_encodeChar (h c hc) hb

/-! ## What is read was spelt -/

theorem ofNat_eq {n : Nat} {b : UInt8} (h : n = b.toNat) : UInt8.ofNat n = b := by
  rw [h, UInt8.ofNat_toNat]

theorem within_iff {b : UInt8} {low high : Nat} :
    within b low high = true ↔ low ≤ b.toNat ∧ b.toNat ≤ high := by
  rw [within, Bool.and_eq_true, decide_eq_true_eq, decide_eq_true_eq]

/-- The range of a leading byte `n` and of the second byte behind it, without overlong forms,
surrogates and what lies past the last plane. -/
def Lead.Fits (n : Nat) : Lead → Prop
  | .one => n < 0x80
  | .two => 0xC2 ≤ n ∧ n < 0xE0
  | .three low high => 0xE0 ≤ n ∧ n < 0xF0 ∧ 0x80 ≤ low ∧ high ≤ 0xBF ∧
      (n = 0xE0 → 0xA0 ≤ low) ∧ (n = 0xED → high ≤ 0x9F)
  | .four low high => 0xF0 ≤ n ∧ n < 0xF5 ∧ 0x80 ≤ low ∧ high ≤ 0xBF ∧
      (n = 0xF0 → 0x90 ≤ low) ∧ (n = 0xF4 → high ≤ 0x8F)
  | .bad => True

theorem Lead.fits_ofByte (a : UInt8) : (Lead.ofByte a).Fits a.toNat := by
  rw [Lead.ofByte]
  repeat' split
  all_goals simp only [Lead.Fits]
  all_goals omega

/-- `Lead.ofByte` of a byte `Fits` it. -/
theorem Lead.fits_of_eq {a : UInt8} {lead : Lead} (h : Lead.ofByte a = lead) :
    lead.Fits a.toNat :=
  h ▸ Lead.fits_ofByte a

section Decoding

variable {a b c d : UInt8} {low high : Nat}

theorem encodeChar_of_one (h : Lead.ofByte a = .one) :
    encodeChar (Char.ofNat a.toNat) = [a] := by
  have ha : a.toNat < 0x80 := Lead.fits_of_eq h
  rw [encodeChar, toNat_charOfNat (.inl (by omega)), if_pos ha, UInt8.ofNat_toNat]

theorem encodeChar_of_two (h : Lead.ofByte a = .two) (hb : continues b = true) :
    encodeChar (Char.ofNat (a.toNat % 32 * 64 + tail b)) = [a, b] := by
  have ha := Lead.fits_of_eq h
  simp only [Lead.Fits] at ha
  have hb := within_iff.mp hb
  have hvalue : (Char.ofNat (a.toNat % 32 * 64 + b.toNat % 64)).toNat =
      a.toNat % 32 * 64 + b.toNat % 64 := toNat_charOfNat (.inl (by omega))
  rw [tail, encodeChar, hvalue, if_neg (by omega), if_pos (by omega), ofNat_eq (b := a) (by omega),
    ofNat_eq (b := b) (by omega)]

theorem encodeChar_of_three (h : Lead.ofByte a = .three low high)
    (hb : within b low high = true) (hc : continues c = true) :
    encodeChar (Char.ofNat (a.toNat % 16 * 4096 + tail b * 64 + tail c)) = [a, b, c] := by
  have ha := Lead.fits_of_eq h
  simp only [Lead.Fits] at ha
  have hb := within_iff.mp hb
  have hc := within_iff.mp hc
  have hvalue : (Char.ofNat (a.toNat % 16 * 4096 + b.toNat % 64 * 64 + c.toNat % 64)).toNat =
      a.toNat % 16 * 4096 + b.toNat % 64 * 64 + c.toNat % 64 :=
    toNat_charOfNat (by unfold Nat.isValidChar; omega)
  rw [tail, tail, encodeChar, hvalue, if_neg (by omega), if_neg (by omega), if_pos (by omega),
    ofNat_eq (b := a) (by omega), ofNat_eq (b := b) (by omega), ofNat_eq (b := c) (by omega)]

theorem encodeChar_of_four (h : Lead.ofByte a = .four low high)
    (hb : within b low high = true) (hc : continues c = true) (hd : continues d = true) :
    encodeChar (Char.ofNat (a.toNat % 8 * 262144 + tail b * 4096 + tail c * 64 + tail d)) =
      [a, b, c, d] := by
  have ha := Lead.fits_of_eq h
  simp only [Lead.Fits] at ha
  have hb := within_iff.mp hb
  have hc := within_iff.mp hc
  have hd := within_iff.mp hd
  have hvalue : (Char.ofNat (a.toNat % 8 * 262144 + b.toNat % 64 * 4096 + c.toNat % 64 * 64 +
      d.toNat % 64)).toNat = a.toNat % 8 * 262144 + b.toNat % 64 * 4096 + c.toNat % 64 * 64 +
      d.toNat % 64 :=
    toNat_charOfNat (by unfold Nat.isValidChar; omega)
  rw [tail, tail, tail, encodeChar, hvalue, if_neg (by omega), if_neg (by omega), if_neg (by omega),
    ofNat_eq (b := a) (by omega), ofNat_eq (b := b) (by omega), ofNat_eq (b := c) (by omega),
    ofNat_eq (b := d) (by omega)]

end Decoding

/-- `encodeChar` inverts `decodeFrom`. -/
theorem flatMap_of_decodeFrom {index : Nat} {bytes : List UInt8} {cs : List Char}
    (h : decodeFrom index bytes = .ok cs) : cs.flatMap encodeChar = bytes := by
  -- a case for each way to read a character; all others end in an error
  fun_induction decodeFrom index bytes generalizing cs with
  | case1 =>
    cases h
    rfl
  | case2 index a rest hlead ih =>
    obtain ⟨cs, hcs, rfl⟩ := Traversal.map_eq_ok_iff.mp h
    rw [List.flatMap_cons, encodeChar_of_one hlead, ih hcs, List.singleton_append]
  | case5 index a hlead b rest hb ih =>
    obtain ⟨cs, hcs, rfl⟩ := Traversal.map_eq_ok_iff.mp h
    rw [List.flatMap_cons, encodeChar_of_two hlead (by simpa using hb), ih hcs]
    rfl
  | case10 index a low high hlead b hb c rest hc ih =>
    obtain ⟨cs, hcs, rfl⟩ := Traversal.map_eq_ok_iff.mp h
    rw [List.flatMap_cons,
      encodeChar_of_three hlead (by simpa using hb) (by simpa using hc), ih hcs]
    rfl
  | case17 index a low high hlead b hb c hc d rest hd ih =>
    obtain ⟨cs, hcs, rfl⟩ := Traversal.map_eq_ok_iff.mp h
    rw [List.flatMap_cons,
      encodeChar_of_four hlead (by simpa using hb) (by simpa using hc) (by simpa using hd), ih hcs]
    rfl
  | _ => injection h

/-- `decode` accepts exactly what `encode` writes. -/
theorem decode_eq_ok_iff {bytes : List UInt8} {s : String} :
    decode bytes = .ok s ↔ encode s = bytes := by
  constructor
  · intro h
    obtain ⟨cs, hcs, rfl⟩ := Traversal.map_eq_ok_iff.mp h
    rw [encode, String.toList_ofList, flatMap_of_decodeFrom hcs]
  · rintro rfl
    exact decode_encode s

theorem encode_inj {s t : String} : encode s = encode t ↔ s = t := by
  constructor
  · intro h
    have hs := decode_encode s
    rw [h, decode_encode] at hs
    exact (Except.ok.inj hs).symm
  · rintro rfl
    rfl

end Utf8

/-! ## Numbers behind texts -/

namespace Text

theorem toDigits_inj {m n : Nat} (h : Nat.toDigits 10 m = Nat.toDigits 10 n) : m = n := by
  have hm := Nat.ofDigitChars_toDigits (n := m) (by decide : 1 < 10) (by decide)
  rwa [h, Nat.ofDigitChars_toDigits (by decide) (by decide), eq_comm] at hm

theorem dash_not_mem_toDigits (n : Nat) : '-' ∉ Nat.toDigits 10 n := by
  intro h
  have hdigit := Nat.isDigit_of_mem_toDigits (by decide) (by decide) h
  simp at hdigit

/-- A mark that is in neither of the texts behind it separates them from what is in front of it. -/
theorem append_mark_inj {α : Type} {mark : α} {a b c d : List α} (hc : mark ∉ c) (hd : mark ∉ d) :
    a ++ mark :: c = b ++ mark :: d ↔ a = b ∧ c = d := by
  constructor
  · intro h
    -- where one text is longer than the other, the mark behind it stands in what follows the other
    rcases List.append_eq_append_iff.mp h with ⟨more, rfl, hrest⟩ | ⟨more, rfl, hrest⟩
    · rcases List.cons_eq_append_iff.mp hrest with ⟨rfl, heq⟩ | ⟨more, rfl, rfl⟩
      · exact ⟨(List.append_nil a).symm, (List.cons.inj heq).2.symm⟩
      · exact absurd (by simp) hc
    · rcases List.cons_eq_append_iff.mp hrest with ⟨rfl, heq⟩ | ⟨more, rfl, rfl⟩
      · exact ⟨List.append_nil b, (List.cons.inj heq).2⟩
      · exact absurd (by simp) hd
  · rintro ⟨rfl, rfl⟩
    rfl

/-- A text with a dash and the decimal of a number behind it determines both. -/
theorem numbered_inj {a b : List Char} {m n : Nat} :
    a ++ '-' :: Nat.toDigits 10 m = b ++ '-' :: Nat.toDigits 10 n ↔ a = b ∧ m = n := by
  rw [append_mark_inj (dash_not_mem_toDigits m) (dash_not_mem_toDigits n)]
  exact and_congr_right fun _ => ⟨toDigits_inj, fun h => by rw [h]⟩

end Text

end Fanout
