import Fanout.Base64
import Fanout.Proofs.Text

/-!
# Byte strings survive base64

Encoding splits a byte string into `sextets` and adds `padding`. Decoding the symbols gives the
sextets, and packing them gives the bytes: `Base64.decode_encode`.
-/

namespace Fanout.Base64

/-- The six-bit numbers of a byte string. -/
def sextets : List UInt8 → List Nat
  | [] => []
  | [a] => [a.toNat / 4, a.toNat % 4 * 16]
  | [a, b] => [a.toNat / 4, a.toNat % 4 * 16 + b.toNat / 16, b.toNat % 16 * 4]
  | a :: b :: c :: rest =>
    a.toNat / 4 :: (a.toNat % 4 * 16 + b.toNat / 16) :: (b.toNat % 16 * 4 + c.toNat / 64) ::
      c.toNat % 64 :: sextets rest

/-- The number of padding bytes behind the symbols of a byte string. -/
def padding : List UInt8 → Nat
  | [] => 0
  | [_] => 2
  | [_, _] => 1
  | _ :: _ :: _ :: rest => padding rest

/-- `encodeBytes` writes the symbols of `sextets` and then `padding`. -/
theorem encodeBytes_eq (bytes : List UInt8) :
    encodeBytes bytes = (sextets bytes).map symbol ++ List.replicate (padding bytes) pad := by
  fun_induction sextets bytes with
  | case1 => rfl
  | case2 => rfl
  | case3 => rfl
  | case4 a b c rest ih =>
    rw [encodeBytes, ih]
    rfl

theorem padding_le_two (bytes : List UInt8) : padding bytes ≤ 2 := by
  fun_induction padding bytes with
  | case1 | case2 | case3 => simp
  | case4 a b c rest ih => exact ih

/-- `sextets` and `padding` fill groups of four. -/
theorem length_sextets_add_padding (bytes : List UInt8) :
    ((sextets bytes).length + padding bytes) % 4 = 0 := by
  fun_induction sextets bytes with
  | case1 | case2 | case3 => simp [padding]
  | case4 a b c rest ih =>
    simp only [List.length_cons, padding]
    omega

theorem lt_of_mem_sextets {bytes : List UInt8} {v : Nat} (h : v ∈ sextets bytes) : v < 64 := by
  fun_induction sextets bytes with
  | case1 => cases h
  | case2 a =>
    have := a.toNat_lt
    simp at h
    omega
  | case3 a b =>
    have := a.toNat_lt
    have := b.toNat_lt
    simp at h
    omega
  | case4 a b c rest ih =>
    have := a.toNat_lt
    have := b.toNat_lt
    have := c.toNat_lt
    simp only [List.mem_cons] at h
    rcases h with rfl | rfl | rfl | rfl | h
    · omega
    · omega
    · omega
    · omega
    · exact ih h

/-- `pack` recovers the bytes from `sextets` and leaves no bits over. -/
theorem pack_sextets (bytes : List UInt8) : pack (sextets bytes) = (bytes, 0) := by
  have hbyte (n : Nat) (a : UInt8) (h : n = a.toNat) : UInt8.ofNat n = a := by
    rw [h, UInt8.ofNat_toNat]
  fun_induction sextets bytes with
  | case1 => rfl
  | case2 a =>
    have := a.toNat_lt
    rw [pack, hbyte _ a (by omega), Nat.mul_mod_left]
  | case3 a b =>
    have := a.toNat_lt
    have := b.toNat_lt
    rw [pack, hbyte _ a (by omega), hbyte _ b (by omega), Nat.mul_mod_left]
  | case4 a b c rest ih =>
    have := a.toNat_lt
    have := b.toNat_lt
    have := c.toNat_lt
    rw [pack, ih, hbyte _ a (by omega), hbyte _ b (by omega), hbyte _ c (by omega)]

theorem value?_symbol {v : Nat} (h : v < 64) : value? (symbol v) = some v := by
  have : ∀ v < 64, value? (symbol v) = some v := by decide
  exact this v h

theorem symbol_ne_pad {v : Nat} (h : v < 64) : symbol v ≠ pad := by
  have : ∀ v < 64, symbol v ≠ pad := by decide
  exact this v h

/-- Every symbol is an ASCII character. -/
theorem toNat_symbol_lt {v : Nat} (h : v < 64) : (symbol v).toNat < 0x80 := by
  have : ∀ v < 64, (symbol v).toNat < 0x80 := by decide
  exact this v h

/-- `values` recovers numbers from their symbols. -/
theorem values_map_symbol {vs : List Nat} (h : ∀ v ∈ vs, v < 64) (offset : Nat) :
    values offset (vs.map symbol) = .ok vs := by
  induction vs generalizing offset with
  | nil => rfl
  | cons v vs ih =>
    rw [List.map_cons, values, value?_symbol (h v List.mem_cons_self)]
    dsimp only
    rw [ih (fun w hw => h w (List.mem_cons_of_mem _ hw))]
    rfl

/-- `lastValues` counts padding that ends its group. -/
theorem lastValues_replicate (start i first count n : Nat)
    (h : n = 0 ∨ 2 ≤ i % 4 ∧ i % 4 + n ≤ 4) :
    lastValues start i (some (first, count)) (List.replicate n pad) = .ok ([], count + n) := by
  induction n generalizing i count with
  | zero => rfl
  | succ n ih =>
    rw [List.replicate_succ, lastValues, if_pos rfl, if_neg (by omega)]
    dsimp only
    rw [ih (i + 1) (count + 1) (by omega), Nat.add_right_comm]
    rfl

/-- `lastValues` recovers the numbers from their symbols, and counts the padding behind them. -/
theorem lastValues_map_symbol {vs : List Nat} (h : ∀ v ∈ vs, v < 64) (start i n : Nat)
    (hn : n ≤ 2) (hlen : (i + vs.length + n) % 4 = 0) :
    lastValues start i none (vs.map symbol ++ List.replicate n pad) = .ok (vs, n) := by
  -- the symbols come first; only what follows them is padding
  induction vs generalizing i with
  | nil =>
    cases n with
    | zero => rfl
    | succ n =>
      rw [List.length_nil, Nat.add_zero] at hlen
      rw [List.map_nil, List.nil_append, List.replicate_succ, lastValues, if_pos rfl,
        if_neg (by omega)]
      dsimp only
      rw [lastValues_replicate start (i + 1) i 1 n (by omega), Nat.add_comm]
  | cons v vs ih =>
    have hv := h v List.mem_cons_self
    rw [List.length_cons] at hlen
    rw [List.map_cons, List.cons_append, lastValues, if_neg (symbol_ne_pad hv), value?_symbol hv]
    dsimp only
    rw [ih (fun w hw => h w (List.mem_cons_of_mem _ hw)) (i + 1) (by omega)]
    rfl

/-- `decodeBytes` inverts `encodeBytes`. -/
theorem decodeBytes_encodeBytes (bytes : List UInt8) :
    decodeBytes (encodeBytes bytes) = .ok bytes := by
  have hlen := length_sextets_add_padding bytes
  have hpad := padding_le_two bytes
  have hsextets : ∀ v ∈ sextets bytes, v < 64 := fun v hv => lt_of_mem_sextets hv
  have hlength : (encodeBytes bytes).length = (sextets bytes).length + padding bytes := by
    rw [encodeBytes_eq, List.length_append, List.length_map, List.length_replicate]
  -- padding occurs only in what is read last
  have hstart : lastStart (encodeBytes bytes).length ≤ (sextets bytes).length := by
    rw [hlength, lastStart]
    omega
  have hgroup : lastStart (encodeBytes bytes).length % 4 = 0 := by
    rw [lastStart]
    omega
  rw [decodeBytes, if_neg (by omega)]
  generalize lastStart (encodeBytes bytes).length = start at hstart hgroup
  have htake : (encodeBytes bytes).take start = ((sextets bytes).take start).map symbol := by
    rw [encodeBytes_eq, List.take_append_of_le_length (by simpa using hstart), List.map_take]
  have hdrop : (encodeBytes bytes).drop start =
      ((sextets bytes).drop start).map symbol ++ List.replicate (padding bytes) pad := by
    rw [encodeBytes_eq, List.drop_append_of_le_length (by simpa using hstart), List.map_drop]
  have hfront : values 0 (((sextets bytes).take start).map symbol) =
      .ok ((sextets bytes).take start) :=
    values_map_symbol (fun v hv => hsextets v (List.mem_of_mem_take hv)) 0
  have hback : lastValues start 0 none (((sextets bytes).drop start).map symbol ++
      List.replicate (padding bytes) pad) = .ok ((sextets bytes).drop start, padding bytes) := by
    refine lastValues_map_symbol (fun v hv => hsextets v (List.mem_of_mem_drop hv)) start 0 _
      hpad ?_
    rw [List.length_drop]
    omega
  simp only [htake, hdrop, hfront, hback, bind, Except.bind, pure, Except.pure, List.length_drop,
    List.take_append_drop, pack_sextets]
  rw [if_neg (by omega)]
  rfl

/-- The bytes of the text that `encode` makes are those of `encodeBytes`. -/
theorem encode_toText (bytes : List UInt8) : Utf8.encode (encode bytes) = encodeBytes bytes := by
  have hbyte (b : UInt8) (hb : b ∈ encodeBytes bytes) : b.toNat < 0x80 := by
    rw [encodeBytes_eq, List.mem_append] at hb
    rcases hb with hb | hb
    · obtain ⟨v, hv, rfl⟩ := List.mem_map.mp hb
      exact toNat_symbol_lt (lt_of_mem_sextets hv)
    · rw [List.eq_of_mem_replicate hb]
      decide
  rw [Utf8.encode, encode, String.toList_ofList]
  -- every byte is below 128, so it is the whole encoding of its character
  generalize encodeBytes bytes = text at hbyte
  induction text with
  | nil => rfl
  | cons b rest ih =>
    have hb : b.toNat < 0x80 := hbyte b List.mem_cons_self
    have hvalid : b.toNat.isValidChar := .inl (by omega)
    have hchar : Utf8.encodeChar (Char.ofNat b.toNat) = [b] := by
      rw [Utf8.encodeChar, Utf8.toNat_charOfNat hvalid, if_pos hb, UInt8.ofNat_toNat]
    rw [List.map_cons, List.flatMap_cons, hchar,
      ih fun other hother => hbyte other (List.mem_cons_of_mem _ hother)]
    rfl

/-- `decode` inverts `encode`. -/
theorem decode_encode (bytes : List UInt8) : decode (encode bytes) = .ok bytes := by
  rw [decode, encode_toText, decodeBytes_encodeBytes]

end Fanout.Base64
