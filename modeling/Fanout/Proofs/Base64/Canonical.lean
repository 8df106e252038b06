import Fanout.Proofs.Base64
import Fanout.Worker.Line

/-!
# Base64 texts are canonical

`decode` accepts only texts that `encode` writes (`Base64.decode_eq_ok_iff`). Each reader is
inverted: the text it has read consists of the symbols of some numbers and padding, and numbers
without spare bits are the sextets of the bytes they pack to (`Base64.sextets_pack`).

`Base64.Canonical` is the set of these texts as a grammar (`Base64.canonical_iff`), and the set of
texts that payloads are read from (`Payload.text_canonical`).
-/

namespace Fanout.Base64

/-! ## Reading undoes writing -/

/-- `value?` of a byte is `v` iff the byte is the symbol of `v`. -/
theorem value?_eq_some_iff {b : UInt8} {v : Nat} : value? b = some v ↔ v < 64 ∧ symbol v = b := by
  constructor
  · intro h
    unfold value? at h
    dsimp only at h
    unfold symbol
    split at h
    · cases h
      rw [if_pos (by omega)]
      exact ⟨by omega, Utf8.ofNat_eq (by omega)⟩
    split at h
    · cases h
      rw [if_neg (by omega), if_pos (by omega)]
      exact ⟨by omega, Utf8.ofNat_eq (by omega)⟩
    split at h
    · cases h
      rw [if_neg (by omega), if_neg (by omega), if_pos (by omega)]
      exact ⟨by omega, Utf8.ofNat_eq (by omega)⟩
    split at h
    · cases h
      exact ⟨by decide, Utf8.ofNat_eq (n := 43) (by omega)⟩
    split at h
    · cases h
      exact ⟨by decide, Utf8.ofNat_eq (n := 47) (by omega)⟩
    · cases h
  · rintro ⟨hv, rfl⟩
    exact value?_symbol hv

/-- The numbers that `values` reads are those of the symbols. -/
theorem eq_map_of_values {offset : Nat} {text : List UInt8} {vs : List Nat}
    (h : values offset text = .ok vs) : text = vs.map symbol ∧ ∀ v ∈ vs, v < 64 := by
  induction text generalizing offset vs with
  | nil =>
    cases h
    exact ⟨rfl, by simp⟩
  | cons b rest ih =>
    rw [values] at h
    split at h
    case h_1 v hb =>
      obtain ⟨ws, hws, rfl⟩ := Traversal.map_eq_ok_iff.mp h
      obtain ⟨hv, rfl⟩ := value?_eq_some_iff.mp hb
      obtain ⟨rfl, hlt⟩ := ih hws
      exact ⟨rfl, List.forall_mem_cons.mpr ⟨hv, hlt⟩⟩
    case h_2 => cases h

/-- Behind padding `lastValues` accepts only more padding, as far as the group has room for it. -/
theorem eq_replicate_of_lastValues {start i first count n : Nat} {text : List UInt8}
    {vs : List Nat} (h : lastValues start i (some (first, count)) text = .ok (vs, n)) :
    vs = [] ∧ ∃ k, text = List.replicate k pad ∧ n = count + k ∧
      (k = 0 ∨ 2 ≤ i % 4 ∧ i % 4 + k ≤ 4) := by
  induction text generalizing i count with
  | nil =>
    cases h
    exact ⟨rfl, 0, rfl, rfl, .inl rfl⟩
  | cons b rest ih =>
    rw [lastValues] at h
    split at h
    case isTrue hpad =>
      split at h
      case isTrue => cases h
      case isFalse hplace =>
        obtain ⟨rfl, k, rfl, rfl, hk⟩ := ih h
        exact ⟨rfl, k + 1, by rw [hpad, List.replicate_succ], by omega, .inr (by omega)⟩
    case isFalse => cases h

/-- `lastValues` accepts symbols, and behind them padding that ends a group. -/
theorem eq_append_of_lastValues {start i n : Nat} {text : List UInt8} {vs : List Nat}
    (h : lastValues start i none text = .ok (vs, n)) :
    text = vs.map symbol ++ List.replicate n pad ∧ (∀ v ∈ vs, v < 64) ∧
      (n = 0 ∨ 2 ≤ (i + vs.length) % 4 ∧ (i + vs.length) % 4 + n ≤ 4) := by
  induction text generalizing i vs with
  | nil =>
    cases h
    exact ⟨rfl, by simp, .inl rfl⟩
  | cons b rest ih =>
    rw [lastValues] at h
    split at h
    case isTrue hpad =>
      split at h
      case isTrue => cases h
      case isFalse hplace =>
        -- the first padding byte ends the symbols
        obtain ⟨rfl, k, rfl, rfl, hk⟩ := eq_replicate_of_lastValues h
        refine ⟨?_, by simp, .inr ?_⟩
        · rw [hpad, Nat.add_comm, List.replicate_succ]
          rfl
        · rw [List.length_nil]
          omega
    case isFalse hpad =>
      split at h
      case h_1 => cases h
      case h_2 v hb =>
        obtain ⟨⟨ws, m⟩, hws, heq⟩ := Traversal.map_eq_ok_iff.mp h
        cases heq
        obtain ⟨hv, rfl⟩ := value?_eq_some_iff.mp hb
        obtain ⟨rfl, hlt, hplace⟩ := ih hws
        refine ⟨rfl, List.forall_mem_cons.mpr ⟨hv, hlt⟩, ?_⟩
        dsimp only at hplace ⊢
        rw [List.length_cons]
        omega

/-- Numbers without spare bits are the `sextets` of the bytes that they `pack` to. -/
theorem sextets_pack {vs : List Nat} (hlt : ∀ v ∈ vs, v < 64) (hspare : (pack vs).2 = 0)
    (hlen : vs.length % 4 ≠ 1) : sextets (pack vs).1 = vs := by
  fun_induction pack vs with
  | case1 v w x y rest r ih =>
    simp only [List.forall_mem_cons] at hlt
    obtain ⟨hv, hw, hx, hy, hrest⟩ := hlt
    simp only [List.length_cons] at hlen
    rw [sextets, ih hrest hspare (by omega), Utf8.toNat_ofNat (by omega),
      Utf8.toNat_ofNat (by omega), Utf8.toNat_ofNat (by omega)]
    simp only [List.cons.injEq, and_true]
    omega
  | case2 v w x =>
    simp only [List.forall_mem_cons] at hlt
    obtain ⟨hv, hw, hx, -⟩ := hlt
    rw [sextets, Utf8.toNat_ofNat (by omega), Utf8.toNat_ofNat (by omega)]
    simp only [List.cons.injEq, and_true]
    omega
  | case3 v w =>
    simp only [List.forall_mem_cons] at hlt
    obtain ⟨hv, hw, -⟩ := hlt
    rw [sextets, Utf8.toNat_ofNat (by omega)]
    simp only [List.cons.injEq, and_true]
    omega
  | case4 vs hmany hthree htwo =>
    match vs with
    | [] => rfl
    | [_] => exact absurd rfl hlen
    | [v, w] => exact absurd rfl (htwo v w)
    | [v, w, x] => exact absurd rfl (hthree v w x)
    | v :: w :: x :: y :: rest => exact absurd rfl (hmany v w x y rest)

/-- Numbers without spare bits, with padding that fills the last group, are what `encodeBytes` makes
of the bytes that they `pack` to. -/
theorem encodeBytes_pack {vs : List Nat} {n : Nat} (hlt : ∀ v ∈ vs, v < 64)
    (hspare : (pack vs).2 = 0) (hn : n ≤ 2) (hlen : (vs.length + n) % 4 = 0) :
    encodeBytes (pack vs).1 = vs.map symbol ++ List.replicate n pad := by
  have hsextets : sextets (pack vs).1 = vs := sextets_pack hlt hspare (by omega)
  have hgroup := length_sextets_add_padding (pack vs).1
  have htwo := padding_le_two (pack vs).1
  rw [hsextets] at hgroup
  have hpadding : padding (pack vs).1 = n := by omega
  rw [encodeBytes_eq, hsextets, hpadding]

/-- `encodeBytes` inverts `decodeBytes`. -/
theorem encodeBytes_of_decodeBytes {text bytes : List UInt8}
    (h : decodeBytes text = .ok bytes) : encodeBytes bytes = text := by
  rw [decodeBytes] at h
  split at h
  case isTrue =>
    -- one symbol is left over: an error, whichever one
    split at h
    · split at h
      · cases h
      · cases h
    · cases h
  case isFalse =>
    simp only [Traversal.bind_eq_ok_iff] at h
    obtain ⟨front, hfront, ⟨back, n⟩, hback, h⟩ := h
    dsimp only at h
    split at h
    case isTrue => cases h
    case isFalse hfull =>
      split at h
      case isTrue => cases h
      case isFalse hspare =>
        cases h
        obtain ⟨htake, hfrontlt⟩ := eq_map_of_values hfront
        obtain ⟨hdrop, hbacklt, hplace⟩ := eq_append_of_lastValues hback
        -- what is read first is whole groups
        have hlength : front.length = lastStart text.length := by
          have := congrArg List.length htake
          rw [List.length_take, List.length_map] at this
          rw [lastStart] at this ⊢
          omega
        have hgroups : front.length % 4 = 0 := by
          rw [hlength, lastStart]
          omega
        have hlt : ∀ v ∈ front ++ back, v < 64 := fun v hv =>
          (List.mem_append.mp hv).elim (hfrontlt v) (hbacklt v)
        rw [encodeBytes_pack hlt (Decidable.not_not.mp hspare) (n := n) (by omega)
          (by rw [List.length_append]; omega), List.map_append, List.append_assoc, ← htake, ← hdrop,
          List.take_append_drop]

/-- `decodeBytes` accepts exactly what `encodeBytes` writes. -/
theorem decodeBytes_eq_ok_iff {text bytes : List UInt8} :
    decodeBytes text = .ok bytes ↔ text = encodeBytes bytes := by
  constructor
  · intro h
    exact (encodeBytes_of_decodeBytes h).symm
  · rintro rfl
    exact decodeBytes_encodeBytes bytes

/-- `decode` accepts exactly what `encode` writes. -/
theorem decode_eq_ok_iff {text : String} {bytes : List UInt8} :
    decode text = .ok bytes ↔ text = encode bytes := by
  rw [decode, decodeBytes_eq_ok_iff, ← encode_toText, Utf8.encode_inj]

/-! ## Canonical texts -/

/-- The symbols of base64, in the order of their numbers. -/
def alphabet : List Char :=
  "ABCDEFGHIJKLMNOPQRSTUVWXYZabcdefghijklmnopqrstuvwxyz0123456789+/".toList

/-- Groups of four symbols, the last of which may have padding. The symbol in front of padding has
no bits beyond those of its bytes. -/
inductive Canonical : List Char → Prop where
  | nil : Canonical []
  /-- One byte leaves four spare bits in its second symbol. -/
  | one {a b : Char} {n : Nat} (ha : a ∈ alphabet) (hb : alphabet[16 * n]? = some b) :
    Canonical [a, b, '=', '=']
  /-- Two bytes leave two spare bits in their third symbol. -/
  | two {a b c : Char} {n : Nat} (ha : a ∈ alphabet) (hb : b ∈ alphabet)
    (hc : alphabet[4 * n]? = some c) : Canonical [a, b, c, '=']
  | group {a b c d : Char} {rest : List Char} (ha : a ∈ alphabet) (hb : b ∈ alphabet)
    (hc : c ∈ alphabet) (hd : d ∈ alphabet) (hrest : Canonical rest) :
    Canonical (a :: b :: c :: d :: rest)

def character (b : UInt8) : Char := Char.ofNat b.toNat

theorem getElem?_alphabet {v : Nat} (h : v < 64) : alphabet[v]? = some (character (symbol v)) := by
  have : ∀ v < 64, alphabet[v]? = some (character (symbol v)) := by decide
  exact this v h

/-- A character of `alphabet` is the symbol of its position. -/
theorem exists_of_getElem?_alphabet {v : Nat} {c : Char} (h : alphabet[v]? = some c) :
    v < 64 ∧ character (symbol v) = c := by
  obtain ⟨hv, -⟩ := List.getElem?_eq_some_iff.mp h
  have hv : v < 64 := hv
  rw [getElem?_alphabet hv] at h
  exact ⟨hv, Option.some.inj h⟩

theorem mem_alphabet_iff {c : Char} : c ∈ alphabet ↔ ∃ v < 64, character (symbol v) = c := by
  rw [List.mem_iff_getElem?]
  constructor
  · rintro ⟨v, hv⟩
    exact ⟨v, exists_of_getElem?_alphabet hv⟩
  · rintro ⟨v, hv, rfl⟩
    exact ⟨v, getElem?_alphabet hv⟩

/-- `encodeBytes` writes `Canonical` texts. -/
theorem canonical_encodeBytes (bytes : List UInt8) :
    Canonical ((encodeBytes bytes).map character) := by
  have hmem {v : Nat} (hv : v < 64) : character (symbol v) ∈ alphabet :=
    mem_alphabet_iff.mpr ⟨v, hv, rfl⟩
  -- bits that fill the last symbol up are zero, so its number is a multiple
  fun_induction encodeBytes bytes with
  | case1 => exact .nil
  | case2 a =>
    have := a.toNat_lt
    refine .one (hmem (by omega)) (n := a.toNat % 4) ?_
    rw [Nat.mul_comm, getElem?_alphabet (by omega)]
  | case3 a b =>
    have := a.toNat_lt
    have := b.toNat_lt
    refine .two (hmem (by omega)) (hmem (by omega)) (n := b.toNat % 16) ?_
    rw [Nat.mul_comm, getElem?_alphabet (by omega)]
  | case4 a b c rest ih =>
    have := a.toNat_lt
    have := b.toNat_lt
    have := c.toNat_lt
    exact .group (hmem (by omega)) (hmem (by omega)) (hmem (by omega)) (hmem (by omega)) ih

/-- A `Canonical` text consists of the symbols of numbers without spare bits, and of the padding
that fills the last group. -/
theorem Canonical.exists_values {cs : List Char} (h : Canonical cs) :
    ∃ vs n, cs = (vs.map symbol ++ List.replicate n pad).map character ∧ (∀ v ∈ vs, v < 64) ∧
      (pack vs).2 = 0 ∧ n ≤ 2 ∧ (vs.length + n) % 4 = 0 := by
  induction h with
  | nil => exact ⟨[], 0, rfl, by simp, rfl, by omega, rfl⟩
  | one ha hb =>
    obtain ⟨v, hv, rfl⟩ := mem_alphabet_iff.mp ha
    obtain ⟨hw, rfl⟩ := exists_of_getElem?_alphabet hb
    refine ⟨[v, 16 * _], 2, rfl, by simp [hv, hw], ?_, by omega, by simp⟩
    exact Nat.mul_mod_right 16 _
  | two ha hb hc =>
    obtain ⟨v, hv, rfl⟩ := mem_alphabet_iff.mp ha
    obtain ⟨w, hw, rfl⟩ := mem_alphabet_iff.mp hb
    obtain ⟨hx, rfl⟩ := exists_of_getElem?_alphabet hc
    refine ⟨[v, w, 4 * _], 1, rfl, by simp [hv, hw, hx], ?_, by omega, by simp⟩
    exact Nat.mul_mod_right 4 _
  | group ha hb hc hd hrest ih =>
    obtain ⟨v, hv, rfl⟩ := mem_alphabet_iff.mp ha
    obtain ⟨w, hw, rfl⟩ := mem_alphabet_iff.mp hb
    obtain ⟨x, hx, rfl⟩ := mem_alphabet_iff.mp hc
    obtain ⟨y, hy, rfl⟩ := mem_alphabet_iff.mp hd
    obtain ⟨vs, n, rfl, hvs, hspare, hn, hlen⟩ := ih
    refine ⟨v :: w :: x :: y :: vs, n, rfl, ?_, hspare, hn, ?_⟩
    · simp only [List.forall_mem_cons]
      exact ⟨hv, hw, hx, hy, hvs⟩
    · simp only [List.length_cons]
      omega

/-- The texts of `encode` are the `Canonical` ones. -/
theorem canonical_iff {text : String} : Canonical text.toList ↔ ∃ bytes, text = encode bytes := by
  constructor
  · intro h
    obtain ⟨vs, n, htext, hlt, hspare, hn, hlen⟩ := h.exists_values
    refine ⟨(pack vs).1, ?_⟩
    rw [encode, encodeBytes_pack hlt hspare hn hlen, ← String.ofList_toList (s := text), htext]
    rfl
  · rintro ⟨bytes, rfl⟩
    rw [encode, String.toList_ofList]
    exact canonical_encodeBytes bytes

end Fanout.Base64

namespace Fanout.Payload

/-- `Payload.ofText` accepts only the text of `Payload.toText`, so exactly the `Base64.Canonical`
texts. In a message a payload is read from a string only. -/
theorem text_canonical :
    (∀ text payload, ofText text = .ok payload ↔ text = payload.toText) ∧
      (∀ text, (∃ payload, ofText text = .ok payload) ↔ Base64.Canonical text.toList) ∧
      ∀ (value : Json.Value) payload,
        value.toPayload = .ok payload ↔ value = .string payload.toText := by
  have htext (text : String) (payload : Payload) :
      ofText text = .ok payload ↔ text = payload.toText := by
    rw [ofText, Traversal.map_eq_ok_iff, toText, ← Base64.decode_eq_ok_iff]
    constructor
    · rintro ⟨bytes, h, rfl⟩
      exact h
    · intro h
      exact ⟨payload.bytes, h, rfl⟩
  refine ⟨htext, fun text => ?_, fun value payload => ?_⟩
  · rw [Base64.canonical_iff]
    constructor
    · rintro ⟨payload, h⟩
      exact ⟨payload.bytes, (htext text payload).mp h⟩
    · rintro ⟨bytes, rfl⟩
      exact ⟨⟨bytes⟩, (htext _ _).mpr rfl⟩
  · cases value with
    | string text =>
      rw [Json.Value.toPayload, Json.Value.toText, Traversal.ok_bind, Json.Value.string.injEq,
        ← htext]
      cases ofText text with
      | ok payload' => simp [pure, Except.pure]
      | error e => simp [throw, throwThe, MonadExceptOf.throw]
    -- what is no string is refused before it is looked at as base64
    | _ => simp [Json.Value.toPayload, Json.Value.toText, bind, Except.bind]

-- padding is missing, superfluous or misplaced, bits are left over, or a symbol is none
example : ["AQ", "AQ=", "AQID====", "A=Q=", "AR==", "AQ ID", "-_8="].all
    fun text => (ofText text).toOption.isNone := by
  decide

end Fanout.Payload
