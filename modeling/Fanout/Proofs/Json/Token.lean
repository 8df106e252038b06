import Fanout.Proofs.Json.Compact
import Fanout.Proofs.Json.Grammar

/-!
# Tokens are read by themselves

A quoted text is read as the characters it `Spells`, and rejected if there are none
(`readString_eq_ok_iff`). The value of a number does not depend on what follows it, provided that
does not continue the number (`exists_readNumber`), and only plain decimals are read as integers
without a sign.
-/

namespace Fanout.Json

/-! ## Quoted texts -/

theorem readChars_quote (fuel : Nat) (rest : List Char) :
    readChars (fuel + 1) ('"' :: rest) = .ok ([], rest) := by
  rw [readChars.eq_def]
  rfl

theorem readChars_plain {c : Char} (hc : Unescaped c) (fuel : Nat) (cs : List Char) :
    readChars (fuel + 1) (c :: cs) = (readChars fuel cs).map fun r => (c :: r.1, r.2) := by
  rw [readChars.eq_def]
  dsimp only
  rw [if_neg hc.quote, if_neg hc.backslash, if_neg (Nat.not_lt.mpr hc.control)]
  rfl

/-- `shortEscape?` knows all `shortEscapes`. -/
theorem shortEscape?_eq {e c : Char} (h : (e, c) ∈ shortEscapes) :
    shortEscape? e = some c ∧ e ≠ 'u' := by
  simp only [shortEscapes, List.mem_cons, List.not_mem_nil, or_false, Prod.mk.injEq] at h
  rcases h with ⟨rfl, rfl⟩ | ⟨rfl, rfl⟩ | ⟨rfl, rfl⟩ | ⟨rfl, rfl⟩ | ⟨rfl, rfl⟩ | ⟨rfl, rfl⟩ |
    ⟨rfl, rfl⟩ | ⟨rfl, rfl⟩ <;> decide

theorem readChars_unit (fuel : Nat) (cs : List Char) :
    readChars (fuel + 1) ('\\' :: 'u' :: cs) = readEscapedUnit cs >>= fun r =>
      (readChars fuel r.2).map fun s => (r.1 :: s.1, s.2) := by
  rw [readChars.eq_def]
  dsimp only
  rw [if_neg (by decide), if_pos rfl]
  rfl

theorem readCodeUnit_append {n : Nat} {digits : List Char} (h : UnitText n digits)
    (rest : List Char) : readCodeUnit (digits ++ rest) = .ok (n, rest) := by
  obtain ⟨a, b, c, d, x, y, z, w, rfl, ha, hb, hc, hd, rfl⟩ := h
  have hbytes := four_le_bytesAhead a b c d rest
  simp only [List.cons_append, List.nil_append]
  rw [readCodeUnit, if_neg (by omega)]
  simp only [ha, hb, hc, hd]

/-- `readEscapedUnit` reads a code unit that is no surrogate. -/
theorem readEscapedUnit_plain {n : Nat} {digits : List Char} (h : UnitText n digits)
    (hn : n < 0xD800 ∨ 0xE000 ≤ n) (rest : List Char) :
    readEscapedUnit (digits ++ rest) = .ok (Char.ofNat n, rest) := by
  rw [readEscapedUnit, readCodeUnit_append h]
  simp only [bind, Except.bind, pure, Except.pure]
  rw [if_neg (by omega), if_pos hn]

/-- `readEscapedUnit` reads a surrogate pair. -/
theorem readEscapedUnit_pair {high low : Nat} {digits digits' : List Char}
    (hhigh : UnitText high digits) (hlow : UnitText low digits')
    (hhigh' : 0xD800 ≤ high ∧ high < 0xDC00) (hlow' : 0xDC00 ≤ low ∧ low < 0xE000)
    (rest : List Char) :
    readEscapedUnit (digits ++ '\\' :: 'u' :: digits' ++ rest) =
      .ok (Char.ofNat (0x10000 + (high - 0xD800) * 0x400 + (low - 0xDC00)), rest) := by
  have hunit := readCodeUnit_append hlow rest
  rw [List.append_assoc, readEscapedUnit, readCodeUnit_append hhigh]
  simp only [bind, Except.bind, pure, Except.pure, List.cons_append]
  rw [if_neg (by omega), if_neg (by omega), hunit]
  dsimp only
  rw [if_neg (by omega)]

/-- `readEscapedUnit` succeeds only on a code unit that is no surrogate, and on a surrogate pair. -/
theorem readEscapedUnit_cases {n : Nat} {digits : List Char} (h : UnitText n digits)
    {body rest : List Char} (hbody : BodyText body) {c : Char} {r : List Char}
    (hread : readEscapedUnit (digits ++ (body ++ '"' :: rest)) = .ok (c, r)) :
    (c = Char.ofNat n ∧ (n < 0xD800 ∨ 0xE000 ≤ n) ∧ r = body ++ '"' :: rest) ∨
      ∃ low digits' body', UnitText low digits' ∧ BodyText body' ∧
        body = '\\' :: 'u' :: digits' ++ body' ∧ (0xD800 ≤ n ∧ n < 0xDC00) ∧
        (0xDC00 ≤ low ∧ low < 0xE000) ∧
        c = Char.ofNat (0x10000 + (n - 0xD800) * 0x400 + (low - 0xDC00)) ∧
        r = body' ++ '"' :: rest := by
  rw [readEscapedUnit, readCodeUnit_append h] at hread
  simp only [bind, Except.bind, pure, Except.pure] at hread
  split at hread
  next => cases hread
  next hfirst =>
    split at hread
    next hplain =>
      cases hread
      exact .inl ⟨rfl, hplain, rfl⟩
    next hsurrogate =>
      right
      -- the other half of the pair has to follow, and only another escape may be it
      cases hbody with
      | nil => cases hread
      | plain hc hbody =>
        rw [List.cons_append] at hread
        split at hread
        next heq => cases heq
        next heq => exact absurd (List.cons.inj heq).1 hc.backslash
        next heq => exact absurd (List.cons.inj heq).1 hc.backslash
        next => cases hread
      | @short e _ _ he hbody =>
        rw [List.cons_append, List.cons_append] at hread
        have hu := (shortEscape?_eq he).2
        split at hread
        next heq => cases heq
        next heq => cases heq
        next heq => exact absurd (List.cons.inj (List.cons.inj heq).2).1 hu
        next => cases hread
      | @unit low digits' body' hunit hbody =>
        simp only [List.cons_append, List.append_assoc, readCodeUnit_append hunit] at hread
        split at hread
        next => cases hread
        next hlow =>
          obtain ⟨hchar, hrest⟩ := Prod.mk.inj (Except.ok.inj hread)
          exact ⟨low, digits', body', hunit, hbody, rfl, by omega, by omega, hchar.symm,
            hrest.symm⟩

/-- `readChars` reads a text as the characters that it `Spells`. -/
theorem readChars_of_spells {body cs : List Char} (h : Spells body cs) {fuel : Nat}
    (hfuel : body.length < fuel) (rest : List Char) :
    readChars fuel (body ++ '"' :: rest) = .ok (cs, rest) := by
  -- the reader takes one step for each constructor, and no constructor spells nothing
  induction h generalizing fuel with
  | nil =>
    obtain ⟨fuel, rfl⟩ := Nat.exists_eq_add_one_of_ne_zero (Nat.ne_zero_of_lt hfuel)
    exact readChars_quote fuel rest
  | plain hc _ ih =>
    obtain ⟨fuel, rfl⟩ := Nat.exists_eq_add_one_of_ne_zero (Nat.ne_zero_of_lt hfuel)
    rw [List.length_cons] at hfuel
    rw [List.cons_append, readChars_plain hc, ih (by omega)]
    rfl
  | short he _ ih =>
    obtain ⟨fuel, rfl⟩ := Nat.exists_eq_add_one_of_ne_zero (Nat.ne_zero_of_lt hfuel)
    obtain ⟨hshort, hu⟩ := shortEscape?_eq he
    rw [List.length_cons, List.length_cons] at hfuel
    rw [List.cons_append, List.cons_append, readChars_short hshort hu, ih (by omega)]
    rfl
  | unit hunit hn _ ih =>
    obtain ⟨fuel, rfl⟩ := Nat.exists_eq_add_one_of_ne_zero (Nat.ne_zero_of_lt hfuel)
    simp only [List.length_append, List.length_cons] at hfuel
    simp only [List.cons_append, List.append_assoc]
    rw [readChars_unit, readEscapedUnit_plain hunit hn]
    simp only [bind, Except.bind, ih (show _ < fuel by omega)]
    rfl
  | @pair high low digits digits' text cs hhigh hlow hhigh' hlow' _ ih =>
    obtain ⟨fuel, rfl⟩ := Nat.exists_eq_add_one_of_ne_zero (Nat.ne_zero_of_lt hfuel)
    have hpair := readEscapedUnit_pair hhigh hlow hhigh' hlow' (text ++ '"' :: rest)
    simp only [List.length_append, List.length_cons] at hfuel
    simp only [List.cons_append, List.append_assoc] at hpair ⊢
    rw [readChars_unit, hpair]
    simp only [bind, Except.bind, ih (show _ < fuel by omega)]
    rfl

/-- `readChars` reads a `BodyText` only as characters that it `Spells`, up to the closing quote. -/
theorem spells_of_readChars {body : List Char} (h : BodyText body) {fuel : Nat}
    {rest cs r : List Char} (hread : readChars fuel (body ++ '"' :: rest) = .ok (cs, r)) :
    Spells body cs ∧ r = rest := by
  -- a surrogate pair takes two escapes at once, so the induction is on the length
  induction hlength : body.length using Nat.strongRecOn generalizing body fuel cs with
  | ind n ih =>
    obtain _ | fuel := fuel
    · cases hread
    cases h with
    | nil =>
      rw [List.nil_append, readChars_quote] at hread
      cases hread
      exact ⟨.nil, rfl⟩
    | plain hc htext =>
      rw [List.length_cons] at hlength
      rw [List.cons_append, readChars_plain hc, Traversal.map_eq_ok_iff] at hread
      obtain ⟨⟨cs, r⟩, hread, heq⟩ := hread
      cases heq
      obtain ⟨hspells, rfl⟩ := ih _ (by omega) htext hread rfl
      exact ⟨.plain hc hspells, rfl⟩
    | short he htext =>
      obtain ⟨hshort, hu⟩ := shortEscape?_eq he
      rw [List.length_cons, List.length_cons] at hlength
      rw [List.cons_append, List.cons_append, readChars_short hshort hu,
        Traversal.map_eq_ok_iff] at hread
      obtain ⟨⟨cs, r⟩, hread, heq⟩ := hread
      cases heq
      obtain ⟨hspells, rfl⟩ := ih _ (by omega) htext hread rfl
      exact ⟨.short he hspells, rfl⟩
    | unit hunit htext =>
      simp only [List.length_append, List.length_cons] at hlength
      rw [List.append_assoc, List.cons_append, List.cons_append, readChars_unit,
        Traversal.bind_eq_ok_iff] at hread
      obtain ⟨⟨c, r'⟩, hunit', hread⟩ := hread
      obtain ⟨⟨cs, r⟩, hrest, heq⟩ := Traversal.map_eq_ok_iff.mp hread
      cases heq
      rcases readEscapedUnit_cases hunit htext hunit' with
        ⟨rfl, hn, rfl⟩ | ⟨low, digits', body', hlow, hbody', rfl, hhigh', hlow', hchar, rfl⟩
      · obtain ⟨hspells, rfl⟩ := ih _ (by omega) htext hrest rfl
        exact ⟨.unit hunit hn hspells, rfl⟩
      · simp only [List.length_append, List.length_cons] at hlength
        obtain ⟨hspells, rfl⟩ := ih _ (by omega) hbody' hrest rfl
        have hpair := Spells.pair hunit hlow hhigh' hlow' hspells
        refine ⟨?_, rfl⟩
        rw [hchar]
        simpa only [List.append_assoc, List.cons_append] using hpair

/-- `Spells` gives one list of characters only. -/
theorem Spells.unique {body cs cs' : List Char} (h : Spells body cs) (h' : Spells body cs') :
    cs = cs' := by
  have hread := readChars_of_spells h (Nat.lt_succ_self _) []
  rw [readChars_of_spells h' (Nat.lt_succ_self _)] at hread
  exact (Prod.mk.inj (Except.ok.inj hread)).1.symm

/-- `readString` reads a `BodyText` as the text that it `Spells`, and as no other. -/
theorem readString_eq_ok_iff {body : List Char} (h : BodyText body) {rest r : List Char}
    {s : String} :
    readString (body ++ '"' :: rest) = .ok (s, r) ↔ Spells body s.toList ∧ r = rest := by
  have hfuel : body.length < (body ++ '"' :: rest).length + 1 := by
    rw [List.length_append]
    omega
  rw [readString, Traversal.bind_eq_ok_iff]
  constructor
  · rintro ⟨⟨cs, r⟩, hread, heq⟩
    cases heq
    rw [String.toList_ofList]
    exact spells_of_readChars h hread
  · rintro ⟨hspells, rfl⟩
    refine ⟨(s.toList, r), readChars_of_spells hspells hfuel r, ?_⟩
    dsimp only
    rw [String.ofList_toList]
    rfl

/-! ## Numbers -/

/-- `rest` does not begin with a digit. -/
def EndsDigits (rest : List Char) : Prop := ∀ c ∈ rest.head?, digit? c = none

/-- `rest` does not continue a number. -/
def EndsNumber (rest : List Char) : Prop :=
  ∀ c ∈ rest.head?, digit? c = none ∧ c ≠ '.' ∧ c ≠ 'e' ∧ c ≠ 'E'

theorem EndsNumber.endsDigits {rest : List Char} (h : EndsNumber rest) : EndsDigits rest :=
  fun c hc => (h c hc).1

theorem digit?_eq_some {c : Char} {d : Nat} (h : digit? c = some d) : d = c.toNat - '0'.toNat := by
  rw [digit?] at h
  split at h
  next => exact (Option.some.inj h).symm
  next => cases h

theorem takeDigits_endsDigits {rest : List Char} (h : EndsDigits rest) (significand count : Nat) :
    takeDigits significand count rest = (significand, count, rest) := by
  cases rest with
  | nil => rfl
  | cons c cs => rw [takeDigits, h c rfl]

theorem skipDigits_append {digits rest : List Char} (h : DigitsText digits)
    (hrest : EndsDigits rest) : skipDigits (digits ++ rest) = rest := by
  rw [skipDigits, List.dropWhile_append_of_pos h]
  cases rest with
  | nil => rfl
  | cons c cs => rw [List.dropWhile_cons_of_neg (by rw [hrest c rfl]; exact Bool.false_ne_true)]

/-- What `takeDigits` takes of `digits` does not depend on what follows them, and if it takes all of
them it has their number. -/
theorem exists_takeDigits {digits : List Char} (h : DigitsText digits) (significand count : Nat) :
    ∃ significand' count' left, DigitsText left ∧ count ≤ count' ∧
      (left = [] → significand' = Nat.ofDigitChars 10 digits significand) ∧
      (count' = count → left = digits) ∧
      (significand < Nat.pow 2 64 → significand' < Nat.pow 2 64) ∧
      ∀ rest, EndsDigits rest →
        takeDigits significand count (digits ++ rest) = (significand', count', left ++ rest) := by
  induction digits generalizing significand count with
  | nil =>
    exact ⟨significand, count, [], h, Nat.le_refl _, fun _ => rfl, fun _ => rfl, id,
      fun rest hrest => takeDigits_endsDigits hrest significand count⟩
  | cons c digits ih =>
    obtain ⟨hc, hdigits⟩ := List.forall_mem_cons.mp h
    obtain ⟨d, hd⟩ := Option.isSome_iff_exists.mp hc
    have htake (rest : List Char) : takeDigits significand count (c :: digits ++ rest) =
        if significand * 10 + d < Nat.pow 2 64 then
          takeDigits (significand * 10 + d) (count + 1) (digits ++ rest)
        else (significand, count, c :: digits ++ rest) := by
      rw [List.cons_append, takeDigits, hd]
    -- the first digit that does not fit is left, and all behind it
    by_cases hfits : significand * 10 + d < Nat.pow 2 64
    · obtain ⟨significand', count', left, hleft, hcount, hvalue, -, hbound, hread⟩ :=
        ih hdigits (significand * 10 + d) (count + 1)
      refine ⟨significand', count', left, hleft, by omega, fun hnil => ?_, by omega,
        fun _ => hbound hfits, fun rest hrest => ?_⟩
      · rw [hvalue hnil, Nat.ofDigitChars_cons, digit?_eq_some hd, Nat.mul_comm]
      · rw [htake, if_pos hfits, hread rest hrest]
    · refine ⟨significand, count, c :: digits, h, Nat.le_refl _, fun hnil => ?_, fun _ => rfl, id,
        fun rest _ => ?_⟩
      · cases hnil
      · rw [htake, if_neg hfits]

theorem exists_takeExponent {digits : List Char} (h : DigitsText digits) (value : Nat) :
    ∃ exponent, ∀ rest, EndsDigits rest →
      takeExponent value (digits ++ rest) = (exponent, rest) := by
  induction digits generalizing value with
  | nil =>
    refine ⟨some value, fun rest hrest => ?_⟩
    rw [List.nil_append]
    cases rest with
    | nil => rfl
    | cons c cs => rw [takeExponent, hrest c rfl]
  | cons c digits ih =>
    obtain ⟨hc, hdigits⟩ := List.forall_mem_cons.mp h
    obtain ⟨d, hd⟩ := Option.isSome_iff_exists.mp hc
    -- an exponent that grows too large is given up, but its digits are still skipped
    by_cases hfits : value * 10 + d ≤ exponentLimit
    · obtain ⟨exponent, hread⟩ := ih hdigits (value * 10 + d)
      refine ⟨exponent, fun rest hrest => ?_⟩
      rw [List.cons_append, takeExponent, hd]
      dsimp only
      rw [if_pos hfits, hread rest hrest]
    · refine ⟨none, fun rest hrest => ?_⟩
      have hskip := skipDigits_append h hrest
      rw [List.cons_append] at hskip ⊢
      rw [takeExponent, hd]
      dsimp only
      rw [if_neg hfits, hskip]

/-- `outcome` is not an integer. -/
def IsFloat (outcome : Except ReadError Value) : Prop := ∀ n, outcome ≠ .ok (.integer n)

theorem isFloat_scaled (negative : Bool) (significand : Nat) (exponent : Int) :
    IsFloat (scaled negative significand exponent) := by
  intro n h
  rw [scaled] at h
  dsimp only at h
  repeat' split at h
  all_goals cases h

/-- `read` reads `text` as `outcome`, whatever follows that does not continue a number. -/
def ReadAs (read : List Char → Except ReadError (Value × List Char)) (text : List Char)
    (outcome : Except ReadError Value) : Prop :=
  ∀ rest, EndsNumber rest → read (text ++ rest) = outcome.map (·, rest)

/-- The value of a number with an exponent, which is `none` if it is too large. -/
def withExponent (negative : Bool) (significand : Nat) (exponent : Int) (down : Bool) :
    Option Nat → Except ReadError Value
  | some e => scaled negative significand (if down then exponent - e else exponent + e)
  | none =>
    if significand ≠ 0 ∧ !down then .error .malformed else .ok (.float (.zero negative))

theorem isFloat_withExponent (negative : Bool) (significand : Nat) (exponent : Int) (down : Bool)
    (e : Option Nat) : IsFloat (withExponent negative significand exponent down e) := by
  cases e with
  | some e => exact isFloat_scaled _ _ _
  | none =>
    intro n h
    rw [withExponent] at h
    split at h <;> cases h

theorem exists_readExponent (negative : Bool) (significand : Nat) (exponent : Int)
    {sign digits : List Char} (hsign : sign = [] ∨ sign = ['+'] ∨ sign = ['-'])
    (hne : digits ≠ []) (h : DigitsText digits) :
    ∃ outcome, IsFloat outcome ∧
      ReadAs (readExponent negative significand exponent) (sign ++ digits) outcome := by
  obtain ⟨e, htake⟩ := exists_takeExponent h 0
  obtain ⟨c, cs, rfl⟩ := List.exists_cons_of_ne_nil hne
  obtain ⟨d, hd⟩ := Option.isSome_iff_exists.mp (h c List.mem_cons_self)
  have hplus : c ≠ '+' := fun hc => by rw [hc] at hd; cases hd
  have hminus : c ≠ '-' := fun hc => by rw [hc] at hd; cases hd
  have hdigit : ¬ (digit? c).isNone = true := by rw [hd]; exact Bool.false_ne_true
  have hsigned {mark : Char} {down : Bool} (hmark : mark = '+' ∧ down = false ∨
      mark = '-' ∧ down = true) {rest : List Char} (hrest : EndsNumber rest) :
      readExponent negative significand exponent (mark :: c :: (cs ++ rest)) =
        (withExponent negative significand exponent down e).map (·, rest) := by
    have hread := htake rest hrest.endsDigits
    rw [List.cons_append] at hread
    rcases hmark with ⟨rfl, rfl⟩ | ⟨rfl, rfl⟩ <;> rw [readExponent, if_neg hdigit, hread]
    all_goals
      cases e with
      | some e => rfl
      | none =>
        rw [withExponent]
        dsimp only
        split <;> rfl
  -- without a sign the digits are read as behind a plus
  have hunsigned (rest : List Char) :
      readExponent negative significand exponent (c :: (cs ++ rest)) =
        readExponent negative significand exponent ('+' :: c :: (cs ++ rest)) := by
    rw [readExponent, readExponent]
    · exact fun _ heq => hplus (List.cons.inj heq).1
    · exact fun _ heq => hminus (List.cons.inj heq).1
  rcases hsign with rfl | rfl | rfl
  · refine ⟨_, isFloat_withExponent negative significand exponent false e, fun rest hrest => ?_⟩
    rw [List.nil_append, List.cons_append, hunsigned]
    exact hsigned (.inl ⟨rfl, rfl⟩) hrest
  · exact ⟨_, isFloat_withExponent negative significand exponent false e,
      fun _ hrest => hsigned (.inl ⟨rfl, rfl⟩) hrest⟩
  · exact ⟨_, isFloat_withExponent negative significand exponent true e,
      fun _ hrest => hsigned (.inr ⟨rfl, rfl⟩) hrest⟩

/-- `readTail` reads an `ExponentText` by itself. -/
theorem exists_readTail (negative : Bool) (significand : Nat) (exponent : Int) {text : List Char}
    (h : ExponentText text) :
    ∃ outcome, IsFloat outcome ∧ ReadAs (readTail negative significand exponent) text outcome := by
  cases h with
  | none =>
    refine ⟨_, isFloat_scaled negative significand exponent, fun rest hrest => ?_⟩
    rw [List.nil_append, readTail]
    · exact fun _ heq => (hrest 'e' (by rw [heq]; rfl)).2.2.1 rfl
    · exact fun _ heq => (hrest 'E' (by rw [heq]; rfl)).2.2.2 rfl
  | some hmark hsign hne h =>
    obtain ⟨outcome, hfloat, hread⟩ :=
      exists_readExponent negative significand exponent hsign hne h
    refine ⟨outcome, hfloat, fun rest hrest => ?_⟩
    rw [List.cons_append, List.cons_append, ← hread rest hrest]
    rcases hmark with rfl | rfl <;> rfl

theorem ExponentText.endsDigits {text rest : List Char} (h : ExponentText text)
    (hrest : EndsNumber rest) : EndsDigits (text ++ rest) := by
  cases h with
  | none => exact hrest.endsDigits
  | some hmark =>
    intro c hc
    obtain rfl := Option.some.inj hc
    rcases hmark with rfl | rfl <;> rfl

theorem startsWithDigit_append {digits : List Char} (hne : digits ≠ []) (h : DigitsText digits)
    (rest : List Char) : startsWithDigit (digits ++ rest) = true := by
  obtain ⟨c, cs, rfl⟩ := List.exists_cons_of_ne_nil hne
  exact h c List.mem_cons_self

/-- `readFraction` reads digits and an `ExponentText` by itself. -/
theorem exists_readFraction (negative : Bool) (significand : Nat) (exponent : Int)
    {digits text : List Char} (hne : digits ≠ []) (hdigits : DigitsText digits)
    (h : ExponentText text) :
    ∃ outcome, IsFloat outcome ∧
      ReadAs (readFraction negative significand exponent) (digits ++ text) outcome := by
  obtain ⟨significand', count, left, hleft, -, -, hcount, -, htake⟩ :=
    exists_takeDigits hdigits significand 0
  obtain ⟨outcome, hfloat, hread⟩ := exists_readTail negative significand' (exponent - count) h
  refine ⟨outcome, hfloat, fun rest hrest => ?_⟩
  have hends := h.endsDigits hrest
  -- where no digit was taken, all of them are left
  have hstart (hzero : count = 0) : startsWithDigit (left ++ (text ++ rest)) = true := by
    rw [hcount hzero]
    exact startsWithDigit_append hne hdigits _
  rw [List.append_assoc, readFraction, htake _ hends]
  split
  next heq =>
    obtain ⟨hzero, hnil⟩ := Prod.mk.inj (Prod.mk.inj heq).2
    have hfirst := hstart hzero
    rw [hnil] at hfirst
    cases hfirst
  next heq =>
    cases heq
    rw [if_neg, skipDigits_append hleft hends]
    · exact hread rest hrest
    · rintro ⟨hzero, hnot⟩
      rw [hstart hzero] at hnot
      cases hnot

theorem digitsText_toDigits (n : Nat) : DigitsText (Nat.toDigits 10 n) := by
  intro c hc
  have hdigit := Nat.isDigit_of_mem_toDigits (by decide) (by decide) hc
  rw [Char.isDigit, Bool.and_eq_true, decide_eq_true_eq, decide_eq_true_eq] at hdigit
  have hrange : '0' ≤ c ∧ c ≤ '9' := hdigit
  rw [digit?, if_pos hrange]
  rfl

/-- The digits of a number begin with zero only for zero. -/
theorem exists_toDigits (n : Nat) : ∃ d digits, d < 10 ∧
    Nat.toDigits 10 n = Nat.digitChar d :: digits ∧ (Nat.digitChar d = '0' → digits = []) := by
  have hne : ∀ d < 10, 0 < d → Nat.digitChar d ≠ '0' := by decide
  rcases Nat.eq_zero_or_pos n with rfl | hpos
  · exact ⟨0, [], by decide, rfl, fun _ => rfl⟩
  · obtain ⟨d, digits, hd, hlt, hdigits⟩ := exists_toDigits_eq_cons hpos
    exact ⟨d, digits, hlt, hdigits, fun hzero => absurd hzero (hne d hlt hd)⟩

/-- `readNumber` takes the digits of a decimal as far as they are below `2 ^ 64`, and goes on with
what follows them. -/
theorem exists_readNumber_toDigits (negative : Bool) (n : Nat) : ∃ significand left,
    DigitsText left ∧ (left = [] ↔ n < Nat.pow 2 64) ∧ (left = [] → significand = n) ∧
      ∀ tail, EndsDigits tail → readNumber negative (Nat.toDigits 10 n ++ tail) =
        match tail with
        | '.' :: rest => readFraction negative significand left.length rest
        | 'e' :: rest | 'E' :: rest => readExponent negative significand left.length rest
        | _ =>
          if left.length = 0 then .ok (wholeNumber negative significand, tail)
          else (scaled negative significand left.length).map (·, tail) := by
  obtain ⟨significand, count, left, hleft, -, hvalue, -, hbound, htake⟩ :=
    exists_takeDigits (digitsText_toDigits n) 0 0
  have hall (hnil : left = []) : significand = n := by
    rw [hvalue hnil, Nat.ofDigitChars_toDigits (by decide) (by decide)]
  refine ⟨significand, left, hleft, ⟨fun hnil => ?_, fun hfits => ?_⟩, hall, fun tail htail => ?_⟩
  · rw [← hall hnil]
    exact hbound (by decide)
  · -- what is left is the same for every tail, so the empty one tells
    have htake' := htake [] (fun _ hc => by cases hc)
    rw [takeDigits_toDigits hfits] at htake'
    simpa using (Prod.mk.inj (Prod.mk.inj htake').2).2.symm
  · obtain ⟨d, digits, hlt, hdigits, hzero⟩ := exists_toDigits n
    have htake' := htake tail htail
    have hskip := skipDigits_append hleft htail
    have hexponent : (left ++ tail).length - tail.length = left.length := by
      rw [List.length_append, Nat.add_sub_cancel]
    rw [hdigits, List.cons_append] at htake' ⊢
    rw [readNumber, if_neg, if_neg, htake']
    · dsimp only
      rewrite [hskip, hexponent]
      rfl
    · rintro ⟨hd, hstart⟩
      rw [hzero hd, List.nil_append] at hstart
      cases tail with
      | nil => cases hstart
      | cons c tail =>
        rw [startsWithDigit, htail c rfl] at hstart
        cases hstart
    · rw [digit?_digitChar hlt]
      exact Bool.false_ne_true

/-- `wholeNumber` is a natural number iff it has no minus. -/
theorem wholeNumber_eq_integer_iff {negative : Bool} {n i : Nat} :
    wholeNumber negative n = .integer i ↔ negative = false ∧ n = i := by
  rw [wholeNumber]
  cases negative with
  | false =>
    rw [if_pos (by decide), Value.integer.injEq, Int.natCast_inj]
    simp
  | true =>
    rw [if_neg (by decide)]
    split
    next => simp
    next h =>
      have hne : n ≠ 0 := fun hzero => h (.inl hzero)
      rw [Value.integer.injEq]
      exact ⟨fun heq => by omega, fun hfalse => by cases hfalse.1⟩

/-- The value of a decimal without fraction and exponent. Digits that were skipped raise the
exponent. -/
def decimalOutcome (negative : Bool) (significand skipped : Nat) : Except ReadError Value :=
  if skipped = 0 then .ok (wholeNumber negative significand)
  else scaled negative significand skipped

theorem decimalOutcome_eq_integer_iff {negative : Bool} {significand skipped i : Nat} :
    decimalOutcome negative significand skipped = .ok (.integer i) ↔
      skipped = 0 ∧ negative = false ∧ significand = i := by
  rw [decimalOutcome]
  split
  next hzero => rw [Except.ok.injEq, wholeNumber_eq_integer_iff, and_iff_right hzero]
  next hsome =>
    exact ⟨fun h => absurd h (isFloat_scaled _ _ _ i), fun h => absurd h.1 hsome⟩

/-- `readNumber` reads a `NumberText` by itself, and as a natural number iff it is the decimal of
one below `2 ^ 64`. -/
theorem exists_readNumber (negative : Bool) (n : Nat) {fraction exponent : List Char}
    (hfraction : FractionText fraction) (hexponent : ExponentText exponent) :
    ∃ outcome, (∀ i : Nat, outcome = .ok (.integer i) ↔
        negative = false ∧ fraction = [] ∧ exponent = [] ∧ n = i ∧ i < Nat.pow 2 64) ∧
      ReadAs (readNumber negative) (Nat.toDigits 10 n ++ fraction ++ exponent) outcome := by
  obtain ⟨significand, left, hleft, hfits, hall, hnumber⟩ := exists_readNumber_toDigits negative n
  cases hfraction with
  | some hne hdigits =>
    obtain ⟨outcome, hfloat, hread⟩ :=
      exists_readFraction negative significand left.length hne hdigits hexponent
    refine ⟨outcome, fun i => ⟨fun h => absurd h (hfloat i), fun h => ?_⟩, fun rest hrest => ?_⟩
    · cases h.2.1
    · rw [← hread rest hrest, List.append_assoc, List.append_assoc, hnumber]
      · rw [List.cons_append, List.append_assoc]
        rfl
      · intro c hc
        obtain rfl := Option.some.inj hc
        rfl
  | none =>
    cases hexponent with
    | @some mark sign digits hmark hsign hne hdigits =>
      obtain ⟨outcome, hfloat, hread⟩ :=
        exists_readExponent negative significand left.length hsign hne hdigits
      refine ⟨outcome, fun i => ⟨fun h => absurd h (hfloat i), fun h => ?_⟩, fun rest hrest => ?_⟩
      · cases h.2.2.1
      · have hends : EndsDigits (mark :: sign ++ digits ++ rest) :=
          (ExponentText.some hmark hsign hne hdigits).endsDigits hrest
        rw [← hread rest hrest, List.append_nil, List.append_assoc, hnumber _ hends]
        rcases hmark with rfl | rfl <;> rfl
    | none =>
      refine ⟨decimalOutcome negative significand left.length, fun i => ?_, fun rest hrest => ?_⟩
      · rw [decimalOutcome_eq_integer_iff, List.length_eq_zero_iff, hfits]
        constructor
        · rintro ⟨hn, hpos, rfl⟩
          obtain rfl := hall (hfits.mpr hn)
          exact ⟨hpos, rfl, rfl, rfl, hn⟩
        · rintro ⟨hpos, -, -, rfl, hn⟩
          exact ⟨hn, hpos, hall (hfits.mpr hn)⟩
      · rw [List.append_nil, List.append_nil, hnumber rest hrest.endsDigits, decimalOutcome]
        -- three of the four cases are those in which the number goes on
        split
        next => exact absurd rfl (hrest '.' rfl).2.1
        next => exact absurd rfl (hrest 'e' rfl).2.2.1
        next => exact absurd rfl (hrest 'E' rfl).2.2.2
        next => split <;> rfl

end Fanout.Json
