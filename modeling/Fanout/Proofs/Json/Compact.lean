import Fanout.Json.Read
import Fanout.Json.Value
import Fanout.Proofs.Traversal

/-!
# Compact texts are read back

Reading a quoted text gives the text (`readString_flatMap_escapeChar`), reading the digits of a
64-bit number gives the number (`readNumber_toDigits`), and so reading the compact text of a value
without containers gives the value (`readValue_flat`).
-/

namespace Fanout.Json

/-- `hexDigit?` inverts `Nat.digitChar`. -/
theorem hexDigit?_digitChar {n : Nat} (h : n < 16) : hexDigit? (Nat.digitChar n) = some n := by
  have : ∀ n < 16, hexDigit? (Nat.digitChar n) = some n := by decide
  exact this n h

theorem four_le_bytesAhead (a b c d : Char) (rest : List Char) :
    4 ≤ bytesAhead (a :: b :: c :: d :: rest) := by
  have ha := a.utf8Size_pos
  have hb := b.utf8Size_pos
  have hc := c.utf8Size_pos
  have hd := d.utf8Size_pos
  rw [bytesAhead]
  omega

/-- `readEscapedUnit` reads the escape that `escapeChar` writes for a control character. -/
theorem readEscapedUnit_control {n : Nat} (h : n < 32) (rest : List Char) :
    readEscapedUnit ('0' :: '0' :: Nat.digitChar (n / 16) :: Nat.digitChar (n % 16) :: rest) =
      .ok (Char.ofNat n, rest) := by
  have hunit : readCodeUnit
      ('0' :: '0' :: Nat.digitChar (n / 16) :: Nat.digitChar (n % 16) :: rest) = .ok (n, rest) := by
    have hbytes := four_le_bytesAhead '0' '0' (Nat.digitChar (n / 16)) (Nat.digitChar (n % 16)) rest
    have hzero : hexDigit? '0' = some 0 := by decide
    rw [readCodeUnit, if_neg (by omega)]
    simp only [hzero, hexDigit?_digitChar (show n / 16 < 16 by omega),
      hexDigit?_digitChar (show n % 16 < 16 by omega)]
    have hvalue : ((0 * 16 + 0) * 16 + n / 16) * 16 + n % 16 = n := by omega
    rw [hvalue]
  rw [readEscapedUnit, hunit]
  simp only [bind, Except.bind, pure, Except.pure]
  rw [if_neg (by omega), if_pos (by omega)]

/-- `readChars` reads a short escape as its `shortEscape?`. -/
theorem readChars_short {e a : Char} (h : shortEscape? e = some a) (hu : e ≠ 'u') (fuel : Nat)
    (cs : List Char) :
    readChars (fuel + 1) ('\\' :: e :: cs) = (readChars fuel cs).map fun r => (a :: r.1, r.2) := by
  rw [readChars.eq_def]
  simp only [if_true]
  rw [if_neg (by decide), h]
  rfl

theorem readChars_escapeChar (fuel : Nat) (c : Char) (cs : List Char) :
    readChars (fuel + 1) (escapeChar c ++ cs) =
      (readChars fuel cs).map fun r => (c :: r.1, r.2) := by
  have hchar (n : Nat) (h : c.toNat = n) : c = Char.ofNat n := by rw [← h, Char.ofNat_toNat]
  -- the cases are those of `escapeChar`: short escapes, control characters, all others
  unfold escapeChar
  split
  next h => exact readChars_short (by rw [h]; rfl) (by decide) fuel cs
  split
  next h => exact readChars_short (by rw [h]; rfl) (by decide) fuel cs
  split
  next h => exact readChars_short (by rw [h]; rfl) (by decide) fuel cs
  split
  next h => exact readChars_short (by rw [h]; rfl) (by decide) fuel cs
  split
  next h => exact readChars_short (by rw [h]; rfl) (by decide) fuel cs
  split
  next h => exact readChars_short (by rw [hchar 8 h]; rfl) (by decide) fuel cs
  split
  next h => exact readChars_short (by rw [hchar 12 h]; rfl) (by decide) fuel cs
  split
  next h =>
    have hread := readEscapedUnit_control h cs
    simp only [List.cons_append, List.nil_append]
    rw [readChars, if_neg (by decide), if_pos rfl]
    simp only [hread, Char.ofNat_toNat]
    rfl
  next hquote hbackslash _ _ _ _ _ h =>
    rw [List.singleton_append, readChars.eq_def]
    dsimp only
    rw [if_neg hquote, if_neg hbackslash, if_neg h]
    rfl

/-- `readChars` inverts `escapeChar` on a text, up to the closing quote. -/
theorem readChars_flatMap_escapeChar (cs rest : List Char) {fuel : Nat} (h : cs.length < fuel) :
    readChars fuel (cs.flatMap escapeChar ++ '"' :: rest) = .ok (cs, rest) := by
  induction cs generalizing fuel with
  | nil =>
    obtain ⟨fuel, rfl⟩ := Nat.exists_eq_add_one_of_ne_zero (Nat.ne_zero_of_lt h)
    rw [List.flatMap_nil, List.nil_append, readChars.eq_def]
    rfl
  | cons c cs ih =>
    rw [List.length_cons] at h
    obtain ⟨fuel, rfl⟩ := Nat.exists_eq_add_one_of_ne_zero (Nat.ne_zero_of_lt h)
    rw [List.flatMap_cons, List.append_assoc, readChars_escapeChar, ih (by omega)]
    rfl

theorem escapeChar_ne_nil (c : Char) : escapeChar c ≠ [] := by
  unfold escapeChar
  repeat' split
  all_goals exact List.cons_ne_nil _ _

/-- `readString` inverts `quote`. -/
theorem readString_flatMap_escapeChar (s : String) (rest : List Char) :
    readString (s.toList.flatMap escapeChar ++ '"' :: rest) = .ok (s, rest) := by
  have hlength := Traversal.length_le_length_flatMap escapeChar_ne_nil s.toList
  have hfuel : s.toList.length < (s.toList.flatMap escapeChar ++ '"' :: rest).length + 1 := by
    rw [List.length_append]
    omega
  have hread := readChars_flatMap_escapeChar s.toList rest hfuel
  rw [readString, hread]
  simp only [bind, Except.bind, pure, Except.pure, String.ofList_toList]

/-- `escapeChar` writes no control characters. -/
theorem le_toNat_of_mem_escapeChar {c d : Char} (h : d ∈ escapeChar c) : 32 ≤ d.toNat := by
  have hshort {e : Char} (he : 32 ≤ e.toNat) (hd : d ∈ ['\\', e]) : 32 ≤ d.toNat := by
    simp only [List.mem_cons, List.not_mem_nil, or_false] at hd
    rcases hd with rfl | rfl
    · decide
    · exact he
  unfold escapeChar at h
  iterate 7
    split at h
    · exact hshort (by decide) h
  split at h
  next hcontrol =>
    have hdigit : ∀ n < 16, 32 ≤ (Nat.digitChar n).toNat := by decide
    simp only [List.mem_cons, List.not_mem_nil, or_false] at h
    rcases h with rfl | rfl | rfl | rfl | rfl | rfl
    · decide
    · decide
    · decide
    · decide
    · exact hdigit _ (by omega)
    · exact hdigit _ (by omega)
  next hplain =>
    rw [List.mem_singleton.mp h]
    omega

/-! ## Numbers -/

theorem digit?_digitChar {d : Nat} (h : d < 10) : digit? (Nat.digitChar d) = some d := by
  have : ∀ d < 10, digit? (Nat.digitChar d) = some d := by decide
  exact this d h

/-- `takeDigits` takes a digit as long as the number stays below `2 ^ 64`. -/
theorem takeDigits_digitChar {significand d : Nat} (hd : d < 10)
    (h : significand * 10 + d < Nat.pow 2 64) (count : Nat) (rest : List Char) :
    takeDigits significand count (Nat.digitChar d :: rest) =
      takeDigits (significand * 10 + d) (count + 1) rest := by
  rw [takeDigits, digit?_digitChar hd]
  exact if_pos h

/-- `takeDigits` takes all digits of a number below `2 ^ 64`. -/
theorem takeDigits_toDigits {n : Nat} (h : n < Nat.pow 2 64) (rest : List Char) :
    takeDigits 0 0 (Nat.toDigits 10 n ++ rest) =
      takeDigits n (Nat.toDigits 10 n).length rest := by
  -- all digits but the last are those of `n / 10`
  induction n using Nat.strongRecOn generalizing rest with
  | ind n ih =>
    by_cases hn : n < 10
    · rw [Nat.toDigits_of_lt_base hn, List.singleton_append,
        takeDigits_digitChar hn (by rwa [Nat.zero_mul, Nat.zero_add]), Nat.zero_mul, Nat.zero_add]
      rfl
    · have hvalue : n / 10 * 10 + n % 10 = n := Nat.div_add_mod' n 10
      rw [Nat.toDigits_of_base_le (by decide) (by omega), List.append_assoc,
        ih (n / 10) (by omega) (by omega), List.singleton_append,
        takeDigits_digitChar (by omega) (by rwa [hvalue]), hvalue, List.length_append]
      rfl

/-- The digits of a positive number begin with a digit other than zero. -/
theorem exists_toDigits_eq_cons {n : Nat} (h : 0 < n) :
    ∃ d rest, 0 < d ∧ d < 10 ∧ Nat.toDigits 10 n = Nat.digitChar d :: rest := by
  induction n using Nat.strongRecOn with
  | ind n ih =>
    by_cases hn : n < 10
    · exact ⟨n, [], h, hn, Nat.toDigits_of_lt_base hn⟩
    · obtain ⟨d, rest, hpos, hlt, hdigits⟩ := ih (n / 10) (by omega) (by omega)
      refine ⟨d, rest ++ [Nat.digitChar (n % 10)], hpos, hlt, ?_⟩
      rw [Nat.toDigits_of_base_le (by decide) (by omega), hdigits, List.cons_append]

/-- A comma or a closing brace. -/
def EndsMember (c : Char) : Prop := c = ',' ∨ c = '\x7d'

/-- `readNumber` inverts `Nat.toDigits` on numbers below `2 ^ 64`. -/
theorem readNumber_toDigits {n : Nat} (h : n < Nat.pow 2 64) {c : Char} (hc : EndsMember c)
    (rest : List Char) :
    readNumber false (Nat.toDigits 10 n ++ c :: rest) = .ok (.integer n, c :: rest) := by
  have htake : takeDigits 0 0 (Nat.toDigits 10 n ++ c :: rest) =
      (n, (Nat.toDigits 10 n).length, c :: rest) := by
    rw [takeDigits_toDigits h]
    rcases hc with rfl | rfl <;> rfl
  have hskip : skipDigits (c :: rest) = c :: rest := by
    rcases hc with rfl | rfl <;> rfl
  -- a leading zero would be refused, but only zero itself begins with one
  have hleading : ∃ d ds, Nat.toDigits 10 n ++ c :: rest = d :: ds ∧
      (digit? d).isNone = false ∧ ¬ (d = '0' ∧ startsWithDigit ds) := by
    rcases Nat.eq_zero_or_pos n with rfl | hpos
    · refine ⟨'0', c :: rest, rfl, rfl, fun hzero => ?_⟩
      rcases hc with rfl | rfl <;> cases hzero.2
    · obtain ⟨d, ds, hd, hlt, hdigits⟩ := exists_toDigits_eq_cons hpos
      have hne : ∀ d < 10, 0 < d → Nat.digitChar d ≠ '0' := by decide
      refine ⟨Nat.digitChar d, ds ++ c :: rest, ?_, ?_, fun hzero => hne d hlt hd hzero.1⟩
      · rw [hdigits, List.cons_append]
      · rw [digit?_digitChar hlt]
        rfl
  obtain ⟨d, ds, heq, hdigit, hzero⟩ := hleading
  rw [heq] at htake ⊢
  rw [readNumber, if_neg (by simp [hdigit]), if_neg hzero, htake]
  simp only [hskip, Nat.sub_self]
  rcases hc with rfl | rfl <;> rfl

/-! ## Values and members -/

/-- A text, or an integer from zero up to `2 ^ 64`. -/
inductive Flat : Value → Prop
  | string (s : String) : Flat (.string s)
  | integer (n : Nat) (h : n < Nat.pow 2 64) : Flat (.integer n)

theorem toList_quote (s : String) :
    (quote s).toList = '"' :: s.toList.flatMap escapeChar ++ ['"'] := by
  rw [quote, String.toList_ofList]

/-- `quote` writes no control characters. -/
theorem le_toNat_of_mem_quote {s : String} {c : Char} (h : c ∈ (quote s).toList) :
    32 ≤ c.toNat := by
  rw [toList_quote, List.cons_append, List.mem_cons, List.mem_append, List.mem_flatMap,
    List.mem_singleton] at h
  rcases h with rfl | ⟨d, -, h⟩ | rfl
  · decide
  · exact le_toNat_of_mem_escapeChar h
  · decide

theorem toList_compact_integer (n : Nat) :
    (Value.integer n).compact.toList = Nat.toDigits 10 n := by
  rw [Value.compact]
  exact Nat.toList_repr

/-- `readValue` goes on with `readNumber` at a digit. -/
theorem readValue_digit {d : Nat} (h : d < 10) (depth fuel : Nat) (rest : List Char) :
    readValue depth (fuel + 1) (Nat.digitChar d :: rest) =
      readNumber false (Nat.digitChar d :: rest) := by
  have hmem : ∀ d < 10,
      Nat.digitChar d ∈ ['0', '1', '2', '3', '4', '5', '6', '7', '8', '9'] := by decide
  have hchar := hmem d h
  rw [readValue]
  generalize Nat.digitChar d = c at hchar
  simp only [List.mem_cons, List.not_mem_nil, or_false] at hchar
  rcases hchar with rfl | rfl | rfl | rfl | rfl | rfl | rfl | rfl | rfl | rfl <;>
    exact if_pos rfl

/-- `readValue` inverts `Value.compact` on `Flat` values. -/
theorem readValue_flat {value : Value} (h : Flat value) (depth fuel : Nat) {c : Char}
    (hc : EndsMember c) (rest : List Char) :
    readValue depth (fuel + 1) (value.compact.toList ++ c :: rest) = .ok (value, c :: rest) := by
  cases h with
  | string s =>
    have hread := readString_flatMap_escapeChar s (c :: rest)
    rw [Value.compact, toList_quote, List.cons_append, List.cons_append, List.append_assoc,
      List.singleton_append, readValue]
    exact congrArg (Except.map fun r : String × List Char => (Value.string r.1, r.2)) hread
  | integer n h =>
    have hread := readNumber_toDigits h hc rest
    rw [toList_compact_integer]
    have hfirst : ∃ d ds, d < 10 ∧ Nat.toDigits 10 n = Nat.digitChar d :: ds := by
      rcases Nat.eq_zero_or_pos n with rfl | hpos
      · exact ⟨0, [], by decide, rfl⟩
      · obtain ⟨d, ds, -, hlt, hdigits⟩ := exists_toDigits_eq_cons hpos
        exact ⟨d, ds, hlt, hdigits⟩
    obtain ⟨d, ds, hlt, hdigits⟩ := hfirst
    rw [hdigits, List.cons_append] at hread ⊢
    rw [readValue_digit hlt, hread]

/-- The characters of `"name":value`. -/
def memberChars (member : String × Value) : List Char :=
  (quote member.1 ++ ":" ++ member.2.compact).toList

/-- The characters of a `compact` object are those of its members with commas between them. -/
theorem toList_compact_object (member : String × Value) (members : List (String × Value)) :
    (Value.object (member :: members)).compact.toList =
      '\x7b' :: memberChars member ++ members.flatMap (fun m => ',' :: memberChars m) ++
        ['\x7d'] := by
  have htail : (String.intercalate "," (compactMembers (member :: members))).toList =
      memberChars member ++ members.flatMap (fun m => ',' :: memberChars m) := by
    induction members generalizing member with
    | nil => simp [compactMembers, memberChars]
    | cons next members ih =>
      have := ih next
      rw [compactMembers, compactMembers, String.intercalate_cons_cons]
      rw [compactMembers] at this
      simp only [String.toList_append, this]
      simp [memberChars]
  have hopen : "\x7b".toList = ['\x7b'] := rfl
  have hclose : "\x7d".toList = ['\x7d'] := rfl
  rw [Value.compact, String.toList_append, String.toList_append, htail, hopen, hclose,
    List.singleton_append, List.cons_append, List.cons_append, List.cons_append]

/-- `nextName` reads the quoted name of the first member, up to its colon. -/
theorem nextName_first (name : String) (rest : List Char) :
    nextName true ((quote name).toList ++ rest) = .ok (some name, rest) := by
  have hread := readString_flatMap_escapeChar name rest
  rw [toList_quote, List.cons_append, List.cons_append, List.append_assoc, List.singleton_append]
  exact congrArg (Except.map fun r : String × List Char => (some r.1, r.2)) hread

/-- `nextName` reads the quoted name of a further member, behind its comma. -/
theorem nextName_comma (name : String) (rest : List Char) :
    nextName false (',' :: (quote name).toList ++ rest) = .ok (some name, rest) := by
  have hread := readString_flatMap_escapeChar name rest
  rw [toList_quote, List.cons_append, List.cons_append, List.cons_append, List.append_assoc,
    List.singleton_append]
  exact congrArg (Except.map fun r : String × List Char => (some r.1, r.2)) hread

end Fanout.Json
