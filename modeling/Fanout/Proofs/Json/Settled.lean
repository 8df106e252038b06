import Fanout.Proofs.Json.Token
import Fanout.Proofs.Text
import Mathlib.Data.List.Forall2

/-!
# Values are read by themselves

The reader takes a JSON text as a whole, whatever follows it, and returns the same value each time,
or fails each time (`ValueText.settled`). So the elements of an array and the members of an object
can be considered one by one (`readsRows_elements`, `readsRows_members`).
-/

namespace Fanout.Json

/-- `rest` does not continue a value. -/
def EndsValue (rest : List Char) : Prop :=
  ∀ c ∈ rest.head?, isBlank c = true ∨ c = ',' ∨ c = ']' ∨ c = '\x7d'

theorem isBlank_iff {c : Char} :
    isBlank c = true ↔ c = ' ' ∨ c = '\t' ∨ c = '\n' ∨ c = '\r' := by
  simp [isBlank, or_assoc]

theorem EndsValue.endsNumber {rest : List Char} (h : EndsValue rest) : EndsNumber rest := by
  intro c hc
  rcases h c hc with hblank | rfl | rfl | rfl
  · rcases isBlank_iff.mp hblank with rfl | rfl | rfl | rfl <;> decide
  all_goals decide

/-- `EndsValue` holds behind blanks. -/
theorem EndsValue.append {blanks rest : List Char} (h : Blanks blanks) (hrest : EndsValue rest) :
    EndsValue (blanks ++ rest) := by
  cases blanks with
  | nil => exact hrest
  | cons b blanks =>
    intro c hc
    obtain rfl := Option.some.inj hc
    exact .inl (h b List.mem_cons_self)

theorem skipBlanks_append {blanks : List Char} (h : Blanks blanks) (cs : List Char) :
    skipBlanks (blanks ++ cs) = skipBlanks cs := List.dropWhile_append_of_pos h

theorem skipBlanks_cons {c : Char} (h : isBlank c = false) (cs : List Char) :
    skipBlanks (c :: cs) = c :: cs :=
  List.dropWhile_cons_of_neg (by rw [h]; exact Bool.false_ne_true)

/-! ## Single values -/

variable {depth : Nat} {text : List Char} {P : Value → Prop}

/-- `readValue` reads `text` as `value`, whatever follows it. -/
def Reads (depth : Nat) (text : List Char) (value : Value) : Prop :=
  ∀ fuel rest, text.length ≤ fuel → EndsValue rest →
    readValue depth fuel (text ++ rest) = .ok (value, rest)

/-- `readValue` reads `text` as the values that satisfy `P` and as no others, and takes all of
it. -/
def ReadsIff (depth : Nat) (text : List Char) (P : Value → Prop) : Prop :=
  ∀ fuel rest value r, text.length ≤ fuel → EndsValue rest →
    (readValue depth fuel (text ++ rest) = .ok (value, r) ↔ P value ∧ r = rest)

/-- What `readValue` reads `text` as does not depend on what follows. -/
def Settled (depth : Nat) (text : List Char) : Prop := ReadsIff depth text (Reads depth text)

theorem endsValue_nil : EndsValue [] := fun _ hc => by cases hc

theorem ReadsIff.reads_iff (h : ReadsIff depth text P) {value : Value} :
    Reads depth text value ↔ P value := by
  constructor
  · intro hreads
    have hread := hreads text.length [] (Nat.le_refl _) endsValue_nil
    exact ((h _ _ _ _ (Nat.le_refl _) endsValue_nil).mp hread).1
  · intro hvalue fuel rest hfuel hrest
    exact (h fuel rest value rest hfuel hrest).mpr ⟨hvalue, rfl⟩

theorem ReadsIff.settled (h : ReadsIff depth text P) : Settled depth text := by
  intro fuel rest value r hfuel hrest
  rw [h fuel rest value r hfuel hrest, h.reads_iff]

/-- `Reads` gives one value only. -/
theorem Reads.unique {value value' : Value} (h : Reads depth text value)
    (h' : Reads depth text value') : value = value' := by
  have hread := h text.length [] (Nat.le_refl _) endsValue_nil
  rw [h' text.length [] (Nat.le_refl _) endsValue_nil] at hread
  exact (Prod.mk.inj (Except.ok.inj hread)).1.symm

/-- `ReadsIff` may assume that there is fuel. -/
theorem readsIff_of_succ (hne : text ≠ [])
    (h : ∀ fuel rest value r, text.length ≤ fuel + 1 → EndsValue rest →
      (readValue depth (fuel + 1) (text ++ rest) = .ok (value, r) ↔ P value ∧ r = rest)) :
    ReadsIff depth text P := by
  intro fuel rest value r hfuel hrest
  have hpos := List.length_pos_iff.mpr hne
  obtain ⟨fuel, rfl⟩ := Nat.exists_eq_add_one_of_ne_zero (show fuel ≠ 0 by omega)
  exact h fuel rest value r hfuel hrest

/-- `readValue` skips blanks. -/
theorem readValue_blanks {blanks : List Char} (h : Blanks blanks) (fuel : Nat) (cs : List Char) :
    readValue depth fuel (blanks ++ cs) = readValue depth fuel cs := by
  cases fuel with
  | zero => rfl
  | succ fuel => rw [readValue, readValue, skipBlanks_append h]

theorem readLiteral_eq_ok_iff {literal value : Value} {letters rest r : List Char} :
    readLiteral literal letters (letters ++ rest) = .ok (value, r) ↔
      value = literal ∧ r = rest := by
  have hread : readLiteral literal letters (letters ++ rest) = .ok (literal, rest) := by
    induction letters with
    | nil => cases rest <;> rfl
    | cons l letters ih => rw [List.cons_append, readLiteral, if_pos rfl, ih]
  rw [hread, Except.ok.injEq, Prod.mk.injEq]
  exact and_congr eq_comm eq_comm

theorem readsIff_null (depth : Nat) : ReadsIff depth ['n', 'u', 'l', 'l'] (· = .null) :=
  readsIff_of_succ (List.cons_ne_nil _ _) fun fuel rest value r _ _ => by
    rw [List.cons_append, readValue]
    exact readLiteral_eq_ok_iff

theorem readsIff_true (depth : Nat) : ReadsIff depth ['t', 'r', 'u', 'e'] (· = .bool true) :=
  readsIff_of_succ (List.cons_ne_nil _ _) fun fuel rest value r _ _ => by
    rw [List.cons_append, readValue]
    exact readLiteral_eq_ok_iff

theorem readsIff_false (depth : Nat) :
    ReadsIff depth ['f', 'a', 'l', 's', 'e'] (· = .bool false) :=
  readsIff_of_succ (List.cons_ne_nil _ _) fun fuel rest value r _ _ => by
    rw [List.cons_append, readValue]
    exact readLiteral_eq_ok_iff

/-- A `NumberText` that is a decimal has no sign, fraction or exponent. -/
theorem plain_of_eq_toDigits {sign fraction exponent digits : List Char}
    (hsign : sign = [] ∨ sign = ['-']) (hfraction : FractionText fraction)
    (hexponent : ExponentText exponent) {i : Nat}
    (h : sign ++ digits ++ fraction ++ exponent = Nat.toDigits 10 i) :
    sign = [] ∧ fraction = [] ∧ exponent = [] := by
  have hdigit (c : Char) (hc : c ∈ sign ++ digits ++ fraction ++ exponent) :
      (digit? c).isSome = true := digitsText_toDigits i c (h ▸ hc)
  refine ⟨?_, ?_, ?_⟩
  · rcases hsign with rfl | rfl
    · rfl
    · cases hdigit '-' (by simp)
  · cases hfraction with
    | none => rfl
    | some => cases hdigit '.' (by simp)
  · cases hexponent with
    | none => rfl
    | some hmark =>
      rcases hmark with rfl | rfl
      · cases hdigit 'e' (by simp)
      · cases hdigit 'E' (by simp)

/-- A number is read as one value or as none, and as a natural number iff it is the decimal of
it. -/
theorem exists_readsIff_number (h : NumberText text) (depth : Nat) :
    ∃ outcome : Except ReadError Value, ReadsIff depth text (outcome = .ok ·) ∧
      ∀ i : Nat, outcome = .ok (.integer i) ↔ text = Nat.toDigits 10 i ∧ i < Nat.pow 2 64 := by
  obtain @⟨sign, hsign, n, fraction, exponent, hfraction, hexponent⟩ := h
  obtain ⟨outcome, hinteger, hread⟩ :=
    exists_readNumber (sign = ['-']) n hfraction hexponent
  obtain ⟨d, digits, hlt, hdigits, -⟩ := exists_toDigits n
  -- the sign is looked at first
  have hvalue (fuel : Nat) (rest : List Char) :
      readValue depth (fuel + 1) (sign ++ Nat.toDigits 10 n ++ fraction ++ exponent ++ rest) =
        readNumber (sign = ['-']) (Nat.toDigits 10 n ++ fraction ++ exponent ++ rest) := by
    rcases hsign with rfl | rfl
    · rw [List.nil_append, hdigits]
      exact readValue_digit hlt depth fuel _
    · rw [readValue]
      rfl
  refine ⟨outcome, readsIff_of_succ ?_ fun fuel rest value r _ hrest => ?_, fun i => ?_⟩
  · rw [hdigits]
    simp
  · rw [hvalue, hread rest hrest.endsNumber, Traversal.map_eq_ok_iff]
    constructor
    · rintro ⟨value, houtcome, heq⟩
      cases heq
      exact ⟨houtcome, rfl⟩
    · rintro ⟨houtcome, rfl⟩
      exact ⟨value, houtcome, rfl⟩
  · rw [hinteger]
    constructor
    · rintro ⟨hplus, rfl, rfl, rfl, hi⟩
      rcases hsign with rfl | rfl
      · exact ⟨by rw [List.nil_append, List.append_nil, List.append_nil], hi⟩
      · cases hplus
    · -- a decimal has digits only, so the other parts are empty
      rintro ⟨htext, hi⟩
      obtain ⟨hsign', hfraction', hexponent'⟩ :=
        plain_of_eq_toDigits hsign hfraction hexponent htext
      rw [hsign', hfraction', hexponent', List.nil_append, List.append_nil,
        List.append_nil] at htext
      exact ⟨by rw [hsign']; rfl, hfraction', hexponent', Text.toDigits_inj htext, hi⟩

/-- A quoted text is read as the text that it `Spells`. -/
theorem readsIff_string {body : List Char} (h : BodyText body) (depth : Nat) :
    ReadsIff depth ('"' :: body ++ ['"']) fun value =>
      ∃ s : String, value = .string s ∧ Spells body s.toList := by
  refine readsIff_of_succ (List.cons_ne_nil _ _) fun fuel rest value r _ _ => ?_
  have hvalue : readValue depth (fuel + 1) ('"' :: body ++ ['"'] ++ rest) =
      (readString (body ++ '"' :: rest)).map fun r => (.string r.1, r.2) := by
    rw [List.append_assoc, List.cons_append, readValue]
    rfl
  rw [hvalue, Traversal.map_eq_ok_iff]
  constructor
  · rintro ⟨⟨s, r⟩, hs, heq⟩
    cases heq
    obtain ⟨hspells, rfl⟩ := (readString_eq_ok_iff h).mp hs
    exact ⟨⟨s, rfl, hspells⟩, rfl⟩
  · rintro ⟨⟨s, rfl, hspells⟩, rfl⟩
    exact ⟨(s, r), (readString_eq_ok_iff h).mpr ⟨hspells, rfl⟩, rfl⟩

/-! ## Rows -/

/-- The comma in front of a row, unless it is the first one. -/
def comma (first : Bool) : List Char := if first then [] else [',']

theorem endsValue_cons {c : Char} (h : c = ',' ∨ c = ']' ∨ c = '\x7d') (cs : List Char) :
    EndsValue (c :: cs) := by
  intro c' hc
  obtain rfl := Option.some.inj hc
  exact .inr h

/-- `read` reads rows: one after the other, up to `close`. -/
structure ReadsRows {ι α : Type} (Row : ι → List Char → Prop) (R : ι → α → Prop)
    (items : List ι) (close : Char)
    (read : Bool → Nat → List Char → Except ReadError (List α × List Char)) : Prop where
  close_ends : close = ']' ∨ close = '\x7d'
  row_pos : ∀ item ∈ items, ∀ row, Row item row → 0 < row.length
  /-- It reads a row, and then the others. -/
  row : ∀ item ∈ items, ∀ row, Row item row → ∀ first fuel cs, row.length ≤ fuel → EndsValue cs →
    ∀ as r, read first (fuel + 1) (comma first ++ (row ++ cs)) = .ok (as, r) ↔
      ∃ a as', as = a :: as' ∧ R item a ∧ read false fuel cs = .ok (as', r)
  /-- It reads `close` as no rows. -/
  close : ∀ first fuel blanks rest, Blanks blanks →
    read first (fuel + 1) (blanks ++ close :: rest) = .ok ([], rest)

section Rows

variable {ι α : Type} {Row : ι → List Char → Prop} {R : ι → α → Prop} {items : List ι}
  {close : Char} {read : Bool → Nat → List Char → Except ReadError (List α × List Char)}
  {text : List Char}

theorem ReadsRows.tail {item : ι} (h : ReadsRows Row R (item :: items) close read) :
    ReadsRows Row R items close read where
  close_ends := h.close_ends
  row_pos item hitem := h.row_pos item (List.mem_cons_of_mem _ hitem)
  row item hitem := h.row item (List.mem_cons_of_mem _ hitem)
  close := h.close

/-- `ReadsRows` reads `Rows` one by one. -/
theorem Rows.read_iff (htext : Rows Row items text) (h : ReadsRows Row R items close read)
    (first : Bool) {fuel : Nat} (hfuel : text.length < fuel) {rest r : List Char} {as : List α} :
    read first fuel (comma first ++ (text ++ close :: rest)) = .ok (as, r) ↔
      List.Forall₂ R items as ∧ r = rest := by
  -- a step for each row and one for the end, which no empty row uses up
  induction htext generalizing first fuel as with
  | @one item row hrow =>
    have hpos := h.row_pos item List.mem_cons_self row hrow
    obtain ⟨fuel, rfl⟩ : ∃ fuel', fuel = fuel' + 2 := ⟨fuel - 2, by omega⟩
    have hclose : read false (fuel + 1) (close :: rest) = .ok ([], rest) :=
      h.close false fuel [] rest (fun _ hc => by cases hc)
    rw [h.row item List.mem_cons_self row hrow first (fuel + 1) _ (by omega)
      (endsValue_cons (.inr h.close_ends) rest), hclose]
    constructor
    · rintro ⟨a, as', rfl, ha, hnil⟩
      cases hnil
      exact ⟨.cons ha .nil, rfl⟩
    · rintro ⟨has, rfl⟩
      cases has with
      | cons ha hnil =>
        cases hnil
        exact ⟨_, _, rfl, ha, rfl⟩
  | @cons item row items text hrow _ ih =>
    obtain ⟨fuel, rfl⟩ := Nat.exists_eq_add_one_of_ne_zero (Nat.ne_zero_of_lt hfuel)
    simp only [List.length_append, List.length_cons] at hfuel
    have hread {as : List α} :
        read false fuel (',' :: (text ++ close :: rest)) = .ok (as, r) ↔
          List.Forall₂ R items as ∧ r = rest := ih h.tail false (by omega)
    rw [List.append_assoc, List.cons_append, h.row item List.mem_cons_self row hrow first fuel _
      (by omega) (endsValue_cons (.inl rfl) _)]
    constructor
    · rintro ⟨a, as', rfl, ha, has⟩
      obtain ⟨has', rfl⟩ := hread.mp has
      exact ⟨.cons ha has', rfl⟩
    · rintro ⟨has, rfl⟩
      cases has with
      | cons ha has => exact ⟨_, _, rfl, ha, hread.mpr ⟨has, rfl⟩⟩

/-- `ReadsRows` reads a `Listing` one by one. -/
theorem Listing.read_iff (htext : Listing Row items text) (h : ReadsRows Row R items close read)
    {fuel : Nat} (hfuel : text.length < fuel) {rest r : List Char} {as : List α} :
    read true fuel (text ++ close :: rest) = .ok (as, r) ↔
      List.Forall₂ R items as ∧ r = rest := by
  cases htext with
  | rows htext => exact htext.read_iff h true hfuel
  | nil hblanks =>
    obtain ⟨fuel, rfl⟩ := Nat.exists_eq_add_one_of_ne_zero (Nat.ne_zero_of_lt hfuel)
    rw [h.close true fuel text rest hblanks]
    constructor
    · intro hnil
      cases hnil
      exact ⟨.nil, rfl⟩
    · rintro ⟨has, rfl⟩
      cases has
      rfl

end Rows

/-! ## Elements -/

/-- `c` is neither blank nor a comma nor the end of a container. -/
def BeginsValue (c : Char) : Prop := isBlank c = false ∧ c ≠ ']'

theorem nextElement_false (cs : List Char) :
    nextElement false (',' :: cs) =
      match skipBlanks cs with
      | [] => .error .endOfInput
      | ']' :: _ => .error .malformed
      | rest => .ok (true, rest) := rfl

theorem nextElement_row {blanks : List Char} (h : Blanks blanks) {c : Char} (hc : BeginsValue c)
    (first : Bool) (cs : List Char) :
    nextElement first (comma first ++ (blanks ++ c :: cs)) = .ok (true, c :: cs) := by
  have hskip : skipBlanks (blanks ++ c :: cs) = c :: cs := by
    rw [skipBlanks_append h, skipBlanks_cons hc.1]
  cases first with
  | true =>
    rw [comma, if_pos rfl, List.nil_append, nextElement, hskip]
    split
    next heq => cases heq
    next heq => exact absurd (List.cons.inj heq).1 hc.2
    next heq =>
      cases heq
      rfl
  | false =>
    rw [comma, if_neg Bool.false_ne_true, List.singleton_append, nextElement_false, hskip]
    split
    next heq => cases heq
    next heq => exact absurd (List.cons.inj heq).1 hc.2
    next => rfl

theorem nextElement_close {blanks : List Char} (h : Blanks blanks) (first : Bool)
    (rest : List Char) : nextElement first (blanks ++ ']' :: rest) = .ok (false, rest) := by
  rw [nextElement, skipBlanks_append h]
  rfl

/-- `readElements` skips blanks. -/
theorem readElements_blanks {blanks : List Char} (h : Blanks blanks) (depth fuel : Nat)
    (first : Bool) (cs : List Char) :
    readElements depth first fuel (blanks ++ cs) = readElements depth first fuel cs := by
  cases fuel with
  | zero => rfl
  | succ fuel => rw [readElements, readElements, nextElement, nextElement, skipBlanks_append h]

/-- A `ValueText` begins with a character that `BeginsValue`. -/
theorem ValueText.begins (h : ValueText text) : ∃ c cs, text = c :: cs ∧ BeginsValue c := by
  cases h with
  | null => exact ⟨_, _, rfl, by decide, by decide⟩
  | boolTrue => exact ⟨_, _, rfl, by decide, by decide⟩
  | boolFalse => exact ⟨_, _, rfl, by decide, by decide⟩
  | string => exact ⟨_, _, rfl, by decide, by decide⟩
  | array => exact ⟨_, _, rfl, by decide, by decide⟩
  | object => exact ⟨_, _, rfl, by decide, by decide⟩
  | number h =>
    obtain @⟨sign, hsign, n, fraction, exponent, -, -⟩ := h
    rcases hsign with rfl | rfl
    · obtain ⟨d, digits, hlt, hdigits, -⟩ := exists_toDigits n
      have hbegins : ∀ d < 10, isBlank (Nat.digitChar d) = false ∧ Nat.digitChar d ≠ ']' := by
        decide
      exact ⟨_, _, by rw [hdigits]; rfl, hbegins d hlt⟩
    · exact ⟨_, _, rfl, by decide, by decide⟩

/-- `readElements` reads an element, and then the others. -/
theorem readElements_row {item row : List Char} (h : ElementRow item row) (htext : ValueText item)
    (hsettled : Settled depth item) (first : Bool) {fuel : Nat} (hfuel : row.length ≤ fuel)
    {cs : List Char} (hcs : EndsValue cs) {values : List Value} {r : List Char} :
    readElements depth first (fuel + 1) (comma first ++ (row ++ cs)) = .ok (values, r) ↔
      ∃ value values', values = value :: values' ∧ Reads depth item value ∧
        readElements depth false fuel cs = .ok (values', r) := by
  obtain @⟨before, after, hbefore, hafter⟩ := h
  obtain ⟨c, item', rfl, hc⟩ := htext.begins
  have hnext := nextElement_row hbefore hc first (item' ++ (after ++ cs))
  -- the element is settled: the blanks behind it and the rows behind those leave its value alone
  have hvalue {value : Value} {r : List Char} :
      readValue depth fuel (c :: (item' ++ (after ++ cs))) = .ok (value, r) ↔
        Reads depth (c :: item') value ∧ r = after ++ cs := by
    refine hsettled fuel (after ++ cs) value r ?_ (hcs.append hafter)
    simp only [List.length_append] at hfuel
    omega
  simp only [List.append_assoc, List.cons_append] at hnext ⊢
  rw [readElements, hnext]
  simp only [bind, Except.bind]
  constructor
  · intro hread
    split at hread
    next => cases hread
    next v heq =>
      obtain ⟨hreads, hrest⟩ := hvalue.mp heq
      rw [hrest, readElements_blanks hafter] at hread
      split at hread
      next => cases hread
      next heq' =>
        cases hread
        exact ⟨_, _, rfl, hreads, heq'⟩
  · rintro ⟨value, values', rfl, hreads, hread⟩
    rw [hvalue.mpr ⟨hreads, rfl⟩]
    dsimp only
    rw [readElements_blanks hafter, hread]
    rfl

theorem ElementRow.length_pos {item row : List Char} (h : ElementRow item row)
    (htext : ValueText item) : 0 < row.length := by
  obtain @⟨before, after, -, -⟩ := h
  obtain ⟨c, cs, rfl, -⟩ := htext.begins
  simp only [List.length_append, List.length_cons]
  omega

/-- `readElements` reads the elements of an array as rows. -/
theorem readsRows_elements {items : List (List Char)} (htexts : ∀ item ∈ items, ValueText item)
    (hsettled : ∀ item ∈ items, Settled depth item) :
    ReadsRows ElementRow (Reads depth) items ']' (readElements depth) where
  close_ends := .inl rfl
  row_pos item hitem row hrow := hrow.length_pos (htexts item hitem)
  row item hitem row hrow first fuel cs hlength hcs as r :=
    readElements_row hrow (htexts item hitem) (hsettled item hitem) first hlength hcs
  close first fuel blanks rest hblanks := by
    rw [readElements, nextElement_close hblanks]
    rfl

/-! ## Members -/

/-- The name of the member spells the name that was read, and its value `Reads` as the value that
was read. -/
def ReadsMember (depth : Nat) (member : RawMember) (read : String × Value) : Prop :=
  Spells member.name read.1.toList ∧ Reads depth member.value read.2

theorem nextName_quote {body : List Char} (h : BodyText body) {cs r : List Char}
    {found : Option String} :
    ((readString (body ++ '"' :: cs)).map fun r => (some r.1, r.2)) = .ok (found, r) ↔
      (∃ name : String, found = some name ∧ Spells body name.toList) ∧ r = cs := by
  rw [Traversal.map_eq_ok_iff]
  constructor
  · rintro ⟨⟨name, r⟩, hname, heq⟩
    cases heq
    obtain ⟨hspells, rfl⟩ := (readString_eq_ok_iff h).mp hname
    exact ⟨⟨name, rfl, hspells⟩, rfl⟩
  · rintro ⟨⟨name, rfl, hspells⟩, rfl⟩
    exact ⟨(name, r), (readString_eq_ok_iff h).mpr ⟨hspells, rfl⟩, rfl⟩

theorem nextName_false (cs : List Char) :
    nextName false (',' :: cs) =
      match skipBlanks cs with
      | [] => .error .endOfInput
      | '"' :: rest => (readString rest).map fun r => (some r.1, r.2)
      | _ => .error .malformed := rfl

/-- `nextName` reads the name of a member as the text that it `Spells`. -/
theorem nextName_row {blanks body : List Char} (h : Blanks blanks) (hbody : BodyText body)
    (first : Bool) {cs r : List Char} {found : Option String} :
    nextName first (comma first ++ (blanks ++ '"' :: (body ++ '"' :: cs))) = .ok (found, r) ↔
      (∃ name : String, found = some name ∧ Spells body name.toList) ∧ r = cs := by
  have hskip : skipBlanks (blanks ++ '"' :: (body ++ '"' :: cs)) = '"' :: (body ++ '"' :: cs) := by
    rw [skipBlanks_append h, skipBlanks_cons (by decide)]
  rw [← nextName_quote hbody]
  cases first with
  | true =>
    rw [comma, if_pos rfl, List.nil_append, nextName, hskip]
    rfl
  | false =>
    rw [comma, if_neg Bool.false_ne_true, List.singleton_append, nextName_false, hskip]
    rfl

theorem nextName_close {blanks : List Char} (h : Blanks blanks) (first : Bool)
    (rest : List Char) : nextName first (blanks ++ '\x7d' :: rest) = .ok (none, rest) := by
  rw [nextName, skipBlanks_append h]
  rfl

theorem readColon_blanks {blanks : List Char} (h : Blanks blanks) (cs : List Char) :
    readColon (blanks ++ ':' :: cs) = .ok cs := by
  rw [readColon, skipBlanks_append h]
  rfl

/-- `nextName` skips blanks. -/
theorem nextName_blanks {blanks : List Char} (h : Blanks blanks) (first : Bool) (cs : List Char) :
    nextName first (blanks ++ cs) = nextName first cs := by
  rw [nextName, nextName, skipBlanks_append h]

theorem readMembers_blanks {blanks : List Char} (h : Blanks blanks) (depth fuel : Nat)
    (first : Bool) (cs : List Char) :
    readMembers depth first fuel (blanks ++ cs) = readMembers depth first fuel cs := by
  cases fuel with
  | zero => rfl
  | succ fuel => rw [readMembers, readMembers, nextName_blanks h]

section Members

variable {fuel : Nat} {first : Bool} {name : String} {members : List (String × Value)}
  {cs rest r : List Char}

theorem readMembers_end (h : nextName first cs = .ok (none, rest)) :
    readMembers depth first (fuel + 1) cs = .ok ([], rest) := by
  rw [readMembers, h]
  rfl

theorem readMembers_next_eq_ok_iff (h : nextName first cs = .ok (some name, rest)) :
    readMembers depth first (fuel + 1) cs = .ok (members, r) ↔
      ∃ rest₁ value rest₂ members', readColon rest = .ok rest₁ ∧
        readValue depth fuel rest₁ = .ok (value, rest₂) ∧
        readMembers depth false fuel rest₂ = .ok (members', r) ∧
        members = (name, value) :: members' := by
  rw [readMembers, h, Traversal.ok_bind]
  constructor
  · intro hread
    obtain ⟨rest₁, hcolon, hread⟩ := Traversal.bind_eq_ok_iff.mp hread
    obtain ⟨⟨value, rest₂⟩, hvalue, hread⟩ := Traversal.bind_eq_ok_iff.mp hread
    obtain ⟨⟨members', r'⟩, hmembers, hread⟩ := Traversal.bind_eq_ok_iff.mp hread
    cases hread
    exact ⟨rest₁, value, rest₂, members', hcolon, hvalue, hmembers, rfl⟩
  · rintro ⟨rest₁, value, rest₂, members', hcolon, hvalue, hmembers, rfl⟩
    simp only [hcolon, Traversal.ok_bind, hvalue, hmembers]
    rfl

end Members

/-- `readMembers` reads a member, and then the others. -/
theorem readMembers_row {member : RawMember} {row : List Char} (h : MemberRow member row)
    (hname : BodyText member.name) (hsettled : Settled depth member.value) (first : Bool)
    {fuel : Nat} (hfuel : row.length ≤ fuel) {cs : List Char} (hcs : EndsValue cs)
    {members : List (String × Value)} {r : List Char} :
    readMembers depth first (fuel + 1) (comma first ++ (row ++ cs)) = .ok (members, r) ↔
      ∃ read members', members = read :: members' ∧ ReadsMember depth member read ∧
        readMembers depth false fuel cs = .ok (members', r) := by
  obtain @⟨before, between, behind, after, hbefore, hbetween, hbehind, hafter⟩ := h
  simp only [List.length_append, List.length_cons] at hfuel
  have hvalue {value : Value} {r : List Char} :
      readValue depth fuel (behind ++ (member.value ++ (after ++ cs))) = .ok (value, r) ↔
        Reads depth member.value value ∧ r = after ++ cs := by
    rw [readValue_blanks hbehind]
    exact hsettled fuel (after ++ cs) value r (by omega) (hcs.append hafter)
  simp only [List.append_assoc, List.cons_append]
  constructor
  · intro hread
    -- there has to be a name before the equation for a named member applies
    have hnext := hread
    rw [readMembers] at hnext
    obtain ⟨⟨found, rest⟩, hfound, -⟩ := Traversal.bind_eq_ok_iff.mp hnext
    obtain ⟨⟨name, rfl, hspells⟩, rfl⟩ := (nextName_row hbefore hname first).mp hfound
    obtain ⟨rest₁, value, rest₂, members', hcolon, hmember, hothers, rfl⟩ :=
      (readMembers_next_eq_ok_iff hfound).mp hread
    rw [readColon_blanks hbetween] at hcolon
    cases hcolon
    obtain ⟨hreads, rfl⟩ := hvalue.mp hmember
    rw [readMembers_blanks hafter] at hothers
    exact ⟨(name, value), members', rfl, ⟨hspells, hreads⟩, hothers⟩
  · rintro ⟨⟨name, value⟩, members', rfl, ⟨hspells, hreads⟩, hothers⟩
    rw [← readMembers_blanks hafter] at hothers
    rw [readMembers_next_eq_ok_iff
      ((nextName_row hbefore hname first).mpr ⟨⟨name, rfl, hspells⟩, rfl⟩)]
    exact ⟨_, value, _, members', readColon_blanks hbetween _, hvalue.mpr ⟨hreads, rfl⟩, hothers,
      rfl⟩

/-- `readMembers` reads the members of an object as rows. -/
theorem readsRows_members {members : List RawMember}
    (hnames : ∀ member ∈ members, BodyText member.name)
    (hsettled : ∀ member ∈ members, Settled depth member.value) :
    ReadsRows MemberRow (ReadsMember depth) members '\x7d' (readMembers depth) where
  close_ends := .inr rfl
  row_pos member _ row hrow := by
    obtain @⟨before, between, behind, after, -, -, -, -⟩ := hrow
    simp only [List.length_append, List.length_cons]
    omega
  row member hmember row hrow first fuel cs hlength hcs as r :=
    readMembers_row hrow (hnames member hmember) (hsettled member hmember) first hlength hcs
  close first fuel blanks rest hblanks := by
    rw [readMembers, nextName_close hblanks]
    rfl

/-! ## All values -/

/-- A container is read as `make` of its rows, if the depth allows for it. -/
theorem readsIff_container {ι α : Type} {Row : ι → List Char → Prop} {R : ι → α → Prop}
    {items : List ι} {opening close : Char} {make : List α → Value}
    {read : Bool → Nat → List Char → Except ReadError (List α × List Char)}
    (hvalue : ∀ fuel cs, readValue depth (fuel + 1) (opening :: cs) =
      if depth ≤ 1 then .error .malformed
      else (read true fuel cs).map fun r => (make r.1, r.2))
    (htext : Listing Row items text) (h : ReadsRows Row R items close read) :
    ReadsIff depth (opening :: text ++ [close]) fun value =>
      1 < depth ∧ ∃ as, value = make as ∧ List.Forall₂ R items as := by
  refine readsIff_of_succ (List.cons_ne_nil _ _) fun fuel rest value r hfuel _ => ?_
  have hlength : text.length < fuel := by
    simp only [List.length_append, List.length_cons] at hfuel
    omega
  have hread {as : List α} {r : List Char} :
      read true fuel (text ++ close :: rest) = .ok (as, r) ↔
        List.Forall₂ R items as ∧ r = rest := htext.read_iff h hlength
  rw [List.append_assoc, List.cons_append, List.singleton_append, hvalue]
  split
  next hdepth =>
    constructor
    · intro hread
      cases hread
    · rintro ⟨⟨hopen, -⟩, -⟩
      omega
  next hdepth =>
    rw [Traversal.map_eq_ok_iff]
    constructor
    · rintro ⟨⟨as, r⟩, hrows, heq⟩
      cases heq
      obtain ⟨has, rfl⟩ := hread.mp hrows
      exact ⟨⟨Nat.not_le.mp hdepth, as, rfl, has⟩, rfl⟩
    · rintro ⟨⟨-, as, rfl, has⟩, rfl⟩
      exact ⟨(as, r), hread.mpr ⟨has, rfl⟩, rfl⟩

theorem readValue_array (depth fuel : Nat) (cs : List Char) :
    readValue depth (fuel + 1) ('[' :: cs) =
      if depth ≤ 1 then .error .malformed
      else (readElements (depth - 1) true fuel cs).map fun r => (.array r.1, r.2) := by
  rw [readValue]
  rfl

theorem readValue_object (depth fuel : Nat) (cs : List Char) :
    readValue depth (fuel + 1) ('\x7b' :: cs) =
      if depth ≤ 1 then .error .malformed
      else (readMembers (depth - 1) true fuel cs).map fun r => (.object r.1, r.2) := by
  rw [readValue]
  rfl

theorem readsIff_array {items : List (List Char)} (h : Listing ElementRow items text)
    (htexts : ∀ item ∈ items, ValueText item)
    (hsettled : ∀ item ∈ items, Settled (depth - 1) item) :
    ReadsIff depth ('[' :: text ++ [']']) fun value =>
      1 < depth ∧ ∃ values, value = .array values ∧
        List.Forall₂ (Reads (depth - 1)) items values :=
  readsIff_container (readValue_array depth) h (readsRows_elements htexts hsettled)

theorem readsIff_object {members : List RawMember} (h : Listing MemberRow members text)
    (hnames : ∀ member ∈ members, BodyText member.name)
    (hsettled : ∀ member ∈ members, Settled (depth - 1) member.value) :
    ReadsIff depth ('\x7b' :: text ++ ['\x7d']) fun value =>
      1 < depth ∧ ∃ read, value = .object read ∧
        List.Forall₂ (ReadsMember (depth - 1)) members read :=
  readsIff_container (readValue_object depth) h (readsRows_members hnames hsettled)

/-- Every `ValueText` is `Settled`. -/
theorem ValueText.settled (h : ValueText text) (depth : Nat) : Settled depth text := by
  -- the depth varies: what is in a container is read one level further down
  induction h generalizing depth with
  | null => exact (readsIff_null depth).settled
  | boolTrue => exact (readsIff_true depth).settled
  | boolFalse => exact (readsIff_false depth).settled
  | number h =>
    obtain ⟨outcome, hread, -⟩ := exists_readsIff_number h depth
    exact hread.settled
  | string h => exact (readsIff_string h depth).settled
  | array h hitems ih =>
    exact (readsIff_array h hitems fun item hitem => ih item hitem (depth - 1)).settled
  | object h hnames _ ih =>
    exact (readsIff_object h hnames fun member hmember => ih member hmember (depth - 1)).settled

/-- A `ValueText` is read as a natural number iff it is the decimal of a number below `2 ^ 64`. -/
theorem ValueText.reads_integer_iff (h : ValueText text) {i : Nat} :
    Reads depth text (.integer i) ↔ text = Nat.toDigits 10 i ∧ i < Nat.pow 2 64 := by
  -- a text that does not begin with a digit is no decimal, and what it is read as no integer
  have hother {c : Char} {cs : List Char} {P : Value → Prop} (hc : (digit? c).isSome = false)
      (hread : ReadsIff depth (c :: cs) P) (hP : ¬ P (.integer i)) :
      Reads depth (c :: cs) (.integer i) ↔ c :: cs = Nat.toDigits 10 i ∧ i < Nat.pow 2 64 := by
    rw [hread.reads_iff]
    refine ⟨fun h => absurd h hP, fun h => ?_⟩
    have hdigit := digitsText_toDigits i c (h.1 ▸ List.mem_cons_self)
    rw [hc] at hdigit
    cases hdigit
  cases h with
  | null => exact hother rfl (readsIff_null depth) fun h => by cases h
  | boolTrue => exact hother rfl (readsIff_true depth) fun h => by cases h
  | boolFalse => exact hother rfl (readsIff_false depth) fun h => by cases h
  | number h =>
    obtain ⟨outcome, hread, hinteger⟩ := exists_readsIff_number h depth
    rw [hread.reads_iff, hinteger]
  | string h =>
    refine hother rfl (readsIff_string h depth) ?_
    rintro ⟨s, hs, -⟩
    cases hs
  | array h hitems =>
    refine hother rfl (readsIff_array h hitems fun item hitem => (hitems item hitem).settled _) ?_
    rintro ⟨-, values, hvalues, -⟩
    cases hvalues
  | object h hnames hvalues =>
    refine hother rfl (readsIff_object h hnames fun member hmember =>
      (hvalues member hmember).settled _) ?_
    rintro ⟨-, read, hread, -⟩
    cases hread

end Fanout.Json
