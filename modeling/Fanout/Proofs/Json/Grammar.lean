import Fanout.Json.Read

/-!
# The grammar of JSON

A grammar of JSON that does not mention the reader: quoted texts with all escapes, numbers, and
nested containers, with blanks between tokens. It has no limits on size or depth, which the reader
has.

`Spells` relates a quoted text to the characters it stands for. Some quoted texts have none, such as
half of a surrogate pair.
-/

namespace Fanout.Json

/-- Characters that may stand between tokens. -/
def Blanks (text : List Char) : Prop := ∀ c ∈ text, isBlank c = true

/-! ## Quoted texts -/

/-- The letters of short escapes, with the characters they stand for. -/
def shortEscapes : List (Char × Char) :=
  [('"', '"'), ('\\', '\\'), ('/', '/'), ('b', Char.ofNat 8), ('f', Char.ofNat 12), ('n', '\n'),
    ('r', '\r'), ('t', '\t')]

/-- `text` is four hexadecimal digits of the code unit `n`. -/
def UnitText (n : Nat) (text : List Char) : Prop :=
  ∃ a b c d x y z w, text = [a, b, c, d] ∧ hexDigit? a = some x ∧ hexDigit? b = some y ∧
    hexDigit? c = some z ∧ hexDigit? d = some w ∧ n = ((x * 16 + y) * 16 + z) * 16 + w

/-- A character that needs no escape. -/
structure Unescaped (c : Char) : Prop where
  quote : c ≠ '"'
  backslash : c ≠ '\\'
  control : 32 ≤ c.toNat

/-- The texts that may stand between quotes. -/
inductive BodyText : List Char → Prop
  | nil : BodyText []
  | plain {c : Char} {text : List Char} (hc : Unescaped c) (h : BodyText text) :
      BodyText (c :: text)
  | short {e c : Char} {text : List Char} (he : (e, c) ∈ shortEscapes) (h : BodyText text) :
      BodyText ('\\' :: e :: text)
  | unit {n : Nat} {digits text : List Char} (hunit : UnitText n digits) (h : BodyText text) :
      BodyText ('\\' :: 'u' :: digits ++ text)

/-- `Spells text characters`: between quotes, `text` stands for `characters`. -/
inductive Spells : (text characters : List Char) → Prop
  | nil : Spells [] []
  | plain {c : Char} {text cs : List Char} (hc : Unescaped c) (h : Spells text cs) :
      Spells (c :: text) (c :: cs)
  | short {e c : Char} {text cs : List Char} (he : (e, c) ∈ shortEscapes) (h : Spells text cs) :
      Spells ('\\' :: e :: text) (c :: cs)
  /-- A code unit that is no surrogate. -/
  | unit {n : Nat} {digits text cs : List Char} (hunit : UnitText n digits)
      (hn : n < 0xD800 ∨ 0xE000 ≤ n) (h : Spells text cs) :
      Spells ('\\' :: 'u' :: digits ++ text) (Char.ofNat n :: cs)
  /-- A surrogate pair. -/
  | pair {high low : Nat} {digits digits' text cs : List Char} (hhigh : UnitText high digits)
      (hlow : UnitText low digits') (hhigh' : 0xD800 ≤ high ∧ high < 0xDC00)
      (hlow' : 0xDC00 ≤ low ∧ low < 0xE000) (h : Spells text cs) :
      Spells ('\\' :: 'u' :: digits ++ '\\' :: 'u' :: digits' ++ text)
        (Char.ofNat (0x10000 + (high - 0xD800) * 0x400 + (low - 0xDC00)) :: cs)

/-- A text that `Spells` something is a `BodyText`. -/
theorem Spells.bodyText {text cs : List Char} (h : Spells text cs) : BodyText text := by
  induction h with
  | nil => exact .nil
  | plain hc _ ih => exact .plain hc ih
  | short he _ ih => exact .short he ih
  | unit hunit _ _ ih => exact .unit hunit ih
  | pair hhigh hlow _ _ _ ih =>
    have h := BodyText.unit hhigh (.unit hlow ih)
    simpa only [List.append_assoc, List.cons_append] using h

/-- A text without quotes, backslashes and control characters spells itself. -/
theorem Spells.self {text : List Char} (h : ∀ c ∈ text, c ≠ '"' ∧ c ≠ '\\' ∧ 32 ≤ c.toNat) :
    Spells text text := by
  induction text with
  | nil => exact .nil
  | cons c text ih =>
    obtain ⟨⟨hquote, hbackslash, hcontrol⟩, htext⟩ := List.forall_mem_cons.mp h
    exact .plain ⟨hquote, hbackslash, hcontrol⟩ (ih htext)

/-! ## Numbers -/

/-- Decimal digits. -/
def DigitsText (text : List Char) : Prop := ∀ c ∈ text, (digit? c).isSome = true

/-- A point and digits, or nothing. -/
inductive FractionText : List Char → Prop
  | none : FractionText []
  | some {digits : List Char} (hne : digits ≠ []) (h : DigitsText digits) :
      FractionText ('.' :: digits)

/-- The mark of an exponent, a sign or none, and digits; or nothing. -/
inductive ExponentText : List Char → Prop
  | none : ExponentText []
  | some {mark : Char} {sign digits : List Char} (hmark : mark = 'e' ∨ mark = 'E')
      (hsign : sign = [] ∨ sign = ['+'] ∨ sign = ['-']) (hne : digits ≠ [])
      (h : DigitsText digits) : ExponentText (mark :: sign ++ digits)

/-- A sign, a decimal without leading zeros, a fraction and an exponent. -/
inductive NumberText : List Char → Prop
  | mk {sign : List Char} (hsign : sign = [] ∨ sign = ['-']) (n : Nat)
      {fraction exponent : List Char} (hfraction : FractionText fraction)
      (hexponent : ExponentText exponent) :
      NumberText (sign ++ Nat.toDigits 10 n ++ fraction ++ exponent)

/-! ## Values -/

/-- The rows of some items, at least one, with commas between them. -/
inductive Rows {ι : Type} (Row : ι → List Char → Prop) : List ι → List Char → Prop
  | one {item : ι} {row : List Char} (h : Row item row) : Rows Row [item] row
  | cons {item : ι} {row : List Char} {items : List ι} {text : List Char} (h : Row item row)
      (hrest : Rows Row items text) : Rows Row (item :: items) (row ++ ',' :: text)

/-- The rows of some items, or blanks. -/
inductive Listing {ι : Type} (Row : ι → List Char → Prop) : List ι → List Char → Prop
  | nil {text : List Char} (h : Blanks text) : Listing Row [] text
  | rows {items : List ι} {text : List Char} (h : Rows Row items text) : Listing Row items text

/-- A value with blanks around it. -/
inductive ElementRow (value : List Char) : List Char → Prop
  | mk {before after : List Char} (hbefore : Blanks before) (hafter : Blanks after) :
      ElementRow value (before ++ value ++ after)

/-- A member of an object, as it is written. -/
structure RawMember where
  /-- What stands between the quotes of the name. -/
  name : List Char
  value : List Char

/-- A member with blanks around its parts. -/
inductive MemberRow (member : RawMember) : List Char → Prop
  | mk {before between behind after : List Char} (hbefore : Blanks before)
      (hbetween : Blanks between) (hbehind : Blanks behind) (hafter : Blanks after) :
      MemberRow member (before ++ '"' :: member.name ++ '"' :: between ++ ':' :: behind ++
        member.value ++ after)

/-- A member without blanks. -/
def RawMember.text (member : RawMember) : List Char :=
  '"' :: member.name ++ '"' :: ':' :: member.value

theorem Blanks.nil : Blanks [] := fun _ hc => by cases hc

theorem RawMember.memberRow (member : RawMember) : MemberRow member member.text := by
  have h : MemberRow member _ := .mk .nil .nil .nil .nil
  rwa [List.nil_append, List.append_nil, List.append_assoc, List.append_assoc] at h

theorem rows_text (member : RawMember) (members : List RawMember) :
    Rows MemberRow (member :: members)
      ([','].intercalate ((member :: members).map RawMember.text)) := by
  induction members generalizing member with
  | nil =>
    have h : Rows MemberRow [member] member.text := .one member.memberRow
    simpa [List.intercalate] using h
  | cons next members ih =>
    have h := Rows.cons member.memberRow (ih next)
    simpa [List.intercalate] using h

/-- Members without blanks around them. -/
theorem listing_text (members : List RawMember) :
    Listing MemberRow members ([','].intercalate (members.map RawMember.text)) := by
  cases members with
  | nil => exact .nil .nil
  | cons member members => exact .rows (rows_text member members)

/-- The JSON values. -/
inductive ValueText : List Char → Prop
  | null : ValueText ['n', 'u', 'l', 'l']
  | boolTrue : ValueText ['t', 'r', 'u', 'e']
  | boolFalse : ValueText ['f', 'a', 'l', 's', 'e']
  | number {text : List Char} (h : NumberText text) : ValueText text
  | string {body : List Char} (h : BodyText body) : ValueText ('"' :: body ++ ['"'])
  | array {items : List (List Char)} {text : List Char} (h : Listing ElementRow items text)
      (hitems : ∀ item ∈ items, ValueText item) : ValueText ('[' :: text ++ [']'])
  | object {members : List RawMember} {text : List Char} (h : Listing MemberRow members text)
      (hnames : ∀ member ∈ members, BodyText member.name)
      (hvalues : ∀ member ∈ members, ValueText member.value) :
      ValueText ('\x7b' :: text ++ ['\x7d'])

/-- The documents that are an object with `members`. -/
inductive ObjectText (members : List RawMember) : List Char → Prop
  | mk {before text after : List Char} (hbefore : Blanks before) (hafter : Blanks after)
      (h : Listing MemberRow members text) (hnames : ∀ member ∈ members, BodyText member.name)
      (hvalues : ∀ member ∈ members, ValueText member.value) :
      ObjectText members (before ++ '\x7b' :: text ++ '\x7d' :: after)

/-- Members without blanks around them make up an `ObjectText`. -/
theorem ObjectText.compact (members : List RawMember)
    (h : ∀ member ∈ members, BodyText member.name ∧ ValueText member.value) :
    ObjectText members ('\x7b' :: [','].intercalate (members.map RawMember.text) ++ ['\x7d']) :=
  .mk .nil .nil (listing_text members) (fun member hmember => (h member hmember).1)
    fun member hmember => (h member hmember).2

end Fanout.Json
