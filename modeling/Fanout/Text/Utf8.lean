/-!
# UTF-8

`encode` writes characters as bytes and `decode` reads them back. A byte string that is no UTF-8 is
refused at the first character that cannot be completed, with the place and the number of bytes that
were already wrong; a text that merely stops too early has no such number.
-/

namespace Fanout.Utf8

/-- Where and how a byte string stops being UTF-8. -/
structure Error where
  /-- How many bytes from the start are well formed. -/
  validUpTo : Nat
  /-- How many bytes after them are wrong, or none when the text only ends too early. -/
  badLength : Option Nat
deriving DecidableEq, Repr

/-- The text of an encoding error. -/
def Error.message (e : Error) : String :=
  match e.badLength with
  | some n => s!"invalid utf-8 sequence of {n} bytes from index {e.validUpTo}"
  | none => s!"incomplete utf-8 byte sequence from index {e.validUpTo}"

/-- The bytes of one character. -/
def encodeChar (c : Char) : List UInt8 :=
  let n := c.toNat
  if n < 0x80 then [UInt8.ofNat n]
  else if n < 0x800 then [UInt8.ofNat (0xC0 + n / 64), UInt8.ofNat (0x80 + n % 64)]
  else if n < 0x10000 then
    [UInt8.ofNat (0xE0 + n / 4096), UInt8.ofNat (0x80 + n / 64 % 64), UInt8.ofNat (0x80 + n % 64)]
  else
    [UInt8.ofNat (0xF0 + n / 262144), UInt8.ofNat (0x80 + n / 4096 % 64),
      UInt8.ofNat (0x80 + n / 64 % 64), UInt8.ofNat (0x80 + n % 64)]

/-- The bytes of a text. -/
def encode (s : String) : List UInt8 := s.toList.flatMap encodeChar

/-- Whether a byte lies in a range of continuation bytes. -/
def within (b : UInt8) (low high : Nat) : Bool := low ≤ b.toNat && b.toNat ≤ high

/-- Whether a byte continues a character. -/
def continues (b : UInt8) : Bool := within b 0x80 0xBF

/-- The payload of a continuation byte. -/
def tail (b : UInt8) : Nat := b.toNat % 64

/-- The bytes that may follow a leading byte, by the number of bytes its character has. -/
inductive Lead where
  | one
  | two
  /-- Three bytes, the second one in a range. -/
  | three (low high : Nat)
  /-- Four bytes, the second one in a range. -/
  | four (low high : Nat)
  /-- No character starts like this. -/
  | bad

/-- What a leading byte announces. Overlong forms, surrogates and code points past the last plane
are kept out by the range of the second byte. -/
def Lead.ofByte (b : UInt8) : Lead :=
  let n := b.toNat
  if n < 0x80 then .one
  else if n < 0xC2 then .bad
  else if n < 0xE0 then .two
  else if n = 0xE0 then .three 0xA0 0xBF
  else if n = 0xED then .three 0x80 0x9F
  else if n < 0xF0 then .three 0x80 0xBF
  else if n = 0xF0 then .four 0x90 0xBF
  else if n < 0xF4 then .four 0x80 0xBF
  else if n = 0xF4 then .four 0x80 0x8F
  else .bad

/-- The characters of a byte string, the first byte of which stands at `index`. -/
def decodeFrom (index : Nat) : List UInt8 → Except Error (List Char)
  | [] => .ok []
  | a :: rest =>
    let stop (n : Nat) : Except Error (List Char) := .error ⟨index, some n⟩
    let short : Except Error (List Char) := .error ⟨index, none⟩
    match Lead.ofByte a with
    | .one => (decodeFrom (index + 1) rest).map (Char.ofNat a.toNat :: ·)
    | .two =>
      match rest with
      | [] => short
      | b :: rest =>
        if !continues b then stop 1
        else (decodeFrom (index + 2) rest).map (Char.ofNat (a.toNat % 32 * 64 + tail b) :: ·)
    | .three low high =>
      match rest with
      | [] => short
      | b :: rest =>
        if !within b low high then stop 1
        else match rest with
          | [] => short
          | c :: rest =>
            if !continues c then stop 2
            else (decodeFrom (index + 3) rest).map
              (Char.ofNat (a.toNat % 16 * 4096 + tail b * 64 + tail c) :: ·)
    | .four low high =>
      match rest with
      | [] => short
      | b :: rest =>
        if !within b low high then stop 1
        else match rest with
          | [] => short
          | c :: rest =>
            if !continues c then stop 2
            else match rest with
              | [] => short
              | d :: rest =>
                if !continues d then stop 3
                else (decodeFrom (index + 4) rest).map
                  (Char.ofNat (a.toNat % 8 * 262144 + tail b * 4096 + tail c * 64 + tail d) :: ·)
    | .bad => stop 1

/-- The text a byte string spells. -/
def decode (bytes : List UInt8) : Except Error String := (decodeFrom 0 bytes).map String.ofList

/-- The characters of a byte string, with U+FFFD in place of what is no UTF-8. -/
def decodeLossyChars (bytes : List UInt8) : List Char :=
  match decodeFrom 0 bytes with
  | .ok chars => chars
  | .error e =>
    let valid := match decodeFrom 0 (bytes.take e.validUpTo) with
      | .ok chars => chars
      | .error _ => []
    let rest := match e.badLength with
      | some n => bytes.drop (e.validUpTo + max n 1)
      | none => []
    if _h : rest.length < bytes.length then valid ++ '\ufffd' :: decodeLossyChars rest
    else valid ++ ['\ufffd']
termination_by bytes.length

/-- The text of a byte string, with U+FFFD in place of what is no UTF-8. -/
def decodeLossy (bytes : List UInt8) : String := String.ofList (decodeLossyChars bytes)

end Fanout.Utf8
