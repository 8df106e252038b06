import Fanout.Proofs.Worker.Link

/-!
# Lines keep messages apart

A message is one line: its only newline is the last character, and it contains no carriage return.
So a line can be split off from what follows, and a sequence of lines can be decoded one by one:
`lines_lossless`.
-/

namespace Fanout

/-- The functions that write and read the messages of one type as lines. -/
structure LineFormat (α : Type) where
  /-- The line of a message, with its newline. -/
  encode : α → String
  /-- Read a message from a line. -/
  decode : String → Except Json.ReadError α

/-- The line format of requests. -/
def Request.format : LineFormat Request := ⟨Request.encode, Request.decode⟩

/-- The line format of responses. -/
def Response.format : LineFormat Response := ⟨Response.encode, Response.decode⟩

namespace LineFormat

variable {α : Type} {format : LineFormat α}

/-- The lines of `messages`, concatenated as bytes. -/
def bytes (format : LineFormat α) (messages : List α) : List UInt8 :=
  messages.flatMap fun message => Utf8.encode (format.encode message)

/-- The message in the bytes of a line, or `none` if the bytes are no UTF-8 or do not decode. -/
def read (format : LineFormat α) (line : List UInt8) : Option α :=
  match Utf8.decode line with
  | .ok text => (format.decode text).toOption
  | .error _ => none

/-- The lines of `format` can be decoded one by one and in sequence. -/
structure Lossless (format : LineFormat α) : Prop where
  /-- A line contains one newline, as its last character. -/
  newline (message : α) : ∃ text : String, format.encode message = text ++ "\n" ∧
    (format.encode message).toList.count '\n' = 1
  /-- A line contains no carriage return. -/
  noReturn (message : α) : '\r' ∉ (format.encode message).toList
  /-- `decode` returns the message for its line, with or without the newline and with any blanks
  appended. -/
  decode (message : α) (text blanks : String) (htext : format.encode message = text ++ "\n")
    (hblanks : ∀ c ∈ blanks.toList, Text.isBlank c = true) :
    format.decode (text ++ blanks) = .ok message ∧
      format.decode (format.encode message ++ blanks) = .ok message
  /-- `Link.splitLine` cuts the line off any bytes behind it, and it reads as the message. -/
  split (message : α) (rest : List UInt8) :
    let (line, behind) := Link.splitLine (Utf8.encode (format.encode message) ++ rest)
    format.read line = some message ∧ behind = rest
  /-- `Service.lines` cuts a sequence of lines into lines that read as the messages, in order. -/
  lines (messages : List α) :
    (Service.lines (format.bytes messages)).map format.read = messages.map some

/-- `text` gives the line of a message without its newline: it has no control characters, and any
line equal to it up to trailing blanks decodes to the message. -/
structure Visible (format : LineFormat α) (text : α → String) : Prop where
  encode (message : α) : format.encode message = text message ++ "\n"
  visible (message : α) : ∀ c ∈ (text message).toList, 32 ≤ c.toNat
  decode (message : α) (line : String)
    (h : Text.trimEnd line.toList = Text.trimEnd (text message).toList) :
    format.decode line = .ok message

namespace Visible

variable {text : α → String}

theorem toList_encode (h : format.Visible text) (message : α) :
    (format.encode message).toList = (text message).toList ++ ['\n'] := by
  rw [h.encode, String.toList_append]
  rfl

/-- The text of a message contains no control character. -/
theorem not_mem (h : format.Visible text) (message : α) {c : Char} (hc : c.toNat < 32) :
    c ∉ (text message).toList :=
  fun hmem => absurd (h.visible message c hmem) (Nat.not_le_of_lt hc)

/-- The UTF-8 bytes of the text of a message are at least 32. -/
theorem le_toNat_of_mem (h : format.Visible text) (message : α) :
    ∀ b ∈ Utf8.encode (text message), 32 ≤ b.toNat :=
  fun _ hb => Utf8.le_of_mem_encode (h.visible message) hb

/-- The bytes of a line equal to the text up to trailing blanks read as the message. -/
theorem read_eq (h : format.Visible text) {message : α} {line : String}
    (hline : Text.trimEnd line.toList = Text.trimEnd (text message).toList) :
    format.read (Utf8.encode line) = some message := by
  rw [read, Utf8.decode_encode]
  simp only [h.decode message line hline]
  rfl

theorem count_newline (h : format.Visible text) (message : α) :
    (format.encode message).toList.count '\n' = 1 := by
  rw [h.toList_encode, List.count_append,
    List.count_eq_zero_of_not_mem (h.not_mem message (by decide))]
  rfl

theorem return_not_mem (h : format.Visible text) (message : α) :
    '\r' ∉ (format.encode message).toList := by
  rw [h.toList_encode, List.mem_append, not_or]
  exact ⟨h.not_mem message (by decide), by decide⟩

/-- A line is `text message` and a newline. -/
theorem text_eq (h : format.Visible text) {message : α} {line : String}
    (hline : format.encode message = line ++ "\n") : text message = line := by
  have heq := congrArg String.toList ((h.encode message).symm.trans hline)
  rw [String.toList_append, String.toList_append] at heq
  exact String.toList_inj.mp (List.append_cancel_right heq)

/-- Reading the lines of `format.bytes messages` gives `messages`. -/
theorem map_read_lines (h : format.Visible text) (messages : List α) :
    (Service.lines (format.bytes messages)).map format.read = messages.map some := by
  -- each line is its text and a newline, and no text has a newline in it
  have hlines : format.bytes messages =
      (messages.map fun message => Utf8.encode (text message)).flatMap (· ++ [10]) := by
    rw [bytes, List.flatMap_map]
    congr 1
    funext message
    rw [h.encode, Utf8.encode_line]
  have hvisible : ∀ l ∈ messages.map fun message => Utf8.encode (text message),
      ∀ b ∈ l, 32 ≤ b.toNat := by
    intro l hmem
    obtain ⟨message, -, rfl⟩ := List.mem_map.mp hmem
    exact h.le_toNat_of_mem message
  rw [hlines, Service.lines_flatMap hvisible, List.map_map]
  exact List.map_congr_left fun message _ => h.read_eq rfl

theorem toLossless (h : format.Visible text) : format.Lossless where
  newline message := ⟨text message, h.encode message, h.count_newline message⟩
  noReturn := h.return_not_mem
  decode message line blanks hline hblanks := by
    obtain rfl := h.text_eq hline
    constructor
    · refine h.decode message _ ?_
      rw [String.toList_append, Text.trimEnd_append hblanks]
    · refine h.decode message _ ?_
      rw [String.toList_append, Text.trimEnd_append hblanks, h.encode, Text.trimEnd_line]
  split message rest := by
    rw [h.encode, Utf8.encode_line, List.append_assoc, List.singleton_append,
      Link.splitLine_append (h.le_toNat_of_mem message), ← Utf8.encode_line]
    exact ⟨h.read_eq (Text.trimEnd_line _), rfl⟩
  lines := h.map_read_lines

end Visible

end LineFormat

theorem Request.visible : Request.format.Visible fun request => request.toJson.compact where
  encode _ := rfl
  visible _ _ hc := Request.le_toNat_of_mem_compact hc
  decode request line hline := by
    rw [request.toJson_eq, Json.trimEnd_object, ← request.toJson_eq] at hline
    exact request.decode_of_trimEnd hline

theorem Response.visible : Response.format.Visible fun response => response.toJson.compact where
  encode _ := rfl
  visible _ _ hc := Response.le_toNat_of_mem_compact hc
  decode response line hline := by
    rw [response.toJson_eq, Json.trimEnd_object, ← response.toJson_eq] at hline
    exact response.decode_of_trimEnd hline

/-- The line formats of requests and responses are `Lossless`: each line contains one newline, at
its end, and no carriage return; it decodes to its message with any trailing blanks; and it can be
split off the bytes that follow and off a sequence of lines. -/
theorem lines_lossless : Request.format.Lossless ∧ Response.format.Lossless :=
  ⟨Request.visible.toLossless, Response.visible.toLossless⟩

end Fanout
