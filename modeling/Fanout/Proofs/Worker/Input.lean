import Fanout.Proofs.Worker.Link

/-!
# What a worker reads

`Service.Cut` describes how a byte string is cut into lines. A line is blank, a request, malformed
or no UTF-8, and `Reading.ofLine` returns the one that applies (`Reading.describes_ofLine`,
`Reading.ofLine_eq`).
-/

namespace Fanout

/-- Every character of the text is a blank. -/
def Text.Blank (text : String) : Prop := ∀ c ∈ text.toList, isBlank c = true

theorem Text.all_isBlank_iff {text : String} : text.toList.all isBlank = true ↔ Blank text :=
  List.all_eq_true

namespace Service

/-! ## Lines -/

/-- Remove one carriage return from the end of a line. -/
def dropReturn (line : List UInt8) : List UInt8 :=
  if line.getLast? = some 13 then line.dropLast else line

/-- `Cut bytes lines`: each newline ends a line, a carriage return before it is dropped, and
nonempty bytes after the last newline are a line of their own. -/
inductive Cut : List UInt8 → List (List UInt8) → Prop
  | nil : Cut [] []
  /-- Bytes after the last newline are kept as they are. -/
  | last {line : List UInt8} (hne : line ≠ []) (h : 10 ∉ line) : Cut line [line]
  /-- A line up to its newline, without a carriage return at its end. -/
  | line {line rest : List UInt8} {lines : List (List UInt8)} (h : 10 ∉ line)
      (hrest : Cut rest lines) : Cut (line ++ 10 :: rest) (dropReturn line :: lines)

/-- The bytes are empty or end with a newline. -/
def Whole (bytes : List UInt8) : Prop := ∀ b, bytes.getLast? = some b → b = 10

/-- Lines with a newline behind each are `Whole`. -/
theorem whole_flatMap (lines : List (List UInt8)) : Whole (lines.flatMap (· ++ [10])) := by
  intro b hb
  induction lines with
  | nil => cases hb
  | cons line lines ih =>
    rw [List.flatMap_cons, List.getLast?_append, Option.or_eq_some_iff] at hb
    rcases hb with hb | ⟨-, hb⟩
    · exact ih hb
    · rw [List.getLast?_concat] at hb
      exact (Option.some.inj hb).symm

/-- At a newline, `linesFrom` ends the line so far, without a carriage return at its end. -/
theorem linesFrom_newline_cons (before rest : List UInt8) :
    linesFrom before (10 :: rest) = dropReturn before.reverse :: linesFrom [] rest := by
  rw [dropReturn, List.getLast?_reverse]
  cases before with
  | nil => rfl
  | cons b before =>
    by_cases hb : b = 13
    · rw [hb, List.head?_cons, if_pos rfl, List.reverse_cons, List.dropLast_concat]
      rfl
    · rw [List.head?_cons, if_neg fun h => hb (Option.some.inj h), linesFrom, if_pos rfl]
      exact fun _ h => hb (List.cons.inj h).1

/-- `linesFrom` adds bytes other than newlines to the line so far. -/
theorem linesFrom_append_of_not_mem {line : List UInt8} (h : 10 ∉ line) (before rest : List UInt8) :
    linesFrom before (line ++ rest) = linesFrom (line.reverse ++ before) rest := by
  induction line generalizing before with
  | nil => rfl
  | cons b line ih =>
    obtain ⟨hb, hline⟩ := not_or.mp (mt List.mem_cons.mpr h)
    rw [List.cons_append, linesFrom_cons (Ne.symm hb), ih hline, List.reverse_cons,
      List.append_assoc, List.singleton_append]

/-- `lines` of a line, a newline and `rest` is the line, then `lines rest`. -/
theorem lines_line {line : List UInt8} (h : 10 ∉ line) (rest : List UInt8) :
    lines (line ++ 10 :: rest) = dropReturn line :: lines rest := by
  rw [lines, linesFrom_append_of_not_mem h, linesFrom_newline_cons, List.append_nil,
    List.reverse_reverse, lines]

/-- `lines` of nonempty bytes without a newline is that one line. -/
theorem lines_last {line : List UInt8} (h : 10 ∉ line) (hne : line ≠ []) : lines line = [line] := by
  have hlines := linesFrom_append_of_not_mem h [] []
  rw [List.append_nil, List.append_nil] at hlines
  rw [lines, hlines, linesFrom, if_neg (by simpa using hne), List.reverse_reverse]

theorem lines_of_cut {input : List UInt8} {ls : List (List UInt8)} (h : Cut input ls) :
    lines input = ls := by
  induction h with
  | nil => rfl
  | last hne h => exact lines_last h hne
  | line h _ ih => rw [lines_line h, ih]

theorem cut_lines (input : List UInt8) : Cut input (lines input) := by
  -- one line at a time, so the rest is shorter
  induction hlength : input.length using Nat.strongRecOn generalizing input with
  | ind n ih =>
    by_cases hmem : 10 ∈ input
    · obtain ⟨line, rest, rfl, hline⟩ := List.eq_append_cons_of_mem hmem
      rw [lines_line hline]
      refine .line hline (ih rest.length ?_ rest rfl)
      rw [← hlength, List.length_append, List.length_cons]
      omega
    · by_cases hne : input = []
      · subst hne
        exact .nil
      · rw [lines_last hmem hne]
        exact .last hne hmem

/-- `Cut` is the graph of `lines`. -/
theorem cut_iff {input : List UInt8} {ls : List (List UInt8)} : Cut input ls ↔ lines input = ls :=
  ⟨lines_of_cut, fun h => h ▸ cut_lines input⟩

/-- Behind `Whole` bytes, the rest is cut by itself. -/
theorem Cut.append {head : List UInt8} {ls : List (List UInt8)} (h : Cut head ls)
    (hwhole : Whole head) (tail : List UInt8) : Cut (head ++ tail) (ls ++ lines tail) := by
  induction h with
  | nil => exact cut_lines tail
  | last hne h =>
    -- a line without a newline does not end with one
    have hlast := List.getLast?_eq_some_getLast hne
    exact absurd (hwhole _ hlast ▸ List.getLast_mem hne) h
  | line h hrest ih =>
    rename_i line rest _
    rw [List.append_assoc, List.cons_append, List.cons_append]
    refine .line h (ih fun b hb => hwhole b ?_)
    rw [List.getLast?_append, List.getLast?_cons, hb]
    rfl

/-! ## What lines say -/

/-- The line is UTF-8 of blanks only. -/
def Blank (line : List UInt8) : Prop := ∃ text, Utf8.encode text = line ∧ Text.Blank text

/-- The line is UTF-8 of a text that is not blank and that `Request.decode` maps to `outcome`. -/
def Says (line : List UInt8) (outcome : Except Json.ReadError Request) : Prop :=
  ∃ text, Utf8.encode text = line ∧ ¬ Text.Blank text ∧ Request.decode text = outcome

/-- The line is no UTF-8. -/
def Unreadable (line : List UInt8) : Prop := ∀ text : String, Utf8.encode text ≠ line

end Service

/-- The possible readings of a line, each with its condition. -/
inductive Reading.Describes (line : List UInt8) : Reading → Prop
  | blank (h : Service.Blank line) : Describes line .blank
  | call {envelope : Envelope} (h : Service.Says line (.ok (.call envelope))) :
      Describes line (.call envelope)
  | shutdown (h : Service.Says line (.ok .shutdown)) : Describes line .shutdown
  | malformed {error : Json.ReadError} (h : Service.Says line (.error error)) :
      Describes line (.error (.malformed error))
  | unreadable (h : Service.Unreadable line) : Describes line (.error (.io .notText))

namespace Reading

variable {line : List UInt8} {reading : Reading}

/-- `Reading.ofLine` satisfies `Describes`. -/
theorem describes_ofLine (line : List UInt8) : (ofLine line).Describes line := by
  rw [ofLine]
  cases htext : Utf8.decode line with
  | error e =>
    refine .unreadable fun text hencode => ?_
    rw [Utf8.decode_eq_ok_iff.mpr hencode] at htext
    cases htext
  | ok text =>
    have hencode := Utf8.decode_eq_ok_iff.mp htext
    dsimp only
    by_cases hblank : Text.Blank text
    · rw [if_pos (Text.all_isBlank_iff.mpr hblank)]
      exact .blank ⟨text, hencode, hblank⟩
    · have hsays : Service.Says line (Request.decode text) := ⟨text, hencode, hblank, rfl⟩
      rw [if_neg (mt Text.all_isBlank_iff.mp hblank)]
      rcases hdecode : Request.decode text with error | envelope | _ <;> rw [hdecode] at hsays
      · exact .malformed hsays
      · exact .call hsays
      · exact .shutdown hsays

/-- The reading of a line that is not blank, by the outcome of `Request.decode`. -/
def ofOutcome : Except Json.ReadError Request → Reading
  | .ok (.call envelope) => .call envelope
  | .ok .shutdown => .shutdown
  | .error e => .error (.malformed e)

/-- `ofLine` of a line that `Says` an outcome is `ofOutcome` of it. -/
theorem ofLine_of_says {outcome : Except Json.ReadError Request}
    (h : Service.Says line outcome) : ofLine line = ofOutcome outcome := by
  obtain ⟨text, hencode, hvisible, rfl⟩ := h
  rw [ofLine, Utf8.decode_eq_ok_iff.mpr hencode]
  dsimp only
  rw [if_neg (mt Text.all_isBlank_iff.mp hvisible)]
  rcases Request.decode text with error | envelope | _ <;> rfl

/-- `Describes` determines the reading. -/
theorem ofLine_eq (h : reading.Describes line) : ofLine line = reading := by
  cases h with
  | blank h =>
    obtain ⟨text, hencode, hblank⟩ := h
    rw [ofLine, Utf8.decode_eq_ok_iff.mpr hencode]
    exact if_pos (Text.all_isBlank_iff.mpr hblank)
  | call h => exact ofLine_of_says h
  | shutdown h => exact ofLine_of_says h
  | malformed h => exact ofLine_of_says h
  | unreadable h =>
    rw [ofLine]
    cases htext : Utf8.decode line with
    | error e => rfl
    | ok text => exact absurd (Utf8.decode_eq_ok_iff.mp htext) (h text)

end Reading

/-- The text of a request `Says` that request. -/
theorem Request.says_compact (request : Request) :
    Service.Says (Utf8.encode request.toJson.compact) (.ok request) := by
  have hline := Reading.describes_ofLine (Utf8.encode request.toJson.compact)
  rw [Reading.ofLine_encode] at hline
  cases request with
  | call envelope =>
    cases hline with
    | call h => exact h
  | shutdown =>
    cases hline with
    | shutdown h => exact h

end Fanout
