import Fanout.Proofs.Base64
import Fanout.Proofs.Json.Compact
import Fanout.Worker.Line

/-!
# Lines are read back

`decode` returns the message that `encode` has written, with or without the newline at the end:
`Request.decode_encode` and `Response.decode_encode`.
-/

namespace Fanout

/-- `trimEnd` drops blanks from the end. -/
theorem Text.trimEnd_append {blanks : List Char} (h : ∀ c ∈ blanks, isBlank c = true)
    (cs : List Char) : trimEnd (cs ++ blanks) = trimEnd cs := by
  have hreverse : ∀ c ∈ blanks.reverse, isBlank c = true := fun c hc =>
    h c (List.mem_reverse.mp hc)
  rw [trimEnd, List.reverse_append, List.dropWhile_append_of_pos hreverse, trimEnd]

/-- `trimEnd` drops a newline from the end. -/
theorem Text.trimEnd_line (text : String) :
    trimEnd (text ++ "\n").toList = trimEnd text.toList := by
  rw [String.toList_append]
  exact trimEnd_append (List.forall_mem_singleton.mpr (by decide)) text.toList

/-- `trimEnd` keeps a last character that is no blank. -/
theorem Text.trimEnd_concat {c : Char} (h : isBlank c = false) (cs : List Char) :
    trimEnd (cs ++ [c]) = cs ++ [c] := by
  have hkeep : ¬ isBlank c = true := by rw [h]; exact Bool.false_ne_true
  rw [trimEnd, List.reverse_append, List.reverse_singleton, List.singleton_append,
    List.dropWhile_cons_of_neg hkeep, List.reverse_cons, List.reverse_reverse]

namespace Json

/-- Every value is `Flat` and no member is named `tagName`. -/
def Plain (members : List (String × Value)) : Prop :=
  ∀ member ∈ members, Flat member.2 ∧ member.1 ≠ tagName

theorem Plain.cons {members : List (String × Value)} (h : Plain members) (name : String)
    (hname : name ≠ tagName) {value : Value} (hflat : Flat value) :
    Plain ((name, value) :: members) := by
  intro member hmem
  rcases List.mem_cons.mp hmem with rfl | hmem
  · exact ⟨hflat, hname⟩
  · exact h member hmem

theorem Plain.nil : Plain [] := by
  intro member hmem
  cases hmem

/-- What follows a member is a comma or a closing brace, so it satisfies `EndsMember`. -/
theorem exists_endsMember (members : List (String × Value)) (rest : List Char) :
    ∃ c cs, EndsMember c ∧
      members.flatMap (fun m => ',' :: memberChars m) ++ '\x7d' :: rest = c :: cs := by
  cases members with
  | nil => exact ⟨'\x7d', rest, .inr rfl, rfl⟩
  | cons member members => exact ⟨',', _, .inl rfl, rfl⟩

theorem readColon_colon (cs : List Char) : readColon (':' :: cs) = .ok cs := rfl

/-- `memberChars` is the quoted name, a colon and the compact value. -/
theorem memberChars_eq (member : String × Value) :
    memberChars member = (quote member.1).toList ++ ':' :: member.2.compact.toList := by
  simp [memberChars]

/-- `readTaggedMembers` reads `Plain` members behind the first one. -/
theorem readTaggedMembers_plain (tags : List String) (depth : Nat) (tag : Option String)
    {fuel : Nat} {members : List (String × Value)} (h : Plain members)
    (hfuel : members.length < fuel) (rest : List Char) :
    readTaggedMembers tags depth false tag fuel
        (members.flatMap (fun m => ',' :: memberChars m) ++ '\x7d' :: rest) =
      .ok ((tag, members), rest) := by
  -- one unit of fuel for each member and one for the end; a value needs one, too
  induction members generalizing fuel with
  | nil =>
    obtain ⟨fuel, rfl⟩ := Nat.exists_eq_add_one_of_ne_zero (Nat.ne_zero_of_lt hfuel)
    rw [readTaggedMembers]
    rfl
  | cons member members ih =>
    rw [List.length_cons] at hfuel
    obtain ⟨fuel, rfl⟩ := Nat.exists_eq_add_one_of_ne_zero (Nat.ne_zero_of_lt hfuel)
    obtain ⟨fuel, rfl⟩ : ∃ fuel', fuel = fuel' + 1 :=
      Nat.exists_eq_add_one_of_ne_zero (by omega)
    obtain ⟨hflat, hname⟩ := h member List.mem_cons_self
    have hplain : Plain members := fun m hm => h m (List.mem_cons_of_mem _ hm)
    have hrest := ih hplain (show members.length < fuel + 1 by omega)
    obtain ⟨c, cs, hc, heq⟩ := exists_endsMember members rest
    rw [heq] at hrest
    have htext : (member :: members).flatMap (fun m => ',' :: memberChars m) ++ '\x7d' :: rest =
        ',' :: (quote member.1).toList ++ (':' :: member.2.compact.toList ++ c :: cs) := by
      rw [List.flatMap_cons, List.append_assoc, heq, memberChars_eq]
      simp
    have hvalue := readValue_flat hflat depth fuel hc cs
    rw [htext, readTaggedMembers, nextName_comma]
    simp only [bind, Except.bind, pure, Except.pure]
    rw [if_neg hname, List.cons_append, readColon_colon]
    simp only [hvalue, hrest]

/-- `readTag` reads a known tag from its compact text. -/
theorem readTag_compact {tags : List String} {tag : String} (htag : tags.contains tag)
    (depth fuel : Nat) {c : Char} (hc : EndsMember c) (rest : List Char) :
    readTag tags depth (fuel + 1) ((Value.string tag).compact.toList ++ c :: rest) =
      .ok (tag, c :: rest) := by
  have hvalue := readValue_flat (.string tag) depth fuel hc rest
  rw [Value.compact, toList_quote, List.cons_append, List.cons_append] at hvalue ⊢
  generalize tag.toList.flatMap escapeChar ++ ['"'] ++ c :: rest = cs at hvalue
  have hskip : skipBlanks ('"' :: cs) = '"' :: cs := rfl
  have hmem : tag ∈ tags := List.contains_iff_mem.mp htag
  rw [readTag, hskip]
  simp [hvalue, hmem, bind, Except.bind, pure, Except.pure]

/-- `readTaggedMembers` reads the tag and the `Plain` members behind it. -/
theorem readTaggedMembers_tag {tags : List String} {tag : String} (htag : tags.contains tag)
    (depth : Nat) {fuel : Nat} {members : List (String × Value)} (h : Plain members)
    (hfuel : members.length + 1 < fuel) (rest : List Char) :
    readTaggedMembers tags depth true none fuel (memberChars (tagName, .string tag) ++
        (members.flatMap (fun m => ',' :: memberChars m) ++ '\x7d' :: rest)) =
      .ok ((some tag, members), rest) := by
  obtain ⟨fuel, rfl⟩ : ∃ fuel', fuel = fuel' + 1 :=
    Nat.exists_eq_add_one_of_ne_zero (by omega)
  obtain ⟨fuel, rfl⟩ : ∃ fuel', fuel = fuel' + 1 :=
    Nat.exists_eq_add_one_of_ne_zero (by omega)
  have hrest := readTaggedMembers_plain tags depth (some tag) h
    (show members.length < fuel + 1 by omega) rest
  obtain ⟨c, cs, hc, heq⟩ := exists_endsMember members rest
  rw [heq] at hrest ⊢
  have hread := readTag_compact htag depth fuel hc cs
  rw [memberChars_eq, List.append_assoc, readTaggedMembers, nextName_first]
  simp only [bind, Except.bind, pure, Except.pure]
  rw [if_pos trivial, if_neg (by simp), List.cons_append, readColon_colon]
  simp only [hread, hrest]

/-- `readTagged` reads a tagged object back from its compact text. -/
theorem readTagged_compact {tags : List String} {tag : String} (htag : tags.contains tag)
    {members : List (String × Value)} (h : Plain members) (kind : String) :
    readTagged kind tags
        (Value.object ((tagName, .string tag) :: members)).compact.toList =
      .ok (⟨tag, .object members⟩, []) := by
  have hlength := Traversal.length_le_length_flatMap
    (fun m : String × Value => List.cons_ne_nil ',' (memberChars m)) members
  rw [toList_compact_object, List.cons_append, List.cons_append, List.append_assoc]
  -- there is fuel for every character, and each member has at least one
  have hfuel : members.length + 1 < fuelFor ('\x7b' :: (memberChars (tagName, .string tag) ++
      (members.flatMap (fun m => ',' :: memberChars m) ++ ['\x7d']))) := by
    simp only [fuelFor, List.length_cons, List.length_append]
    omega
  have hread := readTaggedMembers_tag htag (depthLimit - 1) h hfuel []
  rw [readTagged]
  simp only [skipBlanks, isBlank, List.dropWhile_cons]
  simp [hread, bind, Except.bind, pure, Except.pure]

/-- The compact text of an object ends with a brace, so `trimEnd` keeps it. -/
theorem trimEnd_object (member : String × Value) (members : List (String × Value)) :
    Text.trimEnd (Value.object (member :: members)).compact.toList =
      (Value.object (member :: members)).compact.toList := by
  rw [toList_compact_object, Text.trimEnd_concat (by decide)]

/-- `trimEnd` drops a newline behind the compact text of an object. -/
theorem trimEnd_newline (member : String × Value) (members : List (String × Value)) :
    Text.trimEnd ((Value.object (member :: members)).compact ++ "\n").toList =
      (Value.object (member :: members)).compact.toList := by
  rw [Text.trimEnd_line, trimEnd_object]

/-- `readLine` returns what `make` returns for the tag and the members of a compact object. -/
theorem readLine_compact {α : Type} {tags : List String} {tag : String}
    (htag : tags.contains tag) {members : List (String × Value)} (h : Plain members) (kind : String)
    {make : Tagged → Except Mismatch α} {message : α}
    (hmake : make ⟨tag, .object members⟩ = .ok message) {line : String}
    (hline : Text.trimEnd line.toList =
      (Value.object ((tagName, .string tag) :: members)).compact.toList) :
    readLine kind tags make line = .ok message := by
  rw [readLine, hline, readTagged_compact htag h]
  simp only [bind, Except.bind, hmake]
  rfl

/-- The compact text of a `Flat` value contains no control character. -/
theorem le_toNat_of_mem_flat {value : Value} (h : Flat value) {c : Char}
    (hc : c ∈ value.compact.toList) : 32 ≤ c.toNat := by
  cases h with
  | string s => exact le_toNat_of_mem_quote hc
  | integer n =>
    rw [toList_compact_integer] at hc
    have hdigit := Char.isDigit_iff_toNat.mp
      (Nat.isDigit_of_mem_toDigits (by decide) (by decide) hc)
    exact Nat.le_trans (by decide) hdigit.1

/-- The compact text of an object with `Flat` members contains no control character. -/
theorem le_toNat_of_mem_object {member : String × Value} {members : List (String × Value)}
    (h : ∀ m ∈ member :: members, Flat m.2) {c : Char}
    (hc : c ∈ (Value.object (member :: members)).compact.toList) : 32 ≤ c.toNat := by
  have hmember (m : String × Value) (hm : m ∈ member :: members) (hc : c ∈ memberChars m) :
      32 ≤ c.toNat := by
    rw [memberChars_eq, List.mem_append, List.mem_cons] at hc
    rcases hc with hc | rfl | hc
    · exact le_toNat_of_mem_quote hc
    · decide
    · exact le_toNat_of_mem_flat (h m hm) hc
  rw [toList_compact_object, List.cons_append, List.cons_append, List.mem_cons, List.mem_append,
    List.mem_append, List.mem_flatMap, List.mem_singleton] at hc
  rcases hc with rfl | (hc | ⟨m, hm, hc⟩) | rfl
  · decide
  · exact hmember member List.mem_cons_self hc
  · rcases List.mem_cons.mp hc with rfl | hc
    · decide
    · exact hmember m (List.mem_cons_of_mem _ hm) hc
  · decide

/-! ## Members -/

theorem toIndex_toNat (index : UInt64) : (Value.integer index.toNat).toIndex = .ok index := by
  rw [Value.toIndex, if_pos (Int.natCast_nonneg _), Int.toNat_natCast, UInt64.ofNat_toNat]

theorem toPayload_toText (payload : Payload) :
    (Value.string payload.toText).toPayload = .ok payload := by
  rw [Value.toPayload, Value.toText]
  simp only [bind, Except.bind, Payload.ofText, Payload.toText, Base64.decode_encode]
  rfl

theorem toFailureKind_name (kind : FailureKind) :
    (Value.string kind.name).toFailureKind = .ok kind := by
  cases kind <;> rfl

theorem flat_index (index : UInt64) : Flat (.integer index.toNat) :=
  .integer index.toNat index.toNat_lt

end Json

/-- `toEnvelope` reads the members of an envelope back. -/
theorem Envelope.toEnvelope_members (envelope : Envelope) :
    (Json.Value.object envelope.members).toEnvelope = .ok envelope := by
  simp [Json.Value.toEnvelope, members, Json.EnvelopeSlots.add, Json.fill, Json.filled,
    Json.toIndex_toNat, Json.toPayload_toText, Json.Value.toText, bind, Except.bind, pure,
    Except.pure, Except.map]

/-- The members of an envelope are `Plain`. -/
theorem Envelope.plain_members (envelope : Envelope) : Json.Plain envelope.members := by
  have hinput := Json.Plain.nil.cons "input" (by decide) (.string envelope.input.toText)
  have hstate := hinput.cons "state" (by decide) (.string envelope.state.toText)
  have hfunction := hstate.cons "function" (by decide) (.string envelope.function)
  exact hfunction.cons "index" (by decide) (Json.flat_index envelope.index)

namespace Request

/-- The tag of a request. -/
def tag : Request → String
  | call _ => "call"
  | shutdown => "shutdown"

/-- The members of a request besides its tag. -/
def members : Request → List (String × Json.Value)
  | call envelope => envelope.members
  | shutdown => []

theorem toJson_eq (request : Request) :
    request.toJson = .object ((Json.tagName, .string request.tag) :: request.members) := by
  cases request <;> rfl

/-- The members of a request are `Plain`. -/
theorem plain_members (request : Request) : Json.Plain request.members := by
  cases request with
  | call envelope => exact envelope.plain_members
  | shutdown => exact .nil

/-- A line that is the compact text of a request, up to trailing blanks, decodes to the request. -/
theorem decode_of_trimEnd (request : Request) {line : String}
    (hline : Text.trimEnd line.toList = request.toJson.compact.toList) :
    decode line = .ok request := by
  rw [toJson_eq] at hline
  refine Json.readLine_compact ?_ request.plain_members _ ?_ hline
  · cases request <;> rfl
  · cases request with
    | call envelope =>
      have henvelope := envelope.toEnvelope_members
      simp only [tag, members, henvelope]
      rfl
    | shutdown => rfl

/-- `decode` reads the line of a request back. -/
theorem decode_encode (request : Request) : decode request.encode = .ok request := by
  refine decode_of_trimEnd request ?_
  rw [encode, toJson_eq, Json.trimEnd_newline]

theorem decode_compact (request : Request) : decode request.toJson.compact = .ok request := by
  refine decode_of_trimEnd request ?_
  rw [toJson_eq, Json.trimEnd_object]

/-- The compact text of a request contains no control character. -/
theorem le_toNat_of_mem_compact {request : Request} {c : Char}
    (h : c ∈ request.toJson.compact.toList) : 32 ≤ c.toNat := by
  rw [toJson_eq] at h
  refine Json.le_toNat_of_mem_object (fun m hm => ?_) h
  rcases List.mem_cons.mp hm with rfl | hm
  · exact .string _
  · exact (request.plain_members m hm).1

end Request

namespace Response

/-- The tag of a response. -/
def tag : Response → String
  | completed .. => "completed"
  | failed .. => "failed"

/-- The members of a response besides its tag. -/
def members : Response → List (String × Json.Value)
  | completed index output => [("index", .integer index.toNat), ("output", .string output.toText)]
  | failed index kind message =>
    [("index", .integer index.toNat), ("kind", .string kind.name), ("message", .string message)]

theorem toJson_eq (response : Response) :
    response.toJson = .object ((Json.tagName, .string response.tag) :: response.members) := by
  cases response <;> rfl

/-- The members of a response are `Plain`. -/
theorem plain_members (response : Response) : Json.Plain response.members := by
  cases response with
  | completed index output =>
    have houtput := Json.Plain.nil.cons "output" (by decide) (.string output.toText)
    exact houtput.cons "index" (by decide) (Json.flat_index index)
  | failed index kind message =>
    have hmessage := Json.Plain.nil.cons "message" (by decide) (.string message)
    have hkind := hmessage.cons "kind" (by decide) (.string kind.name)
    exact hkind.cons "index" (by decide) (Json.flat_index index)

/-- `Response.decode` builds the response from its members. -/
theorem make_members (response : Response) :
    (if response.tag = "completed" then (Json.Value.object response.members).toCompleted
      else (Json.Value.object response.members).toFailed) = .ok response := by
  cases response with
  | completed index output =>
    simp [tag, members, Json.Value.toCompleted, Json.ResponseSlots.addCompleted, Json.fill,
      Json.filled, Json.toIndex_toNat, Json.toPayload_toText, bind, Except.bind, pure,
      Except.pure, Except.map]
  | failed index kind message =>
    simp [tag, members, Json.Value.toFailed, Json.ResponseSlots.addFailed, Json.fill, Json.filled,
      Json.toIndex_toNat, Json.toFailureKind_name, Json.Value.toText, bind, Except.bind, pure,
      Except.pure, Except.map]

/-- A line that is the compact text of a response, up to trailing blanks, decodes to the
response. -/
theorem decode_of_trimEnd (response : Response) {line : String}
    (hline : Text.trimEnd line.toList = response.toJson.compact.toList) :
    decode line = .ok response := by
  rw [toJson_eq] at hline
  refine Json.readLine_compact ?_ response.plain_members _ response.make_members hline
  cases response <;> rfl

/-- `decode` reads the line of a response back. -/
theorem decode_encode (response : Response) : decode response.encode = .ok response := by
  refine decode_of_trimEnd response ?_
  rw [encode, toJson_eq, Json.trimEnd_newline]

/-- The compact text of a response contains no control character. -/
theorem le_toNat_of_mem_compact {response : Response} {c : Char}
    (h : c ∈ response.toJson.compact.toList) : 32 ≤ c.toNat := by
  rw [toJson_eq] at h
  refine Json.le_toNat_of_mem_object (fun m hm => ?_) h
  rcases List.mem_cons.mp hm with rfl | hm
  · exact .string _
  · exact (response.plain_members m hm).1

end Response

end Fanout
