import Fanout.Proofs.Function.Transfer
import Fanout.Proofs.MessagePack.Exact
import Fanout.Proofs.Worker.Line

/-!
# Payloads keep values

A `Shape` describes a type whose values cross a process boundary. `Shape.Fits` holds of a value if
the lengths of its texts, lists and maps are below `lengthLimit` and it contains no `some a` where
`a` is written as nil. A value is read back from its payload iff it fits, also if the payload was
part of a line, and two values that fit have different payloads (`Payload.lossless`). The smallest
values that do not fit are in `Payload.lossless_fails_beyond_fits`.
-/

namespace Fanout

open MessagePack

/-- The types whose values cross a process boundary. -/
inductive Shape where
  | int64
  | uint64
  | float
  | bool
  | unit
  | string
  /-- Half-open ranges of numbers, by their bounds. -/
  | range
  | pair (first second : Shape)
  | option (present : Shape)
  | list (element : Shape)
  /-- Maps whose keys are texts. -/
  | textMap (value : Shape)
  /-- Maps whose keys are pairs of numbers. -/
  | pairMap (value : Shape)
  /-- A type with one value and a name. -/
  | unitStruct (name : String)
  /-- A record with one field. -/
  | record (name field : String) (value : Shape)
deriving DecidableEq, Repr

namespace Shape

/-- The values of a shape. -/
def Carrier : Shape → Type
  | int64 => Int64
  | uint64 => UInt64
  | float => Binary64
  | bool => Bool
  | unit => Unit
  | string => String
  | range => UInt64 × UInt64
  | pair first second => first.Carrier × second.Carrier
  | option present => Option present.Carrier
  | list element => List element.Carrier
  | textMap value => OrderedMap KeyOrder.text value.Carrier
  | pairMap value => OrderedMap KeyOrder.numberPair value.Carrier
  | unitStruct _ => Unit
  | record _ _ value => value.Carrier

/-- How values of a shape are written and read. -/
def schema : (shape : Shape) → Schema shape.Carrier
  | int64 => .int64
  | uint64 => .uint64
  | float => .float
  | bool => .bool
  | unit => .unit
  | string => .string
  | range => .range
  | pair first second => .pair first.schema second.schema
  | option present => .option present.schema
  | list element => .list element.schema
  | textMap value => .map .string value.schema
  | pairMap value => .map (.pair .int64 .int64) value.schema
  | unitStruct name => .unitStruct name
  | record name field value => .record₁ name field value.schema

/-- How values of a shape are encoded and decoded. -/
def codec (shape : Shape) : Codec shape.Carrier := .ofSchema shape.schema

/-- Whether a value is written like `none`. -/
def Absent : (shape : Shape) → shape.Carrier → Prop
  | unit, _ => True
  | option _, value => value = none
  | _, _ => False

/-- A text has fewer than `lengthLimit` bytes. -/
def TextFits (text : String) : Prop := (Utf8.encode text).length < lengthLimit

instance (text : String) : Decidable (TextFits text) := inferInstanceAs (Decidable (_ < _))

/-- A list has fewer than `lengthLimit` elements, and `fits` holds of each. -/
def ListFits {α : Type} (fits : α → Prop) (as : List α) : Prop :=
  as.length < lengthLimit ∧ ∀ a ∈ as, fits a

/-- All lengths in a value are below `lengthLimit`, and no value under a `some` is `Absent`. -/
def Fits : (shape : Shape) → shape.Carrier → Prop
  | string, text => TextFits text
  | pair first second, value => first.Fits value.1 ∧ second.Fits value.2
  | option present, value => ∀ a, value = some a → present.Fits a ∧ ¬ present.Absent a
  | list element, values => ListFits element.Fits values
  | textMap value, map => ListFits (fun e => TextFits e.1 ∧ value.Fits e.2) map.entries
  | pairMap value, map => ListFits (fun e => value.Fits e.2) map.entries
  | record _ field value, a => TextFits field ∧ value.Fits a
  | _, _ => True

/-- The schema keeps a value that `Fits`, which is `Present` unless it is `Absent`. -/
theorem keeps (shape : Shape) {value : shape.Carrier} (h : shape.Fits value) :
    shape.schema.Keeps value ∧ (¬ shape.Absent value → shape.schema.Present value) := by
  -- all but four shapes refuse the marker of an absent value
  have hpresent {α : Type} {schema : Schema α} {value : α} (h : schema.Keeps value)
      (hempty : ∃ e, schema.read [] = .error e)
      (hnil : ∀ bytes, ∃ e, schema.read (0xC0 :: bytes) = .error e) :
      schema.Keeps value ∧ (¬ False → schema.Present value) :=
    ⟨h, fun _ => h.present hempty hnil⟩
  induction shape with
  | int64 => exact hpresent (Schema.int64_keeps value) ⟨_, rfl⟩ fun _ => ⟨_, rfl⟩
  | uint64 => exact hpresent (Schema.uint64_keeps value) ⟨_, rfl⟩ fun _ => ⟨_, rfl⟩
  | float => exact hpresent (Schema.float_keeps value) ⟨_, rfl⟩ fun _ => ⟨_, rfl⟩
  | bool => exact hpresent (Schema.bool_keeps value) ⟨_, rfl⟩ fun _ => ⟨_, rfl⟩
  | unit => exact ⟨Schema.unit_keeps, fun hpresent => absurd trivial hpresent⟩
  | string => exact hpresent (Schema.string_keeps h) ⟨_, rfl⟩ fun _ => ⟨_, rfl⟩
  | range => exact hpresent (Schema.range_keeps value) ⟨_, rfl⟩ fun _ => ⟨_, rfl⟩
  | pair first second ihfirst ihsecond =>
    have hkeeps := Schema.pair_keeps (ihfirst h.1).1 (ihsecond h.2).1
    exact hpresent hkeeps ⟨_, rfl⟩ fun _ => ⟨_, rfl⟩
  | option present ih =>
    cases value with
    | none => exact ⟨Schema.option_keeps_none, fun hpresent => absurd rfl hpresent⟩
    | some a =>
      obtain ⟨hfits, habsent⟩ := h a rfl
      obtain ⟨hkeeps, hpresent⟩ := ih hfits
      exact ⟨Schema.option_keeps_some hkeeps (hpresent habsent), fun _ => hpresent habsent⟩
  | list element ih =>
    have hkeeps := Schema.list_keeps h.1 fun a ha => (ih (h.2 a ha)).1
    exact hpresent hkeeps ⟨_, rfl⟩ fun _ => ⟨_, rfl⟩
  | textMap value ih =>
    have hkeeps := Schema.map_keeps KeyOrder.strict_text h.1 fun e he =>
      ⟨Schema.string_keeps (h.2 e he).1, (ih (h.2 e he).2).1⟩
    exact hpresent hkeeps ⟨_, rfl⟩ fun _ => ⟨_, rfl⟩
  | pairMap value ih =>
    have hkeeps := Schema.map_keeps KeyOrder.strict_numberPair h.1 fun e he =>
      ⟨Schema.pair_keeps (Schema.int64_keeps e.1.1) (Schema.int64_keeps e.1.2),
        (ih (h.2 e he)).1⟩
    exact hpresent hkeeps ⟨_, rfl⟩ fun _ => ⟨_, rfl⟩
  | unitStruct name => exact ⟨Schema.unitStruct_keeps name, fun _ => ⟨0x90, [], rfl, by decide⟩⟩
  | record name field value ih =>
    have hkeeps : (Schema.record₁ name field _).Keeps _ := Schema.record₁_keeps h.1 (ih h.2).1
    exact hpresent hkeeps ⟨_, rfl⟩ fun _ => ⟨_, rfl⟩

/-- A value that `Fits` survives its transfer. -/
theorem survives (shape : Shape) {value : shape.Carrier} (h : shape.Fits value) :
    shape.codec.Survives value := by
  refine ⟨⟨shape.schema.write value⟩, rfl, ?_⟩
  rw [codec, Codec.ofSchema]
  dsimp only
  rw [(shape.keeps h).1.decode_write]
  rfl

theorem write_of_absent (shape : Shape) {value : shape.Carrier} (h : shape.Absent value) :
    shape.schema.write value = writeNil := by
  cases shape with
  | unit => rfl
  | option present =>
    cases (h : value = none)
    rfl
  | _ => exact absurd h id

/-- The schema `Recovers` only values that `Fits` holds of. -/
theorem fits_of_recovers (shape : Shape) {value : shape.Carrier}
    (h : shape.schema.Recovers value) : shape.Fits value := by
  have hkeeps {shape : Shape} (ih : ∀ {value}, shape.schema.Recovers value → shape.Fits value)
      (value : shape.Carrier) (h : shape.schema.Recovers value) : shape.schema.Keeps value :=
    (shape.keeps (ih h)).1
  induction shape with
  | string => exact Schema.string_recovers h
  | pair first second ihfirst ihsecond =>
    obtain ⟨hfirst, hsecond⟩ := Schema.pair_recovers (hkeeps ihfirst value.1) h
    exact ⟨ihfirst hfirst, ihsecond hsecond⟩
  | option present ih =>
    rintro a rfl
    obtain ⟨hrecovers, hnil⟩ := Schema.option_recovers_some h
    exact ⟨ih hrecovers, fun habsent => hnil (present.write_of_absent habsent)⟩
  | list element ih =>
    obtain ⟨hlength, helements⟩ := Schema.list_recovers (fun a _ => hkeeps ih a) h
    exact ⟨hlength, fun a ha => ih (helements a ha)⟩
  | textMap value ih =>
    obtain ⟨hlength, hentries⟩ := Schema.map_recovers KeyOrder.strict_text
      (fun _ _ _ hread => Schema.string_keeps (Schema.lt_of_string_read hread))
      (fun e _ => hkeeps ih e.2) h
    exact ⟨hlength, fun e he =>
      ⟨Schema.string_recovers (hentries e he).1.recovers, ih (hentries e he).2⟩⟩
  | pairMap value ih =>
    obtain ⟨hlength, hentries⟩ := Schema.map_recovers KeyOrder.strict_numberPair
      (fun k _ _ _ => Schema.pair_keeps (Schema.int64_keeps k.1) (Schema.int64_keeps k.2))
      (fun e _ => hkeeps ih e.2) h
    exact ⟨hlength, fun e he => ih (hentries e he).2⟩
  | record name field value ih =>
    obtain ⟨hfield, hvalue⟩ := Schema.record₁_recovers h
    exact ⟨hfield, ih hvalue⟩
  | _ => trivial

/-- `Fits` holds exactly of the values that survive their transfer. -/
theorem survives_iff_fits (shape : Shape) (value : shape.Carrier) :
    shape.codec.Survives value ↔ shape.Fits value := by
  refine ⟨fun h => shape.fits_of_recovers ?_, shape.survives⟩
  obtain ⟨payload, hencode, hdecode⟩ := h
  cases hencode
  obtain ⟨⟨value', left⟩, hread, hvalue⟩ :=
    Traversal.map_eq_ok_iff.mp (Traversal.mapError_eq_ok_iff.mp hdecode)
  cases hvalue
  refine ⟨[], left, ?_⟩
  rw [List.append_nil]
  exact hread

end Shape

/-- `Payload.ofText` inverts `Payload.toText`. -/
theorem Payload.ofText_toText (payload : Payload) : ofText payload.toText = .ok payload := by
  rw [ofText, toText, Base64.decode_encode]
  rfl

/-- The codec recovers all values that fit, and tells them apart. -/
structure Codec.Lossless {α : Type} (codec : Codec α) (Fits : α → Prop) : Prop where
  /-- A value has a payload, which decodes to it. -/
  survives (value : α) (h : Fits value) : codec.Survives value
  /-- The text of its payload is read as a payload that decodes to it. -/
  text (value : α) (payload : Payload) (h : Fits value)
    (hpayload : codec.encode value = .ok payload) :
    ∃ read, Payload.ofText payload.toText = .ok read ∧ codec.decode read = .ok value
  /-- A line with its payload as an output, a state or an input is read with a payload that decodes
  to it. -/
  line (value : α) (payload : Payload) (h : Fits value)
    (hpayload : codec.encode value = .ok payload) (index : UInt64) (function : String)
    (other : Payload) :
    (∃ output, Response.decode (Response.completed index payload).encode =
        .ok (.completed index output) ∧ codec.decode output = .ok value) ∧
      (∃ state, Request.decode (Request.call ⟨index, function, payload, other⟩).encode =
        .ok (.call ⟨index, function, state, other⟩) ∧ codec.decode state = .ok value) ∧
      ∃ input, Request.decode (Request.call ⟨index, function, other, payload⟩).encode =
        .ok (.call ⟨index, function, other, input⟩) ∧ codec.decode input = .ok value
  /-- Different values have different bytes. -/
  distinct (value value' : α) (payload payload' : Payload) (h : Fits value) (h' : Fits value')
    (hpayload : codec.encode value = .ok payload) (hpayload' : codec.encode value' = .ok payload')
    (hbytes : payload.bytes = payload'.bytes) : value = value'

/-- A codec is `Lossless` on values that survive their transfer. -/
theorem Codec.lossless_of_survives {α : Type} {codec : Codec α} {Fits : α → Prop}
    (h : ∀ value, Fits value → codec.Survives value) : codec.Lossless Fits := by
  have hdecode (value : α) (payload : Payload) (hfits : Fits value)
      (hpayload : codec.encode value = .ok payload) : codec.decode payload = .ok value := by
    obtain ⟨payload', hencode, hdecode⟩ := h value hfits
    rw [hpayload] at hencode
    cases hencode
    exact hdecode
  refine ⟨h, fun value payload hfits hpayload => ?_,
    fun value payload hfits hpayload index function other => ?_,
    fun value value' payload payload' hfits hfits' hpayload hpayload' hbytes => ?_⟩
  · exact ⟨payload, payload.ofText_toText, hdecode value payload hfits hpayload⟩
  · have hvalue := hdecode value payload hfits hpayload
    exact ⟨⟨payload, Response.decode_encode _, hvalue⟩, ⟨payload, Request.decode_encode _, hvalue⟩,
      ⟨payload, Request.decode_encode _, hvalue⟩⟩
  · -- the same bytes are read as one value only
    have hvalue := hdecode value payload hfits hpayload
    have hvalue' := hdecode value' payload' hfits' hpayload'
    obtain rfl : payload = payload' := congrArg Payload.mk hbytes
    rw [hvalue'] at hvalue
    exact (Except.ok.inj hvalue).symm

namespace Payload

/-- The codec of every shape is `Lossless` on the values that `Fits` holds of, and no others survive
their transfer. The codecs of the states, inputs and outputs of the built-in functions are
`Lossless` on all values. -/
theorem lossless :
    (∀ shape : Shape, shape.codec.Lossless shape.Fits ∧
      ∀ value, shape.codec.Survives value ↔ shape.Fits value) ∧
    ∀ f ∈ Registry.builtin.functions, f.stateCodec.Lossless (fun _ => True) ∧
      f.inputCodec.Lossless (fun _ => True) ∧ f.outputCodec.Lossless (fun _ => True) := by
  have hfunctions : Registry.builtin.functions =
      [Builtin.square, Builtin.scale, Builtin.failOn, Builtin.sumOfSquares] := rfl
  have hall {shape : Shape} (h : ∀ value, shape.Fits value) :
      shape.codec.Lossless fun _ => True :=
    Codec.lossless_of_survives fun value _ => shape.survives (h value)
  have hint : Shape.int64.codec.Lossless fun _ => True := hall fun _ => trivial
  have hfloat : Shape.float.codec.Lossless fun _ => True := hall fun _ => trivial
  have hcount : Shape.uint64.codec.Lossless fun _ => True := hall fun _ => trivial
  have hrange : Shape.range.codec.Lossless fun _ => True := hall fun _ => trivial
  have hunit (name : String) : (Shape.unitStruct name).codec.Lossless fun _ => True :=
    hall fun _ => trivial
  have hscale : (Shape.record "Scale" "factor" .float).codec.Lossless fun _ => True :=
    hall fun _ => ⟨by decide, trivial⟩
  have hfailOn : (Shape.record "FailOn" "value" .int64).codec.Lossless fun _ => True :=
    hall fun _ => ⟨by decide, trivial⟩
  refine ⟨fun shape => ⟨Codec.lossless_of_survives fun _ h => shape.survives h,
    shape.survives_iff_fits⟩, ?_⟩
  rw [hfunctions]
  simp only [List.forall_mem_cons]
  exact ⟨⟨hunit "Square", hint, hint⟩, ⟨hscale, hfloat, hfloat⟩, ⟨hfailOn, hint, hint⟩,
    ⟨hunit "SumOfSquares", hrange, hcount⟩, by simp⟩

/-- `none`, a signalling NaN and negative zero come back as they were. -/
theorem lossless_special_floats :
    let shape := Shape.list (.option .float)
    let values : List (Option Binary64) :=
      [none, some ⟨0x7FF0000000000001⟩, some ⟨0x8000000000000000⟩]
    shape.Fits values ∧ shape.codec.Survives values := by
  intro shape values
  have hfits : shape.Fits values :=
    ⟨by decide, fun _ _ _ _ => ⟨trivial, fun habsent => habsent⟩⟩
  exact ⟨hfits, (lossless.1 shape).1.survives values hfits⟩

/-- Values that `Fits` does not hold of are lost: `some ()` is written like `none` and comes back as
`none`, and a list of `lengthLimit` elements, or a text of as many bytes, comes back empty. -/
theorem lossless_fails_beyond_fits :
    ((Shape.option .unit).codec.encode (some () : Option Unit) = .ok ⟨[0xC0]⟩ ∧
      (Shape.option .unit).codec.encode (none : Option Unit) = .ok ⟨[0xC0]⟩ ∧
      (Shape.option .unit).codec.decode ⟨[0xC0]⟩ = .ok (none : Option Unit)) ∧
    (∃ payload,
      (Shape.list .bool).codec.encode (List.replicate lengthLimit true : List Bool) =
        .ok payload ∧
      (Shape.list .bool).codec.decode payload = .ok ([] : List Bool)) ∧
    ∃ payload,
      Shape.string.codec.encode (String.ofList (List.replicate lengthLimit 'a')) = .ok payload ∧
      Shape.string.codec.decode payload = .ok "" := by
  have hlist (values : List Bool) (h : values.length % lengthLimit = 0) : ∃ payload,
      (Shape.list .bool).codec.encode values = .ok payload ∧
        (Shape.list .bool).codec.decode payload = .ok ([] : List Bool) :=
    ⟨_, rfl, Traversal.mapError_eq_ok_iff.mpr (Schema.list_decode_write_of_mod h)⟩
  have htext (text : String) (h : (Utf8.encode text).length % lengthLimit = 0) : ∃ payload,
      Shape.string.codec.encode text = .ok payload ∧ Shape.string.codec.decode payload = .ok "" :=
    ⟨_, rfl, Traversal.mapError_eq_ok_iff.mpr (Schema.string_decode_write_of_mod h)⟩
  refine ⟨⟨rfl, rfl, rfl⟩, hlist _ ?_, htext _ ?_⟩
  · rw [List.length_replicate, Nat.mod_self]
  · have hchar : ∀ c ∈ List.replicate lengthLimit 'a', (Utf8.encodeChar c).length = 1 :=
      fun c hc => by rw [List.eq_of_mem_replicate hc]; rfl
    rw [Utf8.encode, String.toList_ofList, List.length_flatMap, List.map_congr_left hchar,
      List.map_const', List.sum_replicate_nat, List.length_replicate, Nat.mul_one, Nat.mod_self]

end Payload

end Fanout
