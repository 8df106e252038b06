import Fanout.MessagePack.Schema
import Fanout.Proofs.MessagePack.Head

/-!
# Values that were written are read

`Schema.Keeps` says of a schema and a value that `read` returns the value for what `write` has
written, whatever bytes follow. The schemas of numbers, truth values and texts keep their values,
and a composed schema keeps a value if it keeps the parts and their number is below `lengthLimit`.
-/

namespace Fanout

/-! ## Maps -/

namespace KeyOrder

/-- No key comes before itself. -/
def Strict {κ : Type} (order : KeyOrder κ) : Prop := ∀ k, order.before k k = false

theorem strict_text : text.Strict := fun k => by
  simp only [text, decide_eq_false_iff_not]
  exact String.lt_irrefl k

theorem strict_numberPair : numberPair.Strict := fun k => by
  simp only [numberPair, decide_eq_false_iff_not, Int64.lt_iff_toInt_lt]
  omega

end KeyOrder

namespace OrderedMap

variable {κ ν : Type} {order : KeyOrder κ}

/-- `insertEntry` puts a key that comes after all others last. -/
theorem insertEntry_last (hstrict : order.Strict) {key : κ} {value : ν} {entries : List (κ × ν)}
    (h : ∀ e ∈ entries, order.before e.1 key = true) :
    insertEntry order key value entries = entries ++ [(key, value)] := by
  induction entries with
  | nil => rfl
  | cons entry rest ih =>
    obtain ⟨hentry, hrest⟩ := List.forall_mem_cons.mp h
    -- else the key would come before itself
    have hnot : ¬ order.before key entry.1 = true := fun hbefore => by
      have hcycle := order.before_trans _ _ _ hbefore hentry
      rw [hstrict key] at hcycle
      cases hcycle
    rw [insertEntry, if_neg hnot, if_pos hentry, ih hrest, List.cons_append]

/-- Ascending entries are inserted in their order. -/
theorem entries_foldl (hstrict : order.Strict) (rest : List (κ × ν)) (map : OrderedMap order ν)
    (h : (map.entries ++ rest).Pairwise fun a b => order.before a.1 b.1 = true) :
    (rest.foldl (fun map entry => map.insert entry.1 entry.2) map).entries =
      map.entries ++ rest := by
  induction rest generalizing map with
  | nil => rw [List.foldl_nil, List.append_nil]
  | cons entry rest ih =>
    have hlast : (map.insert entry.1 entry.2).entries = map.entries ++ [entry] :=
      insertEntry_last hstrict fun e he => (List.pairwise_append.mp h).2.2 e he entry
        List.mem_cons_self
    rw [List.append_cons, ← hlast] at h
    rw [List.foldl_cons, ih _ h, hlast, List.append_assoc, List.singleton_append]

/-- `ofList` recovers a map from its entries. -/
theorem ofList_entries (hstrict : order.Strict) (map : OrderedMap order ν) :
    ofList map.entries = map := by
  have hentries : (ofList map.entries : OrderedMap order ν).entries = map.entries :=
    entries_foldl hstrict map.entries empty map.ascending
  cases h : (ofList map.entries : OrderedMap order ν)
  cases map
  rw [h] at hentries
  cases hentries
  rfl

end OrderedMap

namespace MessagePack

/-! ## Readers -/

theorem Reader.bind_eq {α β : Type} {read : Reader α} {next : α → Reader β} {bytes rest : Bytes}
    {a : α} (h : read bytes = .ok (a, rest)) : (read >>= next) bytes = next a rest := by
  simp only [bind, StateT.bind, h, Except.bind]

theorem readBody_append (body rest : Bytes) :
    readBody body.length (body ++ rest) = .ok (body, rest) := by
  rw [readBody, takeExact_append]

theorem readText_append (s : String) (rest : Bytes) :
    readText (Utf8.encode s).length (Utf8.encode s ++ rest) = .ok (s, rest) := by
  rw [readText, Reader.bind_eq (readBody_append _ rest), Utf8.decode_encode]
  rfl

namespace Schema

variable {α β : Type}

/-- What is written for a value is read as that value, and the bytes after it are left alone. -/
def Keeps (schema : Schema α) (value : α) : Prop :=
  ∀ rest, schema.read (schema.write value ++ rest) = .ok (value, rest)

/-- `decode` recovers a value that is kept. -/
theorem Keeps.decode_write {schema : Schema α} {value : α} (h : schema.Keeps value) :
    schema.decode (schema.write value) = .ok value := by
  have hread := h []
  rw [List.append_nil] at hread
  rw [decode, hread]
  rfl

/-! ## Scalars -/

theorem int64_keeps (n : Int64) : int64.Keeps n := by
  intro rest
  have hlow := n.le_toInt
  have hhigh := n.toInt_lt
  dsimp only [int64]
  by_cases hneg : n.toInt < 0
  · rw [Reader.bind_eq (readScalarHead_writeInt rest hneg hlow)]
    dsimp only
    rw [Int64.ofInt_toInt]
    rfl
  · -- a number that is not negative is written as a natural one, and read as such
    have hnonneg := Int.not_lt.mp hneg
    have hsmall : n.toInt.toNat < Nat.pow 2 63 := (Int.toNat_lt hnonneg).mpr hhigh
    have hvalue : Int64.ofNat n.toInt.toNat = n := by
      rw [← Int64.ofInt_eq_ofNat, Int.toNat_of_nonneg hnonneg, Int64.ofInt_toInt]
    rw [writeInt, if_pos hnonneg,
      Reader.bind_eq (readScalarHead_writeNat rest (Nat.lt_trans hsmall (by decide)))]
    dsimp only
    rw [if_pos hsmall, hvalue]
    rfl

theorem uint64_keeps (n : UInt64) : uint64.Keeps n := by
  intro rest
  dsimp only [uint64]
  rw [Reader.bind_eq (readScalarHead_writeNat rest n.toNat_lt)]
  dsimp only
  rw [UInt64.ofNat_toNat]
  rfl

theorem float_keeps (x : Binary64) : float.Keeps x := by
  intro rest
  dsimp only [float]
  rw [Reader.bind_eq (readScalarHead_writeFloat rest x)]
  rfl

theorem bool_keeps (b : Bool) : bool.Keeps b := by
  intro rest
  dsimp only [bool]
  rw [Reader.bind_eq (readScalarHead_writeBool rest b)]
  rfl

theorem unit_keeps : unit.Keeps () := fun _ => rfl

theorem string_keeps {s : String} (h : (Utf8.encode s).length < lengthLimit) :
    string.Keeps s := by
  intro rest
  dsimp only [string, writeStr]
  rw [List.append_assoc, Reader.bind_eq (readHead_writeStrHead _ _), Nat.mod_eq_of_lt h]
  exact readText_append s rest

/-! ## Sequences -/

theorem readMany_append {write : α → Bytes} {read : Reader α} {as : List α}
    (h : ∀ a ∈ as, ∀ rest, read (write a ++ rest) = .ok (a, rest)) (rest : Bytes) :
    readMany read as.length (as.flatMap write ++ rest) = .ok (as, rest) := by
  induction as with
  | nil => rfl
  | cons a as ih =>
    obtain ⟨ha, has⟩ := List.forall_mem_cons.mp h
    rw [List.length_cons, readMany, List.flatMap_cons, List.append_assoc,
      Reader.bind_eq (ha _), Reader.bind_eq (ih has)]
    rfl

/-- `readSequenceOr` reads an array by `items`. -/
theorem readSequenceOr_array {expected : String} {items : Nat → Reader (α × Nat)}
    {entries : Nat → Reader α} {length : Nat} {body rest : Bytes} {a : α}
    (hlength : length < lengthLimit) (hitems : items length (body ++ rest) = .ok ((a, 0), rest)) :
    readSequenceOr expected items entries (writeArrayHead length ++ body ++ rest) =
      .ok (a, rest) := by
  rw [readSequenceOr, List.append_assoc,
    Reader.bind_eq (readHead_writeArrayHead length (body ++ rest)), Nat.mod_eq_of_lt hlength]
  dsimp only
  rw [Reader.bind_eq hitems]
  rfl

theorem pair_keeps {first : Schema α} {second : Schema β} {p : α × β} (hfirst : first.Keeps p.1)
    (hsecond : second.Keeps p.2) : (pair first second).Keeps p := by
  intro rest
  dsimp only [pair]
  rw [List.append_assoc (writeArrayHead 2)]
  refine readSequenceOr_array (by decide) ?_
  dsimp only
  rw [List.append_assoc, Reader.bind_eq (hfirst _), Reader.bind_eq (hsecond _)]
  rfl

theorem list_keeps {element : Schema α} {as : List α} (hlength : as.length < lengthLimit)
    (h : ∀ a ∈ as, element.Keeps a) : (list element).Keeps as := by
  intro rest
  refine readSequenceOr_array hlength ?_
  rw [Reader.bind_eq (readMany_append h rest)]
  rfl

/-- The reader of one entry of a map. -/
def readEntry {κ ν : Type} (key : Schema κ) (value : Schema ν) : Reader (κ × ν) := do
  let k ← key.read
  let v ← value.read
  return (k, v)

theorem map_keeps {κ ν : Type} {order : KeyOrder κ} (hstrict : order.Strict) {key : Schema κ}
    {value : Schema ν} {m : OrderedMap order ν} (hlength : m.entries.length < lengthLimit)
    (h : ∀ e ∈ m.entries, key.Keeps e.1 ∧ value.Keeps e.2) : (map key value).Keeps m := by
  intro rest
  have hentry : ∀ e ∈ m.entries, ∀ rest,
      readEntry key value (key.write e.1 ++ value.write e.2 ++ rest) = .ok (e, rest) := by
    intro e he rest
    obtain ⟨hkey, hvalue⟩ := h e he
    rw [readEntry, List.append_assoc, Reader.bind_eq (hkey _), Reader.bind_eq (hvalue _)]
    rfl
  dsimp only [map]
  rw [List.append_assoc, Reader.bind_eq (readHead_writeMapHead _ _), Nat.mod_eq_of_lt hlength]
  refine (Reader.bind_eq (readMany_append hentry rest)).trans ?_
  -- the entries were written in ascending order, so they make up the same map again
  rw [OrderedMap.ofList_entries hstrict]
  rfl

/-! ## Options -/

/-- What is written for a value does not begin with the byte of `none`. -/
def Present (schema : Schema α) (value : α) : Prop :=
  ∃ b tail, schema.write value = b :: tail ∧ b ≠ 0xC0

/-- A value that is kept is `Present` if nothing is read from no bytes and from behind the byte of
`none`. -/
theorem Keeps.present {schema : Schema α} {value : α} (h : schema.Keeps value)
    (hempty : ∃ e, schema.read [] = .error e)
    (hnil : ∀ bytes, ∃ e, schema.read (0xC0 :: bytes) = .error e) : schema.Present value := by
  have hread := h []
  rw [List.append_nil] at hread
  rw [Present]
  -- nothing is read from no bytes, and nothing from behind the marker of an absent value
  cases hwrite : schema.write value with
  | nil =>
    obtain ⟨e, he⟩ := hempty
    rw [hwrite, he] at hread
    cases hread
  | cons b tail =>
    refine ⟨b, tail, rfl, fun hb => ?_⟩
    obtain ⟨e, he⟩ := hnil tail
    rw [hwrite, hb, he] at hread
    cases hread

theorem option_keeps_none {some : Schema α} : (option some).Keeps none := fun _ => rfl

theorem option_keeps_some {some : Schema α} {a : α} (h : some.Keeps a)
    (hpresent : some.Present a) : (option some).Keeps (.some a) := by
  intro rest
  obtain ⟨b, tail, hwrite, hb⟩ := hpresent
  have hread := h rest
  rw [hwrite, List.cons_append] at hread
  dsimp only [option]
  rw [hwrite, List.cons_append]
  -- the first byte alone decides
  split
  next hbytes => exact absurd (List.cons.inj hbytes).1 hb
  next => rw [hread]; rfl

/-! ## Records -/

theorem unitStruct_keeps (name : String) : (unitStruct name).Keeps () := fun _ => rfl

/-- `readSequenceOr` reads a map by `entries`. -/
theorem readSequenceOr_map {expected : String} {items : Nat → Reader (α × Nat)}
    {entries : Nat → Reader α} {length : Nat} (hlength : length < lengthLimit) (bytes : Bytes) :
    readSequenceOr expected items entries (writeMapHead length ++ bytes) =
      entries length bytes := by
  rw [readSequenceOr, Reader.bind_eq (readHead_writeMapHead length bytes),
    Nat.mod_eq_of_lt hlength]

/-- `readFieldKey` recognises the name of the field. -/
theorem readFieldKey_writeStr {field : String}
    (h : (Utf8.encode field).length < lengthLimit) (rest : Bytes) :
    readFieldKey [field] (writeStr field ++ rest) = .ok (some 0, rest) := by
  rw [readFieldKey, writeStr, List.append_assoc, Reader.bind_eq (readHead_writeStrHead _ _),
    Nat.mod_eq_of_lt h]
  dsimp only
  rw [Reader.bind_eq (readBody_append _ rest), List.findIdx?_cons, beq_self_eq_true, if_pos rfl]
  rfl

theorem record₁_keeps {name field : String} {a : Schema α} {value : α}
    (hfield : (Utf8.encode field).length < lengthLimit) (h : a.Keeps value) :
    (record₁ name field a).Keeps value := by
  intro rest
  dsimp only [record₁, writeRecord, List.length_singleton]
  rw [List.append_assoc, readSequenceOr_map (by decide), List.flatMap_singleton, List.append_assoc,
    readFields₁, Reader.bind_eq (readFieldKey_writeStr hfield _)]
  dsimp only [Option.isSome_none]
  rw [if_neg Bool.false_ne_true, Reader.bind_eq (h rest)]
  rfl

/-- `readBoundKey` recognises the name of a bound. -/
theorem readBoundKey_writeStr (field : String) {i : Nat}
    (h : (Utf8.encode field).length < lengthLimit)
    (hfield : ["start", "end"].findIdx? (· == field) = some i) (rest : Bytes) :
    readBoundKey (writeStr field ++ rest) = .ok (some i, rest) := by
  rw [readBoundKey, writeStr, List.append_assoc, Reader.bind_eq (readHead_writeStrHead _ _),
    Nat.mod_eq_of_lt h]
  dsimp only
  rw [Reader.bind_eq (readText_append field rest), hfield]
  rfl

theorem range_keeps (bounds : UInt64 × UInt64) : range.Keeps bounds := by
  intro rest
  dsimp only [range, writeRecord, List.length_cons, List.length_nil]
  rw [List.append_assoc, readSequenceOr_map (by decide), List.flatMap_cons, List.flatMap_singleton,
    List.append_assoc, List.append_assoc, List.append_assoc, readFields₂,
    Reader.bind_eq (readBoundKey_writeStr "start" (by decide) rfl _)]
  -- neither bound is there before its name is read
  simp only [Option.isSome_none]
  rw [if_neg Bool.false_ne_true, Reader.bind_eq (uint64_keeps bounds.1 _), readFields₂,
    Reader.bind_eq (readBoundKey_writeStr "end" (by decide) rfl _)]
  simp only [Option.isSome_none]
  rw [if_neg Bool.false_ne_true, Reader.bind_eq (uint64_keeps bounds.2 rest)]
  rfl

end Schema

end MessagePack

end Fanout
