import Fanout.Proofs.MessagePack.Lossless
import Fanout.Proofs.Traversal

/-!
# The values that are read back

Lengths are written modulo `lengthLimit`, and an option writes `some a` as its schema writes `a`. So
a list of `lengthLimit` elements is read as an empty one, and `some a` is read as `none` if `a` is
written as nil. `Schema.Recovers` says that a value is read back with some bytes appended; the
`*_recovers` lemmas show for each schema that this requires lengths below `lengthLimit`, options
that are told apart, and parts that are recovered.
-/

namespace Fanout

/-! ## Maps -/

namespace OrderedMap

variable {κ ν : Type} {order : KeyOrder κ}

theorem length_insertEntry_le (key : κ) (value : ν) (entries : List (κ × ν)) :
    (insertEntry order key value entries).length ≤ entries.length + 1 := by
  induction entries with
  | nil => exact Nat.le_refl 1
  | cons entry rest ih =>
    rw [insertEntry]
    split
    next => exact Nat.le_refl _
    next =>
      split
      next => exact Nat.succ_le_succ ih
      next => exact Nat.le_succ _

/-- `insertEntry` adds its entry to the others if it makes the list longer. -/
theorem perm_insertEntry {key : κ} {value : ν} {entries : List (κ × ν)}
    (h : (insertEntry order key value entries).length = entries.length + 1) :
    (insertEntry order key value entries).Perm ((key, value) :: entries) := by
  induction entries with
  | nil => exact List.Perm.refl _
  | cons entry rest ih =>
    rw [insertEntry] at h ⊢
    split at h
    next hbefore =>
      rw [if_pos hbefore]
    next hbefore =>
      rw [if_neg hbefore]
      split at h
      next hafter =>
        rw [if_pos hafter]
        exact ((ih (Nat.succ.inj h)).cons entry).trans (List.Perm.swap _ _ _)
      next hafter => exact absurd h (Nat.ne_of_lt (Nat.lt_succ_self _))

theorem length_foldl_le (rest : List (κ × ν)) (map : OrderedMap order ν) :
    (rest.foldl (fun map entry => map.insert entry.1 entry.2) map).entries.length ≤
      map.entries.length + rest.length := by
  induction rest generalizing map with
  | nil => exact Nat.le_refl _
  | cons entry rest ih =>
    have hrest := ih (map.insert entry.1 entry.2)
    have hentry : (map.insert entry.1 entry.2).entries.length ≤ map.entries.length + 1 :=
      length_insertEntry_le entry.1 entry.2 map.entries
    rw [List.foldl_cons, List.length_cons]
    omega

/-- Entries that make a map longer by their number are added to the ones it has. -/
theorem perm_foldl (rest : List (κ × ν)) (map : OrderedMap order ν)
    (h : (rest.foldl (fun map entry => map.insert entry.1 entry.2) map).entries.length =
      map.entries.length + rest.length) :
    (rest.foldl (fun map entry => map.insert entry.1 entry.2) map).entries.Perm
      (rest ++ map.entries) := by
  induction rest generalizing map with
  | nil => exact List.Perm.refl _
  | cons entry rest ih =>
    have hrest := length_foldl_le rest (map.insert entry.1 entry.2)
    have hentry : (map.insert entry.1 entry.2).entries.length ≤ map.entries.length + 1 :=
      length_insertEntry_le entry.1 entry.2 map.entries
    rw [List.foldl_cons, List.length_cons] at h
    have hlength : (map.insert entry.1 entry.2).entries.length = map.entries.length + 1 := by omega
    have hperm : (map.insert entry.1 entry.2).entries.Perm (entry :: map.entries) :=
      perm_insertEntry hlength
    rw [List.foldl_cons]
    exact ((ih _ (by omega)).trans (hperm.append_left rest)).trans List.perm_middle

theorem length_ofList_le (entries : List (κ × ν)) :
    (ofList entries : OrderedMap order ν).entries.length ≤ entries.length := by
  have h := length_foldl_le entries (empty : OrderedMap order ν)
  rwa [empty, List.length_nil, Nat.zero_add] at h

/-- `ofList` with as many entries as it is given has these entries. -/
theorem perm_of_length_ofList {entries : List (κ × ν)}
    (h : (ofList entries : OrderedMap order ν).entries.length = entries.length) :
    (ofList entries : OrderedMap order ν).entries.Perm entries := by
  have hperm := perm_foldl entries (empty : OrderedMap order ν) (by
    rw [empty, List.length_nil, Nat.zero_add]
    exact h)
  rwa [empty, List.append_nil] at hperm

theorem pairwise_ne (hstrict : order.Strict) (map : OrderedMap order ν) :
    map.entries.Pairwise fun a b => a.1 ≠ b.1 := by
  refine map.ascending.imp fun {a b} hbefore heq => ?_
  rw [heq, hstrict b.1] at hbefore
  cases hbefore

end OrderedMap

namespace MessagePack

/-! ## Readers -/

theorem Reader.bind_eq_ok_iff {α β : Type} {read : Reader α} {next : α → Reader β} {bytes : Bytes}
    {r : β × Bytes} : (read >>= next) bytes = .ok r ↔
      ∃ a rest, read bytes = .ok (a, rest) ∧ next a rest = .ok r := by
  constructor
  · intro h
    obtain ⟨⟨a, rest⟩, hread, hnext⟩ := Traversal.bind_eq_ok_iff.mp h
    exact ⟨a, rest, hread, hnext⟩
  · rintro ⟨a, rest, hread, hnext⟩
    rw [Reader.bind_eq hread, hnext]

theorem reject_ne_ok {α : Type} (head : Head) (expected : String) (bytes : Bytes)
    (r : α × Bytes) : reject head expected bytes ≠ .ok r := by
  intro h
  cases head with
  | str length | bin length =>
    obtain ⟨_, _, -, h⟩ := Reader.bind_eq_ok_iff.mp h
    cases h
  | _ => cases h

/-! ## Lengths -/

theorem lt_lengthLimit_of_eq_mod {length : Nat} (h : length % lengthLimit = length) :
    length < lengthLimit := by
  have hlt := mod_lt_lengthLimit length
  rwa [h] at hlt

theorem length_of_takeExact {count : Nat} {bytes : Bytes} {r : Bytes × Bytes}
    (h : takeExact count bytes = some r) : r.1.length = count := by
  induction count generalizing bytes r with
  | zero =>
    cases h
    rfl
  | succ count ih =>
    cases bytes with
    | nil => cases h
    | cons b bytes =>
      obtain ⟨r', hr, rfl⟩ := Option.map_eq_some_iff.mp h
      rw [List.length_cons, ih hr]

theorem length_of_readBody {count : Nat} {bytes body rest : Bytes}
    (h : readBody count bytes = .ok (body, rest)) : body.length = count := by
  rw [readBody] at h
  split at h
  next r hr =>
    cases h
    exact length_of_takeExact hr
  next => cases h

theorem ofBigEndian_lt (bytes : Bytes) : ofBigEndian bytes < 256 ^ bytes.length := by
  rw [ofBigEndian, ← List.reverse_reverse bytes]
  generalize bytes.reverse = digits
  rw [List.foldl_reverse, List.length_reverse]
  induction digits with
  | nil => exact Nat.one_pos
  | cons b digits ih =>
    have hbyte := b.toNat_lt
    rw [List.foldr_cons, List.length_cons, Nat.pow_succ]
    omega

/-- The number that `withNumber` reads is below `256 ^ width`. -/
theorem lt_of_withNumber {width : Nat} {make : Nat → Head} {bytes rest : Bytes} {head : Head}
    (h : withNumber width make bytes = .ok (head, rest)) : ∃ n < 256 ^ width, head = make n := by
  rw [withNumber] at h
  split at h
  next r hr =>
    cases h
    have hlt := ofBigEndian_lt r.1
    rw [length_of_takeExact hr] at hlt
    exact ⟨_, hlt, rfl⟩
  next => cases h

/-- The lengths of texts and byte strings behind a marker are below `lengthBound`. -/
def Marker.lengthBound : Marker → Nat
  | fixStr length => length + 1
  | str width => 256 ^ width
  | bin width => 256 ^ width
  | _ => 0

theorem Marker.lengthBound_ofByte (b : UInt8) : (ofByte b).lengthBound ≤ lengthLimit := by
  have h : ∀ n < 256, (ofByte (UInt8.ofNat n)).lengthBound ≤ lengthLimit := by decide +kernel
  have hb := h b.toNat b.toNat_lt
  rwa [UInt8.ofNat_toNat] at hb

theorem lt_lengthBound_of_ofMarker {marker : Marker} {bytes rest : Bytes} {head : Head}
    {length : Nat} (h : Head.ofMarker marker bytes = .ok (head, rest))
    (hhead : head = .str length ∨ head = .bin length) : length < marker.lengthBound := by
  unfold Head.ofMarker at h
  -- the other markers announce neither a text nor a byte string
  cases marker with
  | fixStr n =>
    cases h
    rcases hhead with hhead | hhead <;> cases hhead
    exact Nat.lt_succ_self _
  | str width | bin width =>
    obtain ⟨n, hn, rfl⟩ := lt_of_withNumber h
    rcases hhead with hhead | hhead <;> cases hhead
    exact hn
  | ext width | float width | uint width | int width | array width | map width =>
    obtain ⟨n, -, rfl⟩ := lt_of_withNumber h
    rcases hhead with hhead | hhead <;> cases hhead
  | reserved => cases h
  | fixPos | fixNeg | fixMap | fixArray | null | bool | fixExt =>
    cases h
    rcases hhead with hhead | hhead <;> cases hhead

/-- The length of a text or of a byte string that `readHead` reads is below `lengthLimit`. -/
theorem lt_of_readHead {bytes rest : Bytes} {head : Head} {length : Nat}
    (h : readHead bytes = .ok (head, rest)) (hhead : head = .str length ∨ head = .bin length) :
    length < lengthLimit := by
  cases bytes with
  | nil => cases h
  | cons b bytes =>
    exact Nat.lt_of_lt_of_le (lt_lengthBound_of_ofMarker h hhead) (Marker.lengthBound_ofByte b)

/-! ## Values -/

namespace Schema

variable {α β : Type}

/-- The value is read back from what is written for it, with some bytes appended. -/
def Recovers (schema : Schema α) (value : α) : Prop :=
  ∃ rest left, schema.read (schema.write value ++ rest) = .ok (value, left)

theorem Keeps.recovers {schema : Schema α} {value : α} (h : schema.Keeps value) :
    schema.Recovers value := ⟨[], [], h []⟩

/-- A text whose length is a multiple of `lengthLimit` is read as the empty one. -/
theorem string_decode_write_of_mod {s : String}
    (h : (Utf8.encode s).length % lengthLimit = 0) : string.decode (string.write s) = .ok "" := by
  dsimp only [decode, string, writeStr]
  rw [Reader.bind_eq (readHead_writeStrHead _ _), h]
  rfl

/-- The bytes of a text that was read are fewer than `lengthLimit`. -/
theorem lt_of_string_read {s : String} {bytes rest : Bytes}
    (h : string.read bytes = .ok (s, rest)) : (Utf8.encode s).length < lengthLimit := by
  obtain ⟨head, bytes', hhead, h⟩ := Reader.bind_eq_ok_iff.mp h
  split at h
  case h_3 => exact absurd h (reject_ne_ok _ _ _ _)
  -- a text and a byte string differ in the error only
  all_goals
    obtain ⟨body, left, hread, h⟩ := Reader.bind_eq_ok_iff.mp h
    cases htext : Utf8.decode body with
    | error e =>
      rw [htext] at h
      cases h
    | ok s' =>
      rw [htext] at h
      cases h
      rw [Utf8.decode_eq_ok_iff.mp htext, length_of_readBody hread]
      exact lt_of_readHead hhead (by simp)

/-- `Recovers` for texts. -/
theorem string_recovers {s : String} (h : string.Recovers s) :
    (Utf8.encode s).length < lengthLimit := by
  obtain ⟨rest, left, h⟩ := h
  exact lt_of_string_read h

/-- `readSequenceOr` hands the length that was written, modulo `lengthLimit`, to `items`. -/
theorem of_readSequenceOr_array {expected : String} {items : Nat → Reader (α × Nat)}
    {entries : Nat → Reader α} {length : Nat} {bytes left : Bytes} {a : α}
    (h : readSequenceOr expected items entries (writeArrayHead length ++ bytes) = .ok (a, left)) :
    items (length % lengthLimit) bytes = .ok ((a, 0), left) := by
  rw [readSequenceOr, Reader.bind_eq (readHead_writeArrayHead length bytes)] at h
  obtain ⟨⟨a', count⟩, left', hitems, h⟩ := Reader.bind_eq_ok_iff.mp h
  dsimp only at h
  by_cases hcount : count = 0
  · rw [if_pos hcount] at h
    cases h
    rw [hitems, hcount]
  · rw [if_neg hcount] at h
    cases h

/-- `Recovers` for pairs gives it for both parts. -/
theorem pair_recovers {first : Schema α} {second : Schema β} {p : α × β}
    (hfirst : first.Recovers p.1 → first.Keeps p.1) (h : (pair first second).Recovers p) :
    first.Recovers p.1 ∧ second.Recovers p.2 := by
  obtain ⟨rest, left, h⟩ := h
  dsimp only [pair] at h
  rw [List.append_assoc, List.append_assoc] at h
  have hitems := of_readSequenceOr_array h
  obtain ⟨a, bytes, ha, h⟩ := Reader.bind_eq_ok_iff.mp hitems
  obtain ⟨b, bytes', hb, h⟩ := Reader.bind_eq_ok_iff.mp h
  cases h
  have hrecovers : first.Recovers a := ⟨_, _, ha⟩
  -- the first part takes its own bytes, so the second one begins where it was written
  rw [hfirst hrecovers] at ha
  cases ha
  exact ⟨hrecovers, _, _, hb⟩

theorem readMany_length {read : Reader α} {count : Nat} {bytes left : Bytes} {as : List α}
    (h : readMany read count bytes = .ok (as, left)) : as.length = count := by
  induction count generalizing bytes as with
  | zero =>
    cases h
    rfl
  | succ count ih =>
    obtain ⟨a, bytes', -, h⟩ := Reader.bind_eq_ok_iff.mp h
    obtain ⟨as', left', has, h⟩ := Reader.bind_eq_ok_iff.mp h
    cases h
    rw [List.length_cons, ih has]

/-- If `readMany` reads the elements that were written, the element schema `Recovers` each of
them. -/
theorem recovers_of_readMany {element : Schema α} {as : List α} {rest left : Bytes}
    (helement : ∀ a ∈ as, element.Recovers a → element.Keeps a)
    (h : readMany element.read as.length (as.flatMap element.write ++ rest) = .ok (as, left)) :
    ∀ a ∈ as, element.Recovers a := by
  induction as with
  | nil => simp
  | cons a as ih =>
    rw [List.forall_mem_cons] at helement ⊢
    rw [List.flatMap_cons, List.append_assoc, List.length_cons] at h
    obtain ⟨a', bytes, ha, h⟩ := Reader.bind_eq_ok_iff.mp h
    obtain ⟨as', bytes', has, h⟩ := Reader.bind_eq_ok_iff.mp h
    cases h
    have hrecovers : element.Recovers a := ⟨_, _, ha⟩
    rw [helement.1 hrecovers] at ha
    cases ha
    exact ⟨hrecovers, ih helement.2 has⟩

/-- `Recovers` for lists gives it for the elements, and there are fewer than `lengthLimit`. -/
theorem list_recovers {element : Schema α} {as : List α}
    (helement : ∀ a ∈ as, element.Recovers a → element.Keeps a)
    (h : (list element).Recovers as) :
    as.length < lengthLimit ∧ ∀ a ∈ as, element.Recovers a := by
  obtain ⟨rest, left, h⟩ := h
  dsimp only [list] at h
  rw [List.append_assoc] at h
  have hitems := of_readSequenceOr_array h
  obtain ⟨as', bytes, has, h⟩ := Reader.bind_eq_ok_iff.mp hitems
  cases h
  have hmod := readMany_length has
  rw [← hmod] at has
  exact ⟨lt_lengthLimit_of_eq_mod hmod.symm, recovers_of_readMany helement has⟩

/-- A list whose length is a multiple of `lengthLimit` is read as the empty one. -/
theorem list_decode_write_of_mod {element : Schema α} {as : List α}
    (h : as.length % lengthLimit = 0) :
    (list element).decode ((list element).write as) = .ok [] := by
  dsimp only [decode, list, readSequence]
  rw [readSequenceOr, Reader.bind_eq (readHead_writeArrayHead _ _), h]
  rfl

/-- `Recovers` for a present value gives it for the value, which is not written like `none`. -/
theorem option_recovers_some {some : Schema α} {a : α} (h : (option some).Recovers (.some a)) :
    some.Recovers a ∧ some.write a ≠ writeNil := by
  obtain ⟨rest, left, h⟩ := h
  dsimp only [option] at h
  split at h
  next => cases h
  next hbytes =>
    obtain ⟨r, hr, h⟩ := Traversal.map_eq_ok_iff.mp h
    cases h
    refine ⟨⟨rest, _, hr⟩, fun hnil => ?_⟩
    rw [hnil] at hbytes
    exact hbytes _ rfl

/-- `readFieldKey` recognises a field only if its name has fewer than `lengthLimit` bytes. -/
theorem lt_of_readFieldKey {field : String} {bytes left : Bytes} {i : Nat}
    (h : readFieldKey [field] (writeStr field ++ bytes) = .ok (some i, left)) :
    (Utf8.encode field).length < lengthLimit := by
  rw [readFieldKey, writeStr, List.append_assoc, Reader.bind_eq (readHead_writeStrHead _ _)]
    at h
  obtain ⟨body, left', hread, h⟩ := Reader.bind_eq_ok_iff.mp h
  injection h with h
  injection h with hindex hleft
  have hbytes : Utf8.encode field = body := by
    rw [List.findIdx?_singleton] at hindex
    split at hindex
    next heq => exact eq_of_beq heq
    next => cases hindex
  have hmod := length_of_readBody hread
  rw [← hbytes] at hmod
  exact lt_lengthLimit_of_eq_mod hmod.symm

/-- `Recovers` for a record gives it for the value, and the name has fewer than `lengthLimit`
bytes. -/
theorem record₁_recovers {name field : String} {a : Schema α} {value : α}
    (h : (record₁ name field a).Recovers value) :
    (Utf8.encode field).length < lengthLimit ∧ a.Recovers value := by
  obtain ⟨rest, left, h⟩ := h
  dsimp only [record₁, writeRecord, List.length_singleton] at h
  rw [List.append_assoc, readSequenceOr_map (by decide), List.flatMap_singleton, List.append_assoc,
    readFields₁] at h
  obtain ⟨key, bytes, hkey, h⟩ := Reader.bind_eq_ok_iff.mp h
  cases key with
  | none =>
    -- the entry was stepped over, so the field is missing
    obtain ⟨_, bytes', -, h⟩ := Reader.bind_eq_ok_iff.mp h
    cases h
  | some i =>
    have hfield := lt_of_readFieldKey hkey
    rw [readFieldKey_writeStr hfield] at hkey
    cases hkey
    dsimp only [Option.isSome_none] at h
    rw [if_neg Bool.false_ne_true] at h
    obtain ⟨value', bytes', hvalue, h⟩ := Reader.bind_eq_ok_iff.mp h
    cases h
    exact ⟨hfield, _, _, hvalue⟩

/-! ## Maps -/

section Maps

variable {κ ν : Type} {order : KeyOrder κ} {key : Schema κ} {value : Schema ν}

/-- The key of each entry that was read was read by `key.read`. -/
theorem forall_of_readMany_entry {P : κ → Prop}
    (hkey : ∀ k bytes rest, key.read bytes = .ok (k, rest) → P k) {count : Nat}
    {bytes left : Bytes} {entries : List (κ × ν)}
    (h : readMany (readEntry key value) count bytes = .ok (entries, left)) :
    ∀ e ∈ entries, P e.1 := by
  induction count generalizing bytes entries with
  | zero =>
    cases h
    simp
  | succ count ih =>
    obtain ⟨e, bytes', he, h⟩ := Reader.bind_eq_ok_iff.mp h
    obtain ⟨entries', left', hentries, h⟩ := Reader.bind_eq_ok_iff.mp h
    cases h
    obtain ⟨k, bytes₁, hk, he⟩ := Reader.bind_eq_ok_iff.mp he
    obtain ⟨v, bytes₂, -, he⟩ := Reader.bind_eq_ok_iff.mp he
    cases he
    exact List.forall_mem_cons.mpr ⟨hkey k _ _ hk, ih hentries⟩

/-- If entries with distinct keys are read as the same entries in some order, and their keys are
kept, the value schema `Recovers` each value. -/
theorem recovers_of_readMany_entry {entries entries' : List (κ × ν)} {rest left : Bytes}
    (hdistinct : entries.Pairwise fun a b => a.1 ≠ b.1)
    (hkey : ∀ e ∈ entries, key.Keeps e.1)
    (hvalue : ∀ e ∈ entries, value.Recovers e.2 → value.Keeps e.2)
    (hperm : entries.Perm entries')
    (h : readMany (readEntry key value) entries.length
      (entries.flatMap (fun e => key.write e.1 ++ value.write e.2) ++ rest) =
        .ok (entries', left)) :
    ∀ e ∈ entries, value.Recovers e.2 := by
  induction entries generalizing entries' with
  | nil => simp
  | cons e entries ih =>
    rw [List.forall_mem_cons] at hkey hvalue ⊢
    obtain ⟨hne, hdistinct⟩ := List.pairwise_cons.mp hdistinct
    rw [List.flatMap_cons, List.append_assoc, List.length_cons] at h
    obtain ⟨e', bytes, he, h⟩ := Reader.bind_eq_ok_iff.mp h
    obtain ⟨tail, bytes', htail, h⟩ := Reader.bind_eq_ok_iff.mp h
    cases h
    obtain ⟨k, bytes₁, hk, he⟩ := Reader.bind_eq_ok_iff.mp he
    obtain ⟨v, bytes₂, hv, he⟩ := Reader.bind_eq_ok_iff.mp he
    cases he
    rw [List.append_assoc, hkey.1] at hk
    cases hk
    -- no other entry has the key that was read
    have hfirst : v = e.2 := by
      rcases List.mem_cons.mp (hperm.mem_iff.mpr List.mem_cons_self) with heq | hmem
      · exact congrArg Prod.snd heq
      · exact absurd rfl (hne (e.1, v) hmem)
    subst hfirst
    have hrecovers : value.Recovers e.2 := ⟨_, _, hv⟩
    rw [hvalue.1 hrecovers] at hv
    cases hv
    exact ⟨hrecovers, ih hdistinct hkey.2 hvalue.2 hperm.cons_inv htail⟩

/-- `Recovers` for a map gives it for the values and keeps the keys, and there are fewer than
`lengthLimit` entries. -/
theorem map_recovers (hstrict : order.Strict) {m : OrderedMap order ν}
    (hread : ∀ k bytes rest, key.read bytes = .ok (k, rest) → key.Keeps k)
    (hvalue : ∀ e ∈ m.entries, value.Recovers e.2 → value.Keeps e.2)
    (h : (map key value).Recovers m) :
    m.entries.length < lengthLimit ∧
      ∀ e ∈ m.entries, key.Keeps e.1 ∧ value.Recovers e.2 := by
  obtain ⟨rest, left, h⟩ := h
  dsimp only [map] at h
  rw [List.append_assoc, Reader.bind_eq (readHead_writeMapHead _ _)] at h
  obtain ⟨entries, bytes, hentries, h⟩ := Reader.bind_eq_ok_iff.mp h
  injection h with h
  injection h with hmap hleft
  subst hmap
  have hcount := readMany_length hentries
  -- as many entries were read as the map has, so none of them stands for another
  have hlength : (OrderedMap.ofList entries : OrderedMap order ν).entries.length = entries.length :=
    Nat.le_antisymm (OrderedMap.length_ofList_le entries) (hcount ▸ Nat.mod_le _ _)
  have hperm := OrderedMap.perm_of_length_ofList hlength
  rw [← hcount, ← hlength] at hentries
  have hread := forall_of_readMany_entry hread hentries
  have hkey : ∀ e ∈ (OrderedMap.ofList entries : OrderedMap order ν).entries, key.Keeps e.1 :=
    fun e he => hread e (hperm.mem_iff.mp he)
  have hvalue := recovers_of_readMany_entry (OrderedMap.pairwise_ne hstrict _) hkey hvalue hperm
    hentries
  have hmod := hcount.symm.trans hlength.symm
  exact ⟨lt_lengthLimit_of_eq_mod hmod, fun e he => ⟨hkey e he, hvalue e he⟩⟩

end Maps

end Schema

end MessagePack

end Fanout
