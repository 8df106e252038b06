import Fanout.Proofs.Json.Settled
import Fanout.Proofs.Worker.Line
import Mathlib.Data.List.DropRight

/-!
# Members of messages

An object is decoded to a message iff each member of the message occurs exactly once, with a valid
value; the order of the members and members of other names do not matter:
`Value.toEnvelope_eq_ok_iff`, `Value.toCompleted_eq_ok_iff` and `Value.toFailed_eq_ok_iff`.

The tag of a message is taken out while the members are read, and the other members are read as in
any object: `readTaggedMembers_eq_ok_iff`.
-/

namespace Fanout.Json

/-- The members named `name`. -/
def membersOf (name : String) (members : List (String × Value)) : List (String × Value) :=
  members.filter fun member => member.1 = name

theorem membersOf_cons_self (name : String) (value : Value) (members : List (String × Value)) :
    membersOf name ((name, value) :: members) = (name, value) :: membersOf name members :=
  List.filter_cons_of_pos (by simp)

theorem membersOf_cons_of_ne {name : String} {member : String × Value} (h : member.1 ≠ name)
    (members : List (String × Value)) :
    membersOf name (member :: members) = membersOf name members :=
  List.filter_cons_of_neg (by simpa using h)

section Members

variable {name : String} {value : Value} {read : List (String × Value)}

theorem mem_membersOf_iff : (name, value) ∈ membersOf name read ↔ (name, value) ∈ read := by
  simp [membersOf]

/-- Among members of distinct names, each is the only one of its name. -/
theorem membersOf_eq_singleton {field : String × Value} (h : field ∈ read)
    (hnodup : (read.map Prod.fst).Nodup) : membersOf field.1 read = [field] := by
  induction read with
  | nil => cases h
  | cons member read ih =>
    rw [List.map_cons, List.nodup_cons] at hnodup
    rcases List.mem_cons.mp h with rfl | h
    · have hnone : membersOf field.1 read = [] := by
        refine List.filter_eq_nil_iff.mpr fun member hmember hname => hnodup.1 ?_
        rw [← of_decide_eq_true hname]
        exact List.mem_map_of_mem hmember
      rw [← hnone]
      exact membersOf_cons_self field.1 field.2 read
    · have hne : member.1 ≠ field.1 := fun heq => hnodup.1 (heq ▸ List.mem_map_of_mem h)
      rw [membersOf_cons_of_ne hne]
      exact ih h hnodup.2

theorem membersOf_append (name : String) (read others : List (String × Value)) :
    membersOf name (read ++ others) = membersOf name read ++ membersOf name others :=
  List.filter_append ..

theorem membersOf_eq_nil (h : ∀ member ∈ read, member.1 ≠ name) : membersOf name read = [] :=
  List.filter_eq_nil_iff.mpr fun member hmember hname =>
    h member hmember (of_decide_eq_true hname)

end Members

/-- The members other than the tag. -/
def contentOf (members : List (String × Value)) : List (String × Value) :=
  members.filter fun member => member.1 ≠ tagName

theorem contentOf_cons_tag (value : Value) (members : List (String × Value)) :
    contentOf ((tagName, value) :: members) = contentOf members :=
  List.filter_cons_of_neg (by simp)

theorem contentOf_cons_of_ne {member : String × Value} (h : member.1 ≠ tagName)
    (members : List (String × Value)) :
    contentOf (member :: members) = member :: contentOf members :=
  List.filter_cons_of_pos (by simpa using h)

/-- Removing the tag keeps the members of every other name. -/
theorem membersOf_contentOf {name : String} (h : name ≠ tagName)
    (members : List (String × Value)) :
    membersOf name (contentOf members) = membersOf name members := by
  rw [membersOf, contentOf, List.filter_filter]
  refine List.filter_congr fun member _ => ?_
  by_cases hname : member.1 = name
  · simp [hname, h]
  · simp [hname]

theorem contentOf_eq_self {members : List (String × Value)} (h : membersOf tagName members = []) :
    contentOf members = members := by
  refine List.filter_eq_self.mpr fun member hmember => ?_
  simpa using List.filter_eq_nil_iff.mp h member hmember

/-! ## Slots -/

section Slots

variable {α : Type} {name : String} {read : Value → Except Mismatch α}

/-- Exactly one member is named `name`, and `read` maps its value to `a`. -/
def Only (name : String) (read : Value → Except Mismatch α) (members : List (String × Value))
    (a : α) : Prop :=
  ∃ value, membersOf name members = [(name, value)] ∧ read value = .ok a

/-- Fill a slot from a member named `name`; fail if the slot is filled already, and ignore members
of other names. -/
def fillNamed (name : String) (read : Value → Except Mismatch α) (slot : Option α)
    (member : String × Value) : Except Mismatch (Option α) :=
  if member.1 = name then fill slot name read member.2 else .ok slot

/-- A filled slot stays filled iff no further member has its name. -/
theorem foldlM_fillNamed_some {a : α} {slot : Option α} {members : List (String × Value)} :
    members.foldlM (fillNamed name read) (some a) = .ok slot ↔
      membersOf name members = [] ∧ slot = some a := by
  induction members with
  | nil =>
    rw [List.foldlM_nil]
    exact ⟨fun h => ⟨rfl, (Except.ok.inj h).symm⟩, fun h => by rw [h.2]; rfl⟩
  | cons member members ih =>
    obtain ⟨n, value⟩ := member
    rw [List.foldlM_cons]
    by_cases hname : n = name
    · subst hname
      rw [fillNamed, if_pos rfl, membersOf_cons_self]
      exact ⟨fun h => (by cases h), fun h => (by cases h.1)⟩
    · rw [fillNamed, if_neg hname, membersOf_cons_of_ne hname]
      exact ih

/-- An empty slot gets filled with `a` iff `Only name read members a`. -/
theorem foldlM_fillNamed_none {a : α} {members : List (String × Value)} :
    members.foldlM (fillNamed name read) none = .ok (some a) ↔ Only name read members a := by
  induction members with
  | nil =>
    rw [List.foldlM_nil]
    refine ⟨fun h => (by cases h), ?_⟩
    rintro ⟨value, hmembers, -⟩
    cases hmembers
  | cons member members ih =>
    obtain ⟨n, value⟩ := member
    rw [List.foldlM_cons]
    by_cases hname : n = name
    · subst hname
      rw [fillNamed, if_pos rfl, fill, Traversal.bind_eq_ok_iff, Only, membersOf_cons_self]
      constructor
      · -- the member fills the slot, so none of the others may have its name
        rintro ⟨slot, hfill, hmembers⟩
        obtain ⟨b, hread, rfl⟩ := Traversal.map_eq_ok_iff.mp hfill
        obtain ⟨hnone, hslot⟩ := foldlM_fillNamed_some.mp hmembers
        cases hslot
        exact ⟨value, by rw [hnone], hread⟩
      · rintro ⟨value', hmembers, hread⟩
        obtain ⟨hvalue, hnone⟩ := List.cons.inj hmembers
        cases hvalue
        exact ⟨some a, Traversal.map_eq_ok_iff.mpr ⟨a, hread, rfl⟩,
          foldlM_fillNamed_some.mpr ⟨hnone, rfl⟩⟩
    · rw [fillNamed, if_neg hname, Only, membersOf_cons_of_ne hname]
      exact ih

end Slots

/-- `filled` returns what is in the slot. -/
theorem filled_eq_ok_iff {α : Type} {slot : Option α} {name : String} {a : α} :
    filled slot name = .ok a ↔ slot = some a := by
  cases slot with
  | none => exact ⟨fun h => (by cases h), fun h => (by cases h)⟩
  | some b => rw [filled, Except.ok.injEq, Option.some.injEq]

/-- Exactly one member is named `name`, and if that is `index` its value is an integer without a
sign. -/
def Once (name : String) (read : List (String × Value)) : Prop :=
  ∃ value, membersOf name read = [(name, value)] ∧
    (name = "index" → ∃ n : Nat, value = .integer n)

/-- `toIndex` accepts natural numbers only. -/
theorem exists_integer_of_toIndex {value : Value} {index : UInt64}
    (h : value.toIndex = .ok index) : ∃ n : Nat, value = .integer n := by
  rw [Value.toIndex.eq_def] at h
  split at h
  next n =>
    split at h
    next hn => exact ⟨n.toNat, by rw [Int.toNat_of_nonneg hn]⟩
    next => cases h
  next => cases h

section Only

variable {β : Type} {name : String} {toValue : Value → Except Mismatch β}
  {read : List (String × Value)} {b : β}

theorem Only.of_eq {value : Value} (h : membersOf name read = [(name, value)])
    (hvalue : toValue value = .ok b) : Only name toValue read b :=
  ⟨value, h, hvalue⟩

theorem Only.once (h : Only name toValue read b) (hname : name ≠ "index") : Once name read := by
  obtain ⟨value, hvalue, -⟩ := h
  exact ⟨value, hvalue, fun h => absurd h hname⟩

theorem Only.once_index {index : UInt64} (h : Only name Value.toIndex read index) :
    Once name read := by
  obtain ⟨value, hvalue, hindex⟩ := h
  exact ⟨value, hvalue, fun _ => exists_integer_of_toIndex hindex⟩

end Only

/-! ## Envelopes -/

/-- `EnvelopeSlots.add` offers the member to each slot. -/
theorem EnvelopeSlots.add_eq (slots : EnvelopeSlots) (member : String × Value) :
    slots.add member = do
      return {
        index := ← fillNamed "index" Value.toIndex slots.index member
        function := ← fillNamed "function" Value.toText slots.function member
        state := ← fillNamed "state" Value.toPayload slots.state member
        input := ← fillNamed "input" Value.toPayload slots.input member } := by
  rw [add.eq_def]
  split
  next => rfl
  next => rfl
  next => rfl
  next => rfl
  next hindex hfunction hstate hinput =>
    -- the member has none of the names, so every slot leaves it alone
    simp only [fillNamed]
    rw [if_neg fun h => hindex member.2 (by rw [← h]),
      if_neg fun h => hfunction member.2 (by rw [← h]),
      if_neg fun h => hstate member.2 (by rw [← h]),
      if_neg fun h => hinput member.2 (by rw [← h])]
    rfl

/-- Adding members to `EnvelopeSlots` is four independent folds, one for each slot. -/
theorem EnvelopeSlots.foldlM_add_eq_ok_iff {slots slots' : EnvelopeSlots}
    {members : List (String × Value)} :
    members.foldlM add slots = .ok slots' ↔
      members.foldlM (fillNamed "index" Value.toIndex) slots.index = .ok slots'.index ∧
      members.foldlM (fillNamed "function" Value.toText) slots.function = .ok slots'.function ∧
      members.foldlM (fillNamed "state" Value.toPayload) slots.state = .ok slots'.state ∧
      members.foldlM (fillNamed "input" Value.toPayload) slots.input = .ok slots'.input := by
  induction members generalizing slots with
  | nil =>
    cases slots
    cases slots'
    simp [pure, Except.pure]
  | cons member members ih =>
    -- the slots are independent: one step of the record is one step of each slot
    simp only [List.foldlM_cons, Traversal.bind_eq_ok_iff, add_eq, ih]
    constructor
    · rintro ⟨slots₁, ⟨i, hi, f, hf, s, hs, n, hn, hadd⟩, his, hfs, hss, hns⟩
      cases hadd
      exact ⟨⟨i, hi, his⟩, ⟨f, hf, hfs⟩, ⟨s, hs, hss⟩, ⟨n, hn, hns⟩⟩
    · rintro ⟨⟨i, hi, his⟩, ⟨f, hf, hfs⟩, ⟨s, hs, hss⟩, ⟨n, hn, hns⟩⟩
      exact ⟨⟨i, f, s, n⟩, ⟨i, hi, f, hf, s, hs, n, hn, rfl⟩, his, hfs, hss, hns⟩

/-- `toEnvelope` succeeds iff each of the four names has exactly one member, with a valid value. -/
theorem Value.toEnvelope_eq_ok_iff {members : List (String × Value)} {envelope : Envelope} :
    (object members).toEnvelope = .ok envelope ↔
      Only "index" toIndex members envelope.index ∧
      Only "function" toText members envelope.function ∧
      Only "state" toPayload members envelope.state ∧
      Only "input" toPayload members envelope.input := by
  simp only [← foldlM_fillNamed_none, toEnvelope, Traversal.bind_eq_ok_iff, filled_eq_ok_iff]
  constructor
  · rintro ⟨slots, hslots, i, hi, f, hf, s, hs, n, hn, henvelope⟩
    cases henvelope
    rw [← hi, ← hf, ← hs, ← hn]
    exact EnvelopeSlots.foldlM_add_eq_ok_iff.mp hslots
  · intro hslots
    exact ⟨⟨_, _, _, _⟩, EnvelopeSlots.foldlM_add_eq_ok_iff.mpr hslots, _, rfl, _, rfl, _, rfl, _,
      rfl, rfl⟩

/-! ## Responses -/

theorem ResponseSlots.addCompleted_eq (slots : ResponseSlots) (member : String × Value) :
    slots.addCompleted member = do
      return { slots with
        index := ← fillNamed "index" Value.toIndex slots.index member
        output := ← fillNamed "output" Value.toPayload slots.output member } := by
  rw [addCompleted.eq_def]
  split
  next => rfl
  next => rfl
  next hindex houtput =>
    simp only [fillNamed]
    rw [if_neg fun h => hindex member.2 (by rw [← h]),
      if_neg fun h => houtput member.2 (by rw [← h])]
    rfl

theorem ResponseSlots.addFailed_eq (slots : ResponseSlots) (member : String × Value) :
    slots.addFailed member = do
      return { slots with
        index := ← fillNamed "index" Value.toIndex slots.index member
        kind := ← fillNamed "kind" Value.toFailureKind slots.kind member
        message := ← fillNamed "message" Value.toText slots.message member } := by
  rw [addFailed.eq_def]
  split
  next => rfl
  next => rfl
  next => rfl
  next hindex hkind hmessage =>
    simp only [fillNamed]
    rw [if_neg fun h => hindex member.2 (by rw [← h]),
      if_neg fun h => hkind member.2 (by rw [← h]),
      if_neg fun h => hmessage member.2 (by rw [← h])]
    rfl

theorem ResponseSlots.foldlM_addCompleted_eq_ok_iff {slots slots' : ResponseSlots}
    {members : List (String × Value)} :
    members.foldlM addCompleted slots = .ok slots' ↔
      members.foldlM (fillNamed "index" Value.toIndex) slots.index = .ok slots'.index ∧
      members.foldlM (fillNamed "output" Value.toPayload) slots.output = .ok slots'.output ∧
      slots.kind = slots'.kind ∧ slots.message = slots'.message := by
  induction members generalizing slots with
  | nil =>
    cases slots
    cases slots'
    simp [pure, Except.pure]
  | cons member members ih =>
    simp only [List.foldlM_cons, Traversal.bind_eq_ok_iff, addCompleted_eq, ih]
    constructor
    · rintro ⟨slots₁, ⟨i, hi, o, ho, hadd⟩, his, hos, hother⟩
      cases hadd
      exact ⟨⟨i, hi, his⟩, ⟨o, ho, hos⟩, hother⟩
    · rintro ⟨⟨i, hi, his⟩, ⟨o, ho, hos⟩, hother⟩
      exact ⟨{ slots with index := i, output := o }, ⟨i, hi, o, ho, rfl⟩, his, hos, hother⟩

theorem ResponseSlots.foldlM_addFailed_eq_ok_iff {slots slots' : ResponseSlots}
    {members : List (String × Value)} :
    members.foldlM addFailed slots = .ok slots' ↔
      members.foldlM (fillNamed "index" Value.toIndex) slots.index = .ok slots'.index ∧
      slots.output = slots'.output ∧
      members.foldlM (fillNamed "kind" Value.toFailureKind) slots.kind = .ok slots'.kind ∧
      members.foldlM (fillNamed "message" Value.toText) slots.message = .ok slots'.message := by
  induction members generalizing slots with
  | nil =>
    cases slots
    cases slots'
    simp [pure, Except.pure]
  | cons member members ih =>
    simp only [List.foldlM_cons, Traversal.bind_eq_ok_iff, addFailed_eq, ih]
    constructor
    · rintro ⟨slots₁, ⟨i, hi, k, hk, m, hm, hadd⟩, his, hother, hks, hms⟩
      cases hadd
      exact ⟨⟨i, hi, his⟩, hother, ⟨k, hk, hks⟩, ⟨m, hm, hms⟩⟩
    · rintro ⟨⟨i, hi, his⟩, hother, ⟨k, hk, hks⟩, ⟨m, hm, hms⟩⟩
      exact ⟨{ slots with index := i, kind := k, message := m }, ⟨i, hi, k, hk, m, hm, rfl⟩, his,
        hother, hks, hms⟩

/-- `toCompleted` succeeds iff `index` and `output` each have exactly one member, with a valid
value. -/
theorem Value.toCompleted_eq_ok_iff {members : List (String × Value)} {response : Response} :
    (object members).toCompleted = .ok response ↔
      ∃ index output, response = .completed index output ∧
        Only "index" toIndex members index ∧ Only "output" toPayload members output := by
  simp only [← foldlM_fillNamed_none, toCompleted, Traversal.bind_eq_ok_iff, filled_eq_ok_iff]
  constructor
  · rintro ⟨slots, hslots, i, hi, o, ho, hresponse⟩
    cases hresponse
    obtain ⟨hindex, houtput, -⟩ := ResponseSlots.foldlM_addCompleted_eq_ok_iff.mp hslots
    exact ⟨i, o, rfl, hi ▸ hindex, ho ▸ houtput⟩
  · rintro ⟨i, o, rfl, hindex, houtput⟩
    have hslots : members.foldlM ResponseSlots.addCompleted {} =
        .ok { index := some i, output := some o } :=
      ResponseSlots.foldlM_addCompleted_eq_ok_iff.mpr ⟨hindex, houtput, rfl, rfl⟩
    exact ⟨_, hslots, i, rfl, o, rfl, rfl⟩

/-- `toFailed` succeeds iff `index`, `kind` and `message` each have exactly one member, with a valid
value. -/
theorem Value.toFailed_eq_ok_iff {members : List (String × Value)} {response : Response} :
    (object members).toFailed = .ok response ↔
      ∃ index kind message, response = .failed index kind message ∧
        Only "index" toIndex members index ∧ Only "kind" toFailureKind members kind ∧
        Only "message" toText members message := by
  simp only [← foldlM_fillNamed_none, toFailed, Traversal.bind_eq_ok_iff, filled_eq_ok_iff]
  constructor
  · rintro ⟨slots, hslots, i, hi, k, hk, m, hm, hresponse⟩
    cases hresponse
    obtain ⟨hindex, -, hkind, hmessage⟩ := ResponseSlots.foldlM_addFailed_eq_ok_iff.mp hslots
    exact ⟨i, k, m, rfl, hi ▸ hindex, hk ▸ hkind, hm ▸ hmessage⟩
  · rintro ⟨i, k, m, rfl, hindex, hkind, hmessage⟩
    have hslots : members.foldlM ResponseSlots.addFailed {} =
        .ok { index := some i, kind := some k, message := some m } :=
      ResponseSlots.foldlM_addFailed_eq_ok_iff.mpr ⟨hindex, rfl, hkind, hmessage⟩
    exact ⟨_, hslots, i, rfl, k, rfl, m, rfl, rfl⟩

/-! ## Tags -/

theorem skipBlanks_skipBlanks (cs : List Char) : skipBlanks (skipBlanks cs) = skipBlanks cs :=
  List.dropWhile_idempotent _ cs

theorem readValue_skipBlanks (depth fuel : Nat) (cs : List Char) :
    readValue depth fuel (skipBlanks cs) = readValue depth fuel cs := by
  cases fuel with
  | zero => rfl
  | succ fuel => rw [readValue, readValue, skipBlanks_skipBlanks]

/-- `readValue` does not read a text from an array or an object. -/
theorem readValue_container_ne {c : Char} (hc : c = '[' ∨ c = '\x7b') (depth fuel : Nat)
    (cs : List Char) (s : String) (r : List Char) :
    readValue depth fuel (c :: cs) ≠ .ok (.string s, r) := by
  intro hread
  cases fuel with
  | zero => cases hread
  | succ fuel =>
    rcases hc with rfl | rfl
    · rw [readValue_array] at hread
      split at hread
      next => cases hread
      next =>
        obtain ⟨_, -, heq⟩ := Traversal.map_eq_ok_iff.mp hread
        cases heq
    · rw [readValue_object] at hread
      split at hread
      next => cases hread
      next =>
        obtain ⟨_, -, heq⟩ := Traversal.map_eq_ok_iff.mp hread
        cases heq

/-- `readTag` returns `tag` iff `readValue` reads that text and it is in `tags`. -/
theorem readTag_eq_ok_iff {tags : List String} {depth fuel : Nat} {cs r : List Char}
    {tag : String} :
    readTag tags depth fuel cs = .ok (tag, r) ↔
      readValue depth fuel cs = .ok (.string tag, r) ∧ tag ∈ tags := by
  rw [readTag, ← readValue_skipBlanks]
  -- containers are refused unread, but reading them would give no text either
  split
  next hskip =>
    rw [hskip]
    exact ⟨fun h => (by cases h), fun h => absurd h.1 (readValue_container_ne (.inl rfl) _ _ _ _ _)⟩
  next hskip =>
    rw [hskip]
    exact ⟨fun h => (by cases h), fun h => absurd h.1 (readValue_container_ne (.inr rfl) _ _ _ _ _)⟩
  next =>
    rw [Traversal.bind_eq_ok_iff]
    constructor
    · rintro ⟨⟨value, rest⟩, hvalue, htag⟩
      split at htag
      next heq =>
        cases heq
        split at htag
        next hmem =>
          cases htag
          exact ⟨hvalue, List.contains_iff_mem.mp hmem⟩
        next => cases htag
      next => cases htag
    · rintro ⟨hvalue, hmem⟩
      refine ⟨_, hvalue, ?_⟩
      dsimp only
      rw [if_pos (List.contains_iff_mem.mpr hmem)]
      rfl

/-- `TakesTag tags before all after members`: taking the tag out of `all` leaves `members`, where
`before` and `after` are the tags found before and after. -/
inductive TakesTag (tags : List String) :
    Option String → List (String × Value) → Option String → List (String × Value) → Prop
  | nil (before : Option String) : TakesTag tags before [] before []
  /-- A tag is taken if it is known and none has been found. -/
  | tag {tag : String} {all members : List (String × Value)} {after : Option String}
      (hmem : tag ∈ tags) (h : TakesTag tags (some tag) all after members) :
      TakesTag tags none ((tagName, .string tag) :: all) after members
  /-- A member of another name is left. -/
  | other {name : String} {value : Value} {all members : List (String × Value)}
      {before after : Option String} (hname : name ≠ tagName)
      (h : TakesTag tags before all after members) :
      TakesTag tags before ((name, value) :: all) after ((name, value) :: members)

section TakesTag

variable {tags : List String} {tag : String} {all members : List (String × Value)}
  {after : Option String}

/-- Once a tag has been found, no other may follow. -/
theorem takesTag_some_iff : TakesTag tags (some tag) all after members ↔
    membersOf tagName all = [] ∧ after = some tag ∧ members = all := by
  constructor
  · -- the induction needs a variable in place of the tag that was found
    generalize hbefore : some tag = before
    intro h
    induction h with
    | nil => exact ⟨rfl, rfl, rfl⟩
    | tag => cases hbefore
    | other hname _ ih =>
      obtain ⟨hnone, hafter, rfl⟩ := ih hbefore
      exact ⟨(membersOf_cons_of_ne hname _).trans hnone, hafter, rfl⟩
  · rintro ⟨hnone, rfl, rfl⟩
    induction members with
    | nil => exact .nil _
    | cons member members ih =>
      have hname : member.1 ≠ tagName := by
        simpa using List.filter_eq_nil_iff.mp hnone member List.mem_cons_self
      rw [membersOf_cons_of_ne hname] at hnone
      exact .other hname (ih hnone)

/-- A tag is found iff it is the only member named `tagName` and is in `tags`; the other members are
left. -/
theorem takesTag_none_iff : TakesTag tags none all (some tag) members ↔
    membersOf tagName all = [(tagName, .string tag)] ∧ tag ∈ tags ∧ members = contentOf all := by
  constructor
  · generalize hbefore : none = before
    generalize hafter : some tag = after
    intro h
    induction h with
    | nil => rw [← hbefore] at hafter; cases hafter
    | tag hmem h =>
      obtain ⟨hnone, hfound, rfl⟩ := takesTag_some_iff.mp h
      rw [← hafter, Option.some.injEq] at hfound
      rw [membersOf_cons_self, hnone, contentOf_cons_tag, contentOf_eq_self hnone, hfound]
      exact ⟨rfl, hmem, rfl⟩
    | other hname _ ih =>
      obtain ⟨htag, hmem, rfl⟩ := ih hbefore hafter
      exact ⟨(membersOf_cons_of_ne hname _).trans htag, hmem, (contentOf_cons_of_ne hname _).symm⟩
  · rintro ⟨htag, hmem, rfl⟩
    induction all with
    | nil => cases htag
    | cons member all ih =>
      by_cases hname : member.1 = tagName
      · obtain ⟨name, value⟩ := member
        obtain rfl : name = tagName := hname
        rw [membersOf_cons_self] at htag
        obtain ⟨hvalue, hnone⟩ := List.cons.inj htag
        cases hvalue
        rw [contentOf_cons_tag, contentOf_eq_self hnone]
        exact .tag hmem (takesTag_some_iff.mpr ⟨hnone, rfl, rfl⟩)
      · rw [membersOf_cons_of_ne hname] at htag
        rw [contentOf_cons_of_ne hname]
        exact .other hname (ih htag)

end TakesTag

section Tagged

variable {tags : List String} {depth fuel : Nat} {first : Bool} {name tag : String}
  {before after : Option String} {members : List (String × Value)} {cs rest r : List Char}

theorem readTaggedMembers_end (h : nextName first cs = .ok (none, rest)) :
    readTaggedMembers tags depth first before (fuel + 1) cs = .ok ((before, []), rest) := by
  rw [readTaggedMembers, h]
  rfl

/-- `readTaggedMembers` at a member that is not named `tagName`: the value is read and kept. -/
theorem readTaggedMembers_other_eq_ok_iff (h : nextName first cs = .ok (some name, rest))
    (hname : name ≠ tagName) :
    readTaggedMembers tags depth first before (fuel + 1) cs = .ok ((after, members), r) ↔
      ∃ rest₁ value rest₂ members', readColon rest = .ok rest₁ ∧
        readValue depth fuel rest₁ = .ok (value, rest₂) ∧
        readTaggedMembers tags depth false before fuel rest₂ = .ok ((after, members'), r) ∧
        members = (name, value) :: members' := by
  rw [readTaggedMembers, h, Traversal.ok_bind]
  dsimp only
  rw [if_neg hname]
  constructor
  · intro hread
    obtain ⟨rest₁, hcolon, hread⟩ := Traversal.bind_eq_ok_iff.mp hread
    obtain ⟨⟨value, rest₂⟩, hvalue, hread⟩ := Traversal.bind_eq_ok_iff.mp hread
    obtain ⟨⟨⟨after', members'⟩, r'⟩, hmembers, hread⟩ := Traversal.bind_eq_ok_iff.mp hread
    cases hread
    exact ⟨rest₁, value, rest₂, members', hcolon, hvalue, hmembers, rfl⟩
  · rintro ⟨rest₁, value, rest₂, members', hcolon, hvalue, hmembers, rfl⟩
    simp only [hcolon, Traversal.ok_bind, hvalue, hmembers]
    rfl

/-- `readTaggedMembers` at a member named `tagName`: no tag has been found, and a known one is
read. -/
theorem readTaggedMembers_tag_eq_ok_iff (h : nextName first cs = .ok (some tagName, rest)) :
    readTaggedMembers tags depth first before (fuel + 1) cs = .ok ((after, members), r) ↔
      before = none ∧ ∃ rest₁ tag rest₂, readColon rest = .ok rest₁ ∧
        readTag tags depth fuel rest₁ = .ok (tag, rest₂) ∧
        readTaggedMembers tags depth false (some tag) fuel rest₂ = .ok ((after, members), r) := by
  rw [readTaggedMembers, h, Traversal.ok_bind]
  dsimp only
  rw [if_pos rfl]
  cases before with
  | some tag =>
    exact ⟨fun h => (by cases h), fun h => (by cases h.1)⟩
  | none =>
    constructor
    · intro hread
      obtain ⟨rest₁, hcolon, hread⟩ := Traversal.bind_eq_ok_iff.mp hread
      obtain ⟨⟨tag, rest₂⟩, htag, hread⟩ := Traversal.bind_eq_ok_iff.mp hread
      exact ⟨rfl, rest₁, tag, rest₂, hcolon, htag, hread⟩
    · rintro ⟨-, rest₁, tag, rest₂, hcolon, htag, hread⟩
      simp only [hcolon, Traversal.ok_bind, htag]
      exact hread

/-- `readTaggedMembers` succeeds iff `readMembers` does and the tag can be taken out
(`TakesTag`). -/
theorem readTaggedMembers_eq_ok_iff :
    readTaggedMembers tags depth first before fuel cs = .ok ((after, members), r) ↔
      ∃ all, readMembers depth first fuel cs = .ok (all, r) ∧
        TakesTag tags before all after members := by
  induction fuel generalizing first before cs members with
  | zero =>
    constructor
    · intro h
      cases h
    · rintro ⟨_, h, -⟩
      cases h
  | succ fuel ih =>
    cases hfound : nextName first cs with
    | error e =>
      rw [readTaggedMembers, readMembers, hfound]
      constructor
      · intro h
        cases h
      · rintro ⟨_, h, -⟩
        cases h
    | ok found =>
      obtain ⟨found, rest⟩ := found
      cases found with
      | none =>
        rw [readTaggedMembers_end hfound, readMembers_end hfound]
        constructor
        · intro h
          cases h
          exact ⟨[], rfl, .nil _⟩
        · rintro ⟨_, hall, htakes⟩
          cases hall
          cases htakes
          rfl
      | some name =>
        -- up to the value both readers take the same steps; then the name decides
        simp only [readMembers_next_eq_ok_iff hfound]
        by_cases hname : name = tagName
        · subst hname
          simp only [readTaggedMembers_tag_eq_ok_iff hfound, readTag_eq_ok_iff, ih]
          constructor
          · rintro ⟨rfl, rest₁, tag, rest₂, hcolon, ⟨hvalue, hmem⟩, all, hall, htakes⟩
            exact ⟨_, ⟨rest₁, _, rest₂, all, hcolon, hvalue, hall, rfl⟩, .tag hmem htakes⟩
          · rintro ⟨_, ⟨rest₁, value, rest₂, all, hcolon, hvalue, hall, rfl⟩, htakes⟩
            cases htakes with
            | tag hmem htakes =>
              exact ⟨rfl, rest₁, _, rest₂, hcolon, ⟨hvalue, hmem⟩, all, hall, htakes⟩
            | other hname => exact absurd rfl hname
        · simp only [readTaggedMembers_other_eq_ok_iff hfound hname, ih]
          constructor
          · rintro ⟨rest₁, value, rest₂, members', hcolon, hvalue, ⟨all, hall, htakes⟩, rfl⟩
            exact ⟨_, ⟨rest₁, value, rest₂, all, hcolon, hvalue, hall, rfl⟩, .other hname htakes⟩
          · rintro ⟨_, ⟨rest₁, value, rest₂, all, hcolon, hvalue, hall, rfl⟩, htakes⟩
            cases htakes with
            | tag => exact absurd rfl hname
            | other _ htakes =>
              exact ⟨rest₁, value, rest₂, _, hcolon, hvalue, ⟨all, hall, htakes⟩, rfl⟩

/-- `readTagged` succeeds on an object iff `readMembers` does and there is exactly one tag, out of
`tags`; the content is the other members. -/
theorem readTagged_object_eq_ok_iff {kind : String} {tagged : Tagged}
    (h : skipBlanks cs = '\x7b' :: rest) :
    readTagged kind tags cs = .ok (tagged, r) ↔
      ∃ all, readMembers (depthLimit - 1) true (fuelFor cs) rest = .ok (all, r) ∧
        membersOf tagName all = [(tagName, .string tagged.tag)] ∧ tagged.tag ∈ tags ∧
        tagged.content = .object (contentOf all) := by
  obtain ⟨tag, content⟩ := tagged
  rw [readTagged, h]
  constructor
  · intro hread
    obtain ⟨⟨⟨found, members⟩, rest'⟩, hmembers, hread⟩ := Traversal.bind_eq_ok_iff.mp hread
    cases found with
    | none => cases hread
    | some found =>
      cases hread
      obtain ⟨all, hall, htakes⟩ := readTaggedMembers_eq_ok_iff.mp hmembers
      obtain ⟨htag, hmem, rfl⟩ := takesTag_none_iff.mp htakes
      exact ⟨all, hall, htag, hmem, rfl⟩
  · rintro ⟨all, hall, htag, hmem, hcontent⟩
    obtain rfl : content = .object (contentOf all) := hcontent
    have hmembers := readTaggedMembers_eq_ok_iff.mpr
      ⟨all, hall, takesTag_none_iff.mpr ⟨htag, hmem, rfl⟩⟩
    exact Traversal.bind_eq_ok_iff.mpr ⟨_, hmembers, rfl⟩

end Tagged

end Fanout.Json
