import Fanout.Proofs.Worker.Members
import Mathlib.Data.List.Perm.Basic

/-!
# Lines of other writers

`lines_understood`: requests and responses are decoded from every JSON object text that gives their
members, in any order, with any blanks and escapes and with further members, and no object text is
decoded that lacks a required member, repeats one, or has an index that is no 64-bit decimal.

The depth of further members is limited, and they are read one level below that limit.
-/

namespace Fanout

namespace Json

/-! ## Documents -/

theorem isBlank_text {c : Char} (h : isBlank c = true) : Text.isBlank c = true := by
  rcases isBlank_iff.mp h with rfl | rfl | rfl | rfl <;> decide

variable {α : Type} {tags : List String} {make : Tagged → Except Mismatch α}
  {members : List RawMember} {line : String} {message : α}

/-- `readTagged` succeeds on an object text iff its members can be read (`ReadsMember`) and exactly
one of them is named `tagName`, with the text `tagged.tag` out of `tags`; the content is the other
members. -/
theorem readTagged_eq_ok_iff {text : List Char} (h : ObjectText members text) (kind : String)
    {tagged : Tagged} {r : List Char} :
    readTagged kind tags (Text.trimEnd text) = .ok (tagged, r) ↔
      ∃ read, List.Forall₂ (ReadsMember (depthLimit - 1)) members read ∧
        membersOf tagName read = [(tagName, .string tagged.tag)] ∧ tagged.tag ∈ tags ∧
        tagged.content = .object (contentOf read) ∧ r = [] := by
  obtain @⟨before, text, after, hbefore, hafter, htext, hnames, hvalues⟩ := h
  have htrim : Text.trimEnd (before ++ '\x7b' :: text ++ '\x7d' :: after) =
      before ++ '\x7b' :: (text ++ ['\x7d']) := by
    rw [List.append_cons _ '\x7d' after,
      Text.trimEnd_append fun c hc => isBlank_text (hafter c hc), Text.trimEnd_concat (by decide),
      List.append_assoc, List.cons_append]
  have hskip : skipBlanks (before ++ '\x7b' :: (text ++ ['\x7d'])) =
      '\x7b' :: (text ++ ['\x7d']) := by
    rw [skipBlanks_append hbefore, skipBlanks_cons (by decide)]
  have hfuel : text.length < fuelFor (before ++ '\x7b' :: (text ++ ['\x7d'])) := by
    simp only [fuelFor, List.length_append, List.length_cons]
    omega
  -- the values are settled, so the members are read one by one
  have hread {read : List (String × Value)} :
      readMembers (depthLimit - 1) true (fuelFor (before ++ '\x7b' :: (text ++ ['\x7d'])))
          (text ++ ['\x7d']) = .ok (read, r) ↔
        List.Forall₂ (ReadsMember (depthLimit - 1)) members read ∧ r = [] :=
    htext.read_iff (readsRows_members hnames fun member hmember =>
      (hvalues member hmember).settled (depthLimit - 1)) hfuel
  simp only [htrim, readTagged_object_eq_ok_iff hskip, hread]
  constructor
  · rintro ⟨read, ⟨hmembers, hr⟩, htag, hmem, hcontent⟩
    exact ⟨read, hmembers, htag, hmem, hcontent, hr⟩
  · rintro ⟨read, hmembers, htag, hmem, hcontent, hr⟩
    exact ⟨read, ⟨hmembers, hr⟩, htag, hmem, hcontent⟩

/-- `readLine` returns a message iff the members can be read, they have exactly one tag, out of
`tags`, and `make` returns the message for the other members. -/
theorem readLine_eq_ok_iff (h : ObjectText members line.toList) (kind : String) :
    readLine kind tags make line = .ok message ↔
      ∃ read tag, List.Forall₂ (ReadsMember (depthLimit - 1)) members read ∧
        membersOf tagName read = [(tagName, .string tag)] ∧ tag ∈ tags ∧
        make ⟨tag, .object (contentOf read)⟩ = .ok message := by
  rw [readLine, Traversal.bind_eq_ok_iff]
  constructor
  · rintro ⟨⟨⟨tag, content⟩, r⟩, hread, hmake⟩
    obtain ⟨read, hmembers, htag, hmem, rfl, rfl⟩ := (readTagged_eq_ok_iff h kind).mp hread
    obtain ⟨message', hmessage, hfinish⟩ := Traversal.bind_eq_ok_iff.mp hmake
    cases hfinish
    exact ⟨read, tag, hmembers, htag, hmem, Traversal.mapError_eq_ok_iff.mp hmessage⟩
  · rintro ⟨read, tag, hmembers, htag, hmem, hmake⟩
    refine ⟨(⟨tag, .object (contentOf read)⟩, []),
      (readTagged_eq_ok_iff h kind).mpr ⟨read, hmembers, htag, hmem, rfl, rfl⟩, ?_⟩
    simp only [hmake, Traversal.mapError_ok]
    rfl

/-! ## Members, as they are written -/

/-- The spelling of the member's name decodes to `name`. -/
def RawMember.Named (member : RawMember) (name : String) : Prop :=
  Spells member.name name.toList

/-- `Gives (name, value) member`: the member spells the name and the value, where the value is a
text in any spelling or the decimal digits of an index. -/
inductive Gives : String × Value → RawMember → Prop
  | text {name s : String} {spelling body : List Char} (hname : Spells spelling name.toList)
      (h : Spells body s.toList) : Gives (name, .string s) ⟨spelling, '"' :: body ++ ['"']⟩
  | decimal {name : String} {spelling : List Char} (hname : Spells spelling name.toList)
      (n : UInt64) : Gives (name, .integer n.toNat) ⟨spelling, Nat.toDigits 10 n.toNat⟩

/-- A member whose name is not in `names` and whose value can be read one level below the limit. -/
def Further (names : List String) (member : RawMember) : Prop :=
  ∃ read, ReadsMember (depthLimit - 1) member read ∧ read.1 ∉ names

/-- The members include the tag of `message`. -/
def Typed (tag : α → String) (members : List RawMember) (message : α) : Prop :=
  ∃ member ∈ members, Gives (tagName, .string (tag message)) member

/-- An object text is faulty. `tag` and `fields` are the tag and the members of each message. -/
inductive Faulty (tag : α → String) (fields : α → List (String × Value))
    (members : List RawMember) : Prop
  /-- No member is named `tagName`. -/
  | untyped (h : ∀ member ∈ members, ¬ member.Named tagName)
  /-- A member that the tag requires does not occur. -/
  | missing (message : α) (htype : Typed tag members message) {field : String × Value}
      (hfield : field ∈ fields message) (h : ∀ member ∈ members, ¬ member.Named field.1)
  /-- The tag, or a member that it requires, occurs twice. -/
  | repeated (message : α) (htype : Typed tag members message) {field : String × Value}
      (hfield : field ∈ (tagName, .string (tag message)) :: fields message)
      {first second : RawMember} (h : [first, second].Sublist members)
      (hfirst : first.Named field.1) (hsecond : second.Named field.1)
  /-- A required `index` is not the decimal digits of a number below `2 ^ 64`. -/
  | index (message : α) (htype : Typed tag members message) {value : Value}
      (hfield : ("index", value) ∈ fields message) {member : RawMember} (hmember : member ∈ members)
      (hname : member.Named "index") (h : ∀ n < Nat.pow 2 64, member.value ≠ Nat.toDigits 10 n)

/-- `decode` accepts the object texts that give a message and rejects the faulty ones. -/
structure Understands (decode : String → Except ReadError α) (tag : α → String)
    (fields : α → List (String × Value)) : Prop where
  /-- An object text whose members are a permutation of the members of `message` and of further ones
  decodes to `message`. -/
  accepts {message : α} {line : String} {members given further : List RawMember}
    (h : ObjectText members line.toList) (horder : members.Perm (given ++ further))
    (hgiven : List.Forall₂ Gives ((tagName, .string (tag message)) :: fields message) given)
    (hfurther : ∀ member ∈ further, Further (tagName :: (fields message).map Prod.fst) member) :
    decode line = .ok message
  /-- A faulty object text is rejected. -/
  rejects {line : String} {members : List RawMember} (h : ObjectText members line.toList)
    (hfault : Faulty tag fields members) : ∃ e, decode line = .error e

/-! ## Members, as they are read -/

theorem Reads.string {body : List Char} {s : String} (h : Spells body s.toList) (depth : Nat) :
    Reads depth ('"' :: body ++ ['"']) (.string s) :=
  (readsIff_string h.bodyText depth).reads_iff.mpr ⟨s, rfl, h⟩

theorem numberText_toDigits (n : Nat) : NumberText (Nat.toDigits 10 n) := by
  have h := NumberText.mk (.inl rfl) n .none .none
  rwa [List.nil_append, List.append_nil, List.append_nil] at h

theorem Reads.decimal (n : UInt64) (depth : Nat) :
    Reads depth (Nat.toDigits 10 n.toNat) (.integer n.toNat) :=
  (ValueText.number (numberText_toDigits _)).reads_integer_iff.mpr ⟨rfl, n.toNat_lt⟩

/-- A member that gives `read` is read as `read` at any depth. -/
theorem Gives.readsMember {read : String × Value} {member : RawMember} (h : Gives read member)
    (depth : Nat) : ReadsMember depth member read := by
  cases h with
  | text hname h => exact ⟨hname, .string h depth⟩
  | decimal hname n => exact ⟨hname, .decimal n depth⟩

/-- A member that gives a name and a value has a valid name and a valid value. -/
theorem Gives.text_of {read : String × Value} {member : RawMember} (h : Gives read member) :
    BodyText member.name ∧ ValueText member.value := by
  cases h with
  | text hname h => exact ⟨hname.bodyText, .string h.bodyText⟩
  | decimal hname n => exact ⟨hname.bodyText, .number (numberText_toDigits _)⟩

theorem ReadsMember.name_eq {depth : Nat} {member : RawMember} {read : String × Value}
    (h : ReadsMember depth member read) {name : String} (hname : member.Named name) :
    read.1 = name :=
  String.toList_injective (h.1.unique hname)

/-- The members of an object text have valid values. -/
theorem ObjectText.valueText {text : List Char} (h : ObjectText members text) :
    ∀ member ∈ members, ValueText member.value := by
  obtain @⟨_, _, _, -, -, -, -, hvalues⟩ := h
  exact hvalues

section Relations

variable {β γ : Type} {R : β → γ → Prop} {l s : List β} {l' : List γ}

/-- `List.Forall₂ R` restricts to a sublist of its first list. -/
theorem exists_sublist_of_forall₂ (h : List.Forall₂ R l l') (hs : s.Sublist l) :
    ∃ s', s'.Sublist l' ∧ List.Forall₂ R s s' := by
  induction hs generalizing l' with
  | slnil => exact ⟨[], List.nil_sublist _, .nil⟩
  | cons a _ ih =>
    cases h with
    | cons _ h =>
      obtain ⟨s', hs', hrel⟩ := ih h
      exact ⟨s', hs'.cons _, hrel⟩
  | cons_cons a _ ih =>
    cases h with
    | cons ha h =>
      obtain ⟨s', hs', hrel⟩ := ih h
      exact ⟨_ :: s', hs'.cons_cons _, .cons ha hrel⟩

theorem exists_mem_of_forall₂ (h : List.Forall₂ R l l') {b : β} (hb : b ∈ l) :
    ∃ c ∈ l', R b c := by
  obtain ⟨s', hs', hrel⟩ := exists_sublist_of_forall₂ h (List.singleton_sublist.mpr hb)
  cases hrel with
  | cons hc hnil =>
    cases hnil
    exact ⟨_, List.singleton_sublist.mp hs', hc⟩

/-- If every element of a list is related to some `c`, the list is related to some list of the same
length. -/
theorem exists_forall₂_of_forall (h : ∀ b ∈ l, ∃ c, R b c) : ∃ l', List.Forall₂ R l l' := by
  induction l with
  | nil => exact ⟨[], .nil⟩
  | cons b l ih =>
    obtain ⟨c, hc⟩ := h b List.mem_cons_self
    obtain ⟨l', hl⟩ := ih fun b hb => h b (List.mem_cons_of_mem _ hb)
    exact ⟨c :: l', .cons hc hl⟩

end Relations

/-- A member named `name` is read as an element of `membersOf name`. -/
theorem exists_mem_membersOf {depth : Nat} {read : List (String × Value)}
    (h : List.Forall₂ (ReadsMember depth) members read) {member : RawMember}
    (hmember : member ∈ members) {name : String} (hname : member.Named name) :
    ∃ value, (name, value) ∈ membersOf name read ∧ Reads depth member.value value := by
  obtain ⟨⟨name', value⟩, hmem, hreads⟩ := exists_mem_of_forall₂ h hmember
  obtain rfl : name' = name := hreads.name_eq hname
  exact ⟨value, mem_membersOf_iff.mpr hmem, hreads.2⟩

/-- Two members named `name` are read as two elements of `membersOf name`. -/
theorem two_le_length_membersOf {depth : Nat} {read : List (String × Value)}
    (h : List.Forall₂ (ReadsMember depth) members read) {first second : RawMember}
    (hsub : [first, second].Sublist members) {name : String} (hfirst : first.Named name)
    (hsecond : second.Named name) : 2 ≤ (membersOf name read).length := by
  obtain ⟨_, hsub, hrel⟩ := exists_sublist_of_forall₂ h hsub
  obtain ⟨a, _, ha, hrest, rfl⟩ := List.forall₂_cons_left_iff.mp hrel
  obtain ⟨b, _, hb, hnil, rfl⟩ := List.forall₂_cons_left_iff.mp hrest
  obtain rfl := List.forall₂_nil_left_iff.mp hnil
  have hboth : membersOf name [a, b] = [a, b] := by
    simp [membersOf, ha.name_eq hfirst, hb.name_eq hsecond]
  have hle := (hsub.filter fun member => member.1 = name).length_le
  rwa [← membersOf, hboth] at hle

/-! ## Messages -/

/-- `make` builds a message from the members `fields message`, ignoring members of other names. -/
structure Makes (tags : List String) (make : Tagged → Except Mismatch α) (tag : α → String)
    (fields : α → List (String × Value)) : Prop where
  tag_mem (message : α) : tag message ∈ tags
  plain (message : α) : Plain (fields message)
  nodup (message : α) : ((fields message).map Prod.fst).Nodup
  /-- `make` returns `message` if each of its fields is the only member of its name. -/
  makes (message : α) {read : List (String × Value)}
    (h : ∀ field ∈ fields message, membersOf field.1 read = [field]) :
    make ⟨tag message, .object read⟩ = .ok message
  /-- If `make` succeeds under the tag of `message`, each field of `message` occurs once. -/
  made (message : α) {read : List (String × Value)} {result : α}
    (h : make ⟨tag message, .object read⟩ = .ok result) :
    ∀ field ∈ fields message, Once field.1 read

namespace Makes

variable {tag : α → String} {fields : α → List (String × Value)}

theorem ne_tagName (h : Makes tags make tag fields) {field : String × Value}
    (hfield : field ∈ fields message) : field.1 ≠ tagName :=
  (h.plain message field hfield).2

/-- The members of a text that gives `message` are read as the tag and the fields of `message`, each
the only one of its name. -/
theorem exists_read (h : Makes tags make tag fields) {given further : List RawMember}
    (horder : members.Perm (given ++ further))
    (hgiven : List.Forall₂ Gives ((tagName, .string (tag message)) :: fields message) given)
    (hfurther : ∀ member ∈ further, Further (tagName :: (fields message).map Prod.fst) member) :
    ∃ read, List.Forall₂ (ReadsMember (depthLimit - 1)) members read ∧
      ∀ field ∈ (tagName, .string (tag message)) :: fields message,
        membersOf field.1 read = [field] := by
  obtain ⟨others, hothers⟩ := exists_forall₂_of_forall hfurther
  -- the parts are read as the message and the others, and the order of both is changed alike
  have hparts : List.Forall₂ (ReadsMember (depthLimit - 1)) (given ++ further)
      ((tagName, .string (tag message)) :: fields message ++ others) :=
    List.rel_append (hgiven.flip.imp fun _ _ h => h.readsMember _) (hothers.imp fun _ _ h => h.1)
  obtain ⟨read, hread, hperm⟩ := List.perm_comp_forall₂ horder hparts
  refine ⟨read, hread, fun field hfield => ?_⟩
  have hnames : (((tagName, .string (tag message)) :: fields message).map Prod.fst).Nodup := by
    refine List.nodup_cons.mpr ⟨fun hmem => ?_, h.nodup message⟩
    obtain ⟨field, hfield, hname⟩ := List.mem_map.mp hmem
    exact h.ne_tagName hfield hname
  -- a further member has none of the names, so it is not counted
  have hnone : membersOf field.1 others = [] := by
    refine membersOf_eq_nil fun member hmember hname => ?_
    obtain ⟨-, -, -, hnew⟩ := exists_mem_of_forall₂ hothers.flip hmember
    exact hnew (hname ▸ List.mem_map_of_mem hfield)
  have hall : (membersOf field.1 read).Perm (membersOf field.1 _) := hperm.filter _
  rw [membersOf_append, membersOf_eq_singleton hfield hnames, hnone, List.append_nil] at hall
  exact List.perm_singleton.mp hall

theorem accepts (h : Makes tags make tag fields) (kind : String)
    (hdocument : ObjectText members line.toList) {given further : List RawMember}
    (horder : members.Perm (given ++ further))
    (hgiven : List.Forall₂ Gives ((tagName, .string (tag message)) :: fields message) given)
    (hfurther : ∀ member ∈ further, Further (tagName :: (fields message).map Prod.fst) member) :
    readLine kind tags make line = .ok message := by
  obtain ⟨read, hread, hfields⟩ := h.exists_read horder hgiven hfurther
  refine (readLine_eq_ok_iff hdocument kind).mpr
    ⟨read, tag message, hread, hfields _ List.mem_cons_self, h.tag_mem message, ?_⟩
  refine h.makes message fun field hfield => ?_
  rw [membersOf_contentOf (h.ne_tagName hfield)]
  exact hfields field (List.mem_cons_of_mem _ hfield)

/-- If a text with the tag of `message` decodes, the tag and each field of `message` occur once. -/
theorem once (h : Makes tags make tag fields) {read : List (String × Value)}
    (hread : List.Forall₂ (ReadsMember (depthLimit - 1)) members read) {found : String}
    (hfound : membersOf tagName read = [(tagName, .string found)]) {result : α}
    (hmake : make ⟨found, .object (contentOf read)⟩ = .ok result)
    (htype : Typed tag members message) {field : String × Value}
    (hfield : field ∈ (tagName, .string (tag message)) :: fields message) : Once field.1 read := by
  -- the type that is read is the one that is written
  obtain ⟨typeMember, hmember, htag⟩ := htype
  obtain ⟨hname, hvalue⟩ := htag.readsMember (depthLimit - 1)
  obtain ⟨value, hmem, hvalue'⟩ := exists_mem_membersOf hread hmember hname
  rw [hvalue'.unique hvalue, hfound, List.mem_singleton, Prod.mk.injEq, Value.string.injEq] at hmem
  obtain ⟨-, rfl⟩ := hmem
  rcases List.mem_cons.mp hfield with rfl | hfield
  · exact ⟨_, hfound, fun hindex => absurd hindex (show tagName ≠ "index" by decide)⟩
  · obtain ⟨value, hvalue, hindex⟩ := h.made message hmake field hfield
    rw [membersOf_contentOf (h.ne_tagName hfield)] at hvalue
    exact ⟨value, hvalue, hindex⟩

/-- A text that decodes is not `Faulty`. -/
theorem not_faulty (h : Makes tags make tag fields) {text : List Char}
    (hdocument : ObjectText members text) {read : List (String × Value)}
    (hread : List.Forall₂ (ReadsMember (depthLimit - 1)) members read) {found : String}
    (hfound : membersOf tagName read = [(tagName, .string found)]) {result : α}
    (hmake : make ⟨found, .object (contentOf read)⟩ = .ok result) :
    ¬ Faulty tag fields members := by
  have hnamed {name : String} {value : Value} (hmem : (name, value) ∈ read) :
      ∃ member ∈ members, member.Named name := by
    obtain ⟨member, hmember, hreads⟩ := exists_mem_of_forall₂ hread.flip hmem
    exact ⟨member, hmember, hreads.1⟩
  -- each fault contradicts that every field of the type was read once, and the index as an integer
  intro hfault
  cases hfault with
  | untyped hnone =>
    have hmem : (tagName, .string found) ∈ membersOf tagName read := hfound ▸ List.mem_cons_self
    obtain ⟨member, hmember, hname⟩ := hnamed (mem_membersOf_iff.mp hmem)
    exact hnone member hmember hname
  | @missing message htype field hfield hnone =>
    obtain ⟨value, hvalue, -⟩ := h.once hread hfound hmake htype
      (List.mem_cons_of_mem _ hfield)
    have hmem : (field.1, value) ∈ membersOf field.1 read := hvalue ▸ List.mem_cons_self
    obtain ⟨member, hmember, hname⟩ := hnamed (mem_membersOf_iff.mp hmem)
    exact hnone member hmember hname
  | @repeated message htype field hfield first second hsub hfirst hsecond =>
    obtain ⟨value, hvalue, -⟩ := h.once hread hfound hmake htype hfield
    have htwo := two_le_length_membersOf hread hsub hfirst hsecond
    rw [hvalue, List.length_singleton] at htwo
    omega
  | @index message htype value hfield member hmember hname hdecimal =>
    obtain ⟨value, hvalue, hindex⟩ := h.once hread hfound hmake htype
      (List.mem_cons_of_mem _ hfield)
    obtain ⟨n, rfl⟩ := hindex rfl
    obtain ⟨value', hmem, hreads⟩ := exists_mem_membersOf hread hmember hname
    rw [hvalue, List.mem_singleton, Prod.mk.injEq] at hmem
    obtain ⟨-, rfl⟩ := hmem
    -- of all values only a decimal of 64 bits is read as an integer without a sign
    obtain ⟨htext, hn⟩ := (hdocument.valueText member hmember).reads_integer_iff.mp hreads
    exact hdecimal n hn htext

theorem understands (h : Makes tags make tag fields) (kind : String) :
    Understands (readLine kind tags make) tag fields where
  accepts hdocument horder hgiven hfurther := h.accepts kind hdocument horder hgiven hfurther
  rejects {line members} hdocument hfault := by
    cases hresult : readLine kind tags make line with
    | error e => exact ⟨e, rfl⟩
    | ok result =>
      obtain ⟨read, found, hread, hfound, -, hmake⟩ :=
        (readLine_eq_ok_iff hdocument kind).mp hresult
      exact absurd hfault (h.not_faulty hdocument hread hfound hmake)

end Makes

end Json

/-- `Request.decode` builds requests from their members. -/
theorem Request.makes : Json.Makes ["call", "shutdown"]
    (fun tagged =>
      if tagged.tag = "call" then tagged.content.toEnvelope.map call
      else tagged.content.toNothing.map fun _ => shutdown) tag members where
  tag_mem request := by
    cases request with
    | call => exact List.mem_cons_self
    | shutdown => exact List.mem_cons_of_mem _ List.mem_cons_self
  plain := plain_members
  nodup request := by
    cases request with
    | call =>
      show ["index", "function", "state", "input"].Nodup
      decide
    | shutdown => exact List.nodup_nil
  makes request read h := by
    cases request with
    | shutdown => rfl
    | call envelope =>
      simp only [members, Envelope.members, List.forall_mem_cons] at h
      obtain ⟨hindex, hfunction, hstate, hinput, -⟩ := h
      have henvelope : (Json.Value.object read).toEnvelope = .ok envelope :=
        Json.Value.toEnvelope_eq_ok_iff.mpr ⟨.of_eq hindex (Json.toIndex_toNat _),
          .of_eq hfunction rfl, .of_eq hstate (Json.toPayload_toText _),
          .of_eq hinput (Json.toPayload_toText _)⟩
      rw [tag, if_pos rfl, henvelope]
      rfl
  made request read result h := by
    cases request with
    | shutdown => exact fun field hfield => (by cases hfield)
    | call envelope =>
      rw [tag, if_pos rfl] at h
      obtain ⟨envelope', henvelope, -⟩ := Traversal.map_eq_ok_iff.mp h
      obtain ⟨hindex, hfunction, hstate, hinput⟩ := Json.Value.toEnvelope_eq_ok_iff.mp henvelope
      simp only [members, Envelope.members, List.forall_mem_cons]
      exact ⟨hindex.once_index, hfunction.once (by decide), hstate.once (by decide),
        hinput.once (by decide), fun field hfield => (by cases hfield)⟩

/-- `Response.decode` builds responses from their members. -/
theorem Response.makes : Json.Makes ["completed", "failed"]
    (fun tagged =>
      if tagged.tag = "completed" then tagged.content.toCompleted else tagged.content.toFailed)
    tag members where
  tag_mem response := by
    cases response with
    | completed => exact List.mem_cons_self
    | failed => exact List.mem_cons_of_mem _ List.mem_cons_self
  plain := plain_members
  nodup response := by
    cases response with
    | completed =>
      show ["index", "output"].Nodup
      decide
    | failed =>
      show ["index", "kind", "message"].Nodup
      decide
  makes response read h := by
    cases response with
    | completed index output =>
      simp only [members, List.forall_mem_cons] at h
      obtain ⟨hindex, houtput, -⟩ := h
      rw [tag, if_pos rfl]
      exact Json.Value.toCompleted_eq_ok_iff.mpr ⟨index, output, rfl,
        .of_eq hindex (Json.toIndex_toNat _), .of_eq houtput (Json.toPayload_toText _)⟩
    | failed index kind message =>
      simp only [members, List.forall_mem_cons] at h
      obtain ⟨hindex, hkind, hmessage, -⟩ := h
      rw [tag, if_neg (show "failed" ≠ "completed" by decide)]
      exact Json.Value.toFailed_eq_ok_iff.mpr ⟨index, kind, message, rfl,
        .of_eq hindex (Json.toIndex_toNat _), .of_eq hkind (Json.toFailureKind_name _),
        .of_eq hmessage rfl⟩
  made response read result h := by
    cases response with
    | completed index output =>
      rw [tag, if_pos rfl] at h
      obtain ⟨index', output', -, hindex, houtput⟩ := Json.Value.toCompleted_eq_ok_iff.mp h
      simp only [members, List.forall_mem_cons]
      exact ⟨hindex.once_index, houtput.once (by decide), fun field hfield => (by cases hfield)⟩
    | failed index kind message =>
      rw [tag, if_neg (show "failed" ≠ "completed" by decide)] at h
      obtain ⟨index', kind', message', -, hindex, hkind, hmessage⟩ :=
        Json.Value.toFailed_eq_ok_iff.mp h
      simp only [members, List.forall_mem_cons]
      exact ⟨hindex.once_index, hkind.once (by decide), hmessage.once (by decide),
        fun field hfield => (by cases hfield)⟩

/-- `Request.decode` and `Response.decode` accept every JSON object text that gives a message,
whatever its member order, blanks, escapes and further members, and reject every object text that is
`Faulty`. -/
theorem lines_understood : Json.Understands Request.decode Request.tag Request.members ∧
    Json.Understands Response.decode Response.tag Response.members :=
  ⟨Request.makes.understands "WorkerRequest", Response.makes.understands "WorkerResponse"⟩

/-- Members in reverse order, a further member in front and an escaped newline decode; an object
with the type alone does not. -/
theorem lines_understood_reversed :
    Response.decode ("\x7b\"note\":null,\"message\":\"\\n\"," ++
      "\"kind\":\"execution\",\"index\":7,\"type\":\"failed\"\x7d") =
        .ok (.failed 7 .execution "\n") ∧
      ∃ e, Response.decode "\x7b\"type\":\"failed\"\x7d" = .error e := by
  have htype : Json.Gives ("type", .string "failed")
      ⟨"type".toList, '"' :: "failed".toList ++ ['"']⟩ :=
    .text (.self (by simp)) (.self (by simp))
  have hindex : Json.Gives ("index", .integer 7) ⟨"index".toList, ['7']⟩ :=
    .decimal (Json.Spells.self (by simp) : Json.Spells "index".toList _) 7
  have hkind : Json.Gives ("kind", .string "execution")
      ⟨"kind".toList, '"' :: "execution".toList ++ ['"']⟩ :=
    .text (.self (by simp)) (.self (by simp))
  have hmessage : Json.Gives ("message", .string "\n")
      ⟨"message".toList, '"' :: ['\\', 'n'] ++ ['"']⟩ :=
    .text (.self (by simp)) (.short (by decide) .nil)
  have hnote : Json.ReadsMember (Json.depthLimit - 1) ⟨"note".toList, ['n', 'u', 'l', 'l']⟩
      ("note", .null) :=
    ⟨.self (by simp), (Json.readsIff_null _).reads_iff.mpr rfl⟩
  constructor
  · have hgiven := List.Forall₂.cons htype (.cons hindex (.cons hkind (.cons hmessage .nil)))
    -- the line has them from the last to the first, behind the further one
    have hdocument := Json.ObjectText.compact (_ ++ [_]).reverse fun member hmember => by
      rcases List.mem_append.mp (List.mem_reverse.mp hmember) with hmember | hmember
      · obtain ⟨read, -, hgives⟩ := Json.exists_mem_of_forall₂ hgiven.flip hmember
        exact hgives.text_of
      · obtain rfl := List.mem_singleton.mp hmember
        exact ⟨hnote.1.bodyText, .null⟩
    refine lines_understood.2.accepts hdocument (List.reverse_perm _) hgiven
      fun member hmember => ?_
    obtain rfl := List.mem_singleton.mp hmember
    exact ⟨_, hnote, by decide⟩
  · have hdocument := Json.ObjectText.compact [_] fun member hmember => by
      obtain rfl := List.mem_singleton.mp hmember
      exact htype.text_of
    refine lines_understood.2.rejects hdocument (.missing (.failed 7 .execution "\n")
      ⟨_, List.mem_cons_self, htype⟩ List.mem_cons_self ?_)
    intro member hmember hname
    obtain rfl := List.mem_singleton.mp hmember
    exact absurd ((htype.readsMember 0).name_eq hname) (by decide)

end Fanout
