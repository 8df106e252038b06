import Fanout.Yaml.Value

/-!
# Values of YAML nodes

The value of a node does not depend on where it stands, except that the number of references is
limited: a node that has a value after some references has it after fewer
(`Document.thrifty_expand`). So the value under a key of a readable document can be read by itself
(`Document.exists_meaning`).

`Value.Showable` are the values with a JSON form (`Value.isSome_toJson?_iff`).
-/

namespace Fanout.Yaml

/-! ## References that were followed before -/

/-- `f` counts the references that it follows, and has the same value from a lower count. -/
def Thrifty {α : Type} (f : Nat → Option (α × Nat)) : Prop :=
  ∀ used a used', f used = some (a, used') →
    ∀ fewer, fewer ≤ used → ∃ fewer', fewer' ≤ used' ∧ f fewer = some (a, fewer')

namespace Thrifty

variable {α β γ : Type}

/-- A constant is `Thrifty`. -/
theorem of_const (a : Option α) : Thrifty fun used => a.map fun a => (a, used) := by
  intro used b used' h fewer hle
  cases a with
  | none => cases h
  | some a =>
    cases h
    exact ⟨fewer, hle, rfl⟩

theorem bind {f : Nat → Option (α × Nat)} {g : α → Nat → Option (β × Nat)} (hf : Thrifty f)
    (hg : ∀ a, Thrifty (g a)) : Thrifty fun used => (f used).bind fun r => g r.1 r.2 := by
  intro used b used' h fewer hle
  obtain ⟨⟨a, mid⟩, hmid, h⟩ := Option.bind_eq_some_iff.mp h
  obtain ⟨mid', hle', hmid'⟩ := hf used a mid hmid fewer hle
  obtain ⟨fewer', hle'', h'⟩ := hg a mid b used' h mid' hle'
  exact ⟨fewer', hle'', Option.bind_eq_some_iff.mpr ⟨(a, mid'), hmid', h'⟩⟩

/-- `foldlM` of `Thrifty` steps is `Thrifty`. -/
theorem foldlM {f : β × Nat → γ → Option (β × Nat)} {l : List γ}
    (h : ∀ b, ∀ c ∈ l, Thrifty fun used => f (b, used) c) (b : β) :
    Thrifty fun used => l.foldlM f (b, used) := by
  induction l generalizing b with
  | nil => exact of_const (some b)
  | cons c rest ih =>
    obtain ⟨hc, hrest⟩ : (∀ b, Thrifty fun used => f (b, used) c) ∧
        ∀ b, ∀ d ∈ rest, Thrifty fun used => f (b, used) d :=
      ⟨fun b => h b c List.mem_cons_self, fun b d hd => h b d (List.mem_cons_of_mem c hd)⟩
    exact (hc b).bind (ih hrest)

end Thrifty

namespace Document

variable {document : Document}

/-- The number of references in a node itself. -/
def references : Node → Nat
  | .alias _ => 1
  | _ => 0

/-- The value of a node that is no reference. -/
def contents (document : Document) : (depth used : Nat) → Node → Option (Value × Nat)
  | _, used, .scalar text style tag =>
    ((Value.ofScalar? text style tag).map (Value.underTag tag)).map fun value => (value, used)
  | depth + 1, used, .sequence elements tag =>
    (elements.foldlM (fun r element =>
      (document.expand depth r.2 element).bind fun s => some (s.1 :: r.1, s.2)) ([], used)).bind
      fun r => some ((Value.sequence r.1.reverse).underTag tag, r.2)
  | depth + 1, used, .mapping entries tag =>
    (entries.foldlM (fun r entry =>
      (document.expand depth r.2 entry.1).bind fun key =>
        (document.expand depth key.2 entry.2).bind fun value =>
          some ((entry.1.label, key.1, value.1) :: r.1, value.2)) ([], used)).bind
      fun r => some ((Value.mapping r.1.reverse).underTag tag, r.2)
  | _, _, _ => none

/-- `expand` is `contents` of what the node refers to, if the references stay within
`maxReferences`. -/
theorem expand_eq (depth used : Nat) (node : Node) : document.expand depth used node =
    if document.maxReferences < used + references node then none
    else document.contents depth (used + references node) (document.deref node) := by
  unfold expand
  generalize document.deref node = target
  cases node
  all_goals
    cases target with
    | scalar text style tag =>
      dsimp only [references, contents]
      cases Value.ofScalar? text style tag <;> rfl
    | _ => cases depth <;> rfl

/-- `expand` is `Thrifty`. -/
theorem thrifty_expand (depth : Nat) (node : Node) :
    Thrifty fun used => document.expand depth used node := by
  -- the node itself is counted first; only the parts of its contents have less depth left
  have hlift {depth : Nat} (h : ∀ node, Thrifty fun used => document.contents depth used node)
      (node : Node) : Thrifty fun used => document.expand depth used node := by
    intro used value used' hvalue fewer hle
    dsimp only at hvalue ⊢
    rw [expand_eq] at hvalue ⊢
    split at hvalue
    case isTrue => cases hvalue
    case isFalse hlimit =>
      rw [if_neg (by omega)]
      exact h _ _ value used' hvalue _ (by omega)
  refine hlift (fun node => ?_) node
  induction depth generalizing node with
  | zero =>
    cases node with
    | scalar text style tag => exact .of_const ((Value.ofScalar? text style tag).map _)
    | _ => exact .of_const none
  | succ depth ih =>
    have hnode := hlift ih
    cases node with
    | scalar text style tag => exact .of_const ((Value.ofScalar? text style tag).map _)
    | sequence elements tag =>
      have hstep (values : List Value) (element : Node) := (hnode element).bind fun value =>
        .of_const (some (value :: values))
      exact (Thrifty.foldlM (fun values element _ => hstep values element) []).bind fun values =>
        .of_const (some ((Value.sequence values.reverse).underTag tag))
    | mapping entries tag =>
      have hstep (members : List (Option String × Value × Value)) (entry : Node × Node) :=
        (hnode entry.1).bind fun key => (hnode entry.2).bind fun value =>
          .of_const (some ((entry.1.label, key, value) :: members))
      exact (Thrifty.foldlM (fun members entry _ => hstep members entry) []).bind fun members =>
        .of_const (some ((Value.mapping members.reverse).underTag tag))
    | «alias» anchor => exact .of_const none

/-- If `expand` gives a node a value, it gives this value to what the node refers to, from the count
0. -/
theorem exists_expand_deref {depth used : Nat} {node : Node} {r : Value × Nat}
    (h : document.expand depth used node = some r) :
    ∃ used', document.expand depth 0 (document.deref node) = some (r.1, used') := by
  rw [expand_eq] at h
  split at h
  case isTrue => cases h
  case isFalse hlimit =>
    -- what a reference refers to is no reference itself
    have htarget : document.deref (document.deref node) = document.deref node ∧
        references (document.deref node) = 0 := by
      cases htarget : document.deref node with
      | «alias» anchor =>
        rw [htarget] at h
        cases depth <;> cases h
      | _ => exact ⟨rfl, rfl⟩
    have hvalue : document.expand depth (used + references node) (document.deref node) =
        some (r.1, r.2) := by
      rw [expand_eq, htarget.1, htarget.2, Nat.add_zero, if_neg hlimit]
      exact h
    obtain ⟨used', -, hused'⟩ := thrifty_expand depth _ _ _ _ hvalue 0 (Nat.zero_le _)
    exact ⟨used', hused'⟩

/-- The value of a node under a key of the outermost mapping. -/
def meaning (document : Document) (node : Node) : Option Value :=
  (document.expand (maxDepth - 1) 0 (document.deref node)).map Prod.fst

/-- The `meaning` of a scalar is that of its text. -/
theorem meaning_of_scalar {node : Node} {text : String} {style : Style} {tag : Option String}
    (h : document.deref node = .scalar text style tag) :
    document.meaning node = (Value.ofScalar? text style tag).map (Value.underTag tag) := by
  have hlimit : ¬ document.maxReferences < 0 + references (.scalar text style tag) :=
    Nat.not_lt_zero _
  rw [meaning, h, expand_eq, if_neg hlimit]
  change (((Value.ofScalar? text style tag).map _).map fun value => (value, 0)).map Prod.fst = _
  cases Value.ofScalar? text style tag with
  | none => rfl
  | some value => rfl

/-- Among the steps of a `foldlM` that succeeds there is one for each element. -/
theorem exists_of_mem_foldlM {α β : Type} {f : β → α → Option β} {l : List α} {b r : β}
    (h : l.foldlM f b = some r) {a : α} (hmem : a ∈ l) : ∃ b' r', f b' a = some r' := by
  induction l generalizing b with
  | nil => cases hmem
  | cons c rest ih =>
    rw [List.foldlM_cons] at h
    obtain ⟨mid, hmid, hrest⟩ := Option.bind_eq_some_iff.mp h
    rcases List.mem_cons.mp hmem with rfl | hmem
    · exact ⟨b, mid, hmid⟩
    · exact ih hrest hmem

/-- In a readable document, a node under a key of the outermost mapping has a `meaning`. -/
theorem exists_meaning (hreadable : document.isReadable = true) {entries : List (Node × Node)}
    {tag : Option String}
    (hroot : document.deref (document.root.getD (.omitted none)) = .mapping entries tag)
    {entry : Node × Node} (hmem : entry ∈ entries) :
    ∃ value, document.meaning entry.2 = some value := by
  rw [isReadable] at hreadable
  split at hreadable
  case h_1 hnone =>
    rw [hnone] at hroot
    cases hroot
  case h_2 root hsome =>
    rw [hsome, Option.getD_some] at hroot
    split at hreadable
    case h_2 => cases hreadable
    case h_1 value used hvalue =>
      rw [expand_eq, hroot] at hvalue
      split at hvalue
      case isTrue => cases hvalue
      case isFalse =>
        -- the entry was read after those in front of it, with their references followed
        obtain ⟨r, hfold, -⟩ := Option.bind_eq_some_iff.mp hvalue
        obtain ⟨before, after, hstep⟩ := exists_of_mem_foldlM hfold hmem
        obtain ⟨key, -, hstep⟩ := Option.bind_eq_some_iff.mp hstep
        obtain ⟨value, hvalue, -⟩ := Option.bind_eq_some_iff.mp hstep
        obtain ⟨used', hmeaning⟩ := exists_expand_deref hvalue
        exact ⟨value.1, congrArg (Option.map Prod.fst) hmeaning⟩

end Document

/-! ## Values without a JSON form -/

/-- Values with a JSON form: without tags, and with texts as keys. -/
inductive Value.Showable : Value → Prop where
  | null : Showable .null
  | bool (b : Bool) : Showable (.bool b)
  | integer (n : Int) : Showable (.integer n)
  | float (x : Binary64) : Showable (.float x)
  | string (s : String) : Showable (.string s)
  | sequence {elements : List Value} (h : ∀ value ∈ elements, Showable value) :
    Showable (.sequence elements)
  | mapping {entries : List (Option String × Value × Value)}
    (hkeys : ∀ entry ∈ entries, ∃ name, entry.2.1 = .string name)
    (h : ∀ entry ∈ entries, Showable entry.2.2) : Showable (.mapping entries)

theorem isSome_elementsToJson?_iff {elements : List Value} :
    (elementsToJson? elements).isSome ↔ ∀ value ∈ elements, value.toJson?.isSome := by
  induction elements with
  | nil => simp [elementsToJson?]
  | cons value rest ih =>
    rw [List.forall_mem_cons, ← ih, elementsToJson?]
    cases value.toJson? with
    | none => simp
    | some json => cases elementsToJson? rest <;> simp

theorem isSome_entriesToJson?_iff {entries : List (Option String × Value × Value)} :
    (entriesToJson? entries).isSome ↔ ∀ entry ∈ entries,
      (∃ name, entry.2.1 = .string name) ∧ entry.2.2.toJson?.isSome := by
  induction entries with
  | nil => simp [entriesToJson?]
  | cons entry rest ih =>
    obtain ⟨label, key, value⟩ := entry
    rw [List.forall_mem_cons, ← ih]
    cases key with
    | string name =>
      rw [entriesToJson?]
      cases value.toJson? with
      | none => simp
      | some json => cases entriesToJson? rest <;> simp
    | _ => simp [entriesToJson?]

/-- A `Showable` value has a JSON form. -/
theorem Value.Showable.isSome_toJson? {value : Value} (h : value.Showable) :
    value.toJson?.isSome := by
  induction h with
  | null | bool | integer | float | string => rfl
  | sequence _ ih =>
    rw [Value.toJson?, Option.isSome_map, isSome_elementsToJson?_iff]
    exact ih
  | mapping hkeys _ ih =>
    rw [Value.toJson?, Option.isSome_map, isSome_entriesToJson?_iff]
    exact fun entry hentry => ⟨hkeys entry hentry, ih entry hentry⟩

/-- A value with a JSON form is `Showable`. -/
theorem Value.showable_of_isSome_toJson? : (value : Value) → value.toJson?.isSome → value.Showable
  | .null, _ => .null
  | .bool b, _ => .bool b
  | .integer n, _ => .integer n
  | .float x, _ => .float x
  | .string s, _ => .string s
  | .sequence elements, h => by
    rw [Value.toJson?, Option.isSome_map, isSome_elementsToJson?_iff] at h
    exact .sequence fun value hmem => showable_of_isSome_toJson? value (h value hmem)
  | .mapping entries, h => by
    rw [Value.toJson?, Option.isSome_map, isSome_entriesToJson?_iff] at h
    exact .mapping (fun entry hmem => (h entry hmem).1)
      fun entry hmem => showable_of_isSome_toJson? entry.2.2 (h entry hmem).2
  | .tagged tag value, h => by
    rw [Value.toJson?] at h
    cases h
decreasing_by
  · have := List.sizeOf_lt_of_mem hmem
    rw [Value.sequence.sizeOf_spec]
    omega
  · have := List.sizeOf_lt_of_mem hmem
    obtain ⟨label, key, value⟩ := entry
    simp only [Prod.mk.sizeOf_spec] at this
    rw [Value.mapping.sizeOf_spec]
    dsimp only
    omega

theorem Value.isSome_toJson?_iff {value : Value} : value.toJson?.isSome ↔ value.Showable :=
  ⟨value.showable_of_isSome_toJson?, fun h => h.isSome_toJson?⟩

theorem firstTagOfElements_eq_none {elements : List Value}
    (h : ∀ value ∈ elements, ∀ place, value.firstTag place = none) (path : Path) (index : Nat) :
    firstTagOfElements path index elements = none := by
  induction elements generalizing index with
  | nil => rfl
  | cons value rest ih =>
    obtain ⟨hvalue, hrest⟩ := List.forall_mem_cons.mp h
    rw [firstTagOfElements, hvalue, ih hrest]
    rfl

theorem firstTagOfEntries_eq_none {entries : List (Option String × Value × Value)}
    (hkeys : ∀ entry ∈ entries, ∃ name, entry.2.1 = .string name)
    (h : ∀ entry ∈ entries, ∀ place, entry.2.2.firstTag place = none) (path : Path) :
    firstTagOfEntries path entries = none := by
  induction entries with
  | nil => rfl
  | cons entry rest ih =>
    obtain ⟨label, key, value⟩ := entry
    obtain ⟨⟨name, rfl⟩, hothers⟩ := List.forall_mem_cons.mp hkeys
    obtain ⟨hvalue, hrest⟩ := List.forall_mem_cons.mp h
    rw [firstTagOfEntries, hvalue, ih hothers hrest]
    rfl

/-- A `Showable` value has no tag. -/
theorem Value.Showable.firstTag_eq_none {value : Value} (h : value.Showable) (path : Path) :
    value.firstTag path = none := by
  induction h generalizing path with
  | null | bool | integer | float | string => rfl
  | sequence _ ih => exact firstTagOfElements_eq_none ih path 0
  | mapping hkeys _ ih => exact firstTagOfEntries_eq_none hkeys ih path

end Fanout.Yaml
