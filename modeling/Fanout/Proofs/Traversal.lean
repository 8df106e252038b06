/-!
# Traversals and tallies

`mapM` over a list in `Except` stops at the first element that fails. `mapM_eq_ok_iff` and
`mapM_eq_error_iff` describe both results by position, and `mapM_zipIdx_eq_ok_iff` and
`mapM_zipIdx_eq_error_iff` do so for lists of elements with their positions.

A `tally` is a sum over the elements of a list. Replacing an element changes it by the difference of
the summands (`tally_set`).
-/

namespace Fanout.Traversal

variable {ε α β : Type}

theorem ok_bind (a : α) (f : α → Except ε β) : (Except.ok a >>= f) = f a := rfl

/-- A `bind` succeeds iff both steps do. -/
theorem bind_eq_ok_iff {x : Except ε α} {f : α → Except ε β} {b : β} :
    x >>= f = .ok b ↔ ∃ a, x = .ok a ∧ f a = .ok b := by
  cases x with
  | error e => simp [bind, Except.bind]
  | ok a => simp [bind, Except.bind]

/-- A `bind` fails iff the first step does, or the second one does on the result of the first. -/
theorem bind_eq_error_iff {x : Except ε α} {f : α → Except ε β} {e : ε} :
    x >>= f = .error e ↔ x = .error e ∨ ∃ a, x = .ok a ∧ f a = .error e := by
  cases x with
  | error e => simp [bind, Except.bind]
  | ok a => simp [bind, Except.bind]

theorem map_eq_ok_iff {x : Except ε α} {f : α → β} {b : β} :
    x.map f = .ok b ↔ ∃ a, x = .ok a ∧ f a = b := by
  cases x with
  | error e => simp [Except.map]
  | ok a => simp [Except.map]

theorem map_eq_error_iff {x : Except ε α} {f : α → β} {e : ε} :
    x.map f = .error e ↔ x = .error e := by
  cases x with
  | error e => simp [Except.map]
  | ok a => simp [Except.map]

theorem mapError_ok {ε' : Type} (f : ε → ε') (a : α) : (Except.ok a).mapError f = .ok a := rfl

theorem mapError_error {ε' : Type} (f : ε → ε') (e : ε) :
    (Except.error e : Except ε α).mapError f = .error (f e) := rfl

theorem mapError_eq_ok_iff {ε' : Type} {x : Except ε α} {f : ε → ε'} {a : α} :
    x.mapError f = .ok a ↔ x = .ok a := by
  cases x with
  | error e => simp [mapError_error]
  | ok b => simp [mapError_ok]

theorem mapError_eq_error_iff {ε' : Type} {x : Except ε α} {f : ε → ε'} {e : ε'} :
    x.mapError f = .error e ↔ ∃ e', x = .error e' ∧ f e' = e := by
  cases x with
  | error e' => simp [mapError_error]
  | ok a => simp [mapError_ok]

/-- `mapM` succeeds iff `f` succeeds on each element, with the result at its position. -/
theorem mapM_eq_ok_iff {f : α → Except ε β} {l : List α} {r : List β} :
    l.mapM f = .ok r ↔ r.length = l.length ∧
      ∀ i (h : i < l.length) (h' : i < r.length), f l[i] = .ok r[i] := by
  induction l generalizing r with
  | nil =>
    rw [List.mapM_nil]
    cases r with
    | nil => simp [pure, Except.pure]
    | cons b bs => simp [pure, Except.pure]
  | cons a as ih =>
    rw [List.mapM_cons, bind_eq_ok_iff]
    constructor
    · rintro ⟨b, hb, h⟩
      obtain ⟨bs, hbs, h⟩ := bind_eq_ok_iff.mp h
      cases h
      obtain ⟨hlen, hget⟩ := ih.mp hbs
      refine ⟨by simp [hlen], ?_⟩
      intro i h h'
      cases i with
      | zero => exact hb
      | succ i => exact hget i (by simpa using h) (by simpa using h')
    · rintro ⟨hlen, hget⟩
      cases r with
      | nil => simp at hlen
      | cons b bs =>
        refine ⟨b, hget 0 (by simp) (by simp), bind_eq_ok_iff.mpr ⟨bs, ih.mpr ?_, rfl⟩⟩
        refine ⟨by simpa using hlen, fun i h h' => ?_⟩
        exact hget (i + 1) (by simpa using h) (by simpa using h')

/-- `mapM` fails with the error of the first element that `f` fails on. -/
theorem mapM_eq_error_iff {f : α → Except ε β} {l : List α} {e : ε} :
    l.mapM f = .error e ↔ ∃ i, ∃ h : i < l.length, f l[i] = .error e ∧
      ∀ j a, j < i → l[j]? = some a → ∃ b, f a = .ok b := by
  induction l with
  | nil => simp [pure, Except.pure]
  | cons a as ih =>
    rw [List.mapM_cons, bind_eq_error_iff]
    constructor
    · rintro (ha | ⟨b, hb, h⟩)
      · exact ⟨0, by simp, ha, fun j _ hj => absurd hj (Nat.not_lt_zero j)⟩
      · obtain h | ⟨bs, -, h⟩ := bind_eq_error_iff.mp h
        · obtain ⟨i, hi, hf, hbefore⟩ := ih.mp h
          refine ⟨i + 1, by simpa using hi, hf, fun j x hj hx => ?_⟩
          cases j with
          | zero =>
            obtain rfl : a = x := by simpa using hx
            exact ⟨b, hb⟩
          | succ j => exact hbefore j x (by omega) (by simpa using hx)
        · cases h
    · rintro ⟨i, hi, hf, hbefore⟩
      cases i with
      | zero => exact .inl hf
      | succ i =>
        obtain ⟨b, hb⟩ := hbefore 0 a (Nat.zero_lt_succ i) rfl
        refine .inr ⟨b, hb, bind_eq_error_iff.mpr (.inl (ih.mpr ?_))⟩
        exact ⟨i, by simpa using hi, hf, fun j x hj hx => hbefore (j + 1) x (by omega) hx⟩

/-- `foldlM` commutes with `g` if each of its steps does. -/
theorem foldlM_commute {f : β → α → Except ε β} {g : β → β} {l : List α}
    (h : ∀ b, ∀ a ∈ l, f (g b) a = (f b a).map g) (b : β) :
    l.foldlM f (g b) = (l.foldlM f b).map g := by
  induction l generalizing b with
  | nil => rfl
  | cons a as ih =>
    rw [List.foldlM_cons, List.foldlM_cons, h b a List.mem_cons_self]
    cases f b a with
    | error e => rfl
    | ok b' => exact ih (fun b x hx => h b x (List.mem_cons_of_mem a hx)) b'

section Positions

variable {f : α × Nat → Except ε β} {l : List α}

/-- `mapM` over positions succeeds iff `f` succeeds on each element, with the result at its
position. -/
theorem mapM_zipIdx_eq_ok_iff {r : List β} : l.zipIdx.mapM f = .ok r ↔ r.length = l.length ∧
    ∀ i (h : i < l.length) (h' : i < r.length), f (l[i], i) = .ok r[i] := by
  simp only [mapM_eq_ok_iff, List.length_zipIdx, List.getElem_zipIdx, Nat.zero_add]

/-- `mapM` over positions fails with the error of the first element that `f` fails on. -/
theorem mapM_zipIdx_eq_error_iff {e : ε} : l.zipIdx.mapM f = .error e ↔
    ∃ i, ∃ h : i < l.length, f (l[i], i) = .error e ∧
      ∀ j (hj : j < l.length), j < i → ∃ b, f (l[j], j) = .ok b := by
  rw [mapM_eq_error_iff]
  constructor
  · rintro ⟨i, h, hf, hbefore⟩
    rw [List.getElem_zipIdx, Nat.zero_add] at hf
    refine ⟨i, by simpa using h, hf, fun j hj hlt => hbefore j (l[j], j) hlt ?_⟩
    rw [List.getElem?_zipIdx, List.getElem?_eq_getElem hj, Nat.zero_add]
    rfl
  · rintro ⟨i, h, hf, hbefore⟩
    refine ⟨i, by simpa using h, ?_, fun j a hlt ha => ?_⟩
    · rw [List.getElem_zipIdx, Nat.zero_add]
      exact hf
    · have hj : j < l.length := Nat.lt_trans hlt h
      rw [List.getElem?_zipIdx, List.getElem?_eq_getElem hj, Nat.zero_add] at ha
      cases ha
      exact hbefore j hj hlt

/-- `mapM` over positions succeeds if `f` does on each element. -/
theorem exists_mapM_zipIdx (h : ∀ i (h : i < l.length), ∃ b, f (l[i], i) = .ok b) :
    ∃ r, l.zipIdx.mapM f = .ok r := by
  cases hresult : l.zipIdx.mapM f with
  | ok r => exact ⟨r, rfl⟩
  | error e =>
    obtain ⟨i, hi, hf, -⟩ := mapM_zipIdx_eq_error_iff.mp hresult
    obtain ⟨b, hb⟩ := h i hi
    rw [hb] at hf
    cases hf

end Positions

/-- The sum of the weights of a list. -/
def tally (weight : α → Nat) (l : List α) : Nat := l.foldr (fun a total => weight a + total) 0

variable (weight : α → Nat) {l : List α} {i : Nat} {a b : α}

/-- `List.set` changes a `tally` by the difference of the two weights. -/
theorem tally_set (h : l[i]? = some a) :
    tally weight (l.set i b) + weight a = tally weight l + weight b := by
  induction l generalizing i with
  | nil => simp at h
  | cons x xs ih =>
    cases i with
    | zero =>
      obtain rfl : x = a := by simpa using h
      simp only [tally, List.set_cons_zero, List.foldr_cons]
      omega
    | succ i =>
      have := ih (i := i) (by simpa using h)
      simp only [tally, List.set_cons_succ, List.foldr_cons] at this ⊢
      omega

/-- A `tally` is zero iff every weight is. -/
theorem tally_eq_zero_iff : tally weight l = 0 ↔ ∀ a ∈ l, weight a = 0 := by
  induction l with
  | nil => simp [tally]
  | cons x xs ih =>
    rw [List.forall_mem_cons, ← ih, tally, List.foldr_cons]
    exact Nat.add_eq_zero_iff

theorem le_tally (h : a ∈ l) : weight a ≤ tally weight l := by
  induction l with
  | nil => simp at h
  | cons x xs ih =>
    rw [tally, List.foldr_cons]
    rcases List.mem_cons.mp h with rfl | h
    · exact Nat.le_add_right _ _
    · exact Nat.le_trans (ih h) (Nat.le_add_left _ _)

/-- Counting in a `flatMap` is a `tally` of counts. -/
theorem count_flatMap_eq_tally [BEq β] {f : α → List β} {x : β} :
    (l.flatMap f).count x = tally (fun a => (f a).count x) l := by
  induction l with
  | nil => rfl
  | cons y ys ih =>
    rw [List.flatMap_cons, List.count_append, ih]
    rfl

/-- `List.set` of an element whose list is longer by `extra` makes the `flatMap` longer by
`extra`. -/
theorem flatMap_set_perm {f : α → List β} {extra : List β} (h : l[i]? = some a)
    (hb : f b = f a ++ extra) : ((l.set i b).flatMap f).Perm (l.flatMap f ++ extra) := by
  induction l generalizing i with
  | nil => simp at h
  | cons x xs ih =>
    cases i with
    | zero =>
      obtain rfl : x = a := by simpa using h
      rw [List.set_cons_zero, List.flatMap_cons, List.flatMap_cons, hb, List.append_assoc,
        List.append_assoc]
      exact List.perm_append_comm.append_left _
    | succ i =>
      rw [List.set_cons_succ, List.flatMap_cons, List.flatMap_cons, List.append_assoc]
      exact (ih (by simpa using h)).append_left _

/-- A `flatMap` of lists that are not empty has at least as many elements as the list. -/
theorem length_le_length_flatMap {f : α → List β} (h : ∀ a, f a ≠ []) (l : List α) :
    l.length ≤ (l.flatMap f).length := by
  induction l with
  | nil => exact Nat.le_refl 0
  | cons x xs ih =>
    have hpos := List.length_pos_iff.mpr (h x)
    rw [List.flatMap_cons, List.length_append, List.length_cons]
    omega

end Fanout.Traversal
