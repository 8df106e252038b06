import Fanout.Function.Diagnostic
import Fanout.Registry

/-!
# Functions by name

A registry built from a list of functions finds the last one registered under a name
(`find?_ofList`), so it depends only on the order among functions of the same name (`namesakes`). No
name occurs twice (`distinct_ofList`), so the list of names is the only ascending one with these
members (`names_eq_of_isSome_find?_eq`).
-/

namespace Fanout.Registry

/-- The functions with the name `name`, in the order of their registration. -/
def namesakes (registered : List WorkFunction) (name : String) : List WorkFunction :=
  registered.filter fun f => f.name = name

/-- No two functions of a registry have the same name. -/
def Distinct (registry : Registry) : Prop := (registry.functions.map WorkFunction.name).Nodup

variable {registry other : Registry} {functions registered : List WorkFunction} {f : WorkFunction}
  {name : String}

/-- `replace` puts a function in the place of its namesake, or last. -/
theorem map_name_replace : (replace f functions).map WorkFunction.name =
    if f.name ∈ functions.map WorkFunction.name then functions.map WorkFunction.name
    else functions.map WorkFunction.name ++ [f.name] := by
  induction functions with
  | nil => rfl
  | cons g rest ih =>
    rw [replace]
    by_cases hname : g.name = f.name
    · simp [hname]
    · rw [if_neg hname, List.map_cons, ih]
      by_cases hmem : f.name ∈ rest.map WorkFunction.name
      · simp [hmem]
      · -- neither the first function nor a later one is a namesake
        simp only [List.map_cons, List.mem_cons, Ne.symm hname, hmem, or_self, if_false,
          List.cons_append]

/-- `register` keeps a registry `Distinct`. -/
theorem Distinct.register (h : registry.Distinct) : (registry.register f).Distinct := by
  rw [Distinct, Registry.register, map_name_replace]
  by_cases hmem : f.name ∈ registry.functions.map WorkFunction.name
  · rw [if_pos hmem]
    exact h
  · rw [if_neg hmem]
    refine List.nodup_append.mpr ⟨h, List.pairwise_singleton _ _, ?_⟩
    intro a ha b hb hab
    rw [hab, List.mem_singleton.mp hb] at ha
    exact hmem ha

theorem Distinct.foldl_register (h : registry.Distinct) :
    (registered.foldl Registry.register registry).Distinct := by
  induction registered generalizing registry with
  | nil => exact h
  | cons f rest ih => exact ih h.register

theorem distinct_ofList (registered : List WorkFunction) : (ofList registered).Distinct :=
  Distinct.foldl_register List.nodup_nil

/-- `register` changes what `find?` gives for the name of the function only. -/
theorem find?_register :
    (registry.register f).find? name = if f.name = name then some f else registry.find? name := by
  rw [find?, find?, register]
  induction registry.functions with
  | nil => by_cases h : f.name = name <;> simp [replace, h]
  | cons g rest ih =>
    rw [replace]
    by_cases hname : g.name = f.name
    · by_cases h : f.name = name <;> simp [hname, h]
    · rw [if_neg hname, List.find?_cons, List.find?_cons, ih]
      by_cases h : g.name = name
      · -- the first function is the one found, and it is no namesake of the new one
        have hne : f.name ≠ name := fun heq => hname (h.trans heq.symm)
        simp [h, hne]
      · simp [h]

theorem find?_foldl_register : (registered.foldl Registry.register registry).find? name =
    (namesakes registered name).getLast?.or (registry.find? name) := by
  induction registered generalizing registry with
  | nil => rfl
  | cons f rest ih =>
    rw [List.foldl_cons, ih, find?_register, namesakes, namesakes, List.filter_cons]
    by_cases h : f.name = name
    · cases hlast : (rest.filter fun f => f.name = name).getLast? <;>
        simp [h, List.getLast?_cons, hlast]
    · simp [h]

/-- `find?` gives the last of the `namesakes`. -/
theorem find?_ofList : (ofList registered).find? name = (namesakes registered name).getLast? := by
  rw [ofList, find?_foldl_register]
  exact Option.or_none

theorem mem_names_iff : name ∈ registry.names ↔ ∃ f ∈ registry.functions, f.name = name := by
  rw [names, List.mem_mergeSort, List.mem_map]

/-- A name is listed iff `find?` gives a function for it. -/
theorem mem_names_iff_isSome : name ∈ registry.names ↔ (registry.find? name).isSome := by
  rw [mem_names_iff, find?, List.find?_isSome]
  simp

/-- `contains` holds of the names listed. -/
theorem contains_iff : registry.contains name = true ↔ name ∈ registry.names := by
  rw [mem_names_iff, contains, List.any_eq_true]
  simp

/-- The names of a `Distinct` registry ascend strictly. -/
theorem Distinct.names_ascending (h : registry.Distinct) : registry.names.Pairwise (· < ·) := by
  have hsorted : registry.names.Pairwise fun a b => decide (a ≤ b) = true := by
    apply List.pairwise_mergeSort
    · intro a b c hab hbc
      simp only [decide_eq_true_eq] at hab hbc ⊢
      exact String.le_trans hab hbc
    · intro a b
      simpa using String.le_total a b
  have hnodup : registry.names.Nodup := (List.mergeSort_perm _ _).nodup_iff.mpr h
  -- a name that comes before another one and is not the same is less
  refine (hsorted.and hnodup).imp ?_
  intro a b hab
  apply String.not_le.mp
  intro hba
  exact hab.2 (String.le_antisymm (by simpa using hab.1) hba)

/-- `Distinct` registries with functions of the same names list the same names. -/
theorem names_eq_of_isSome_find?_eq (h : registry.Distinct) (hother : other.Distinct)
    (hfind : ∀ name, (registry.find? name).isSome = (other.find? name).isSome) :
    registry.names = other.names := by
  have hascending := h.names_ascending
  have hascending' := hother.names_ascending
  have hnodup {names : List String} (hnames : names.Pairwise (· < ·)) : names.Nodup := by
    refine hnames.imp ?_
    rintro a b hab rfl
    exact String.lt_irrefl a hab
  refine List.Perm.eq_of_pairwise ?_ hascending hascending' ?_
  · intro a b _ _ hab hba
    exact absurd (String.lt_trans hab hba) (String.lt_irrefl a)
  · refine (List.perm_ext_iff_of_nodup (hnodup hascending) (hnodup hascending')).mpr ?_
    intro name
    rw [mem_names_iff_isSome, mem_names_iff_isSome, hfind]

/-- `invoke` depends on the function of the envelope's name only. -/
theorem invoke_congr {envelope : Envelope}
    (h : registry.find? envelope.function = other.find? envelope.function) :
    registry.invoke envelope = other.invoke envelope := by
  rw [invoke, invoke, h]

/-- Let `registered` be registered in order. The names ascend strictly, they are those of
`registered`, and `contains` holds exactly of them. `invoke` answers an envelope as if the last of
the `namesakes` were the only function. Any order of `registered` that keeps the order of
`namesakes` has the same names and answers. -/
theorem last_registration_counts (registered : List WorkFunction) :
    (ofList registered).names.Pairwise (· < ·) ∧
      (∀ name, name ∈ (ofList registered).names ↔ ∃ f ∈ registered, f.name = name) ∧
      (∀ name, (ofList registered).contains name = true ↔ name ∈ (ofList registered).names) ∧
      (∀ envelope, (ofList registered).invoke envelope =
        (ofList (namesakes registered envelope.function).getLast?.toList).invoke envelope) ∧
      ∀ reordered : List WorkFunction,
        (∀ name, namesakes reordered name = namesakes registered name) →
          (ofList reordered).names = (ofList registered).names ∧
            (∀ name, (ofList reordered).contains name = (ofList registered).contains name) ∧
            ∀ envelope,
              (ofList reordered).invoke envelope = (ofList registered).invoke envelope := by
  have hdistinct := distinct_ofList registered
  refine ⟨hdistinct.names_ascending, ?_, fun _ => contains_iff, ?_, ?_⟩
  · intro name
    rw [mem_names_iff_isSome, find?_ofList, List.getLast?_isSome, namesakes, ne_eq,
      List.filter_eq_nil_iff]
    simp
  · intro envelope
    apply invoke_congr
    rw [find?_ofList, find?_ofList]
    cases hlast : (namesakes registered envelope.function).getLast? with
    | none => rfl
    | some f =>
      have hmem := List.mem_filter.mp (List.mem_of_getLast? hlast)
      simp [namesakes, hmem.2]
  · intro reordered hnamesakes
    have hfind (name : String) :
        (ofList reordered).find? name = (ofList registered).find? name := by
      rw [find?_ofList, find?_ofList, hnamesakes]
    have hnames : (ofList reordered).names = (ofList registered).names :=
      names_eq_of_isSome_find?_eq (distinct_ofList reordered) hdistinct fun name => by rw [hfind]
    refine ⟨hnames, ?_, fun envelope => invoke_congr (hfind envelope.function)⟩
    intro name
    apply Bool.eq_iff_iff.mpr
    rw [contains_iff, contains_iff, hnames]

/-- Two functions are named `square`. Both orders have the same names, and the later function
answers. -/
theorem last_registration_counts_of_shadowed :
    let registered := [Builtin.square, Builtin.scale, Diagnostic.shadow]
    let reordered := [Builtin.scale, Builtin.square, Diagnostic.shadow]
    let envelope : Envelope := ⟨7, "square", ⟨[0x90]⟩, ⟨[5]⟩⟩
    (∀ name, namesakes reordered name = namesakes registered name) ∧
      (ofList reordered).names = (ofList registered).names ∧
      (ofList registered).invoke envelope = .completed 7 ⟨[6]⟩ ∧
      (ofList reordered).invoke envelope = .completed 7 ⟨[6]⟩ := by
  intro registered reordered envelope
  have hnamesakes (name : String) : namesakes reordered name = namesakes registered name := by
    by_cases hsquare : "square" = name
    · subst hsquare
      rfl
    · by_cases hscale : "scale" = name <;>
        simp [namesakes, registered, reordered, Builtin.square, Builtin.scale, Diagnostic.shadow,
          hsquare, hscale]
  obtain ⟨-, -, -, hinvoke, hreordered⟩ := last_registration_counts registered
  obtain ⟨hnames, -, hsame⟩ := hreordered reordered hnamesakes
  have hanswer : (ofList registered).invoke envelope = .completed 7 ⟨[6]⟩ :=
    (hinvoke envelope).trans rfl
  exact ⟨hnamesakes, hnames, hanswer, (hsame envelope).trans hanswer⟩

end Fanout.Registry
