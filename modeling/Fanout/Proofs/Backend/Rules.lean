import Fanout.Backend.Rules

/-!
# Rules by kind

`Rules.evaluation_by_kind` describes the evaluation of any list of demands: the first violated check
is the error, and the only notice (`Rules.violation?_demandAll`); if there is none, every violated
advice is a warning, in order (`Rules.warnings_demandAll`). So the result depends on the order
within each kind only.
-/

namespace Fanout

/-- A demand of a backend on its configuration. -/
inductive Demand where
  /-- `holds` must be true. -/
  | check (holds : Bool) (reason : String)
  /-- A capability must be available. -/
  | require (available : Bool) (capability guidance : String)
  /-- `holds` should be true. -/
  | warnUnless (holds : Bool) (message : String)
deriving DecidableEq, Repr

namespace Demand

/-- Whether the demand leads to a violation when it is not met. -/
def isFatal : Demand → Bool
  | check .. | require .. => true
  | warnUnless .. => false

/-- The violation of a fatal demand that is not met. -/
def violation? : Demand → Option Violation
  | check false reason => some (.configuration reason)
  | require false capability guidance => some (.dependencyMissing capability guidance)
  | _ => none

/-- The warning of an advisory demand that is not met. -/
def warning? (backend : String) : Demand → Option ConfigurationWarning
  | warnUnless false message => some ⟨backend, message⟩
  | _ => none

/-- Only fatal demands have violations. -/
theorem filterMap_violation?_filter (demands : List Demand) :
    (demands.filter isFatal).filterMap violation? = demands.filterMap violation? := by
  rw [List.filterMap_filter]
  congr 1
  funext demand
  cases demand <;> rfl

/-- Only advisory demands have warnings. -/
theorem filterMap_warning?_filter (demands : List Demand) (backend : String) :
    (demands.filter (!·.isFatal)).filterMap (warning? backend) =
      demands.filterMap (warning? backend) := by
  rw [List.filterMap_filter]
  congr 1
  funext demand
  cases demand <;> rfl

/-- The demand of every backend on its worker count. -/
def positive (workers : Int64) : Demand :=
  check (decide (0 < workers)) (Rules.countReason (toString workers.toInt))

end Demand

namespace Rules

/-- `rules` with one more demand. -/
def demand (rules : Rules) : Demand → Rules
  | .check holds reason => rules.check holds reason
  | .require available capability guidance => rules.require available capability guidance
  | .warnUnless holds message => rules.warnUnless holds message

/-- `rules` with more demands, in order. -/
def demandAll (rules : Rules) (demands : List Demand) : Rules := demands.foldl demand rules

/-- The rules that a backend starts from: `empty`, or `base` with a worker count. -/
def opening : Option Int64 → Rules
  | none => empty
  | some workers => base workers

variable {rules other : Rules} {backend : String}

/-- The violation of one more demand counts only if there is none before it. -/
theorem violation?_demand (rules : Rules) (demand : Demand) :
    (rules.demand demand).violation? = rules.violation?.or demand.violation? := by
  cases demand with
  | check holds reason =>
    rw [Rules.demand, check, violation?, List.find?_append, Option.map_or]
    cases holds <;> rfl
  | require available capability guidance =>
    rw [Rules.demand, require, violation?, List.find?_append, Option.map_or]
    cases available <;> rfl
  | warnUnless holds message => exact (Option.or_none).symm

/-- The warning of one more demand comes last. -/
theorem warnings_demand (rules : Rules) (demand : Demand) (backend : String) :
    (rules.demand demand).warnings backend =
      rules.warnings backend ++ (demand.warning? backend).toList := by
  cases demand with
  | check | require => exact (List.append_nil _).symm
  | warnUnless holds message =>
    rw [Rules.demand, warnUnless, warnings, List.filter_append, List.map_append]
    cases holds <;> rfl

/-- The violation of `demandAll` is that of `rules`, or else the first one of `demands`. -/
theorem violation?_demandAll (rules : Rules) (demands : List Demand) :
    (rules.demandAll demands).violation? =
      rules.violation?.or (demands.filterMap Demand.violation?).head? := by
  induction demands generalizing rules with
  | nil => exact (Option.or_none).symm
  | cons demand rest ih =>
    have hrest := ih (rules.demand demand)
    rw [violation?_demand, Option.or_assoc] at hrest
    rw [demandAll, List.foldl_cons, ← demandAll, hrest, List.filterMap_cons]
    cases demand.violation? <;> rfl

/-- The warnings of `demandAll` are those of `rules`, and then those of `demands`. -/
theorem warnings_demandAll (rules : Rules) (demands : List Demand) (backend : String) :
    (rules.demandAll demands).warnings backend =
      rules.warnings backend ++ demands.filterMap (Demand.warning? backend) := by
  induction demands generalizing rules with
  | nil => exact (List.append_nil _).symm
  | cons demand rest ih =>
    have hrest := ih (rules.demand demand)
    rw [warnings_demand, List.append_assoc] at hrest
    rw [demandAll, List.foldl_cons, ← demandAll, hrest, List.filterMap_cons]
    cases demand.warning? backend <;> rfl

/-- A violation is the error of `evaluate`, and its notice is all that is reported. -/
theorem evaluate_of_violation {violation : Violation} (h : rules.violation? = some violation) :
    rules.evaluate backend = ⟨[.notice (.validationFailed backend violation.message)],
      .error (violation.toError backend)⟩ := by
  rw [evaluate, h]

/-- Without a violation, `evaluate` has the warnings, and reports a notice for each. -/
theorem evaluate_of_none (h : rules.violation? = none) :
    rules.evaluate backend = ⟨(rules.warnings backend).map fun warning =>
      .notice (.configurationWarning backend warning.message), .ok (rules.warnings backend)⟩ := by
  rw [evaluate, h]

/-- `evaluate` depends on `violation?` and `warnings` only. -/
theorem evaluate_congr (hviolation : other.violation? = rules.violation?)
    (hwarnings : other.warnings backend = rules.warnings backend) :
    other.evaluate backend = rules.evaluate backend := by
  rw [evaluate, evaluate, hviolation, hwarnings]

/-- `opening` with a worker count is `empty` with the demand `positive` in front. -/
theorem demandAll_opening (workers : Option Int64) (demands : List Demand) :
    (opening workers).demandAll demands =
      empty.demandAll ((workers.map Demand.positive).toList ++ demands) := by
  rw [demandAll, demandAll, List.foldl_append]
  cases workers <;> rfl

/-- Let demands of both kinds be made in any order, after `positive` or not. `evaluate` fails iff a
fatal demand is not met, with the error of the first such demand, whose notice is all that is
reported. Otherwise it has a warning and a notice for each advisory demand that is not met, in
order. Two lists of demands that agree within each kind have the same outcome. -/
theorem evaluation_by_kind (workers : Option Int64) (demands : List Demand) (backend : String) :
    let rules := (opening workers).demandAll demands
    let all := (workers.map Demand.positive).toList ++ demands
    ((∃ error, (rules.evaluate backend).value = .error error) ↔
        ∃ demand ∈ all, ∃ violation, demand.violation? = some violation) ∧
      (∀ before demand after violation, all = before ++ demand :: after →
        (∀ earlier ∈ before, earlier.violation? = none) → demand.violation? = some violation →
          rules.evaluate backend = ⟨[.notice (.validationFailed backend violation.message)],
            .error (violation.toError backend)⟩) ∧
      ((∀ demand ∈ all, demand.violation? = none) →
        rules.evaluate backend =
          ⟨(all.filterMap (Demand.warning? backend)).map fun warning =>
            .notice (.configurationWarning backend warning.message),
            .ok (all.filterMap (Demand.warning? backend))⟩) ∧
      ∀ others, others.filter Demand.isFatal = demands.filter Demand.isFatal →
        others.filter (!·.isFatal) = demands.filter (!·.isFatal) →
          ((opening workers).demandAll others).evaluate backend = rules.evaluate backend := by
  intro rules all
  -- the demand about the worker count is the first one, if it is made at all
  have hrules : rules = empty.demandAll all := demandAll_opening workers demands
  have hviolation : rules.violation? = all.findSome? Demand.violation? := by
    rw [hrules, violation?_demandAll, List.head?_filterMap]
    rfl
  have hwarnings : rules.warnings backend = all.filterMap (Demand.warning? backend) := by
    rw [hrules, warnings_demandAll]
    rfl
  have haccepted (h : ∀ demand ∈ all, demand.violation? = none) :
      rules.evaluate backend =
        ⟨(all.filterMap (Demand.warning? backend)).map fun warning =>
          .notice (.configurationWarning backend warning.message),
          .ok (all.filterMap (Demand.warning? backend))⟩ := by
    rw [← hwarnings]
    exact evaluate_of_none (hviolation.trans (List.findSome?_eq_none_iff.mpr h))
  refine ⟨⟨?_, ?_⟩, ?_, haccepted, ?_⟩
  · rintro ⟨error, herror⟩
    cases hfirst : all.findSome? Demand.violation? with
    | none =>
      rw [haccepted (List.findSome?_eq_none_iff.mp hfirst)] at herror
      cases herror
    | some violation =>
      obtain ⟨before, demand, after, hall, hdemand, -⟩ := List.findSome?_eq_some_iff.mp hfirst
      exact ⟨demand, by simp [hall], violation, hdemand⟩
  · rintro ⟨demand, hmem, violation, hdemand⟩
    cases hfirst : all.findSome? Demand.violation? with
    | none =>
      rw [List.findSome?_eq_none_iff.mp hfirst demand hmem] at hdemand
      cases hdemand
    | some first =>
      rw [evaluate_of_violation (hviolation.trans hfirst)]
      exact ⟨_, rfl⟩
  · intro before demand after violation hall hbefore hdemand
    refine evaluate_of_violation (hviolation.trans ?_)
    exact List.findSome?_eq_some_iff.mpr ⟨before, demand, after, hall, hdemand, hbefore⟩
  · intro others hfatal hadvice
    refine evaluate_congr ?_ ?_
    · rw [violation?_demandAll, violation?_demandAll, ← Demand.filterMap_violation?_filter others,
        hfatal, Demand.filterMap_violation?_filter]
    · rw [warnings_demandAll, warnings_demandAll, ← Demand.filterMap_warning?_filter others,
        hadvice, Demand.filterMap_warning?_filter]

/-- A missing engine before a failing check, with advice in between; the same with the advice last;
and advice alone, of which one piece holds. -/
theorem evaluation_by_kind_of_missing_engine :
    let missing : Demand := .require false "engine" "build it"
    let late : Demand := .check false "late"
    let first : Demand := .warnUnless false "first"
    let second : Demand := .warnUnless false "second"
    let refused : Logged (Except BackendError (List ConfigurationWarning)) :=
      ⟨[.notice (.validationFailed "pool" "engine is not available: build it")],
        .error (.dependencyMissing "pool" "engine" "build it")⟩
    ((base 2).demandAll [first, missing, late, second]).evaluate "pool" = refused ∧
      ((base 2).demandAll [missing, late, first, second]).evaluate "pool" = refused ∧
      ((base 2).demandAll [first, .warnUnless true "silent", second]).evaluate "pool" =
        ⟨[.notice (.configurationWarning "pool" "first"),
          .notice (.configurationWarning "pool" "second")],
          .ok [⟨"pool", "first"⟩, ⟨"pool", "second"⟩]⟩ := by
  intro missing late first second refused
  obtain ⟨-, hfirst, -, hmoved⟩ :=
    evaluation_by_kind (some 2) [first, missing, late, second] "pool"
  have hrefused := hfirst [Demand.positive 2, first] missing [late, second] _ rfl (by decide) rfl
  have hsame := hmoved [missing, late, first, second] rfl rfl
  obtain ⟨-, -, hwarned, -⟩ :=
    evaluation_by_kind (some 2) [first, .warnUnless true "silent", second] "pool"
  exact ⟨hrefused, hsame.trans hrefused, hwarned (by decide)⟩

end Rules

end Fanout
