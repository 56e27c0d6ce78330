import SchemaClasses.Proofs.Definition.Validation
import Mathlib.Data.List.Forall2
import Mathlib.Logic.Relation

/-! Reports of failures. A report goes through the checks of a class in order. A check that fails has its line,
below which stands what is reported of the values that it looks into, and a check that passes has none. So
nothing that fails is missing, however deep it lies, and nothing else is reported. -/

namespace SchemaClasses

namespace Instance
variable {object value : Instance} {field : String}

theorem mem_fields_of_mem_values (holds : value ∈ object.values field) :
    ∃ values, (field, values) ∈ object.fields ∧ value ∈ values := by
  rw [values, Entries.get?] at holds
  cases found : object.fields.lookup field with
  | none =>
    rw [found] at holds
    cases holds
  | some values =>
    rw [found] at holds
    obtain ⟨before, after, same, _⟩ := List.lookup_eq_some_iff.mp found
    exact ⟨values, same ▸ List.mem_append_right _ List.mem_cons_self, holds⟩

theorem sizeOf_lt_of_mem_values (holds : value ∈ object.values field) : sizeOf value < sizeOf object := by
  obtain ⟨values, listed, member⟩ := mem_fields_of_mem_values holds
  have first := List.sizeOf_lt_of_mem member
  have second := List.sizeOf_lt_of_mem listed
  cases object
  simp only [Prod.mk.sizeOf_spec, mk.sizeOf_spec] at second ⊢
  omega

end Instance

namespace Check

/-- The instances that are validated for a check. -/
def reaches (object : Instance) : Check → List Instance
  | fieldValid field => object.values field
  | _ => []

def failureLine (className : String) : Check → String
  | fieldValid field => className ++ "::" ++ field
  | check => className ++ ": " ++ check.text

end Check

namespace Collection

/-- An instance that does not pass some check of its class, or has a failing value in a field that is checked. -/
inductive Failing (collection : Collection) : Instance → Prop where
  | own {object definition check} (found : collection.find? object.className = some definition)
      (stated : check ∈ definition.checks) (fails : check.passes object = false) : Failing collection object
  | inside {object definition field value} (found : collection.find? object.className = some definition)
      (checked : .fieldValid field ∈ definition.checks) (holds : value ∈ object.values field)
      (below : Failing collection value) : Failing collection object

/-- A field fails by its values, all else by the instance itself. -/
def Fails (collection : Collection) (object : Instance) : Check → Prop
  | .fieldValid field => ∃ value ∈ object.values field, collection.Failing value
  | check => check.passes object = false

/-- What a report says of a check. -/
inductive Accounts (collection : Collection) (object : Instance) : Check → List String → Prop where
  | passes {check} (passes : ¬collection.Fails object check) : Accounts collection object check []
  | fails {check} (fails : collection.Fails object check) : Accounts collection object check
      (check.failureLine object.className :: (check.reaches object).flatMap collection.validate)

/-- One instance is a value in a field of the other that is checked. -/
def Looks (collection : Collection) (outer inner : Instance) : Prop :=
  ∃ definition field, collection.find? outer.className = some definition ∧ .fieldValid field ∈ definition.checks ∧
    inner ∈ outer.values field

/-- A check that fails, and the instance that it fails for. -/
structure Failure where
  object : Instance
  check : Check

def Failure.line (failure : Failure) : String :=
  failure.check.failureLine failure.object.className

/-- A check of its class fails for an instance that is reached through fields that are checked. -/
def Fault (collection : Collection) (object : Instance) (failure : Failure) : Prop :=
  Relation.ReflTransGen collection.Looks object failure.object ∧
    ∃ definition, collection.find? failure.object.className = some definition ∧ failure.check ∈ definition.checks ∧
      collection.Fails failure.object failure.check

variable {collection : Collection} {object value : Instance} {definition : Definition} {check : Check}
  {failure : Failure}

theorem failing_iff (found : collection.find? object.className = some definition) :
    collection.Failing object ↔ ∃ check ∈ definition.checks, collection.Fails object check := by
  constructor
  · intro failing
    cases failing with
    | @own _ _ check found' stated fails =>
      obtain rfl := Option.some.inj (found.symm.trans found')
      refine ⟨check, stated, ?_⟩
      cases check with
      | fieldValid field => cases fails
      | _ => exact fails
    | @inside _ _ field value found' checked holds below =>
      obtain rfl := Option.some.inj (found.symm.trans found')
      exact ⟨.fieldValid field, checked, value, holds, below⟩
  · rintro ⟨check, stated, fails⟩
    cases check with
    | fieldValid field =>
      obtain ⟨value, holds, below⟩ := fails
      exact .inside found stated holds below
    | _ => exact .own found stated fails

theorem name_of_find? (found : collection.find? object.className = some definition) :
    definition.name = object.className := by
  have same := List.find?_some found
  exact beq_iff_eq.mp same

section Unknown
variable (unknown : collection.find? object.className = none)
include unknown

theorem validate_unknown : collection.validate object = [] := by
  obtain ⟨className, tagName, content, attributes, fields⟩ := object
  rw [validate]
  simp only at unknown
  rw [unknown]

theorem not_failing_unknown : ¬collection.Failing object := by
  intro failing
  cases failing with
  | own found _ _ | inside found _ _ _ => cases unknown.symm.trans found

end Unknown

/-- A check is accounted for if the values that it looks into fail when something is reported of them. -/
theorem checkReport_accounts (found : collection.find? object.className = some definition)
    (below : ∀ value ∈ check.reaches object, collection.validate value = [] ↔ ¬collection.Failing value) :
    collection.Accounts object check
    (checkReport definition.name object (collection.validateFields object.fields) check) := by
  rw [name_of_find? found]
  cases check with
  | fieldValid field =>
    rw [checkReport, nested_reports]
    cases reports : (object.values field).flatMap collection.validate with
    | nil =>
      apply Accounts.passes
      rintro ⟨value, holds, failing⟩
      exact (below value holds).mp (List.flatMap_eq_nil_iff.mp reports value holds) failing
    | cons line lines =>
      have fails : collection.Fails object (.fieldValid field) := by
        by_contra passes
        have none : (object.values field).flatMap collection.validate = [] := by
          rw [List.flatMap_eq_nil_iff]
          intro value holds
          exact (below value holds).mpr fun failing => passes ⟨value, holds, failing⟩
        cases none.symm.trans reports
      have accounts := Accounts.fails fails
      rw [Check.reaches, reports] at accounts
      exact accounts
  | value | fractionDigits | length | enumeration | choice =>
    rw [checkReport]
    split
    · next passes => exact .passes fun fails => by cases passes.symm.trans fails
    · next fails => exact .fails (eq_false_of_ne_true fails)
    · intro field same
      cases same

theorem Accounts.eq_nil_iff {lines : List String} (accounts : collection.Accounts object check lines) :
    lines = [] ↔ ¬collection.Fails object check := by
  cases accounts with
  | passes passes => exact iff_of_true rfl passes
  | fails fails => exact iff_of_false (List.cons_ne_nil _ _) (not_not.mpr fails)

/-- Nothing is reported of an instance that does not fail, and something of each that does. -/
theorem validate_eq_nil_iff (object : Instance) : collection.validate object = [] ↔ ¬collection.Failing object := by
  cases found : collection.find? object.className with
  | none => exact iff_of_true (validate_unknown found) (not_failing_unknown found)
  | some definition =>
    have each (check : Check) :
      checkReport definition.name object (collection.validateFields object.fields) check = [] ↔
        ¬collection.Fails object check :=
      (checkReport_accounts found fun value reached => validate_eq_nil_iff value).eq_nil_iff
    rw [validate_eq found, List.flatMap_eq_nil_iff, failing_iff found]
    simp only [each, not_exists, not_and]
termination_by sizeOf object
decreasing_by
  cases check with
  | fieldValid field => exact Instance.sizeOf_lt_of_mem_values reached
  | _ => cases reached

theorem validate_accounts (found : collection.find? object.className = some definition) :
    ∃ parts, List.Forall₂ (collection.Accounts object) definition.checks parts ∧
      collection.validate object = parts.flatten := by
  refine ⟨definition.checks.map (checkReport definition.name object (collection.validateFields object.fields)), ?_, ?_⟩
  · rw [List.forall₂_map_right_iff, List.forall₂_same]
    exact fun check _ => checkReport_accounts found fun value _ => validate_eq_nil_iff value
  · rw [validate_eq found, List.flatMap_def]

theorem Fault.failing (fault : collection.Fault object failure) : collection.Failing object := by
  obtain ⟨reached, definition, found, stated, fails⟩ := fault
  induction reached using Relation.ReflTransGen.head_induction_on with
  | refl => exact (failing_iff found).mpr ⟨failure.check, stated, fails⟩
  | head looks _ below =>
    obtain ⟨outer, field, found, checked, holds⟩ := looks
    exact .inside found checked holds below

/-- The faults of an instance are its own and those of the values that its checks look into. -/
theorem fault_iff (found : collection.find? object.className = some definition) : collection.Fault object failure ↔
    ∃ check ∈ definition.checks, collection.Fails object check ∧
      (failure = ⟨object, check⟩ ∨ ∃ value ∈ check.reaches object, collection.Fault value failure) := by
  constructor
  · rintro ⟨reached, inner, known, stated, fails⟩
    rcases Relation.ReflTransGen.cases_head reached with same | ⟨value, ⟨outer, field, looked, checked, holds⟩, below⟩
    · obtain ⟨object', check⟩ := failure
      obtain rfl : object = object' := same
      obtain rfl := Option.some.inj (found.symm.trans known)
      exact ⟨check, stated, fails, Or.inl rfl⟩
    · obtain rfl := Option.some.inj (found.symm.trans looked)
      have fault : collection.Fault value failure := ⟨below, inner, known, stated, fails⟩
      exact ⟨.fieldValid field, checked, ⟨value, holds, fault.failing⟩, Or.inr ⟨value, holds, fault⟩⟩
  · rintro ⟨check, stated, fails, rfl | ⟨value, reached, below, further⟩⟩
    · exact ⟨.refl, definition, found, stated, fails⟩
    · cases check with
      | fieldValid field => exact ⟨.head ⟨definition, field, found, stated, reached⟩ below, further⟩
      | _ => cases reached

theorem not_fault_unknown (unknown : collection.find? object.className = none) : ¬collection.Fault object failure :=
  fun fault => not_failing_unknown unknown fault.failing

/-- Lines that are just those of some failures. -/
def Tells (lines : List String) (among : Failure → Prop) : Prop :=
  ∃ failures : List Failure, lines = failures.map Failure.line ∧ ∀ failure, failure ∈ failures ↔ among failure

namespace Tells
variable {α : Type} {among other : Failure → Prop} {lines : List String}

theorem nil (none : ∀ failure, ¬among failure) : Tells [] among :=
  ⟨[], rfl, fun failure => iff_of_false List.not_mem_nil (none failure)⟩

theorem cons (tells : Tells lines among) (first : Failure) :
    Tells (first.line :: lines) fun failure => failure = first ∨ among failure := by
  obtain ⟨failures, rfl, all⟩ := tells
  exact ⟨first :: failures, rfl, fun failure => List.mem_cons.trans (or_congr_right (all failure))⟩

theorem congr (tells : Tells lines among) (same : ∀ failure, among failure ↔ other failure) : Tells lines other := by
  obtain ⟨failures, listed, all⟩ := tells
  exact ⟨failures, listed, fun failure => (all failure).trans (same failure)⟩

theorem flatMap {report : α → List String} {among : α → Failure → Prop} {values : List α}
    (each : ∀ value ∈ values, Tells (report value) (among value)) :
    Tells (values.flatMap report) fun failure => ∃ value ∈ values, among value failure := by
  induction values with
  | nil => exact .nil fun _ ⟨_, member, _⟩ => List.not_mem_nil member
  | cons value values ih =>
    obtain ⟨first, listed, own⟩ := each value List.mem_cons_self
    obtain ⟨rest, others, all⟩ := ih fun value member => each value (List.mem_cons_of_mem _ member)
    refine ⟨first ++ rest, by rw [List.flatMap_cons, listed, others, List.map_append], fun failure => ?_⟩
    rw [List.mem_append, own, all]
    exact (List.exists_mem_cons_iff (among · failure) value values).symm

end Tells

theorem validate_tells (object : Instance) : Tells (collection.validate object) (collection.Fault object) := by
  cases found : collection.find? object.className with
  | none =>
    rw [validate_unknown found]
    exact .nil fun failure => not_fault_unknown found
  | some definition =>
    rw [validate_eq found]
    refine (Tells.flatMap fun check stated => ?_).congr fun failure => (fault_iff found).symm
    have accounts := checkReport_accounts found fun value (_ : value ∈ check.reaches object) =>
      validate_eq_nil_iff value
    generalize checkReport definition.name object (collection.validateFields object.fields) check = lines at accounts
    cases accounts with
    | passes passes => exact .nil fun _ fault => passes fault.1
    | fails fails =>
      have below := Tells.flatMap fun value (reached : value ∈ check.reaches object) => validate_tells value
      refine (below.cons ⟨object, check⟩).congr fun failure => ?_
      rw [and_iff_right fails]
termination_by sizeOf object
decreasing_by
  cases check with
  | fieldValid field => exact Instance.sizeOf_lt_of_mem_values reached
  | _ => cases reached

/-- A report is empty where nothing fails. It has what each check of the class has to say, in order, and so a line for
each check that fails in the instance or in what is reached from it, and no other. -/
theorem failures_reported (collection : Collection) (object : Instance) :
    (collection.validate object = [] ↔ ¬collection.Failing object) ∧
    (collection.find? object.className = none → collection.validate object = []) ∧
    (∀ definition, collection.find? object.className = some definition → ∃ parts,
      List.Forall₂ (collection.Accounts object) definition.checks parts ∧ collection.validate object = parts.flatten) ∧
    Tells (collection.validate object) (collection.Fault object) :=
  ⟨validate_eq_nil_iff object, validate_unknown, fun _ => validate_accounts, validate_tells object⟩

end Collection
end SchemaClasses
