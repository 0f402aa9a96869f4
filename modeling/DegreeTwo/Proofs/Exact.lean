import DegreeTwo.Proofs.Value.Basic

/-!
# Exact outcomes

An operation on integers of a width has a result exactly if the integer that it names fits the
width.  So a computation has a condition under which it returns, and a sequence of computations
returns exactly if the conditions of all of them hold.
-/

namespace DegreeTwo

/-- The integer is one of the width. -/
def IntWidth.Fits (width : IntWidth) (n : Int) : Prop := -width.limit ≤ n ∧ n < width.limit

instance (width : IntWidth) (n : Int) : Decidable (width.Fits n) :=
  inferInstanceAs (Decidable (-width.limit ≤ n ∧ n < width.limit))

/-- An integer does not fit its type. -/
def Fault.IsOverflow (fault : Fault) : Prop := ∃ operation, fault = .overflow operation

variable {α β : Type}

/-- The computation returns a result with the property if the condition holds, and breaks off with
one of the faults if it does not. -/
def YieldsIff (computation : Except Fault α) (faults : Fault → Prop) (condition : Prop)
    (property : α → Prop) : Prop :=
  match computation with
  | .ok result => condition ∧ property result
  | .error fault => ¬ condition ∧ faults fault

namespace YieldsIff

variable {computation : Except Fault α} {faults : Fault → Prop} {condition : Prop}
variable {property weaker : α → Prop}

theorem pure {value : α} (holds : property value) :
    YieldsIff (Pure.pure value) faults True property := ⟨trivial, holds⟩

theorem bind {next : α → Except Fault β} {rest : Prop} {result : β → Prop}
    (first : YieldsIff computation faults condition property)
    (second : ∀ value, property value → YieldsIff (next value) faults rest result) :
    YieldsIff (computation >>= next) faults (condition ∧ rest) result := by
  cases computation with
  | error fault => exact ⟨fun both => first.1 both.1, first.2⟩
  | ok value =>
      have outcome := second value first.2
      change YieldsIff (next value) faults (condition ∧ rest) result
      cases after : next value with
      | error fault =>
          rw [after] at outcome
          exact ⟨fun both => outcome.1 both.2, outcome.2⟩
      | ok final =>
          rw [after] at outcome
          exact ⟨⟨first.1, outcome.1⟩, outcome.2⟩

/-- A property of the result may use that it is the result. -/
theorem imp_of_ok (yields : YieldsIff computation faults condition property)
    (implies : ∀ value, computation = .ok value → property value → weaker value) :
    YieldsIff computation faults condition weaker := by
  cases computation with
  | error fault => exact yields
  | ok value => exact ⟨yields.1, implies value rfl yields.2⟩

theorem imp (yields : YieldsIff computation faults condition property)
    (implies : ∀ value, property value → weaker value) :
    YieldsIff computation faults condition weaker :=
  yields.imp_of_ok fun value _ => implies value

theorem congr {other : Prop} (yields : YieldsIff computation faults condition property)
    (same : condition ↔ other) : YieldsIff computation faults other property := by
  rwa [← propext same]

theorem isOverflow {operation : Operation}
    (yields : YieldsIff computation (· = .overflow operation) condition property) :
    YieldsIff computation Fault.IsOverflow condition property := by
  cases computation with
  | error fault => exact ⟨yields.1, operation, yields.2⟩
  | ok value => exact yields

/-- A last step that cannot break off. -/
theorem map {f : α → β} {result : β → Prop}
    (yields : YieldsIff computation faults condition property)
    (maps : ∀ value, property value → result (f value)) :
    YieldsIff (computation >>= fun value => Pure.pure (f value)) faults condition result :=
  (yields.bind fun value holds => .pure (maps value holds)).congr (and_iff_left trivial)

theorem mapM {f : α → Except Fault β} {conditions : α → Prop} {relation : α → β → Prop}
    {inputs : List α}
    (each : ∀ input ∈ inputs, YieldsIff (f input) faults (conditions input) (relation input)) :
    YieldsIff (inputs.mapM f) faults (∀ input ∈ inputs, conditions input)
      (List.Forall₂ relation inputs) := by
  induction inputs with
  | nil => exact (pure .nil).congr (by simp)
  | cons input inputs ih =>
      rw [List.mapM_cons, List.forall_mem_cons]
      refine (each input List.mem_cons_self).bind fun output related => ?_
      refine (ih fun other member => each other (List.mem_cons_of_mem input member)).map ?_
      intro outputs all_related
      exact .cons related all_related

theorem of_ok {value : α} (yields : YieldsIff computation faults condition property)
    (succeeds : computation = .ok value) : condition ∧ property value := by
  rwa [succeeds] at yields

theorem ok_iff (yields : YieldsIff computation faults condition property) :
    (∃ result, computation = .ok result ∧ property result) ↔ condition := by
  cases computation with
  | error fault => simp [yields.1]
  | ok value => simp [yields.1, yields.2]

theorem error_iff (yields : YieldsIff computation faults condition property) :
    (∃ fault, computation = .error fault ∧ faults fault) ↔ ¬ condition := by
  cases computation with
  | error fault => simp [yields.1, yields.2]
  | ok value => simp [yields.1]

theorem exists_error_iff (yields : YieldsIff computation faults condition property) :
    (∃ fault, computation = .error fault) ↔ ¬ condition := by
  cases computation with
  | error fault => simp [yields.1]
  | ok value => simp [yields.1]

theorem eq_error {fault : Fault} (yields : YieldsIff computation (· = fault) condition property)
    (fails : ¬ condition) : computation = .error fault := by
  obtain ⟨other, broken_off, rfl⟩ := yields.error_iff.mpr fails
  exact broken_off

end YieldsIff

/-! ## Coefficients -/

namespace Scalar

variable {width : IntWidth}

theorem fits_toInt (a : Scalar (.integer width)) : width.Fits a.toInt := ⟨a.lower, a.upper⟩

theorem fit_yieldsIff (operation : Operation) (n : Int) :
    YieldsIff (BoundedInt.fit operation n) (· = .overflow operation) (width.Fits n)
      fun a : Scalar (.integer width) => a.toInt = n := by
  cases result : (BoundedInt.fit operation n : Except Fault (BoundedInt width)) with
  | error fault =>
      obtain ⟨fault_eq, outside⟩ := BoundedInt.fit_eq_error.mp result
      exact ⟨outside, fault_eq⟩
  | ok a =>
      obtain rfl := BoundedInt.fit_eq_ok.mp result
      exact ⟨⟨a.lower, a.upper⟩, rfl⟩

theorem add_yieldsIff (a b : Scalar (.integer width)) :
    YieldsIff (a.add b) (· = .overflow .add) (width.Fits (a.toInt + b.toInt)) fun sum =>
      sum.toInt = a.toInt + b.toInt := fit_yieldsIff .add _

theorem mul_yieldsIff (a b : Scalar (.integer width)) :
    YieldsIff (a.mul b) (· = .overflow .multiply) (width.Fits (a.toInt * b.toInt)) fun product =>
      product.toInt = a.toInt * b.toInt := fit_yieldsIff .multiply _

end Scalar

end DegreeTwo
