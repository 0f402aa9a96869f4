import DegreeTwo.Failure
import Mathlib.Data.List.Forall2

/-!
# Outcomes of computations

A computation with several steps succeeds exactly if each step does.  What is proved of a
computation that can break off names its result and the only reason for which it may have none.
-/

namespace DegreeTwo

section Except

variable {ε α β : Type}

@[simp]
theorem ok_bind (value : α) (next : α → Except ε β) : (Except.ok value >>= next) = next value := rfl

@[simp]
theorem error_bind (error : ε) (next : α → Except ε β) :
    (Except.error error >>= next) = .error error := rfl

theorem bind_eq_ok {computation : Except ε α} {next : α → Except ε β} {result : β} :
    (computation >>= next) = .ok result ↔
      ∃ value, computation = .ok value ∧ next value = .ok result := by
  cases computation with
  | error error => simp
  | ok value => simp

/-- A step that is taken under a condition only. -/
theorem ite_bind_else (condition : Prop) [Decidable condition] (step : Except ε α) (value : α)
    (next : α → Except ε β) :
    (if condition then step >>= next else next value) =
      (if condition then step else pure value) >>= next := by
  split <;> rfl

/-- What follows a step matters only for the value that the step returns. -/
theorem bind_congr_ok {computation : Except ε α} {first second : α → Except ε β}
    (same : ∀ value, computation = .ok value → first value = second value) :
    computation >>= first = computation >>= second := by
  cases computation with
  | error error => rfl
  | ok value => exact same value rfl

/-- A list of computations succeeds with the list of their results. -/
theorem mapM_eq_ok {f : α → Except ε β} {inputs : List α} {outputs : List β} :
    inputs.mapM f = .ok outputs ↔
      List.Forall₂ (fun input output => f input = .ok output) inputs outputs := by
  induction inputs generalizing outputs with
  | nil =>
      rw [List.mapM_nil, List.forall₂_nil_left_iff]
      exact ⟨fun mapped => (Except.ok.inj mapped).symm, fun empty => by rw [empty]; rfl⟩
  | cons input inputs ih =>
      rw [List.mapM_cons, List.forall₂_cons_left_iff, bind_eq_ok]
      constructor
      · rintro ⟨output, first, rest⟩
        obtain ⟨others, mapped, rest⟩ := bind_eq_ok.mp rest
        exact ⟨output, others, first, ih.mp mapped, (Except.ok.inj rest).symm⟩
      · rintro ⟨output, others, first, related, rfl⟩
        exact ⟨output, first, bind_eq_ok.mpr ⟨others, ih.mpr related, rfl⟩⟩

/-- Computations at positions succeed with a list exactly if each of them succeeds with the element
at its position. -/
theorem mapM_ofFn_eq_ok {n : Nat} {computation : Fin n → Except ε β} {outputs : List β} :
    (List.ofFn computation).mapM id = .ok outputs ↔
      ∃ length_eq : n = outputs.length, ∀ i,
        computation i = .ok (outputs.get (i.cast length_eq)) := by
  rw [mapM_eq_ok, List.forall₂_iff_get]
  simp only [List.length_ofFn, List.get_eq_getElem, List.getElem_ofFn, id_eq]
  constructor
  · rintro ⟨length_eq, each⟩
    exact ⟨length_eq, fun i => each i i.isLt (length_eq ▸ i.isLt)⟩
  · rintro ⟨length_eq, each⟩
    exact ⟨length_eq, fun i inside _ => each ⟨i, inside⟩⟩

/-- A list of computations breaks off exactly if one of them does. -/
theorem exists_mapM_eq_error {f : α → Except ε β} {inputs : List α} :
    (∃ error, inputs.mapM f = .error error) ↔
      ∃ input ∈ inputs, ∃ error, f input = .error error := by
  induction inputs with
  | nil => simp [pure, Except.pure]
  | cons input inputs ih =>
      rw [List.mapM_cons]
      simp only [List.mem_cons, exists_eq_or_imp, ← ih]
      cases f input with
      | error error => simp
      | ok output => cases inputs.mapM f <;> simp [pure, Except.pure]

theorem length_of_mapM_eq_ok {f : α → Except ε β} {inputs : List α} {outputs : List β}
    (mapped : inputs.mapM f = .ok outputs) : outputs.length = inputs.length :=
  (mapM_eq_ok.mp mapped).length_eq.symm

theorem exists_of_mem_mapM {f : α → Except ε β} {inputs : List α} {outputs : List β}
    (mapped : inputs.mapM f = .ok outputs) {output : β} (member : output ∈ outputs) :
    ∃ input ∈ inputs, f input = .ok output := by
  induction mapM_eq_ok.mp mapped with
  | nil => cases member
  | cons related _ ih =>
      rcases List.mem_cons.mp member with rfl | member
      · exact ⟨_, List.mem_cons_self, related⟩
      · obtain ⟨input, input_member, succeeds⟩ := ih (mapM_eq_ok.mpr ‹_›) member
        exact ⟨input, List.mem_cons_of_mem _ input_member, succeeds⟩

/-- Computing over two lists is the same where the computations are. -/
theorem mapM_eq_of_forall₂ {γ : Type} {f : α → Except ε γ} {g : β → Except ε γ} {inputs : List α}
    {others : List β} (same : List.Forall₂ (fun a b => f a = g b) inputs others) :
    inputs.mapM f = others.mapM g := by
  induction same with
  | nil => rfl
  | cons first _ ih => rw [List.mapM_cons, List.mapM_cons, first, ih]

/-- Accumulating over two lists is the same where the steps are. -/
theorem foldlM_eq_of_forall₂ {σ : Type} {step : σ → α → Except ε σ} {other : σ → β → Except ε σ}
    {inputs : List α} {others : List β}
    (same : List.Forall₂ (fun a b => ∀ state, step state a = other state b) inputs others)
    (start : σ) : inputs.foldlM step start = others.foldlM other start := by
  induction same generalizing start with
  | nil => rfl
  | cons first _ ih =>
      rw [List.foldlM_cons, List.foldlM_cons, first start]
      exact bind_congr ih

end Except

variable {α β : Type}

theorem lift_ok (value : α) :
    (liftM (.ok value : Except Fault α) : Except Failure α) = .ok value := rfl

theorem lift_eq_ok {computation : Except Fault α} {value : α} :
    (liftM computation : Except Failure α) = .ok value ↔ computation = .ok value := by
  constructor
  · intro succeeds
    cases computation with
    | error fault => cases succeeds
    | ok result =>
        cases succeeds
        rfl
  · rintro rfl
    rfl

theorem lift_eq_faulted {computation : Except Fault α} {fault : Fault} :
    (liftM computation : Except Failure α) = .error (.faulted fault) ↔
      computation = .error fault := by
  cases computation with
  | error other =>
      constructor
      · rintro ⟨⟩
        rfl
      · rintro ⟨⟩
        rfl
  | ok value => exact ⟨nofun, nofun⟩

theorem not_refused_lift {computation : Except Fault α} {error : Error} :
    (liftM computation : Except Failure α) ≠ .error (.refused error) := by
  cases computation <;> exact nofun

/-- A computation that cannot refuse may be mapped before or after it is lifted. -/
theorem lift_map (g : α → β) (computation : Except Fault α) :
    (liftM (g <$> computation) : Except Failure β) = g <$> liftM computation := by
  cases computation <;> rfl

/-- What is made of a result may be made of it before or after it is lifted. -/
theorem lift_bind_pure (computation : Except Fault α) (f : α → β) :
    (liftM (computation >>= fun value => pure (f value)) : Except Failure β) =
      liftM computation >>= fun value => pure (f value) := by
  cases computation <;> rfl

/-- Lifting every step of a list of computations lifts their composition. -/
theorem mapM_lift {f : α → Except Fault β} (inputs : List α) :
    inputs.mapM (fun input => (liftM (f input) : Except Failure β)) = liftM (inputs.mapM f) := by
  induction inputs with
  | nil => rfl
  | cons input inputs ih =>
      rw [List.mapM_cons, List.mapM_cons, ih]
      cases f input with
      | error fault => rfl
      | ok output => cases inputs.mapM f <;> rfl

/-- The computation returns a result with the property, or breaks off because an integer does not
fit. -/
def Yields (computation : Except Fault α) (property : α → Prop) : Prop :=
  match computation with
  | .ok result => property result
  | .error fault => ∃ operation, fault = .overflow operation

namespace Yields

variable {computation : Except Fault α} {property weaker : α → Prop}

theorem ok {value : α} (holds : property value) : Yields (.ok value) property := holds

theorem pure {value : α} (holds : property value) : Yields (Pure.pure value) property := holds

theorem overflow (operation : Operation) : Yields (.error (.overflow operation)) property :=
  ⟨operation, rfl⟩

theorem bind {next : α → Except Fault β} {result : β → Prop} (first : Yields computation property)
    (second : ∀ value, property value → Yields (next value) result) :
    Yields (computation >>= next) result := by
  cases computation with
  | error fault => exact first
  | ok value => exact second value first

/-- A property of the result may use that it is the result. -/
theorem imp_of_ok (yields : Yields computation property)
    (implies : ∀ value, computation = .ok value → property value → weaker value) :
    Yields computation weaker := by
  cases computation with
  | error fault => exact yields
  | ok value => exact implies value rfl yields

theorem imp (yields : Yields computation property)
    (implies : ∀ value, property value → weaker value) : Yields computation weaker :=
  yields.imp_of_ok fun value _ => implies value

theorem result {value : α} (yields : Yields computation property)
    (succeeds : computation = .ok value) : property value := by
  rwa [succeeds] at yields

/-- A computation that does not overflow has a result. -/
theorem exists_ok (yields : Yields computation property)
    (no_overflow : ∀ operation, computation ≠ .error (.overflow operation)) :
    ∃ value, computation = .ok value ∧ property value := by
  cases computation with
  | error fault =>
      obtain ⟨operation, rfl⟩ := yields
      exact absurd rfl (no_overflow operation)
  | ok value => exact ⟨value, rfl, yields⟩

theorem mapM {f : α → Except Fault β} {relation : α → β → Prop} {inputs : List α}
    (each : ∀ input ∈ inputs, Yields (f input) (relation input)) :
    Yields (inputs.mapM f) (List.Forall₂ relation inputs) := by
  induction inputs with
  | nil => exact .pure .nil
  | cons input inputs ih =>
      rw [List.mapM_cons]
      refine (each input List.mem_cons_self).bind fun output related => ?_
      refine (ih fun other member => each other (List.mem_cons_of_mem input member)).bind ?_
      intro outputs all_related
      exact .pure (.cons related all_related)

end Yields

end DegreeTwo
