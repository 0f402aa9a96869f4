import DegreeTwo.Proofs.Exact
import DegreeTwo.Proofs.Sorting.Collected

/-!
# Prefix sums of merged coefficients

Merging by key adds the coefficients of one key one after the other, in the order of the sequence.
So it meets exactly the prefix sums of these coefficients, and has a result exactly if all of them
fit.  The order matters: of two sequences with the same coefficients one may fit and the other not.
-/

namespace DegreeTwo

variable {α κ : Type} {width : IntWidth}

/-- Every sum of the first so many numbers is an integer of the width. -/
def PrefixSumsFit (width : IntWidth) (numbers : List Int) : Prop :=
  ∀ count, width.Fits (numbers.take count).sum

theorem IntWidth.fits_zero (width : IntWidth) : width.Fits 0 := by
  have := width.one_lt_limit
  unfold Fits
  omega

theorem prefixSumsFit_nil (width : IntWidth) : PrefixSumsFit width [] := by
  intro count
  simpa using width.fits_zero

theorem prefixSumsFit_cons {n : Int} {numbers : List Int} :
    PrefixSumsFit width (n :: numbers) ↔
      ∀ count, width.Fits (n + (numbers.take count).sum) := by
  constructor
  · intro fit count
    simpa using fit (count + 1)
  · intro fit count
    cases count with
    | zero => simpa using width.fits_zero
    | succ count => simpa using fit count

instance (width : IntWidth) (numbers : List Int) : Decidable (PrefixSumsFit width numbers) :=
  decidable_of_iff (∀ count ≤ numbers.length, width.Fits (numbers.take count).sum) <| by
    constructor
    · intro fit count
      rcases Nat.le_total count numbers.length with inside | beyond
      · exact fit count inside
      · rw [List.take_of_length_le beyond, ← List.take_length (l := numbers)]
        exact fit numbers.length le_rfl
    · exact fun fit count _ => fit count

example : PrefixSumsFit .bits8 [100, -100, 100] ∧ ¬ PrefixSumsFit .bits8 [100, 100, -100] := by
  decide

/-- Computations one after the other, each of which leaves one element. -/
theorem YieldsIff.filterMapM {f : κ → Except Fault (Option α)} {faults : Fault → Prop}
    {conditions : κ → Prop} {relation : κ → α → Prop} {inputs : List κ}
    (each : ∀ input ∈ inputs, YieldsIff (f input) faults (conditions input) fun output =>
      ∃ value, output = some value ∧ relation input value) :
    YieldsIff (inputs.filterMapM f) faults (∀ input ∈ inputs, conditions input)
      (List.Forall₂ relation inputs) := by
  induction inputs with
  | nil => exact (pure .nil).congr (by simp)
  | cons input inputs ih =>
      rw [List.filterMapM_cons, List.forall_mem_cons]
      apply (each input List.mem_cons_self).bind
      rintro _ ⟨value, rfl, related⟩
      refine (ih fun other member => each other (List.mem_cons_of_mem input member)).map ?_
      intro values all_related
      exact .cons related all_related

/-- Combining two elements adds their coefficients, exactly if the sum fits, and keeps the key. -/
structure AddsExactly (width : IntWidth) (key : α → κ) (coeff : α → Int)
    (combine : α → α → Except Fault α) : Prop where
  /-- Every coefficient is an integer of the width. -/
  fits : ∀ x, width.Fits (coeff x)
  /-- Combining fails only by an overflow of the sum. -/
  yields : ∀ left right, YieldsIff (combine left right) (· = .overflow .add)
    (width.Fits (coeff left + coeff right)) fun merged =>
      key merged = key left ∧ coeff merged = coeff left + coeff right

namespace AddsExactly

variable {key : α → κ} {coeff : α → Int} {combine : α → α → Except Fault α}

theorem foldlM_yieldsIff (adds : AddsExactly width key coeff combine) (first : α) (rest : List α) :
    YieldsIff (rest.foldlM combine first) (· = .overflow .add)
      (PrefixSumsFit width ((first :: rest).map coeff)) fun merged =>
        key merged = key first ∧ coeff merged = ((first :: rest).map coeff).sum := by
  induction rest generalizing first with
  | nil =>
      have first_fits : PrefixSumsFit width ([first].map coeff) := by
        simpa [prefixSumsFit_cons] using adds.fits first
      exact (YieldsIff.pure ⟨rfl, by simp⟩).congr (iff_of_true trivial first_fits)
  | cons next rest ih =>
      rw [List.foldlM_cons]
      -- What is added to the first two elements is added to their sum.
      have sums : PrefixSumsFit width ((first :: next :: rest).map coeff) ↔
          width.Fits (coeff first + coeff next) ∧
            ∀ count, width.Fits (coeff first + coeff next + ((rest.map coeff).take count).sum) := by
        rw [List.map_cons, prefixSumsFit_cons]
        constructor
        · intro fit
          exact ⟨by simpa using fit 1, fun count => by simpa [Int.add_assoc] using fit (count + 1)⟩
        · rintro ⟨-, fit⟩ count
          cases count with
          | zero => simpa using adds.fits first
          | succ count => simpa [Int.add_assoc] using fit count
      refine ((adds.yields first next).bind ?_).congr sums.symm
      rintro merged ⟨merged_key, merged_coeff⟩
      refine ((ih merged).congr ?_).imp ?_
      · rw [List.map_cons, prefixSumsFit_cons, merged_coeff]
      · rintro final ⟨final_key, final_coeff⟩
        refine ⟨final_key.trans merged_key, ?_⟩
        rw [final_coeff, List.map_cons, List.sum_cons, merged_coeff]
        simp [Int.add_assoc]

theorem preservesKey (adds : AddsExactly width key coeff combine) : PreservesKey key combine := by
  intro left right _
  rw [returns_except_iff]
  intro merged succeeds
  exact ((adds.yields left right).of_ok succeeds).2.1

variable [LinearOrder κ]

/-- The elements of a key that occurs are folded into one element, which has the sum of their
coefficients. -/
theorem foldGroup_yieldsIff (adds : AddsExactly width key coeff combine) {values : List α} {k : κ}
    (occurs : k ∈ values.map key) :
    YieldsIff (foldFirst combine (withKey key values k)) (· = .overflow .add)
      (PrefixSumsFit width ((withKey key values k).map coeff)) fun folded =>
        ∃ merged, folded = some merged ∧ key merged = k ∧
          coeff merged = ((withKey key values (key merged)).map coeff).sum := by
  have in_group : ∀ value ∈ withKey key values k, key value = k := fun value member =>
    (mem_withKey.mp member).2
  obtain ⟨value, member, value_key⟩ := List.mem_map.mp occurs
  have present : value ∈ withKey key values k := mem_withKey.mpr ⟨member, value_key⟩
  cases group : withKey key values k with
  | nil => simp [group] at present
  | cons first rest =>
      rw [foldFirst, map_eq_pure_bind]
      apply (adds.foldlM_yieldsIff first rest).map
      rintro merged ⟨merged_key, merged_coeff⟩
      have first_key : key first = k := in_group first (group ▸ List.mem_cons_self)
      rw [first_key] at merged_key
      exact ⟨merged, rfl, merged_key, by rw [merged_key, group, merged_coeff]⟩

/-- Merging has a result exactly if the prefix sums of every key fit; it then has one element for
each key, with the sum of the coefficients of this key. -/
theorem mergeByKey_yieldsIff (adds : AddsExactly width key coeff combine) (values : List α) :
    YieldsIff (mergeByKey key combine values) (· = .overflow .add)
      (∀ k, PrefixSumsFit width ((withKey key values k).map coeff)) fun merged =>
        merged.map key = distinctKeys key values ∧
          ∀ x ∈ merged, coeff x = ((withKey key values (key x)).map coeff).sum := by
  have absent_fit : ∀ k, k ∉ values.map key →
      PrefixSumsFit width ((withKey key values k).map coeff) := by
    intro k absent
    rw [withKey_eq_nil fun value member same => absent (List.mem_map.mpr ⟨value, member, same⟩)]
    exact prefixSumsFit_nil width
  have occurring : (∀ k ∈ distinctKeys key values,
        PrefixSumsFit width ((withKey key values k).map coeff)) ↔
      ∀ k, PrefixSumsFit width ((withKey key values k).map coeff) := by
    constructor
    · intro fit k
      by_cases occurs : k ∈ values.map key
      · exact fit k (mem_distinctKeys.mpr occurs)
      · exact absent_fit k occurs
    · exact fun fit k _ => fit k
  rw [mergeByKey_eq_filterMapM adds.preservesKey]
  refine ((YieldsIff.filterMapM fun k member =>
    adds.foldGroup_yieldsIff (mem_distinctKeys.mp member)).congr occurring).imp ?_
  intro merged related
  generalize distinctKeys key values = keys at related
  induction related with
  | nil => simp
  | cons first _ ih => simpa [first.1, ih.1] using And.intro first.2 ih.2

end AddsExactly

end DegreeTwo
