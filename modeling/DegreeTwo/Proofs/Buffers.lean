import DegreeTwo.Proofs.ArrayOperations

/-!
# Writing through buffers

Terms are appended by handing out new slots at the end of a buffer and storing over them, and a
destination is overwritten by resizing its buffer and storing over all slots.  Where there is one
value for each slot that is handed out, the first is the concatenation of lists and the second is
the list of values alone: no slot keeps an old value or the one that it was filled with.
-/

namespace DegreeTwo

namespace Buffer

variable {α : Type}

/-- Extending a buffer appends the new slots, provided that their number is one of a length. -/
theorem extend_bind {β : Type} (buffer : List α) (additional : Nat) (fill : α)
    (next : List α → Except Fault β) :
    extend buffer additional fill >>= next = (do
      let _ ← Index.add buffer.length additional
      next (buffer ++ List.replicate additional fill)) := by
  rw [extend, bind_assoc]
  apply bind_congr_ok
  intro len sum
  obtain ⟨-, len_eq⟩ := Index.add_eq_ok.mp sum
  rw [pure_bind, len_eq, resize]
  split
  · have none_added : additional = 0 := by omega
    simp [none_added]
  · rw [Nat.add_sub_cancel_left]

theorem overwrite_append {slots values : List α} (rest : List α)
    (filled : values.length = slots.length) :
    overwrite (slots ++ rest) values = values ++ rest := by
  induction slots generalizing values with
  | nil =>
      have values_empty := List.eq_nil_of_length_eq_zero filled
      cases rest with
      | nil => simp [values_empty, overwrite]
      | cons slot rest => simp [values_empty, overwrite]
  | cons slot slots ih =>
      cases values with
      | nil => simp at filled
      | cons value values => simpa [overwrite] using ih (Nat.succ_inj.mp filled)

/-- Values stored over as many slots replace them and leave what stands before and behind. -/
theorem storeAt_append (buffer slots rest : List α) {values : List α}
    (filled : values.length = slots.length) :
    storeAt (buffer ++ (slots ++ rest)) buffer.length values = buffer ++ (values ++ rest) := by
  rw [storeAt, List.take_left, List.drop_left, overwrite_append rest filled]

theorem storeAt_new (buffer : List α) {fill : α} {additional : Nat} {values : List α}
    (filled : values.length = additional) :
    storeAt (buffer ++ List.replicate additional fill) buffer.length values = buffer ++ values := by
  simpa using storeAt_append buffer (List.replicate additional fill) [] (by simpa)

/-- Rows that fill the new slots together are appended one after the other. -/
theorem storeRows_new (buffer slots : List α) {width : Nat} {rows : List (List α)}
    (row_length : ∀ row ∈ rows, row.length = width) (filled : slots.length = rows.length * width) :
    storeRows (buffer ++ slots) buffer.length width rows = buffer ++ rows.flatten := by
  induction rows generalizing buffer slots with
  | nil =>
      have slots_empty : slots = [] := List.eq_nil_of_length_eq_zero (by simpa using filled)
      simp [slots_empty, storeRows]
  | cons row rows ih =>
      have first_length : row.length = width := row_length row List.mem_cons_self
      rw [List.length_cons, Nat.succ_mul] at filled
      have slots_parts : slots = slots.take width ++ slots.drop width :=
        (List.take_append_drop width slots).symm
      have first_filled : row.length = (slots.take width).length := by
        rw [List.length_take]
        omega
      have rest_filled : (slots.drop width).length = rows.length * width := by
        rw [List.length_drop]
        omega
      have next_offset : buffer.length + width = (buffer ++ row).length := by
        rw [List.length_append, first_length]
      rw [storeRows, slots_parts, storeAt_append _ _ _ first_filled, next_offset,
        ← List.append_assoc, ih (buffer ++ row) _ _ rest_filled]
      · simp
      · exact fun other member => row_length other (List.mem_cons_of_mem row member)

end Buffer

variable {T : ScalarType}

theorem AffineFunction.overwrite_eq (dest : AffineFunction T) (source : Below AffineFunction T) :
    dest.overwrite source =
      ⟨source.value.linear.map (LinearTerm.widen source.source_le),
        source.value.constant.widen source.source_le⟩ :=
  storeLinear_eq (List.length_map _)

theorem AffineFunction.overwrite_same (dest f : AffineFunction T) :
    dest.overwrite (.same f) = f :=
  (dest.overwrite_eq (.same f)).trans
    (congrArg₂ mk (LinearTerm.map_widen_self _ f.linear) (f.constant.widen_self _))

/-- A sum of single terms has exactly the terms of its pairs. -/
theorem AffineFunction.dotTerms_eq (dest : AffineFunction T) (factors : TermFactors T) :
    dest.dotTerms factors = (do
      checkLength .y factors.length factors.rightLength
      let terms ← factors.terms
      pure ⟨terms, .zero⟩) := by
  rw [dotTerms_eq_checked]
  apply bind_congr_ok
  intro _ checked
  apply bind_congr_ok
  intro terms succeeds
  rw [storeLinear_eq (TermFactors.length_of_terms_eq_ok (checkLength_eq_ok.mp checked)
    (lift_eq_ok.mp succeeds))]

/-- Adding a multiple of a function appends the multiples of its terms. -/
theorem AffineFunction.addScaledFactor_function (dest : AffineFunction T) (scale : Scalar T)
    (source : Below AffineFunction T) :
    dest.addScaledFactor scale (.function source) = (do
      let _ ← Index.add dest.linear.length source.value.linear.length
      let scaled ← source.value.linear.mapM fun term => (term.widen source.source_le).scale scale
      let product ← (source.value.constant.widen source.source_le).mul scale
      let constant ← dest.constant.add product
      pure ⟨dest.linear ++ scaled, constant⟩) := by
  rw [addScaledFactor, Buffer.extend_bind]
  apply bind_congr_ok
  intro _ _
  apply bind_congr_ok
  intro scaled mapped
  rw [Buffer.storeAt_new _ (length_of_mapM_eq_ok mapped)]

namespace QuadraticFunction

theorem overwrite_eq (dest : QuadraticFunction T) (source : Below QuadraticFunction T) :
    dest.overwrite source =
      ⟨source.value.quadratic.map (QuadraticTerm.widen source.source_le),
        source.value.affine.linear.map (LinearTerm.widen source.source_le),
        source.value.affine.constant.widen source.source_le⟩ := by
  rw [overwrite, storeQuadratic_eq (List.length_map _), AffineFunction.overwrite_eq]

theorem overwrite_same (dest f : QuadraticFunction T) : dest.overwrite (.same f) = f :=
  (storeQuadratic_eq (List.length_map _)).trans
    (congrArg₂ mk (QuadraticTerm.map_widen_self _ f.quadratic)
      (dest.affine.overwrite_same f.affine))

/-- Adding a multiple of a function appends the multiples of its terms. -/
theorem addScaledFunction_eq (dest : QuadraticFunction T) (source : Below QuadraticFunction T)
    (scale : Scalar T) :
    dest.addScaledFunction source scale = (do
      let _ ← Index.add dest.quadratic.length source.value.quadratic.length
      let scaled ← source.value.quadratic.mapM fun term => (term.widen source.source_le).scale scale
      let affine ← dest.affine.addScaledFactor scale
        (.function ⟨source.source, source.source_le, source.value.affine⟩)
      pure ⟨dest.quadratic ++ scaled, affine⟩) := by
  rw [addScaledFunction, Buffer.extend_bind]
  apply bind_congr_ok
  intro _ _
  apply bind_congr_ok
  intro scaled mapped
  rw [Buffer.storeAt_new _ (length_of_mapM_eq_ok mapped)]

/-- A bilinear form has exactly the terms of the entries of its matrix. -/
theorem setBilinear_eq (dest : QuadraticFunction T) (matrix : Below ScalarMatrix T)
    (x y : List Variable) :
    dest.setBilinear matrix x y = (do
      checkLength .x matrix.value.rows x.length
      checkLength .y matrix.value.cols y.length
      let terms ← matrix.value.elements.zipIdx.mapM fun element =>
        bilinearTerm matrix.value.cols x y (element.1.widen matrix.source_le) element.2
      pure ⟨terms, .zero⟩) := by
  rw [setBilinear_eq_checked]
  apply bind_congr_ok
  intro _ _
  apply bind_congr_ok
  intro _ _
  apply bind_congr_ok
  intro terms mapped
  rw [storeQuadratic_eq ((length_of_mapM_eq_ok mapped).trans List.length_zipIdx)]

theorem appendProducts_eq (buffer : List (QuadraticTerm T)) (x y : List (LinearTerm T)) :
    appendProducts buffer x y = (do
      let count ← Index.mul x.length y.length
      let _ ← Index.add buffer.length count
      let rows ← x.mapM fun left => y.mapM fun right => left.times right
      pure (buffer ++ rows.flatten)) := by
  rw [appendProducts]
  apply bind_congr_ok
  intro count product
  obtain ⟨-, count_eq⟩ := Index.mul_eq_ok.mp product
  rw [Buffer.extend_bind]
  apply bind_congr_ok
  intro _ _
  apply bind_congr_ok
  intro rows mapped
  rw [Buffer.storeRows_new]
  · intro row member
    obtain ⟨left, -, row_mapped⟩ := exists_of_mem_mapM mapped member
    exact length_of_mapM_eq_ok row_mapped
  · rw [List.length_replicate, count_eq, length_of_mapM_eq_ok mapped]

theorem length_of_scaleTerms_eq_ok {terms scaled : List (LinearTerm T)}
    {constant : Option (Scalar T)} (succeeds : scaleTerms terms constant = .ok scaled) :
    scaled.length = if constant.isSome then terms.length else 0 := by
  cases constant with
  | none =>
      cases succeeds
      rfl
  | some constant => exact length_of_mapM_eq_ok succeeds

theorem appendScaled_eq (buffer x y : List (LinearTerm T))
    (xConstant yConstant : Option (Scalar T)) :
    appendScaled buffer x y xConstant yConstant = (do
      let count ← Index.add (if yConstant.isSome then x.length else 0)
        (if xConstant.isSome then y.length else 0)
      let _ ← Index.add buffer.length count
      let xScaled ← scaleTerms x yConstant
      let yScaled ← scaleTerms y xConstant
      pure (buffer ++ (xScaled ++ yScaled))) := by
  rw [appendScaled]
  apply bind_congr_ok
  intro count sum
  obtain ⟨-, count_eq⟩ := Index.add_eq_ok.mp sum
  rw [Buffer.extend_bind]
  apply bind_congr_ok
  intro _ _
  apply bind_congr_ok
  intro xScaled xSucceeds
  apply bind_congr_ok
  intro yScaled ySucceeds
  have xLength := length_of_scaleTerms_eq_ok xSucceeds
  have yLength := length_of_scaleTerms_eq_ok ySucceeds
  rw [← xLength, ← yLength] at count_eq
  rw [← xLength, count_eq, List.replicate_add, Buffer.storeAt_append _ _ _ (by simp),
    ← List.append_assoc, ← List.length_append, Buffer.storeAt_new _ rfl, List.append_assoc]

end QuadraticFunction

end DegreeTwo
