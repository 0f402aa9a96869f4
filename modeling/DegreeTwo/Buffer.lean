import DegreeTwo.Index

/-!
# Reused buffers

A destination keeps its buffer between updates.  Resizing keeps the elements that still fit and
fills only slots that are new, so whoever resizes has to overwrite what stays.  Storing replaces
elements and never changes the length.
-/

namespace DegreeTwo

namespace Buffer

variable {α : Type}

/-- Cut the buffer to `len` elements, or fill it up to `len` elements with `fill`. -/
def resize (buffer : List α) (len : Nat) (fill : α) : List α :=
  if len ≤ buffer.length then buffer.take len
  else buffer ++ List.replicate (len - buffer.length) fill

/-- Append `additional` slots filled with `fill`; the first of them stands at the old length. -/
def extend (buffer : List α) (additional : Nat) (fill : α) : Except Fault (List α) := do
  let len ← Index.add buffer.length additional
  pure (resize buffer len fill)

/-- Store `values` over the first slots; values beyond the last slot are dropped. -/
def overwrite : List α → List α → List α
  | [], _ => []
  | slots, [] => slots
  | _ :: slots, value :: values => value :: overwrite slots values

/-- Store `values` over the slots from position `offset` on. -/
def storeAt (buffer : List α) (offset : Nat) (values : List α) : List α :=
  buffer.take offset ++ overwrite (buffer.drop offset) values

/-- Store the rows one after the other, the first at `offset` and each `width` slots further. -/
def storeRows (buffer : List α) (offset width : Nat) : List (List α) → List α
  | [] => buffer
  | row :: rows => storeRows (storeAt buffer offset row) (offset + width) width rows

@[simp]
theorem length_overwrite (slots values : List α) :
    (overwrite slots values).length = slots.length := by
  induction slots, values using overwrite.induct with
  | case1 values => rfl
  | case2 slots h => cases slots <;> rfl
  | case3 slot slots value values ih => simp [overwrite, ih]

theorem overwrite_of_length_eq {slots values : List α} (h : slots.length = values.length) :
    overwrite slots values = values := by
  induction slots, values using overwrite.induct with
  | case1 values => simpa [overwrite, eq_comm] using h
  | case2 slots _ => simpa [overwrite] using h
  | case3 slot slots value values ih =>
      simp only [List.length_cons, Nat.add_right_cancel_iff] at h
      simp [overwrite, ih h]

@[simp]
theorem length_resize (buffer : List α) (len : Nat) (fill : α) :
    (resize buffer len fill).length = len := by
  unfold resize
  split <;> simp <;> omega

end Buffer

/-- A change of length, followed by storing values over the first slots that it hands out. -/
inductive BufferUpdate (α : Type) where
  /-- Resize the buffer; all its slots are handed out. -/
  | resize (len : Nat) (fill : α) (values : List α)
  /-- Append slots; only the new ones are handed out. -/
  | extend (additional : Nat) (fill : α) (values : List α)

/-- The slots that an update hands out, as they are before values are stored, and the buffer after
the update. -/
def BufferUpdate.apply {α : Type} (update : BufferUpdate α) (buffer : List α) :
    Except Fault (List α × List α) :=
  match update with
  | .resize len fill values =>
      let resized := Buffer.resize buffer len fill
      pure (resized, Buffer.storeAt resized 0 values)
  | .extend additional fill values => do
      let extended ← Buffer.extend buffer additional fill
      pure (extended.drop buffer.length, Buffer.storeAt extended buffer.length values)

end DegreeTwo
