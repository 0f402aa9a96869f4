import DegreeTwo.Failure

/-!
# Checked positions

Lengths and positions are natural numbers below `Index.limit`.  The operations here break off where
a result would leave that range, and reading or moving elements of an array breaks off where a
position lies outside it; so an algorithm written with them shows by its success that it stayed in
range.  Where an algorithm computes without these checks, a watch on its positions and sums takes
their place.
-/

namespace DegreeTwo

namespace Index

/-- Lengths and positions are machine words of 64 bits. -/
def limit : Nat := 18446744073709551616

/-- The sum of two lengths. -/
def add (a b : Nat) : Except Fault Nat :=
  if a + b < limit then .ok (a + b) else .error (.overflow .add)

/-- The product of two lengths. -/
def mul (a b : Nat) : Except Fault Nat :=
  if a * b < limit then .ok (a * b) else .error (.overflow .multiply)

/-- The distance from `b` up to `a`, together with the equation that determines it. -/
def sub (a b : Nat) : Except Fault { distance : Nat // b + distance = a } :=
  if h : b ≤ a then .ok ⟨a - b, Nat.add_sub_of_le h⟩ else .error (.overflow .subtract)

/-- The quotient of a position by a length. -/
def div (a b : Nat) : Except Fault Nat :=
  if b = 0 then .error .zeroDivisor else .ok (a / b)

/-- The remainder of a position by a length. -/
def mod (a b : Nat) : Except Fault Nat :=
  if b = 0 then .error .zeroDivisor else .ok (a % b)

end Index

/-- What is done with the positions and sums that an algorithm computes, before they are used. -/
structure Watch where
  /-- A position whose element is looked at. -/
  element : Nat → Except Fault Unit
  /-- A position at which a range, or a part of it, begins or ends. -/
  boundary : Nat → Except Fault Unit
  /-- A sum of positions or lengths. -/
  sum : Nat → Except Fault Unit

/-- Nothing is done with them. -/
def Watch.trivial : Watch where
  element _ := pure ()
  boundary _ := pure ()
  sum _ := pure ()

variable {α : Type}

/-- The number of elements of several lists, summed up from the first list on. -/
def totalLength (watch : Watch) (lists : List (List α)) : Except Fault Nat :=
  lists.foldlM (fun total values => do
    watch.sum (total + values.length)
    pure (total + values.length)) 0

/-- The element of a list at a position. -/
def entry (values : List α) (i : Nat) : Except Fault α :=
  match values[i]? with
  | some value => .ok value
  | none => .error (.indexOutOfRange i values.length)

namespace Slots

/-- The element of an array at a position. -/
def read (values : Array α) (i : Nat) : Except Fault α :=
  match values[i]? with
  | some value => .ok value
  | none => .error (.indexOutOfRange i values.size)

/-- Replace the element at a position. -/
def write (values : Array α) (i : Nat) (value : α) : Except Fault (Array α) :=
  if h : i < values.size then .ok (values.set i value h)
  else .error (.indexOutOfRange i values.size)

/-- Exchange the elements at two positions. -/
def swap (values : Array α) (i j : Nat) : Except Fault (Array α) :=
  if hi : i < values.size then
    if hj : j < values.size then .ok (values.swap i j hi hj)
    else .error (.indexOutOfRange j values.size)
  else .error (.indexOutOfRange i values.size)

/--
Exchange the adjacent blocks from `start` to `middle` and from `middle` to `stop`, each in its own
order.
-/
def rotate (values : Array α) (start middle stop : Nat) : Except Fault (Array α) :=
  if start ≤ middle ∧ middle ≤ stop ∧ stop ≤ values.size then
    .ok (values.extract 0 start ++ values.extract middle stop ++ values.extract start middle ++
      values.extract stop values.size)
  else .error (.indexOutOfRange stop values.size)

end Slots

end DegreeTwo
