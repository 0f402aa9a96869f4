import DegreeTwo.Proofs.Buffers
import DegreeTwo.Proofs.Run

/-!
# The history of a buffer

A buffer is resized and extended, and each time values may be stored over the first slots that are
handed out.  What a slot holds is determined by its own history: the last value stored to it since
it was created, or else what the step that created it filled it with.  A slot that is cut off keeps
nothing for the time after it is created again.
-/

namespace DegreeTwo

variable {α : Type}

namespace Buffer

theorem getElem?_resize (buffer : List α) {len slot : Nat} (fill : α) (inside : slot < len) :
    (resize buffer len fill)[slot]? = some (buffer[slot]?.getD fill) := by
  rw [resize]
  split
  · rw [List.getElem?_take_of_lt inside, List.getElem?_eq_getElem (by omega), Option.getD_some]
  · rcases Nat.lt_or_ge slot buffer.length with old | new
    · rw [List.getElem?_append_left old, List.getElem?_eq_getElem old, Option.getD_some]
    · rw [List.getElem?_append_right new, List.getElem?_replicate, if_pos (by omega),
        List.getElem?_eq_none new, Option.getD_none]

theorem getElem?_overwrite (slots values : List α) (i : Nat) :
    (overwrite slots values)[i]? = slots[i]?.map fun slot => values[i]?.getD slot := by
  induction slots, values using overwrite.induct generalizing i with
  | case1 values => rfl
  | case2 slots _ => cases slots <;> simp [overwrite]
  | case3 slot slots value values ih =>
      cases i with
      | zero => rfl
      | succ i => simpa [overwrite] using ih i

end Buffer

namespace BufferUpdate

/-! ## One update -/

/-- What an update fills new slots with. -/
def fill : BufferUpdate α → α
  | resize _ fill _ => fill
  | extend _ fill _ => fill

/-- The number of slots after an update of a buffer with `len` slots. -/
def lengthAfter (len : Nat) : BufferUpdate α → Nat
  | resize newLen _ _ => newLen
  | extend additional _ _ => len + additional

/-- The length that an update computes is a machine word. -/
def Fits (len : Nat) : BufferUpdate α → Prop
  | resize _ _ _ => True
  | extend additional _ _ => len + additional < Index.limit

instance (len : Nat) : (update : BufferUpdate α) → Decidable (update.Fits len)
  | resize _ _ _ => inferInstanceAs (Decidable True)
  | extend additional _ _ => inferInstanceAs (Decidable (len + additional < Index.limit))

/-- The value that an update of a buffer with `len` slots stores to a slot, if it stores one. -/
def stored? (len slot : Nat) : BufferUpdate α → Option α
  | resize newLen _ values => if slot < newLen then values[slot]? else none
  | extend additional _ values =>
      if len ≤ slot ∧ slot < len + additional then values[slot - len]? else none

/-- An update makes a slot that a buffer with `len` slots does not have. -/
def Creates (len slot : Nat) (update : BufferUpdate α) : Prop :=
  len ≤ slot ∧ slot < update.lengthAfter len

instance (len slot : Nat) (update : BufferUpdate α) : Decidable (update.Creates len slot) :=
  inferInstanceAs (Decidable (_ ∧ _))

/-- What an update hands out before values are stored, and the buffer afterwards: all slots of a
resized buffer, and only the new slots of an extended one. -/
def HandsOut (before slots after : List α) : BufferUpdate α → Prop
  | resize len fill values =>
      slots.length = len ∧ (∀ slot < len, slots[slot]? = some (before[slot]?.getD fill)) ∧
        after = Buffer.overwrite slots values
  | extend additional fill values =>
      slots = List.replicate additional fill ∧ after = before ++ Buffer.overwrite slots values

variable {update : BufferUpdate α} {before slots after : List α}

/-- An update breaks off exactly if it computes a length that is no machine word. -/
theorem exists_apply_eq_ok_iff :
    (∃ slots after, update.apply before = .ok (slots, after)) ↔ update.Fits before.length := by
  cases update with
  | resize len fill values => exact iff_of_true ⟨_, _, rfl⟩ trivial
  | extend additional fill values =>
      rw [apply, Buffer.extend_bind, Fits]
      constructor
      · rintro ⟨slots, after, applied⟩
        obtain ⟨_, sum, -⟩ := bind_eq_ok.mp applied
        exact (Index.add_eq_ok.mp sum).1
      · intro fits
        rw [Index.add_eq_ok_of_lt fits]
        exact ⟨_, _, rfl⟩

theorem handsOut (applied : update.apply before = .ok (slots, after)) :
    update.HandsOut before slots after := by
  cases update with
  | resize len fill values =>
      cases applied
      refine ⟨Buffer.length_resize before len fill,
        fun slot => Buffer.getElem?_resize before fill, ?_⟩
      rw [Buffer.storeAt, List.take_zero, List.drop_zero, List.nil_append]
  | extend additional fill values =>
      rw [apply, Buffer.extend_bind] at applied
      obtain ⟨_, -, applied⟩ := bind_eq_ok.mp applied
      rw [Buffer.storeAt, List.take_left, List.drop_left] at applied
      cases applied
      exact ⟨rfl, rfl⟩

theorem HandsOut.length_eq (handsOut : update.HandsOut before slots after) :
    after.length = update.lengthAfter before.length := by
  cases update with
  | resize len fill values =>
      obtain ⟨length_eq, -, rfl⟩ := handsOut
      rw [Buffer.length_overwrite, length_eq, lengthAfter]
  | extend additional fill values =>
      obtain ⟨rfl, rfl⟩ := handsOut
      rw [List.length_append, Buffer.length_overwrite, List.length_replicate, lengthAfter]

/-- A slot holds the value that the update stores to it; without one it holds what it held, or the
fill if it is new. -/
theorem HandsOut.getElem? (handsOut : update.HandsOut before slots after) {slot : Nat}
    (inside : slot < update.lengthAfter before.length) :
    after[slot]? =
      some ((update.stored? before.length slot).getD (before[slot]?.getD update.fill)) := by
  cases update with
  | resize len fill values =>
      obtain ⟨-, held, rfl⟩ := handsOut
      replace inside : slot < len := inside
      rw [Buffer.getElem?_overwrite, held slot inside, Option.map_some, stored?, if_pos inside,
        BufferUpdate.fill]
  | extend additional fill values =>
      obtain ⟨rfl, rfl⟩ := handsOut
      replace inside : slot < before.length + additional := inside
      rw [stored?, BufferUpdate.fill]
      rcases Nat.lt_or_ge slot before.length with old | new
      · rw [List.getElem?_append_left old, if_neg (by omega), List.getElem?_eq_getElem old,
          Option.getD_none, Option.getD_some]
      · rw [List.getElem?_append_right new, Buffer.getElem?_overwrite, List.getElem?_replicate,
          if_pos (by omega), Option.map_some, if_pos ⟨new, inside⟩, List.getElem?_eq_none new,
          Option.getD_none]

/-! ## Runs of updates -/

/-- The buffer after an update. -/
def step (update : BufferUpdate α) (buffer : List α) : Except Failure (List α) := do
  let handed ← update.apply buffer
  pure handed.2

/-- The buffer after a run of updates. -/
def run (updates : List (BufferUpdate α)) (start : List α) : Except Fault (List α) :=
  runUpdates step updates start

/-- The number of slots after a run of updates of a buffer with `len` slots. -/
def lengthAfterRun (len : Nat) (updates : List (BufferUpdate α)) : Nat :=
  updates.foldl lengthAfter len

/-- The lengths that a run computes are machine words. -/
def RunFits : Nat → List (BufferUpdate α) → Prop
  | _, [] => True
  | len, update :: updates => update.Fits len ∧ RunFits (update.lengthAfter len) updates

instance decidableRunFits : (len : Nat) → (updates : List (BufferUpdate α)) →
    Decidable (RunFits len updates)
  | _, [] => inferInstanceAs (Decidable True)
  | len, update :: updates =>
      have := decidableRunFits (update.lengthAfter len) updates
      inferInstanceAs (Decidable (_ ∧ _))

/-- The values that a run stores to a slot, in order. -/
def stores (slot : Nat) : Nat → List (BufferUpdate α) → List α
  | _, [] => []
  | len, update :: updates =>
      (update.stored? len slot).toList ++ stores slot (update.lengthAfter len) updates

/-- A slot is there before a run and after each of its updates. -/
def Kept (slot : Nat) : Nat → List (BufferUpdate α) → Prop
  | len, [] => slot < len
  | len, update :: updates => slot < len ∧ Kept slot (update.lengthAfter len) updates

instance decidableKept (slot : Nat) : (len : Nat) → (updates : List (BufferUpdate α)) →
    Decidable (Kept slot len updates)
  | len, [] => inferInstanceAs (Decidable (slot < len))
  | len, update :: updates =>
      have := decidableKept slot (update.lengthAfter len) updates
      inferInstanceAs (Decidable (_ ∧ _))

variable {updates : List (BufferUpdate α)} {start final : List α}

theorem settle_step (update : BufferUpdate α) (buffer : List α) :
    settle buffer (update.step buffer) = update.apply buffer >>= fun handed => pure handed.2 :=
  settle_lift_bind buffer (update.apply buffer) Prod.snd

theorem run_append_eq_ok {front back : List (BufferUpdate α)} :
    run (front ++ back) start = .ok final ↔
      ∃ between, run front start = .ok between ∧ run back between = .ok final := by
  rw [run, runUpdates_append, bind_eq_ok]
  rfl

theorem run_cons_eq_ok :
    run (update :: updates) start = .ok final ↔
      ∃ slots after, update.apply start = .ok (slots, after) ∧ run updates after = .ok final := by
  rw [run, runUpdates_cons, settle_step, bind_assoc, bind_eq_ok, Prod.exists]
  rfl

/-- A run breaks off exactly if it computes a length that is no machine word. -/
theorem exists_run_eq_ok_iff :
    (∃ final, run updates start = .ok final) ↔ RunFits start.length updates := by
  induction updates generalizing start with
  | nil => exact iff_of_true ⟨start, rfl⟩ trivial
  | cons update updates ih =>
      rw [RunFits, ← exists_apply_eq_ok_iff]
      constructor
      · rintro ⟨final, run_ok⟩
        obtain ⟨slots, after, applied, run_ok⟩ := run_cons_eq_ok.mp run_ok
        exact ⟨⟨slots, after, applied⟩, (handsOut applied).length_eq ▸ ih.mp ⟨final, run_ok⟩⟩
      · rintro ⟨⟨slots, after, applied⟩, fits⟩
        obtain ⟨final, run_ok⟩ := ih.mpr ((handsOut applied).length_eq.symm ▸ fits)
        exact ⟨final, run_cons_eq_ok.mpr ⟨slots, after, applied, run_ok⟩⟩

theorem length_of_run_eq_ok (run_ok : run updates start = .ok final) :
    final.length = lengthAfterRun start.length updates := by
  induction updates generalizing start with
  | nil =>
      cases run_ok
      rfl
  | cons update updates ih =>
      obtain ⟨slots, after, applied, run_ok⟩ := run_cons_eq_ok.mp run_ok
      rw [ih run_ok, (handsOut applied).length_eq]
      rfl

theorem Kept.lt {slot len : Nat} (kept : Kept slot len updates) : slot < len := by
  cases updates with
  | nil => exact kept
  | cons update updates => exact kept.1

/-- The last value that a run stores is that of its later updates, or else that of its first one. -/
theorem getLastD_stores_cons (update : BufferUpdate α) (len slot : Nat) (value : α) :
    (stores slot len (update :: updates)).getLastD value =
      (stores slot (update.lengthAfter len) updates).getLastD
        ((update.stored? len slot).getD value) := by
  rw [stores]
  cases update.stored? len slot with
  | none => rfl
  | some stored => exact List.getLastD_cons

/-- A slot that is always there holds the last value stored to it, or the one that it held. -/
theorem getElem?_of_kept {slot : Nat} {value : α} (run_ok : run updates start = .ok final)
    (held : start[slot]? = some value) (kept : Kept slot start.length updates) :
    final[slot]? = some ((stores slot start.length updates).getLastD value) := by
  induction updates generalizing start value with
  | nil =>
      cases run_ok
      exact held
  | cons update updates ih =>
      obtain ⟨slots, after, applied, run_ok⟩ := run_cons_eq_ok.mp run_ok
      have handed := handsOut applied
      obtain ⟨-, kept⟩ := kept
      -- The slot held the value before the update, which stored another one over it or left it.
      have held_after := handed.getElem? kept.lt
      rw [held, Option.getD_some] at held_after
      rw [← handed.length_eq] at kept
      rw [ih run_ok held_after kept, getLastD_stores_cons, handed.length_eq]

/-- A slot that is always there after an update created it holds the last value stored to it since,
or the fill of that update. -/
theorem getElem?_of_creates {creator : BufferUpdate α} {slot : Nat}
    (run_ok : run (creator :: updates) start = .ok final)
    (creates : creator.Creates start.length slot)
    (kept : Kept slot (creator.lengthAfter start.length) updates) :
    final[slot]? =
      some ((stores slot start.length (creator :: updates)).getLastD creator.fill) := by
  obtain ⟨slots, after, applied, run_ok⟩ := run_cons_eq_ok.mp run_ok
  have handed := handsOut applied
  have held_after := handed.getElem? creates.2
  rw [List.getElem?_eq_none creates.1, Option.getD_none] at held_after
  rw [← handed.length_eq] at kept
  rw [getElem?_of_kept run_ok held_after kept, getLastD_stores_cons, handed.length_eq]

/-- A slot that is there after a run was always there, or was created by an update and has been
there since. -/
theorem kept_or_created {len slot : Nat} (inside : slot < lengthAfterRun len updates) :
    Kept slot len updates ∨ ∃ front creator back, updates = front ++ creator :: back ∧
      creator.Creates (lengthAfterRun len front) slot ∧
      Kept slot (creator.lengthAfter (lengthAfterRun len front)) back := by
  induction updates generalizing len with
  | nil => exact .inl inside
  | cons update updates ih =>
      rcases ih inside with kept | ⟨front, creator, back, rfl, created⟩
      · rcases Nat.lt_or_ge slot len with old | new
        · exact .inl ⟨old, kept⟩
        · exact .inr ⟨[], update, updates, rfl, ⟨new, kept.lt⟩, kept⟩
      · exact .inr ⟨update :: front, creator, back, rfl, created⟩

/-- Each slot changes on its own: with the same length, it alone determines what it holds later. -/
theorem getElem?_of_run_congr {slot : Nat} {other otherFinal : List α}
    (same_length : other.length = start.length) (same_slot : other[slot]? = start[slot]?)
    (run_ok : run updates start = .ok final) (other_run : run updates other = .ok otherFinal) :
    otherFinal[slot]? = final[slot]? := by
  -- The lengths stay the same too, since they decide where an extension stores its values.
  refine (runUpdates_related
    (fun first second : List α => first.length = second.length ∧ first[slot]? = second[slot]?) ?_
    ⟨same_length, same_slot⟩ other_run run_ok).2
  rintro update - first second firstAfter secondAfter ⟨lengths, slots⟩ first_step second_step
  rw [settle_step] at first_step second_step
  obtain ⟨firstHanded, first_applied, first_step⟩ := bind_eq_ok.mp first_step
  obtain ⟨secondHanded, second_applied, second_step⟩ := bind_eq_ok.mp second_step
  cases first_step
  cases second_step
  have first_handed := handsOut first_applied
  have second_handed := handsOut second_applied
  have lengths_after : firstHanded.2.length = secondHanded.2.length := by
    rw [first_handed.length_eq, second_handed.length_eq, lengths]
  refine ⟨lengths_after, ?_⟩
  rcases Nat.lt_or_ge slot (update.lengthAfter first.length) with inside | outside
  · rw [first_handed.getElem? inside, second_handed.getElem? (lengths ▸ inside), lengths, slots]
  · rw [← first_handed.length_eq] at outside
    rw [List.getElem?_eq_none outside, List.getElem?_eq_none (lengths_after ▸ outside)]

/-- In a run every step hands out the slots that it should, and every slot of the buffer reached
holds what its own history says. -/
structure FollowsHistory (start : List α) (updates : List (BufferUpdate α)) (final : List α) :
    Prop where
  /-- The length is that of the last resizing and of the extensions since. -/
  length_eq : final.length = lengthAfterRun start.length updates
  /-- Every step leaves a buffer of the length that it asks for and hands out the slots that it
  should. -/
  step {front back : List (BufferUpdate α)} {update : BufferUpdate α} :
    updates = front ++ update :: back → ∃ before slots after, run front start = .ok before ∧
      update.apply before = .ok (slots, after) ∧ run (front ++ [update]) start = .ok after ∧
      after.length = update.lengthAfter before.length ∧ update.HandsOut before slots after
  /-- Every slot was always there, or there is a last update that created it. -/
  origin {slot : Nat} : slot < final.length → Kept slot start.length updates ∨
    ∃ front creator back, updates = front ++ creator :: back ∧
      creator.Creates (lengthAfterRun start.length front) slot ∧
      Kept slot (creator.lengthAfter (lengthAfterRun start.length front)) back
  /-- A slot that was always there holds the last value stored to it, or its first one. -/
  kept {slot : Nat} {value : α} : start[slot]? = some value → Kept slot start.length updates →
    final[slot]? = some ((stores slot start.length updates).getLastD value)
  /-- A slot that was created holds the last value stored to it since, or the fill of the update
  that created it. -/
  created {front back : List (BufferUpdate α)} {creator : BufferUpdate α} {slot : Nat} :
    updates = front ++ creator :: back →
      creator.Creates (lengthAfterRun start.length front) slot →
      Kept slot (creator.lengthAfter (lengthAfterRun start.length front)) back →
      final[slot]? = some ((stores slot (lengthAfterRun start.length front)
        (creator :: back)).getLastD creator.fill)
  /-- A slot that is not there at some time shows nothing of the buffers before that time: any other
  buffer of that length leads to the same. -/
  forgotten {front back : List (BufferUpdate α)} {slot : Nat} {other : List α} :
    updates = front ++ back → other.length = lengthAfterRun start.length front →
      lengthAfterRun start.length front ≤ slot →
      ∃ otherFinal, run back other = .ok otherFinal ∧ otherFinal[slot]? = final[slot]?

theorem followsHistory (run_ok : run updates start = .ok final) :
    FollowsHistory start updates final where
  length_eq := length_of_run_eq_ok run_ok
  step := by
    rintro front back update rfl
    obtain ⟨before, run_front, run_back⟩ := run_append_eq_ok.mp run_ok
    obtain ⟨slots, after, applied, -⟩ := run_cons_eq_ok.mp run_back
    have handed := handsOut applied
    have run_step : run [update] before = .ok after :=
      run_cons_eq_ok.mpr ⟨slots, after, applied, rfl⟩
    exact ⟨before, slots, after, run_front, applied,
      run_append_eq_ok.mpr ⟨before, run_front, run_step⟩, handed.length_eq, handed⟩
  origin inside := kept_or_created (length_of_run_eq_ok run_ok ▸ inside)
  kept := getElem?_of_kept run_ok
  created := by
    rintro front back creator slot rfl creates kept
    obtain ⟨before, run_front, run_back⟩ := run_append_eq_ok.mp run_ok
    rw [← length_of_run_eq_ok run_front] at creates kept ⊢
    exact getElem?_of_creates run_back creates kept
  forgotten := by
    rintro front back slot other rfl same_length missing
    obtain ⟨before, run_front, run_back⟩ := run_append_eq_ok.mp run_ok
    rw [← length_of_run_eq_ok run_front] at same_length missing
    have fits : RunFits other.length back :=
      same_length ▸ exists_run_eq_ok_iff.mp ⟨final, run_back⟩
    obtain ⟨otherFinal, other_run⟩ := exists_run_eq_ok_iff.mpr fits
    have both_missing : other[slot]? = before[slot]? := by
      rw [List.getElem?_eq_none missing, List.getElem?_eq_none (same_length ▸ missing)]
    exact ⟨otherFinal, other_run,
      getElem?_of_run_congr same_length both_missing run_back other_run⟩

end BufferUpdate

/-- A run of a buffer succeeds exactly if the lengths that it computes are machine words, and then
every slot holds what was last stored to it since it was created, or else the fill of the update
that created it. -/
theorem contents_follow_history (start : List α) (updates : List (BufferUpdate α)) :
    ((∃ final, BufferUpdate.run updates start = .ok final) ↔
      BufferUpdate.RunFits start.length updates) ∧
    ∀ final, BufferUpdate.run updates start = .ok final →
      BufferUpdate.FollowsHistory start updates final :=
  ⟨BufferUpdate.exists_run_eq_ok_iff, fun _ => BufferUpdate.followsHistory⟩

/-- A run that cuts two of three slots off and creates them again. -/
def regrowingRun : List (BufferUpdate Nat) :=
  [.resize 1 0 [], .extend 2 7 [8], .resize 4 5 [6]]

theorem contents_follow_history_regrown :
    ∃ final, BufferUpdate.run regrowingRun [1, 2, 3] = .ok final ∧ final.length = 4 ∧
      final[0]? = some 6 ∧ final[1]? = some 8 ∧ final[2]? = some 7 ∧ final[3]? = some 5 := by
  obtain ⟨runs_iff, follows⟩ := contents_follow_history [1, 2, 3] regrowingRun
  obtain ⟨final, run_ok⟩ := runs_iff.mpr (by decide)
  have history := follows final run_ok
  have regrown : regrowingRun = [.resize 1 0 []] ++ .extend 2 7 [8] :: [.resize 4 5 [6]] := rfl
  have grown : regrowingRun = [.resize 1 0 [], .extend 2 7 [8]] ++ .resize 4 5 [6] :: [] := rfl
  refine ⟨final, run_ok, history.length_eq, ?_, ?_, ?_, ?_⟩
  · exact history.kept rfl (by decide)
  · exact history.created regrown (by decide) (by decide)
  · exact history.created regrown (by decide) (by decide)
  · exact history.created grown (by decide) (by decide)

end DegreeTwo
