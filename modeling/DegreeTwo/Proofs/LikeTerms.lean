import DegreeTwo.Proofs.ExactMerging
import Mathlib.Data.List.TakeWhile

/-!
# Merging like terms one by one

Two terms can be merged if they are on one variable, or on one unordered pair of variables.  A list
of terms is merged from its first one on, which decides what the others have to be like and in which
order the variables of a pair are kept.  Canonicalization adds the same coefficients in the same
order, but to an oriented term, and leaves unlike terms apart instead of refusing them.
-/

namespace DegreeTwo

variable {α κ ι : Type} {T : ScalarType} {width : IntWidth}

/-! ## Checked folds -/

/-- Merging combines elements of one kind, which keeps the kind and the monomial, and refuses
elements of two kinds with their monomials. -/
structure MergesLike (kind : α → ι) (monomial : α → Monomial) (combine : α → α → Except Fault α)
    (merge : α → α → Except Failure α) : Prop where
  /-- Elements of one kind are combined. -/
  like : ∀ left right, kind left = kind right → merge left right = liftM (combine left right)
  /-- Elements of two kinds are refused. -/
  unlike : ∀ left right, kind left ≠ kind right →
    merge left right = refuse (.unlikeTerms (monomial left) (monomial right))
  /-- A combined element is like the left one. -/
  keeps : ∀ {left right merged}, combine left right = .ok merged →
    kind merged = kind left ∧ monomial merged = monomial left

namespace MergesLike

variable {kind : α → ι} {monomial : α → Monomial} {combine : α → α → Except Fault α}
variable {merge : α → α → Except Failure α} {first : α} {rest : List α}

theorem foldlM_keeps (merges : MergesLike kind monomial combine merge) {merged : α}
    (folds : rest.foldlM combine first = .ok merged) :
    kind merged = kind first ∧ monomial merged = monomial first := by
  induction rest generalizing first with
  | nil =>
      cases folds
      exact ⟨rfl, rfl⟩
  | cons next rest ih =>
      rw [List.foldlM_cons] at folds
      obtain ⟨sum, combined, folds⟩ := bind_eq_ok.mp folds
      obtain ⟨sum_kind, sum_monomial⟩ := merges.keeps combined
      obtain ⟨merged_kind, merged_monomial⟩ := ih folds
      exact ⟨merged_kind.trans sum_kind, merged_monomial.trans sum_monomial⟩

/-- Among elements of one kind the check never refuses. -/
theorem foldlM_like (merges : MergesLike kind monomial combine merge)
    (like : ∀ element ∈ rest, kind element = kind first) :
    rest.foldlM merge first = liftM (rest.foldlM combine first) := by
  induction rest generalizing first with
  | nil => rfl
  | cons next rest ih =>
      rw [List.foldlM_cons, List.foldlM_cons,
        merges.like first next (like next List.mem_cons_self).symm]
      cases combined : combine first next with
      | error fault => rfl
      | ok sum =>
          apply ih
          intro element member
          rw [(merges.keeps combined).1]
          exact like element (List.mem_cons_of_mem next member)

/-- The first element of another kind is refused, unless combining the elements before it breaks
off. -/
theorem foldlM_unlike (merges : MergesLike kind monomial combine merge) {like others : List α}
    {unlike : α} (same : ∀ element ∈ like, kind element = kind first)
    (differs : kind unlike ≠ kind first) :
    (like ++ unlike :: others).foldlM merge first =
      (liftM (like.foldlM combine first) >>= fun _ =>
        refuse (.unlikeTerms (monomial first) (monomial unlike))) := by
  rw [List.foldlM_append, merges.foldlM_like same]
  apply bind_congr_ok
  intro merged folds
  obtain ⟨merged_kind, merged_monomial⟩ := merges.foldlM_keeps (lift_eq_ok.mp folds)
  rw [List.foldlM_cons, merges.unlike merged unlike (merged_kind.trans_ne differs.symm),
    merged_monomial]
  rfl

variable [DecidableEq ι]

/-- A list with an element of another kind, cut at the first one. -/
theorem exists_first_unlike (kind : α → ι) {k : ι} (unlike : ∃ element ∈ rest, kind element ≠ k) :
    ∃ like other others, rest = like ++ other :: others ∧ rest.takeWhile (kind · = k) = like ∧
      (∀ element ∈ like, kind element = k) ∧ kind other ≠ k := by
  cases after : rest.dropWhile (kind · = k) with
  | nil =>
      obtain ⟨element, member, differs⟩ := unlike
      exact absurd (of_decide_eq_true (List.dropWhile_eq_nil_iff.mp after element member)) differs
  | cons other others =>
      have first_differs := List.head?_dropWhile_not (fun element => decide (kind element = k)) rest
      rw [after] at first_differs
      refine ⟨_, other, others, ?_, rfl, ?_, of_decide_eq_false first_differs⟩
      · rw [← after, List.takeWhile_append_dropWhile]
      · intro element member
        simpa using List.mem_takeWhile_imp member

/-- With an element of another kind the fold has no result. -/
theorem foldlM_ne_ok (merges : MergesLike kind monomial combine merge)
    (unlike : ∃ element ∈ rest, kind element ≠ kind first) (folded : α) :
    rest.foldlM merge first ≠ .ok folded := by
  obtain ⟨like, other, others, rfl, -, same, differs⟩ := exists_first_unlike kind unlike
  rw [merges.foldlM_unlike same differs]
  intro succeeds
  obtain ⟨-, -, refused⟩ := bind_eq_ok.mp succeeds
  cases refused

/-- The fold refuses exactly if there is an element of another kind and the coefficients before the
first one can be added. -/
theorem foldlM_refuses_iff (merges : MergesLike kind monomial combine merge) {key : α → κ}
    {coeff : α → Int} (adds : AddsExactly width key coeff combine) :
    (∃ left right, rest.foldlM merge first = refuse (.unlikeTerms left right)) ↔
      (∃ element ∈ rest, kind element ≠ kind first) ∧
        PrefixSumsFit width ((first :: rest.takeWhile (kind · = kind first)).map coeff) := by
  by_cases unlike : ∃ element ∈ rest, kind element ≠ kind first
  · rw [and_iff_right unlike]
    obtain ⟨like, other, others, rfl, before_eq, same, differs⟩ := exists_first_unlike kind unlike
    have before := adds.foldlM_yieldsIff first like
    rw [before_eq, merges.foldlM_unlike same differs]
    cases folds : like.foldlM combine first with
    | error fault =>
        rw [folds] at before
        exact iff_of_false nofun before.1
    | ok merged => exact iff_of_true ⟨_, _, rfl⟩ (before.of_ok folds).1
  · have like : ∀ element ∈ rest, kind element = kind first := fun element member =>
      not_not.mp fun differs => unlike ⟨element, member, differs⟩
    rw [merges.foldlM_like like]
    refine iff_of_false ?_ fun both => unlike both.1
    rintro ⟨left, right, refuses⟩
    exact not_refused_lift refuses

/-- What a fold has for its result is like the first element. -/
theorem like_of_foldlM (merges : MergesLike kind monomial combine merge) {folded : α}
    (folds : rest.foldlM merge first = .ok folded) :
    kind folded = kind first ∧ monomial folded = monomial first := by
  by_cases unlike : ∃ element ∈ rest, kind element ≠ kind first
  · exact absurd folds (merges.foldlM_ne_ok unlike folded)
  · have like : ∀ element ∈ rest, kind element = kind first := fun element member =>
      not_not.mp fun differs => unlike ⟨element, member, differs⟩
    rw [merges.foldlM_like like] at folds
    exact merges.foldlM_keeps (lift_eq_ok.mp folds)

end MergesLike

/-- Of two elements of different kinds one is of another kind than the first element. -/
theorem exists_unlike_first {kind : α → ι} {first : α} {rest : List α}
    (unlike : ∃ x ∈ first :: rest, ∃ y ∈ first :: rest, kind x ≠ kind y) :
    ∃ element ∈ rest, kind element ≠ kind first := by
  by_contra none
  have like : ∀ element ∈ first :: rest, kind element = kind first := by
    simpa using none
  obtain ⟨x, hx, y, hy, differ⟩ := unlike
  exact differ ((like x hx).trans (like y hy).symm)

/-! ## One key -/

/-- A sequence with one key is merged into one element. -/
theorem mergeByKey_of_one_key [LinearOrder κ] {key : α → κ} {combine : α → α → Except Fault α}
    (preserves : PreservesKey key combine) {first : α} {rest : List α}
    (same : ∀ element ∈ rest, key element = key first) :
    mergeByKey key combine (first :: rest) =
      (fun merged => [merged]) <$> rest.foldlM combine first := by
  have all_same : ∀ element ∈ first :: rest, key element = key first := by
    simpa using same
  have one_key : distinctKeys key (first :: rest) = [key first] := by
    refine (eq_distinctKeys (List.pairwise_singleton _ _) fun k => ?_).symm
    rw [List.mem_singleton, List.mem_map]
    constructor
    · rintro rfl
      exact ⟨first, List.mem_cons_self, rfl⟩
    · rintro ⟨element, member, rfl⟩
      exact all_same element member
  have group : withKey key (first :: rest) (key first) = first :: rest :=
    List.filter_eq_self.mpr fun element member => decide_eq_true (all_same element member)
  rw [mergeByKey_eq_filterMapM preserves, one_key, List.filterMapM_cons, group, foldFirst]
  cases rest.foldlM combine first <;> rfl

/-- Two elements with different keys are not merged into one. -/
theorem two_le_length_of_mergeByKey [LinearOrder κ] {key : α → κ}
    {combine : α → α → Except Fault α} (preserves : PreservesKey key combine)
    {values merged : List α} (merge : mergeByKey key combine values = .ok merged) {x y : α}
    (hx : x ∈ values) (hy : y ∈ values) (differ : key x ≠ key y) : 2 ≤ merged.length := by
  have keys := preserves.keys_of_merge merge
  have occurs : ∀ {z}, z ∈ values → key z ∈ merged.map key := fun member => by
    rw [keys, mem_distinctKeys]
    exact List.mem_map_of_mem member
  have x_occurs := occurs hx
  have y_occurs := occurs hy
  rcases merged with _ | ⟨first, _ | ⟨second, others⟩⟩
  · cases x_occurs
  · rw [List.map_singleton, List.mem_singleton] at x_occurs y_occurs
    exact absurd (x_occurs.trans y_occurs.symm) differ
  · simp

/-! ## Terms -/

theorem LinearTerm.mergesLike :
    MergesLike (var : LinearTerm T → Variable) monomial addLike merge where
  like left right same := by
    rw [merge, if_pos same, addLike, lift_bind_pure]
  unlike left right differ := by
    rw [merge, if_neg differ]
  keeps := by
    intro left right merged adds
    obtain ⟨sum, rfl⟩ := eq_of_addLike adds
    exact ⟨rfl, rfl⟩

namespace QuadraticTerm

/-- The pair with the lesser variable first is that of the oriented term. -/
theorem orientedPair_eq (term : QuadraticTerm T) : term.orientedPair = term.orient.pair := by
  rw [orientedPair, orient]
  by_cases oriented : term.row ≤ term.col
  · rw [if_pos oriented, if_neg (not_lt.mpr oriented), pair]
  · rw [if_neg oriented, if_pos (not_le.mp oriented), pair]

theorem orientedPair_eq_iff (left right : QuadraticTerm T) :
    left.orientedPair = right.orientedPair ↔ left.unordered = right.unordered := by
  rw [orientedPair_eq, orientedPair_eq, pair_orient_eq_iff]

theorem mergesLike :
    MergesLike (unordered : QuadraticTerm T → Sym2 Variable) monomial addLike merge where
  like left right same := by
    rw [merge, if_pos ((left.orientedPair_eq_iff right).mpr same), addLike, lift_bind_pure]
  unlike left right differ := by
    rw [merge, if_neg (mt (left.orientedPair_eq_iff right).mp differ)]
  keeps := by
    intro left right merged adds
    obtain ⟨sum, rfl⟩ := eq_of_addLike adds
    exact ⟨rfl, rfl⟩

/-- Oriented terms are added as the terms before, and only the first one matters for the order of
the variables. -/
theorem addLike_orient (left right : QuadraticTerm T) :
    left.orient.addLike right.orient = orient <$> left.addLike right := by
  rw [addLike, addLike, coeff_orient, coeff_orient]
  cases left.coeff.add right.coeff with
  | error fault => rfl
  | ok coeff =>
      change Except.ok _ = Except.ok _
      rw [orient, orient]
      split <;> rfl

theorem foldlM_addLike_orient (first : QuadraticTerm T) (rest : List (QuadraticTerm T)) :
    (rest.map orient).foldlM addLike first.orient = orient <$> rest.foldlM addLike first := by
  induction rest generalizing first with
  | nil => rfl
  | cons next rest ih =>
      rw [List.map_cons, List.foldlM_cons, List.foldlM_cons, addLike_orient]
      cases first.addLike next with
      | error fault => rfl
      | ok sum => exact ih sum

end QuadraticTerm

/-! ## Canonicalization of one list of terms -/

/-- An outcome that is made of a fold has a result if and only if the fold does. -/
theorem exists_ok_iff_of_lift_eq_map {outcome : Except Fault κ} {fold : Except Failure α}
    {make : α → κ} (same : (liftM outcome : Except Failure κ) = make <$> fold) :
    ((∃ folded, fold = .ok folded) ↔ ∃ result, outcome = .ok result) ∧
      ∀ folded, fold = .ok folded → outcome = .ok (make folded) := by
  cases fold with
  | error failure =>
      refine ⟨iff_of_false nofun ?_, nofun⟩
      rintro ⟨result, rfl⟩
      cases same
  | ok folded =>
      have succeeds : outcome = .ok (make folded) := lift_eq_ok.mp same
      refine ⟨iff_of_true ⟨folded, rfl⟩ ⟨_, succeeds⟩, ?_⟩
      rintro _ ⟨⟩
      exact succeeds

/-- Terms on one variable are canonicalized into their fold, and break off as it does. -/
theorem AffineFunction.canonicalize_like {first : LinearTerm (.integer width)}
    {rest : List (LinearTerm (.integer width))} (like : ∀ term ∈ rest, term.var = first.var) :
    (liftM (AffineFunction.mk (first :: rest) .zero).canonicalize : Except Failure _) =
      (fun folded => ⟨[folded], .zero⟩) <$> rest.foldlM LinearTerm.merge first := by
  rw [LinearTerm.mergesLike.foldlM_like like, ← lift_map, canonicalize_eq,
    mergeByKey_of_one_key LinearTerm.addsExactly.preservesKey like]
  cases rest.foldlM LinearTerm.addLike first <;> rfl

/-- Terms on one unordered pair are canonicalized into their oriented fold, and break off as it
does. -/
theorem QuadraticFunction.canonicalize_like {first : QuadraticTerm (.integer width)}
    {rest : List (QuadraticTerm (.integer width))}
    (like : ∀ term ∈ rest, term.unordered = first.unordered) :
    (liftM (QuadraticFunction.mk (first :: rest) .zero).canonicalize : Except Failure _) =
      (fun folded => ⟨[folded.orient], .zero⟩) <$> rest.foldlM QuadraticTerm.merge first := by
  have oriented_like : ∀ term ∈ rest.map QuadraticTerm.orient, term.pair = first.orient.pair := by
    rw [List.forall_mem_map]
    exact fun term member => (term.pair_orient_eq_iff first).mpr (like term member)
  have zero_canonical : (AffineFunction.zero : AffineFunction (.integer width)).canonicalize =
      .ok .zero := rfl
  rw [QuadraticTerm.mergesLike.foldlM_like like, ← lift_map, canonicalize_eq, zero_canonical,
    ok_bind, List.map_cons,
    mergeByKey_of_one_key QuadraticTerm.addsExactly.preservesKey oriented_like,
    QuadraticTerm.foldlM_addLike_orient]
  cases rest.foldlM QuadraticTerm.addLike first <;> rfl

/-- Two variables leave two terms. -/
theorem AffineFunction.two_le_length_of_canonicalize {f canonical : AffineFunction (.integer width)}
    (succeeds : f.canonicalize = .ok canonical) {x y : LinearTerm (.integer width)}
    (hx : x ∈ f.linear) (hy : y ∈ f.linear) (differ : x.var ≠ y.var) :
    2 ≤ canonical.linear.length := by
  rw [canonicalize_eq] at succeeds
  obtain ⟨linear, merges, result⟩ := bind_eq_ok.mp succeeds
  cases result
  exact two_le_length_of_mergeByKey LinearTerm.addsExactly.preservesKey merges hx hy differ

/-- Two unordered pairs leave two terms. -/
theorem QuadraticFunction.two_le_length_of_canonicalize
    {f canonical : QuadraticFunction (.integer width)} (succeeds : f.canonicalize = .ok canonical)
    {x y : QuadraticTerm (.integer width)} (hx : x ∈ f.quadratic) (hy : y ∈ f.quadratic)
    (differ : x.unordered ≠ y.unordered) : 2 ≤ canonical.quadratic.length := by
  rw [canonicalize_eq] at succeeds
  obtain ⟨affine, -, succeeds⟩ := bind_eq_ok.mp succeeds
  obtain ⟨quadratic, merges, result⟩ := bind_eq_ok.mp succeeds
  cases result
  exact two_le_length_of_mergeByKey QuadraticTerm.addsExactly.preservesKey merges
    (List.mem_map_of_mem hx) (List.mem_map_of_mem hy) (mt (x.pair_orient_eq_iff y).mp differ)

/-- Folding a list of terms by merging refuses it exactly if there is a term unlike the first one
and the coefficients before it can be added.  A list of like terms is folded if and only if the
function with these terms can be canonicalized, which then has the fold as its only term, oriented
if it is quadratic, while the fold itself is on the variables of the first term in their order.  A
list with unlike terms has no fold, and at least two terms after canonicalization. -/
theorem merging_agrees_with_canonicalization (width : IntWidth) :
    (∀ (first : LinearTerm (.integer width)) (rest : List (LinearTerm (.integer width))),
      ((∃ left right, rest.foldlM LinearTerm.merge first = refuse (.unlikeTerms left right)) ↔
        (∃ term ∈ rest, term.var ≠ first.var) ∧
          PrefixSumsFit width
            ((first :: rest.takeWhile (·.var = first.var)).map fun term => term.coeff.toInt)) ∧
      ((∀ term ∈ rest, term.var = first.var) →
        ((∃ folded, rest.foldlM LinearTerm.merge first = .ok folded) ↔
          ∃ canonical, (AffineFunction.mk (first :: rest) .zero).canonicalize = .ok canonical) ∧
        ∀ folded, rest.foldlM LinearTerm.merge first = .ok folded →
          (AffineFunction.mk (first :: rest) .zero).canonicalize = .ok ⟨[folded], .zero⟩ ∧
            folded.var = first.var) ∧
      ((∃ x ∈ first :: rest, ∃ y ∈ first :: rest, x.var ≠ y.var) →
        (∀ folded, rest.foldlM LinearTerm.merge first ≠ .ok folded) ∧
        ∀ canonical, (AffineFunction.mk (first :: rest) .zero).canonicalize = .ok canonical →
          2 ≤ canonical.linear.length)) ∧
    ∀ (first : QuadraticTerm (.integer width)) (rest : List (QuadraticTerm (.integer width))),
      ((∃ left right, rest.foldlM QuadraticTerm.merge first = refuse (.unlikeTerms left right)) ↔
        (∃ term ∈ rest, term.unordered ≠ first.unordered) ∧
          PrefixSumsFit width ((first :: rest.takeWhile (·.unordered = first.unordered)).map
            fun term => term.coeff.toInt)) ∧
      ((∀ term ∈ rest, term.unordered = first.unordered) →
        ((∃ folded, rest.foldlM QuadraticTerm.merge first = .ok folded) ↔
          ∃ canonical, (QuadraticFunction.mk (first :: rest) .zero).canonicalize = .ok canonical) ∧
        ∀ folded, rest.foldlM QuadraticTerm.merge first = .ok folded →
          (QuadraticFunction.mk (first :: rest) .zero).canonicalize =
              .ok ⟨[folded.orient], .zero⟩ ∧
            folded.row = first.row ∧ folded.col = first.col) ∧
      ((∃ x ∈ first :: rest, ∃ y ∈ first :: rest, x.unordered ≠ y.unordered) →
        (∀ folded, rest.foldlM QuadraticTerm.merge first ≠ .ok folded) ∧
        ∀ canonical, (QuadraticFunction.mk (first :: rest) .zero).canonicalize = .ok canonical →
          2 ≤ canonical.quadratic.length) := by
  refine ⟨fun first rest => ⟨?_, ?_, ?_⟩, fun first rest => ⟨?_, ?_, ?_⟩⟩
  · exact LinearTerm.mergesLike.foldlM_refuses_iff LinearTerm.addsExactly
  · intro like
    obtain ⟨succeed, result⟩ :=
      exists_ok_iff_of_lift_eq_map (AffineFunction.canonicalize_like like)
    exact ⟨succeed, fun folded folds =>
      ⟨result folded folds, (LinearTerm.mergesLike.like_of_foldlM folds).1⟩⟩
  · rintro ⟨x, hx, y, hy, differ⟩
    exact ⟨LinearTerm.mergesLike.foldlM_ne_ok (exists_unlike_first ⟨x, hx, y, hy, differ⟩),
      fun canonical succeeds =>
        AffineFunction.two_le_length_of_canonicalize succeeds hx hy differ⟩
  · exact QuadraticTerm.mergesLike.foldlM_refuses_iff QuadraticTerm.addsExactly
  · intro like
    obtain ⟨succeed, result⟩ :=
      exists_ok_iff_of_lift_eq_map (QuadraticFunction.canonicalize_like like)
    refine ⟨succeed, fun folded folds => ⟨result folded folds, ?_⟩⟩
    exact Monomial.product.inj (QuadraticTerm.mergesLike.like_of_foldlM folds).2
  · rintro ⟨x, hx, y, hy, differ⟩
    exact ⟨QuadraticTerm.mergesLike.foldlM_ne_ok (exists_unlike_first ⟨x, hx, y, hy, differ⟩),
      fun canonical succeeds =>
        QuadraticFunction.two_le_length_of_canonicalize succeeds hx hy differ⟩

/-- The term `40 * x2 * x1`. -/
def fortyTurned : QuadraticTerm (.integer .bits8) := ⟨⟨40, by decide, by decide⟩, ⟨2⟩, ⟨1⟩⟩

/-- The term `60 * x1 * x2`. -/
def sixtyInOrder : QuadraticTerm (.integer .bits8) := ⟨⟨60, by decide, by decide⟩, ⟨1⟩, ⟨2⟩⟩

/-- The term `-20 * x1 * x1`. -/
def minusTwentySquare : QuadraticTerm (.integer .bits8) :=
  ⟨⟨-20, by decide, by decide⟩, ⟨1⟩, ⟨1⟩⟩

theorem merging_agrees_with_canonicalization_turned :
    (QuadraticFunction.mk [fortyTurned, sixtyInOrder] .zero).canonicalize =
        .ok ⟨[⟨⟨100, by decide, by decide⟩, ⟨1⟩, ⟨2⟩⟩], .zero⟩ ∧
      (∀ folded, [minusTwentySquare, sixtyInOrder].foldlM QuadraticTerm.merge fortyTurned ≠
        .ok folded) ∧
      ∃ left right, [sixtyInOrder, minusTwentySquare, sixtyInOrder].foldlM QuadraticTerm.merge
        fortyTurned = refuse (.unlikeTerms left right) := by
  obtain ⟨-, quadratic⟩ := merging_agrees_with_canonicalization .bits8
  refine ⟨?_, ?_, ?_⟩
  · exact (((quadratic fortyTurned [sixtyInOrder]).2.1 (by decide)).2 _ rfl).1
  · exact ((quadratic fortyTurned [minusTwentySquare, sixtyInOrder]).2.2
      ⟨fortyTurned, by simp, minusTwentySquare, by simp, by decide⟩).1
  · exact (quadratic fortyTurned _).1.mpr (by decide)

end DegreeTwo
