import Mathlib.Data.List.Forall2

/-!
# Results

A computation returns a value or stops at its first error.  If it returns, all its parts have
returned, and so a computation can be described part by part, without the errors.
-/

namespace Minicomputer

variable {α β ε : Type}

/-- A result can be computed without its errors, which need not be comparable. -/
theorem eq_ok_of_toOption {result : Except ε α} {value : α}
    (h : result.toOption = some value) : result = .ok value := by
  cases result with
  | error problem => cases h
  | ok found => exact congrArg Except.ok (Option.some.inj h)

theorem bind_eq_ok_iff {result : Except ε α} {next : α → Except ε β} {value : β} :
    result >>= next = .ok value ↔ ∃ first, result = .ok first ∧ next first = .ok value := by
  constructor
  · intro h
    cases result with
    | error problem => cases h
    | ok first => exact ⟨first, rfl, h⟩
  · rintro ⟨first, rfl, h⟩
    exact h

theorem bind_eq_error_iff {result : Except ε α} {next : α → Except ε β} {problem : ε} :
    result >>= next = .error problem ↔
      result = .error problem ∨ ∃ first, result = .ok first ∧ next first = .error problem := by
  cases result with
  | error problem' => simp [bind, Except.bind]
  | ok first => simp [bind, Except.bind]

theorem map_eq_error_iff {result : Except ε α} {f : α → β} {problem : ε} :
    result.map f = .error problem ↔ result = .error problem := by
  cases result with
  | error problem' => simp [Except.map]
  | ok found => simp [Except.map]

theorem map_eq_ok_iff {result : Except ε α} {f : α → β} {value : β} :
    result.map f = .ok value ↔ ∃ first, result = .ok first ∧ f first = value := by
  cases result with
  | error problem => simp [Except.map]
  | ok found => simp [Except.map]

/-- All elements of a list are computed, each from the one in its place. -/
theorem mapM_eq_ok_iff {f : α → Except ε β} {xs : List α} {ys : List β} :
    xs.mapM f = .ok ys ↔ List.Forall₂ (fun x y => f x = .ok y) xs ys := by
  induction xs generalizing ys with
  | nil =>
    rw [List.mapM_nil, List.forall₂_nil_left_iff]
    exact ⟨fun h => (Except.ok.inj h).symm, fun h => congrArg Except.ok h.symm⟩
  | cons x xs ih =>
    rw [List.mapM_cons, List.forall₂_cons_left_iff, bind_eq_ok_iff]
    constructor
    · rintro ⟨y, first, left⟩
      obtain ⟨ys', rest, same⟩ := bind_eq_ok_iff.mp left
      exact ⟨y, ys', first, ih.mp rest, (Except.ok.inj same).symm⟩
    · rintro ⟨y, ys', first, rest, rfl⟩
      exact ⟨y, first, bind_eq_ok_iff.mpr ⟨ys', ih.mpr rest, rfl⟩⟩

/-- The first element that cannot be computed is the one that is reported.  What comes first is said
by a key that grows along the list. -/
theorem mapM_eq_error_iff_of_sorted {f : α → Except ε β} {key : α → Nat} {xs : List α}
    (sorted : xs.Pairwise fun x y => key x < key y) {problem : ε} :
    xs.mapM f = .error problem ↔
      ∃ x ∈ xs, f x = .error problem ∧ ∀ y ∈ xs, key y < key x → ∃ value, f y = .ok value := by
  induction xs with
  | nil => simp [pure, Except.pure]
  | cons first rest ih =>
    obtain ⟨smallest, sorted'⟩ := List.pairwise_cons.mp sorted
    rw [List.mapM_cons, bind_eq_error_iff]
    constructor
    · rintro (failed | ⟨value, computed, left⟩)
      · refine ⟨first, List.mem_cons_self .., failed, fun y member before => ?_⟩
        rcases List.mem_cons.mp member with rfl | later
        · exact absurd before (Nat.lt_irrefl _)
        · exact absurd (smallest y later) (Nat.lt_asymm before)
      · rcases bind_eq_error_iff.mp left with failed | ⟨values, -, returned⟩
        · obtain ⟨x, later, failed', earlier⟩ := (ih sorted').mp failed
          refine ⟨x, List.mem_cons_of_mem _ later, failed', fun y member before => ?_⟩
          rcases List.mem_cons.mp member with rfl | later'
          · exact ⟨value, computed⟩
          · exact earlier y later' before
        · cases returned
    · rintro ⟨x, member, failed, earlier⟩
      rcases List.mem_cons.mp member with rfl | later
      · exact .inl failed
      · obtain ⟨value, computed⟩ := earlier first (List.mem_cons_self ..) (smallest x later)
        refine .inr ⟨value, computed, bind_eq_error_iff.mpr (.inl ?_)⟩
        exact (ih sorted').mpr
          ⟨x, later, failed, fun y later' => earlier y (List.mem_cons_of_mem _ later')⟩

/-- Folds whose steps agree agree. -/
theorem foldlM_map {γ : Type} {f : β → α → Except ε β} {g : γ → α → Except ε γ} {h : β → γ}
    (alike : ∀ value x, g (h value) x = (f value x).map h) (xs : List α) (start : β) :
    xs.foldlM g (h start) = (xs.foldlM f start).map h := by
  induction xs generalizing start with
  | nil => rfl
  | cons x xs ih =>
    rw [List.foldlM_cons, List.foldlM_cons, alike]
    cases f start x with
    | error problem => rfl
    | ok next => exact ih next

/-- A fold fails at the first element that the value so far does not admit. -/
theorem foldlM_eq_error_iff {f : β → α → Except ε β} {start : β} {xs : List α} {problem : ε} :
    xs.foldlM f start = .error problem ↔
      ∃ before x after value, xs = before ++ x :: after ∧ before.foldlM f start = .ok value ∧
        f value x = .error problem := by
  induction xs generalizing start with
  | nil => simp [pure, Except.pure]
  | cons first rest ih =>
    rw [List.foldlM_cons, bind_eq_error_iff]
    constructor
    · rintro (failed | ⟨next, admitted, failed⟩)
      · exact ⟨[], first, rest, start, rfl, rfl, failed⟩
      · obtain ⟨before, x, after, value, rfl, folded, refused⟩ := ih.mp failed
        refine ⟨first :: before, x, after, value, rfl, ?_, refused⟩
        rw [List.foldlM_cons]
        exact bind_eq_ok_iff.mpr ⟨next, admitted, folded⟩
    · rintro ⟨before, x, after, value, cut, folded, refused⟩
      cases before with
      | nil =>
        cases cut
        cases folded
        exact .inl refused
      | cons first' before =>
        cases cut
        rw [List.foldlM_cons] at folded
        obtain ⟨next, admitted, folded'⟩ := bind_eq_ok_iff.mp folded
        exact .inr ⟨next, admitted, ih.mpr ⟨before, x, after, value, rfl, folded', refused⟩⟩

/-! ## Lists of related elements -/

section

variable {R : α → β → Prop} {xs : List α} {ys : List β}

theorem forall₂_getElem? (h : List.Forall₂ R xs ys) {i : Nat} {x : α} {y : β}
    (hx : xs[i]? = some x) (hy : ys[i]? = some y) : R x y := by
  induction h generalizing i with
  | nil => cases hx
  | cons first rest ih =>
    cases i with
    | zero =>
      cases hx
      cases hy
      exact first
    | succ i => exact ih hx hy

theorem exists_forall₂_iff : (∃ ys, List.Forall₂ R xs ys) ↔ ∀ x ∈ xs, ∃ y, R x y := by
  induction xs with
  | nil => simp
  | cons x xs ih =>
    rw [List.forall_mem_cons, ← ih]
    constructor
    · rintro ⟨_, related⟩
      obtain ⟨y, ys, first, rest, -⟩ := List.forall₂_cons_left_iff.mp related
      exact ⟨⟨y, first⟩, ys, rest⟩
    · rintro ⟨⟨y, first⟩, ys, rest⟩
      exact ⟨y :: ys, .cons first rest⟩

/-- Searches for what is true of related elements alike find related elements. -/
theorem forall₂_find? {p : α → Bool} {q : β → Bool} (h : List.Forall₂ R xs ys)
    (alike : ∀ x y, R x y → p x = q y) : Option.Rel R (xs.find? p) (ys.find? q) := by
  induction h with
  | nil => exact .none
  | @cons x y xs ys first rest ih =>
    rw [List.find?_cons, List.find?_cons, alike x y first]
    cases q y with
    | true => exact .some first
    | false => exact ih

theorem map_eq_of_rel {γ : Type} {f : α → γ} {g : β → γ} {x : Option α} {y : Option β}
    (h : Option.Rel R x y) (alike : ∀ a b, R a b → f a = g b) : x.map f = y.map g := by
  cases h with
  | none => rfl
  | some related => exact congrArg some (alike _ _ related)

theorem exists_of_mem_right (h : List.Forall₂ R xs ys) {y : β} (member : y ∈ ys) :
    ∃ x, R x y := by
  induction h with
  | nil => cases member
  | cons first rest ih =>
    rcases List.mem_cons.mp member with rfl | later
    · exact ⟨_, first⟩
    · exact ih later

end

end Minicomputer
