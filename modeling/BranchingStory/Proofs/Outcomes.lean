import Mathlib.Data.List.Forall2

/-
  This file reasons about computations that may fail by what
  they succeed with, or fail with.

  Key definitions include:
    * `FailsAs`

  Key theorems include:
    * `except_bind_ok`
    * `except_bind_error`
    * `mapM_eq_map`
    * `mapM_ok`
    * `FailsAs.bind`
    * `FailsAs.mapM`
-/

------------------------------------------------------------
-- Success And Failure
------------------------------------------------------------

namespace BranchingStory

variable {ε α β : Type}

/-
  A computation that is followed by another succeeds if and
  only if both do.
-/
theorem except_bind_ok
    {r : Except ε α}
    {f : α → Except ε β}
    {b : β} :
    (r >>= f) = .ok b ↔ ∃ a, r = .ok a ∧ f a = .ok b := by
  cases r with
  | error e =>
      constructor
      · intro hBind
        cases hBind
      · rintro ⟨a, hFirst, _⟩
        cases hFirst
  | ok a =>
      constructor
      · intro hBind
        exact ⟨a, rfl, hBind⟩
      · rintro ⟨a', hFirst, hBind⟩
        cases hFirst
        exact hBind

/-
  A computation that is followed by another fails if and only
  if one of the two does.
-/
theorem except_bind_error
    {r : Except ε α}
    {f : α → Except ε β}
    {e : ε} :
    (r >>= f) = .error e ↔
      r = .error e ∨ ∃ a, r = .ok a ∧ f a = .error e := by
  cases r with
  | error e' =>
      constructor
      · intro hBind
        cases hBind
        exact Or.inl rfl
      · rintro (hFirst | ⟨a, hFirst, _⟩)
        · cases hFirst
          rfl
        · cases hFirst
  | ok a =>
      constructor
      · intro hBind
        exact Or.inr ⟨a, rfl, hBind⟩
      · rintro (hFirst | ⟨a', hFirst, hBind⟩)
        · cases hFirst
        · cases hFirst
          exact hBind

/- A change of the outcome succeeds if the computation does. -/
theorem except_map_ok
    {r : Except ε α}
    {f : α → β}
    {b : β} :
    r.map f = .ok b ↔ ∃ a, r = .ok a ∧ f a = b := by
  cases r with
  | error e =>
      constructor
      · intro hMap
        cases hMap
      · rintro ⟨a, hFirst, _⟩
        cases hFirst
  | ok a =>
      constructor
      · intro hMap
        cases hMap
        exact ⟨a, rfl, rfl⟩
      · rintro ⟨a', hFirst, rfl⟩
        cases hFirst
        rfl

/- A change of the outcome fails if the computation does. -/
theorem except_map_error
    {r : Except ε α}
    {f : α → β}
    {e : ε} :
    r.map f = .error e ↔ r = .error e := by
  cases r with
  | error e' => simp [Except.map]
  | ok a => simp [Except.map]

/- A change of the fault keeps what a computation yields. -/
theorem except_mapError_ok
    {ε' : Type}
    {r : Except ε α}
    {f : ε → ε'}
    {a : α} :
    r.mapError f = .ok a ↔ r = .ok a := by
  cases r with
  | error e => simp [Except.mapError]
  | ok a => simp [Except.mapError]

/- Where each element succeeds, so does the whole list. -/
theorem mapM_eq_map
    {f : α → Except ε β}
    {g : α → β}
    {xs : List α}
    (hEach : ∀ x ∈ xs, f x = .ok (g x)) :
    xs.mapM f = .ok (xs.map g) := by
  induction xs with
  | nil => rfl
  | cons x xs ih =>
      rw [List.forall_mem_cons] at hEach
      rw [List.mapM_cons, hEach.1, ih hEach.2]
      rfl

/- Where the whole list succeeds, so does each element. -/
theorem mapM_ok
    {f : α → Except ε β}
    {xs : List α}
    {ys : List β}
    (hAll : xs.mapM f = .ok ys) :
    List.Forall₂ (fun x y => f x = .ok y) xs ys := by
  induction xs generalizing ys with
  | nil =>
      cases hAll
      exact List.Forall₂.nil
  | cons x xs ih =>
      rw [List.mapM_cons] at hAll
      rcases except_bind_ok.mp hAll with ⟨y, hHead, hAll⟩
      rcases except_bind_ok.mp hAll with ⟨ys', hTail, hAll⟩
      cases hAll
      exact List.Forall₂.cons hHead (ih hTail)

/- Every result comes from an element that succeeded. -/
theorem exists_of_mapM_ok
    {f : α → Except ε β}
    {xs : List α}
    {ys : List β}
    (hAll : xs.mapM f = .ok ys)
    {y : β}
    (hMem : y ∈ ys) :
    ∃ x ∈ xs, f x = .ok y := by
  have hPairs := mapM_ok hAll
  clear hAll
  induction hPairs with
  | nil => cases hMem
  | @cons x y' xs ys hHead _ ih =>
      rcases List.mem_cons.mp hMem with rfl | hRest
      · exact ⟨x, List.mem_cons_self, hHead⟩
      · rcases ih hRest with ⟨x', hMem', hEach⟩
        exact ⟨x', List.mem_cons_of_mem _ hMem', hEach⟩

/- Every element has a result that it succeeded with. -/
theorem exists_result_of_mapM_ok
    {f : α → Except ε β}
    {xs : List α}
    {ys : List β}
    (hAll : xs.mapM f = .ok ys)
    {x : α}
    (hMem : x ∈ xs) :
    ∃ y ∈ ys, f x = .ok y := by
  have hPairs := mapM_ok hAll
  clear hAll
  induction hPairs with
  | nil => cases hMem
  | @cons x' y xs ys hHead _ ih =>
      rcases List.mem_cons.mp hMem with rfl | hRest
      · exact ⟨y, List.mem_cons_self, hHead⟩
      · rcases ih hRest with ⟨y', hMem', hEach⟩
        exact ⟨y', List.mem_cons_of_mem _ hMem', hEach⟩

/- A list fails if one element fails and others do not. -/
theorem mapM_eq_error
    {f : α → Except ε β}
    {xs : List α}
    {e : ε}
    (hEach : ∀ x ∈ xs, (∃ y, f x = .ok y) ∨ f x = .error e)
    {x : α}
    (hMem : x ∈ xs)
    (hError : f x = .error e) :
    xs.mapM f = .error e := by
  induction xs with
  | nil => cases hMem
  | cons x' xs ih =>
      rw [List.forall_mem_cons] at hEach
      rw [List.mapM_cons, except_bind_error]
      rcases hEach.1 with ⟨y, hHead⟩ | hHead
      · refine Or.inr ⟨y, hHead, ?_⟩
        rw [except_bind_error]
        refine Or.inl (ih hEach.2 ?_)
        rcases List.mem_cons.mp hMem with rfl | hTail
        · rw [hHead] at hError
          cases hError
        · exact hTail
      · exact Or.inl hHead

/- A computation whose value passes a test has that value. -/
theorem exists_ok_of_any
    {r : Except ε α}
    {test : α → Bool}
    (hTest : r.toOption.any test = true) :
    ∃ a, r = .ok a ∧ test a = true := by
  cases r with
  | error e => cases hTest
  | ok a => exact ⟨a, rfl, hTest⟩

end BranchingStory

------------------------------------------------------------
-- Ways To Fail
------------------------------------------------------------

namespace BranchingStory

variable {ε α β : Type}

/- Whether a computation fails only as required. -/
def FailsAs
    (P : ε → Prop)
    (r : Except ε α) : Prop :=
  ∀ e, r = .error e → P e

namespace FailsAs

variable {P P' : ε → Prop}
variable {r : Except ε α}

/- A computation that succeeds does not fail. -/
theorem ok
    {a : α} :
    FailsAs P (.ok a : Except ε α) := by
  intro e hError
  cases hError

/- A fault is as required if it is. -/
theorem error
    {e : ε}
    (hFault : P e) :
    FailsAs P (.error e : Except ε α) := by
  intro e' hError
  cases hError
  exact hFault

/- What is required may be weakened. -/
theorem mono
    (hFails : FailsAs P r)
    (hImp : ∀ e, P e → P' e) :
    FailsAs P' r :=
  fun e hError => hImp e (hFails e hError)

/- One computation may follow another. -/
theorem bind
    {f : α → Except ε β}
    (hFirst : FailsAs P r)
    (hThen : ∀ a, r = .ok a → FailsAs P (f a)) :
    FailsAs P (r >>= f) := by
  intro e hError
  rcases except_bind_error.mp hError with
    hError | ⟨a, hOk, hError⟩
  · exact hFirst e hError
  · exact hThen a hOk e hError

/- The value of a computation may be changed. -/
theorem map
    {f : α → β}
    (hFails : FailsAs P r) :
    FailsAs P (r.map f) :=
  fun e hError => hFails e (except_map_error.mp hError)

/- A list fails as each of its elements does. -/
theorem mapM
    {f : α → Except ε β}
    {xs : List α}
    (hEach : ∀ x ∈ xs, FailsAs P (f x)) :
    FailsAs P (xs.mapM f) := by
  induction xs with
  | nil => exact ok
  | cons x xs ih =>
      rw [List.forall_mem_cons] at hEach
      rw [List.mapM_cons]
      apply hEach.1.bind
      intro y _
      exact (ih hEach.2).bind fun ys _ => ok

end FailsAs

end BranchingStory
