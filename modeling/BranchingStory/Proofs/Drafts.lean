import BranchingStory.Markup.Reading

/-
  This file says what every step of reading a script leaves
  behind: issues are only added, and numbers of alternatives
  are only handed out.

  Key definitions include:
    * `Draft.IsClean`
    * `Draft.Precedes`
    * `Reading.Ensures`
    * `Reading.Checks`

  Key theorems include:
    * `Draft.Precedes.isClean`
    * `Reading.run_bind_ok`
    * `Reading.Ensures.bind`
    * `Reading.Checks.bind`
-/

------------------------------------------------------------
-- Drafts
------------------------------------------------------------

namespace BranchingStory

namespace Draft

/- Whether no error is on record. -/
def IsClean
    (d : Draft) : Prop :=
  ∀ i ∈ d.issues, i.isError = false

/- A search for errors finds none exactly if none is on record. -/
theorem any_isError_eq_false
    {d : Draft} :
    d.issues.any Issue.isError = false ↔ d.IsClean := by
  simp [IsClean]

/-
  Whether a draft goes on where another one stands: its issues
  begin with those of the other, and no fewer alternatives
  have been numbered.
-/
structure Precedes
    (d d' : Draft) : Prop where
  issues : d.issues <+: d'.issues
  numbered : d.numbered ≤ d'.numbered

namespace Precedes

/- A draft goes on where it stands itself. -/
theorem refl
    (d : Draft) :
    d.Precedes d :=
  ⟨List.prefix_rfl, Nat.le_refl _⟩

/- Going on twice is going on. -/
theorem trans
    {d d' d'' : Draft}
    (hFirst : d.Precedes d')
    (hSecond : d'.Precedes d'') :
    d.Precedes d'' :=
  ⟨hFirst.issues.trans hSecond.issues,
    Nat.le_trans hFirst.numbered hSecond.numbered⟩

/- A draft without errors had none before. -/
theorem isClean
    {d d' : Draft}
    (hPrecedes : d.Precedes d')
    (hClean : d'.IsClean) :
    d.IsClean := by
  intro i hMem
  exact hClean i (hPrecedes.issues.subset hMem)

end Precedes

/- A draft that ends with an error is not clean. -/
theorem not_isClean_of_append
    {d : Draft}
    {i : Issue}
    (hError : i.isError = true) :
    ¬ IsClean { d with issues := d.issues ++ [i] } := by
  intro hClean
  have hNot : i.isError = false :=
    hClean i (by simp)
  rw [hError] at hNot
  cases hNot

end Draft

end BranchingStory

------------------------------------------------------------
-- Steps Of Reading
------------------------------------------------------------

namespace BranchingStory

namespace Reading

variable {α β : Type}

/-
  A step that is followed by another ends well if and only if
  both do.
-/
theorem run_bind_ok
    {r : Reading α}
    {f : α → Reading β}
    {d d'' : Draft}
    {b : β} :
    (r >>= f).run d = .ok (b, d'') ↔
      ∃ a d', r.run d = .ok (a, d') ∧
        (f a).run d' = .ok (b, d'') := by
  rw [StateT.run_bind]
  constructor
  · intro hRun
    cases hFirst : r.run d with
    | error e =>
        rw [hFirst] at hRun
        cases hRun
    | ok p =>
        rw [hFirst] at hRun
        exact ⟨p.1, p.2, rfl, hRun⟩
  · rintro ⟨a, d', hFirst, hSecond⟩
    rw [hFirst]
    exact hSecond

/- A step that only yields a value ends well. -/
theorem run_pure_ok
    {a b : α}
    {d d' : Draft} :
    (pure a : Reading α).run d = .ok (b, d') ↔
      a = b ∧ d = d' := by
  rw [StateT.run_pure]
  constructor
  · intro hRun
    cases hRun
    exact ⟨rfl, rfl⟩
  · rintro ⟨rfl, rfl⟩
    rfl

/- A step whose value is changed ends well as before. -/
theorem run_map_ok
    {r : Reading α}
    {f : α → β}
    {d d' : Draft}
    {b : β} :
    (f <$> r).run d = .ok (b, d') ↔
      ∃ a, r.run d = .ok (a, d') ∧ f a = b := by
  rw [StateT.run_map]
  cases hRun : r.run d with
  | error e =>
      simp [Functor.map, Except.map]
  | ok p =>
      rcases p with ⟨a, d''⟩
      simp only [Functor.map, Except.map, Except.ok.injEq,
        Prod.mk.injEq]
      constructor
      · rintro ⟨hValue, rfl⟩
        exact ⟨a, ⟨rfl, rfl⟩, hValue⟩
      · rintro ⟨a', ⟨rfl, rfl⟩, hValue⟩
        exact ⟨hValue, rfl⟩

/- A report puts its issue on record. -/
theorem run_report
    (cause : Cause)
    (line : Nat)
    (d : Draft) :
    (report cause line).run d =
      .ok ((), { d with
        issues := d.issues ++ [⟨cause, line⟩] }) := rfl

/- The next number is the count of those handed out. -/
theorem run_nextNumber
    (d : Draft) :
    nextNumber.run d =
      .ok (d.numbered, { d with
        numbered := d.numbered + 1 }) := rfl

/- A reading that gave up yields nothing. -/
theorem run_giveUp
    (digits : Nat)
    (d : Draft) :
    (giveUp digits : Reading α).run d =
      .error ⟨digits⟩ := rfl

end Reading

end BranchingStory

------------------------------------------------------------
-- What A Step Ensures
------------------------------------------------------------

namespace BranchingStory

namespace Reading

variable {α β : Type}

/-
  Whether every outcome of a step is related to the draft that
  the step began with.
-/
def Ensures
    (r : Reading α)
    (R : Draft → α → Draft → Prop) : Prop :=
  ∀ d a d', r.run d = .ok (a, d') → R d a d'

namespace Ensures

variable {R : Draft → α → Draft → Prop}

/- What is related stays so in a weaker relation. -/
theorem mono
    {r : Reading α}
    {S : Draft → α → Draft → Prop}
    (hFirst : r.Ensures R)
    (hWeaker : ∀ d a d', R d a d' → S d a d') :
    r.Ensures S := by
  intro d a d' hRun
  exact hWeaker d a d' (hFirst d a d' hRun)

/- A step that only yields a value leaves the draft alone. -/
theorem pure
    {a : α}
    (hHolds : ∀ d, R d a d) :
    Ensures (Pure.pure a) R := by
  intro d b d' hRun
  rcases run_pure_ok.mp hRun with ⟨rfl, rfl⟩
  exact hHolds d

/- What a step and the one after it ensure together. -/
theorem bind
    {r : Reading α}
    {f : α → Reading β}
    {S : α → Draft → β → Draft → Prop}
    {T : Draft → β → Draft → Prop}
    (hFirst : r.Ensures R)
    (hSecond : ∀ a, (f a).Ensures (S a))
    (hBoth :
      ∀ d a d' b d'',
        R d a d' → S a d' b d'' → T d b d'') :
    (r >>= f).Ensures T := by
  intro d b d'' hRun
  rcases run_bind_ok.mp hRun with
    ⟨a, d', hRunFirst, hRunSecond⟩
  exact hBoth d a d' b d'' (hFirst d a d' hRunFirst)
    (hSecond a d' b d'' hRunSecond)

end Ensures

/- A report adds its issue to the draft. -/
theorem precedes_of_report
    {cause : Cause}
    {line : Nat}
    {d d' : Draft}
    {u : Unit}
    (hRun : (Reading.report cause line).run d = .ok (u, d')) :
    d.Precedes d' := by
  rw [run_report] at hRun
  cases hRun
  exact ⟨List.prefix_append _ _, Nat.le_refl _⟩

end Reading

end BranchingStory

------------------------------------------------------------
-- Steps Without Errors
------------------------------------------------------------

namespace BranchingStory

namespace Reading

variable {α β : Type}

/-
  Whether a step only adds to what the draft holds, and its
  value is as required unless an error is on record.
-/
def Checks
    (r : Reading α)
    (Q : α → Prop) : Prop :=
  r.Ensures fun d a d' =>
    d.Precedes d' ∧ (d'.IsClean → Q a)

namespace Checks

variable {Q : α → Prop}

/- Less may be required of the value of a step. -/
theorem mono
    {r : Reading α}
    {Q' : α → Prop}
    (hChecks : r.Checks Q)
    (hWeaker : ∀ a, Q a → Q' a) :
    r.Checks Q' :=
  Ensures.mono hChecks fun _ a _ hBoth =>
    ⟨hBoth.1, fun hClean => hWeaker a (hBoth.2 hClean)⟩

/- A step that only yields a value reports nothing. -/
theorem pure
    {a : α}
    (hHolds : Q a) :
    Checks (Pure.pure a) Q :=
  Ensures.pure fun d =>
    ⟨Draft.Precedes.refl d, fun _ => hHolds⟩

/-
  What is required of the second of two steps may rest on what
  the first one is known for.
-/
theorem bind
    {r : Reading α}
    {f : α → Reading β}
    {S : β → Prop}
    (hFirst : r.Checks Q)
    (hSecond : ∀ a, (f a).Checks fun b => Q a → S b) :
    (r >>= f).Checks S := by
  refine Ensures.bind hFirst hSecond ?_
  intro d a d' b d'' hAdds hAdds'
  refine ⟨hAdds.1.trans hAdds'.1, ?_⟩
  intro hClean
  exact hAdds'.2 hClean (hAdds.2 (hAdds'.1.isClean hClean))

/- A report only adds its issue. -/
theorem report
    (cause : Cause)
    (line : Nat) :
    (Reading.report cause line).Checks fun _ => True := by
  intro d a d' hRun
  exact ⟨precedes_of_report hRun, fun _ => trivial⟩

/- After the report of an error nothing is required. -/
theorem error
    {cause : Cause}
    {Q : Unit → Prop}
    (hError : cause.severity = .error)
    (line : Nat) :
    (Reading.report cause line).Checks Q := by
  intro d a d' hRun
  refine ⟨precedes_of_report hRun, ?_⟩
  intro hClean
  rw [run_report] at hRun
  cases hRun
  exact absurd hClean
    (Draft.not_isClean_of_append
      (by simp [Issue.isError, hError]))

/- A report of an error that is followed by a value. -/
theorem error_pure
    {cause : Cause}
    (hError : cause.severity = .error)
    (line : Nat)
    (a : α) :
    (Reading.report cause line >>= fun _ =>
      Pure.pure a).Checks Q :=
  bind (error (Q := fun _ => False) hError line) fun _ =>
    pure fun hFalse => hFalse.elim

/- Whichever of two steps is made. -/
theorem ite
    {c : Prop}
    [Decidable c]
    {r r' : Reading α}
    (hThen : c → r.Checks Q)
    (hElse : ¬ c → r'.Checks Q) :
    (if c then r else r').Checks Q := by
  split
  · next hHolds => exact hThen hHolds
  · next hFails => exact hElse hFails

/-
  A step that reports on a condition, and what is read next:
  without errors, the report leaves its mark on what follows.
-/
theorem guarded
    {c P : Prop}
    [Decidable c]
    {r : Reading Unit}
    {f : Unit → Reading β}
    {S : β → Prop}
    (hThen : c → r.Checks fun _ => P)
    (hElse : ¬ c → P)
    (hNext : (f ()).Checks fun b => P → S b) :
    (if c then r >>= f else f ()).Checks S := by
  split
  · next hHolds => exact bind (hThen hHolds) fun _ => hNext
  · next hFails =>
      exact hNext.mono fun _ hMark => hMark (hElse hFails)

/- Steps for each item of a list. -/
theorem forM
    {f : α → Reading Unit}
    (hEach : ∀ a, (f a).Checks fun _ => Q a)
    (xs : List α) :
    (xs.forM f).Checks fun _ => ∀ a ∈ xs, Q a := by
  induction xs with
  | nil =>
      apply pure
      intro a hMem
      cases hMem
  | cons x xs ih =>
      refine bind (hEach x) fun _ => ?_
      refine ih.mono fun _ hTail hHead => ?_
      intro a hMem
      rcases List.mem_cons.mp hMem with rfl | hMem
      · exact hHead
      · exact hTail a hMem

end Checks

end Reading

end BranchingStory
