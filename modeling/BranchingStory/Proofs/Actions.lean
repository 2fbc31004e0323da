import BranchingStory.Play.State

/-
  This file reasons about actions on the state of a story by
  what they end with: a value or a fault, and a state.

  Key definitions include:
    * `Play.Ends`

  Key theorems include:
    * `Play.ends_bind`
    * `Play.Ends.mono`
    * `Play.runFrom_bind`
-/

------------------------------------------------------------
-- Running Actions
------------------------------------------------------------

namespace BranchingStory

namespace Play

variable {α β : Type}

@[simp] theorem runFrom_pure
    (a : α)
    (s : State) :
    (pure a : Play α).runFrom s = (.ok a, s) := rfl

@[simp] theorem runFrom_throw
    (e : PlayError)
    (s : State) :
    (throw e : Play α).runFrom s = (.error e, s) := rfl

@[simp] theorem runFrom_get
    (s : State) :
    (get : Play State).runFrom s = (.ok s, s) := rfl

@[simp] theorem runFrom_set
    (s s' : State) :
    (set s' : Play Unit).runFrom s = (.ok (), s') := rfl

@[simp] theorem runFrom_modify
    (f : State → State)
    (s : State) :
    (modify f : Play Unit).runFrom s = (.ok (), f s) := rfl

/-
  An action goes on with the one after it unless it is stopped
  by a fault.
-/
theorem runFrom_bind
    (p : Play α)
    (f : α → Play β)
    (s : State) :
    (p >>= f).runFrom s =
      match p.runFrom s with
      | (.ok a, s') => (f a).runFrom s'
      | (.error e, s') => (.error e, s') := by
  change ExceptT.run (p >>= f) s = _
  rw [ExceptT.run_bind]
  change StateT.bind _ _ s = _
  rw [StateT.bind]
  change
    (match ExceptT.run p s with
      | (a, s') => _) = _
  cases hRun : p.runFrom s with
  | mk r s' =>
      rw [runFrom] at hRun
      rw [hRun]
      cases r <;> rfl

/- What yields a value has yielded one on the way. -/
theorem runFrom_bind_ok
    {p : Play α}
    {f : α → Play β}
    {b : β}
    {s s' : State} :
    (p >>= f).runFrom s = (.ok b, s') ↔
      ∃ a s₁, p.runFrom s = (.ok a, s₁) ∧
        (f a).runFrom s₁ = (.ok b, s') := by
  rw [runFrom_bind]
  rcases p.runFrom s with ⟨e | a, s₁⟩
  · constructor
    · intro hRun
      cases hRun
    · rintro ⟨a, s₂, hRun, _⟩
      cases hRun
  · constructor
    · intro hRun
      exact ⟨a, s₁, rfl, hRun⟩
    · rintro ⟨a', s₂, hRun, hThen⟩
      cases hRun
      exact hThen

end Play

end BranchingStory

------------------------------------------------------------
-- What Actions End With
------------------------------------------------------------

namespace BranchingStory

namespace Play

variable {α β : Type}

/-
  Whether an action ends with a value and a state as required,
  or with a fault and a state as required for faults.
-/
def Ends
    (p : Play α)
    (s : State)
    (Q : α → State → Prop)
    (E : PlayError → State → Prop) : Prop :=
  match p.runFrom s with
  | (.ok a, s') => Q a s'
  | (.error e, s') => E e s'

variable {Q : α → State → Prop}
variable {E : PlayError → State → Prop}

@[simp] theorem ends_pure
    {a : α}
    {s : State} :
    Ends (pure a) s Q E ↔ Q a s :=
  Iff.rfl

@[simp] theorem ends_throw
    {e : PlayError}
    {s : State} :
    Ends (throw e) s Q E ↔ E e s :=
  Iff.rfl

@[simp] theorem ends_get
    {Q : State → State → Prop}
    {s : State} :
    Ends get s Q E ↔ Q s s :=
  Iff.rfl

@[simp] theorem ends_set
    {Q : Unit → State → Prop}
    {s s' : State} :
    Ends (set s') s Q E ↔ Q () s' :=
  Iff.rfl

@[simp] theorem ends_modify
    {Q : Unit → State → Prop}
    {f : State → State}
    {s : State} :
    Ends (modify f) s Q E ↔ Q () (f s) :=
  Iff.rfl

/- An action ends as required if what follows it does. -/
@[simp] theorem ends_bind
    {p : Play β}
    {f : β → Play α}
    {s : State} :
    Ends (p >>= f) s Q E ↔
      Ends p s (fun b s' => Ends (f b) s' Q E) E := by
  unfold Ends
  rw [runFrom_bind]
  rcases hRun : p.runFrom s with ⟨_ | _, s'⟩ <;> rfl

/- Less may be required of what an action ends with. -/
theorem Ends.mono
    {p : Play α}
    {s : State}
    {Q' : α → State → Prop}
    {E' : PlayError → State → Prop}
    (hEnds : Ends p s Q E)
    (hValue : ∀ a s', Q a s' → Q' a s')
    (hFault : ∀ e s', E e s' → E' e s') :
    Ends p s Q' E' := by
  unfold Ends at hEnds ⊢
  rcases hRun : p.runFrom s with ⟨e | a, s'⟩
  · rw [hRun] at hEnds
    exact hFault e s' hEnds
  · rw [hRun] at hEnds
    exact hValue a s' hEnds

/- An action that yields a value is followed by the next. -/
theorem ends_bind_ok
    {p : Play β}
    {f : β → Play α}
    {b : β}
    {s s' : State}
    (hRun : p.runFrom s = (.ok b, s')) :
    Ends (p >>= f) s Q E ↔ Ends (f b) s' Q E := by
  unfold Ends
  rw [runFrom_bind, hRun]

/- An action that is stopped is not followed by another. -/
theorem ends_bind_error
    {p : Play β}
    {f : β → Play α}
    {e : PlayError}
    {s s' : State}
    (hRun : p.runFrom s = (.error e, s')) :
    Ends (p >>= f) s Q E ↔ E e s' := by
  unfold Ends
  rw [runFrom_bind, hRun]

/- The value that an action ends with if it is run. -/
theorem Ends.of_ok
    {p : Play α}
    {s s' : State}
    {a : α}
    (hEnds : Ends p s Q E)
    (hRun : p.runFrom s = (.ok a, s')) :
    Q a s' := by
  unfold Ends at hEnds
  rw [hRun] at hEnds
  exact hEnds

/- An action ends as required twice. -/
theorem Ends.and
    {p : Play α}
    {s : State}
    {Q' : α → State → Prop}
    {E' : PlayError → State → Prop}
    (hEnds : Ends p s Q E)
    (hEnds' : Ends p s Q' E') :
    Ends p s (fun a s' => Q a s' ∧ Q' a s')
      (fun e s' => E e s' ∧ E' e s') := by
  unfold Ends at hEnds hEnds' ⊢
  rcases hRun : p.runFrom s with ⟨e | a, s'⟩
  · rw [hRun] at hEnds hEnds'
    exact ⟨hEnds, hEnds'⟩
  · rw [hRun] at hEnds hEnds'
    exact ⟨hEnds, hEnds'⟩

/- What holds of all values and faults holds at the end. -/
theorem Ends.of_forall
    {p : Play α}
    {s : State}
    (hValue : ∀ a s', Q a s')
    (hFault : ∀ e s', E e s') :
    Ends p s Q E := by
  unfold Ends
  rcases p.runFrom s with ⟨e | a, s'⟩
  · exact hFault e s'
  · exact hValue a s'

/-
  An action may be followed by another one that does the same
  wherever the action ends.
-/
theorem runFrom_bind_congr
    {p : Play α}
    {f g : α → Play β}
    {s : State}
    {E : PlayError → State → Prop}
    (hEnds :
      Ends p s
        (fun a s' => (f a).runFrom s' = (g a).runFrom s') E) :
    (p >>= f).runFrom s = (p >>= g).runFrom s := by
  unfold Ends at hEnds
  rw [runFrom_bind, runFrom_bind]
  rcases hRun : p.runFrom s with ⟨e | a, s'⟩
  · rfl
  · rw [hRun] at hEnds
    exact hEnds

/- The fault that an action ends with if it is run. -/
theorem Ends.of_error
    {p : Play α}
    {s s' : State}
    {e : PlayError}
    (hEnds : Ends p s Q E)
    (hRun : p.runFrom s = (.error e, s')) :
    E e s' := by
  unfold Ends at hEnds
  rw [hRun] at hEnds
  exact hEnds

/- The state after an action, whatever it ends with. -/
theorem Ends.state
    {p : Play α}
    {s : State}
    {I : State → Prop}
    (hEnds :
      Ends p s (fun _ s' => I s') (fun _ s' => I s')) :
    I (p.runFrom s).2 := by
  unfold Ends at hEnds
  rcases hRun : p.runFrom s with ⟨e | a, s'⟩
  · rw [hRun] at hEnds
    exact hEnds
  · rw [hRun] at hEnds
    exact hEnds

end Play

end BranchingStory
