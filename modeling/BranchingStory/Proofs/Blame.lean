import BranchingStory.Proofs.GivingUp

/-
  This file follows an error from the line that it is about to
  the end of the reading.  What is once on record stays there,
  so that a script is refused with an error about a line if any
  step of its reading reports one.  Only a number that is too
  long keeps the reading from getting to its end.

  Key definitions include:
    * `Draft.Blames`
    * `Reading.Blames`
    * `IsRefusedFor`

  Key theorems include:
    * `Reading.Blames.bind`
    * `classifyFrom_blames`
    * `Builder.foldlM_add_blames`
    * `readOutline_blames`
    * `Story.read_blames`
-/

------------------------------------------------------------
-- Errors On Record
------------------------------------------------------------

namespace BranchingStory

/- Whether an error about a line is on record. -/
def Draft.Blames
    (d : Draft)
    (line : Nat) : Prop :=
  ∃ i ∈ d.issues, i.line = line ∧ i.isError = true

/- What is on record stays on record. -/
theorem Draft.Precedes.blames
    {d d' : Draft}
    {line : Nat}
    (hPrecedes : d.Precedes d')
    (hBlames : d.Blames line) :
    d'.Blames line := by
  rcases hBlames with ⟨i, hMem, hAbout⟩
  exact ⟨i, hPrecedes.issues.subset hMem, hAbout⟩

namespace Reading

variable {α β : Type}

/-
  Whether a step only adds to what the draft holds, and ends
  with an error about a line on record or with a value as
  required.
-/
def Blames
    (r : Reading α)
    (line : Nat)
    (Q : α → Prop) : Prop :=
  r.Ensures fun d a d' =>
    d.Precedes d' ∧ (d'.Blames line ∨ Q a)

namespace Blames

variable {line : Nat}
variable {Q : α → Prop}

/- Less may be required of the value of a step. -/
theorem mono
    {r : Reading α}
    {Q' : α → Prop}
    (hBlames : r.Blames line Q)
    (hWeaker : ∀ a, Q a → Q' a) :
    r.Blames line Q' :=
  Ensures.mono hBlames fun _ a _ hBoth =>
    ⟨hBoth.1, hBoth.2.imp id (hWeaker a)⟩

/- A step that only yields a value. -/
theorem pure
    {a : α}
    (hHolds : Q a) :
    Blames (Pure.pure a) line Q :=
  Ensures.pure fun d => ⟨Draft.Precedes.refl d, Or.inr hHolds⟩

/- The report of an error blames its line. -/
theorem error
    {cause : Cause}
    {Q : Unit → Prop}
    (hError : cause.severity = .error) :
    (Reading.report cause line).Blames line Q := by
  intro d a d' hRun
  have hAdds := precedes_of_report hRun
  rw [run_report] at hRun
  cases hRun
  refine ⟨hAdds, Or.inl ⟨⟨cause, line⟩, ?_, rfl, ?_⟩⟩
  · exact List.mem_append_right _ (List.mem_singleton.mpr rfl)
  · simp [Issue.isError, hError]

/-
  What is required of the second of two steps may rest on what
  the first one is known for, as long as no line is blamed.
-/
theorem bind
    {r : Reading α}
    {f : α → Reading β}
    {S : β → Prop}
    (hFirst : r.Blames line Q)
    (hSecond : ∀ a, (f a).Blames line fun b => Q a → S b) :
    (r >>= f).Blames line S := by
  refine Ensures.bind hFirst hSecond ?_
  rintro d a d' b d'' ⟨hAdds, hBlames | hValue⟩ ⟨hAdds', hNext⟩
  · exact ⟨hAdds.trans hAdds', Or.inl (hAdds'.blames hBlames)⟩
  · exact ⟨hAdds.trans hAdds',
      hNext.imp id fun hHolds => hHolds hValue⟩

/- A step that goes on after a line is blamed. -/
theorem after
    {r : Reading α}
    {f : α → Reading β}
    {S : β → Prop}
    (hFirst : r.Blames line fun _ => False)
    (hSecond : ∀ a, (f a).Blames line fun _ => True) :
    (r >>= f).Blames line S :=
  bind hFirst fun a => (hSecond a).mono fun _ _ hNone =>
    hNone.elim

/- The report of an error that is followed by a value. -/
theorem error_pure
    {cause : Cause}
    (hError : cause.severity = .error)
    (a : α) :
    (Reading.report cause line >>= fun _ =>
      Pure.pure a).Blames line Q :=
  after (error hError) fun _ => pure trivial

/- A step that hands out no numbers. -/
theorem of_idles
    {r : Reading α}
    (hIdles : r.Idles Q) :
    r.Blames line Q :=
  Ensures.mono hIdles fun _ _ _ hAll =>
    ⟨hAll.1, Or.inr hAll.2.2⟩

/- What such a step yields may be relied on after it. -/
theorem after_idles
    {r : Reading α}
    {f : α → Reading β}
    {S : β → Prop}
    (hFirst : r.Idles Q)
    (hSecond : ∀ a, Q a → (f a).Blames line S) :
    (r >>= f).Blames line S := by
  intro d b d'' hRun
  rcases run_bind_ok.mp hRun with
    ⟨a, d', hRunFirst, hRunSecond⟩
  rcases hFirst d a d' hRunFirst with ⟨hAdds, _, hValue⟩
  rcases hSecond a hValue d' b d'' hRunSecond with
    ⟨hAdds', hBlames⟩
  exact ⟨hAdds.trans hAdds', hBlames⟩

/- A step that writes fragments. -/
theorem of_writes
    {r : Reading α}
    {fragments : α → List Fragment}
    {n : Nat}
    (hWrites : r.Writes fragments n) :
    r.Blames line fun _ => True :=
  Ensures.mono hWrites fun _ _ _ hBoth =>
    ⟨hBoth.1.precedes, Or.inr trivial⟩

/- A report that may be left out. -/
theorem guarded
    {c : Prop}
    [Decidable c]
    {cause : Cause}
    {about : Nat}
    {f : Unit → Reading β}
    {S : β → Prop}
    (hSecond : (f ()).Blames line S) :
    (if c then Reading.report cause about >>= f
      else f ()).Blames line S := by
  split
  · exact after_idles (Idles.report cause about) fun _ _ =>
      hSecond
  · exact hSecond

end Blames

end Reading

end BranchingStory

------------------------------------------------------------
-- Lines Of A Script
------------------------------------------------------------

namespace BranchingStory

open Reading

/-
  What is said of a line of a script, that it is blamed or
  yields a logical line of some sort, can be said of the
  script.
-/
theorem classifyFrom_blames
    {Q : ScriptLine → Prop}
    {texts : List (List Char)}
    {n : Nat}
    {cs : List Char}
    (hText : texts[n]? = some cs)
    (first : Nat)
    (hLine :
      (readScriptLine (first + n) cs).Blames (first + n)
        fun l? => ∃ l, l? = some l ∧ Q l) :
    (classifyFrom first texts).Blames (first + n) fun ls =>
      ∃ l ∈ ls, Q l := by
  induction texts generalizing first n with
  | nil => simp at hText
  | cons text texts ih =>
      rw [classifyFrom]
      cases n with
      | zero =>
          have hSame : text = cs := by simpa using hText
          subst hSame
          refine Blames.bind hLine fun l? => ?_
          refine Blames.bind
            (Blames.of_idles (classifyFrom_reads _ _))
            fun ls => ?_
          refine Blames.pure fun _ hSome => ?_
          rcases hSome with ⟨l, rfl, hHolds⟩
          exact ⟨l, by simp, hHolds⟩
      | succ n =>
          have hText' : texts[n]? = some cs := by
            simpa using hText
          have hPlace : first + (n + 1) = first + 1 + n := by
            omega
          rw [hPlace] at hLine ⊢
          refine Blames.bind
            (Blames.of_idles (readScriptLine_readsFrom _ _))
            fun l? => ?_
          refine Blames.bind (ih hText' (first + 1) hLine)
            fun ls => ?_
          refine Blames.pure fun hSome _ => ?_
          rcases hSome with ⟨l, hMem, hHolds⟩
          exact ⟨l, List.mem_append_right _ hMem, hHolds⟩

end BranchingStory

------------------------------------------------------------
-- Building
------------------------------------------------------------

namespace BranchingStory

open Reading

variable {line : Nat}

/- To add a line only adds to what is on record. -/
theorem Builder.add_blames_none
    (b : Builder)
    {l : ScriptLine}
    (hProper : l.IsProper) :
    (b.add l).Blames line fun _ => True :=
  Ensures.mono (b.add_keeps hProper) fun _ _ _ hAll =>
    ⟨hAll.1, Or.inr trivial⟩

/- A logical line that is always blamed is blamed among others. -/
theorem Builder.foldlM_add_blames
    {l : ScriptLine}
    (hBlamed :
      ∀ b : Builder, (b.add l).Blames line fun _ => False)
    {ls : List ScriptLine}
    (hProper : ∀ l ∈ ls, l.IsProper)
    (hMem : l ∈ ls)
    (b : Builder) :
    (ls.foldlM Builder.add b).Blames line fun _ => False := by
  have hRest
      (ls : List ScriptLine)
      (hProper : ∀ l ∈ ls, l.IsProper)
      (b : Builder) :
      (ls.foldlM Builder.add b).Blames line fun _ => True :=
    Ensures.mono (foldlM_add_keeps ls hProper b)
      fun _ _ _ hAll => ⟨hAll.1, Or.inr trivial⟩
  induction ls generalizing b with
  | nil => cases hMem
  | cons l' ls ih =>
      rw [List.forall_mem_cons] at hProper
      rw [List.foldlM_cons]
      rcases List.mem_cons.mp hMem with rfl | hMem
      · exact Blames.after (hBlamed b) fun b' =>
          hRest ls hProper.2 b'
      · exact Blames.bind (b.add_blames_none hProper.1)
          fun b' => (ih hProper.2 hMem b').mono
            fun _ hNone _ => hNone

/- A script with such a line is blamed for it. -/
theorem buildOutline_blames
    {l : ScriptLine}
    (hBlamed :
      ∀ b : Builder, (b.add l).Blames line fun _ => False)
    {ls : List ScriptLine}
    (hProper : ∀ l ∈ ls, l.IsProper)
    (hMem : l ∈ ls) :
    (buildOutline ls).Blames line fun _ => False := by
  refine Blames.after
    (Builder.foldlM_add_blames hBlamed hProper hMem .empty)
    fun b => ?_
  refine Blames.bind
    (Blames.of_idles b.closeKnot_settles.idles) fun b' => ?_
  cases b'.start? with
  | none =>
      exact Blames.of_idles
        (Idles.report_pure _ _ fun _ => trivial)
  | some a => exact Blames.pure fun _ => trivial

/-
  Reading a script blames a line that is blamed when it is
  split into logical lines, or whose logical line is blamed
  whatever has been built before it.
-/
theorem readOutline_blames
    {source : String}
    {n : Nat}
    {cs : List Char}
    (hText : (splitLines source.toList)[n]? = some cs)
    (hLine :
      (readScriptLine (1 + n) cs).Blames (1 + n) fun l? =>
        ∃ l, l? = some l ∧ ∀ b : Builder,
          (b.add l).Blames (1 + n) fun _ => False) :
    (readOutline source).Blames (1 + n) fun _ => False := by
  intro d o? d' hRun
  rcases run_bind_ok.mp hRun with ⟨ls, d₁, hLines, hRun⟩
  rcases run_bind_ok.mp hRun with ⟨r, d₂, hBuild, hRun⟩
  rcases classifyScript_idles source d ls d₁ hLines with
    ⟨hAdds₁, _, hProper, _⟩
  rcases buildOutline_ensures ls hProper d₁ r d₂ hBuild with
    ⟨hAdds₂, _⟩
  have hBlames₂ : d₂.Blames (1 + n) := by
    rcases
        (classifyFrom_blames hText 1 hLine d ls d₁ hLines).2
      with hBlames | ⟨l, hMem, hBlamed⟩
    · exact hAdds₂.blames hBlames
    · rcases
          (buildOutline_blames hBlamed hProper hMem
            d₁ r d₂ hBuild).2 with hBlames | hFalse
      · exact hBlames
      · exact hFalse.elim
  have hAdds₃ : d₂.Precedes d' := by
    cases r with
    | none =>
        rcases run_pure_ok.mp hRun with ⟨_, rfl⟩
        exact Draft.Precedes.refl d₂
    | some o =>
        rcases run_bind_ok.mp hRun with ⟨_, d₃, hCheck, hRun⟩
        rcases run_pure_ok.mp hRun with ⟨_, rfl⟩
        exact (o.checks d₂ _ d₃ hCheck).1
  exact ⟨(hAdds₁.trans hAdds₂).trans hAdds₃,
    Or.inl (hAdds₃.blames hBlames₂)⟩

end BranchingStory

------------------------------------------------------------
-- Refused Scripts
------------------------------------------------------------

namespace BranchingStory

open Reading

/-
  Whether a script is refused for a line: there is an error
  about the line, or reading gave up, for the script has more
  digits than a number may have.
-/
def IsRefusedFor
    (source : String)
    (line : Nat) : Prop :=
  (∃ errors, Story.read source = .error (.faulty errors) ∧
    ∃ i ∈ errors, i.line = line) ∨
  ∃ n, Story.read source = .error (.longNumber n) ∧
    HasLongNumber source.toList

/- A script is refused for a line that reading it blames. -/
theorem Story.read_blames
    {source : String}
    {line : Nat}
    (hBlames :
      (readOutline source).Blames line fun _ => False) :
    IsRefusedFor source line := by
  unfold IsRefusedFor Story.read Reading.start
  cases hRun : (readOutline source).run ⟨[], 0⟩ with
  | error n =>
      exact Or.inr ⟨n, rfl,
        readOutline_givesUp source _ n hRun⟩
  | ok p =>
      rcases p with ⟨o?, d⟩
      rcases hBlames _ o? d hRun with
        ⟨_, ⟨i, hMem, hLine, hError⟩ | hFalse⟩
      · have hFiltered : i ∈ d.issues.filter Issue.isError :=
          List.mem_filter.mpr ⟨hMem, hError⟩
        refine Or.inl ⟨_, ?_, i, hFiltered, hLine⟩
        cases o? with
        | none => rfl
        | some o =>
            have hAny : d.issues.any Issue.isError = true :=
              List.any_eq_true.mpr ⟨i, hMem, hError⟩
            simp only [Except.map, hAny, if_true]
      · exact hFalse.elim

end BranchingStory
