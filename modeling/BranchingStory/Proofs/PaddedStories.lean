import BranchingStory.Proofs.Mirroring
import BranchingStory.Proofs.Rebuilding
import BranchingStory.Proofs.Rechecking
import BranchingStory.Proofs.RoundTrip

/-
  This file shows that blank lines and comments can be put
  between the lines of a script without harm: the script can
  still be read, its outline is the same on other lines, and a
  story that was saved before can be restored and goes on as
  it would have.

  Key theorems include:
    * `restore_relined`
    * `read_padded`
    * `saves_survive_padding`
-/

------------------------------------------------------------
-- Restoring On Other Lines
------------------------------------------------------------

namespace BranchingStory

variable (f : Nat → Nat)
variable (o : Outline)

/- The same addresses are accepted. -/
@[simp] theorem requireAddress_relined :
    requireAddress (o.relined f) = requireAddress o := by
  funext part v
  simp only [requireAddress, Outline.hasAddress_relined]

/- The same numbers are accepted. -/
@[simp] theorem requireNode_relined :
    requireNode (o.relined f) = requireNode o := rfl

/- The same values are restored. -/
@[simp] theorem restoreValue_relined :
    restoreValue (o.relined f) = restoreValue o := by
  funext name k v
  unfold restoreValue
  rw [requireAddress_relined]

/- The same variables are restored. -/
@[simp] theorem restoreVariables_relined :
    restoreVariables (o.relined f) = restoreVariables o := by
  funext v
  have hValues :
      (o.relined f).vars.values =
        o.vars.values.map (Declaration.relined f) :=
    Table.values_mapValues _ _
  have hVariable (fields : List (String × Json)) :
      restoreVariable (o.relined f) fields ∘
          Declaration.relined f =
        restoreVariable o fields := by
    funext d
    simp only [Function.comp_apply, restoreVariable,
      restoreValue_relined, Declaration.relined]
  simp only [restoreVariables, hValues, List.mapM_map,
    hVariable, Outline.contains_vars_relined]

/- The same frames are restored. -/
@[simp] theorem restoreFrames_relined :
    restoreFrames (o.relined f) = restoreFrames o := by
  have hFrame :
      restoreFrame (o.relined f) = restoreFrame o := by
    funext i v
    simp only [restoreFrame, requireNode_relined,
      Outline.block?_relined, Option.isNone_map]
  funext v
  rw [restoreFrames, hFrame, restoreFrames]

/- The same offers are restored. -/
@[simp] theorem restoreOffers_relined :
    restoreOffers (o.relined f) = restoreOffers o := by
  have hOffer :
      restoreOffer (o.relined f) = restoreOffer o := by
    funext i v
    simp only [restoreOffer, requireNode_relined,
      Outline.branch?_relined, Option.isNone_map]
  funext v
  rw [restoreOffers, hOffer, restoreOffers]

/- The same visits are restored. -/
@[simp] theorem restoreVisits_relined :
    restoreVisits (o.relined f) = restoreVisits o := by
  funext v
  simp only [restoreVisits, requireAddress_relined]

/- The same states are restored, and the same is refused. -/
theorem restore_relined :
    restore (o.relined f) = restore o := by
  funext v
  have hState :
      restoreState (o.relined f) = restoreState o := by
    funext generator fields
    simp only [restoreState, requireAddress_relined,
      restoreVariables_relined, restoreFrames_relined,
      restoreVisits_relined, restoreOffers_relined]
  unfold restore
  rw [hState]

end BranchingStory

------------------------------------------------------------
-- Logs On Other Lines
------------------------------------------------------------

namespace BranchingStory

namespace Draft.Follows

variable {f : Nat → Nat}
variable {d d' : Draft}

/- Issues of a graver kind are the same on other lines. -/
theorem filter
    (hFollows : d.Follows f d')
    {accept : Issue → Bool}
    (hGrave : ∀ i, accept i = true → i.isGrave = true)
    (hSame : ∀ i, accept (i.relined f) = accept i) :
    d'.issues.filter accept =
      (d.issues.filter accept).map (Issue.relined f) := by
  have hBoth (is : List Issue) :
      is.filter accept =
        (is.filter Issue.isGrave).filter accept := by
    rw [List.filter_filter]
    congr 1
    funext i
    cases hAccept : accept i with
    | false => rfl
    | true => rw [hGrave i hAccept]; rfl
  rw [hBoth, hFollows.grave, List.filter_map, hBoth d.issues]
  congr 1
  congr 1
  funext i
  exact hSame i

/- There are errors if and only if there were. -/
theorem any_isError
    (hFollows : d.Follows f d') :
    d'.issues.any Issue.isError =
      d.issues.any Issue.isError := by
  have hErrors :
      d'.issues.filter Issue.isError =
        (d.issues.filter Issue.isError).map
          (Issue.relined f) := by
    refine hFollows.filter (fun i hError => ?_)
      (Issue.isError_relined f)
    rw [Issue.isError, decide_eq_true_eq] at hError
    rw [Issue.isGrave, Issue.isReminder, hError]
    rfl
  have hAny (is : List Issue) :
      is.any Issue.isError =
        !(is.filter Issue.isError).isEmpty := by
    induction is with
    | nil => rfl
    | cons i is ih =>
        rw [List.any_cons, List.filter_cons, ih]
        cases i.isError <;> rfl
  rw [hAny, hErrors, List.isEmpty_map, ← hAny]

/- There are the same warnings. -/
theorem warnings
    (hFollows : d.Follows f d') :
    (IssueLog.ofIssues d'.issues).warnings =
      (IssueLog.ofIssues d.issues).warnings.map
        (Issue.relined f) := by
  refine hFollows.filter (fun i hWarning => ?_) fun i => ?_
  · rw [decide_eq_true_eq] at hWarning
    rw [Issue.isGrave, Issue.isReminder, hWarning]
    rfl
  · rw [Issue.relined, Cause.severity_relined]

/- There are at least the same reminders. -/
theorem todos
    (hFollows : d.Follows f d') :
    ((IssueLog.ofIssues d.issues).todos.map
      (Issue.relined f)).Sublist
        (IssueLog.ofIssues d'.issues).todos := by
  have hKept := hFollows.issues.filter Issue.isReminder
  have hSame :
      Issue.isReminder ∘ Issue.relined f = Issue.isReminder :=
    funext (Issue.isReminder_relined f)
  rw [List.filter_map, hSame] at hKept
  exact hKept

end Draft.Follows

end BranchingStory

------------------------------------------------------------
-- Padded Scripts
------------------------------------------------------------

namespace BranchingStory

open Reading

variable {source edited : String}
variable {story : Story}
variable {gaps : Nat → List (List Char)}

/-
  The outline of a script is read on other lines if there are
  silent lines around its lines.
-/
theorem readOutline_padded
    {o : Outline}
    {e : Draft}
    (hRun : (readOutline source).run ⟨[], 0⟩ =
      .ok (some o, e))
    (hSilent : ∀ n, ∀ l ∈ gaps n, IsSilent l)
    (hEdited :
      splitLines edited.toList =
        padded gaps 0 (splitLines source.toList)) :
    ∃ e', (readOutline edited).run ⟨[], 0⟩ =
        .ok (some (o.relined (lineAfter gaps)), e') ∧
      e.Follows (lineAfter gaps) e' := by
  rcases run_bind_ok.mp hRun with ⟨ls, d₁, hLines, hRun⟩
  rcases run_bind_ok.mp hRun with ⟨o?, d₂, hBuilt, hRun⟩
  cases o? with
  | none => nomatch (run_pure_ok.mp hRun).1
  | some o₁ =>
      rcases run_bind_ok.mp hRun with ⟨_, d₃, hChecked, hRun⟩
      rcases run_pure_ok.mp hRun with ⟨hSame, rfl⟩
      cases hSame
      rcases (classifyFrom_padded hSilent 0 _).ok .empty hLines
        with ⟨d₁', hLines', hFollows₁⟩
      rcases buildOutline_relined hFollows₁ hBuilt with
        ⟨d₂', hBuilt', hFollows₂⟩
      rcases o.check_mirrors.ok hFollows₂ hChecked with
        ⟨d₃', hChecked', hFollows₃⟩
      have hSplit :
          (classifyScript edited).run ⟨[], 0⟩ =
            .ok (ls.map (.relined (lineAfter gaps)), d₁') := by
        rw [classifyScript, hEdited]
        exact hLines'
      refine ⟨d₃', ?_, hFollows₃⟩
      refine run_bind_ok.mpr ⟨_, d₁', hSplit, ?_⟩
      refine run_bind_ok.mpr ⟨_, d₂', hBuilt', ?_⟩
      exact run_bind_ok.mpr ⟨_, d₃', hChecked', rfl⟩

/-
  A script that can be read can be read with silent lines
  around its lines.  Only lines change, and only reminders are
  added.
-/
theorem read_padded
    (hRead : Story.read source = .ok story)
    (hSilent : ∀ n, ∀ l ∈ gaps n, IsSilent l)
    (hEdited :
      splitLines edited.toList =
        padded gaps 0 (splitLines source.toList)) :
    ∃ story', Story.read edited = .ok story' ∧
      story'.outline =
        story.outline.relined (lineAfter gaps) ∧
      story'.log.warnings =
        story.log.warnings.map
          (Issue.relined (lineAfter gaps)) ∧
      (story.log.todos.map
        (Issue.relined (lineAfter gaps))).Sublist
          story'.log.todos := by
  rcases Story.read_eq_ok_iff.mp hRead with
    ⟨o, e, hRun, hNone, rfl⟩
  rcases readOutline_padded hRun hSilent hEdited with
    ⟨e', hRun', hFollows⟩
  rw [← hFollows.any_isError] at hNone
  exact ⟨_, Story.read_eq_ok_iff.mpr ⟨_, _, hRun', hNone, rfl⟩,
    Outline.resolve_relined _ o, hFollows.warnings,
    hFollows.todos⟩

end BranchingStory

------------------------------------------------------------
-- Saves
------------------------------------------------------------

namespace BranchingStory

/- Every outline admits the reseeding that changes nothing. -/
theorem Outline.admits_none
    (o : Outline) :
    o.Admits .none :=
  fun _ _ _ _ _ => rfl

/-
  Silent lines are put around the lines of a script that can
  be read.  The new script can be read as well.  Its outline,
  with all numbers, names, tags, variables and places, is that
  of the old one but for the lines.  The same saved forms are
  restored to the same states, and others are refused alike;
  in particular, every state that the old story can come to,
  or that was restored for it, is restored from its saved form
  by the new story.  From there, both reply the same to all
  that they are asked, and meet the same faults but for the
  lines that these name.
-/
theorem saves_survive_padding
    {source edited : String}
    {story : Story}
    (hRead : Story.read source = .ok story)
    {gaps : Nat → List (List Char)}
    (hSilent : ∀ n, ∀ l ∈ gaps n, IsSilent l)
    (hEdited :
      splitLines edited.toList =
        padded gaps 0 (splitLines source.toList)) :
    ∃ story', Story.read edited = .ok story' ∧
      story'.outline =
        story.outline.relined (lineAfter gaps) ∧
      story'.log.warnings =
        story.log.warnings.map
          (Issue.relined (lineAfter gaps)) ∧
      (story.log.todos.map
        (Issue.relined (lineAfter gaps))).Sublist
          story'.log.todos ∧
      (∀ v, restore story'.outline v =
        restore story.outline v) ∧
      (source.length < Nat.pow 2 63 →
        ∀ s, (Reachable story.outline s ∨
            ∃ v, restore story.outline v = .ok s) →
          ∀ savedAt,
            restore story'.outline (s.save savedAt) =
              .ok s) ∧
      ∀ s qs, converse story'.outline s qs =
        (converse story.outline s qs).map fun p =>
          (Play.mirrored (lineAfter gaps) id p.1, p.2) := by
  rcases read_padded hRead hSilent hEdited with
    ⟨story', hRead', hOutline, hWarnings, hTodos⟩
  have hRestore (v : Json) :
      restore story'.outline v = restore story.outline v := by
    rw [hOutline, restore_relined]
  refine ⟨story', hRead', hOutline, hWarnings, hTodos,
    hRestore, ?_, ?_⟩
  · intro hLength s hState savedAt
    rcases Story.isSavable_of_read hRead hLength hState with
      ⟨hSavable, hShort⟩
    rw [hRestore]
    exact (State.restore_save_recovers
      (Story.isSound_of_read hRead) hSavable savedAt).ok hShort
  · intro s qs
    rw [hOutline]
    exact converse_mirrors story.outline.admits_none s qs

/-
  A story that is saved while it presents a choice.  A
  reminder, a blank line and a comment are put into its
  script, so that the choice is on another line: the state is
  restored, and the story goes on.
-/
theorem saves_survive_padding_choice :
    ∃ gaps story story' s,
      (∀ n, ∀ l ∈ gaps n, IsSilent l) ∧
        lineAfter gaps 2 = 5 ∧
        Story.read "\x7b&a|b\x7d\n* One\n" = .ok story ∧
        Story.read
          "// TODO: x\n\n\x7b&a|b\x7d\n // here\n* One" =
          .ok story' ∧
        story'.outline =
          story.outline.relined (lineAfter gaps) ∧
        Reachable story.outline s ∧
        s.status = .presenting ∧
        restore story'.outline (s.save "then") = .ok s ∧
        (converse story'.outline s
            [.choose 0, .resume 9]).map Prod.snd =
          (converse story.outline s
            [.choose 0, .resume 9]).map Prod.snd := by
  let gaps (n : Nat) : List (List Char) :=
    match n with
    | 0 => ["// TODO: x".toList, []]
    | 1 => [" // here".toList]
    | _ => []
  have hSilent (n : Nat) (l : List Char) (hMem : l ∈ gaps n) :
      IsSilent l := by
    rcases n with _ | _ | n
    · simp only [gaps, List.mem_cons, List.not_mem_nil,
        or_false] at hMem
      rcases hMem with rfl | rfl
      · exact ⟨[], _, rfl, rfl, .inr ⟨" TODO: x".toList, rfl⟩⟩
      · exact ⟨[], [], rfl, rfl, .inl rfl⟩
    · rw [List.mem_singleton.mp hMem]
      exact ⟨[' '], _, rfl, rfl, .inr ⟨" here".toList, rfl⟩⟩
    · nomatch hMem
  have hEdited :
      splitLines
          "// TODO: x\n\n\x7b&a|b\x7d\n // here\n* One".toList =
        padded gaps 0
          (splitLines "\x7b&a|b\x7d\n* One\n".toList) := by
    decide
  have hCheck :
      (match Story.read "\x7b&a|b\x7d\n* One\n" with
        | .error _ => false
        | .ok story =>
            let o := story.outline
            let s := ((resume o 9).runFrom (.start o 0)).2
            s.status = .presenting) = true := by
    decide +kernel
  cases hRead : Story.read "\x7b&a|b\x7d\n* One\n" with
  | error e =>
      rw [hRead] at hCheck
      cases hCheck
  | ok story =>
      rw [hRead] at hCheck
      have hReachable :=
        (Reachable.start (o := story.outline) 0).resume 9
      rcases saves_survive_padding hRead hSilent hEdited with
        ⟨story', hRead', hOutline, _, _, _, hSaves, hGoesOn⟩
      refine ⟨gaps, story, story', _, hSilent, rfl, rfl,
        hRead', hOutline, hReachable,
        of_decide_eq_true hCheck, ?_, ?_⟩
      · exact hSaves (by decide) _ (.inl hReachable) "then"
      · rw [hGoesOn, List.map_map]
        rfl

end BranchingStory
