import BranchingStory.Proofs.Requests
import BranchingStory.Proofs.Runs
import BranchingStory.Proofs.Showings
import BranchingStory.Proofs.Stopping

/-
  This file tells a story to a listener who keeps what is told,
  calls for more and looks things up.  A call that fails leaves
  the story and the listener as they were, unless the story was
  stopped on its way by a fault of its own, and to look things
  up never changes anything.

  Key definitions include:
    * `Telling`
    * `StoryCall`
    * `StoryCall.serve`

  Key theorems include:
    * `resume_ends_untimely`
    * `StoryRequest.action_refused`
    * `StoryCall.serve_reachable`
    * `failed_calls_change_nothing`
-/

------------------------------------------------------------
-- Calls
------------------------------------------------------------

namespace BranchingStory

/- A story that is told, and what its listener has kept. -/
structure Telling where
  state : State
  kept : List OutputLine

/- What a listener can call for: a request, or a save. -/
inductive StoryCall where
  | request (r : StoryRequest)
  | save (savedAt : String)

/- What a call is answered with. -/
inductive Answer where
  | reply (r : Reply)
  | saved (j : Json)

/- The lines that a reply hands to the listener. -/
def Reply.lines : Reply → List OutputLine
  | .told lines _ => lines
  | _ => []

namespace StoryCall

/-
  The answer to a call, and the telling after it.  The listener
  keeps the lines of a reply; there are none with a fault.
-/
def serve
    (o : Outline)
    (t : Telling) :
    StoryCall → Except PlayError Answer × Telling
  | .save savedAt => (.ok (.saved (t.state.save savedAt)), t)
  | .request r =>
      match (r.action o).runFrom t.state with
      | (.ok reply, s) =>
          (.ok (.reply reply), ⟨s, t.kept ++ reply.lines⟩)
      | (.error e, s) => (.error e, { t with state := s })

/- Whether a call is for more of the story. -/
def isResumption : StoryCall → Bool
  | .request (.resume _) => true
  | _ => false

/- Whether a call only looks something up. -/
def isLookUp : StoryCall → Bool
  | .request (.resume _) => false
  | .request (.choose _) => false
  | .request (.moveTo _ _) => false
  | .request (.setVariable _ _) => false
  | _ => true

end StoryCall

end BranchingStory

------------------------------------------------------------
-- Calls That Fail
------------------------------------------------------------

namespace BranchingStory

open Play

variable {o : Outline}
variable {s : State}

/-
  A story that is asked for more at the wrong time tells so and
  does nothing, and it tells so at no other time.
-/
theorem resume_ends_untimely
    (o : Outline)
    (steps : Nat)
    (s : State) :
    Ends (resume o steps) s
      (fun _ _ => True)
      (fun e s' =>
        (e.isUntimely = true → s' = s) ∧
        (e = .finished ↔ s.status = .finished) ∧
        (e = .choicePending ↔ s.status = .presenting)) := by
  unfold resume
  rw [ends_bind, ends_get]
  cases hStatus : s.status with
  | finished => exact ⟨fun _ => rfl, by simp, by simp⟩
  | presenting => exact ⟨fun _ => rfl, by simp, by simp⟩
  | ready =>
      simp only [ends_bind]
      refine (follow_timely o steps s).mono
        (fun _ _ _ => trivial) ?_
      intro e s' hTimely
      refine ⟨?_, ?_, ?_⟩
      · intro hUntimely
        rw [hTimely] at hUntimely
        cases hUntimely
      · constructor
        · rintro rfl
          cases hTimely
        · intro hOther
          cases hOther
      · constructor
        · rintro rfl
          cases hTimely
        · intro hOther
          cases hOther

/- What is replied with a value does not matter to faults. -/
theorem Play.Ends.reply
    {α : Type}
    {p : Play α}
    {Q : α → State → Prop}
    {E : PlayError → State → Prop}
    (hEnds : Ends p s Q E)
    (f : α → Reply) :
    Ends (p >>= fun a => pure (f a)) s (fun _ _ => True) E := by
  rw [ends_bind]
  exact hEnds.mono (fun _ _ _ => trivial)
    fun _ _ hFault => hFault

/- The same of the request for more of the story. -/
theorem resume_action_ends
    (o : Outline)
    (steps : Nat)
    (s : State) :
    Ends ((StoryRequest.resume steps).action o) s
      (fun _ _ => True)
      (fun e s' =>
        (e.isUntimely = true → s' = s) ∧
        (e = .finished ↔ s.status = .finished) ∧
        (e = .choicePending ↔ s.status = .presenting)) :=
  (resume_ends_untimely o steps s).reply fun p =>
    .told p.1 p.2

/- What is looked up is replied, or a fault, and no more. -/
theorem replyOf_ends
    {α : Type}
    {reply : α → Reply}
    (hLines : ∀ a, (reply a).lines = [])
    (found : Except PlayError α)
    (s : State) :
    Ends (replyOf reply found) s
      (fun x s' => s' = s ∧ x.lines = [])
      (fun _ s' => s' = s) := by
  cases found with
  | ok a => exact ⟨rfl, hLines a⟩
  | error e => exact rfl

/- To look something up changes nothing, found or not. -/
theorem StoryRequest.lookUp_ends
    {r : StoryRequest}
    (hLookUp : (StoryCall.request r).isLookUp = true)
    (s : State) :
    Ends (r.action o) s
      (fun x s' => s' = s ∧ x.lines = [])
      (fun _ s' => s' = s) := by
  cases r with
  | resume steps => cases hLookUp
  | choose index => cases hLookUp
  | moveTo knot stitch => cases hLookUp
  | setVariable name given => cases hLookUp
  | status => exact ⟨rfl, rfl⟩
  | prompt => exact ⟨rfl, rfl⟩
  | place => exact ⟨rfl, rfl⟩
  | visits knot stitch => exact replyOf_ends (fun _ => rfl) _ s
  | storyTags => exact ⟨rfl, rfl⟩
  | knotTags knot => exact replyOf_ends (fun _ => rfl) _ s
  | variableValue name =>
      exact replyOf_ends (fun _ => rfl) _ s
  | variableText name =>
      rw [action, ends_bind, ends_get]
      split
      · next v _ =>
          rw [ends_bind, textOf]
          split
          · exact ⟨rfl, rfl⟩
          · exact rfl
      · exact rfl

/-
  A request that is refused leaves the story as it is, unless
  it was for more of the story at the right time.
-/
theorem StoryRequest.action_refused
    (hSound : o.IsSound)
    (hFits : s.Fits o)
    {r : StoryRequest}
    {e : PlayError}
    {s' : State}
    (hRun : (r.action o).runFrom s = (.error e, s'))
    (hRefused : (StoryCall.request r).isResumption = true →
      e.isUntimely = true) :
    s' = s := by
  -- A look-up keeps the state whatever it ends with.
  have hLookUp
      (hKind : (StoryCall.request r).isLookUp = true) :
      s' = s :=
    (lookUp_ends hKind s).of_error hRun
  cases r with
  | resume steps =>
      have hEnds := resume_action_ends o steps s
      exact (hEnds.of_error hRun).1 (hRefused rfl)
  | choose index =>
      have hEnds := choose_ends hSound index hFits
      exact ((hEnds.reply fun _ => .done).of_error hRun).1
  | moveTo knot stitch =>
      have hEnds := moveTo_ends hSound knot stitch hFits
      exact ((hEnds.reply fun _ => .done).of_error hRun).1
  | setVariable name given =>
      have hEnds := setVariable_ends name given hFits
      exact ((hEnds.reply fun _ => .done).of_error hRun).1
  | _ => exact hLookUp rfl

namespace StoryCall

variable {t t' : Telling}

/- A call that fails hands nothing to the listener. -/
theorem serve_error
    {c : StoryCall}
    {e : PlayError}
    (hServe : c.serve o t = (.error e, t')) :
    ∃ r s', c = .request r ∧
      (r.action o).runFrom t.state = (.error e, s') ∧
        t' = { t with state := s' } := by
  cases c with
  | save savedAt => cases hServe
  | request r =>
      rw [serve] at hServe
      split at hServe
      · cases hServe
      · next e' s' hRun =>
          cases hServe
          exact ⟨r, s', rfl, hRun, rfl⟩

/- To look something up leaves the telling as it is. -/
theorem serve_lookUp
    {c : StoryCall}
    (hLookUp : c.isLookUp = true)
    (t : Telling) :
    (c.serve o t).2 = t := by
  cases c with
  | save savedAt => rfl
  | request r =>
      have hEnds :=
        StoryRequest.lookUp_ends (o := o) hLookUp t.state
      rw [serve]
      split
      · next reply s' hRun =>
          rcases hEnds.of_ok hRun with ⟨rfl, hLines⟩
          rw [hLines, List.append_nil]
      · next e s' hRun =>
          rw [hEnds.of_error hRun]

/- The state after a call is that after the request. -/
theorem serve_state
    (r : StoryRequest)
    (t : Telling) :
    ((StoryCall.request r).serve o t).2.state =
      ((r.action o).runFrom t.state).2 := by
  rw [serve]
  split <;> next hRun => rw [hRun]

/- After a call the story is in a state that it can come to. -/
theorem serve_reachable
    (hReachable : Reachable o t.state)
    (c : StoryCall) :
    Reachable o (c.serve o t).2.state := by
  cases hKind : c.isLookUp with
  | true =>
      rw [serve_lookUp hKind]
      exact hReachable
  | false =>
      cases c with
      | save savedAt => cases hKind
      | request r =>
          rw [serve_state]
          cases r with
          | resume steps =>
              rw [StoryRequest.action, state_bind_pure]
              exact hReachable.resume steps
          | choose index =>
              rw [StoryRequest.action, state_bind_pure]
              exact hReachable.choose index
          | moveTo knot stitch =>
              rw [StoryRequest.action, state_bind_pure]
              exact hReachable.moveTo knot stitch
          | setVariable name given =>
              rw [StoryRequest.action, state_bind_pure]
              exact hReachable.setVariable name given
          | _ => cases hKind

end StoryCall

/-
  Wherever a story that can be read comes to, calls that fail
  leave it untouched.  To look something up or to save changes
  nothing, whether or not it is found.  A call that fails hands
  the listener nothing; one for something other than more of
  the story leaves everything as it was, and so does one for
  more that comes at the wrong time, which is told so exactly
  when the story has ended or waits for a choice.
-/
theorem failed_calls_change_nothing
    {source : String}
    {story : Story}
    (hRead : Story.read source = .ok story)
    {t : Telling}
    (hReachable : Reachable story.outline t.state)
    (c : StoryCall) :
    (c.isLookUp = true →
      (c.serve story.outline t).2 = t) ∧
    ∀ e t', c.serve story.outline t = (.error e, t') →
      t'.kept = t.kept ∧
      (c.isResumption = false → t' = t) ∧
      (c.isResumption = true →
        (e = .finished ∨ e = .choicePending → t' = t) ∧
        (e = .finished ↔ t.state.status = .finished) ∧
        (e = .choicePending ↔
          t.state.status = .presenting)) := by
  have hSound := Story.isSound_of_read hRead
  have hFits := hReachable.fits hSound
  refine ⟨fun hLookUp => StoryCall.serve_lookUp hLookUp t, ?_⟩
  intro e t' hServe
  rcases StoryCall.serve_error hServe with ⟨r, s', rfl, hRun, rfl⟩
  have hSame
      (hRefused : (StoryCall.request r).isResumption = true →
        e.isUntimely = true) :
      { t with state := s' } = t := by
    rw [StoryRequest.action_refused hSound hFits hRun hRefused]
  refine ⟨rfl, ?_, ?_⟩
  · intro hOther
    apply hSame
    intro hResumption
    rw [hOther] at hResumption
    cases hResumption
  · intro hResumption
    refine ⟨?_, ?_⟩
    · intro hUntimely
      exact hSame fun _ =>
        PlayError.isUntimely_iff.mpr hUntimely
    · cases r with
      | resume steps =>
          have hEnds :=
            resume_action_ends story.outline steps t.state
          exact (hEnds.of_error hRun).2
      | _ => cases hResumption

/-
  A listener who has heard a line and is asked to choose: to
  choose what is not on offer, to ask for more, to set a number
  to a text and to ask for a knot that is not there all fail,
  and all is as it was.
-/
theorem failed_calls_change_nothing_pending :
    ∃ story t,
      Story.read "VAR n = 1\nOnce.\n* One\n* Two\n" =
          .ok story ∧
        Reachable story.outline t.state ∧
        t.state.status = .presenting ∧
        t.kept = [⟨"Once.\n", []⟩] ∧
        ∀ c ∈ [StoryCall.request (.choose 5),
            .request (.resume 9),
            .request (.setVariable "n" (.plain (.string ""))),
            .request (.visits "k" none)],
          ∃ e, c.serve story.outline t = (.error e, t) := by
  have hCheck :
      (match Story.read "VAR n = 1\nOnce.\n* One\n* Two\n" with
        | .error _ => false
        | .ok story =>
            let o := story.outline
            let call := StoryCall.request (.resume 9)
            let t := (call.serve o ⟨.start o 0, []⟩).2
            (t.state.status = .presenting &&
              t.kept = [⟨"Once.\n", []⟩]) &&
              [StoryCall.request (.choose 5),
                .request (.resume 9),
                .request (.setVariable "n"
                  (.plain (.string ""))),
                .request (.visits "k" none)].all fun c =>
                match (c.serve o t).1 with
                | .ok _ => false
                | .error e =>
                    !c.isResumption || e.isUntimely) = true := by
    decide +kernel
  cases hRead :
      Story.read "VAR n = 1\nOnce.\n* One\n* Two\n" with
  | error e =>
      rw [hRead] at hCheck
      cases hCheck
  | ok story =>
      rw [hRead] at hCheck
      have hReachable :
          Reachable story.outline
            ((StoryCall.request (.resume 9)).serve story.outline
              ⟨.start story.outline 0, []⟩).2.state :=
        StoryCall.serve_reachable (Reachable.start 0) _
      simp only [Bool.and_eq_true, decide_eq_true_eq,
        List.all_eq_true] at hCheck
      rcases hCheck with ⟨⟨hPresenting, hKept⟩, hFail⟩
      generalize ((StoryCall.request (.resume 9)).serve
        story.outline ⟨.start story.outline 0, []⟩).2 = t
        at hReachable hPresenting hKept hFail
      refine ⟨story, t, rfl, hReachable, hPresenting, hKept, ?_⟩
      intro c hMem
      have hFault := hFail c hMem
      cases hServe : c.serve story.outline t with
      | mk r t' =>
          rw [hServe] at hFault
          cases r with
          | ok answer => cases hFault
          | error e =>
              rcases (failed_calls_change_nothing hRead
                hReachable c).2 e t' hServe with
                ⟨_, hOther, hMore⟩
              cases hKind : c.isResumption with
              | false => exact ⟨e, by rw [hOther hKind]⟩
              | true =>
                  have hUntimely : e.isUntimely = true := by
                    simpa [hKind] using hFault
                  have hSame := (hMore hKind).1
                    (PlayError.isUntimely_iff.mp hUntimely)
                  exact ⟨e, by rw [hSame]⟩

end BranchingStory
