import BranchingStory.Play.Access
import BranchingStory.Play.Follow

/-
  This file says what can be asked of a story from outside,
  what it replies, and what a conversation with it is: each
  request is met in the state that the one before it led to,
  even if that was met by a fault.

  Key definitions include:
    * `StoryRequest`
    * `Reply`
    * `StoryRequest.action`
    * `converse`
-/

------------------------------------------------------------
-- Requests And Replies
------------------------------------------------------------

namespace BranchingStory

/- What can be asked of a story, or looked up in it. -/
inductive StoryRequest where
  | resume (steps : Nat)
  | choose (index : Int)
  | moveTo (knot : String) (stitch : Option String)
  | setVariable (name : String) (given : Given)
  | status
  | prompt
  | place
  | visits (knot : String) (stitch : Option String)
  | storyTags
  | knotTags (knot : String)
  | variableValue (name : String)
  | variableText (name : String)
deriving DecidableEq, Repr

/- What a story replies. -/
inductive Reply where
  | done
  | told (lines : List OutputLine) (prompt : Prompt)
  | status (status : Status)
  | prompt (prompt : Option Prompt)
  | place (knot : String) (stitch : Option String)
  | count (n : Int)
  | tags (tags : List String)
  | value (v : Value)
  | text (s : String)
deriving DecidableEq, Repr

end BranchingStory

------------------------------------------------------------
-- Conversations
------------------------------------------------------------

namespace BranchingStory

/- What is looked up, unless there is a fault. -/
def replyOf
    {α : Type}
    (reply : α → Reply) : Except PlayError α → Play Reply
  | .ok a => return reply a
  | .error e => throw e

/- What a story does with a request, and its reply. -/
def StoryRequest.action
    (o : Outline) : StoryRequest → Play Reply
  | .resume steps => do
      let (told, next) ← BranchingStory.resume o steps
      return .told told next
  | .choose index => do
      BranchingStory.choose index
      return .done
  | .moveTo knot stitch => do
      BranchingStory.moveTo o knot stitch
      return .done
  | .setVariable name given => do
      BranchingStory.setVariable o name given
      return .done
  | .status => do
      return .status (← get).status
  | .prompt => do
      return .prompt (← get).prompt?
  | .place => do
      let (knot, stitch) := (← get).place
      return .place knot stitch
  | .visits knot stitch => do
      replyOf .count (visitsOf o (← get) knot stitch)
  | .storyTags => return .tags o.tags
  | .knotTags knot =>
      replyOf .tags (BranchingStory.knotTags o knot)
  | .variableValue name => do
      replyOf .value (getVariable (← get) name)
  | .variableText name => do
      match getVariable (← get) name with
      | .ok v => return .text (← textOf v)
      | .error e => throw e

/-
  The replies and faults that requests are met with one after
  the other, each with the state after it.
-/
def converse
    (o : Outline) :
    State → List StoryRequest →
      List (Except PlayError Reply × State)
  | _, [] => []
  | s, r :: rs =>
      let met := (r.action o).runFrom s
      met :: converse o met.2 rs

end BranchingStory
