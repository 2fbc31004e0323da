import BranchingStory.Address
import BranchingStory.Console.Arguments
import BranchingStory.Console.Config
import BranchingStory.Console.Lighthouse
import BranchingStory.Console.Player
import BranchingStory.Console.Screen
import BranchingStory.Expr.Basic
import BranchingStory.Expr.Eval
import BranchingStory.Expr.Literal
import BranchingStory.Expr.Reading
import BranchingStory.Expr.Token
import BranchingStory.Files.Path
import BranchingStory.Files.Tree
import BranchingStory.Issue
import BranchingStory.Json.Basic
import BranchingStory.Json.Reader
import BranchingStory.Json.Writer
import BranchingStory.Main
import BranchingStory.Markup.Content
import BranchingStory.Markup.Fragments
import BranchingStory.Markup.Lines
import BranchingStory.Markup.Marks
import BranchingStory.Markup.Reading
import BranchingStory.Number.Double
import BranchingStory.Number.Numeral
import BranchingStory.Number.Shortest
import BranchingStory.Outline.Basic
import BranchingStory.Outline.Builder
import BranchingStory.Outline.Nodes
import BranchingStory.Play.Access
import BranchingStory.Play.Follow
import BranchingStory.Play.Glue
import BranchingStory.Play.Render
import BranchingStory.Play.State
import BranchingStory.Proofs.Accepted
import BranchingStory.Proofs.Actions
import BranchingStory.Proofs.Alternatives
import BranchingStory.Proofs.Arenas
import BranchingStory.Proofs.Arrivals
import BranchingStory.Proofs.Assembly
import BranchingStory.Proofs.Blame
import BranchingStory.Proofs.Building
import BranchingStory.Proofs.Changes
import BranchingStory.Proofs.Characters
import BranchingStory.Proofs.Checked
import BranchingStory.Proofs.ChoiceTexts
import BranchingStory.Proofs.Comments
import BranchingStory.Proofs.ContentPrinting
import BranchingStory.Proofs.ContentRoundTrip
import BranchingStory.Proofs.Decimals
import BranchingStory.Proofs.Derivations
import BranchingStory.Proofs.Division
import BranchingStory.Proofs.Drafts
import BranchingStory.Proofs.Echoes
import BranchingStory.Proofs.Entries
import BranchingStory.Proofs.Excerpts
import BranchingStory.Proofs.Fallbacks
import BranchingStory.Proofs.Faults
import BranchingStory.Proofs.FileTrees
import BranchingStory.Proofs.FloatRange
import BranchingStory.Proofs.FullChecks
import BranchingStory.Proofs.Gaps
import BranchingStory.Proofs.Generators
import BranchingStory.Proofs.GivingUp
import BranchingStory.Proofs.Grammar
import BranchingStory.Proofs.Halting
import BranchingStory.Proofs.Histories
import BranchingStory.Proofs.Insertions
import BranchingStory.Proofs.Joints
import BranchingStory.Proofs.JsonRoundTrip
import BranchingStory.Proofs.JsonTexts
import BranchingStory.Proofs.KindSafety
import BranchingStory.Proofs.Kinds
import BranchingStory.Proofs.Leaves
import BranchingStory.Proofs.Listening
import BranchingStory.Proofs.Literals
import BranchingStory.Proofs.LoadedStates
import BranchingStory.Proofs.LongNumbers
import BranchingStory.Proofs.Mirroring
import BranchingStory.Proofs.Moves
import BranchingStory.Proofs.Names
import BranchingStory.Proofs.NestedRendering
import BranchingStory.Proofs.NumberTexts
import BranchingStory.Proofs.Numbering
import BranchingStory.Proofs.Numerals
import BranchingStory.Proofs.NumericFaults
import BranchingStory.Proofs.Offering
import BranchingStory.Proofs.OnceOnly
import BranchingStory.Proofs.OpenFrames
import BranchingStory.Proofs.Outcomes
import BranchingStory.Proofs.PaddedStories
import BranchingStory.Proofs.Parsing
import BranchingStory.Proofs.Parts
import BranchingStory.Proofs.Paths
import BranchingStory.Proofs.Places
import BranchingStory.Proofs.Plain
import BranchingStory.Proofs.Printing
import BranchingStory.Proofs.QuotedInsertions
import BranchingStory.Proofs.QuotedValues
import BranchingStory.Proofs.Rebuilding
import BranchingStory.Proofs.Rechecking
import BranchingStory.Proofs.Refusals
import BranchingStory.Proofs.Relining
import BranchingStory.Proofs.Rendering
import BranchingStory.Proofs.Requests
import BranchingStory.Proofs.Rereading
import BranchingStory.Proofs.Resolution
import BranchingStory.Proofs.Restored
import BranchingStory.Proofs.RoundTrip
import BranchingStory.Proofs.Runs
import BranchingStory.Proofs.Saves
import BranchingStory.Proofs.Scanning
import BranchingStory.Proofs.ScriptLines
import BranchingStory.Proofs.Sections
import BranchingStory.Proofs.Seeds
import BranchingStory.Proofs.Sessions
import BranchingStory.Proofs.Shifting
import BranchingStory.Proofs.Showings
import BranchingStory.Proofs.SlotLoading
import BranchingStory.Proofs.SlotMaps
import BranchingStory.Proofs.Spelling
import BranchingStory.Proofs.Spines
import BranchingStory.Proofs.SpokenChoices
import BranchingStory.Proofs.States
import BranchingStory.Proofs.Steps
import BranchingStory.Proofs.Stopping
import BranchingStory.Proofs.StoreLaws
import BranchingStory.Proofs.StoredSaves
import BranchingStory.Proofs.Tables
import BranchingStory.Proofs.Tours
import BranchingStory.Proofs.Traces
import BranchingStory.Proofs.Turns
import BranchingStory.Proofs.Unsupported
import BranchingStory.Proofs.VariableStore
import BranchingStory.Proofs.Verbatim
import BranchingStory.Proofs.VisitCounts
import BranchingStory.Proofs.WaitingTags
import BranchingStory.Proofs.Worklists
import BranchingStory.Random.Generator
import BranchingStory.Random.Snapshot
import BranchingStory.Save.Payload
import BranchingStory.Save.Restore
import BranchingStory.Save.Slots
import BranchingStory.Script.File
import BranchingStory.Script.Line
import BranchingStory.Story.Check
import BranchingStory.Story.Read
import BranchingStory.Story.Resolve
import BranchingStory.Table
import BranchingStory.Text.Alphanumeric
import BranchingStory.Text.CaseClass
import BranchingStory.Text.CharClass
import BranchingStory.Text.Cut
import BranchingStory.Text.LetterCase
import BranchingStory.Text.Paragraph
import BranchingStory.Text.Printable
import BranchingStory.Text.Quoted
import BranchingStory.Text.Utf8
import BranchingStory.Value
