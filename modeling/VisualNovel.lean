import VisualNovel.Calendar
import VisualNovel.Catalogue
import VisualNovel.Command
import VisualNovel.Condition.Eval
import VisualNovel.Condition.Substitution
import VisualNovel.Digest.Base64
import VisualNovel.Digest.Sha256
import VisualNovel.Event.Bus
import VisualNovel.Event.Kinds
import VisualNovel.Event.Scenario
import VisualNovel.Failure
import VisualNovel.Files.Action
import VisualNovel.Files.Media
import VisualNovel.Files.Model
import VisualNovel.Files.Path
import VisualNovel.Files.Tree
import VisualNovel.Host.Basic
import VisualNovel.Host.Perform
import VisualNovel.Illustration
import VisualNovel.Json.Basic
import VisualNovel.Json.Printer
import VisualNovel.Json.Reader
import VisualNovel.Json.Same
import VisualNovel.Number.Decimal
import VisualNovel.Number.Digit
import VisualNovel.Number.Exact
import VisualNovel.Number.Integer
import VisualNovel.Number.Quantity
import VisualNovel.Number.Shortest
import VisualNovel.Proofs.Condition.Comparing
import VisualNovel.Proofs.Condition.Formula
import VisualNovel.Proofs.Condition.Groups
import VisualNovel.Proofs.Condition.Quoted
import VisualNovel.Proofs.Event.Conduct
import VisualNovel.Proofs.Event.Delivery
import VisualNovel.Proofs.Event.Scripted
import VisualNovel.Proofs.Files.Model
import VisualNovel.Proofs.Files.Tree
import VisualNovel.Proofs.Files.Writable
import VisualNovel.Proofs.Json.Bounded
import VisualNovel.Proofs.Json.Plain
import VisualNovel.Proofs.Json.Reading
import VisualNovel.Proofs.Json.Token
import VisualNovel.Proofs.Layout.Basic
import VisualNovel.Proofs.Layout.Compile
import VisualNovel.Proofs.Layout.Nesting
import VisualNovel.Proofs.Life.Accepting
import VisualNovel.Proofs.Life.Answering
import VisualNovel.Proofs.Life.Attending
import VisualNovel.Proofs.Life.Autosaving
import VisualNovel.Proofs.Life.Basic
import VisualNovel.Proofs.Life.Bracketing
import VisualNovel.Proofs.Life.Conditions
import VisualNovel.Proofs.Life.Decisions
import VisualNovel.Proofs.Life.Demands
import VisualNovel.Proofs.Life.Effects
import VisualNovel.Proofs.Life.Ending
import VisualNovel.Proofs.Life.Entering
import VisualNovel.Proofs.Life.Failing
import VisualNovel.Proofs.Life.Forgetting
import VisualNovel.Proofs.Life.Input
import VisualNovel.Proofs.Life.Invariant
import VisualNovel.Proofs.Life.Keeping
import VisualNovel.Proofs.Life.Loading
import VisualNovel.Proofs.Life.Lockstep
import VisualNovel.Proofs.Life.Moves
import VisualNovel.Proofs.Life.Noting
import VisualNovel.Proofs.Life.Observer
import VisualNovel.Proofs.Life.Pausing
import VisualNovel.Proofs.Life.Perform
import VisualNovel.Proofs.Life.Play
import VisualNovel.Proofs.Life.Presenting
import VisualNovel.Proofs.Life.Reached
import VisualNovel.Proofs.Life.Reading
import VisualNovel.Proofs.Life.Rebuilding
import VisualNovel.Proofs.Life.Refusing
import VisualNovel.Proofs.Life.Replaying
import VisualNovel.Proofs.Life.Representation
import VisualNovel.Proofs.Life.Restore
import VisualNovel.Proofs.Life.Restoring
import VisualNovel.Proofs.Life.Resuming
import VisualNovel.Proofs.Life.Returning
import VisualNovel.Proofs.Life.Secure
import VisualNovel.Proofs.Life.Shifting
import VisualNovel.Proofs.Life.Skipping
import VisualNovel.Proofs.Life.Stack
import VisualNovel.Proofs.Life.Stance
import VisualNovel.Proofs.Life.Step
import VisualNovel.Proofs.Life.Telling
import VisualNovel.Proofs.Life.Twins
import VisualNovel.Proofs.Life.Typing
import VisualNovel.Proofs.Life.Unspoken
import VisualNovel.Proofs.Motion.Answering
import VisualNovel.Proofs.Motion.Leaving
import VisualNovel.Proofs.Motion.Passing
import VisualNovel.Proofs.Motion.Resuming
import VisualNovel.Proofs.Motion.Rounds
import VisualNovel.Proofs.Motion.Validity
import VisualNovel.Proofs.Number.Decimal
import VisualNovel.Proofs.Number.Integer
import VisualNovel.Proofs.Save.Folder
import VisualNovel.Proofs.Save.InTurn
import VisualNovel.Proofs.Save.Remembering
import VisualNovel.Proofs.Save.Rotating
import VisualNovel.Proofs.Save.Slot
import VisualNovel.Proofs.Save.Validating
import VisualNovel.Proofs.Script.Declaring
import VisualNovel.Proofs.Script.Extracting
import VisualNovel.Proofs.Script.Line
import VisualNovel.Proofs.Script.Markup
import VisualNovel.Proofs.Script.Order
import VisualNovel.Proofs.Script.Passage
import VisualNovel.Proofs.Script.Placing
import VisualNovel.Proofs.Script.Shape
import VisualNovel.Proofs.Script.Surroundings
import VisualNovel.Proofs.Sound.Replaying
import VisualNovel.Proofs.Text.Basic
import VisualNovel.Proofs.Text.Split
import VisualNovel.Proofs.Tour.Asking
import VisualNovel.Proofs.Tour.Basic
import VisualNovel.Proofs.Tour.Chain
import VisualNovel.Proofs.Tour.Choices
import VisualNovel.Proofs.Tour.Conditions
import VisualNovel.Proofs.Tour.Reading
import VisualNovel.Proofs.Traversal.Lossless
import VisualNovel.Proofs.Traversal.Stored
import VisualNovel.Proofs.Typewriter.Progress
import VisualNovel.Proofs.Typewriter.Rendering
import VisualNovel.Proofs.Typewriter.Scanning
import VisualNovel.Proofs.Typewriter.Timing
import VisualNovel.Proofs.Variable.Distinct
import VisualNovel.Proofs.Variable.Literal
import VisualNovel.Proofs.Variable.Setting
import VisualNovel.Remark
import VisualNovel.Save.Folder
import VisualNovel.Save.Slot
import VisualNovel.Schema.Assign
import VisualNovel.Schema.Basic
import VisualNovel.Schema.Scalar
import VisualNovel.Script.Compile
import VisualNovel.Script.Draft
import VisualNovel.Script.Folder
import VisualNovel.Script.Line
import VisualNovel.Script.Node
import VisualNovel.Script.Spoken
import VisualNovel.Script.Trial
import VisualNovel.Session.Basic
import VisualNovel.Session.Dispatch
import VisualNovel.Session.Input
import VisualNovel.Session.Presentation
import VisualNovel.Session.Restore
import VisualNovel.Session.Run
import VisualNovel.Session.Wording
import VisualNovel.Settings
import VisualNovel.Sound.Basic
import VisualNovel.Sound.Device
import VisualNovel.Sound.Music
import VisualNovel.Sound.System
import VisualNovel.Text.Blank
import VisualNovel.Text.Line
import VisualNovel.Text.Order
import VisualNovel.Text.Printable
import VisualNovel.Text.Quoted
import VisualNovel.Text.Range
import VisualNovel.Text.Split
import VisualNovel.Text.Tag
import VisualNovel.Text.Word
import VisualNovel.Transcript
import VisualNovel.Traversal.Basic
import VisualNovel.Traversal.Edit
import VisualNovel.Traversal.Motion
import VisualNovel.Traversal.Stored
import VisualNovel.Traversal.Validity
import VisualNovel.Typewriter
import VisualNovel.Variable.Store
import VisualNovel.Variable.Value
