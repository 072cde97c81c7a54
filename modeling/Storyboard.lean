import Storyboard.Channel.Message
import Storyboard.Channel.Reconnect
import Storyboard.Channel.Topic
import Storyboard.Color
import Storyboard.Command.Basic
import Storyboard.Command.Problem
import Storyboard.Command.Tag
import Storyboard.CommandLine.Arguments
import Storyboard.CommandLine.Folder
import Storyboard.CommandLine.Grammar
import Storyboard.CommandLine.Help
import Storyboard.CommandLine.Interaction
import Storyboard.CommandLine.Program
import Storyboard.Data.Table
import Storyboard.Decode.Basic
import Storyboard.Decode.Problem
import Storyboard.Decode.Record
import Storyboard.Decode.Tagged
import Storyboard.Drawing.Build
import Storyboard.Drawing.Canvas
import Storyboard.Drawing.Document
import Storyboard.Drawing.Figure
import Storyboard.Drawing.Markup
import Storyboard.Drawing.Presenter
import Storyboard.Drawing.Raster
import Storyboard.Ensemble
import Storyboard.EntityId
import Storyboard.Failure
import Storyboard.Geometry
import Storyboard.Json.Basic
import Storyboard.Json.Reader
import Storyboard.Json.Writer
import Storyboard.Line
import Storyboard.Main
import Storyboard.Motion.Ease
import Storyboard.Motion.Transition
import Storyboard.Narration.Endpoint
import Storyboard.Narration.Narrator
import Storyboard.Narration.Sanitizer
import Storyboard.Narration.Script
import Storyboard.Narration.Utterance
import Storyboard.Number.Binary
import Storyboard.Number.Layout
import Storyboard.Number.Reading
import Storyboard.Number.Rounding
import Storyboard.Number.Shortest
import Storyboard.Playback.Advance
import Storyboard.Playback.Call
import Storyboard.Playback.Player
import Storyboard.Playback.Rebuild
import Storyboard.Playback.Step
import Storyboard.Scene.Basic
import Storyboard.Scene.Entity
import Storyboard.Scene.Operation
import Storyboard.Session.Basic
import Storyboard.Session.Payload
import Storyboard.Session.Rehearsal
import Storyboard.Session.Screening
import Storyboard.Settings
import Storyboard.Speed
import Storyboard.Stage.Basic
import Storyboard.Stage.Cue
import Storyboard.Stage.Opening
import Storyboard.Stage.Performance
import Storyboard.Stage.Rounds
import Storyboard.Stage.Script
import Storyboard.Stage.Wait
import Storyboard.Text.Blank
import Storyboard.Text.Printable
import Storyboard.Text.Quoted
import Storyboard.Text.Word
import Storyboard.Time.Span
import Storyboard.Toml.Reader
import Storyboard.Toml.Scalar
import Storyboard.Toml.Table
import Storyboard.Url.Basic
import Storyboard.Url.Name
import Storyboard.Url.Numeric
import Storyboard.Url.Percent
import Storyboard.Url.Punycode
import Storyboard.Url.Reader
import Storyboard.Proofs.Data.Lookup
import Storyboard.Proofs.Scene.Lookup
import Storyboard.Proofs.Drawing.Sight
import Storyboard.Proofs.Drawing.Showing
import Storyboard.Proofs.Drawing.Record
import Storyboard.Proofs.Ensemble.Event
import Storyboard.Proofs.Stage.Picture
import Storyboard.Proofs.Stage.Coherence
import Storyboard.Proofs.Stage.Change
import Storyboard.Proofs.Stage.Draft
import Storyboard.Proofs.Stage.Strand
import Storyboard.Proofs.Stage.Opening
import Storyboard.Proofs.Stage.Performance
import Storyboard.Proofs.Ensemble.Solo
import Storyboard.Proofs.Stage.Rest
import Storyboard.Proofs.Stage.Segment
import Storyboard.Proofs.Stage.Execution
import Storyboard.Proofs.Playback.Advance
import Storyboard.Proofs.Playback.Order
import Storyboard.Proofs.Playback.Replay
import Storyboard.Proofs.Playback.Status
import Storyboard.Proofs.Narration.Speech
import Storyboard.Proofs.Playback.Tail
import Storyboard.Proofs.Stage.Readiness
import Storyboard.Proofs.Playback.Move
import Storyboard.Proofs.Playback.Turn
import Storyboard.Proofs.Playback.Account
import Storyboard.Proofs.Playback.Keeping
import Storyboard.Proofs.Playback.Reel
import Storyboard.Proofs.Ensemble.Progress
import Storyboard.Proofs.Playback.Progress
import Storyboard.Proofs.Playback.Return
import Storyboard.Proofs.Ensemble.Timing
import Storyboard.Proofs.Playback.Epoch
import Storyboard.Proofs.Playback.Halt
import Storyboard.Proofs.Playback.Course
import Storyboard.Proofs.Shift.Basic
import Storyboard.Proofs.Shift.Drawing
import Storyboard.Proofs.Shift.Stage
import Storyboard.Proofs.Shift.Narration
import Storyboard.Proofs.Ensemble.Carry
import Storyboard.Proofs.Shift.Playback
import Storyboard.Proofs.Playback.History
import Storyboard.Proofs.Stage.Acts
import Storyboard.Proofs.Stage.Neat
import Storyboard.Proofs.Stage.Likeness
import Storyboard.Proofs.Stage.Telling
import Storyboard.Proofs.Drawing.Ranks
import Storyboard.Proofs.Stage.Painting
import Storyboard.Proofs.Playback.Traced
import Storyboard.Proofs.Ensemble.InTurn
import Storyboard.Proofs.Playback.Redrawing
import Storyboard.Proofs.Ensemble.Tasks
import Storyboard.Proofs.Narration.Booth
import Storyboard.Proofs.Narration.Ledger
import Storyboard.Proofs.Narration.Equipment
import Storyboard.Proofs.Narration.Turns
import Storyboard.Proofs.Narration.Handover
import Storyboard.Proofs.Playback.Handover
import Storyboard.Proofs.Playback.Backward
import Storyboard.Proofs.Playback.Controls
import Storyboard.Proofs.Stage.Skipping
import Storyboard.Proofs.Stage.Footprint
import Storyboard.Proofs.Stage.Duration
import Storyboard.Proofs.Stage.Path
import Storyboard.Proofs.Drawing.Items
import Storyboard.Proofs.Stage.Bearing
import Storyboard.Proofs.Stage.Motion
import Storyboard.Proofs.Drawing.Document
import Storyboard.Proofs.Playback.Silence
import Storyboard.Proofs.Scene.Register
import Storyboard.Proofs.Text.Blank
import Storyboard.Proofs.Command.Forms
import Storyboard.Proofs.Scene.Exchange
import Storyboard.Proofs.Stage.Cells
import Storyboard.Proofs.Playback.Spoken
import Storyboard.Proofs.Session.Calls
import Storyboard.Proofs.Session.Loading
import Storyboard.Proofs.Decode.Members
import Storyboard.Proofs.Playback.Reports
import Storyboard.Proofs.Playback.Alone
import Storyboard.Proofs.Playback.Recount
import Storyboard.Proofs.Session.Screening
import Storyboard.Proofs.Session.InitialScene
import Storyboard.Proofs.Json.Canonical
import Storyboard.Proofs.Channel.Message
import Storyboard.Proofs.Text.Collapse
import Storyboard.Proofs.Narration.Rules
import Storyboard.Proofs.Narration.Spelling
import Storyboard.Proofs.Narration.Quotes
import Storyboard.Proofs.Narration.Cleaning
import Storyboard.Proofs.Narration.Recleaning
import Storyboard.Proofs.Drawing.Xml
import Storyboard.Proofs.Drawing.WellFormed
import Storyboard.Proofs.Stage.Lettering
import Storyboard.Proofs.Data.Result
import Storyboard.Proofs.Decode.Making
import Storyboard.Proofs.Text.Case
import Storyboard.Proofs.Number.Hexadecimal
import Storyboard.Proofs.Json.Strings
import Storyboard.Proofs.Color.Hexadecimal
import Storyboard.Proofs.Color.Writing
import Storyboard.Proofs.Channel.Reconnect
import Storyboard.Proofs.Drawing.Cells
import Storyboard.Proofs.Stage.Rows
