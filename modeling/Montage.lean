import Montage.Digest.Md5
import Montage.Document.Field
import Montage.Document.Numeral
import Montage.Document.Problem
import Montage.Document.Rejection
import Montage.Encoder.Command
import Montage.Encoder.Engine
import Montage.Frame.CanvasSize
import Montage.Frame.Crop
import Montage.Frame.Placement
import Montage.Gallery.FileTree
import Montage.Gallery.Path
import Montage.Gallery.Resolve
import Montage.Gallery.Storage
import Montage.Gallery.Thumbnail
import Montage.Graph.Chain
import Montage.Graph.Compile
import Montage.Graph.Label
import Montage.Graph.Layers
import Montage.Graph.Op
import Montage.Graph.Sound
import Montage.Graph.Text
import Montage.Json.Reader
import Montage.Json.Value
import Montage.Json.Writer
import Montage.Media.Info
import Montage.Media.Probe
import Montage.Media.Report
import Montage.Media.Survey
import Montage.Media.Type
import Montage.Number.Binary64
import Montage.Number.Decimal
import Montage.Number.Notation
import Montage.Number.Numeral
import Montage.Number.Scalar
import Montage.Proofs.Attempt
import Montage.Proofs.Frame.Canvas
import Montage.Proofs.Frame.Inside
import Montage.Proofs.Frame.Nearness
import Montage.Proofs.Frame.Span
import Montage.Proofs.Gallery.Changes
import Montage.Proofs.Gallery.Clear
import Montage.Proofs.Gallery.Errand
import Montage.Proofs.Gallery.Footprint
import Montage.Proofs.Gallery.Likeness
import Montage.Proofs.Gallery.Links
import Montage.Proofs.Gallery.Moving
import Montage.Proofs.Gallery.Names
import Montage.Proofs.Gallery.Operations
import Montage.Proofs.Gallery.Proper
import Montage.Proofs.Gallery.Trail
import Montage.Proofs.Gallery.Unlinked
import Montage.Proofs.Gallery.Walk
import Montage.Proofs.Graph.Assembly
import Montage.Proofs.Graph.Compiling
import Montage.Proofs.Graph.Domain
import Montage.Proofs.Graph.Duration
import Montage.Proofs.Graph.Growth
import Montage.Proofs.Graph.Inputs
import Montage.Proofs.Graph.Labels
import Montage.Proofs.Graph.Marks
import Montage.Proofs.Graph.Meaning
import Montage.Proofs.Graph.Moderate
import Montage.Proofs.Graph.Numbering
import Montage.Proofs.Graph.OffCanvas
import Montage.Proofs.Graph.Outline
import Montage.Proofs.Graph.Parts
import Montage.Proofs.Graph.Picture
import Montage.Proofs.Graph.Pruning
import Montage.Proofs.Graph.Soundtrack
import Montage.Proofs.Graph.Wiring
import Montage.Proofs.Media.Digits
import Montage.Proofs.Media.Finish
import Montage.Proofs.Media.Probing
import Montage.Proofs.Media.Streams
import Montage.Proofs.Media.Survey
import Montage.Proofs.Media.Tolerance
import Montage.Proofs.Number.Bounds
import Montage.Proofs.Number.Exact
import Montage.Proofs.Number.Finite
import Montage.Proofs.Number.Order
import Montage.Proofs.Number.Sign
import Montage.Proofs.Render.Account
import Montage.Proofs.Render.Alone
import Montage.Proofs.Render.Answers
import Montage.Proofs.Render.Apart
import Montage.Proofs.Render.Calls
import Montage.Proofs.Render.Collaborators
import Montage.Proofs.Render.Confinement
import Montage.Proofs.Render.Course
import Montage.Proofs.Render.Delivery
import Montage.Proofs.Render.Destination
import Montage.Proofs.Render.Errand
import Montage.Proofs.Render.Failures
import Montage.Proofs.Render.Frame
import Montage.Proofs.Render.Handed
import Montage.Proofs.Render.Isolation
import Montage.Proofs.Render.LockTable
import Montage.Proofs.Render.Lone
import Montage.Proofs.Render.Outcome
import Montage.Proofs.Render.Renaming
import Montage.Proofs.Render.Schedule
import Montage.Proofs.Render.SourceTable
import Montage.Proofs.Render.Status
import Montage.Proofs.Render.Stops
import Montage.Proofs.Render.Telling
import Montage.Proofs.Render.TempNames
import Montage.Proofs.Render.Thumbnails
import Montage.Proofs.Render.Turns
import Montage.Proofs.Render.Warnings
import Montage.Proofs.Timeline.Clamps
import Montage.Proofs.Timeline.Reading
import Montage.Proofs.Timeline.Rereading
import Montage.Proofs.Timeline.Sources
import Montage.Render.Batch
import Montage.Render.Error
import Montage.Render.Failure
import Montage.Render.Lock
import Montage.Render.Progress
import Montage.Render.Request
import Montage.Render.State
import Montage.Render.Task
import Montage.Service
import Montage.Settings
import Montage.Text.Blank
import Montage.Text.DecimalDigit
import Montage.Text.Encoding
import Montage.Text.Letter
import Montage.Text.Printable
import Montage.Text.Quoted
import Montage.Text.Utf8
import Montage.Timeline.Basic
import Montage.Timeline.Document
