import GestureStore.Main
import GestureStore.Wire.Item
import GestureStore.Proofs.Bytes
import GestureStore.Proofs.Text.Utf8
import GestureStore.Proofs.Wire.Form
import GestureStore.Proofs.Wire.Field
import GestureStore.Proofs.Wire.Gesture
import GestureStore.Proofs.Library.Entries
import GestureStore.Proofs.Learner
import GestureStore.Proofs.Library.InStep
import GestureStore.Proofs.Wire.Store
import GestureStore.Proofs.Library.Operations
import GestureStore.Proofs.Library.Runs
import GestureStore.Proofs.Storage.Disk
import GestureStore.Proofs.Storage.Location
import GestureStore.Proofs.Storage.Directories
import GestureStore.Proofs.Storage.Replace
import GestureStore.Proofs.Library.Durable
import GestureStore.Proofs.Library.Atomic
import GestureStore.Proofs.Library.Admission
import GestureStore.Proofs.Json.Writer
import GestureStore.Proofs.Command.Console
import GestureStore.Proofs.Command.Looking
import GestureStore.Proofs.Command.Ending
import GestureStore.Proofs.Number.Order
import GestureStore.Proofs.Number.Inverse
import GestureStore.Proofs.Ranking
import GestureStore.Proofs.Feature.Instance
import GestureStore.Proofs.Library.Recognition
import GestureStore.Proofs.Library.Policies
import GestureStore.Proofs.Library.Rebuilding
import GestureStore.Proofs.Library.Identifiers
import GestureStore.Proofs.Wire.Layout
import GestureStore.Proofs.Library.Merging
import GestureStore.Proofs.Library.Loading
import GestureStore.Proofs.Library.Writable
import GestureStore.Proofs.Library.Canonical
import GestureStore.Proofs.Command.Adding
import GestureStore.Proofs.Library.Truncated
import GestureStore.Proofs.Wire.Session
import GestureStore.Proofs.Storage.Keeping
import GestureStore.Proofs.Command.Keeping
import GestureStore.Proofs.Feature.Angle
import GestureStore.Proofs.Library.Duplicate
import GestureStore.Proofs.Classification
import GestureStore.Proofs.Wire.Exactness
import GestureStore.Proofs.Wire.Shortfall
import GestureStore.Proofs.Text.Malformed
import GestureStore.Proofs.Wire.Text
import GestureStore.Proofs.Feature.Drawing
import GestureStore.Proofs.Feature.Coverage
import GestureStore.Proofs.Feature.Resampling
import GestureStore.Proofs.Json.Reader
import GestureStore.Proofs.Library.TooDeep
import GestureStore.Proofs.Command.Overflow
import GestureStore.Proofs.Command.Reading
import GestureStore.Proofs.Number.Narrowing
import GestureStore.Proofs.Geometry.Trace
import GestureStore.Proofs.Feature.Shape
import GestureStore.Proofs.Feature.Rotation
import GestureStore.Proofs.Feature.Placement
import GestureStore.Proofs.Wire.Chunk
import GestureStore.Proofs.Timing.Session
import GestureStore.Proofs.Timing.Totals
import GestureStore.Proofs.Library.Stages
import GestureStore.Proofs.Yaml.Line
import GestureStore.Proofs.Yaml.Pieces
import GestureStore.Proofs.Yaml.Quoted
import GestureStore.Proofs.Yaml.Unquoted
import GestureStore.Proofs.Yaml.Document
import GestureStore.Proofs.Settings
