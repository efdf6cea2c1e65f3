import Caseless.CallTree
import Caseless.Data
import Caseless.Data.Encode
import Caseless.Data.Read
import Caseless.Decimal
import Caseless.Elements
import Caseless.Error
import Caseless.Fields
import Caseless.Inspect
import Caseless.Json.Reader
import Caseless.Json.Writer
import Caseless.Name.Fold
import Caseless.Name.Index
import Caseless.Name.Scan
import Caseless.Number.Layout
import Caseless.Number.Shortest
import Caseless.Path
import Caseless.Probe
import Caseless.Proofs.Container.Multimap
import Caseless.Proofs.Container.Positions
import Caseless.Proofs.Data.Calls
import Caseless.Proofs.Data.Copying
import Caseless.Proofs.Data.MapCalls
import Caseless.Proofs.Data.Offences
import Caseless.Proofs.Data.Taking
import Caseless.Proofs.Data.Writing
import Caseless.Proofs.Json.Normal
import Caseless.Proofs.Json.RoundTrip
import Caseless.Proofs.Json.Tokens
import Caseless.Proofs.Memory.Edits
import Caseless.Proofs.Memory.Program
import Caseless.Proofs.Memory.SharedIndex
import Caseless.Proofs.Memory.Stamps
import Caseless.Proofs.Name.Bytes
import Caseless.Proofs.Name.Folding
import Caseless.Proofs.Name.Lookup
import Caseless.Proofs.Name.Partition
import Caseless.Proofs.Name.Rebuilding
import Caseless.Proofs.Shape.Agreement
import Caseless.Proofs.Shape.Arity
import Caseless.Proofs.Shape.Binding
import Caseless.Proofs.Shape.ByName
import Caseless.Proofs.Shape.CaseBlind
import Caseless.Proofs.Shape.FieldAccess
import Caseless.Proofs.Shape.Outcome
import Caseless.Proofs.Shape.Parts
import Caseless.Proofs.Shape.Presentation
import Caseless.Proofs.Shape.RoundTrip
import Caseless.Proofs.Shape.Showing
import Caseless.Proofs.Shape.Simulation
import Caseless.Proofs.Shape.Sorting
import Caseless.Proofs.Shape.Typed
import Caseless.Proofs.Shape.Variants
import Caseless.Proofs.View.CaseBlindWalk
import Caseless.Proofs.View.EditingByName
import Caseless.Proofs.View.Equality
import Caseless.Proofs.View.Lookup
import Caseless.Proofs.View.Overwriting
import Caseless.Proofs.View.Places
import Caseless.Proofs.View.Presents
import Caseless.Proofs.View.Rebuilds
import Caseless.Proofs.View.Recasing
import Caseless.Proofs.View.Resolving
import Caseless.Proofs.View.Run
import Caseless.Proofs.View.SingleBuild
import Caseless.Proofs.View.Standing
import Caseless.Proofs.View.Walk
import Caseless.Readable
import Caseless.Record
import Caseless.Scalar
import Caseless.Session.Answer
import Caseless.Session.Document
import Caseless.Session.Elements
import Caseless.Session.Gallery
import Caseless.Session.List
import Caseless.Session.Pick
import Caseless.Session.Record
import Caseless.Session.Struct
import Caseless.Shape
import Caseless.Shape.Catalogue
import Caseless.Shape.Decode
import Caseless.Tag
import Caseless.Text.Extending
import Caseless.Text.Quoted
import Caseless.Text.Ranges
import Caseless.Text.Unassigned
import Caseless.Text.Unprintable
import Caseless.Value
import Caseless.Value.OfData
import Caseless.Value.Position
import Caseless.Value.Stamped
import Caseless.View
import Caseless.View.Edit
import Caseless.View.Place
