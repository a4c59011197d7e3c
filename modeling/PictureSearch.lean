import PictureSearch.Main
import PictureSearch.Query.Rendering
import PictureSearch.Proofs.Search.Pattern
import PictureSearch.Proofs.Search.Selection
import PictureSearch.Proofs.Outcome
import PictureSearch.Proofs.Search.Compiling
import PictureSearch.Proofs.Search.Meaning
import PictureSearch.Proofs.Catalog.Built
import PictureSearch.Proofs.Search.SamePicture
import PictureSearch.Proofs.Search.Noninterference
import PictureSearch.Proofs.Query.Grammar
import PictureSearch.Proofs.Query.Parsing
import PictureSearch.Proofs.Query.Lexing
import PictureSearch.Proofs.Query.Spelling
import PictureSearch.Proofs.Query.RoundTrip
import PictureSearch.Proofs.Catalog.Listing
import PictureSearch.Proofs.Catalog.TagNames
import PictureSearch.Proofs.Catalog.Links
import PictureSearch.Proofs.Catalog.Consistency
import PictureSearch.Proofs.Payload.Coder
import PictureSearch.Proofs.Payload.Catalog
import PictureSearch.Proofs.Payload.Reloading
import PictureSearch.Proofs.Payload.Reading
import PictureSearch.Proofs.Json.Spelling
import PictureSearch.Proofs.Payload.Truncation
import PictureSearch.Proofs.Query.Producible
import PictureSearch.Proofs.Saved.History
import PictureSearch.Proofs.Json.Reading
import PictureSearch.Proofs.Saved.File
import PictureSearch.Proofs.Session.Files
import PictureSearch.Proofs.Session.Tasks
import PictureSearch.Proofs.Session.SavedFile
import PictureSearch.Proofs.Payload.NormalForm
import PictureSearch.Proofs.Query.Canonical
import PictureSearch.Proofs.Search.Cuts
import PictureSearch.Proofs.Catalog.Resolving
import PictureSearch.Proofs.Snapshot.Traversal
import PictureSearch.Proofs.Snapshot.Contents
import PictureSearch.Proofs.Snapshot.Tags
import PictureSearch.Proofs.Snapshot.Growth
import PictureSearch.Proofs.Snapshot.Folders
import PictureSearch.Proofs.Snapshot.Pictures
import PictureSearch.Proofs.Snapshot.Loading
import PictureSearch.Proofs.Search.Faults
import PictureSearch.Proofs.Search.Gaps
import PictureSearch.Proofs.Search.Order
import PictureSearch.Proofs.Catalog.Circles
import PictureSearch.Proofs.Catalog.TagPaths
import PictureSearch.Proofs.Catalog.Steps
import PictureSearch.Proofs.Catalog.Atomic
import PictureSearch.Proofs.Catalog.Extension
import PictureSearch.Proofs.Search.Growing
import PictureSearch.Proofs.Snapshot.Visiting
import PictureSearch.Proofs.Snapshot.VisitOrder
import PictureSearch.Proofs.Search.Typing
import PictureSearch.Proofs.Search.Comparing
import PictureSearch.Proofs.Search.Blocks
import PictureSearch.Proofs.Search.Sizes
import PictureSearch.Proofs.Catalog.Indexed
import PictureSearch.Proofs.Search.Membership
import PictureSearch.Proofs.Query.Lockstep
import PictureSearch.Proofs.Query.Blanks
import PictureSearch.Proofs.Query.Steps
import PictureSearch.Proofs.Query.Pending
import PictureSearch.Proofs.Query.Positions
import PictureSearch.Proofs.Query.Nesting
import PictureSearch.Proofs.Query.Composing
import PictureSearch.Proofs.Payload.Frame
import PictureSearch.Proofs.Session.RowNumbers
import PictureSearch.Proofs.Text.Trimming
import PictureSearch.Proofs.Session.Replay
import PictureSearch.Proofs.Saved.Origins
import PictureSearch.Proofs.Search.Display
import PictureSearch.Proofs.Json.Escapes
import PictureSearch.Proofs.Json.Grammar
import PictureSearch.Proofs.Json.Records
import PictureSearch.Proofs.Snapshot.Reading
import PictureSearch.Proofs.Query.OpenGroups
import PictureSearch.Proofs.Query.Draining
