import Draftboard.Main
import Draftboard.Proofs.Number.Binary
import Draftboard.Proofs.Text.Pieces
import Draftboard.Proofs.Picture.Numeral
import Draftboard.Proofs.Picture.Visible
import Draftboard.Proofs.Picture.Braces
import Draftboard.Proofs.Picture.Unplaced
import Draftboard.Proofs.Picture.Modifier
import Draftboard.Proofs.Picture.Body
import Draftboard.Proofs.Picture.Statement
import Draftboard.Proofs.Picture.RoundTrip
import Draftboard.Proofs.Picture.Reread
import Draftboard.Proofs.Authoring.Invariant
import Draftboard.Proofs.Authoring.Replay
import Draftboard.Proofs.Authoring.Redraw
import Draftboard.Proofs.Authoring.Images
import Draftboard.Proofs.Number.Nearest
import Draftboard.Proofs.Number.Arithmetic
import Draftboard.Proofs.Picture.Spelled
import Draftboard.Proofs.Geometry.Rim
import Draftboard.Proofs.Picture.Settled
import Draftboard.Proofs.Command.Import
import Draftboard.Proofs.Authoring.Watched
import Draftboard.Proofs.Command.Concatenation
import Draftboard.Proofs.Number.Order
import Draftboard.Proofs.Number.Equality
import Draftboard.Proofs.Picture.Placement
import Draftboard.Proofs.Picture.Returns
import Draftboard.Proofs.Authoring.ByHand
import Draftboard.Proofs.Geometry.Ring
import Draftboard.Proofs.Geometry.Clipping
import Draftboard.Proofs.Geometry.Subscript
import Draftboard.Proofs.Geometry.Dissection
import Draftboard.Proofs.Geometry.Plane
import Draftboard.Proofs.Geometry.Winding
import Draftboard.Proofs.Geometry.Interior
import Draftboard.Proofs.Geometry.Ear
import Draftboard.Proofs.Geometry.Shoelace
import Draftboard.Proofs.Geometry.TwoEars
import Draftboard.Proofs.Geometry.Area
import Draftboard.Proofs.Geometry.EarClipping
import Draftboard.Proofs.Shape.Fan
import Draftboard.Proofs.Authoring.Fans
import Draftboard.Proofs.Authoring.Making
import Draftboard.Proofs.Authoring.Begun
import Draftboard.Proofs.Authoring.TwoPoint
import Draftboard.Proofs.Authoring.Polyline
import Draftboard.Proofs.Authoring.Dragging
import Draftboard.Proofs.Authoring.Following
import Draftboard.Proofs.Authoring.Corners
import Draftboard.Proofs.Authoring.Preview
import Draftboard.Proofs.Number.Overflow
import Draftboard.Proofs.Picture.Literal
import Draftboard.Proofs.Picture.Coordinate
import Draftboard.Proofs.Number.Narrow
import Draftboard.Proofs.Picture.Tint
import Draftboard.Proofs.Picture.Skipped
import Draftboard.Proofs.Text.Parts
import Draftboard.Proofs.Command.Polygon
import Draftboard.Proofs.Picture.VectorList
import Draftboard.Proofs.Picture.Attributes
import Draftboard.Proofs.Geometry.Factorial
import Draftboard.Proofs.Geometry.Casteljau
import Draftboard.Proofs.Shape.Grab
import Draftboard.Proofs.Geometry.Translation
import Draftboard.Proofs.Scene.Again
import Draftboard.Proofs.Scene.Checked
import Draftboard.Proofs.Scene.Offset
import Draftboard.Proofs.Authoring.Dropping
import Draftboard.Proofs.Shape.Points
import Draftboard.Proofs.Scene.Lettering
import Draftboard.Proofs.Number.Alike
import Draftboard.Proofs.Picture.Equal
import Draftboard.Proofs.Picture.Separator
import Draftboard.Proofs.Picture.Written
import Draftboard.Proofs.Picture.Length
