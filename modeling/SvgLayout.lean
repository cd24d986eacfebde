import SvgLayout.Error
import SvgLayout.Geometry.Box
import SvgLayout.Geometry.Fit
import SvgLayout.Geometry.Nudged
import SvgLayout.Markup.Basic
import SvgLayout.Scalar.Double
import SvgLayout.Style.Basic
import SvgLayout.Spec.Args
import SvgLayout.Context
import SvgLayout.Markup.Document
import SvgLayout.Path.ArrowHead
import SvgLayout.Path.RoundedRect
import SvgLayout.Path.Spline
import SvgLayout.Layout.GridSolver
import SvgLayout.Layout.StackSolver
import SvgLayout.Text.Metrics
import SvgLayout.Element.Basic
import SvgLayout.Element.Fold
import SvgLayout.Element.Sizing
import SvgLayout.Element.Draw
import SvgLayout.Element.Build
import SvgLayout.Picture
import SvgLayout.Proofs.Context.Composition
import SvgLayout.Proofs.Context.TurnedBounds
import SvgLayout.Proofs.Context.UprightChild
import SvgLayout.Proofs.Element.ArrowTip
import SvgLayout.Proofs.Element.AutoSpace
import SvgLayout.Proofs.Element.FrameInsets
import SvgLayout.Proofs.Element.Landing
import SvgLayout.Proofs.Element.Relocated
import SvgLayout.Proofs.Element.Resolved
import SvgLayout.Proofs.Element.SinglePass
import SvgLayout.Proofs.Geometry.Bounding
import SvgLayout.Proofs.Geometry.LargestFit
import SvgLayout.Proofs.Geometry.TurnedCover
import SvgLayout.Proofs.Layout.GridDuality
import SvgLayout.Proofs.Layout.GridFit
import SvgLayout.Proofs.Layout.GridTracks
import SvgLayout.Proofs.Layout.ItemOrder
import SvgLayout.Proofs.Layout.NaturalLength
import SvgLayout.Proofs.Markup.Edits
import SvgLayout.Proofs.Markup.Escape
import SvgLayout.Proofs.Path.Interpolation
import SvgLayout.Proofs.Path.Outline
import SvgLayout.Proofs.Path.Reader
import SvgLayout.Proofs.Path.Symmetry
import SvgLayout.Proofs.Picture.Children
import SvgLayout.Proofs.Picture.DeadSpace
import SvgLayout.Proofs.Picture.Failures
import SvgLayout.Proofs.Picture.Identifiers
import SvgLayout.Proofs.Picture.Numbers
import SvgLayout.Proofs.Picture.Opacity
import SvgLayout.Proofs.Picture.Readable
import SvgLayout.Proofs.Spec.Arguments
import SvgLayout.Proofs.Style.Fallback
import SvgLayout.Proofs.Text.Width
