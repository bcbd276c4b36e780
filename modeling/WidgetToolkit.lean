import WidgetToolkit.Focus
import WidgetToolkit.Paint.Recorder
import WidgetToolkit.Settings.Loading
import WidgetToolkit.Theme.Loading
import WidgetToolkit.View.Drawing
import WidgetToolkit.View.ItemStep
import WidgetToolkit.Proofs.Tab.Refinement
import WidgetToolkit.Proofs.View.Reachable
import WidgetToolkit.Proofs.Script.Emission
import WidgetToolkit.Proofs.Script.Ownership
import WidgetToolkit.Proofs.Script.Peers
import WidgetToolkit.Proofs.View.Branches
import WidgetToolkit.Proofs.View.Cores
import WidgetToolkit.Proofs.Focus.Search
import WidgetToolkit.Proofs.Focus.Advance
import WidgetToolkit.Proofs.View.Dimming
import WidgetToolkit.Proofs.Focus.History
import WidgetToolkit.Proofs.Geometry.Rect
import WidgetToolkit.Proofs.Paint.Coverage
import WidgetToolkit.Proofs.View.Repaint
import WidgetToolkit.Proofs.Geometry.Congruence
import WidgetToolkit.Proofs.View.Look
import WidgetToolkit.Proofs.Tab.Measures
import WidgetToolkit.Proofs.View.Rebuilt
import WidgetToolkit.Proofs.View.Announcing
import WidgetToolkit.Proofs.View.Scheduling
import WidgetToolkit.Proofs.View.Drawing
import WidgetToolkit.Proofs.Script.Connection
import WidgetToolkit.Proofs.Script.Calling
import WidgetToolkit.Proofs.Script.Halting
import WidgetToolkit.Proofs.Settings.Environment
import WidgetToolkit.Proofs.Tab.Hover
import WidgetToolkit.Proofs.View.Hover
import WidgetToolkit.Proofs.Focus.Asking
import WidgetToolkit.Proofs.Focus.Progress
import WidgetToolkit.Proofs.Focus.Mirror
import WidgetToolkit.Proofs.View.Numbering
import WidgetToolkit.Proofs.View.Pressing
import WidgetToolkit.Proofs.View.Motion
import WidgetToolkit.Proofs.Menu.Kinds
import WidgetToolkit.Proofs.Script.Stretch
import WidgetToolkit.Proofs.Script.Activation
import WidgetToolkit.Proofs.View.Tiling
import WidgetToolkit.Proofs.View.Highlight
import WidgetToolkit.Proofs.View.Following
import WidgetToolkit.Proofs.View.Disabling
import WidgetToolkit.Proofs.View.Fitting
import WidgetToolkit.Proofs.Script.Rest
import WidgetToolkit.Proofs.Script.Clicking
import WidgetToolkit.Proofs.Script.Mirroring
import WidgetToolkit.Proofs.Theme.Overlay
import WidgetToolkit.Proofs.Settings.Overlay
import WidgetToolkit.Proofs.Paint.Scopes
import WidgetToolkit.Proofs.Geometry.Hull
import WidgetToolkit.Proofs.Tab.ItemHistory
import WidgetToolkit.Proofs.View.Pending
import WidgetToolkit.Proofs.View.Visiting
import WidgetToolkit.Proofs.View.Own
import WidgetToolkit.Proofs.View.Membership
