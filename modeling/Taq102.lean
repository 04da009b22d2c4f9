import Taq102.Lib.Transition
import Taq102.Lib.CFloat
import Taq102.Touch.ContactStream
import Taq102.Touch.Evdev
import Taq102.Touch.Resync
import Taq102.Panel.Layout
import Taq102.Panel.Model
import Taq102.Panel.Reboot
import Taq102.Panel.Capture
import Taq102.Graphics.Canvas
import Taq102.Graphics.Region
import Taq102.Lib.CString
import Taq102.Panel.Paint
import Taq102.Panel.Controls
import Taq102.Panel.Overlay
import Taq102.Panel.Repaint
import Taq102.Lib.History
import Taq102.Worker.Model
import Taq102.Worker.Lifecycle
import Taq102.Battery.Model
import Taq102.Battery.Reboot
import Taq102.Runtime.Settings
import Taq102.Runtime.Control
import Taq102.Runtime.Brightness
import Taq102.Panel.Effect
import Taq102.Runtime.Persistence
import Taq102.Runtime.WifiLink
import Taq102.Touch.Router
import Taq102.Touch.Ownership
import Taq102.Lib.Outlet
import Taq102.Touch.Routing
import Taq102.Battery.Charger
import Taq102.Battery.Frame
import Taq102.Battery.Supply
import Taq102.Battery.InputLimit
import Taq102.Battery.Gauge
import Taq102.Lib.Ring
import Taq102.Runtime.PowerWindow
import Taq102.Runtime.PowerLadder
import Taq102.Runtime.PowerTrial
import Taq102.Lib.Blocks
import Taq102.Touch.Reading
import Taq102.Lib.Streak
import Taq102.Runtime.Pickup
import Taq102.Runtime.SettingsLines
import Taq102.Runtime.SettingsSave
import Taq102.Panel.Ranges
import Taq102.Panel.Drag
import Taq102.Graphics.RoundRect
import Taq102.Lib.Rounding
import Taq102.Graphics.RoundFill
import Taq102.Graphics.Clip
import Taq102.Touch.PendingFrame
import Taq102.Touch.Landing
import Taq102.Lib.PyBytes
import Taq102.Lib.CMath
import Taq102.Lib.Rotation
import Taq102.Graphics.Over
import Taq102.Graphics.Arcball
import Taq102.Touch.Screen
import Taq102.Battery.Probe
import Taq102.Battery.Calibration
import Taq102.Battery.ChargeLimits
import Taq102.Runtime.RescueTarget
import Taq102.Runtime.RescueWrite
import Taq102.Tools.Rle8
import Taq102.Tools.Resource
import Taq102.Tools.MemReserve
import Taq102.Lib.Utf8
import Taq102.Text.Utf8
import Taq102.Lib.Probe
import Taq102.Text.Cache
import Taq102.Text.Fit
import Taq102.Runtime.WifiSsid
import Taq102.Lib.LastIndex
import Taq102.Touch.FrameIndex
import Taq102.Lib.CDivision
import Taq102.Lib.Hull
import Taq102.Touch.Smoothing
import Taq102.Touch.Containment
import Taq102.Lib.Phases
import Taq102.Graphics.Particles
import Taq102.Lib.CAngle
import Taq102.Touch.Epoch
import Taq102.App.Input
import Taq102.App.Dispatch
import Taq102.App.Fingers
import Taq102.App.Gesture
import Taq102.Runtime.PowerKey
import Taq102.App.Orientation
import Taq102.Lib.DirtyBit
import Taq102.Panel.Freshness
import Taq102.Runtime.Freshness
import Taq102.Panel.Draw
import Taq102.App.Loop
import Taq102.App.Display
import Taq102.App.Frames
import Taq102.App.Ghosts
import Taq102.Touch.Mapping
import Taq102.App.Turned
import Taq102.App.Worlds
import Taq102.App.Repainting
import Taq102.Runtime.RescueReboot
import Taq102.Runtime.Status
import Taq102.App.RescueScreen
import Taq102.Lib.WeightedMean
import Taq102.Graphics.Averaging
import Taq102.Graphics.Solid
import Taq102.Panel.StatusBar
import Taq102.Panel.Bar
import Taq102.App.RescuePaint
