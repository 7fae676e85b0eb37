import OperationMinix.Runs.Duplex
import OperationMinix.Lib.Transmit
import OperationMinix.Networking.Handshake
import OperationMinix.Networking.Transport
import OperationMinix.Networking.Stranded
import OperationMinix.Networking.Resync
import OperationMinix.Game.Outcome
import OperationMinix.Networking.Intake
import OperationMinix.Networking.Session
import OperationMinix.Player.Shots
import OperationMinix.Game.Clock
import OperationMinix.Player.Arsenal
import OperationMinix.Player.PickupTable
import OperationMinix.Networking.Drain
import OperationMinix.Game.Timer
import OperationMinix.Networking.Rotation
import OperationMinix.Runs.Loop
import OperationMinix.Utils.Ray
import OperationMinix.Runs.Crossing
import OperationMinix.Utils.RayCast
import OperationMinix.Graphics.Columns
import OperationMinix.Graphics.Walls
import OperationMinix.Lib.RectSprite
import OperationMinix.Player.PickupLookup
import OperationMinix.Player.Collision
import OperationMinix.Lib.Blit
import OperationMinix.Player.Aiming
import OperationMinix.Player.Pace
import OperationMinix.Player.Ledger
import OperationMinix.Player.Vitals
import OperationMinix.Graphics.Renders
import OperationMinix.Runs.Faults
import OperationMinix.Controls.Mouse
import OperationMinix.File.Map
import OperationMinix.Lib.Receive
import OperationMinix.Graphics.Numbers
import OperationMinix.Lib.Queue
import OperationMinix.Lib.RtcController
import OperationMinix.Ai.EnemyController
import OperationMinix.Lab4.Buttons
import OperationMinix.Networking.Replica
import OperationMinix.Game.Bodies
import OperationMinix.Game.Region
import OperationMinix.Game.Everyone
import OperationMinix.Graphics.Project
import OperationMinix.Runs.Layers
import OperationMinix.Graphics.Scene
import OperationMinix.Game.MainLoop
import OperationMinix.Lib.PageFlip
import OperationMinix.Graphics.Hud
import OperationMinix.Lib.Kbc
