import RobotHost.Driver.Call
import RobotHost.Json.Render
import RobotHost.Main
import RobotHost.Proofs.Config.Crossing
import RobotHost.Proofs.Config.Defects
import RobotHost.Proofs.Config.Nesting
import RobotHost.Proofs.Config.Preserving
import RobotHost.Proofs.Config.Rechecking
import RobotHost.Proofs.Config.Stability
import RobotHost.Proofs.Daemon.Booting
import RobotHost.Proofs.Graph.Adding
import RobotHost.Proofs.Graph.Displacement
import RobotHost.Proofs.Graph.Flattening
import RobotHost.Proofs.Graph.Keying
import RobotHost.Proofs.Graph.Remaking
import RobotHost.Proofs.Graph.Reporting
import RobotHost.Proofs.Handle.Rebuilding
import RobotHost.Proofs.Process.Restarting
import RobotHost.Proofs.Robot.Choosing
import RobotHost.Proofs.Robot.Constructing
import RobotHost.Proofs.Robot.Readding
import RobotHost.Proofs.Robot.Skipping
import RobotHost.Proofs.Robot.Staffing
import RobotHost.Proofs.Robot.Starting
