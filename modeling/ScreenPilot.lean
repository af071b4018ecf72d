import ScreenPilot.Files.Tree
import ScreenPilot.Main
import ScreenPilot.Proofs.Check.Soundness
import ScreenPilot.Proofs.Config.Store
import ScreenPilot.Proofs.Engine.Traffic
import ScreenPilot.Proofs.Id.Ranges
import ScreenPilot.Proofs.Node.Definitions
import ScreenPilot.Proofs.Node.Recognitions
import ScreenPilot.Proofs.Run.Caps
import ScreenPilot.Proofs.Run.Duplicates
import ScreenPilot.Proofs.Run.Inputs
import ScreenPilot.Proofs.Run.Labels
import ScreenPilot.Proofs.Run.Mending
import ScreenPilot.Proofs.Run.Prompt
import ScreenPilot.Proofs.Run.Scans
import ScreenPilot.Proofs.Run.Sightings
import ScreenPilot.Proofs.Run.Singles
import ScreenPilot.Proofs.Run.Stillness
import ScreenPilot.Proofs.Tasker.Notifications
import ScreenPilot.Proofs.Tasker.Pinned
import ScreenPilot.Proofs.Tasker.Reach
import ScreenPilot.Proofs.Tasker.Refusals
