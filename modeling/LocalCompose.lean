import LocalCompose.Go.Path
import LocalCompose.Types
import LocalCompose.Engine.Prog
import LocalCompose.Engine.Group
import LocalCompose.Engine.Report
import LocalCompose.Engine.Guard
import LocalCompose.Engine.Alone
import LocalCompose.Engine.Promise
import LocalCompose.Status
import LocalCompose.Ensure
import LocalCompose.Mounts
import LocalCompose.Create
import LocalCompose.Project
import LocalCompose.Up
import LocalCompose.Down
import LocalCompose.LoopVariable
import LocalCompose.Logs
import LocalCompose.Runs
