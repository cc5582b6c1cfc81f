import Stagewise.Dispatch.Session
import Stagewise.Main
import Stagewise.Proofs.Agent
import Stagewise.Proofs.Arena.Chronicle
import Stagewise.Proofs.Arena.Final
import Stagewise.Proofs.Arena.Permission
import Stagewise.Proofs.Arena.Records
import Stagewise.Proofs.Arena.Refinement
import Stagewise.Proofs.Arena.Rounds
import Stagewise.Proofs.Arena.Serialized
import Stagewise.Proofs.Arena.Settling
import Stagewise.Proofs.Arena.Shutdown
import Stagewise.Proofs.Client.Confirming
import Stagewise.Proofs.Client.Requests
import Stagewise.Proofs.Course.Bookkeeping
import Stagewise.Proofs.Course.Compensation
import Stagewise.Proofs.Course.Contexts
import Stagewise.Proofs.Course.Fanout
import Stagewise.Proofs.Course.Parked
import Stagewise.Proofs.Course.ReportOrder
import Stagewise.Proofs.Dag.Flaws
import Stagewise.Proofs.Dispatch.Session
import Stagewise.Proofs.Engine.Arena
import Stagewise.Proofs.Engine.Dispatch
import Stagewise.Proofs.Engine.Launching
import Stagewise.Proofs.Engine.Recovery
import Stagewise.Proofs.Journal.Failure
import Stagewise.Proofs.Journal.Overlap
import Stagewise.Proofs.Server.Agreement
import Stagewise.Proofs.Server.Refusals
import Stagewise.Proofs.Server.SharedToken
import Stagewise.Proofs.Store.Accepted
import Stagewise.Proofs.Store.Books
import Stagewise.Rehearsal.Agent
import Stagewise.Rehearsal.Symbol
import Stagewise.Server.Basic
import Stagewise.Shell.Command
import Stagewise.Shell.Format
import Stagewise.Shell.Run
