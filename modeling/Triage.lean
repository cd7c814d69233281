import Triage.Main
import Triage.Proofs.ConfinedEvaluation
import Triage.Proofs.Handles
import Triage.Proofs.Journal
import Triage.Proofs.Sessions
import Triage.Proofs.Footprint
import Triage.Proofs.Unwrapping
import Triage.Proofs.Serving
import Triage.Proofs.Entries
import Triage.Proofs.Runs
import Triage.Proofs.Driven
import Triage.Proofs.Erasure
import Triage.Proofs.Chronology
import Triage.Proofs.HostSteps
import Triage.Proofs.Handover
import Triage.Proofs.Armed
import Triage.Proofs.App.Desk
import Triage.Proofs.App.Reactions
import Triage.Proofs.App.Results
import Triage.Proofs.Recall
import Triage.Proofs.App.Drafts
import Triage.Proofs.App.Cursors
import Triage.Proofs.App.Races
import Triage.Proofs.App.Refreshes
import Triage.Proofs.Delivery
import Triage.Proofs.Index.Depth
import Triage.Proofs.Marks
import Triage.Proofs.App.Hosts
import Triage.Proofs.Rows
import Triage.Proofs.Tags
import Triage.Proofs.Refusals
import Triage.Proofs.Histories
import Triage.Proofs.InfoSuffix
import Triage.Proofs.Notifications
import Triage.Proofs.Index.Terms
import Triage.Proofs.App.Colors
import Triage.Proofs.App.Windows
import Triage.Proofs.Index.Saved
import Triage.Proofs.Index.Renderings
import Triage.Proofs.Selection
import Triage.Proofs.Regrouping
import Triage.Proofs.App.Execution
import Triage.Proofs.Minting
