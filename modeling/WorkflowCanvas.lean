import WorkflowCanvas.Graph.Difference
import WorkflowCanvas.Graph.Draft
import WorkflowCanvas.Journal.Workflow
import WorkflowCanvas.Model
import WorkflowCanvas.Proofs.Session.Atomic
import WorkflowCanvas.Proofs.Session.Dragging
import WorkflowCanvas.Proofs.Session.Drawing
import WorkflowCanvas.Proofs.Session.Origin
import WorkflowCanvas.Proofs.Storage.Loading
import WorkflowCanvas.Proofs.Workflow.Loading
import WorkflowCanvas.Proofs.Workflow.Recast
import WorkflowCanvas.Proofs.Workflow.Stable
import WorkflowCanvas.Proofs.Decimal.Numeral
import WorkflowCanvas.Proofs.Graph.Cycle
import WorkflowCanvas.Proofs.Json.Token
import WorkflowCanvas.Proofs.Json.RoundTrip
import WorkflowCanvas.Proofs.Json.Spelled
import WorkflowCanvas.Proofs.Workflow.Text
import WorkflowCanvas.Proofs.Storage.Contents
import WorkflowCanvas.Proofs.Storage.Directory
import WorkflowCanvas.Proofs.Storage.Naming
import WorkflowCanvas.Proofs.Storage.Shelf
import WorkflowCanvas.Proofs.Storage.Apart
import WorkflowCanvas.Proofs.Gesture.Connections
import WorkflowCanvas.Proofs.Workflow.Reaching
import WorkflowCanvas.Proofs.Workflow.Sharing
import WorkflowCanvas.Proofs.Graph.Difference
import WorkflowCanvas.Proofs.Graph.Replacing
import WorkflowCanvas.Proofs.Graph.Parts
import WorkflowCanvas.Proofs.Workflow.Chained
import WorkflowCanvas.Proofs.Graph.Ledger
import WorkflowCanvas.Proofs.Graph.Updates
import WorkflowCanvas.Proofs.Workflow.Recoded
import WorkflowCanvas.Proofs.Workflow.Reported
