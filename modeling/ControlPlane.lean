import ControlPlane.Interleave
import ControlPlane.Text
import ControlPlane.Table
import ControlPlane.Orchestration.Job
import ControlPlane.Orchestration.Offload
import ControlPlane.Orchestration.Terminal
import ControlPlane.Orchestration.Orphan
import ControlPlane.Extraction.Ledger
import ControlPlane.Extraction.Program
import ControlPlane.Extraction.Rows
import ControlPlane.Extraction.Copies
import ControlPlane.Extraction.Coverage
import ControlPlane.Extraction.Cancel
import ControlPlane.Extraction.Fold
import ControlPlane.PyFloat
import ControlPlane.Competence.Contract
import ControlPlane.Competence.Admission
import ControlPlane.Competence.Fitter
import ControlPlane.Competence.Jobs
import ControlPlane.Competence.Agreement
import ControlPlane.Competence.Lineage
import ControlPlane.Competence.Tasks
import ControlPlane.Competence.Lease
import ControlPlane.Competence.Cleanup
import ControlPlane.Competence.Success
import ControlPlane.Extraction.Split
import ControlPlane.Bucket
import ControlPlane.Extraction.Planner
import ControlPlane.Extraction.Stranded
import ControlPlane.Json
import ControlPlane.Admissions
import ControlPlane.Orchestration.Invoke
import ControlPlane.Extraction.Submit
import ControlPlane.Dispatched
import ControlPlane.Rl.Submit
import ControlPlane.Idempotency
import ControlPlane.Extraction.Reconcile
import ControlPlane.Extraction.Sweep
import ControlPlane.Rl.Pods
import ControlPlane.PyError
import ControlPlane.PyNumber
import ControlPlane.JsonLoads
import ControlPlane.Orchestration.Artifacts
import ControlPlane.Upsert
import ControlPlane.Rl.Ingest
import ControlPlane.Fallible
import ControlPlane.Rl.Rollouts
import ControlPlane.Rl.Misfits
import ControlPlane.Rl.Deliveries
import ControlPlane.PyRepr
import ControlPlane.Orchestration.Worker
import ControlPlane.Orchestration.Verified
import ControlPlane.Competence.Posterior
import ControlPlane.Kahn
import ControlPlane.Readable
import ControlPlane.Sorting
import ControlPlane.JsonText
import ControlPlane.JsonWrite
import ControlPlane.Layout.Policy
import ControlPlane.Layout.Canonical
import ControlPlane.Layout.Order
import ControlPlane.Graphviz
import ControlPlane.Layout.Dot
import ControlPlane.Layout.Quoting
import ControlPlane.Layout.Digest
import ControlPlane.Layout.Cache
import ControlPlane.JsonRead
import ControlPlane.Extraction.Reviews
import ControlPlane.Extraction.Candidates
import ControlPlane.Extraction.ReviewFeed
import ControlPlane.Histories
import ControlPlane.Identity.Webhooks
import ControlPlane.Tenants.OrgCache
import ControlPlane.Orchestration.Keys
import ControlPlane.Orchestration.Isolation
import ControlPlane.Ancestors
import ControlPlane.Documents.Elements
import ControlPlane.Documents.Trees
import ControlPlane.Documents.Spans
import ControlPlane.Documents.Admission
import ControlPlane.Checkpoint
import ControlPlane.Documents.Resume
import ControlPlane.Competence.Publication
import ControlPlane.Competence.Ownership
import ControlPlane.PyDict
import ControlPlane.UnionFind
import ControlPlane.Orchestration.Community
import ControlPlane.Extraction.CanonicalRows
import ControlPlane.Extraction.Evidence
import ControlPlane.Extraction.Paging
import ControlPlane.Extraction.Atlas
import ControlPlane.Extraction.Replans
import ControlPlane.Extraction.Settling
import ControlPlane.Documents.Docling
import ControlPlane.Orchestration.Quota
import ControlPlane.Documents.Normalization
import ControlPlane.Documents.HtmlTable
import ControlPlane.Documents.TableGrid
import ControlPlane.Documents.Sections
import ControlPlane.Documents.Paddle
import ControlPlane.Documents.Merging
import ControlPlane.Substitution
import ControlPlane.Utf8Lossy
import ControlPlane.Rendering.OracleProcess
import ControlPlane.Documents.Labels
import ControlPlane.Descent
import ControlPlane.Documents.Layers
import ControlPlane.Rendering.Validation
import ControlPlane.Rendering.Imports
import ControlPlane.Identity.Redelivery
import ControlPlane.Identity.Endpoint
import ControlPlane.Rl.Verdicts
import ControlPlane.Extraction.Temporal
import ControlPlane.Extraction.Acceptance
import ControlPlane.Recency
import ControlPlane.Layout.Fallback
import ControlPlane.JsonEq
import ControlPlane.Extraction.Rollback
import ControlPlane.Executors.FeatureLayout
import ControlPlane.Extraction.Adoption
import ControlPlane.Workers.Requests
import ControlPlane.Workers.Wire
import ControlPlane.Workers.Handlers
import ControlPlane.Identity.MachineKeys
import ControlPlane.Journal
import ControlPlane.Orchestration.Contents
import ControlPlane.Rendering.Descriptors
import ControlPlane.Workers.EndToEnd
import ControlPlane.Locked
import ControlPlane.Billing.Usage
import ControlPlane.Billing.Credit
import ControlPlane.Prequential
import ControlPlane.Extraction.Scoring
import ControlPlane.Executors.Tracking
import ControlPlane.Executors.Receipts
import ControlPlane.Executors.Fitness
