import Flydocs.Models.Orphans
import Flydocs.Workers.RetryBudget
import Flydocs.Workers.LostWebhooks
import Flydocs.Workers.Backoff
import Flydocs.Pipeline.Failures
import Flydocs.Workers.RefineSource
import Flydocs.Rules.Acceptance
import Flydocs.Extractions.Idempotency
import Flydocs.Workers.BuildRequest
import Flydocs.Webhook.Mishandled
import Flydocs.Extraction.Collisions
import Flydocs.Extraction.ArrayRetry
import Flydocs.Escalation.Improvement
import Flydocs.Escalation.Rejection
import Flydocs.Escalation.RowVerdicts
import Flydocs.Transformations.Chaining
import Flydocs.Repair.PageWindow
import Flydocs.Repair.Erasure
import Flydocs.Extraction.OutputInstance
import Flydocs.Validation.Raises
import Flydocs.Validation.Depth
import Flydocs.Validation.Required
import Flydocs.Validation.Formats
import Flydocs.Validation.Severity
import Flydocs.Extraction.RowPages
import Flydocs.Transformations.Invariant
import Flydocs.Transformations.VictimTies
import Flydocs.Transformations.Citations
import Flydocs.Transformations.Preservation
import Flydocs.Rules.Closed
import Flydocs.Webhook.Delivery
import Flydocs.Webhook.Headers
import Flydocs.Workers.Sweeps
import Flydocs.Bbox.Conservative
import Flydocs.Bbox.Unspaced
import Flydocs.Bbox.Timing
import Flydocs.Bbox.HybridMatcher
import Flydocs.Bbox.WordRouter
import Flydocs.Bbox.SpacedArgmax
import Flydocs.Bbox.DoclingPhrase
import Flydocs.Extraction.OwnEntries
import Flydocs.Extraction.IntegerValues
import Flydocs.Extraction.RetryMerge
import Flydocs.Extractions.BundleHash
import Flydocs.Extractions.ListExtractions
import Flydocs.Validation.Iban
import Flydocs.Validation.CreditCard
import Flydocs.Sdk.WaitForCompletion
import Flydocs.Extractions.CancelExtraction
import Flydocs.Workers.ServiceWebhooks
import Flydocs.Workers.Recovery
import Flydocs.Bbox.Grounding
import Flydocs.Pipeline.Pages
import Flydocs.Sdk.FileInput
import Flydocs.Bbox.BboxValidator
import Flydocs.Pipeline.Conformance
import Flydocs.Pipeline.Evidence
import Flydocs.Pipeline.ClosedWorld
import Flydocs.Sdk.ListExtractions
