import Flydocs.Models.Extraction

/-!
# Worker settings

The fields of `IDPSettings` that the workers, the reapers and the
queued-backlog poll read.  Leases and thresholds are whole seconds, as
configured; the two backoff bounds are durations.
-/

namespace Flydocs

structure IDPSettings where
  jobMaxAttempts : Int := 3
  jobRunLeaseS : Int := 1260
  bboxRefineLeaseS : Int := 660
  bboxRefineMaxAttempts : Int := 3
  queuedOrphanThresholdS : Int := 600
  partialSucceededOrphanThresholdS : Int := 1320
  jobPollIntervalS : Int := 15
  jobPollGraceS : Int := 10
  retryBaseDelay : Int := timedelta 5
  retryMaxDelay : Int := timedelta 300
  deriving DecidableEq, Repr

end Flydocs
