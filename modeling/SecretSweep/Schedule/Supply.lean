import SecretSweep.Leak.Basic

/-!
What a run takes from outside for its records: ids, which are counted, and readings of the clock.
-/

namespace SecretSweep

structure Supply where
  nextRunId : Nat
  nextLeakId : Nat
  readings : Nat
  /-- The n-th reading of the clock, in seconds since 1970. -/
  clock : Nat → Float

namespace Supply

def runId (s : Supply) : String × Supply :=
  (idText s.nextRunId, { s with nextRunId := s.nextRunId + 1 })

def time (s : Supply) : Float × Supply :=
  (s.clock s.readings, { s with readings := s.readings + 1 })

end Supply

end SecretSweep
