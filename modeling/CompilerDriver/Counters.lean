/-!
# Counters

How often each notable thing has happened in a session. A count never comes round, as one in a
64-bit word would after 2^64 things.
-/

namespace CompilerDriver

/-- The things that are counted. -/
inductive Counter where
  | compilationsStarted
  | compilationsFailed
  | remoteFetches
  | remoteCacheHits
  | missingInputRetries
  deriving DecidableEq

/-- All counters, in the order in which they are reported. -/
def Counter.all : List Counter :=
  [.compilationsStarted, .compilationsFailed, .remoteFetches, .remoteCacheHits,
    .missingInputRetries]

/-- The name under which a counter is reported. -/
def Counter.name : Counter → String
  | .compilationsStarted => "compilations_started"
  | .compilationsFailed => "compilations_failed"
  | .remoteFetches => "remote_fetches"
  | .remoteCacheHits => "remote_cache_hits"
  | .missingInputRetries => "missing_input_retries"

/-- The counter of a name. -/
def Counter.ofName? (name : String) : Option Counter := Counter.all.find? fun c => c.name = name

/-- The counters of a session. -/
structure Counters where
  compilationsStarted : Nat := 0
  compilationsFailed : Nat := 0
  remoteFetches : Nat := 0
  remoteCacheHits : Nat := 0
  missingInputRetries : Nat := 0
  deriving DecidableEq

namespace Counters

/-- The value of a counter. -/
def get (counters : Counters) : Counter → Nat
  | .compilationsStarted => counters.compilationsStarted
  | .compilationsFailed => counters.compilationsFailed
  | .remoteFetches => counters.remoteFetches
  | .remoteCacheHits => counters.remoteCacheHits
  | .missingInputRetries => counters.missingInputRetries

/-- Counts one more. -/
def increment (counters : Counters) : Counter → Counters
  | .compilationsStarted =>
    { counters with compilationsStarted := counters.compilationsStarted + 1 }
  | .compilationsFailed =>
    { counters with compilationsFailed := counters.compilationsFailed + 1 }
  | .remoteFetches => { counters with remoteFetches := counters.remoteFetches + 1 }
  | .remoteCacheHits => { counters with remoteCacheHits := counters.remoteCacheHits + 1 }
  | .missingInputRetries =>
    { counters with missingInputRetries := counters.missingInputRetries + 1 }

/-- The values in the order of `Counter.all`. -/
def toList (counters : Counters) : List Nat := Counter.all.map counters.get

end Counters

end CompilerDriver
