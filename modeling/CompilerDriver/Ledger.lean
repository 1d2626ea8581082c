import CompilerDriver.Event.Bus
import CompilerDriver.Import.Cache
import CompilerDriver.LogRecord

/-!
# The ledger of a session

What all calls of a session share and only ever add to: the cache of remote imports, the
counters, the log and the event bus.
-/

namespace CompilerDriver

/-- Cache, counters, log and events of a session. -/
structure Ledger where
  cache : Import.Cache := {}
  counters : Counters := {}
  log : Array LogRecord := #[]
  bus : EventBus

namespace Ledger

/-- A ledger without entries. -/
def new (eventCapacity : Nat) : Ledger := { bus := .new eventCapacity }

/-- Counts one more. -/
def count (l : Ledger) (c : Counter) : Ledger := { l with counters := l.counters.increment c }

/-- Logs a record. -/
def note (l : Ledger) (r : LogRecord) : Ledger := { l with log := l.log.push r }

/-- Publishes an event. -/
def publish (l : Ledger) (e : Event) : Ledger := { l with bus := l.bus.publish e }

/-- Enters the text of a remote import into the cache. -/
def remember (l : Ledger) (path content : String) : Ledger :=
  { l with cache := l.cache.insert path content }

/-- Logs the counters. -/
def flush (l : Ledger) : Ledger := l.note (.counters l.counters)

end Ledger

end CompilerDriver
