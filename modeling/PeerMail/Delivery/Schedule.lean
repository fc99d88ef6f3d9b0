import PeerMail.Delivery.Flush
import PeerMail.Settings

/-!
# Flushing on schedule

A task flushes the queue when it starts, whenever its interval has passed, and
whenever it is woken because a connection may have come up.  A task that is
switched off ends at once.
-/

namespace PeerMail.FlushTask

/-- The seconds between two flushes, at least one. -/
def interval (settings : OutboxSettings) : Nat := max settings.flushInterval 1

/-- Whether the task ends by itself. -/
def endsAtOnce (settings : OutboxSettings) : Bool := !settings.flushEnabled

/-- What is left after the task has been woken up to `wakes` times.  It is stopped as soon as
the number of waiting messages is the awaited one. -/
def run (settings : OutboxSettings) (awaited : Nat) : (wakes : Nat) → Outgoing → Outgoing
  | 0, outgoing => outgoing
  | wakes + 1, outgoing =>
      if endsAtOnce settings then outgoing
      else
        let (report, outgoing) := outgoing.flush settings.pageSize
        if report.pending = awaited then outgoing else run settings awaited wakes outgoing

end PeerMail.FlushTask
