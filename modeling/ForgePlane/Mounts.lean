import ForgePlane.Workload

/-!
# Custom mounts

A mount is accepted by its resolved source, which must lie within a resolved allowed
location, and by its cleaned target. Only the server's own directory is refused as a
target, so one above it hides the data mounted there.
-/

namespace ForgePlane.Daemon

variable {site : Site} {h h' : Host} {canonical path source : String} {m m' : Mount}

def Within (site : Site) (allowed : List String) (source : String) : Prop :=
  ∃ permitted ∈ allowed, ∃ location, site.evalSymlinks (cleanPath permitted) = .ok location ∧ within location source = true

end ForgePlane.Daemon
