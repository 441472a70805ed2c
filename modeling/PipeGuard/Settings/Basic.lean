/-! The two flags a user sets: whether pipes are guarded at all, and whether every step is logged. -/
namespace PipeGuard

structure Settings where
  enabled : Bool := true
  debug : Bool := false
  deriving DecidableEq, Repr

/-- The flags as the log shows them. -/
def Settings.describe (settings : Settings) : String :=
  "Settings \x7b enabled: " ++ toString settings.enabled ++ ", debug: " ++
    toString settings.debug ++ " \x7d"

end PipeGuard
