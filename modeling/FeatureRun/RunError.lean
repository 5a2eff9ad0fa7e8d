import FeatureRun.Draft
import FeatureRun.Source.FeatureText

namespace FeatureRun

/-- Why a run cannot be started. -/
inductive RunError
  | unreadable (cause : Malformed)
  | orphan (o : Orphan)
  deriving DecidableEq, Repr, Inhabited

/-- The part of a message that does not depend on the cause. -/
def RunError.headline : RunError → String
  | .unreadable _ => "Failed to parse feature"
  | .orphan o => o.message

def RunError.message : RunError → String
  | .unreadable cause => (RunError.unreadable cause).headline ++ ": " ++ cause.cause
  | .orphan o => o.message

end FeatureRun
