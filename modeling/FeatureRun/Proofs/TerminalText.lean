import FeatureRun.Proofs.OutlineChunks
import FeatureRun.Proofs.ProgressChunks
import FeatureRun.Proofs.Verdicts

namespace FeatureRun

open Text (Plain deleteCodes)

end FeatureRun
