import FeatureRun.Suite
import FeatureRun.Traversal
import FeatureRun.Options
import FeatureRun.Text.Utf8
import FeatureRun.Listener.TagLog
import FeatureRun.Source.Grammar
import FeatureRun.Proofs.Hearing
import FeatureRun.Proofs.Listing
import FeatureRun.Proofs.Script
import FeatureRun.Proofs.Plan
import FeatureRun.Proofs.Prospect
import FeatureRun.Proofs.WalkOrder
import FeatureRun.Proofs.History
import FeatureRun.Proofs.Suspension
import FeatureRun.Proofs.StaleCompletion
import FeatureRun.Proofs.ListenerPanic
import FeatureRun.Proofs.Replay
import FeatureRun.Proofs.Start
import FeatureRun.Proofs.Calls
import FeatureRun.Proofs.DroppedCompletion
import FeatureRun.Proofs.CompleteWalk
import FeatureRun.Proofs.Tally
import FeatureRun.Proofs.ProgressText
import FeatureRun.Proofs.OutlineText
import FeatureRun.Proofs.TagDocument
import FeatureRun.Proofs.TagWalk
import FeatureRun.Proofs.SuspendedWalk
import FeatureRun.Proofs.EntryListing
import FeatureRun.Proofs.Audience
import FeatureRun.Proofs.Independence
import FeatureRun.Proofs.Trace
import FeatureRun.Proofs.HookedLog
import FeatureRun.Proofs.ScenarioHooks
import FeatureRun.Proofs.TraversalTiming
import FeatureRun.Proofs.ScenarioSegments
import FeatureRun.Proofs.Acts
import FeatureRun.Proofs.Verdicts
import FeatureRun.Proofs.Summary
import FeatureRun.Proofs.ColoredText
import FeatureRun.Proofs.TerminalText
import FeatureRun.Proofs.Simulation
import FeatureRun.Proofs.LimitedTags
import FeatureRun.Proofs.UnusedDefinitions
import FeatureRun.Proofs.Forwarding
import FeatureRun.Proofs.WholeWrites
import FeatureRun.Proofs.SummaryLines
import FeatureRun.Proofs.Indentation
