import NovelStudio.Autosave.Coverage
import NovelStudio.Workflow.Progress
import NovelStudio.Manuscript.LockPreserved
import NovelStudio.Library.Opcodes
import NovelStudio.Manuscript.MergeSwap
import NovelStudio.Sync.Ordering
import NovelStudio.Realtime.WrittenOnce
import NovelStudio.Story.Sound
import NovelStudio.Broker.Holds
import NovelStudio.PluginWorker.FailsClosed
import NovelStudio.Jobs.Written
import NovelStudio.Jobs.Accounting
import NovelStudio.Forks.Review
import NovelStudio.ControlPipe.Isolation
import NovelStudio.Branch.Replay
import NovelStudio.World.Noninterference
import NovelStudio.Layout.Lossless
import NovelStudio.Planning.Proposals
import NovelStudio.Usages.Following
import NovelStudio.Batches.Guarantees
import NovelStudio.Sync.Selection
import NovelStudio.Identity.Stable
import NovelStudio.Experimental.Lifecycles
import NovelStudio.Imports.Runs
import NovelStudio.Timelines.Exclusive
import NovelStudio.Graphs.Preflight
import NovelStudio.Cursors.Chains
import NovelStudio.PluginWorker.Envelopes
import NovelStudio.Timelines.Sidecars
import NovelStudio.Captions.ReadBack
import NovelStudio.Godot.Restore
import NovelStudio.Layout.Usable
import NovelStudio.Waveform.Agree
import NovelStudio.Documents.Words
import NovelStudio.Canvas.AutoLayout
import NovelStudio.Canvas.Stripped
import NovelStudio.Simulator.Runs
import NovelStudio.Endpoints.Admission
import NovelStudio.Prompts.Machine
import NovelStudio.Prompts.Body
import NovelStudio.Graphs.Connections
import NovelStudio.ModelReference.Traversal
import NovelStudio.ModelReference.Inspection
import NovelStudio.LocalReuse.Sound
import NovelStudio.World.StoryIndex
