import ScriptGraph.Main
import ScriptGraph.Store.Edit
import ScriptGraph.Proofs.Balance
import ScriptGraph.Proofs.CallCounts
import ScriptGraph.Proofs.CallLimit
import ScriptGraph.Proofs.Coverage
import ScriptGraph.Proofs.Ending
import ScriptGraph.Proofs.Runs
import ScriptGraph.Proofs.SlotAllocation
import ScriptGraph.Proofs.ScriptLines
import ScriptGraph.Proofs.Substitution
import ScriptGraph.Proofs.EditHistories
import ScriptGraph.Proofs.EditedGraphs
import ScriptGraph.Proofs.DeadNodes
import ScriptGraph.Proofs.AddedNodes
import ScriptGraph.Proofs.BranchCycles
import ScriptGraph.Proofs.Renamings
import ScriptGraph.Proofs.Reorderings
import ScriptGraph.Proofs.NumberText
import ScriptGraph.Proofs.ElementText
import ScriptGraph.Proofs.DocumentText
import ScriptGraph.Proofs.StrictImport
import ScriptGraph.Proofs.ScriptText
import ScriptGraph.Proofs.Presentation
import ScriptGraph.Proofs.AssignedSlots
import ScriptGraph.Proofs.FanOutReports
import ScriptGraph.Proofs.AllocationUse
import ScriptGraph.Proofs.SlotLedgers
import ScriptGraph.Proofs.FreshIds
import ScriptGraph.Proofs.SampleDocuments
import ScriptGraph.Proofs.SampleGraphs
import ScriptGraph.Proofs.IndependentEdits
import ScriptGraph.Proofs.UndoneEdits
import ScriptGraph.Proofs.CallArguments
import ScriptGraph.Proofs.ByteOrder
import ScriptGraph.Proofs.Registrations
import ScriptGraph.Proofs.ConditionText
import ScriptGraph.Proofs.Ladders
