import CallProvenance.Main
import CallProvenance.Proofs.Acceptance
import CallProvenance.Proofs.ArisingFrames
import CallProvenance.Proofs.CallbackLog
import CallProvenance.Proofs.ConflictPolicies
import CallProvenance.Proofs.LeastSolution
import CallProvenance.Proofs.FieldConflicts
import CallProvenance.Proofs.DuplicateClasses
import CallProvenance.Proofs.Failures
import CallProvenance.Proofs.InstructionWindow
import CallProvenance.Proofs.LinearSweep
import CallProvenance.Proofs.CodeOffsets
import CallProvenance.Proofs.OperandShapes
import CallProvenance.Proofs.WidePairs
import CallProvenance.Proofs.SlotRange
import CallProvenance.Proofs.StackWidths
import CallProvenance.Proofs.DeclaredAccesses
import CallProvenance.Proofs.KindsAlone
import CallProvenance.Proofs.ExecutionLaw
import CallProvenance.Proofs.HistoryDepth
import CallProvenance.Proofs.BranchTargets
import CallProvenance.Proofs.ParameterSlots
import CallProvenance.Proofs.ShallowHistories
import CallProvenance.Proofs.ScanAccounting
import CallProvenance.Proofs.MeasuredDepth
import CallProvenance.Proofs.FieldOperations
import CallProvenance.Proofs.ProtectedRanges
import CallProvenance.Proofs.LineAttribution
import CallProvenance.Proofs.OpcodeNumbers
import CallProvenance.Proofs.LocalForms
