import ArrayForks.FrameTree
import ArrayForks.Execution
import ArrayForks.Decimal.Reading
import ArrayForks.Proofs.FrameCondition
import ArrayForks.Proofs.FrameNames
import ArrayForks.Proofs.HeapShape
import ArrayForks.Proofs.Agreement
import ArrayForks.Proofs.NumericTypes
import ArrayForks.Proofs.OperatorTyping
import ArrayForks.Proofs.ForkTypes
import ArrayForks.Proofs.TypeSoundness
import ArrayForks.Proofs.CallIsolation
import ArrayForks.Proofs.SingleSteps
import ArrayForks.Proofs.PointwiseLifting
import ArrayForks.Proofs.Reductions
import ArrayForks.Proofs.ExactArithmetic
import ArrayForks.Proofs.WrappingOnce
import ArrayForks.Proofs.Magnitudes
import ArrayForks.Proofs.ShortCircuit
import ArrayForks.Proofs.Pieces
import ArrayForks.Proofs.Raising
import ArrayForks.Proofs.ErrorPlaces
import ArrayForks.Proofs.Limits
import ArrayForks.Proofs.InsertedFrame
import ArrayForks.Proofs.Renaming
import ArrayForks.Proofs.RenamedOperators
import ArrayForks.Proofs.RenamedRuns
import ArrayForks.Proofs.Standards
import ArrayForks.Proofs.ClosedMachines
import ArrayForks.Proofs.Purity
import ArrayForks.Proofs.TypeViolations
import ArrayForks.Proofs.WordRange
import ArrayForks.Proofs.HiddenNames
import ArrayForks.Proofs.Versions
import ArrayForks.Proofs.Simulation
import ArrayForks.Proofs.SharedDeclarations
import ArrayForks.Proofs.Returns
import ArrayForks.Proofs.DeclarationPlaces
import ArrayForks.Proofs.Powers
import ArrayForks.Proofs.Factorials
import ArrayForks.Proofs.LayingOut
import ArrayForks.Proofs.Division
import ArrayForks.Proofs.EqualityLaws
import ArrayForks.Proofs.OnlyElements
import ArrayForks.Proofs.Locations
import ArrayForks.Proofs.Assignments
import ArrayForks.FrameRequest
import ArrayForks.Proofs.FrameReading
import ArrayForks.Proofs.ContentsBudget
import ArrayForks.Proofs.FrameRequests
import ArrayForks.Proofs.Overlay
import ArrayForks.Proofs.FullTexts
import ArrayForks.Proofs.LegibleData
import ArrayForks.Proofs.Broadcasting
