import StackLowering.Lowering.Compilation
import StackLowering.Machine.Listing
import StackLowering.Report.Diagnostics
import StackLowering.Syntax.Numbering
import StackLowering.Proofs.Symbols.Instances
import StackLowering.Proofs.Machine.Assembly
import StackLowering.Proofs.Machine.Linking
import StackLowering.Proofs.Machine.Emission
import StackLowering.Proofs.Machine.Shape
import StackLowering.Proofs.Machine.Grammar
import StackLowering.Proofs.Lowering.Growth
import StackLowering.Proofs.Lowering.Typing
import StackLowering.Proofs.Lowering.Names
import StackLowering.Proofs.Lowering.Operand
import StackLowering.Proofs.Lowering.Expr
import StackLowering.Proofs.Lowering.Function
import StackLowering.Proofs.Lowering.Compilation
import StackLowering.Proofs.Lowering.Script
import StackLowering.Proofs.Lowering.Buffer
import StackLowering.Proofs.Lowering.Trace
import StackLowering.Proofs.Lowering.Nesting
import StackLowering.Proofs.Lowering.Passes
import StackLowering.Proofs.Lowering.References
import StackLowering.Proofs.Lowering.Capacity
import StackLowering.Proofs.Lowering.Calls
import StackLowering.Proofs.Lowering.Traps
import StackLowering.Proofs.Lowering.Slots
import StackLowering.Proofs.Lowering.Order
import StackLowering.Proofs.Lowering.Preservation
import StackLowering.Proofs.Lowering.Comparison
import StackLowering.Proofs.Lowering.Widths
import StackLowering.Proofs.Lowering.TypePosition
import StackLowering.Proofs.Lowering.CallOrder
import StackLowering.Proofs.Lowering.Evaluation
import StackLowering.Proofs.Symbols.Transparency
import StackLowering.Proofs.Lowering.Conversion
import StackLowering.Proofs.Lowering.Pools
import StackLowering.Proofs.Lowering.Literals
import StackLowering.Proofs.Lowering.Defaults
import StackLowering.Proofs.Lowering.KnownTypes
import StackLowering.Proofs.Lowering.ValueTypes
import StackLowering.Proofs.Lowering.Bindings
import StackLowering.Proofs.Lowering.Parameters
import StackLowering.Proofs.Lowering.Arity
import StackLowering.Proofs.Symbols.FreshInstances
import StackLowering.Proofs.Symbols.LayingOut
import StackLowering.Proofs.Types.Packing
import StackLowering.Proofs.Lowering.Parentheses
import StackLowering.Proofs.Lowering.Failure
import StackLowering.Proofs.Lowering.UpToLines
import StackLowering.Proofs.Lowering.Lines
import StackLowering.Proofs.Hash.Fold
import StackLowering.Proofs.Symbols.Placeholders
import StackLowering.Proofs.Machine.Pooling
import StackLowering.Proofs.Symbols.Clashes
import StackLowering.Proofs.Lowering.Allocation
