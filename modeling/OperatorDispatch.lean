import OperatorDispatch.Call.Context
import OperatorDispatch.Call.Emission
import OperatorDispatch.Call.Error
import OperatorDispatch.Call.ResultType
import OperatorDispatch.Call.Session
import OperatorDispatch.Call.Site
import OperatorDispatch.Call.StandardCatalog
import OperatorDispatch.Call.Strategy
import OperatorDispatch.Clock.ContextFunction
import OperatorDispatch.Machine.Bytecode
import OperatorDispatch.Machine.Comparison
import OperatorDispatch.Machine.ConstantPool
import OperatorDispatch.Machine.Opcode
import OperatorDispatch.Operator.Basic
import OperatorDispatch.Operator.Digest
import OperatorDispatch.Operator.Standard
import OperatorDispatch.Overload.Basic
import OperatorDispatch.Overload.Builder
import OperatorDispatch.Overload.Resolution
import OperatorDispatch.Overload.Table
import OperatorDispatch.Proofs.Call.Accounting
import OperatorDispatch.Proofs.Call.Casting
import OperatorDispatch.Proofs.Call.Checked
import OperatorDispatch.Proofs.Call.Compilation
import OperatorDispatch.Proofs.Call.Demand
import OperatorDispatch.Proofs.Call.Emission
import OperatorDispatch.Proofs.Call.Exactness
import OperatorDispatch.Proofs.Call.History
import OperatorDispatch.Proofs.Call.Loading
import OperatorDispatch.Proofs.Call.Narrowest
import OperatorDispatch.Proofs.Call.Nullness
import OperatorDispatch.Proofs.Call.Plan
import OperatorDispatch.Proofs.Call.Refusal
import OperatorDispatch.Proofs.Call.ResultType
import OperatorDispatch.Proofs.Call.Rollback
import OperatorDispatch.Proofs.Call.Standard
import OperatorDispatch.Proofs.Call.Suitable
import OperatorDispatch.Proofs.Call.Validity
import OperatorDispatch.Proofs.Call.WellFormed
import OperatorDispatch.Proofs.Call.Widening
import OperatorDispatch.Proofs.Machine.Action
import OperatorDispatch.Proofs.Machine.Conversion
import OperatorDispatch.Proofs.Machine.Instruction
import OperatorDispatch.Proofs.Machine.PoolContents
import OperatorDispatch.Proofs.Machine.PoolGrowth
import OperatorDispatch.Proofs.Machine.Typing
import OperatorDispatch.Proofs.Overload.CatalogOutcome
import OperatorDispatch.Proofs.Overload.Choice
import OperatorDispatch.Proofs.Overload.Construction
import OperatorDispatch.Proofs.Overload.FromCatalog
import OperatorDispatch.Proofs.Overload.Narrowing
import OperatorDispatch.Proofs.Overload.Positions
import OperatorDispatch.Proofs.Overload.Registration
import OperatorDispatch.Proofs.Overload.Sequences
import OperatorDispatch.Proofs.Types.Logical
import OperatorDispatch.Proofs.Types.Widening
import OperatorDispatch.Report.Event
import OperatorDispatch.Report.Failure
import OperatorDispatch.Settings.Basic
import OperatorDispatch.Settings.Document
import OperatorDispatch.Settings.Error
import OperatorDispatch.Settings.File
import OperatorDispatch.Settings.StandardFiles
import OperatorDispatch.Toml.Document
import OperatorDispatch.Toml.Scalar
import OperatorDispatch.Toml.Statement
import OperatorDispatch.Toml.Token
import OperatorDispatch.Types.Family
import OperatorDispatch.Types.Logical
import OperatorDispatch.Types.Root
import OperatorDispatch.Types.Widening
import OperatorDispatch.Proofs.Call.Footprint
import OperatorDispatch.Proofs.Machine.PoolHistory
import OperatorDispatch.Proofs.Machine.Reading
import OperatorDispatch.Proofs.Call.Memo
import OperatorDispatch.Proofs.Call.Adjustment
import OperatorDispatch.Proofs.Operator.Identity
import OperatorDispatch.Proofs.Types.Listing
import OperatorDispatch.Proofs.Types.Text
import OperatorDispatch.Proofs.Call.StringLength
import OperatorDispatch.Proofs.Call.Naming
import OperatorDispatch.Proofs.Call.Concatenation
import OperatorDispatch.Proofs.Settings.Reading
