import BlockScript.Main
import BlockScript.Proofs.NumberScripts
import BlockScript.Record.Reader
import BlockScript.Workload
import BlockScript.Proofs.Parameters
import BlockScript.Proofs.ConstantFlags
import BlockScript.Proofs.Positions
import BlockScript.Proofs.CloneTests
import BlockScript.Proofs.FunctionForms
import BlockScript.Proofs.Redeclarations
import BlockScript.Proofs.ListAssignments
import BlockScript.Proofs.IndexPaths
import BlockScript.Proofs.CallPositions
import BlockScript.Proofs.Powers
import BlockScript.Proofs.MissingResults
import BlockScript.Proofs.ConditionSlots
import BlockScript.Proofs.LiteralCalculations
import BlockScript.Proofs.DeclaredProperties
import BlockScript.Proofs.Diagnostics
import BlockScript.Proofs.FileNames
import BlockScript.Proofs.NameWalks
import BlockScript.Proofs.RejectedParses
import BlockScript.Proofs.Balance
import BlockScript.Proofs.CustomCalls
import BlockScript.Proofs.DanglingElse
