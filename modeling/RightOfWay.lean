import RightOfWay.Command.FileTree
import RightOfWay.Json.Printer
import RightOfWay.Main
import RightOfWay.Proofs.Arbitration.Commands
import RightOfWay.Proofs.Arbitration.Compilation
import RightOfWay.Proofs.Arbitration.Departure
import RightOfWay.Proofs.Arbitration.InStep
import RightOfWay.Proofs.Command.RuleCheck
import RightOfWay.Proofs.Crossing.Elements
import RightOfWay.Proofs.Crossing.Outline
import RightOfWay.Proofs.Rules.Reordering
import RightOfWay.Proofs.Yielding.Alone
import RightOfWay.Proofs.Yielding.Barred
import RightOfWay.Proofs.Yielding.Occupancy
import RightOfWay.Proofs.Rules.Dependency
import RightOfWay.Proofs.Rules.Threshold
import RightOfWay.Proofs.Rules.Cutting
import RightOfWay.Proofs.Rules.Anonymous
import RightOfWay.Proofs.Rules.Concatenation
import RightOfWay.Proofs.Rules.Renumbering
import RightOfWay.Proofs.Arbitration.JournalText
import RightOfWay.Proofs.Arbitration.Record
import RightOfWay.Proofs.Rules.GroundAtoms
import RightOfWay.Proofs.Arbitration.Fates
import RightOfWay.Proofs.Arbitration.Selection
import RightOfWay.Proofs.Crossing.Revisions
import RightOfWay.Proofs.Oracle.Reports
import RightOfWay.Proofs.Crossing.Layouts
import RightOfWay.Proofs.Oracle.Answers
import RightOfWay.Proofs.Rules.Joining
import RightOfWay.Proofs.Rules.SourceLines
import RightOfWay.Proofs.Rules.Blame
