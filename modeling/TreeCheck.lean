import TreeCheck.Proofs.Check.Handover
import TreeCheck.Proofs.Check.Renaming
import TreeCheck.Proofs.Check.Reordering
import TreeCheck.Proofs.Check.Sight
import TreeCheck.Proofs.Check.Subtree
import TreeCheck.Proofs.Check.Supplied
import TreeCheck.Proofs.FunctionDraft
import TreeCheck.Proofs.Lineage
import TreeCheck.Proofs.Tree.Trace
import TreeCheck.Proofs.Tree.Traversal
import TreeCheck.Proofs.Units.Lines
import TreeCheck.Proofs.Units.Report
import TreeCheck.Proofs.Units.Settings
import TreeCheck.Tree.Equality
