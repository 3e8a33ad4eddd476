import SassNesting.CommandLine.Run
import SassNesting.Files.Workspace
import SassNesting.Main
import SassNesting.Node.Address
import SassNesting.Proofs.CommandLine.Arguments
import SassNesting.Proofs.CommandLine.Directories
import SassNesting.Proofs.CommandLine.Effects
import SassNesting.Proofs.CommandLine.Inputs
import SassNesting.Proofs.Document.Comments
import SassNesting.Proofs.Document.Completeness
import SassNesting.Proofs.Document.Concatenation
import SassNesting.Proofs.Document.Ignored
import SassNesting.Proofs.Document.Imports
import SassNesting.Proofs.Document.Locality
import SassNesting.Proofs.Document.Log
import SassNesting.Proofs.Document.LongestGap
import SassNesting.Proofs.Files.Directory
import SassNesting.Proofs.Files.Path
import SassNesting.Proofs.Files.Workspace
import SassNesting.Proofs.Node.Outline
import SassNesting.Proofs.Regrouping.Depth
import SassNesting.Proofs.Regrouping.Ends
import SassNesting.Proofs.Regrouping.Renesting
import SassNesting.Proofs.Regrouping.Resplitting
import SassNesting.Proofs.Regrouping.Shape
import SassNesting.Proofs.Regrouping.Unshared
import SassNesting.Proofs.Sass.Readable
import SassNesting.Proofs.Text.Bytes
