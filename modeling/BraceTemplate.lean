import BraceTemplate.Compile
import BraceTemplate.Macro.Stock
import BraceTemplate.Access.Stock
import BraceTemplate.Proofs.SourceText
import BraceTemplate.Proofs.Offender
import BraceTemplate.Proofs.Evaluation
import BraceTemplate.Proofs.Concatenation
import BraceTemplate.Proofs.Stream
import BraceTemplate.Proofs.Reporting
import BraceTemplate.Proofs.Visiting
import BraceTemplate.Proofs.Unrolling
import BraceTemplate.Proofs.PrintedPaths
import BraceTemplate.Proofs.Fusing
import BraceTemplate.Proofs.Consumption
import BraceTemplate.Proofs.Delegation
import BraceTemplate.Proofs.Compactness
import BraceTemplate.Proofs.Listings
import BraceTemplate.Proofs.Presence
import BraceTemplate.Proofs.Calling
import BraceTemplate.Proofs.Pieces
import BraceTemplate.Proofs.Quoting
import BraceTemplate.Proofs.Spelling
import BraceTemplate.Proofs.Claiming
import BraceTemplate.Proofs.Roots
import BraceTemplate.Proofs.Seams
import BraceTemplate.Proofs.Indices
import BraceTemplate.Proofs.NormalPaths
import BraceTemplate.Proofs.Flattening
