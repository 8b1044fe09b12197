import Featherweight.CommandLine.Run
import Featherweight.Eval.Fuel
import Featherweight.Expr.Outline
import Featherweight.Heap.Chain
import Featherweight.Main
import Featherweight.Text.Paint
import Featherweight.Proofs.Captured
import Featherweight.Proofs.OpenFrame
import Featherweight.Proofs.Simulation
import Featherweight.Proofs.Invariant
import Featherweight.Proofs.Reachable
import Featherweight.Proofs.Region
import Featherweight.Proofs.Task
import Featherweight.Proofs.Walk
import Featherweight.Proofs.WellFormed
import Featherweight.Proofs.Footprint
import Featherweight.Proofs.Lexical
import Featherweight.Proofs.Renumber
import Featherweight.Proofs.Correspondence
import Featherweight.Proofs.Relocation
import Featherweight.Proofs.Origin
import Featherweight.Proofs.Recheck
import Featherweight.Proofs.Provenance
import Featherweight.Proofs.Report
import Featherweight.Proofs.History
import Featherweight.Proofs.Names
import Featherweight.Proofs.Sequence
import Featherweight.Proofs.Event
import Featherweight.Proofs.Reset
import Featherweight.Proofs.Diagnostics
import Featherweight.Proofs.Form
import Featherweight.Proofs.Reading
import Featherweight.Proofs.Assignment
import Featherweight.Proofs.Rename
import Featherweight.Proofs.Equivariance
import Featherweight.Proofs.Padding
import Featherweight.Proofs.Unmentioned
import Featherweight.Proofs.SampleRuns
import Featherweight.Proofs.Ending
import Featherweight.Proofs.Loop
import Featherweight.Proofs.Call
import Featherweight.Proofs.Application
import Featherweight.Proofs.Division
import Featherweight.Proofs.Nodes
import Featherweight.Proofs.Lookup
import Featherweight.Proofs.Declaration
import Featherweight.Proofs.SampleResults
import Featherweight.Proofs.StraightLine
import Featherweight.Proofs.Counters
