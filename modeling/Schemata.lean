import Schemata.Json.Writer
import Schemata.Json.Reader
import Schemata.Schema.Compile
import Schemata.Unicode.Cluster
import Schemata.CommandLine.Arguments
import Schemata.CommandLine.Run
import Schemata.Main
import Schemata.Proofs.Schema.Defaults
import Schemata.Proofs.Report.Positions
import Schemata.Proofs.Schema.Correctness
import Schemata.Proofs.Schema.Dispatch
import Schemata.Proofs.Schema.Safety
import Schemata.Proofs.Schema.Failure
import Schemata.Proofs.Number.Whole
import Schemata.Proofs.Schema.Congruence
import Schemata.Proofs.Schema.Unread
import Schemata.Proofs.Schema.Filling
import Schemata.Proofs.Validator.Position
import Schemata.Proofs.Schema.Policies
import Schemata.Proofs.Report.Independence
import Schemata.Proofs.Schema.Demands
import Schemata.Proofs.Store.Sessions
import Schemata.Proofs.Validator.Keyed
import Schemata.Proofs.Value.Covering
import Schemata.Proofs.Schema.Intersection
import Schemata.Proofs.Schema.Faults
import Schemata.Proofs.Schema.Undefaulted
import Schemata.Proofs.Schema.Literals
import Schemata.Proofs.Schema.Positional
import Schemata.Proofs.Schema.Files
import Schemata.Proofs.Schema.PlainKeys
import Schemata.Proofs.Value.Multiples
import Schemata.Proofs.Value.Equivalence
import Schemata.Proofs.Schema.Elements
import Schemata.Proofs.Schema.Shape
import Schemata.Proofs.Source.Closest
import Schemata.Proofs.Source.Supply
import Schemata.Proofs.Schema.Latch
import Schemata.Proofs.Text.Unbroken
import Schemata.Proofs.Validator.Messages
import Schemata.Proofs.Schema.Messages
import Schemata.Proofs.Report.Lines
import Schemata.Proofs.Schema.Unmoved
import Schemata.Proofs.Pointer.Ancestry
import Schemata.Proofs.Schema.Chain
