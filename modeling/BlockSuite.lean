import BlockSuite.Collection
import BlockSuite.Json.Tagged
import BlockSuite.Main
import BlockSuite.Value.Member
import BlockSuite.Failure.Named
import BlockSuite.Proofs.Action
import BlockSuite.Proofs.Machine.Work
import BlockSuite.Proofs.Machine.Chain
import BlockSuite.Proofs.Machine.Record
import BlockSuite.Proofs.Machine.Layer
import BlockSuite.Proofs.Machine.Activation
import BlockSuite.Proofs.Machine.Propagation
import BlockSuite.Proofs.Machine.Keeps
import BlockSuite.Proofs.Machine.Frames
import BlockSuite.Proofs.Machine.Started
import BlockSuite.Proofs.Machine.Departure
import BlockSuite.Proofs.Machine.Capture
import BlockSuite.Proofs.Machine.Inside
import BlockSuite.Proofs.Machine.Logged
import BlockSuite.Proofs.Machine.Assertion
import BlockSuite.Proofs.Session.Course
import BlockSuite.Proofs.Session.Phase
import BlockSuite.Proofs.Session.Trial
import BlockSuite.Proofs.Session.Teardown
import BlockSuite.Proofs.Machine.Origin
import BlockSuite.Proofs.Session.Location
import BlockSuite.Proofs.Machine.Unrolling
import BlockSuite.Proofs.Machine.Contained
import BlockSuite.Proofs.Machine.WellFormed
import BlockSuite.Proofs.Machine.Own
import BlockSuite.Proofs.Machine.Carried
import BlockSuite.Proofs.Machine.Placed
import BlockSuite.Proofs.Machine.Collected
import BlockSuite.Proofs.Machine.Ledger
import BlockSuite.Proofs.Machine.Cancelled
import BlockSuite.Proofs.Machine.Bracketed
import BlockSuite.Proofs.Aloof
import BlockSuite.Proofs.Library
import BlockSuite.Proofs.Machine.Ends
import BlockSuite.Proofs.Machine.Modes
import BlockSuite.Proofs.Modes
import BlockSuite.Proofs.Name
import BlockSuite.Proofs.Template
import BlockSuite.Proofs.Json
import BlockSuite.Proofs.Procedure
import BlockSuite.Proofs.Number
import BlockSuite.Proofs.Spelling
import BlockSuite.Proofs.Portable
import BlockSuite.Proofs.Elementary
import BlockSuite.Proofs.Likeness
import BlockSuite.Proofs.Alike
import BlockSuite.Proofs.Machine.Inputs
import BlockSuite.Proofs.Machine.Call
import BlockSuite.Proofs.Machine.Passing
import BlockSuite.Proofs.Machine.Reference
import BlockSuite.Proofs.Machine.Simulation
import BlockSuite.Proofs.Machine.Alike
import BlockSuite.Proofs.Machine.Invocation
import BlockSuite.Proofs.Machine.Steady
import BlockSuite.Proofs.Machine.Faultless
import BlockSuite.Proofs.Machine.Documented
import BlockSuite.Proofs.Machine.Observed
import BlockSuite.Proofs.Plain
import BlockSuite.Proofs.Session.Whole
import BlockSuite.Proofs.Session.Alike
import BlockSuite.Proofs.Session.Steady
import BlockSuite.Proofs.Session.Isolation
import BlockSuite.Proofs.Session.Shape
import BlockSuite.Proofs.Session.Cleanup
import BlockSuite.Proofs.Session.Faultless
import BlockSuite.Proofs.Registry
import BlockSuite.Proofs.Environment
import BlockSuite.Proofs.Step
import BlockSuite.Proofs.Collection
import BlockSuite.Proofs.Content
import BlockSuite.Proofs.Decimal
import BlockSuite.Proofs.Machine.Comparison
import BlockSuite.Proofs.Respelling
import BlockSuite.Proofs.Report
import BlockSuite.Proofs.Path
import BlockSuite.Proofs.Placeholder
import BlockSuite.Proofs.Rendering
import BlockSuite.Proofs.Resolution
import BlockSuite.Proofs.Machine.Variable
import BlockSuite.Proofs.Plugin
import BlockSuite.Proofs.Reading
import BlockSuite.Proofs.Margin
import BlockSuite.Proofs.Arguments
import BlockSuite.Proofs.Trimming
import BlockSuite.Proofs.Heading
import BlockSuite.Proofs.Pattern
import BlockSuite.Proofs.Rounding
import BlockSuite.Proofs.Range
import BlockSuite.Proofs.Lines
import BlockSuite.Proofs.Table
import BlockSuite.Proofs.Machine.Height
import BlockSuite.Proofs.Pointing
import BlockSuite.Proofs.Shielding
import BlockSuite.Proofs.Casing
import BlockSuite.Proofs.Custom
