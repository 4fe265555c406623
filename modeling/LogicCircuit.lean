import LogicCircuit.Main
import LogicCircuit.Description.Lexer
import LogicCircuit.Proofs.Device.Respond
import LogicCircuit.Proofs.Netlist.Lookup
import LogicCircuit.Proofs.Action
import LogicCircuit.Proofs.Netlist.Settling
import LogicCircuit.Proofs.Symbol
import LogicCircuit.Proofs.Vocabulary
import LogicCircuit.Proofs.Netlist.FixedPoint
import LogicCircuit.Proofs.Device.Make
import LogicCircuit.Proofs.Netlist.Assembly
import LogicCircuit.Proofs.Netlist.Progress
import LogicCircuit.Proofs.Netlist.Invariant
import LogicCircuit.Proofs.Depth
import LogicCircuit.Proofs.Netlist.Timing
import LogicCircuit.Proofs.Netlist.Acyclic
import LogicCircuit.Proofs.Netlist.Latching
import LogicCircuit.Proofs.Netlist.Reordering
import LogicCircuit.Proofs.Netlist.Part
import LogicCircuit.Proofs.Description.Declared
import LogicCircuit.Proofs.Description.Drawing
import LogicCircuit.Proofs.Description.Grounding
import LogicCircuit.Proofs.Description.Steps
import LogicCircuit.Proofs.Description.Passing
import LogicCircuit.Proofs.Description.Stream
import LogicCircuit.Proofs.Description.DeviceEntry
import LogicCircuit.Proofs.Description.OutputPin
import LogicCircuit.Proofs.Description.ConnectionEntry
import LogicCircuit.Proofs.Description.MonitorEntry
import LogicCircuit.Proofs.Description.Sections
import LogicCircuit.Proofs.Description.Realising
import LogicCircuit.Proofs.Description.Closing
import LogicCircuit.Proofs.Description.Whole
import LogicCircuit.Proofs.Description.Compile
import LogicCircuit.Proofs.Circuit.Run
import LogicCircuit.Proofs.Circuit.Reordering
import LogicCircuit.Proofs.Circuit.Locality
import LogicCircuit.Proofs.Netlist.Reached
import LogicCircuit.Proofs.Netlist.FlipFlops
import LogicCircuit.Proofs.Circuit.Calls
import LogicCircuit.Proofs.Description.Assembly
import LogicCircuit.Proofs.Description.GroundSwitch
import LogicCircuit.Proofs.Netlist.Course
import LogicCircuit.Proofs.Netlist.Restless
import LogicCircuit.Proofs.Netlist.ColdStart
import LogicCircuit.Proofs.Netlist.Definite
import LogicCircuit.Proofs.Circuit.Course
import LogicCircuit.Proofs.Circuit.Composition
import LogicCircuit.Proofs.Circuit.Oscillation
import LogicCircuit.Proofs.Circuit.Operations
import LogicCircuit.Proofs.Circuit.Forgetting
import LogicCircuit.Proofs.Circuit.History
import LogicCircuit.Proofs.Description.Oscillation
import LogicCircuit.Proofs.Description.Operations
import LogicCircuit.Proofs.Description.Printing
import LogicCircuit.Proofs.Circuit.Limit
import LogicCircuit.Proofs.Netlist.Editing
import LogicCircuit.Proofs.Matching
import LogicCircuit.Proofs.Device.Matching
import LogicCircuit.Proofs.Netlist.Matching
import LogicCircuit.Proofs.Circuit.Matching
import LogicCircuit.Proofs.Description.Matching
import LogicCircuit.Proofs.Description.Lockstep
import LogicCircuit.Proofs.Description.Interned
import LogicCircuit.Proofs.Text.Place
import LogicCircuit.Proofs.Description.Calls
import LogicCircuit.Proofs.Description.Blanking
import LogicCircuit.Proofs.Description.Places
import LogicCircuit.Proofs.Description.Tracing
import LogicCircuit.Proofs.Description.Carets
import LogicCircuit.Proofs.Description.Counting
import LogicCircuit.Proofs.Netlist.Holding
import LogicCircuit.Proofs.Device.Waveform
import LogicCircuit.Proofs.Netlist.Sources
import LogicCircuit.Proofs.Circuit.Waveform
import LogicCircuit.Proofs.Netlist.Domain
import LogicCircuit.Proofs.Description.Domain
import LogicCircuit.Proofs.Circuit.Overriding
import LogicCircuit.Proofs.Command.Arguments
import LogicCircuit.Proofs.Command.Agreement
import LogicCircuit.Proofs.Netlist.Joining
import LogicCircuit.Proofs.Description.Coming
import LogicCircuit.Proofs.Description.NeedlessPin
import LogicCircuit.Proofs.Description.FanOut
import LogicCircuit.Proofs.Description.Recovery
import LogicCircuit.Proofs.Netlist.Unwired
import LogicCircuit.Proofs.Netlist.Edges
import LogicCircuit.Proofs.Description.Edges
import LogicCircuit.Proofs.Description.Validation
import LogicCircuit.Proofs.Netlist.Grounding
import LogicCircuit.Proofs.Description.Declaring
import LogicCircuit.Proofs.Description.Floating
import LogicCircuit.Proofs.Description.Following
import LogicCircuit.Proofs.Description.Walking
import LogicCircuit.Proofs.Description.Ending
import LogicCircuit.Proofs.Description.Order
import LogicCircuit.Proofs.Netlist.Verdict
import LogicCircuit.Proofs.Text.Columns
import LogicCircuit.Proofs.Circuit.Display
import LogicCircuit.Proofs.Description.Display
import LogicCircuit.Proofs.Circuit.Listing
import LogicCircuit.Proofs.Description.Listing
import LogicCircuit.Proofs.Description.AbsentPin
import LogicCircuit.Proofs.Description.Words
import LogicCircuit.Proofs.Interning
