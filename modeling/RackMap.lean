import RackMap.Backend
import RackMap.Catalogue
import RackMap.CommandLine
import RackMap.Compilation
import RackMap.CompiledMap
import RackMap.Correction
import RackMap.Crosscheck
import RackMap.Decimal.Double
import RackMap.Decimal.Layout
import RackMap.Decimal.Numeral
import RackMap.Decimal.Shortest
import RackMap.Document.Config
import RackMap.Document.Connectivity
import RackMap.Document.Description
import RackMap.Document.Options
import RackMap.Document.Settings
import RackMap.Failure
import RackMap.Frequencies
import RackMap.Instrument.Fault
import RackMap.Instrument.Oscillators
import RackMap.Instrument.Qblox
import RackMap.Instrument.Settings
import RackMap.Instrument.Zhinst
import RackMap.Inventory
import RackMap.Journal
import RackMap.Json.Excerpt
import RackMap.Json.Fault
import RackMap.Json.Printer
import RackMap.Json.Reader
import RackMap.Json.Scan
import RackMap.Json.Skim
import RackMap.Json.Value
import RackMap.Main
import RackMap.OptionTable
import RackMap.Report
import RackMap.Session
import RackMap.Shape.Fault
import RackMap.Shape.Form
import RackMap.Shape.Reader
import RackMap.Signal.ChannelKind
import RackMap.Signal.ChannelPath
import RackMap.Signal.OscillatorRef
import RackMap.Signal.PortClock
import RackMap.Table
import RackMap.Text.Blank
import RackMap.Text.Cut
import RackMap.Text.Quoted
import RackMap.Text.Terminal
import RackMap.Text.Visible
import RackMap.Violation
import RackMap.Wiring
import RackMap.Proofs.Outcome
import RackMap.Proofs.Table
import RackMap.Proofs.Frequencies.Groups
import RackMap.Proofs.Inventory
import RackMap.Proofs.OptionTable.Given
import RackMap.Proofs.OptionTable
import RackMap.Proofs.OptionTable.Reach
import RackMap.Proofs.PortClock
import RackMap.Proofs.Wiring.Index
import RackMap.Proofs.Wiring.Walk
import RackMap.Proofs.Wiring.Document
import RackMap.Proofs.Frequencies.Resolution
import RackMap.Proofs.Crosscheck
import RackMap.Proofs.Crosscheck.Acceptance
import RackMap.Proofs.CompiledMap
import RackMap.Proofs.Compilation
import RackMap.Proofs.Coverage
import RackMap.Proofs.WrittenForms
import RackMap.Proofs.Oscillators
import RackMap.Proofs.Frequencies.Conflict
import RackMap.Proofs.Failures
import RackMap.Proofs.OptionTable.Keys
import RackMap.Proofs.OptionFrame
import RackMap.Proofs.UnusedOptions
import RackMap.Proofs.Shape.Form
import RackMap.Proofs.Document.Written
import RackMap.Proofs.Wiring.Leaves
import RackMap.Proofs.LeafReferences
import RackMap.Proofs.Json.Collapse
import RackMap.Proofs.Wiring.Written
import RackMap.Proofs.Wiring.Repeated
import RackMap.Proofs.WrittenLeaves
import RackMap.Proofs.Inventory.Units
import RackMap.Proofs.Inventory.Entering
import RackMap.Proofs.Inventory.Hiding
import RackMap.Proofs.Reading
import RackMap.Proofs.ClosedForm
import RackMap.Proofs.SettingsFrame
import RackMap.Proofs.Verdicts
import RackMap.Proofs.Wiring.Sound
import RackMap.Proofs.OptionTable.Reordering
import RackMap.Proofs.Frequencies.Reordering
import RackMap.Proofs.Reordering
import RackMap.Proofs.Wiring.Pruned
import RackMap.Proofs.Frequencies.Restriction
import RackMap.Proofs.Restriction
import RackMap.Proofs.BareEdges
import RackMap.Proofs.Wiring.Devices
import RackMap.Proofs.Wiring.Nested
import RackMap.Proofs.Inventory.Slots
import RackMap.Proofs.Interchange
import RackMap.Proofs.Instrument.Qblox
import RackMap.Proofs.Instrument.Zhinst
import RackMap.Proofs.Instrument.Placed
import RackMap.Proofs.Instrument.Faults
import RackMap.Proofs.Instrument.Programs
import RackMap.Proofs.Json.Numbers
import RackMap.Proofs.Numbers
import RackMap.Proofs.WrittenNumbers
import RackMap.Proofs.Instrument.Numbers
import RackMap.Proofs.Shape.Written
import RackMap.Proofs.OptionTable.Payloads
import RackMap.Proofs.OptionTable.Written
import RackMap.Proofs.Instrument.Provided
import RackMap.Proofs.Instrument.Registers
import RackMap.Proofs.Instrument.Outputs
import RackMap.Proofs.Instrument.Gains
import RackMap.Proofs.Instrument.Attenuators
import RackMap.Proofs.Instrument.Sequencers
import RackMap.Proofs.Instrument.Acceptance
import RackMap.Proofs.OpenFrequencies
import RackMap.Proofs.OscillatorGroups
import RackMap.Proofs.ResolvedOptions
import RackMap.Proofs.IntermediateFrequencies
import RackMap.Proofs.ClashingGroups
import RackMap.Proofs.Wiring.Places
import RackMap.Proofs.Wiring.Readable
import RackMap.Proofs.Wiring.Indexed
import RackMap.Proofs.OptionTable.Acceptance
import RackMap.Proofs.ChannelOscillators
import RackMap.Proofs.Text.Trimmed
import RackMap.Proofs.PortClock.Inverse
import RackMap.Proofs.Inventory.Channels
import RackMap.Proofs.Inventory.SlotNumbers
import RackMap.Proofs.Inventory.SlotsTaken
import RackMap.Proofs.OptionTable.Order
import RackMap.Proofs.Shape.Object
import RackMap.Proofs.Document.Connected
import RackMap.Proofs.OptionTable.Fields
