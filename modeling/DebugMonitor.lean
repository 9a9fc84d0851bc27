import DebugMonitor.Main
import DebugMonitor.Bench.Step
import DebugMonitor.Proofs.Exchange
import DebugMonitor.Proofs.Interrupt
import DebugMonitor.Proofs.Text.Newlines
import DebugMonitor.Proofs.Numeral.Grammar
import DebugMonitor.Proofs.Numeral.Canonical
import DebugMonitor.Proofs.Memory.FlatStore
import DebugMonitor.Proofs.Memory.PowerGate
import DebugMonitor.Proofs.Memory.BusCycles
import DebugMonitor.Proofs.Memory.FlowControl
import DebugMonitor.Proofs.Memory.DataCell
import DebugMonitor.Proofs.Memory.UartTraffic
import DebugMonitor.Proofs.Bulk.Counting
import DebugMonitor.Proofs.Bulk.Regrouping
import DebugMonitor.Proofs.Bulk.WellFormed
import DebugMonitor.Proofs.Console.Joining
import DebugMonitor.Proofs.Console.Screen
import DebugMonitor.Proofs.Console.Refusal
import DebugMonitor.Proofs.Console.Failing
import DebugMonitor.Proofs.Station.OtherPage
import DebugMonitor.Proofs.Station.Agreement
import DebugMonitor.Proofs.Station.MemoryCommand
import DebugMonitor.Proofs.Station.Traceless
import DebugMonitor.Proofs.Station.Reset
import DebugMonitor.Proofs.Station.Detection
import DebugMonitor.Proofs.Station.LocationText
import DebugMonitor.Proofs.CommandLine.Transfer
import DebugMonitor.Proofs.CommandLine.Buffering
import DebugMonitor.Proofs.CommandLine.Scripted
