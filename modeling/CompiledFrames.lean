import CompiledFrames.Main
import CompiledFrames.Proofs.Unwind.Step
import CompiledFrames.Proofs.Unwind.Windows
import CompiledFrames.Proofs.Memory.Holds
import CompiledFrames.Proofs.Memory.Image
import CompiledFrames.Proofs.MethodRecord.Stored
import CompiledFrames.Proofs.Text.Utf8
import CompiledFrames.Proofs.MethodRecord.Walk
import CompiledFrames.Proofs.BytecodeTable
import CompiledFrames.Proofs.LineTable.Encoding
import CompiledFrames.Proofs.LineTable.Stored
import CompiledFrames.Proofs.Memory.Text
import CompiledFrames.Proofs.Method.Symbolication
import CompiledFrames.Proofs.LineTable.Distances
import CompiledFrames.Proofs.Method.Registry
import CompiledFrames.Proofs.Method.Calls
import CompiledFrames.Proofs.Unwind.Walk
import CompiledFrames.Proofs.Unwind.Progress
import CompiledFrames.Proofs.Memory.Segments
import CompiledFrames.Proofs.Memory.Mapping
import CompiledFrames.Proofs.Method.WithoutCode
import CompiledFrames.Proofs.Session.Compiling
import CompiledFrames.Proofs.LineTable.Range
import CompiledFrames.Proofs.MethodRecord.Probes
import CompiledFrames.Proofs.Session.Reloading
import CompiledFrames.Proofs.Json.Layout
import CompiledFrames.Proofs.Json.Tree
import CompiledFrames.Proofs.Snapshot.Document
import CompiledFrames.Proofs.Snapshot.RoundTrip
import CompiledFrames.Proofs.Unwind.Shape
import CompiledFrames.Proofs.Unwind.Dependence
import CompiledFrames.Proofs.BytecodeTable.Boundaries
import CompiledFrames.Proofs.BytecodeTable.Minimal
import CompiledFrames.Proofs.Symbol.Calls
import CompiledFrames.Proofs.Symbol.Resolution
import CompiledFrames.Proofs.Method.Lines
import CompiledFrames.Proofs.LineTable.Canonical
import CompiledFrames.Proofs.Symbol.Scan
import CompiledFrames.Proofs.Unwind.Trampoline
import CompiledFrames.Proofs.Unwind.Carried
import CompiledFrames.Proofs.Unwind.WordSize
import CompiledFrames.Proofs.Text.DigitPairs
import CompiledFrames.Proofs.Memory.EndOfMemory
import CompiledFrames.Proofs.Session.Extending
import CompiledFrames.Proofs.Session.Failures
import CompiledFrames.Proofs.FloorMap.Puts
import CompiledFrames.Proofs.Symbol.Relocation
import CompiledFrames.Proofs.Symbol.Names
import CompiledFrames.Proofs.MethodRecord.Offsets
import CompiledFrames.Proofs.Unwind.Landmarks
