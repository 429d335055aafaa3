import TensorParity.Artifact.Capture
import TensorParity.Artifact.File
import TensorParity.Artifact.Text
import TensorParity.Backend.Fault
import TensorParity.Backend.Process
import TensorParity.CommandLine.Run
import TensorParity.Comparison.Verdict
import TensorParity.Decimal.Notation
import TensorParity.Digest.Sha256
import TensorParity.File.System
import TensorParity.Fingerprint
import TensorParity.Generator
import TensorParity.Json.Decode
import TensorParity.Json.Printer
import TensorParity.Json.Reader
import TensorParity.Kernel.Conv2d
import TensorParity.Kernel.DeformConv2d
import TensorParity.Kernel.Pointwise
import TensorParity.Main
import TensorParity.Model.Layer
import TensorParity.Model.Run
import TensorParity.Proofs.Artifact.Acceptance
import TensorParity.Proofs.Artifact.Capture
import TensorParity.Proofs.Artifact.Checksum
import TensorParity.Proofs.Artifact.DeclaredKeys
import TensorParity.Proofs.Artifact.Diagnostics
import TensorParity.Proofs.Artifact.Recapture
import TensorParity.Proofs.Artifact.Staging
import TensorParity.Proofs.Artifact.UnknownField
import TensorParity.Proofs.Artifact.Wording
import TensorParity.Proofs.Backend.Loading
import TensorParity.Proofs.Backend.Readers
import TensorParity.Proofs.Backend.Transport
import TensorParity.Proofs.CommandLine.Groups
import TensorParity.Proofs.Comparison.Loosening
import TensorParity.Proofs.Comparison.Symmetry
import TensorParity.Proofs.Comparison.Verdict
import TensorParity.Proofs.Digest.Fingerprint
import TensorParity.Proofs.Generator.Streams
import TensorParity.Proofs.Kernel.Accumulation
import TensorParity.Proofs.Kernel.Border
import TensorParity.Proofs.Kernel.Buffers
import TensorParity.Proofs.Kernel.DeformedSum
import TensorParity.Proofs.Kernel.Entry
import TensorParity.Proofs.Kernel.Normalisation
import TensorParity.Proofs.Kernel.Samples
import TensorParity.Proofs.Kernel.Slice
import TensorParity.Proofs.Kernel.ZeroOffset
import TensorParity.Proofs.Model.Meaning
import TensorParity.Proofs.Model.Order
import TensorParity.Proofs.Record.Tensor
import TensorParity.Proofs.Scenario.Builtin
import TensorParity.Proofs.Scenario.Registry
import TensorParity.Proofs.Scenario.Selection
import TensorParity.Proofs.Suite.FileNames
import TensorParity.Proofs.Suite.Independence
import TensorParity.Proofs.Suite.LogLines
import TensorParity.Record.Node
import TensorParity.Record.Tensor
import TensorParity.Report.Fixture
import TensorParity.Scenario.Builtin
import TensorParity.Suite.Report
import TensorParity.Text.Blank
import TensorParity.Text.Utf8
