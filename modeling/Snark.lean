import Snark.Abi.Call
import Snark.Abi.Point
import Snark.Abi.Word
import Snark.Bn254.Extension
import Snark.Bn254.Field
import Snark.Bn254.Pairing
import Snark.Bn254.Point
import Snark.Bytes
import Snark.Container.Framing
import Snark.Container.Reader
import Snark.Curve
import Snark.Double
import Snark.Draft
import Snark.Exchange.Document
import Snark.Exchange.Point
import Snark.Failure
import Snark.Fault
import Snark.Field.Modular
import Snark.Field.Residue
import Snark.Fnv
import Snark.Fourier
import Snark.Fourier.Network
import Snark.Groth16.Bounded
import Snark.Groth16.Prove
import Snark.Groth16.Setup
import Snark.Groth16.Term
import Snark.Groth16.Verify
import Snark.Group
import Snark.Json.Integer
import Snark.Json.Parser
import Snark.Json.Printer
import Snark.Json.Value
import Snark.Key.Basic
import Snark.Key.File
import Snark.Key.PointCodec
import Snark.Length
import Snark.Montgomery
import Snark.Position
import Snark.Program.Module
import Snark.Program.Samples
import Snark.Program.Scripted
import Snark.Report
import Snark.RootsOfUnity
import Snark.Sandbox.Machine
import Snark.Sandbox.Memory
import Snark.Sandbox.Slots
import Snark.Settings
import Snark.Slot
import Snark.Symbol.File
import Snark.Symbol.Table
import Snark.System.Assignment
import Snark.System.Basic
import Snark.System.File
import Snark.Text.Basic
import Snark.Text.Blank
import Snark.Text.Digit
import Snark.Text.Numeral
import Snark.Text.Printable
import Snark.Text.Quoted
import Snark.Text.Utf8
import Snark.Witness.Builder
import Snark.Witness.Calculator
import Snark.Witness.Input
import Snark.Proofs.Field.Algebra
import Snark.Proofs.Field.Prime
import Snark.Proofs.Fourier.Root
import Snark.Proofs.Fourier.Transform
import Snark.Proofs.Fourier.Inversion
import Snark.Proofs.Fourier.Network
import Snark.Proofs.Groth16.Lagrange
import Snark.Proofs.Position
import Snark.Proofs.System.Evaluation
import Snark.Proofs.Groth16.Matrix
import Snark.Proofs.Groth16.Quotient
import Snark.Proofs.Groth16.Domain
import Snark.Proofs.Groth16.Scalars
import Snark.Proofs.Groth16.Acceptance
import Snark.Proofs.Groth16.Hiding
import Snark.Proofs.Groth16.Recovery
import Snark.Proofs.Container.Reading
import Snark.Proofs.Montgomery
import Snark.Proofs.Bytes
import Snark.Proofs.Container.Framing
import Snark.Proofs.Container.Codec
import Snark.Proofs.Container.Spelling
import Snark.Proofs.Key.Codec
import Snark.Proofs.Key.Section
import Snark.Proofs.Key.Header
import Snark.Proofs.Key.Layout
import Snark.Proofs.Key.Writing
import Snark.Proofs.Key.File
import Snark.Proofs.Key.Stored
import Snark.Proofs.System.Grammar
import Snark.Proofs.System.File
import Snark.Proofs.Groth16.Inputs
import Snark.Proofs.Bn254.Extension
import Snark.Proofs.Bn254.Curve
import Snark.Proofs.Groth16.Storage
import Snark.Proofs.Groth16.Rows
import Snark.Proofs.Groth16.Alignment
import Snark.Proofs.Sandbox.Agreement
import Snark.Proofs.Witness.Agreement
import Snark.Proofs.Sandbox.Memory
import Snark.Proofs.Sandbox.Slots
import Snark.Proofs.Witness.Cursor
import Snark.Proofs.Witness.History
import Snark.Proofs.Sandbox.Recording
import Snark.Proofs.Slot
import Snark.Proofs.Witness.Input
import Snark.Proofs.Witness.Delivery
import Snark.Proofs.Failure
import Snark.Proofs.Abi.Word
import Snark.Proofs.Abi.Layout
import Snark.Proofs.Container.Agreement
import Snark.Proofs.Container.Placement
import Snark.Proofs.Container.Truncation
import Snark.Proofs.Container.RoundTrip
import Snark.Proofs.Text.Numeral
import Snark.Proofs.Exchange.Point
import Snark.Proofs.Exchange.Document
import Snark.Proofs.Abi.Correspondence
import Snark.Proofs.Bn254.Coordinates
import Snark.Proofs.Abi.Calldata
import Snark.Proofs.Witness.Canonical
import Snark.Proofs.Container.Session
import Snark.Proofs.Container.Cursor
import Snark.Proofs.Sandbox.Scratch
import Snark.Proofs.Key.Sizes
import Snark.Proofs.Exchange.Reporting
import Snark.Proofs.Witness.Builder
import Snark.Proofs.Symbol.Table
import Snark.Proofs.Text.Blank
import Snark.Proofs.Symbol.File
import Snark.Proofs.Groth16.Strict
import Snark.Proofs.Groth16.Bounded
import Snark.Proofs.Double
import Snark.Proofs.Json.Parser
import Snark.Proofs.Exchange.Reading
