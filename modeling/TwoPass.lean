import TwoPass.Main
import TwoPass.Image.Recorder
import TwoPass.Source.Surveyor
import TwoPass.Symbol.History
import TwoPass.Proofs.Decoding
import TwoPass.Proofs.Failure
import TwoPass.Proofs.Placement
import TwoPass.Proofs.Image.Output
import TwoPass.Proofs.Symbol.Relocation
import TwoPass.Proofs.WarningLog
import TwoPass.Proofs.Listing
import TwoPass.Proofs.Modes
import TwoPass.Proofs.Reassembly
import TwoPass.Proofs.Session
import TwoPass.Proofs.SameSource
import TwoPass.Proofs.Command.Ending
import TwoPass.Proofs.Command.ExitCode
import TwoPass.Proofs.Command.Report
import TwoPass.Proofs.Source.Edit
import TwoPass.Proofs.Source.Counterpart
import TwoPass.Proofs.Correspondence
import TwoPass.Proofs.Comment
import TwoPass.Proofs.Locality
import TwoPass.Proofs.SegmentOrder
import TwoPass.Proofs.Operand.Renaming
import TwoPass.Proofs.Renaming
import TwoPass.Proofs.Symbol.History
import TwoPass.Proofs.LetterCase
import TwoPass.Proofs.Operand.Acceptance
import TwoPass.Proofs.Source.Writing
import TwoPass.Proofs.Source.Surveyor
import TwoPass.Proofs.Interruption
import TwoPass.Proofs.Source.WellFormed
import TwoPass.Proofs.Operand.MemoryForm
import TwoPass.Proofs.SymbolFile
import TwoPass.Proofs.Machine.Packing
import TwoPass.Proofs.Operand.Value
import TwoPass.Proofs.Source.Indentation
import TwoPass.Proofs.Spelling
