import Disasm8086.Encoding.Encode
import Disasm8086.Main
import Disasm8086.Proofs.Accepts
import Disasm8086.Proofs.Format
import Disasm8086.Proofs.Reading
import Disasm8086.Proofs.Lines
import Disasm8086.Proofs.Segments
import Disasm8086.Proofs.Factorization
import Disasm8086.Proofs.Truncation
import Disasm8086.Proofs.Alias
import Disasm8086.Proofs.Standard
import Disasm8086.Proofs.Locality
import Disasm8086.Proofs.Concatenation
import Disasm8086.Proofs.Extension
import Disasm8086.Proofs.Tiling
import Disasm8086.Proofs.Loop
import Disasm8086.Proofs.Log
import Disasm8086.Proofs.Trace
import Disasm8086.Proofs.Outcome
import Disasm8086.Proofs.Verdict
import Disasm8086.Proofs.Takes
import Disasm8086.Proofs.Typing
import Disasm8086.Proofs.Displacement
import Disasm8086.Proofs.Plan
import Disasm8086.Proofs.Window
import Disasm8086.Proofs.History
