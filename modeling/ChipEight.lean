import ChipEight.Instruction.Encoding
import ChipEight.Main
import ChipEight.Proofs.Shape
import ChipEight.Proofs.Spelling
import ChipEight.Proofs.Effect
import ChipEight.Proofs.Invariant
import ChipEight.Proofs.Failure
import ChipEight.Proofs.HostFault
import ChipEight.Proofs.Invocation
import ChipEight.Proofs.Calls
import ChipEight.Proofs.Loading
import ChipEight.Proofs.Waiting
import ChipEight.Proofs.Commuting
import ChipEight.Proofs.Overwriting
import ChipEight.Proofs.Picture
import ChipEight.Proofs.Painting
import ChipEight.Proofs.Showing
import ChipEight.Proofs.Footprint
import ChipEight.Proofs.Replay
import ChipEight.Proofs.Succession
import ChipEight.Proofs.Tracing
import ChipEight.Proofs.Reordering
import ChipEight.Proofs.Stamping
import ChipEight.Proofs.Arithmetic
import ChipEight.Proofs.Countdown
import ChipEight.Proofs.Fetching
import ChipEight.Proofs.Transfers
import ChipEight.Proofs.Deciphering
import ChipEight.Proofs.Dumping
import ChipEight.Proofs.Holding
import ChipEight.Proofs.Scanning
import ChipEight.Proofs.Splitting
