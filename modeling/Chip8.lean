import Chip8.Main
import Chip8.Proofs.Assembly
import Chip8.Proofs.Bare.Run
import Chip8.Proofs.Countdown
import Chip8.Proofs.Counter
import Chip8.Proofs.Dialects
import Chip8.Proofs.DrawStep
import Chip8.Proofs.FaultHistory
import Chip8.Proofs.Frame
import Chip8.Proofs.HeldKeys
import Chip8.Proofs.HighBits
import Chip8.Proofs.KeyEvents
import Chip8.Proofs.KeyWait
import Chip8.Proofs.LastWriter
import Chip8.Proofs.Listing
import Chip8.Proofs.ListingOffset
import Chip8.Proofs.Observation
import Chip8.Proofs.Operands
import Chip8.Proofs.Redraw
import Chip8.Proofs.Rendering
import Chip8.Proofs.Restart
import Chip8.Proofs.Strokes
import Chip8.Proofs.Subroutine
import Chip8.Proofs.Transfer
import Chip8.Proofs.Waiting
