import Scratchpad.Config.Written
import Scratchpad.Main
import Scratchpad.Proofs.Config.Documents
import Scratchpad.Proofs.Debouncing
import Scratchpad.Proofs.Entry
import Scratchpad.Proofs.Log.Arrival
import Scratchpad.Proofs.Log.Batching
import Scratchpad.Proofs.Log.Classification
import Scratchpad.Proofs.Log.Fragments
import Scratchpad.Proofs.Log.Updates
import Scratchpad.Proofs.Marking.EncodingMark
import Scratchpad.Proofs.Marking.LineNumbers
import Scratchpad.Proofs.Run.Account
import Scratchpad.Proofs.Run.Conservation
import Scratchpad.Proofs.Run.Delivery
import Scratchpad.Proofs.Run.Exchange
import Scratchpad.Proofs.Run.Failure
import Scratchpad.Proofs.Run.Independence
import Scratchpad.Proofs.Run.Lateness
import Scratchpad.Proofs.Run.Lifetime
import Scratchpad.Proofs.Run.Noninterference
import Scratchpad.Proofs.Run.OwnCode
import Scratchpad.Proofs.Run.Progress
import Scratchpad.Proofs.Run.Staleness
import Scratchpad.Proofs.Sandbox.Alike
import Scratchpad.Proofs.Sandbox.Unread
import Scratchpad.Proofs.Slot.Grammar
import Scratchpad.Proofs.Slot.Observation
import Scratchpad.Proofs.Tool.Precedence
import Scratchpad.Proofs.TypeScript.Excerpt
import Scratchpad.Proofs.TypeScript.Labels
import Scratchpad.Text.Offset
