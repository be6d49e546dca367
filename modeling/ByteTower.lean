import ByteTower.Bytes.Pattern
import ByteTower.Main
import ByteTower.Session.Handles
import ByteTower.Session.Register
import ByteTower.Session.Run
import ByteTower.Proofs.Bytes
import ByteTower.Proofs.Computation
import ByteTower.Proofs.Contract
import ByteTower.Proofs.Memory
import ByteTower.Proofs.Region
import ByteTower.Proofs.Window
import ByteTower.Proofs.ReadAhead
import ByteTower.Proofs.WriteBehind
import ByteTower.Proofs.BlockView
import ByteTower.Proofs.Tower
import ByteTower.Proofs.Media
import ByteTower.Proofs.Transfer
import ByteTower.Proofs.Request
import ByteTower.Proofs.Coherence
import ByteTower.Proofs.Ledger
import ByteTower.Proofs.WriteOrder
import ByteTower.Proofs.Mimicry
import ByteTower.Proofs.Stream
import ByteTower.Proofs.Blocks
import ByteTower.Proofs.Call
import ByteTower.Proofs.Transparency
import ByteTower.Proofs.Keeping
import ByteTower.Proofs.Run
import ByteTower.Proofs.ReadContract
import ByteTower.Proofs.Tally
import ByteTower.Proofs.Delivery
import ByteTower.Proofs.Handles
import ByteTower.Proofs.Closing
import ByteTower.Proofs.Shift
import ByteTower.Proofs.Imitation
import ByteTower.Proofs.Chart
import ByteTower.Proofs.Edits
import ByteTower.Proofs.Tracking
import ByteTower.Proofs.Splicing
import ByteTower.Proofs.Interruption
import ByteTower.Proofs.Refusal
import ByteTower.Proofs.Sharing
import ByteTower.Proofs.Operation
import ByteTower.Proofs.Directory
import ByteTower.Proofs.Agreement
import ByteTower.Proofs.Seen
import ByteTower.Proofs.Tasks
import ByteTower.Proofs.CommandLine
import ByteTower.Proofs.Checked
import ByteTower.Proofs.CheckedTransfer
import ByteTower.Proofs.CheckedReadAhead
import ByteTower.Proofs.CheckedWriteBehind
import ByteTower.Proofs.CheckedBlocks
import ByteTower.Proofs.CheckedMedia
import ByteTower.Proofs.CheckedTower
import ByteTower.Proofs.BlockTransfer
import ByteTower.Proofs.Watching
import ByteTower.Proofs.Coalescing
import ByteTower.Proofs.Batching
import ByteTower.Proofs.Prefetch
import ByteTower.Proofs.Reader
import ByteTower.Proofs.Filling
import ByteTower.Proofs.Draining
import ByteTower.Proofs.Feeding
import ByteTower.Proofs.Registry
import ByteTower.Proofs.History
import ByteTower.Proofs.LastWriter
import ByteTower.Proofs.Positions
import ByteTower.Proofs.HexDump
