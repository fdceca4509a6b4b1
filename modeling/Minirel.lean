import Minirel.Buffer.Basic
import Minirel.Buffer.Store
import Minirel.Buffer.Manager
import Minirel.Buffer.Clock
import Minirel.Buffer.Termination
import Minirel.Buffer.Residency
import Minirel.Buffer.SecondChance
import Minirel.Buffer.Calls
import Minirel.Buffer.Flush
import Minirel.Buffer.Pins
import Minirel.Buffer.Cell
import Minirel.Buffer.Coherence
import Minirel.Buffer.Stable
import Minirel.Buffer.Progress
import Minirel.Buffer.Shutdown
import Minirel.Heap.Page
import Minirel.Heap.File
import Minirel.Heap.Scan
import Minirel.Heap.Predicate
import Minirel.Heap.Chain
import Minirel.Heap.Header
import Minirel.Heap.Cursor
import Minirel.Heap.Ledger
import Minirel.Heap.ScanLedger
import Minirel.Heap.ScanOrder
import Minirel.Heap.MarkReset
import Minirel.Heap.ScanProgress
import Minirel.Heap.Create
import Minirel.Heap.Append
import Minirel.Heap.Lookup
import Minirel.Heap.Delete
