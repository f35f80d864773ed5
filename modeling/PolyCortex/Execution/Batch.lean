import PolyCortex.Coroutine.Pool
import PolyCortex.Data.JsonValue

/-!
# Batches of orders

`BatchOrderManager`: orders are added to a list of pending ones, and `flush` submits them in batches, in
one call to the exchange or, when the client has no such call, one by one. The methods are coroutines
that await the exchange; in between, other tasks may add, clear and flush.

A `BatchRun` is the manager with a record of the orders that have left the pending ones. The times that
only log lines and `elapsed_ms` tell are left out.
-/

namespace PolyCortex

open Coroutine (get modify modifyGet)

/-- A single order waiting to be batched. -/
structure PendingOrder where
  tokenId : String
  price : ℚ
  size : ℚ
  side : String
  deriving DecidableEq

/-- What the exchange is told about an order. -/
structure OrderDict where
  tokenID : String
  price : ℚ
  size : ℚ
  side : String

def PendingOrder.toDict (order : PendingOrder) : OrderDict where
  tokenID := order.tokenId
  price := order.price
  size := order.size
  side := order.side

/-- Result of a batch submission. -/
structure BatchResult where
  batchId : ℤ
  submittedCount : ℤ
  successCount : ℤ
  failedCount : ℤ
  exchangeOrderIds : List PersistedValue
  errors : List String

/-! ### The manager -/

/-- The client: none, one without a call for batches, or one with it. -/
inductive BatchClob where
  | none
  | sequential
  | batching
  deriving DecidableEq

/-- `MAX_BATCH_SIZE`. -/
def maxBatchSizeLimit : ℤ := 15

/-- What the constructor sets once. It bounds the size of a batch from above. -/
structure BatchConfig where
  clob : BatchClob
  maxBatchSize : ℤ
  dryRun : Bool
  maxBatchSize_le : maxBatchSize ≤ maxBatchSizeLimit

/-- `BatchOrderManager.__init__`. -/
def BatchConfig.init (clob : BatchClob) (maxBatchSize : ℤ) (dryRun : Bool) : BatchConfig where
  clob := clob
  maxBatchSize := min maxBatchSize maxBatchSizeLimit
  dryRun := dryRun
  maxBatchSize_le := min_le_right _ _

structure BatchOrderManager where
  pending : List PendingOrder := []
  batchCounter : ℤ := 0
  totalSubmitted : ℤ := 0
  totalSucceeded : ℤ := 0
  totalFailed : ℤ := 0

/-- Where a slice with the bound `k` cuts a list: a negative bound counts from the end. -/
def sliceIndex (k : ℤ) (length : ℕ) : ℕ := (if 0 ≤ k then k else length + k).toNat

/-- `xs[:k]`. -/
def headSlice {α : Type} (k : ℤ) (xs : List α) : List α := xs.take (sliceIndex k xs.length)

/-- `xs[k:]`. -/
def tailSlice {α : Type} (k : ℤ) (xs : List α) : List α := xs.drop (sliceIndex k xs.length)

namespace BatchOrderManager

def add (order : PendingOrder) (m : BatchOrderManager) : BatchOrderManager :=
  { m with pending := m.pending ++ [order] }

def clear (m : BatchOrderManager) : BatchOrderManager := { m with pending := [] }

/-- Cut the next batch off the pending orders. -/
def takeBatch (config : BatchConfig) (m : BatchOrderManager) : List PendingOrder × BatchOrderManager :=
  (headSlice config.maxBatchSize m.pending,
    { m with pending := tailSlice config.maxBatchSize m.pending })

def nextBatch (m : BatchOrderManager) : BatchOrderManager :=
  { m with batchCounter := m.batchCounter + 1 }

/-- The cumulative statistics after a batch. -/
def count (submitted succeeded failed : ℤ) (m : BatchOrderManager) : BatchOrderManager :=
  { m with
    totalSubmitted := m.totalSubmitted + submitted
    totalSucceeded := m.totalSucceeded + succeeded
    totalFailed := m.totalFailed + failed }

end BatchOrderManager

/-! ### What happens to the orders -/

/-- Orders that have left the pending ones together. -/
inductive Removal where
  | cleared (orders : List PendingOrder)
  | batch (orders : List PendingOrder)

def Removal.orders : Removal → List PendingOrder
  | .cleared orders => orders
  | .batch orders => orders

def Removal.batch? : Removal → Option (List PendingOrder)
  | .cleared _ => none
  | .batch orders => some orders

/-- The manager, and how orders have left its pending ones so far. -/
structure BatchRun where
  manager : BatchOrderManager := {}
  removals : List Removal := []

namespace BatchRun

def onManager (f : BatchOrderManager → BatchOrderManager) (s : BatchRun) : BatchRun :=
  { s with manager := f s.manager }

def clear (s : BatchRun) : BatchRun where
  manager := s.manager.clear
  removals := s.removals ++ [.cleared s.manager.pending]

def takeBatch (config : BatchConfig) (s : BatchRun) : List PendingOrder × BatchRun :=
  let (batch, manager) := s.manager.takeBatch config
  (batch, { manager, removals := s.removals ++ [.batch batch] })

/-- The submitted batches, in order. -/
def batches (s : BatchRun) : List (List PendingOrder) := s.removals.filterMap Removal.batch?

end BatchRun

/-! ### The methods -/

inductive BatchInquiry where
  | sleep (seconds : ℚ)
  | createAndPostBatchOrder (orders : List OrderDict)
  | createAndPostOrder (order : OrderDict)

/-- What comes of a call in time: a response, a `TimeoutError`, or another exception. -/
inductive Posted where
  | response (value : PersistedValue)
  | timedOut (text : String)
  | raised (text : String)

abbrev BatchInquiry.Reply : BatchInquiry → Type
  | .sleep _ => Unit
  | .createAndPostBatchOrder _ => Posted
  | .createAndPostOrder _ => Posted

abbrev BatchProgram := Coroutine BatchRun BatchInquiry BatchInquiry.Reply

/-- `exchange_ids_live` and `errors`. -/
structure Submission where
  exchangeIds : List PersistedValue := []
  errors : List String := []

namespace Submission

/-- The ids in the response to a batch. -/
def ofBatchResponse (batchId : ℤ) : PersistedValue → Submission
  | .obj fields =>
    let orderIds := (fields.lookup "orderIDs").getD (.arr [])
    match orderIds.iterate with
    | .ok exchangeIds => { exchangeIds }
    | .error _ =>
      { errors := [s!"Batch #{batchId}: '{orderIds.typeName}' object is not iterable"] }
  | .arr items =>
    { exchangeIds := (items.filterMap fun
        | .obj fields => fields.lookup "orderID"
        | _ => none).filter PersistedValue.truthy }
  | _ => {}

def ofBatch (batchId : ℤ) : Posted → Submission
  | .response value => ofBatchResponse batchId value
  | .timedOut _ => { errors := [s!"Batch #{batchId} timed out after 30s"] }
  | .raised text => { errors := [s!"Batch #{batchId}: {text}"] }

/-- After the `i`-th order, submitted by itself. -/
def afterOrder (i : ℕ) (submission : Submission) : Posted → Submission
  | .response (.obj fields) =>
    let oid := ((fields.lookup "orderID").getD .null).or ((fields.lookup "order_id").getD (.str ""))
    if oid.truthy then { submission with exchangeIds := submission.exchangeIds ++ [oid] } else submission
  | .response _ => submission
  | .timedOut text | .raised text =>
    { submission with errors := submission.errors ++ [s!"Order {i}: {text}"] }

end Submission

/-- Submit the orders one by one, from the `i`-th on. -/
def postSequentially (submission : Submission) : ℕ → List OrderDict → BatchProgram Submission
  | _, [] => pure submission
  | i, order :: orders => do
    let posted ← Coroutine.ask (.createAndPostOrder order)
    if orders ≠ [] then
      let _ ← Coroutine.ask (.sleep (1 / 5))
    postSequentially (submission.afterOrder i posted) (i + 1) orders

/-- Submit the orders of a batch to the exchange. -/
def postBatch (clob : BatchClob) (batchId : ℤ) (orders : List OrderDict) : BatchProgram Submission :=
  if clob = .batching then do
    let posted ← Coroutine.ask (.createAndPostBatchOrder orders)
    pure (Submission.ofBatch batchId posted)
  else postSequentially {} 0 orders

/-- `_submit_batch`. -/
def submitBatch (config : BatchConfig) (batch : List PendingOrder) : BatchProgram BatchResult := do
  let batchId ← modifyGet fun s => (s.manager.batchCounter + 1, s.onManager (·.nextBatch))
  if config.dryRun ∨ config.clob = .none then
    -- Paper mode: simulate success
    modify (BatchRun.onManager (·.count batch.length batch.length 0))
    pure
      { batchId
        submittedCount := batch.length
        successCount := batch.length
        failedCount := 0
        exchangeOrderIds := (List.range batch.length).map fun i => .str s!"paper-batch{batchId}-{i}"
        errors := [] }
  else
    let submission ← postBatch config.clob batchId (batch.map PendingOrder.toDict)
    let success : ℤ := submission.exchangeIds.length
    let failed := batch.length - success
    modify (BatchRun.onManager (·.count batch.length success failed))
    pure
      { batchId
        submittedCount := batch.length
        successCount := success
        failedCount := failed
        exchangeOrderIds := submission.exchangeIds
        errors := submission.errors }

/-- The loop of `flush`; `none` when it has not ended after `fuel` rounds. -/
def flushLoop (config : BatchConfig) :
    ℕ → List BatchResult → BatchProgram (Option (List BatchResult))
  | 0, _ => pure none
  | fuel + 1, results => do
    let s ← get
    if s.manager.pending = [] then
      pure (some results)
    else
      let batch ← modifyGet (BatchRun.takeBatch config)
      let result ← submitBatch config batch
      let s ← get
      if s.manager.pending ≠ [] then
        let _ ← Coroutine.ask (.sleep (1 / 2))
      flushLoop config fuel (results ++ [result])

/-- `flush`: its first test is the one its loop begins with. -/
def flush (config : BatchConfig) (fuel : ℕ) : BatchProgram (Option (List BatchResult)) :=
  flushLoop config fuel []

def flushIfFull (config : BatchConfig) (fuel : ℕ) : BatchProgram (Option (List BatchResult)) := do
  let s ← get
  if config.maxBatchSize ≤ s.manager.pending.length then flush config fuel else pure (some [])

/-! ### Tasks -/

/-- The calls of the manager. -/
inductive BatchCall where
  | add (order : PendingOrder)
  | clear
  | flush
  | flushIfFull

def BatchCall.isFlush : BatchCall → Bool
  | .flush | .flushIfFull => true
  | _ => false

/-- What a call returns. -/
inductive BatchReturn where
  | pendingCount (n : ℕ)
  | cleared (n : ℕ)
  | results (results : Option (List BatchResult))

def BatchCall.program (config : BatchConfig) (fuel : ℕ) : BatchCall → BatchProgram BatchReturn
  | .add order =>
    modifyGet fun s =>
      let s := s.onManager (·.add order)
      (.pendingCount s.manager.pending.length, s)
  | .clear => modifyGet fun s => (.cleared s.manager.pending.length, s.clear)
  | .flush => BatchReturn.results <$> PolyCortex.flush config fuel
  | .flushIfFull => BatchReturn.results <$> PolyCortex.flushIfFull config fuel

/-- Tasks that run next to each other on one manager. -/
abbrev BatchPool := Coroutine.Pool BatchCall BatchRun BatchInquiry BatchInquiry.Reply BatchReturn

abbrev BatchEvent := Coroutine.Event BatchCall BatchInquiry BatchInquiry.Reply

/-- Along a schedule, from a new manager on. Every call may be made at any time. -/
def BatchConfig.run (config : BatchConfig) (fuel : ℕ) (schedule : List BatchEvent) : BatchPool :=
  Coroutine.Pool.run (BatchCall.program config fuel) (fun _ _ => true) ⟨⟨{}, []⟩, [], []⟩ schedule

end PolyCortex
