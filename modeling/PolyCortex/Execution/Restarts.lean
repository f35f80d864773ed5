import PolyCortex.Coroutine.Crash
import PolyCortex.Execution.Deduplication
import PolyCortex.Execution.Placement

/-!
# Placements across restarts

A restart keeps the `submitted_orders` database and loses the orders and the deduplication cache.
The process may also die during a placement, between any two awaits. The key of a row is drawn
anew for every placement, so the rows refuse nothing: what keeps two submissions apart is the
cache, and only as long as the process lives.
-/

namespace PolyCortex

open Coroutine Relation

variable {cfg : Config} {s s' : Executor}

/-! ### Sessions -/

/-- A new process on the old database. -/
def Executor.restart (s : Executor) : Executor where
  orders := .empty
  recentPlacements := .empty
  submittedOrders := s.submittedOrders
  nextId := s.nextId
  fresh := by simp

/-- A placement, and whether the process dies while it waits. -/
structure Placement where
  req : PlaceRequest
  env : Ambient
  answers : Oracle Request Reply
  /-- The number of answers after which the process dies. A post that is in flight then counts as
  answered if it has reached the exchange. -/
  crash : Option ℕ := none

namespace Placement

/-- The world in which the placement ends, or in which the process dies. -/
def reach (cfg : Config) (s : Executor) (p : Placement) : ExecWorld :=
  match p.crash with
  | none => World.after ⟨s, []⟩ ((placeOrder cfg p.env p.req).run p.answers s)
  | some n => (placeOrder cfg p.env p.req).runFor n p.answers s

/-- The state in which the next operation starts. -/
def next (cfg : Config) (s : Executor) (p : Placement) : Executor :=
  match p.crash with
  | none => (p.reach cfg s).state
  | some _ => (p.reach cfg s).state.restart

/-- The submission is successful, and the process lives to its last answer. -/
def succeeds (cfg : Config) (s : Executor) (p : Placement) : Bool :=
  let o := (placeOrder cfg p.env p.req).run p.answers s
  p.crash.all (fun n => o.trace.length ≤ n) && o.result.isSome

end Placement

inductive SessionEvent where
  | place (p : Placement)
  | restart

def SessionEvent.apply (cfg : Config) (s : Executor) : SessionEvent → Executor
  | .place p => p.next cfg s
  | .restart => s.restart

def sessionEnd (cfg : Config) (s : Executor) (events : List SessionEvent) : Executor :=
  events.foldl (SessionEvent.apply cfg) s

/-- A placement of a session: the number of processes that have died before, and the state it
starts from. -/
structure Attempt where
  life : ℕ
  start : Executor
  placement : Placement

/-- The placements of a session. -/
def attemptsFrom (cfg : Config) : ℕ → Executor → List SessionEvent → List Attempt
  | _, _, [] => []
  | life, s, .restart :: events => attemptsFrom cfg (life + 1) s.restart events
  | life, s, .place p :: events =>
    ⟨life, s, p⟩ ::
      attemptsFrom cfg (if p.crash.isSome then life + 1 else life) (p.next cfg s) events

def attempts (cfg : Config) (events : List SessionEvent) : List Attempt :=
  attemptsFrom cfg 0 .init events

def isBuyPost : Exchanged Request Reply → Bool
  | ⟨.createAndPostOrder _ _ _ _ .buy, _⟩ => true
  | _ => false

namespace Attempt

def key (a : Attempt) : PlacementKey := a.placement.req.key

def time (a : Attempt) : Time := a.placement.env.now

/-- The placement evicts `key` from the cache. -/
def Evicts (cfg : Config) (key : PlacementKey) (a : Attempt) : Prop :=
  ReachesCache cfg a.placement.env a.placement.req ∧ key ∈ evictedPlacements cfg a.time a.start

/-- A submission reaches the exchange. -/
def Submits (cfg : Config) (a : Attempt) : Prop :=
  (a.placement.reach cfg a.start).trace.any isBuyPost = true

def Succeeds (cfg : Config) (a : Attempt) : Prop := a.placement.succeeds cfg a.start = true

/-- The placement leaves `row` in the ledger. -/
def Leaves (cfg : Config) (a : Attempt) (row : SubmittedOrder) : Prop :=
  row ∈ (a.placement.next cfg a.start).submittedOrders ∧ row ∉ a.start.submittedOrders

instance (cfg : Config) (a : Attempt) : Decidable (a.Submits cfg) :=
  inferInstanceAs (Decidable (_ = true))

instance (cfg : Config) (a : Attempt) : Decidable (a.Succeeds cfg) :=
  inferInstanceAs (Decidable (_ = true))

instance (cfg : Config) (a : Attempt) (row : SubmittedOrder) : Decidable (a.Leaves cfg row) :=
  inferInstanceAs (Decidable (_ ∧ _))

end Attempt

/-- Submissions for one market and direction are more than the window apart. -/
def SubmitsOnce (cfg : Config) (events : List SessionEvent) : Prop :=
  (attempts cfg events).Pairwise fun x y => x.Submits cfg → y.Submits cfg → x.key = y.key →
    x.time + seconds cfg.dedupWindowSeconds < y.time

/-- The rows of failed submissions can be told from those of successful ones by their status. -/
def TellsFailures (cfg : Config) (events : List SessionEvent) : Prop :=
  ∀ x ∈ attempts cfg events, ∀ y ∈ attempts cfg events, ¬ x.Succeeds cfg → y.Succeeds cfg →
    ∀ row row', x.Leaves cfg row → y.Leaves cfg row' →
    ∀ final ∈ (sessionEnd cfg .init events).submittedOrders,
    ∀ final' ∈ (sessionEnd cfg .init events).submittedOrders,
      final.clientOrderId = row.clientOrderId → final'.clientOrderId = row'.clientOrderId →
        final.status ≠ final'.status

/-! ### The ledger -/

/-- Every row is pending, under an id that has been handed out. -/
def Executor.Pending (s : Executor) : Prop :=
  ∀ row ∈ s.submittedOrders, row.status = "pending" ∧ row.clientOrderId < s.nextId

/-- The row that a placement writes. -/
def ledgerRow (s : Executor) (env : Ambient) (req : PlaceRequest) : SubmittedOrder where
  clientOrderId := s.nextId + 1
  marketId := req.marketId
  side := req.direction
  size := req.sizeUsdc
  createdAt := env.now

/-- The state in which the safety checks of an accepted placement start. -/
def submissionStart (cfg : Config) (env : Ambient) (req : PlaceRequest) (s : Executor) : Executor :=
  let s₁ := (openEntry cfg env req (cleanupRecentPlacements cfg env.now s)).2
  (persistOrderIntent env s₁.nextId req s₁.takeId).2

/-- The safety checks, the chunks and the end of an accepted placement. -/
def submission (cfg : Config) (req : PlaceRequest) (orderId : OrderId) : Program (Option OrderId) :=
  (submitChunks cfg req orderId).bind (concludeEntry cfg req orderId)

lemma submittedOrders_cleanupRecentPlacements (cfg : Config) (now : Time) (s : Executor) :
    (cleanupRecentPlacements cfg now s).submittedOrders = s.submittedOrders := by
  simp only [cleanupRecentPlacements]
  split_ifs <;> rfl

/-- A fresh key is in no row, so the ledger refuses nothing. -/
lemma persistOrderIntent_fresh {env : Ambient} {req : PlaceRequest} (hs : s.Pending) :
    persistOrderIntent env s.nextId req s.takeId =
      (true, if env.ledgerWritable then
        { s.takeId with submittedOrders := s.submittedOrders ++
          [{ clientOrderId := s.nextId, marketId := req.marketId, side := req.direction,
             size := req.sizeUsdc, createdAt := env.now }] }
        else s.takeId) := by
  have hfresh : s.takeId.submittedOrders.any (·.clientOrderId = s.nextId) = false := by
    rw [List.any_eq_false]
    intro row hrow
    simpa using (hs row hrow).2.ne
  rw [persistOrderIntent]
  cases env.ledgerWritable <;> simp [hfresh]
  rfl

/-- What a placement keeps once its row is written. -/
structure Executor.KeepsRecords (s s' : Executor) : Prop where
  placements : s'.recentPlacements = s.recentPlacements
  rows : s'.submittedOrders = s.submittedOrders
  nextId : s.nextId ≤ s'.nextId

lemma Executor.KeepsRecords.trans {s'' : Executor} (h : KeepsRecords s s')
    (h' : KeepsRecords s' s'') : KeepsRecords s s'' :=
  ⟨h'.placements.trans h.placements, h'.rows.trans h.rows, h.nextId.trans h'.nextId⟩

lemma submission_keepsRecords (cfg : Config) (req : PlaceRequest) (orderId : OrderId) (w : ExecWorld) :
    Meets Alone (fun w w' => w.state.KeepsRecords w'.state) (fun _ _ => True)
      (submission cfg req orderId) w := by
  have hrefl : ∀ w : ExecWorld, w.state.KeepsRecords w.state := fun w => ⟨rfl, rfl, le_rfl⟩
  refine Meets.bind (((submitChunks_inquires cfg req orderId).meets
    (fun w _ _ => hrefl w) w).imp fun _ _ _ => trivial) ?_
  intro result w' _
  cases result with
  | ok exchangeIds => exact ⟨⟨rfl, rfl, le_rfl⟩, trivial⟩
  | error e => exact ⟨⟨rfl, rfl, le_rfl⟩, trivial⟩

/-- A placement that is refused asks nothing. -/
lemma placeOrder_refused {env : Ambient} {req : PlaceRequest} (h : (preflight cfg env req s).1 = false)
    (ω : Oracle Request Reply) :
    (placeOrder cfg env req).run ω s = ⟨(preflight cfg env req s).2, [], none⟩ ∧
      ∀ n, (placeOrder cfg env req).runFor n ω s = ⟨(preflight cfg env req s).2, []⟩ := by
  constructor
  · simp [placeOrder, h]
  · intro n
    simp [placeOrder, h]

lemma openEntry_pending (cfg : Config) (env : Ambient) (req : PlaceRequest) (hs : s.Pending) :
    (openEntry cfg env req (cleanupRecentPlacements cfg env.now s)).2.Pending := by
  intro row hrow
  have hrow' : row ∈ s.submittedOrders := by
    rw [← submittedOrders_cleanupRecentPlacements cfg env.now s]
    exact hrow
  obtain ⟨hstatus, hlt⟩ := hs row hrow'
  refine ⟨hstatus, hlt.trans ?_⟩
  rw [← nextId_cleanupRecentPlacements cfg env.now s]
  exact Nat.lt_succ_self _

/-- A live placement that is accepted continues with its submission. -/
lemma placeOrder_accepted (hlive : cfg.isPaper = false) {env : Ambient} {req : PlaceRequest}
    (hs : s.Pending)
    (h : preflight cfg env req s = (true, cleanupRecentPlacements cfg env.now s))
    (ω : Oracle Request Reply) :
    (placeOrder cfg env req).run ω s =
        (submission cfg req s.nextId).run ω (submissionStart cfg env req s) ∧
      ∀ n, (placeOrder cfg env req).runFor n ω s =
        (submission cfg req s.nextId).runFor n ω (submissionStart cfg env req s) := by
  have hpending := openEntry_pending cfg env req hs
  have hpersisted : (persistOrderIntent env
      (openEntry cfg env req (cleanupRecentPlacements cfg env.now s)).2.nextId req
      (openEntry cfg env req (cleanupRecentPlacements cfg env.now s)).2.takeId).1 = true := by
    rw [persistOrderIntent_fresh hpending]
  have hopened : (openEntry cfg env req (cleanupRecentPlacements cfg env.now s)).1 = s.nextId :=
    nextId_cleanupRecentPlacements cfg env.now s
  constructor
  · simp [placeOrder, submitEntry, h, hlive, hpersisted, hopened, submission, submissionStart]
  · intro n
    simp [placeOrder, submitEntry, h, hlive, hpersisted, hopened, submission, submissionStart]

/-! ### What a submission asks -/

/-- The balance and the gas price that the answers report, where they report one, are in order. -/
def SafetyPasses (cfg : Config) (req : PlaceRequest) (orderId : OrderId)
    (answers : Oracle Request Reply) : Prop :=
  (∀ balance, answers 0 (.balance orderId) = some balance → req.sizeUsdc ≤ balance) ∧
  ∀ gwei, answers 1 (.gasPrice orderId) = some gwei → gwei ≤ cfg.maxGasGwei

variable {req : PlaceRequest} {orderId : OrderId} {ω : Oracle Request Reply}

/-- The chunks of a placement and its end. -/
def chunkLoop (cfg : Config) (req : PlaceRequest) (orderId : OrderId) : Program (Option OrderId) :=
  (postChunks orderId req.tokenId (limitPrice req.direction req.price)
    (splitIntoChunks cfg req.sizeUsdc).2 (splitIntoChunks cfg req.sizeUsdc).1 []).bind
    (concludeEntry cfg req orderId)

/-- The balance is asked for, and the rest goes on with the verdict. -/
lemma assertSufficientBalance_bind_run (orderId : OrderId) (size : ℚ)
    (f : Except CallError Unit → Program (Option OrderId)) (ω : Oracle Request Reply)
    (s : Executor) :
    ∃ verdict, (verdict = .ok () ↔ ∀ balance, ω 0 (.balance orderId) = some balance → size ≤ balance) ∧
      ((assertSufficientBalance orderId size).bind f).run ω s =
        let o := (f verdict).run (fun n => ω (n + 1)) s
        ⟨o.state, ⟨.balance orderId, ω 0 _⟩ :: o.trace, o.result⟩ := by
  cases hreply : ω 0 (.balance orderId) with
  | none =>
    refine ⟨.ok (), by simp, ?_⟩
    simp [assertSufficientBalance, request, ask, run_await, hreply]
  | some balance =>
    by_cases hlt : balance < size
    · refine ⟨.error .other, by simp [hlt], ?_⟩
      simp [assertSufficientBalance, request, ask, run_await, hreply, hlt]
    · refine ⟨.ok (), by simpa using hlt, ?_⟩
      simp [assertSufficientBalance, request, ask, run_await, hreply, hlt]

lemma checkGasPrice_bind_run (cfg : Config) (orderId : OrderId)
    (f : Except CallError Unit → Program (Option OrderId)) (ω : Oracle Request Reply)
    (s : Executor) :
    ∃ verdict, (verdict = .ok () ↔
        ∀ gwei, ω 0 (.gasPrice orderId) = some gwei → gwei ≤ cfg.maxGasGwei) ∧
      ((checkGasPrice cfg orderId).bind f).run ω s =
        let o := (f verdict).run (fun n => ω (n + 1)) s
        ⟨o.state, ⟨.gasPrice orderId, ω 0 _⟩ :: o.trace, o.result⟩ := by
  cases hreply : ω 0 (.gasPrice orderId) with
  | none =>
    refine ⟨.ok (), by simp, ?_⟩
    simp [checkGasPrice, request, ask, run_await, hreply]
  | some gwei =>
    by_cases hlt : cfg.maxGasGwei < gwei
    · refine ⟨.error .other, by simp [hlt], ?_⟩
      simp [checkGasPrice, request, ask, run_await, hreply, hlt]
    · refine ⟨.ok (), by simpa using hlt, ?_⟩
      simp [checkGasPrice, request, ask, run_await, hreply, hlt]

/-- The submission, with the two checks in front. -/
lemma submission_eq (cfg : Config) (req : PlaceRequest) (orderId : OrderId) :
    submission cfg req orderId =
      (assertSufficientBalance orderId req.sizeUsdc).bind fun
        | .error e => concludeEntry cfg req orderId (.error e)
        | .ok () => (checkGasPrice cfg orderId).bind fun
          | .error e => concludeEntry cfg req orderId (.error e)
          | .ok () => chunkLoop cfg req orderId := by
  rw [submission, submitChunks, bind_def, bind_assoc]
  congr 1
  funext verdict
  cases verdict with
  | error e => rfl
  | ok =>
    simp only [bind_def, bind_assoc]
    congr 1
    funext verdict
    cases verdict <;> rfl

/-- When the safety checks pass, the chunks follow. -/
lemma submission_run_safe (hsafe : SafetyPasses cfg req orderId ω) (s : Executor) :
    (submission cfg req orderId).run ω s =
      let o := (chunkLoop cfg req orderId).run (fun n => ω (n + 2)) s
      ⟨o.state, ⟨.balance orderId, ω 0 _⟩ :: ⟨.gasPrice orderId, ω 1 _⟩ :: o.trace, o.result⟩ := by
  rw [submission_eq]
  obtain ⟨funds, hfunds, hrun⟩ := assertSufficientBalance_bind_run orderId req.sizeUsdc _ ω s
  obtain rfl := hfunds.mpr hsafe.1
  rw [hrun]
  obtain ⟨gas, hgas, hrun'⟩ := checkGasPrice_bind_run cfg orderId
    (fun
      | .error e => concludeEntry cfg req orderId (.error e)
      | .ok () => chunkLoop cfg req orderId) (fun n => ω (n + 1)) s
  obtain rfl := hgas.mpr hsafe.2
  simp only [hrun']

/-- When they do not, nothing is posted and the placement fails. -/
lemma submission_run_refused (hchecks : ¬ SafetyPasses cfg req orderId ω) (s : Executor) :
    ((submission cfg req orderId).run ω s).trace.any isBuyPost = false ∧
      ((submission cfg req orderId).run ω s).result = none := by
  rw [submission_eq]
  obtain ⟨funds, hfunds, hrun⟩ := assertSufficientBalance_bind_run orderId req.sizeUsdc _ ω s
  rw [hrun]
  cases funds with
  | error e => simp [concludeEntry, isBuyPost]
  | ok funded =>
    obtain ⟨gas, hgas, hrun'⟩ := checkGasPrice_bind_run cfg orderId
      (fun
        | .error e => concludeEntry cfg req orderId (.error e)
        | .ok () => chunkLoop cfg req orderId) (fun n => ω (n + 1)) s
    simp only [hrun']
    cases gas with
    | error e => simp [concludeEntry, isBuyPost]
    | ok cheap => exact absurd ⟨hfunds.mp rfl, hgas.mp rfl⟩ hchecks

/-- The post of one chunk. -/
abbrev chunkPost (cfg : Config) (req : PlaceRequest) (orderId : OrderId) : Request :=
  .createAndPostOrder orderId req.tokenId (limitPrice req.direction req.price)
    (splitIntoChunks cfg req.sizeUsdc).2 .buy

/-- The first thing the loop does is to post a chunk. -/
lemma chunkLoop_posts (orderId : OrderId) (hchunks : 0 < (splitIntoChunks cfg req.sizeUsdc).1)
    (ω : Oracle Request Reply) (s : Executor) :
    ∃ r t, ((chunkLoop cfg req orderId).run ω s).trace = ⟨chunkPost cfg req orderId, r⟩ :: t := by
  obtain ⟨chunks, hchunks'⟩ := Nat.exists_eq_succ_of_ne_zero hchunks.ne'
  rw [chunkLoop, hchunks', postChunks]
  exact ⟨_, _, rfl⟩

/-- The exchange accepts every chunk; between any two of them the executor sleeps. -/
def ChunksAccepted (cfg : Config) (req : PlaceRequest) (orderId : OrderId) (chunks : ℕ)
    (answers : Oracle Request Reply) : Prop :=
  ∀ i < chunks, ∃ response, answers (2 * i) (chunkPost cfg req orderId) = .ok response

lemma postChunks_succeeds_iff (cfg : Config) (req : PlaceRequest) (orderId : OrderId) (chunks : ℕ)
    (exchangeIds : List ExchangeId) (ω : Oracle Request Reply) (s : Executor) :
    (((postChunks orderId req.tokenId (limitPrice req.direction req.price)
        (splitIntoChunks cfg req.sizeUsdc).2 chunks exchangeIds).bind
          (concludeEntry cfg req orderId)).run ω s).result.isSome = true ↔
      ChunksAccepted cfg req orderId chunks ω := by
  induction chunks generalizing exchangeIds ω with
  | zero => simp [postChunks, concludeEntry, ChunksAccepted]
  | succ chunks ih =>
    have hfirst : ChunksAccepted cfg req orderId (chunks + 1) ω ↔
        (∃ response, ω 0 (chunkPost cfg req orderId) = .ok response) ∧
          ChunksAccepted cfg req orderId chunks fun n => ω (n + 2) := by
      rw [ChunksAccepted, Nat.forall_lt_succ_left]
      rfl
    rw [hfirst]
    cases hreply : ω 0 (chunkPost cfg req orderId) with
    | error e => simp [postChunks, request, ask, run_await, hreply, concludeEntry]
    | ok response =>
      by_cases hlast : chunks = 0
      · subst hlast
        simp [postChunks, request, ask, run_await, hreply, concludeEntry, ChunksAccepted]
      · have hrest := ih (exchangeIds ++ response.exchangeId?.toList) fun n => ω (n + 2)
        simp only [postChunks, request, ask, bind_def, await_bind, pure_bind, run_await, hreply, hlast,
          ne_eq, not_false_eq_true, if_true, hrest]
        simp

/-- Between two accepted chunks there is one answer more, that of the sleep. -/
lemma postChunks_length {chunks : ℕ} (hchunks : 0 < chunks)
    (haccepted : ChunksAccepted cfg req orderId chunks ω) (exchangeIds : List ExchangeId)
    (s : Executor) :
    (((postChunks orderId req.tokenId (limitPrice req.direction req.price)
        (splitIntoChunks cfg req.sizeUsdc).2 chunks exchangeIds).bind
          (concludeEntry cfg req orderId)).run ω s).trace.length + 1 = 2 * chunks := by
  induction chunks generalizing exchangeIds ω with
  | zero => exact absurd hchunks (lt_irrefl 0)
  | succ chunks ih =>
    obtain ⟨response, hreply⟩ := haccepted 0 (Nat.succ_pos chunks)
    by_cases hlast : chunks = 0
    · subst hlast
      simp [postChunks, request, ask, run_await, hreply, concludeEntry]
    · have hrest := ih (ω := fun n => ω (n + 2)) (Nat.pos_of_ne_zero hlast)
        (fun i hi => haccepted (i + 1) (Nat.succ_lt_succ hi))
        (exchangeIds ++ response.exchangeId?.toList)
      simp only [Nat.mul_zero] at hreply
      simp only [postChunks, request, ask, bind_def, await_bind, pure_bind, run_await, hreply,
        hlast, ne_eq, not_false_eq_true, if_true, List.length_cons, Nat.reduceAdd,
        Nat.add_assoc] at hrest ⊢
      omega

/-! ### What a placement does -/

namespace Attempt

/-- The cache does not refuse the placement. -/
def Admitted (cfg : Config) (a : Attempt) : Prop :=
  ReachesCache cfg a.placement.env a.placement.req ∧
    (cleanupRecentPlacements cfg a.time a.start).recentPlacements.get? a.key = none

/-- The placement gets as far as its first post. -/
def Posts (cfg : Config) (a : Attempt) : Prop :=
  a.Admitted cfg ∧ SafetyPasses cfg a.placement.req a.start.nextId a.placement.answers ∧
    ∀ n, a.placement.crash = some n → 3 ≤ n

/-- All chunks are accepted, and the process lives to the answer to the last of them. -/
def Completes (cfg : Config) (a : Attempt) : Prop :=
  a.Admitted cfg ∧ SafetyPasses cfg a.placement.req a.start.nextId a.placement.answers ∧
    ChunksAccepted cfg a.placement.req a.start.nextId
      (splitIntoChunks cfg a.placement.req.sizeUsdc).1 (fun n => a.placement.answers (n + 2)) ∧
    ∀ n, a.placement.crash = some n → 2 * (splitIntoChunks cfg a.placement.req.sizeUsdc).1 < n

end Attempt

variable {a : Attempt}

lemma Attempt.preflight_admitted (h : a.Admitted cfg) :
    preflight cfg a.placement.env a.placement.req a.start =
      (true, cleanupRecentPlacements cfg a.time a.start) := by
  obtain ⟨hcache, hnone⟩ := h
  rcases preflight_cases cfg a.placement.env a.placement.req a.start with ⟨hcache', _⟩ | ⟨_, heq⟩
  · exact absurd hcache hcache'
  · rw [heq]
    simp only [key, time] at hnone
    simp [hnone, time]

/-- A refused placement cleans the cache at most. -/
lemma Attempt.preflight_refused (h : ¬ a.Admitted cfg) :
    ∃ s', preflight cfg a.placement.env a.placement.req a.start = (false, s') ∧
      s'.submittedOrders = a.start.submittedOrders ∧ s'.nextId = a.start.nextId := by
  rcases preflight_cases cfg a.placement.env a.placement.req a.start with ⟨_, heq⟩ | ⟨hcache, heq⟩
  · exact ⟨_, heq, rfl, rfl⟩
  · have hknown : ((cleanupRecentPlacements cfg a.time a.start).recentPlacements.get?
        a.key).isSome = true := by
      by_contra hnone
      exact h ⟨hcache, by simpa using hnone⟩
    simp only [key, time] at hknown
    refine ⟨_, heq.trans (by rw [hknown]; rfl), ?_, ?_⟩
    · exact submittedOrders_cleanupRecentPlacements ..
    · exact nextId_cleanupRecentPlacements ..

/-- A placement submits if and only if it gets as far as its first post. -/
lemma Attempt.submits_iff (hlive : cfg.isPaper = false) (hs : a.start.Pending) :
    a.Submits cfg ↔ a.Posts cfg := by
  by_cases hadmitted : a.Admitted cfg
  swap
  · obtain ⟨s', hrefused, _⟩ := a.preflight_refused hadmitted
    obtain ⟨hrun, hrunFor⟩ := placeOrder_refused (by rw [hrefused]) a.placement.answers
    simp only [Submits, Posts, hadmitted, false_and, iff_false, Placement.reach]
    cases a.placement.crash with
    | none => simp [hrun]
    | some n => simp [hrunFor]
  obtain ⟨hrun, hrunFor⟩ := placeOrder_accepted hlive hs (preflight_admitted hadmitted)
    a.placement.answers
  simp only [Submits, Posts, hadmitted, true_and, Placement.reach]
  have hchunks : 0 < (splitIntoChunks cfg a.placement.req.sizeUsdc).1 :=
    splitIntoChunks_pos (half_le_of_valid hadmitted.1.1)
  by_cases hsafe : SafetyPasses cfg a.placement.req a.start.nextId a.placement.answers
  · obtain ⟨r, t, hposts⟩ := chunkLoop_posts a.start.nextId hchunks (fun n => a.placement.answers (n + 2))
      (submissionStart cfg a.placement.env a.placement.req a.start)
    cases a.placement.crash with
    | none => simp [hrun, submission_run_safe hsafe, hposts, isBuyPost, hsafe]
    | some n =>
      simp only [hrunFor, runFor_trace, submission_run_safe hsafe, hposts]
      match n with
      | 0 => simp
      | 1 => simp [isBuyPost]
      | 2 => simp [isBuyPost]
      | n + 3 => simp [isBuyPost, hsafe]
  · obtain ⟨hnone, _⟩ := submission_run_refused hsafe
      (submissionStart cfg a.placement.env a.placement.req a.start)
    simp only [hsafe, false_and, iff_false, Bool.not_eq_true]
    cases a.placement.crash with
    | none => simpa [hrun] using hnone
    | some n =>
      simp only [hrunFor, runFor_trace, List.any_eq_false] at hnone ⊢
      exact fun x hx => hnone x (List.mem_of_mem_take hx)

lemma Attempt.succeeds_iff (hlive : cfg.isPaper = false) (hs : a.start.Pending) :
    a.Succeeds cfg ↔ a.Completes cfg := by
  by_cases hadmitted : a.Admitted cfg
  swap
  · obtain ⟨s', hrefused, _⟩ := a.preflight_refused hadmitted
    obtain ⟨hrun, _⟩ := placeOrder_refused (by rw [hrefused]) a.placement.answers
    simp [Succeeds, Completes, Placement.succeeds, hadmitted, hrun]
  obtain ⟨hrun, _⟩ := placeOrder_accepted hlive hs (preflight_admitted hadmitted)
    a.placement.answers
  by_cases hsafe : SafetyPasses cfg a.placement.req a.start.nextId a.placement.answers
  swap
  · obtain ⟨_, hnone⟩ := submission_run_refused hsafe
      (submissionStart cfg a.placement.env a.placement.req a.start)
    simp [Succeeds, Completes, Placement.succeeds, hadmitted, hsafe, hrun, hnone]
  have hiff := postChunks_succeeds_iff cfg a.placement.req a.start.nextId
    (splitIntoChunks cfg a.placement.req.sizeUsdc).1 []
    (fun n => a.placement.answers (n + 2))
    (submissionStart cfg a.placement.env a.placement.req a.start)
  by_cases haccepted : ChunksAccepted cfg a.placement.req a.start.nextId
      (splitIntoChunks cfg a.placement.req.sizeUsdc).1 (fun n => a.placement.answers (n + 2))
  swap
  · simp [haccepted] at hiff
    simp [Succeeds, Completes, Placement.succeeds, hadmitted, hrun, submission_run_safe hsafe,
      chunkLoop, hiff, haccepted]
  have hlength := postChunks_length (splitIntoChunks_pos (half_le_of_valid hadmitted.1.1)) haccepted []
    (submissionStart cfg a.placement.env a.placement.req a.start)
  simp only [haccepted, iff_true] at hiff
  simp only [Succeeds, Completes, Placement.succeeds, hadmitted, hsafe, haccepted, hrun,
    submission_run_safe hsafe, chunkLoop, hiff, true_and, Bool.and_true, List.length_cons, hlength]
  cases a.placement.crash with
  | none => simp
  | some n => simp

/-- An accepted placement writes its row before anything is asked. -/
lemma submissionStart_records (cfg : Config) (env : Ambient) (req : PlaceRequest)
    (hs : s.Pending) :
    (submissionStart cfg env req s).submittedOrders =
        s.submittedOrders ++ (if env.ledgerWritable then [ledgerRow s env req] else []) ∧
      (submissionStart cfg env req s).nextId = s.nextId + 2 := by
  have hid : (openEntry cfg env req (cleanupRecentPlacements cfg env.now s)).2.nextId =
      s.nextId + 1 := by
    rw [← nextId_cleanupRecentPlacements cfg env.now s]
    rfl
  have hrows : (openEntry cfg env req (cleanupRecentPlacements cfg env.now s)).2.submittedOrders =
      s.submittedOrders := by
    rw [← submittedOrders_cleanupRecentPlacements cfg env.now s]
    rfl
  rw [submissionStart, persistOrderIntent_fresh (openEntry_pending cfg env req hs)]
  split_ifs
  · refine ⟨?_, congrArg (· + 1) hid⟩
    show _ ++ [_] = _
    rw [hrows, hid]
    rfl
  · exact ⟨hrows.trans (List.append_nil _).symm, congrArg (· + 1) hid⟩

/-- The rows after a placement: one more, pending, if it was admitted and the ledger was writable. -/
lemma Attempt.next_records (hlive : cfg.isPaper = false) (hs : a.start.Pending) :
    (a.Admitted cfg ∧
      (a.placement.next cfg a.start).submittedOrders = a.start.submittedOrders ++
        (if a.placement.env.ledgerWritable then
          [ledgerRow a.start a.placement.env a.placement.req] else []) ∧
      a.start.nextId + 2 ≤ (a.placement.next cfg a.start).nextId) ∨
    (¬ a.Admitted cfg ∧
      (a.placement.next cfg a.start).submittedOrders = a.start.submittedOrders ∧
      (a.placement.next cfg a.start).nextId = a.start.nextId) := by
  by_cases hadmitted : a.Admitted cfg
  · obtain ⟨hrun, hrunFor⟩ := placeOrder_accepted hlive hs (preflight_admitted hadmitted)
      a.placement.answers
    obtain ⟨hrows, hid⟩ := submissionStart_records cfg a.placement.env a.placement.req hs
    have hmeets := submission_keepsRecords cfg a.placement.req a.start.nextId
      ⟨submissionStart cfg a.placement.env a.placement.req a.start, []⟩
    refine Or.inl ⟨hadmitted, ?_⟩
    have hkeeps : Executor.KeepsRecords
        (submissionStart cfg a.placement.env a.placement.req a.start)
        (a.placement.reach cfg a.start).state := by
      simp only [Placement.reach]
      cases a.placement.crash with
      | none =>
        simp only [hrun]
        exact (hmeets.run alone_refl (fun _ => ⟨rfl, rfl, le_rfl⟩) (fun h h' => h.trans h') _).1
      | some n =>
        simp only [hrunFor]
        exact hmeets.runFor alone_refl (fun _ => ⟨rfl, rfl, le_rfl⟩) (fun h h' => h.trans h') n _
    have hnext : (a.placement.next cfg a.start).submittedOrders =
          (a.placement.reach cfg a.start).state.submittedOrders ∧
        (a.placement.next cfg a.start).nextId = (a.placement.reach cfg a.start).state.nextId := by
      simp only [Placement.next]
      cases a.placement.crash <;> exact ⟨rfl, rfl⟩
    rw [hnext.1, hnext.2, hkeeps.rows, hrows, ← hid]
    exact ⟨rfl, hkeeps.nextId⟩
  · obtain ⟨s', hrefused, hrows, hid⟩ := a.preflight_refused hadmitted
    obtain ⟨hrun, hrunFor⟩ := placeOrder_refused (by rw [hrefused]) a.placement.answers
    refine Or.inr ⟨hadmitted, ?_⟩
    simp only [Placement.next, Placement.reach]
    cases a.placement.crash with
    | none => simp [hrun, hrefused, hrows, hid]
    | some n => simp [hrunFor, hrefused, hrows, hid, Executor.restart]

lemma Attempt.next_pending (hlive : cfg.isPaper = false) (hs : a.start.Pending) :
    (a.placement.next cfg a.start).Pending := by
  intro row hrow
  rcases a.next_records hlive hs with ⟨_, hrows, hid⟩ | ⟨_, hrows, hid⟩
  · rw [hrows, List.mem_append] at hrow
    rcases hrow with hrow | hrow
    · obtain ⟨hstatus, hlt⟩ := hs row hrow
      exact ⟨hstatus, by omega⟩
    · split_ifs at hrow
      · rw [List.mem_singleton] at hrow
        subst hrow
        exact ⟨rfl, show a.start.nextId + 1 < _ by omega⟩
      · cases hrow
  · rw [hrows] at hrow
    rw [Executor.Pending] at hs
    exact hid ▸ hs row hrow

/-- A placement that runs to its end leaves the cache as `Placed` says. -/
lemma Attempt.next_placed (hcrash : a.placement.crash = none) :
    Placed cfg a.placement.env a.placement.req a.start (a.placement.next cfg a.start) := by
  have hmeets : Meets Alone (fun _ _ => True)
      (fun _ w' => Placed cfg a.placement.env a.placement.req a.start w'.state)
      (placeOrder cfg a.placement.env a.placement.req) ⟨a.start, []⟩ :=
    placeOrder_placed (w := ⟨a.start, []⟩) a.placement.env a.placement.req
  simp only [Placement.next, Placement.reach, hcrash]
  exact Ends.run hmeets _

/-- An admitted placement that runs to its end is remembered. -/
lemma Attempt.next_remembers (hcrash : a.placement.crash = none) (hadmitted : a.Admitted cfg) :
    (a.placement.next cfg a.start).recentPlacements.get? a.key = some a.time := by
  have hplaced : Placed cfg a.placement.env a.placement.req a.start (a.placement.next cfg a.start) :=
    a.next_placed hcrash
  generalize a.placement.next cfg a.start = s' at hplaced ⊢
  cases hplaced with
  | rejected hcache => exact absurd hadmitted.1 hcache
  | duplicate hcache hknown =>
    have hnone := hadmitted.2
    simp only [key, time] at hnone
    simp [hnone] at hknown
  | accepted hcache hnone hopened =>
    rw [hopened.noPlacement.placements]
    exact Dict.get?_set_self ..

/-! ### The condition -/

/-- Where the cache does not reach (into another process, or after an eviction), submissions for one
market and direction are more than the window apart. -/
def CacheSuffices (cfg : Config) (as : List Attempt) : Prop :=
  ∀ pre x mid y post, as = pre ++ x :: mid ++ y :: post → x.key = y.key → x.Posts cfg →
    y.Posts cfg → (x.life ≠ y.life ∨ ∃ z ∈ mid ++ [y], z.Evicts cfg x.key) →
      x.time + seconds cfg.dedupWindowSeconds < y.time

/-- The placements that write a row either all complete, or none does. -/
def OneOutcome (cfg : Config) (as : List Attempt) : Prop :=
  ∀ x ∈ as, ∀ y ∈ as, x.Admitted cfg → x.placement.env.ledgerWritable → y.Admitted cfg →
    y.placement.env.ledgerWritable → (x.Completes cfg ↔ y.Completes cfg)

lemma CacheSuffices.tail {as : List Attempt} (h : CacheSuffices cfg (a :: as)) :
    CacheSuffices cfg as := by
  intro pre x mid y post has
  exact h (a :: pre) x mid y post (by rw [has]; rfl)

/-! ### Along a session -/

lemma life_le_of_mem_attemptsFrom {life : ℕ} {events : List SessionEvent}
    (h : a ∈ attemptsFrom cfg life s events) : life ≤ a.life := by
  induction events generalizing life s with
  | nil => cases h
  | cons event events ih =>
    cases event with
    | restart => exact (Nat.le_succ life).trans (ih h)
    | place p =>
      rw [attemptsFrom, List.mem_cons] at h
      rcases h with rfl | h
      · exact le_rfl
      · refine le_trans ?_ (ih h)
        split_ifs
        · exact Nat.le_succ life
        · exact le_rfl

/-- Every placement of a session starts with pending rows. -/
lemma start_pending (hlive : cfg.isPaper = false) (hs : s.Pending) {life : ℕ}
    {events : List SessionEvent} (h : a ∈ attemptsFrom cfg life s events) : a.start.Pending := by
  induction events generalizing life s with
  | nil => cases h
  | cons event events ih =>
    cases event with
    | restart => exact ih (s := s.restart) hs h
    | place p =>
      rw [attemptsFrom, List.mem_cons] at h
      rcases h with rfl | h
      · exact hs
      · exact ih (Attempt.next_pending (a := ⟨life, s, p⟩) hlive hs) h

/-- As long as the process lives and does not evict the key, a placement that the cache admits is
out of the window. -/
lemma Executor.Spaced.admitted {key : PlacementKey} {first last : Time} {s₀ : Executor}
    {life : ℕ} {events : List SessionEvent} {mid : List Attempt} {y : Attempt}
    {post : List Attempt} (hs : s.Spaced cfg key first s₀ last)
    (hsplit : attemptsFrom cfg life s events = mid ++ y :: post) (hlife : y.life = life)
    (hclock : ((mid ++ [y]).map Attempt.time).Pairwise (· ≤ ·))
    (hlast : ∀ z ∈ mid ++ [y], last ≤ z.time)
    (hspared : ∀ z ∈ mid ++ [y], ¬ z.Evicts cfg key) (hkey : y.key = key)
    (hadmitted : y.Admitted cfg) : first + seconds cfg.dedupWindowSeconds < y.time := by
  induction events generalizing s mid last with
  | nil => cases mid <;> cases hsplit
  | cons event events ih =>
    cases event with
    | restart =>
      have hmem : y ∈ attemptsFrom cfg (life + 1) s.restart events := by
        rw [attemptsFrom] at hsplit
        simp [hsplit]
      have hle := life_le_of_mem_attemptsFrom hmem
      omega
    | place p =>
      rw [attemptsFrom] at hsplit
      cases mid with
      | nil =>
        rw [List.nil_append, List.cons.injEq] at hsplit
        obtain ⟨rfl, _⟩ := hsplit
        obtain ⟨hcache, hnone⟩ := hadmitted
        have hend := hs.cleanup (hlast _ (by simp)) fun h => hspared _ (by simp) ⟨hcache, h⟩
        refine hend.remembered.resolve_left ?_
        rintro ⟨timestamp, hget, _⟩
        rw [← hkey] at hget
        rw [hnone] at hget
        cases hget
      | cons z mid =>
        rw [List.cons_append, List.cons.injEq] at hsplit
        obtain ⟨rfl, hsplit⟩ := hsplit
        have hcrash : p.crash = none := by
          by_contra hcrash
          have hmem : y ∈ attemptsFrom cfg (if p.crash.isSome then life + 1 else life)
              (p.next cfg s) events := by simp [hsplit]
          have hle := life_le_of_mem_attemptsFrom hmem
          rw [if_pos (by simpa [Option.isSome_iff_ne_none] using hcrash)] at hle
          omega
        rw [hcrash] at hsplit
        rw [List.cons_append, List.map_cons, List.pairwise_cons] at hclock
        have hplaced : Placed cfg p.env p.req s (p.next cfg s) :=
          Attempt.next_placed (a := ⟨life, s, p⟩) hcrash
        refine ih (hs.place (hlast ⟨life, s, p⟩ (by simp)) (fun hcache h => ?_) hplaced) hsplit
          hclock.2 (fun z hz => hclock.1 _ (List.mem_map_of_mem hz))
          fun z hz => hspared z (List.mem_cons_of_mem _ hz)
        exact hspared ⟨life, s, p⟩ (by simp) ⟨hcache, h⟩

/-- After a placement that was admitted, the cache speaks for it until the process dies. -/
lemma Attempt.next_spaced (hcrash : a.placement.crash = none) (hadmitted : a.Admitted cfg) :
    (a.placement.next cfg a.start).Spaced cfg a.key a.time (a.placement.next cfg a.start) a.time :=
  ⟨Or.inl ⟨a.time, a.next_remembers hcrash hadmitted, le_rfl⟩,
    fun id o ho _ _ => Or.inl (by rw [ho]; rfl)⟩

lemma submits_apart (hlive : cfg.isPaper = false) (hs : s.Pending) {life : ℕ}
    {events : List SessionEvent}
    (hclock : ((attemptsFrom cfg life s events).map Attempt.time).Pairwise (· ≤ ·))
    (hcache : CacheSuffices cfg (attemptsFrom cfg life s events)) :
    (attemptsFrom cfg life s events).Pairwise fun x y => x.Submits cfg → y.Submits cfg →
      x.key = y.key → x.time + seconds cfg.dedupWindowSeconds < y.time := by
  induction events generalizing s life with
  | nil => exact .nil
  | cons event events ih =>
    cases event with
    | restart => exact ih (s := s.restart) hs hclock hcache
    | place p =>
      set x : Attempt := ⟨life, s, p⟩ with hx
      have hnext : (p.next cfg s).Pending := x.next_pending hlive hs
      rw [attemptsFrom, List.map_cons, List.pairwise_cons] at hclock
      rw [attemptsFrom] at hcache ⊢
      refine List.pairwise_cons.mpr ⟨fun y hy hsubmits hsubmits' hkey => ?_,
        ih hnext hclock.2 hcache.tail⟩
      have hposts := (x.submits_iff hlive hs).mp hsubmits
      have hposts' := (y.submits_iff hlive (start_pending hlive hnext hy)).mp hsubmits'
      obtain ⟨mid, post, hsplit⟩ := List.append_of_mem hy
      -- either the cache does not reach from `x` to `y`, or it has refused `y` within the window
      by_cases hreach : x.life ≠ y.life ∨ ∃ z ∈ mid ++ [y], z.Evicts cfg x.key
      · exact hcache [] x mid y post (by rw [hsplit]; rfl) hkey hposts hposts' hreach
      · obtain ⟨hlife, hspared⟩ := not_or.mp hreach
        rw [not_not] at hlife
        have hcrash : p.crash = none := by
          by_contra hcrash
          have hle := life_le_of_mem_attemptsFrom hy
          rw [if_pos (by simpa [Option.isSome_iff_ne_none] using hcrash)] at hle
          exact absurd hlife (Nat.ne_of_lt hle)
        have hmem : ∀ z ∈ mid ++ [y], z ∈ mid ++ y :: post := by
          intro z hz
          rw [List.mem_append, List.mem_singleton] at hz
          exact List.mem_append.mpr (hz.imp_right fun h => List.mem_cons.mpr (Or.inl h))
        have hsub : (mid ++ [y]).Sublist (mid ++ y :: post) := by simp
        rw [hcrash] at hsplit hclock
        simp only [Option.isSome_none, Bool.false_eq_true, if_false] at hsplit hclock
        rw [hsplit] at hclock
        refine (x.next_spaced hcrash hposts.1).admitted hsplit hlife.symm
          (hclock.2.sublist (hsub.map _))
          (fun z hz => hclock.1 _ (List.mem_map_of_mem (hmem z hz)))
          (fun z hz h => hspared ⟨z, hz, h⟩) hkey.symm hposts'.1

lemma submitsOnce_iff (hlive : cfg.isPaper = false) {events : List SessionEvent}
    (hclock : ((attempts cfg events).map Attempt.time).Pairwise (· ≤ ·)) :
    SubmitsOnce cfg events ↔ CacheSuffices cfg (attempts cfg events) := by
  have hinit : Executor.init.Pending := fun row hrow => absurd hrow List.not_mem_nil
  constructor
  · intro h pre x mid y post hsplit hkey hposts hposts' _
    have hx : x ∈ attempts cfg events := by simp [hsplit]
    have hy : y ∈ attempts cfg events := by simp [hsplit]
    rw [SubmitsOnce, hsplit, List.append_assoc] at h
    have hpair := (List.pairwise_cons.mp (List.pairwise_append.mp h).2.1).1 y (by simp)
    exact hpair ((x.submits_iff hlive (start_pending hlive hinit hx)).mpr hposts)
      ((y.submits_iff hlive (start_pending hlive hinit hy)).mpr hposts') hkey
  · exact submits_apart hlive hinit hclock

/-! ### The rows at the end -/

lemma Attempt.leaves_iff (hlive : cfg.isPaper = false) (hs : a.start.Pending)
    {row : SubmittedOrder} :
    a.Leaves cfg row ↔ a.Admitted cfg ∧ a.placement.env.ledgerWritable = true ∧
      row = ledgerRow a.start a.placement.env a.placement.req := by
  have hfresh : ledgerRow a.start a.placement.env a.placement.req ∉ a.start.submittedOrders :=
    fun h => absurd (hs _ h).2 (Nat.not_lt.mpr (Nat.le_succ a.start.nextId))
  rcases a.next_records hlive hs with ⟨hadmitted, hrows, _⟩ | ⟨hrefused, hrows, _⟩
  · rw [Leaves, hrows]
    constructor
    · rintro ⟨hmem, hnew⟩
      have hrow := (List.mem_append.mp hmem).resolve_left hnew
      split_ifs at hrow with hwritable
      · exact ⟨hadmitted, hwritable, List.mem_singleton.mp hrow⟩
      · cases hrow
    · rintro ⟨_, hwritable, rfl⟩
      exact ⟨by simp [hwritable], hfresh⟩
  · simp [Leaves, hrows, hrefused]

/-- Rows are never deleted, and they stay pending. -/
lemma sessionEnd_records (hlive : cfg.isPaper = false) (hs : s.Pending)
    (events : List SessionEvent) :
    (∀ row ∈ s.submittedOrders, row ∈ (sessionEnd cfg s events).submittedOrders) ∧
      (sessionEnd cfg s events).Pending := by
  induction events generalizing s with
  | nil => exact ⟨fun _ h => h, hs⟩
  | cons event events ih =>
    cases event with
    | restart => exact ih (s := s.restart) hs
    | place p =>
      obtain ⟨hkept, hend⟩ := ih (Attempt.next_pending (a := ⟨0, s, p⟩) hlive hs)
      refine ⟨fun row hrow => hkept row ?_, hend⟩
      rcases Attempt.next_records (a := ⟨0, s, p⟩) hlive hs with ⟨_, hrows, _⟩ | ⟨_, hrows, _⟩
      · rw [hrows]
        exact List.mem_append_left _ hrow
      · exact hrows ▸ hrow

lemma next_subset_sessionEnd (hlive : cfg.isPaper = false) (hs : s.Pending) {life : ℕ}
    {events : List SessionEvent} (h : a ∈ attemptsFrom cfg life s events) {row : SubmittedOrder}
    (hrow : row ∈ (a.placement.next cfg a.start).submittedOrders) :
    row ∈ (sessionEnd cfg s events).submittedOrders := by
  induction events generalizing life s with
  | nil => cases h
  | cons event events ih =>
    cases event with
    | restart => exact ih (s := s.restart) hs h
    | place p =>
      have hnext : (p.next cfg s).Pending := Attempt.next_pending (a := ⟨life, s, p⟩) hlive hs
      rw [attemptsFrom, List.mem_cons] at h
      rcases h with rfl | h
      · exact (sessionEnd_records hlive hnext events).1 row hrow
      · exact ih hnext h

lemma tellsFailures_iff (hlive : cfg.isPaper = false) (events : List SessionEvent) :
    TellsFailures cfg events ↔ OneOutcome cfg (attempts cfg events) := by
  have hinit : Executor.init.Pending := fun row hrow => absurd hrow List.not_mem_nil
  have hpending : ∀ x ∈ attempts cfg events, x.start.Pending :=
    fun x hx => start_pending hlive hinit hx
  constructor
  · intro h
    -- two outcomes leave two rows, and both are pending at the end
    have himp : ∀ x ∈ attempts cfg events, ∀ y ∈ attempts cfg events, x.Admitted cfg →
        x.placement.env.ledgerWritable → y.Admitted cfg → y.placement.env.ledgerWritable →
        y.Completes cfg → x.Completes cfg := by
      intro x hx y hy hadmitted hwritable hadmitted' hwritable' hcompletes
      by_contra hfails
      have hleaves := (x.leaves_iff hlive (hpending x hx)).mpr ⟨hadmitted, hwritable, rfl⟩
      have hleaves' := (y.leaves_iff hlive (hpending y hy)).mpr ⟨hadmitted', hwritable', rfl⟩
      have hend := (sessionEnd_records hlive hinit events).2
      have hfinal := next_subset_sessionEnd hlive hinit hx hleaves.1
      have hfinal' := next_subset_sessionEnd hlive hinit hy hleaves'.1
      refine h x hx y hy (mt (x.succeeds_iff hlive (hpending x hx)).mp hfails)
        ((y.succeeds_iff hlive (hpending y hy)).mpr hcompletes) _ _ hleaves hleaves' _ hfinal _
        hfinal' rfl rfl ?_
      rw [(hend _ hfinal).1, (hend _ hfinal').1]
    intro x hx y hy hadmitted hwritable hadmitted' hwritable'
    exact ⟨himp y hy x hx hadmitted' hwritable' hadmitted hwritable,
      himp x hx y hy hadmitted hwritable hadmitted' hwritable'⟩
  · intro h x hx y hy hfails hsucceeds row row' hleaves hleaves'
    obtain ⟨hadmitted, hwritable, _⟩ := (x.leaves_iff hlive (hpending x hx)).mp hleaves
    obtain ⟨hadmitted', hwritable', _⟩ := (y.leaves_iff hlive (hpending y hy)).mp hleaves'
    rw [x.succeeds_iff hlive (hpending x hx)] at hfails
    rw [y.succeeds_iff hlive (hpending y hy)] at hsucceeds
    exact absurd ((h x hx y hy hadmitted hwritable hadmitted' hwritable').mpr hsucceeds) hfails

/-! ### Sessions of live placements -/

/-- Submissions stay apart where the cache reaches; the rows of the ledger neither refuse a
submission nor show how it ended. -/
theorem session_idempotent_iff (hlive : cfg.isPaper = false) (events : List SessionEvent)
    (hclock : ((attempts cfg events).map Attempt.time).Pairwise (· ≤ ·)) :
    SubmitsOnce cfg events ∧ TellsFailures cfg events ↔
      CacheSuffices cfg (attempts cfg events) ∧ OneOutcome cfg (attempts cfg events) := by
  rw [submitsOnce_iff hlive hclock, tellsFailures_iff hlive]

/-- A placement at `now`, whose posts are all answered by `reply`. -/
def submissionAt (now : Time) (reply : Except CallError Response) (crash : Option ℕ := none) :
    SessionEvent :=
  .place ⟨threeChunks, { now }, scripted (fun _ => reply) (fun _ => .error .network)
    fun _ => .failed, crash⟩

/-- A placement, a restart, and the same placement again at `later`. -/
def placedAgain (later : Time) (reply : Except CallError Response) : List SessionEvent :=
  [submissionAt 0 (acknowledged "x"), .restart, submissionAt later reply]

/-- The theorem where the second placement comes after the window. -/
theorem session_idempotent_later :
    CacheSuffices liveConfig (attempts liveConfig (placedAgain (minutes 7) (acknowledged "y"))) ∧
      OneOutcome liveConfig (attempts liveConfig (placedAgain (minutes 7) (acknowledged "y"))) := by
  apply (session_idempotent_iff rfl _ (by decide +kernel)).mp
  constructor
  · refine List.pairwise_cons.mpr ⟨fun y hy _ _ _ => ?_, List.pairwise_singleton _ _⟩
    rw [List.mem_singleton.mp hy]
    decide +kernel
  · have hall : ∀ x ∈ attempts liveConfig (placedAgain (minutes 7) (acknowledged "y")),
        x.placement.succeeds liveConfig x.start = true := by decide +kernel
    exact fun x hx y _ hfails => absurd (hall x hx) hfails

/-- Seconds after an acknowledged placement and a restart the same placement is submitted again; it
is not acknowledged, and both rows are pending. -/
theorem session_resubmits :
    ((attempts liveConfig (placedAgain (seconds 1) (.error .timeout))).map
      Attempt.time).Pairwise (· ≤ ·) ∧
    ¬ SubmitsOnce liveConfig (placedAgain (seconds 1) (.error .timeout)) ∧
    ¬ TellsFailures liveConfig (placedAgain (seconds 1) (.error .timeout)) := by
  refine ⟨by decide +kernel, fun h => ?_, fun h => ?_⟩
  · have hpair := (List.pairwise_cons.mp h).1 _ (List.mem_singleton_self _) (by decide +kernel)
      (by decide +kernel) rfl
    exact absurd hpair (by decide +kernel)
  · have hsame := h _ (List.mem_cons_of_mem _ (List.mem_singleton_self _)) _ List.mem_cons_self
      (by decide +kernel) (by decide +kernel) ⟨3, "m", .yes, 60, "pending", seconds 1⟩
      ⟨1, "m", .yes, 60, "pending", 0⟩ (by decide +kernel) (by decide +kernel) _
      (by decide +kernel) _ (by decide +kernel) rfl rfl
    exact hsame rfl

end PolyCortex
