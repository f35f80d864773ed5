import PolyCortex.Coroutine.Monitor
import PolyCortex.Execution.Deduplication

/-!
# Which answers let a BUY go out

An operation runs in stretches, each begun by its call or by an answer. Only the call of a placement
opens an entry, and only two answers are followed by a BUY: a gas price within the limit, and the end
of the pause between two chunks (`program_behaves`). This holds whatever happens during the awaits.
-/

namespace PolyCortex

open Coroutine (Monitor Obeys Behaves modifyGet)

/-- How a stretch of an operation begins: with the call of a placement, or else with an answer (or
the call of another operation), after which a BUY may go out or not. -/
inductive StretchMode where
  | placement
  | resumed (releases : Bool)

/-- The answer lets the next chunk go out. -/
def releasesChunk (cfg : Config) : (q : Request) → Reply q → Bool
  | .sleep _, _ => true
  | .gasPrice _, gwei => gwei.all (· ≤ cfg.maxGasGwei)
  | .balance _, _ | .createAndPostOrder .., _ | .cancel .., _ | .status .., _ => false

def Request.isBuy : Request → Bool
  | .createAndPostOrder _ _ _ _ side => side = .buy
  | .balance _ | .gasPrice _ | .sleep _ | .cancel .. | .status .. => false

open Executor (NoPlacement)

/-- Entries are opened at the call of a placement, BUYs go out after the answers that release them. -/
def posting (cfg : Config) : Monitor StretchMode Executor Request Reply where
  enter q r := .resumed (releasesChunk cfg q r)
  updates
    | .placement, _, _ => True
    | .resumed _, s, s' => NoPlacement s s'
  asks
    | .placement, q => q.isBuy = false
    | .resumed releases, q => q.isBuy = true → releases = true

variable {cfg : Config} {s : Executor} {α : Type}

/-- However the stretch begins that reaches it, the program opens no entry, and its BUYs are released
by its own answers. -/
def PostsReleased (cfg : Config) (p : Program α) (s : Executor) : Prop :=
  ∀ releases, Obeys (posting cfg) (fun m _ _ => ∃ releases, m = .resumed releases)
    (.resumed releases) p s

namespace PostsReleased

lemma pure (a : α) : PostsReleased cfg (.pure a : Program α) s := fun releases => ⟨releases, rfl⟩

lemma bind {β : Type} {p : Program α} {f : α → Program β} (hp : PostsReleased cfg p s)
    (hf : ∀ a s, PostsReleased cfg (f a) s) : PostsReleased cfg (p.bind f) s := by
  intro releases
  apply (hp releases).bind
  rintro m a s' ⟨releases', rfl⟩
  exact hf a s' releases'

lemma get {f : Executor → Program α} (h : PostsReleased cfg (f s) s) :
    PostsReleased cfg (Coroutine.get.bind f) s :=
  fun releases => ⟨.refl s, h releases⟩

lemma modify {u : Executor → Executor} {f : Unit → Program α} (hu : NoPlacement s (u s))
    (h : PostsReleased cfg (f ()) (u s)) : PostsReleased cfg ((Coroutine.modify u).bind f) s :=
  fun releases => ⟨hu, h releases⟩

lemma modifyGet {u : Update α} (hu : NoPlacement s (u s).2) :
    PostsReleased cfg (Coroutine.modifyGet u) s :=
  fun releases => ⟨hu, releases, rfl⟩

/-- Asking for anything but a BUY. -/
lemma request {q : Request} {f : Reply q → Program α} (hq : q.isBuy = false)
    (h : ∀ r s, PostsReleased cfg (f r) s) : PostsReleased cfg ((request q).bind f) s := by
  intro releases
  refine ⟨fun hbuy => absurd hbuy (by simp [hq]), fun r s' => h r s' _⟩

lemma forEach {β : Type} {f : α → Program (List β)} {as : List α}
    (h : ∀ a s, PostsReleased cfg (f a) s) : PostsReleased cfg (Coroutine.forEach f as) s := by
  intro releases
  apply Behaves.forEach ?_ ⟨releases, rfl⟩
  rintro a m s' ⟨releases', rfl⟩
  exact h a s' releases'

end PostsReleased

/-! ### Cancelling and closing -/

lemma cancelOnExchange_postsReleased (id : OrderId) (exchangeIds : List ExchangeId) (s : Executor) :
    PostsReleased cfg (cancelOnExchange id exchangeIds) s := by
  induction exchangeIds generalizing s with
  | nil => exact .pure true
  | cons exchangeId exchangeIds ih =>
    apply PostsReleased.request rfl
    rintro (e | _) s'
    · exact .pure false
    · exact ih s'

lemma cancelOrder_postsReleased (id : OrderId) (s : Executor) :
    PostsReleased cfg (cancelOrder cfg id) s := by
  apply PostsReleased.get
  cases s.orders.get? id with
  | none => exact .pure false
  | some o =>
    dsimp only
    split_ifs
    · exact .pure true
    · exact .modify (cancelLocally_noPlacement id o) (.pure true)
    · apply (cancelOnExchange_postsReleased id _ s).bind
      intro confirmed s'
      rw [concludeCancel]
      split_ifs
      · exact .modify ((setStatus_noPlacement id .cancelled).trans
          (setBracketState_noPlacement id .cancelled)) (.pure true)
      · exact .pure false

/-- Cancel an order, and report it when that worked. -/
lemma cancelOrder_report_postsReleased (id : OrderId) (s : Executor) :
    PostsReleased cfg (do if ← cancelOrder cfg id then pure [id] else pure []) s := by
  apply (cancelOrder_postsReleased id s).bind
  intro cancelled s'
  split_ifs
  · exact .pure [id]
  · exact .pure []

lemma cancelIfOpen_postsReleased (id : OrderId) (s : Executor) :
    PostsReleased cfg (cancelIfOpen cfg id) s := by
  apply PostsReleased.get
  cases s.orders.get? id with
  | none => exact .pure []
  | some o =>
    dsimp only
    split_ifs
    · exact cancelOrder_report_postsReleased id s
    · exact .pure []

lemma cancelIfExpired_postsReleased (now : Time) (id : OrderId) (s : Executor) :
    PostsReleased cfg (cancelIfExpired cfg now id) s := by
  apply PostsReleased.get
  cases s.orders.get? id with
  | none => exact .pure []
  | some o =>
    dsimp only
    split_ifs
    · exact .modify (setStatus_noPlacement id .expired) (.pure [id])
    · exact .pure []
    · exact cancelOrder_report_postsReleased id s
    · exact .pure []
    · exact .pure []

lemma closePosition_postsReleased (env : Ambient) (req : CloseRequest) (s : Executor) :
    PostsReleased cfg (closePosition cfg env req) s := by
  rw [closePosition]
  by_cases hinvalid : ¬ (0 < req.price ∧ req.price < 1) ∨ req.sizeUsdc ≤ 0
  · rw [if_pos hinvalid]
    exact .pure none
  · rw [if_neg hinvalid]
    apply PostsReleased.bind
    · apply PostsReleased.modifyGet
      apply NoPlacement.insertOrder
      intro id
      simp [buildExitOrder_eq]
    · intro id s'
      split_ifs
      · exact .modify (.modifyOrder fun o _ => o.applyFill_sameTerms _ _ _) (.pure (some id))
      · apply PostsReleased.request rfl
        rintro (e | response) s''
        · exact .modify (setStatus_noPlacement id .cancelled) (.pure none)
        · dsimp only
          cases response.exchangeId? with
          | none => exact .pure (some id)
          | some exchangeId =>
            refine .modify (.modifyOrder fun o _ => ?_) (.pure (some id))
            constructor <;> rfl

/-! ### Reconciling -/

lemma fetchLiveExchangeStatus_postsReleased (id : OrderId) (exchangeId : ExchangeId)
    (methods : List StatusMethod) (s : Executor) :
    PostsReleased cfg (fetchLiveExchangeStatus id exchangeId methods) s := by
  induction methods generalizing s with
  | nil => exact .pure none
  | cons method methods ih =>
    apply PostsReleased.request rfl
    rintro (_ | _ | _ | response) s'
    · exact ih s'
    · exact .pure none
    · exact .pure none
    · dsimp only
      cases parseLiveStatusResponse response with
      | none => exact ih s'
      | some row => exact .pure (some row)

lemma reconcileLiveEntry_postsReleased (now : Time) (id : OrderId) (exchangeIds : List ExchangeId)
    (s : Executor) : PostsReleased cfg (reconcileLiveEntry cfg now id exchangeIds) s := by
  apply PostsReleased.bind
  · apply PostsReleased.forEach
    intro exchangeId s'
    apply (fetchLiveExchangeStatus_postsReleased id exchangeId _ s').bind
    exact fun row s'' => .pure row.toList
  · exact fun rows s' => .modifyGet (applyStatusRows_noPlacement id rows now s')

lemma armDeferred_postsReleased (now : Time) (id : OrderId) (s : Executor) :
    PostsReleased cfg (modifyGet (armDeferred cfg now id)) s :=
  .modifyGet (armDeferred_armings ..).noPlacement

lemma reconcileOrder_postsReleased (books : MarketBooks) (now : Time) (id : OrderId) (s : Executor) :
    PostsReleased cfg (reconcileOrder cfg books now id) s := by
  have hdeferred : ∀ (events : List OrderLifecycleEvent) (s : Executor),
      PostsReleased cfg (modifyGet (armDeferred cfg now id) >>= fun armed =>
        pure (events ++ armed)) s :=
    fun events s => (armDeferred_postsReleased now id s).bind fun armed s' => .pure _
  apply PostsReleased.get
  cases hget : s.orders.get? id with
  | none => exact .pure []
  | some o =>
    dsimp only
    cases o.orderKind with
    | entry =>
      dsimp only
      split_ifs
      · exact .pure []
      · rw [reconcileEntry]
        split_ifs
        · exact (reconcileLiveEntry_postsReleased now id _ s).bind hdeferred
        · cases books o.marketId with
          | none => exact .pure []
          | some data =>
            exact (PostsReleased.modifyGet
              (reconcilePaperEntry_noPlacement hget data now)).bind hdeferred
        · exact armDeferred_postsReleased now id s
    | takeProfit | stopLoss =>
      dsimp only
      cases books o.marketId with
      | none => exact .pure []
      | some data => exact .modifyGet (reconcileChild_noPlacement hget data now)
    | exit => exact .pure []

/-! ### Placing -/

/-- A chunk that was released goes out, and the pause after it releases the next one. -/
lemma postChunks_obeys (id : OrderId) (tokenId : TokenId) (price chunkSize : ℚ) (chunks : ℕ)
    (exchangeIds : List ExchangeId) (s : Executor) :
    Obeys (posting cfg) (fun m _ _ => ∃ releases, m = .resumed releases) (.resumed true)
      (postChunks id tokenId price chunkSize chunks exchangeIds) s := by
  induction chunks generalizing exchangeIds s with
  | zero => exact ⟨true, rfl⟩
  | succ chunks ih =>
    refine ⟨fun _ => rfl, ?_⟩
    rintro (e | response) s'
    · exact ⟨false, rfl⟩
    · change Obeys _ _ _ (ite _ _ _) _
      by_cases hlast : chunks = 0
      · subst hlast
        exact ⟨false, rfl⟩
      · rw [if_pos hlast]
        refine ⟨fun hbuy => absurd hbuy (by simp [Request.isBuy]), fun _ s'' => ?_⟩
        exact ih _ s''

lemma assertSufficientBalance_obeys (id : OrderId) (size : ℚ) (s : Executor) :
    Obeys (posting cfg) (fun m _ _ => m = .resumed false) .placement
      (assertSufficientBalance id size) s := by
  refine ⟨rfl, ?_⟩
  rintro (_ | balance) s'
  · rfl
  · change Obeys _ _ _ (ite _ _ _) _
    split_ifs <;> rfl

/-- The check of the gas price passes on an answer that releases the first chunk. -/
lemma checkGasPrice_obeys (id : OrderId) (s : Executor) :
    Obeys (posting cfg) (fun m checked _ => ∃ releases, m = .resumed releases ∧
        (checked = .ok () → releases = true)) (.resumed false) (checkGasPrice cfg id) s := by
  refine ⟨fun hbuy => absurd hbuy (by simp [Request.isBuy]), ?_⟩
  rintro (_ | gwei) s'
  · exact ⟨true, rfl, fun _ => rfl⟩
  · change Obeys (posting cfg) _ (.resumed (decide (gwei ≤ cfg.maxGasGwei))) (ite _ _ _) _
    split_ifs with hlimit
    · exact ⟨_, rfl, fun h => by cases h⟩
    · exact ⟨_, rfl, fun _ => by simpa using hlimit⟩

lemma submitChunks_obeys (req : PlaceRequest) (id : OrderId) (s : Executor) :
    Obeys (posting cfg) (fun m _ _ => ∃ releases, m = .resumed releases) .placement
      (submitChunks cfg req id) s := by
  apply (assertSufficientBalance_obeys id req.sizeUsdc s).bind
  rintro m (e | _) s' rfl
  · exact ⟨false, rfl⟩
  · apply (checkGasPrice_obeys id s').bind
    rintro m (e | _) s'' ⟨releases, rfl, hreleases⟩
    · exact ⟨releases, rfl⟩
    · obtain rfl := hreleases rfl
      exact postChunks_obeys ..

lemma acknowledgeEntry_noPlacement (req : PlaceRequest) (id : OrderId)
    (exchangeIds : List ExchangeId) : NoPlacement s (acknowledgeEntry cfg req id exchangeIds s) := by
  apply NoPlacement.modifyOrder
  intro o _
  constructor <;> rfl

lemma placeOrder_obeys (env : Ambient) (req : PlaceRequest) (s : Executor) :
    Behaves (posting cfg) .placement (placeOrder cfg env req) s := by
  refine ⟨trivial, ?_⟩
  show Behaves _ _ (ite _ _ _) _
  by_cases haccepted : (preflight cfg env req s).1 = true
  · rw [if_neg (not_not.mpr haccepted)]
    refine ⟨trivial, ?_⟩
    by_cases hpaper : cfg.isPaper = true
    · simp only [hpaper]
      exact ⟨trivial, trivial⟩
    · simp only [hpaper]
      refine ⟨trivial, ?_⟩
      show Behaves _ _ (ite _ _ _) _
      split_ifs
      · apply (submitChunks_obeys req _ _).bind
        rintro m (e | exchangeIds) s' ⟨releases, rfl⟩
        · exact ⟨setStatus_noPlacement _ .cancelled, trivial⟩
        · exact ⟨acknowledgeEntry_noPlacement req _ exchangeIds, trivial⟩
      · exact ⟨trivial, trivial⟩
  · rw [if_pos haccepted]
    trivial

/-- How the first stretch of a call begins. -/
def Call.mode (call : Call) : StretchMode :=
  match call.op with
  | .placeOrder _ => .placement
  | .cancelOrder _ | .cancelAllOpenOrders | .cancelExpiredOrders | .closePosition _
  | .reconcileOrders _ => .resumed false

/-- Every operation behaves as `posting` says. -/
lemma program_behaves (call : Call) (s : Executor) :
    Behaves (posting cfg) call.mode (call.program cfg) s := by
  have hresult : ∀ {β : Type} {p : Program β} (f : β → OpResult), PostsReleased cfg p s →
      Behaves (posting cfg) (.resumed false) (f <$> p) s := by
    intro β p f hp
    exact (hp false).bind fun m a s' _ => trivial
  obtain ⟨op, env⟩ := call
  cases op with
  | placeOrder req => exact (placeOrder_obeys env req s).bind fun m a s' => trivial
  | cancelOrder id => exact hresult _ (cancelOrder_postsReleased id s)
  | cancelAllOpenOrders =>
    apply hresult
    apply PostsReleased.get
    exact (PostsReleased.forEach cancelIfOpen_postsReleased).bind fun ids s' => .pure ids.length
  | cancelExpiredOrders =>
    exact hresult _ (.get (.forEach (cancelIfExpired_postsReleased env.now)))
  | closePosition req => exact hresult _ (closePosition_postsReleased env req s)
  | reconcileOrders books =>
    exact hresult _ (.get (.forEach (reconcileOrder_postsReleased books env.now)))

end PolyCortex
