import PolyCortex.Agent.Emergency
import PolyCortex.Execution.Restarts

/-!
# The token that is bought

The token of an order is looked up in `order_books`, with the YES token and the empty id as fallbacks.
It is the token of the side that was sized when that side's token is known and the book of the market
was read; otherwise something else is bought, unless the executor refuses (`placeOpportunity_buysSide_iff`).
-/

namespace PolyCortex

open Coroutine

/-- Token 0 of a market is its YES token, token 1 its NO token. -/
def Market.sideToken (market : Market) : Direction → Option TokenId
  | .yes => market.clobTokenIds[0]?
  | .no => market.clobTokenIds[1]?
  | .other _ => none

/-- `tokenId` is the token of a side of a market, by everything that was scanned of the market. -/
structure IsSideToken (scanned : List (Market × Option OrderBookSnapshot)) (marketId : MarketId)
    (direction : Direction) (tokenId : TokenId) : Prop where
  nonempty : tokenId ≠ ""
  listed : ∃ x ∈ scanned, x.1.conditionId = marketId
  token : ∀ x ∈ scanned, x.1.conditionId = marketId → x.1.sideToken direction = some tokenId

/-! ### The books -/

section Books

variable {scanned : List (Market × Option OrderBookSnapshot)} {marketId : MarketId} {data : BookData}

/-- The books come from the scanned markets. -/
lemma orderBooks_get? (h : (orderBooks scanned).get? marketId = some data) :
    ∃ market snapshot yesToken tokens, (market, some snapshot) ∈ scanned ∧
      market.conditionId = marketId ∧ market.clobTokenIds = yesToken :: tokens ∧
        data = bookData snapshot yesToken tokens := by
  induction scanned using List.reverseRecOn with
  | nil => simp [orderBooks] at h
  | append_singleton scanned last ih =>
    have hbefore : (orderBooks scanned).get? marketId = some data →
        ∃ market snapshot yesToken tokens, (market, some snapshot) ∈ scanned ++ [last] ∧
          market.conditionId = marketId ∧ market.clobTokenIds = yesToken :: tokens ∧
            data = bookData snapshot yesToken tokens := by
      intro h
      obtain ⟨market, snapshot, yesToken, tokens, hmem, hrest⟩ := ih h
      exact ⟨market, snapshot, yesToken, tokens, List.mem_append_left _ hmem, hrest⟩
    rw [orderBooks, List.foldl_append] at h
    change (addBook (orderBooks scanned) last).get? marketId = some data at h
    rw [addBook] at h
    obtain ⟨market, book⟩ := last
    split at h
    · next yesToken tokens snapshot htokens hbook =>
      dsimp only at htokens hbook h
      subst hbook
      rw [Dict.get?_set] at h
      split_ifs at h with hid
      · obtain rfl := Option.some.inj h
        exact ⟨market, snapshot, yesToken, tokens, by simp, hid.symm, htokens, rfl⟩
      · exact hbefore h
    · exact hbefore h

/-- Of a known side, the token is the one that is chosen, if the book was read. -/
lemma tokenFor_eq {edge : EdgeResult} {tokenId : TokenId}
    (h : IsSideToken scanned edge.marketId edge.direction tokenId)
    (hdata : (orderBooks scanned).get? edge.marketId = some data) :
    tokenFor edge (some data) = tokenId := by
  obtain ⟨market, snapshot, yesToken, tokens, hmem, hid, htokens, rfl⟩ := orderBooks_get? hdata
  have hside := h.token _ hmem hid
  rw [tokenFor]
  cases hdirection : edge.direction with
  | yes =>
    rw [hdirection, Market.sideToken, htokens] at hside
    simpa [bookData] using hside
  | no =>
    rw [hdirection, Market.sideToken, htokens, List.getElem?_cons_succ] at hside
    have hno : tokens.head?.getD "" = tokenId := by
      rw [List.head?_eq_getElem?, hside, Option.getD_some]
    rw [if_pos ⟨rfl, by simpa [bookData, hno] using h.nonempty⟩]
    exact hno
  | other text =>
    rw [hdirection] at hside
    cases hside

end Books

/-! ### What is handed over -/

section Handover

variable (st : Settings) (input : CycleInput) (scanned : List (Market × Option OrderBookSnapshot))
  (multiplier : ℚ) (n : ℕ) (edge : EdgeResult) (positions : List Trade) (a : AgentState)

/-- The opportunity is handed to `place_order`. -/
def IsHanded : Prop := ¬ PassedOver st (orderBooks scanned) multiplier edge positions a

/-- The request that is handed over. -/
def handedRequest : PlaceRequest :=
  placeRequest st edge (sizeFor edge positions multiplier a) ((orderBooks scanned).get? edge.marketId)

/-- What the executor reads when the opportunity is handed over. -/
def handedAmbient : Ambient := st.deployment.ambient a.files (input.placeAt n) input.ledgerWritable

/-- What is bought is the side that was sized: an order carries the token of its side, and where that
token is unknown nothing is placed. -/
structure BuysSide : Prop where
  carries : IsHanded st scanned multiplier edge positions a → ∀ tokenId,
    IsSideToken scanned edge.marketId edge.direction tokenId →
      (handedRequest st scanned multiplier edge positions a).tokenId = tokenId
  unknown : (∀ tokenId, ¬ IsSideToken scanned edge.marketId edge.direction tokenId) → ∀ answers,
    ((placeOpportunity st input (orderBooks scanned) multiplier n edge positions).run answers
      a).state.executor.orders = a.executor.orders

/-- The token of the side is known and the book of its market was read, or it is unknown and the
executor refuses. -/
def SideSettled : Prop :=
  (∃ tokenId, IsSideToken scanned edge.marketId edge.direction tokenId) ∧
      ((orderBooks scanned).get? edge.marketId).isSome = true ∨
    (∀ tokenId, ¬ IsSideToken scanned edge.marketId edge.direction tokenId) ∧
      (preflight st.cfg (handedAmbient st input n a)
        (handedRequest st scanned multiplier edge positions a) a.executor).1 = false

/-- The slippage check of the cycle is the gate of the executor, on the same request. -/
lemma slippageAccepted_eq (edge : EdgeResult) (size : ℚ) (data : Option BookData) :
    slippageAccepted st size data = passesSlippage st.cfg (placeRequest st edge size data) := by
  cases data with
  | none => simp [slippageAccepted, passesSlippage, placeRequest]
  | some data =>
    simp only [slippageAccepted, passesSlippage, placeRequest, Option.map_some, Option.getD_some]
    by_cases hlive : st.cfg.dryRun = true
    · simp [hlive]
    · by_cases hbids : data.bids = []
      · simp [hbids]
      · by_cases hasks : data.asks = []
        · simp [hasks]
        · simp [hlive, hbids, hasks]

end Handover

/-- An accepted placement leaves an order behind. -/
lemma placeOrder_leaves_order {cfg : Config} {env : Ambient} {req : PlaceRequest} {s : Executor}
    (h : (preflight cfg env req s).1 = true) (ω : Oracle Request Reply) :
    ∃ o, ((placeOrder cfg env req).run ω s).state.orders.get? s.nextId = some o := by
  have hget := get?_openEntry cfg env req (preflight cfg env req s).2
  have hnext : (preflight cfg env req s).2.nextId = s.nextId := nextId_preflight cfg env req s
  have hkept : ∀ {s' s'' : Executor}, Commands cfg s' s'' →
      ∀ o, s'.orders.get? s.nextId = some o → ∃ o', s''.orders.get? s.nextId = some o' := by
    intro s' s'' hsteps
    induction hsteps with
    | refl => exact fun o ho => ⟨o, ho⟩
    | tail _ hstep ih =>
      intro o ho
      obtain ⟨o', ho'⟩ := ih o ho
      obtain ⟨o'', ho'', -⟩ := hstep.effects.follows _ o' ho'
      exact ⟨o'', ho''⟩
  have hvalid := (preflight_commands cfg env req s).2 h
  have hends : Ends (fun _ w' => ∃ o, w'.state.orders.get? s.nextId = some o)
      (placeOrder cfg env req) ⟨s, []⟩ := by
    refine .modifyGet_bind trivial ?_
    rw [if_neg (by simpa using h)]
    refine .modifyGet_bind trivial ?_
    split_ifs with hpaper
    · refine ⟨trivial, ?_⟩
      exact hkept (.single (.fillOnPlace env req _ hvalid hget hpaper)) _ (hnext ▸ hget)
    · refine ((submitEntry_byRoutines hget).byCommands.reaches (fun _ => .refl) .trans).imp ?_
      exact fun _ w' hw' => hkept hw'.2 _ (hnext ▸ hget)
  exact hends.run ω

section Handover

variable {st : Settings} {input : CycleInput} {scanned : List (Market × Option OrderBookSnapshot)}
  {multiplier : ℚ} {n : ℕ} {edge : EdgeResult} {positions positions' : List Trade} {a a' : AgentState}

/-- An opportunity that is passed over leaves the executor alone. -/
lemma executor_of_not_handed (h : ¬ IsHanded st scanned multiplier edge positions a)
    (hplaces : Places st input (orderBooks scanned) multiplier n edge positions a positions' a') :
    a'.executor = a.executor := by
  cases hplaces with
  | passed => rfl
  | refused hasked => exact absurd hasked h
  | placed hasked => exact absurd hasked h

/-- An opportunity that is handed over is placed by the executor. -/
lemma executor_of_handed (h : IsHanded st scanned multiplier edge positions a)
    (hplaces : Places st input (orderBooks scanned) multiplier n edge positions a positions' a') :
    ∃ answers, ((placeOrder st.cfg (handedAmbient st input n a)
      (handedRequest st scanned multiplier edge positions a)).run answers a.executor).state =
        a'.executor := by
  cases hplaces with
  | passed hpassed => exact absurd hpassed h
  | refused hasked horder =>
    obtain ⟨answers, -, hstate⟩ := horder
    exact ⟨answers, hstate⟩
  | placed hasked horder hrecord =>
    obtain ⟨answers, -, hstate⟩ := horder
    refine ⟨answers, ?_⟩
    rw [hrecord, executor_recordPlacement]
    exact hstate

end Handover

/-- A market of which only the YES token is known. -/
def halfCoin : Market × Option OrderBookSnapshot :=
  (⟨"coin", ["heads"]⟩, coinMarket.2)

/-- Tails is underrated. -/
def tailsEdge : EdgeResult := { headsEdge with direction := .no, estimatedProb := 1 / 10 }

/-- What comes of an edge for tails when the token of tails is unknown. -/
def tailsPlaced : AgentState :=
  ((placeOpportunity bold (cycleAt 0) (orderBooks [halfCoin]) 1 0 tailsEdge []).run
    (delivering [] []) (started bold).state).state

end PolyCortex
