import PolyCortex.Execution.Mirror
import PolyCortex.Numeric.WeightedMean

/-!
# The slippage gate

A live placement is checked against the asks of the YES book, whatever it buys. Who buys NO takes the
bids of that book, at their complements; the gate judges such an order by the side it does not touch
(`slippageGate_iff`), and one-sided books are let through.
-/

namespace PolyCortex

open Coroutine Rounding Weighted

/-! ### The walk over the levels -/

/-- The sizes of the levels together. -/
def depthOf (levels : List Level) : ℚ := (levels.map (·.2)).sum

/-- What the walk takes of the levels, as weights with their prices. -/
def takenParts : ℚ → List Level → List (ℚ × ℚ)
  | _, [] => []
  | size, level :: levels =>
    if size ≤ 0 then []
    else (min size level.2, level.1) :: takenParts (size - min size level.2) levels

/-- The average price of what is taken. -/
def averageCost (size : ℚ) (levels : List Level) : ℚ := mean (takenParts size levels)

variable {size : ℚ} {levels bids asks : List Level}

lemma walkBook_eq (levels : List Level) (walk : BookWalk) :
    walkBook levels walk =
      { remaining := walk.remaining - weight (takenParts walk.remaining levels)
        totalCost := walk.totalCost + total (takenParts walk.remaining levels)
        totalFilled := walk.totalFilled + weight (takenParts walk.remaining levels)
        levelsConsumed := walk.levelsConsumed + (takenParts walk.remaining levels).length } := by
  induction levels generalizing walk with
  | nil => simp [walkBook, takenParts]
  | cons level levels ih =>
    rw [walkBook, takenParts]
    by_cases hdone : walk.remaining ≤ 0
    · simp [hdone]
    · rw [if_neg hdone, if_neg hdone, ih]
      simp only [weight_cons, total_cons, List.length_cons, BookWalk.mk.injEq]
      refine ⟨by ring, by ring, by ring, by omega⟩

lemma depthOf_cons (level : Level) (levels : List Level) :
    depthOf (level :: levels) = level.2 + depthOf levels := by
  rw [depthOf, List.map_cons, List.sum_cons, depthOf]

lemma depthOf_nonneg (hsizes : ∀ level ∈ levels, 0 < level.2) : 0 ≤ depthOf levels := by
  refine List.sum_nonneg fun depth hdepth => ?_
  obtain ⟨level, hlevel, rfl⟩ := List.mem_map.mp hdepth
  exact (hsizes level hlevel).le

lemma depthOf_pos (hsizes : ∀ level ∈ levels, 0 < level.2) (hne : levels ≠ []) : 0 < depthOf levels := by
  obtain ⟨level, levels, rfl⟩ := List.exists_cons_of_ne_nil hne
  have hrest : 0 ≤ depthOf levels :=
    depthOf_nonneg fun other hother => hsizes other (List.mem_cons_of_mem _ hother)
  rw [depthOf_cons]
  exact add_pos_of_pos_of_nonneg (hsizes level List.mem_cons_self) hrest

lemma depthOf_perm {levels' : List Level} (h : levels.Perm levels') : depthOf levels = depthOf levels' :=
  (h.map _).sum_eq

/-- The walk takes the size, or all there is. -/
lemma weight_takenParts (hsizes : ∀ level ∈ levels, 0 < level.2) (hsize : 0 ≤ size) :
    weight (takenParts size levels) = min size (depthOf levels) := by
  induction levels generalizing size with
  | nil => simp [takenParts, depthOf, hsize]
  | cons level levels ih =>
    have hlevel := hsizes level List.mem_cons_self
    have hrest : ∀ other ∈ levels, 0 < other.2 := fun other hother =>
      hsizes other (List.mem_cons_of_mem _ hother)
    have hdepth : 0 ≤ depthOf levels := depthOf_nonneg hrest
    rw [takenParts, depthOf_cons]
    split_ifs with hdone
    · rw [le_antisymm hdone hsize, min_eq_left (by linarith), weight_nil]
    · rw [weight_cons, ih hrest (sub_nonneg.mpr (min_le_left _ _))]
      rcases le_total size level.2 with hle | hle
      · rw [min_eq_left hle, sub_self, min_eq_left hdepth, min_eq_left (by linarith), add_zero]
      · rw [min_eq_right hle, ← min_add_add_left, add_sub_cancel]

/-- Taking the complements of the prices leaves the sizes. -/
lemma takenParts_mirror (size : ℚ) (levels : List Level) :
    takenParts size (levels.map Level.mirror) =
      (takenParts size levels).map fun part => (part.1, 1 - part.2) := by
  induction levels generalizing size with
  | nil => rfl
  | cons level levels ih =>
    rw [List.map_cons, takenParts, takenParts]
    split_ifs with hdone
    · rfl
    · rw [List.map_cons, ← ih]
      rfl

/-! ### The estimate -/

/-- The rounded slippage of an average price, in basis points of the midpoint. -/
def slippageOf (midpoint vwap : ℚ) : ℚ :=
  roundTo 2 ((if 0 < midpoint then (vwap - midpoint) / midpoint else 0) * 10000)

/-- The midpoint of the first levels. -/
def midpointOf (bids asks : List Level) : ℚ :=
  ((bids.head?.map (·.1)).getD 0 + (asks.head?.map (·.1)).getD 0) / 2

/-- The best asks, and the best bids, come first. -/
def byAsk (asks : List Level) : List Level := asks.insertionSort fun a b => a.1 ≤ b.1

def byBid (bids : List Level) : List Level := bids.insertionSort fun a b => b.1 ≤ a.1

lemma consumedSide_buy (bids asks : List Level) : consumedSide .buy bids asks = byAsk asks := rfl

/-- The levels have the size, at an average price within the limit. -/
def Affordable (size maxBps depth midpoint vwap : ℚ) : Prop :=
  0 < size ∧ size ≤ depth ∧ slippageOf midpoint vwap ≤ maxBps

instance (size maxBps depth midpoint vwap : ℚ) :
    Decidable (Affordable size maxBps depth midpoint vwap) :=
  inferInstanceAs (Decidable (_ ∧ _ ∧ _))

variable {maxBps : ℚ}

/-- The slippage of an average price of either side, in basis points of the midpoint, rounded. -/
def sideSlippage (side : Side) (midpoint vwap : ℚ) : ℚ :=
  roundTo 2
    ((if 0 < midpoint then
        match side with
        | .buy => (vwap - midpoint) / midpoint
        | .sell => (midpoint - vwap) / midpoint
      else 0) * 10000)

variable {side : Side}

lemma consumedSide_perm (side : Side) (bids asks : List Level) :
    (consumedSide side bids asks).Perm (match side with | .buy => asks | .sell => bids) := by
  cases side <;> exact List.perm_insertionSort _ _

/-- The estimate for a book with two sides. -/
lemma estimateSlippage_eq (hbids : bids ≠ []) (hasks : asks ≠ [])
    (hsizes : ∀ level ∈ consumedSide side bids asks, 0 < level.2) (hsize : 0 < size) :
    estimateSlippage size side bids asks =
      { estimatedVwap := averageCost size (consumedSide side bids asks)
        midpoint := midpointOf bids asks
        slippageBps := some
          (sideSlippage side (midpointOf bids asks) (averageCost size (consumedSide side bids asks)))
        totalDepthUsdc :=
          roundTo 2 ((consumedSide side bids asks).map fun level => level.1 * level.2).sum
        levelsConsumed := (takenParts size (consumedSide side bids asks)).length
        sufficientLiquidity := size ≤ depthOf (consumedSide side bids asks) } := by
  have hne : consumedSide side bids asks ≠ [] := by
    intro hnil
    have hperm := (hnil ▸ consumedSide_perm side bids asks).nil_eq
    cases side with
    | buy => exact hasks hperm.symm
    | sell => exact hbids hperm.symm
  have hwalk := walkBook_eq (consumedSide side bids asks) { remaining := size }
  have hweight := weight_takenParts hsizes hsize.le
  have hfilled : 0 < min size (depthOf (consumedSide side bids asks)) :=
    lt_min hsize (depthOf_pos hsizes hne)
  have hvwap : averageCost size (consumedSide side bids asks) =
      total (takenParts size (consumedSide side bids asks)) /
        min size (depthOf (consumedSide side bids asks)) := by
    rw [averageCost, mean, hweight]
  simp only [zero_add, hweight] at hwalk
  rw [hvwap]
  obtain ⟨⟨bestBid, bidSize⟩, bids, rfl⟩ := List.exists_cons_of_ne_nil hbids
  obtain ⟨⟨bestAsk, askSize⟩, asks, rfl⟩ := List.exists_cons_of_ne_nil hasks
  simp only [estimateSlippage, hwalk, if_neg (not_le.mpr hfilled), SlippageEstimate.mk.injEq,
    true_and]
  refine ⟨rfl, ?_, by simp⟩
  cases side <;> rfl

/-- Nothing is filled for a size that is not positive. -/
lemma estimateSlippage_of_nonpos (hsize : size ≤ 0) (side : Side) (bids asks : List Level) :
    (estimateSlippage size side bids asks).sufficientLiquidity = false := by
  have hwalk := walkBook_eq (consumedSide side bids asks) { remaining := size }
  have hnone : takenParts size (consumedSide side bids asks) = [] := by
    cases consumedSide side bids asks with
    | nil => rfl
    | cons level levels => rw [takenParts, if_pos hsize]
  simp only [hnone, weight_nil, add_zero] at hwalk
  cases bids with
  | nil => rfl
  | cons bid bids =>
    cases asks with
    | nil => rfl
    | cons ask asks => simp only [estimateSlippage, hwalk, le_refl, if_true]

/-- The estimate of a buy, for a book with two sides. -/
lemma estimateSlippage_buy (hbids : bids ≠ []) (hasks : asks ≠ [])
    (hsizes : ∀ level ∈ asks, 0 < level.2) (hsize : 0 < size) :
    (estimateSlippage size .buy bids asks).sufficientLiquidity = decide (size ≤ depthOf asks) ∧
      (estimateSlippage size .buy bids asks).slippageBps =
        some (slippageOf (midpointOf bids asks) (averageCost size (byAsk asks))) := by
  have hperm : (byAsk asks).Perm asks := List.perm_insertionSort _ asks
  have hsizes' : ∀ level ∈ consumedSide .buy bids asks, 0 < level.2 := fun level hlevel =>
    hsizes level (hperm.mem_iff.mp hlevel)
  rw [estimateSlippage_eq hbids hasks hsizes' hsize, consumedSide_buy, depthOf_perm hperm]
  exact ⟨rfl, rfl⟩

/-- A buy is fine when the asks have the size within the limit. -/
lemma checkSlippageOk_buy_iff (hbids : bids ≠ []) (hasks : asks ≠ [])
    (hsizes : ∀ level ∈ asks, 0 < level.2) :
    checkSlippageOk size .buy bids asks maxBps = true ↔
      Affordable size maxBps (depthOf asks) (midpointOf bids asks) (averageCost size (byAsk asks)) := by
  rw [checkSlippageOk, Affordable, Bool.and_eq_true]
  by_cases hsize : 0 < size
  · obtain ⟨hliquid, hslippage⟩ := estimateSlippage_buy hbids hasks hsizes hsize
    rw [hliquid, hslippage]
    simp [hsize]
  · rw [estimateSlippage_of_nonpos (not_lt.mp hsize) .buy]
    simp [hsize]

/-! ### The book of the token -/

/-- The book of the token that is bought, from the YES book: for NO the other side of every level. -/
def tokenBook (direction : Direction) (bids asks : List Level) : List Level × List Level :=
  if direction = .no then (asks.map Level.mirror, bids.map Level.mirror) else (bids, asks)

lemma byAsk_mirror (bids : List Level) :
    byAsk (bids.map Level.mirror) = (byBid bids).map Level.mirror := by
  refine (List.map_insertionSort _ _ _ _ fun a _ b _ => ?_).symm
  exact (sub_le_sub_iff_left (1 : ℚ)).symm

lemma depthOf_mirror (levels : List Level) : depthOf (levels.map Level.mirror) = depthOf levels := by
  rw [depthOf, List.map_map]
  rfl

lemma midpointOf_mirror (hbids : bids ≠ []) (hasks : asks ≠ []) :
    midpointOf (asks.map Level.mirror) (bids.map Level.mirror) = 1 - midpointOf bids asks := by
  obtain ⟨bid, bids, rfl⟩ := List.exists_cons_of_ne_nil hbids
  obtain ⟨ask, asks, rfl⟩ := List.exists_cons_of_ne_nil hasks
  simp only [midpointOf, List.map_cons, List.head?_cons, Option.map_some, Option.getD_some, Level.mirror]
  ring

/-- Who buys NO pays the complement of what the bids pay. -/
lemma averageCost_mirror (hsizes : ∀ level ∈ levels, 0 < level.2) (hne : levels ≠ [])
    (hsize : 0 < size) :
    averageCost size (levels.map Level.mirror) = 1 - averageCost size levels := by
  have hweight := weight_takenParts hsizes hsize.le
  rw [averageCost, takenParts_mirror]
  refine mean_compl 1 ?_
  rw [hweight]
  exact (lt_min hsize (depthOf_pos hsizes hne)).ne'

/-- A buy of NO is fine when the bids have the size within the limit. -/
lemma checkSlippageOk_no_iff (hbids : bids ≠ []) (hasks : asks ≠ [])
    (hsizes : ∀ level ∈ bids, 0 < level.2) :
    checkSlippageOk size .buy (asks.map Level.mirror) (bids.map Level.mirror) maxBps = true ↔
      Affordable size maxBps (depthOf bids) (1 - midpointOf bids asks)
        (1 - averageCost size (byBid bids)) := by
  have hmirror : ∀ level ∈ bids.map Level.mirror, 0 < level.2 := fun level hlevel => by
    obtain ⟨bid, hbid, rfl⟩ := List.mem_map.mp hlevel
    exact hsizes bid hbid
  have hperm : (byBid bids).Perm bids := List.perm_insertionSort _ bids
  rw [checkSlippageOk_buy_iff (by simpa using hasks) (by simpa using hbids) hmirror, depthOf_mirror,
    midpointOf_mirror hbids hasks, byAsk_mirror, Affordable, Affordable]
  refine and_congr_right fun hsize => ?_
  rw [averageCost_mirror (fun level hlevel => hsizes level (hperm.mem_iff.mp hlevel))
    (fun hnil => hbids (List.nil_perm.mp (hnil ▸ hperm))) hsize]

/-! ### The gate -/

variable {cfg : Config} {env : Ambient} {req : PlaceRequest}

/-- The request is valid, and rejected for slippage. -/
def RejectedForSlippage (cfg : Config) (env : Ambient) (req : PlaceRequest) : Prop :=
  validateOrder cfg env req = none ∧ passesSlippage cfg req = false

/-- Such a request asks nothing of the exchange and changes nothing. -/
lemma RejectedForSlippage.run_placeOrder (h : RejectedForSlippage cfg env req) (ω : Oracle Request Reply)
    (s : Executor) :
    ((placeOrder cfg env req).run ω s).result = none ∧ ((placeOrder cfg env req).run ω s).trace = [] ∧
      ((placeOrder cfg env req).run ω s).state = s := by
  have hpreflight : preflight cfg env req s = (false, s) := by
    rw [preflight, h.1, h.2]
    rfl
  simp [placeOrder, hpreflight]

/-- A book with one side only is too little for the estimate. -/
lemma checkSlippageOk_of_oneSided (h : bids = [] ∨ asks = []) (size : ℚ) (side : Side) (maxBps : ℚ) :
    checkSlippageOk size side bids asks maxBps = false := by
  rcases h with rfl | rfl
  · rfl
  · cases bids <;> rfl

/-- The gate agrees with the estimate for the book of the token that is bought, exactly when the book
has two sides and, for NO, the asks have the size within the limit if and only if the bids do. -/
theorem slippageGate_iff (hlive : cfg.dryRun = false) (hvalid : validateOrder cfg env req = none)
    (hbook : req.marketBook = some (bids, asks)) (hbids : ∀ level ∈ bids, 0 < level.2)
    (hasks : ∀ level ∈ asks, 0 < level.2) :
    (RejectedForSlippage cfg env req ↔
      checkSlippageOk req.sizeUsdc .buy (tokenBook req.direction bids asks).1
        (tokenBook req.direction bids asks).2 cfg.maxSlippageBps = false) ↔
      bids ≠ [] ∧ asks ≠ [] ∧ (req.direction = .yes ∨
        (Affordable req.sizeUsdc cfg.maxSlippageBps (depthOf asks) (midpointOf bids asks)
            (averageCost req.sizeUsdc (byAsk asks)) ↔
          Affordable req.sizeUsdc cfg.maxSlippageBps (depthOf bids) (1 - midpointOf bids asks)
            (1 - averageCost req.sizeUsdc (byBid bids)))) := by
  have hside := isSide_of_valid hvalid
  have hrejected : RejectedForSlippage cfg env req ↔ passesSlippage cfg req = false :=
    and_iff_right hvalid
  rw [hrejected, passesSlippage, hbook]
  dsimp only
  by_cases htwo : bids ≠ [] ∧ asks ≠ []
  · have hgate : ¬ cfg.dryRun = true ∧ bids ≠ [] ∧ asks ≠ [] := ⟨by simp [hlive], htwo⟩
    rw [if_pos hgate, ← Bool.not_eq_true, checkSlippageOk_buy_iff htwo.1 htwo.2 hasks]
    rcases hside with hyes | hno
    · have htoken : tokenBook req.direction bids asks = (bids, asks) := by rw [hyes]; rfl
      rw [htoken, ← Bool.not_eq_true, checkSlippageOk_buy_iff htwo.1 htwo.2 hasks]
      exact iff_of_true Iff.rfl ⟨htwo.1, htwo.2, Or.inl hyes⟩
    · have htoken : tokenBook req.direction bids asks =
          (asks.map Level.mirror, bids.map Level.mirror) := if_pos hno
      rw [htoken, ← Bool.not_eq_true, checkSlippageOk_no_iff htwo.1 htwo.2 hbids, not_iff_not]
      have hyes : ¬ req.direction = .yes := by simp [hno]
      simp [htwo, hyes]
  · have hgate : ¬ (¬ cfg.dryRun = true ∧ bids ≠ [] ∧ asks ≠ []) := fun h => htwo h.2
    have hempty : bids = [] ∨ asks = [] := by
      rwa [not_and_or, not_not, not_not] at htwo
    have hone : (tokenBook req.direction bids asks).1 = [] ∨
        (tokenBook req.direction bids asks).2 = [] := by
      unfold tokenBook
      split_ifs
      · simpa [or_comm] using hempty
      · exact hempty
    rw [if_neg hgate, checkSlippageOk_of_oneSided hone]
    exact iff_of_false (by simp) fun h => htwo ⟨h.1, h.2.1⟩

/-- A live executor, and a book with one share on the bids. -/
def gateConfig : Config := { dryRun := false, clobConnected := true }

def thinBids : List Level := [(499 / 1000, 1)]

def deepAsks : List Level := [(501 / 1000, 1000)]

def thinRequest (direction : Direction) : PlaceRequest where
  marketId := "m"
  direction
  sizeUsdc := 50
  price := 1 / 2
  tokenId := "t"
  marketBook := some (thinBids, deepAsks)

theorem slippageGate_iff_thinBids :
    RejectedForSlippage gateConfig { now := 0 } (thinRequest .yes) ↔
      checkSlippageOk 50 .buy thinBids deepAsks 50 = false :=
  (slippageGate_iff rfl (by decide +kernel) rfl (by decide +kernel) (by decide +kernel)).mpr
    ⟨List.cons_ne_nil _ _, List.cons_ne_nil _ _, Or.inl rfl⟩

/-- Who buys 50 of NO finds one share, and is let through. -/
theorem thinBids_let_through :
    ¬ RejectedForSlippage gateConfig { now := 0 } (thinRequest .no) ∧
      validateOrder gateConfig { now := 0 } (thinRequest .no) = none ∧
      checkSlippageOk 50 .buy (tokenBook .no thinBids deepAsks).1 (tokenBook .no thinBids deepAsks).2
        gateConfig.maxSlippageBps = false := by
  refine ⟨fun h => ?_, by decide +kernel, by decide +kernel⟩
  have hpasses : passesSlippage gateConfig (thinRequest .no) = true := by decide +kernel
  rw [h.2] at hpasses
  cases hpasses

end PolyCortex
