import PolyCortex.Agent.Emergency
import PolyCortex.Agent.Evolution
import PolyCortex.Coroutine.Crash

/-!
# The limits of the open trades

A position gets a size only while there is room for it among the open positions, and these are read
again after every placement. No other step of the agent opens a trade (`Tracker.NoneOpened`), so the
limits hold in every state that a cycle goes through (`positions_limited`).
-/

namespace PolyCortex

open Coroutine (Alone Meets Oracle World)

variable {t t' t'' : Tracker} {s : Executor} {p : Option String → Bool} {k : TradeId}
  {total perCategory : ℤ}

/-- The numbers of open trades, in all and of each category, are within the limits. -/
structure Tracker.WithinLimits (total perCategory : ℤ) (t : Tracker) : Prop where
  total : (t.getOpenPositions.length : ℤ) ≤ total
  perCategory : ∀ category : Option String,
    ((t.getOpenPositions.filter (·.category = category)).length : ℤ) ≤ perCategory

/-- Every trade that is open afterwards was open before, in the same category. -/
def Tracker.NoneOpened (t t' : Tracker) : Prop :=
  ∀ k trade', t'.getTrade k = some trade' → trade'.isOpen = true →
    ∃ trade, t.getTrade k = some trade ∧ trade.isOpen = true ∧ trade.category = trade'.category

/-! ### Counting open trades -/

/-- The number of open trades in the categories `p`. -/
def Tracker.openCount (p : Option String → Bool) (t : Tracker) : ℕ :=
  t.trades.countP fun trade => trade.isOpen && p trade.category

lemma countP_le_of_getElem? {α : Type} {q : α → Bool} {xs ys : List α}
    (h : ∀ (k : ℕ) (y : α), ys[k]? = some y → q y = true → ∃ x, xs[k]? = some x ∧ q x = true) :
    ys.countP q ≤ xs.countP q := by
  induction ys generalizing xs with
  | nil => simp
  | cons y ys ih =>
    cases xs with
    | nil =>
      have hnone : ∀ z ∈ y :: ys, ¬ q z = true := by
        intro z hz hq
        obtain ⟨k, hk⟩ := List.mem_iff_getElem?.mp hz
        obtain ⟨x, hx, -⟩ := h k z hk hq
        cases hx
      simp [List.countP_eq_zero.mpr hnone]
    | cons x xs =>
      have hrest : ys.countP q ≤ xs.countP q := ih fun k y => h (k + 1) y
      have hfirst : q y = true → q x = true := by
        intro hy
        obtain ⟨x', hx', hq⟩ := h 0 y rfl hy
        obtain rfl := Option.some.inj hx'
        exact hq
      simp only [List.countP_cons]
      split_ifs with hy hx
      · omega
      · exact absurd (hfirst hy) hx
      · omega
      · omega

lemma Tracker.length_getOpenPositions (t : Tracker) :
    t.getOpenPositions.length = t.openCount fun _ => true := by
  simp [Tracker.getOpenPositions, Tracker.openCount, List.countP_eq_length_filter]

lemma Tracker.length_inCategory (t : Tracker) (category : Option String) :
    (t.getOpenPositions.filter (·.category = category)).length =
      t.openCount fun c => c = category := by
  simp [Tracker.getOpenPositions, Tracker.openCount, List.countP_eq_length_filter, List.filter_filter,
    Bool.and_comm]

/-- The limits, in terms of the counts. -/
lemma Tracker.withinLimits_iff : t.WithinLimits total perCategory ↔
    (t.openCount fun _ => true) ≤ total ∧
      ∀ category, (t.openCount fun c => c = category) ≤ perCategory := by
  constructor
  · rintro ⟨htotal, hcategory⟩
    refine ⟨t.length_getOpenPositions ▸ htotal, fun category => ?_⟩
    exact t.length_inCategory category ▸ hcategory category
  · rintro ⟨htotal, hcategory⟩
    refine ⟨t.length_getOpenPositions ▸ htotal, fun category => ?_⟩
    exact (t.length_inCategory category).symm ▸ hcategory category

/-- A new row counts in its category. -/
lemma Tracker.openCount_insertTrade (p : Option String → Bool) (edge : EdgeResult) (size : ℚ)
    (order : Order) (now : Time) (t : Tracker) :
    (t.insertTrade edge size order now).openCount p =
      t.openCount p + if p edge.category then 1 else 0 := by
  simp [Tracker.openCount, Tracker.insertTrade, List.countP_append, List.countP_singleton,
    Trade.isOpen]

namespace Tracker.NoneOpened

lemma refl (t : Tracker) : t.NoneOpened t := fun _ trade h hopen => ⟨trade, h, hopen, rfl⟩

lemma trans (h : t.NoneOpened t') (h' : t'.NoneOpened t'') : t.NoneOpened t'' := by
  intro k trade'' hrow'' hopen''
  obtain ⟨trade', hrow', hopen', hcategory'⟩ := h' k trade'' hrow'' hopen''
  obtain ⟨trade, hrow, hopen, hcategory⟩ := h k trade' hrow' hopen'
  exact ⟨trade, hrow, hopen, hcategory.trans hcategory'⟩

/-- The counts do not grow. -/
lemma openCount_le (h : t.NoneOpened t') (p : Option String → Bool) :
    t'.openCount p ≤ t.openCount p := by
  refine countP_le_of_getElem? fun k trade' hrow' hcounts => ?_
  obtain ⟨hopen', hp⟩ := (Bool.and_eq_true _ _).mp hcounts
  obtain ⟨trade, hrow, hopen, hcategory⟩ := h k trade' hrow' hopen'
  exact ⟨trade, hrow, by simp [hopen, hcategory, hp]⟩

lemma withinLimits (h : t.NoneOpened t') (ht : t.WithinLimits total perCategory) :
    t'.WithinLimits total perCategory := by
  rw [withinLimits_iff] at ht ⊢
  have hcount : ∀ p, (t'.openCount p : ℤ) ≤ t.openCount p := fun p => by
    exact_mod_cast h.openCount_le p
  exact ⟨(hcount _).trans ht.1, fun category => (hcount _).trans (ht.2 category)⟩

/-- An update that keeps the category of a row and does not open it again. -/
lemma modifyTrade {f : Trade → Trade} (hterms : ∀ trade : Trade, trade.SameTerms (f trade))
    (hopen : ∀ trade, (f trade).isOpen = true → trade.isOpen = true) (k : TradeId) (t : Tracker) :
    t.NoneOpened (t.modifyTrade k f) := by
  intro j trade' hrow' hopen'
  rw [getTrade_modifyTrade] at hrow'
  split_ifs at hrow' with hj
  · obtain ⟨trade, hrow, rfl⟩ := Option.map_eq_some_iff.mp hrow'
    exact ⟨trade, hj ▸ hrow, hopen trade hopen', (hterms trade).category.symm⟩
  · exact ⟨trade', hrow', hopen', rfl⟩

lemma closePosition (k : TradeId) (exitPrice : ℚ) (reason : String) (now : Time) (t : Tracker) :
    t.NoneOpened (t.closePosition k exitPrice .closed reason now).2 := by
  rw [Tracker.closePosition]
  cases t.getTrade k with
  | none => exact .refl t
  | some trade =>
    refine modifyTrade (Trade.close_terms exitPrice .closed reason now) (fun trade' h => ?_) k t
    simp [Trade.isOpen, Trade.close] at h

lemma syncBracketState (order : Order) (t : Tracker) : t.NoneOpened (t.syncBracketState order) := by
  intro k trade' hrow' hopen'
  rw [getTrade_syncBracketState] at hrow'
  obtain ⟨trade, hrow, rfl⟩ := Option.map_eq_some_iff.mp hrow'
  refine ⟨trade, hrow, ?_, ?_⟩
  · split_ifs at hopen' <;> exact hopen'
  · split_ifs <;> rfl

end Tracker.NoneOpened

/-! ### The steps of the ledger -/

lemma BookStep.noneOpened (h : BookStep s t t') : t.NoneOpened t' := by
  cases h with
  | @syncEntry id order hget hkind =>
    rw [Tracker.syncEntryOrder]
    cases t.getTradeIdForOrder order.orderId with
    | none => exact .refl t
    | some k => exact .modifyTrade (Trade.syncEntry_terms order) (fun _ h => h) k t
  | @syncBracket id order hget hkind => exact .syncBracketState order t
  | fee hknown hfound feeUsdc =>
    exact .modifyTrade (Trade.chargeFee_terms feeUsdc 0) (fun _ h => h) _ t
  | @close id order hget hkind exitPrice reason now =>
    rw [Tracker.closeTradeForOrder]
    cases t.getTradeIdForOrder (order.parentOrderId.getD order.orderId) with
    | none => exact .refl t
    | some k => exact (Tracker.NoneOpened.syncBracketState order t).trans (.closePosition k _ reason _ _)

lemma BookSteps.noneOpened (h : BookSteps s t t') : t.NoneOpened t' := by
  induction h with
  | refl => exact .refl t
  | tail _ hstep ih => exact ih.trans hstep.noneOpened

lemma closePhantom_noneOpened (now : Time) (t : Tracker) (k : TradeId) :
    t.NoneOpened (closePhantom now t k) := by
  rw [closePhantom]
  cases t.getTrade k with
  | none => exact .refl t
  | some trade => exact .closePosition k _ _ now t

lemma reconcilePositions_noneOpened (autoClosePhantoms : Bool) (now : Time) (s : Executor)
    (t : Tracker) : t.NoneOpened (reconcilePositions autoClosePhantoms now s t) :=
  Tracker.reconcilePositions_induction (P := t.NoneOpened) (.refl t)
    fun _ t' k _ h _ _ _ => h.trans (closePhantom_noneOpened now t' k)

/-- A placement records one trade at most, in the category of the edge. -/
lemma recordPlacement_opens (st : Settings) (now : Time) (edge : EdgeResult) (size : ℚ)
    (orderId : OrderId) (a : AgentState) :
    (recordPlacement st now edge size orderId a).tracker = a.tracker ∨
      ∃ order, (a.tracker.insertTrade edge size order now).NoneOpened
        (recordPlacement st now edge size orderId a).tracker := by
  rw [recordPlacement]
  cases a.executor.orders.get? orderId with
  | none => exact Or.inl rfl
  | some order =>
    refine Or.inr ⟨order, ?_⟩
    dsimp only
    cases (a.tracker.insertTrade edge size order now).getTradeIdForOrder orderId with
    | none => split_ifs <;> exact .refl _
    | some k =>
      have hfee := Tracker.NoneOpened.modifyTrade (f := (·.chargeFee (size * st.takerFeeRate) 0))
        (Trade.chargeFee_terms _ 0) (fun _ h => h) k (a.tracker.insertTrade edge size order now)
      dsimp only
      split_ifs
      · exact hfee
      · exact .refl _
      · exact hfee
      · exact .refl _

/-! ### The limits of an agent -/

/-- The limits the configuration gives: there are never fewer than no open trades. -/
structure AgentState.Limited (st : Settings) (a : AgentState) : Prop where
  ledger : a.tracker.WithinLimits (max st.sizing.maxPositions 0) (max st.sizing.maxPerCategory 0)
  sizer : ∃ bankroll, a.sizer = st.sizing.updateBankroll bankroll

/-- What every update of a cycle guarantees. -/
def KeepsLimits (st : Settings) (w w' : World AgentState AgentRequest AgentReply) : Prop :=
  w.state.Limited st → w'.state.Limited st

section Cycle

variable {st : Settings} {input : CycleInput} {books : Dict MarketId BookData} {a a' : AgentState}

lemma AgentState.start_limited (st : Settings) (now : Time) (executor : Executor) (files : Files) :
    (AgentState.start st now executor {} files).Limited st := by
  refine ⟨⟨?_, fun category => ?_⟩, st.bankroll, rfl⟩
  · simp [AgentState.start, Tracker.getOpenPositions]
  · simp [AgentState.start, Tracker.getOpenPositions]

namespace AgentState.Limited

/-- The limits do not depend on the bankroll. -/
lemma sizer_of (h : a.Limited st) (hsizer : ∃ bankroll, a'.sizer = a.sizer.updateBankroll bankroll) :
    ∃ bankroll, a'.sizer = st.sizing.updateBankroll bankroll := by
  obtain ⟨bankroll, hbankroll⟩ := h.sizer
  obtain ⟨bankroll', hbankroll'⟩ := hsizer
  exact ⟨bankroll', by rw [hbankroll', hbankroll]; rfl⟩

/-- A step that opens no trade. -/
lemma of_noneOpened (h : a.Limited st) (hledger : a.tracker.NoneOpened a'.tracker)
    (hsizer : ∃ bankroll, a'.sizer = a.sizer.updateBankroll bankroll) : a'.Limited st :=
  ⟨hledger.withinLimits h.ledger, h.sizer_of hsizer⟩

/-- The same trades and the same limits. -/
lemma congr (h : a.Limited st) (hledger : a'.tracker = a.tracker) (hsizer : a'.sizer = a.sizer) :
    a'.Limited st :=
  h.of_noneOpened (hledger ▸ .refl a.tracker) ⟨a.sizer.bankroll, hsizer⟩

/-- A trade that is opened while there is room for it. -/
lemma insertTrade (h : a.Limited st) {edge : EdgeResult} {multiplier size : ℚ}
    (hsize : 0 < sizeFor edge a.tracker.getOpenPositions multiplier a) (order : Order) (now : Time) :
    (a.tracker.insertTrade edge size order now).WithinLimits (max st.sizing.maxPositions 0)
      (max st.sizing.maxPerCategory 0) := by
  obtain ⟨bankroll, hsizer⟩ := h.sizer
  obtain ⟨htotal, hcategory⟩ := PositionSizer.room_of_calculatePosition_pos hsize
  rw [hsizer, List.length_map, a.tracker.length_getOpenPositions] at htotal
  rw [hsizer, List.filter_map, List.length_map] at hcategory
  have hinside : ((a.tracker.getOpenPositions.filter (·.category = edge.category)).length : ℤ) <
      st.sizing.maxPerCategory := hcategory
  have hlimits := Tracker.withinLimits_iff.mp h.ledger
  rw [Tracker.withinLimits_iff]
  refine ⟨?_, fun category => ?_⟩
  · rw [Tracker.openCount_insertTrade]
    exact le_max_of_le_left (by simpa [Int.add_one_le_iff] using htotal)
  · rw [Tracker.openCount_insertTrade]
    by_cases hc : edge.category = category
    · subst hc
      rw [← a.tracker.length_inCategory]
      exact le_max_of_le_left (by simpa [Int.add_one_le_iff] using hinside)
    · simpa [hc] using hlimits.2 category

end AgentState.Limited

lemma recordPlacement_sizer (st : Settings) (now : Time) (edge : EdgeResult) (size : ℚ)
    (orderId : OrderId) (a : AgentState) :
    ∃ bankroll, (recordPlacement st now edge size orderId a).sizer =
      a.sizer.updateBankroll bankroll := by
  rw [recordPlacement]
  cases a.executor.orders.get? orderId with
  | none => exact ⟨a.sizer.bankroll, rfl⟩
  | some order =>
    dsimp only
    by_cases hfilled : order.status = .filled
    · exact ⟨_, by rw [if_pos hfilled]⟩
    · exact ⟨a.sizer.bankroll, by rw [if_neg hfilled]; rfl⟩

/-- The trade of a placement is opened while there is room for it. -/
lemma AgentState.Limited.recordPlacement (h : a.Limited st) {edge : EdgeResult} {multiplier size : ℚ}
    (hsize : 0 < sizeFor edge a.tracker.getOpenPositions multiplier a) (now : Time)
    (orderId : OrderId) : (recordPlacement st now edge size orderId a).Limited st := by
  refine ⟨?_, h.sizer_of (recordPlacement_sizer st now edge size orderId a)⟩
  rcases recordPlacement_opens st now edge size orderId a with htracker | ⟨order, hopened⟩
  · rw [htracker]
    exact h.ledger
  · exact hopened.withinLimits (h.insertTrade hsize order now)

/-! ### The parts of a cycle -/

/-- The executor neither opens trades nor changes limits. -/
lemma onExecutor_limited {α : Type} (st : Settings) (p : Program α)
    (w : World AgentState AgentRequest AgentReply) :
    Meets Alone (KeepsLimits st) (fun _ w' => ∃ s, w'.state = { w.state with executor := s })
      (onExecutor p) w := by
  refine (Coroutine.zoom_frame executorPart p w).mono (fun _ _ _ _ h => h) ?_ fun _ _ h => h
  rintro v v' ⟨s, hs⟩ h
  rw [hs]
  exact h.congr rfl rfl

lemma bookEvents_limited (h : a.Limited st) (events : List OrderLifecycleEvent) (n : ℕ) :
    (bookEvents st input n events a).2.Limited st := by
  have hbooks := bookEvents_booksOnly st input n events a
  exact h.of_noneOpened (BookSteps.noneOpened hbooks.ledger) ⟨a.sizer.bankroll, hbooks.sizer⟩

lemma reconcileOrderLifecycle_limited (w : World AgentState AgentRequest AgentReply) :
    Meets Alone (KeepsLimits st) (fun _ _ => True) (reconcileOrderLifecycle st input books) w := by
  refine (onExecutor_limited st _ w).bind fun events w' _ => ?_
  exact ⟨fun h => bookEvents_limited h events 0, trivial⟩

/-- An opportunity is sized on the positions that are open, and leaves those that are. -/
lemma placeOpportunity_limited {multiplier : ℚ} {n : ℕ} {edge : EdgeResult}
    (w : World AgentState AgentRequest AgentReply) :
    Meets Alone (KeepsLimits st) (fun positions w' => positions = w'.state.tracker.getOpenPositions)
      (placeOpportunity st input books multiplier n edge w.state.tracker.getOpenPositions) w := by
  refine Meets.get_bind id ?_
  dsimp only
  split_ifs with hsize
  · exact rfl
  · refine (onExecutor_limited st _ w).bind ?_
    rintro orderId w' ⟨s, hs⟩
    cases orderId with
    | none =>
      show _ = w'.state.tracker.getOpenPositions
      rw [hs]
    | some orderId =>
      refine ⟨fun h => ?_, rfl⟩
      have hroom : 0 < sizeFor edge w'.state.tracker.getOpenPositions multiplier w'.state := by
        rw [hs]
        exact not_le.mp hsize
      exact h.recordPlacement hroom _ orderId
  · exact rfl

lemma placeOpportunities_limited {multiplier : ℚ} {n : ℕ} {edges : List EdgeResult}
    (w : World AgentState AgentRequest AgentReply) :
    Meets Alone (KeepsLimits st) (fun _ _ => True)
      (placeOpportunities st input books multiplier n edges w.state.tracker.getOpenPositions) w := by
  induction edges generalizing n w with
  | nil => trivial
  | cons edge edges ih =>
    refine (placeOpportunity_limited w).bind ?_
    rintro positions w' rfl
    exact ih w'

lemma syncExpired_limited (ids : List OrderId) (h : a.Limited st) :
    (ids.foldl syncExpired a).Limited st := by
  obtain ⟨tracker, htracker⟩ := syncExpired_frame ids a
  refine h.of_noneOpened (syncExpired_steps ids a).noneOpened ⟨a.sizer.bankroll, ?_⟩
  rw [htracker]
  rfl

lemma tidyUp_limited (w : World AgentState AgentRequest AgentReply) :
    Meets Alone (KeepsLimits st) (fun _ _ => True) (tidyUp st input) w := by
  refine (onExecutor_limited st _ w).bind fun expired w' _ => ⟨fun h => ?_, trivial⟩
  have hsync := syncExpired_limited expired h
  exact hsync.of_noneOpened (reconcilePositions_noneOpened _ _ _ _) ⟨_, rfl⟩

lemma sizeAndExecute_limited {edges : List EdgeResult}
    (w : World AgentState AgentRequest AgentReply) :
    Meets Alone (KeepsLimits st) (fun _ _ => True) (sizeAndExecute st input books edges) w := by
  refine Meets.modify_bind (fun h => h.congr rfl rfl) (Meets.get_bind id ?_)
  split_ifs
  · refine Meets.bind (Q := fun _ _ => True) ?_ fun _ _ _ => trivial
    refine (onExecutor_limited st _ _).bind fun _ w' _ => ⟨fun h => h.congr rfl rfl, trivial⟩
  · refine (placeOpportunities_limited _).bind fun positions w' _ => ?_
    refine Meets.modify_bind (fun h => h.of_noneOpened (.refl _) ⟨_, rfl⟩) (Meets.get_bind id ?_)
    exact (tidyUp_limited _).bind fun _ _ _ => trivial

lemma failCycle_limited (w : World AgentState AgentRequest AgentReply) :
    Meets Alone (KeepsLimits st) (fun _ _ => True) failCycle w :=
  ⟨fun h => h.congr rfl rfl, trivial⟩

lemma attemptCycle_limited (w : World AgentState AgentRequest AgentReply) :
    Meets Alone (KeepsLimits st) (fun _ _ => True) (attemptCycle st input) w := by
  refine Meets.get_bind id ?_
  split_ifs
  · trivial
  · rintro scanned w rfl
    refine ⟨id, ?_⟩
    cases scanned with
    | none => exact failCycle_limited _
    | some scanned =>
      refine (reconcileOrderLifecycle_limited _).bind fun booked w' _ => ?_
      cases booked with
      | false => exact failCycle_limited w'
      | true =>
        rintro edges w' rfl
        refine ⟨id, ?_⟩
        cases edges with
        | none => exact failCycle_limited _
        | some edges => exact sizeAndExecute_limited _

/-- Every update of a cycle keeps the limits. -/
lemma runCycle_limited (st : Settings) (input : CycleInput)
    (w : World AgentState AgentRequest AgentReply) :
    Meets Alone (KeepsLimits st) (fun _ _ => True) (runCycle st input) w :=
  (attemptCycle_limited w).bind fun _ _ _ => ⟨fun h => h.congr rfl rfl, trivial⟩

/-! ### Whole runs -/

/-- Every move keeps the limits. -/
lemma AgentState.Limited.perform {r : AgentRun} (h : r.state.Limited st) (move : AgentMove) :
    (r.perform st move).state.Limited st := by
  cases move with
  | cycle input answers =>
    have hmeets := runCycle_limited st input ⟨r.state, []⟩
    exact (hmeets.run Coroutine.alone_refl (fun _ => id) (fun h h' => h' ∘ h) answers).1 h
  | pause => exact h.congr rfl rfl
  | changeFile location file => exact h.congr rfl rfl

lemma AgentState.Limited.run {r : AgentRun} (h : r.state.Limited st) (moves : List AgentMove) :
    (r.run st moves).state.Limited st := by
  induction moves generalizing r with
  | nil => exact h
  | cons move moves ih => exact ih (h.perform move)

/-- The limits hold in every state that a cycle goes through, after any moves from an empty ledger. -/
theorem positions_limited (st : Settings) (now : Time) (executor : Executor) (files : Files)
    (moves : List AgentMove) (input : CycleInput) (answers : Oracle AgentRequest AgentReply) :
    ∀ a ∈ (runCycle st input).passes answers
        (AgentRun.run st ⟨AgentState.start st now executor {} files, []⟩ moves).state,
      a.tracker.WithinLimits (max st.sizing.maxPositions 0) (max st.sizing.maxPerCategory 0) := by
  intro a ha
  have hstart : (AgentState.start st now executor {} files).Limited st :=
    AgentState.start_limited st now executor files
  have hrun := AgentState.Limited.run (r := ⟨_, []⟩) hstart moves
  obtain ⟨_, hkeeps⟩ := (runCycle_limited st input ⟨_, []⟩).passes Coroutine.alone_refl
    (fun _ => id) (fun h h' => h' ∘ h) answers ha
  exact (hkeeps hrun).ledger

end Cycle

/-- The agent has one position open. -/
theorem positions_limited_invested :
    invested.tracker.WithinLimits (max bold.sizing.maxPositions 0) (max bold.sizing.maxPerCategory 0) :=
  positions_limited bold 0 .init (fun _ => none)
    [.cycle (cycleAt 0) (delivering [coinMarket] [headsEdge])] (cycleAt 1) (delivering [] []) _
    (Coroutine.start_mem_passes _ _ _)

/-! ### A negative limit -/

/-- Settings with a limit below zero. -/
def belowZero : Settings := { bold with sizing := { bold.sizing with maxPositions := -1 } }

/-- A negative limit is exceeded by an empty ledger. -/
theorem belowZero_exceeded :
    ¬ ∀ a ∈ (runCycle belowZero (cycleAt 0)).passes (delivering [] [])
        (AgentRun.run belowZero (started belowZero) []).state,
      a.tracker.WithinLimits belowZero.sizing.maxPositions belowZero.sizing.maxPerCategory := by
  intro h
  have htotal := (h _ (Coroutine.start_mem_passes _ _ _)).total
  exact absurd htotal (by decide)

end PolyCortex
