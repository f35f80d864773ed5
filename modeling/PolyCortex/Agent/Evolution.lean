import PolyCortex.Agent.Booking

/-!
# How executor and ledger evolve

A move of the agent is a chain of changes of the executor and of steps of the ledger
(`Moves.evolves`), so what relates the orders and the trades is proved once for each of them.
-/

namespace PolyCortex

open Relation

/-- What the agent does to its ledger, next to the executor `s`. -/
inductive LedgerStep (s : Executor) (t : Tracker) : Tracker → Prop where
  | book {t' : Tracker} (hbook : BookStep s t t') : LedgerStep s t t'
  | insert {id : OrderId} {order : Order} (hget : s.orders.get? id = some order)
    (edge : EdgeResult) (size : ℚ) (now : Time) : LedgerStep s t (t.insertTrade edge size order now)
  | phantom {k : TradeId} {trade : Trade} (hrow : t.getTrade k = some trade)
    (hphantom : isPhantom s trade = true) (now : Time) : LedgerStep s t (closePhantom now t k)

abbrev LedgerSteps (s : Executor) : Tracker → Tracker → Prop := ReflTransGen (LedgerStep s)

/-- A change of the executor, or a step of the ledger next to it. -/
inductive Evolution (cfg : Config) : Executor × Tracker → Executor × Tracker → Prop where
  | change {s s' : Executor} {t : Tracker} (hchange : Change cfg s s') : Evolution cfg (s, t) (s', t)
  | ledger {s : Executor} {t t' : Tracker} (hstep : LedgerStep s t t') : Evolution cfg (s, t) (s, t')

abbrev Evolves (cfg : Config) : Executor × Tracker → Executor × Tracker → Prop :=
  ReflTransGen (Evolution cfg)

lemma Changes.evolves {cfg : Config} {s s' : Executor} (h : Changes cfg s s') (t : Tracker) :
    Evolves cfg (s, t) (s', t) := by
  induction h with
  | refl => exact .refl
  | tail _ hchange ih => exact ih.tail (.change hchange)

/-- What happens to the executor meanwhile. -/
lemma Evolves.changes {cfg : Config} {x y : Executor × Tracker} (h : Evolves cfg x y) :
    Changes cfg x.1 y.1 := by
  induction h with
  | refl => exact .refl
  | tail _ hstep ih =>
    cases hstep with
    | change hchange => exact ih.tail hchange
    | ledger => exact ih

lemma LedgerSteps.evolves {s : Executor} {t t' : Tracker} (h : LedgerSteps s t t') (cfg : Config) :
    Evolves cfg (s, t) (s, t') := by
  induction h with
  | refl => exact .refl
  | tail _ hstep ih => exact ih.tail (.ledger hstep)

lemma BookSteps.ledgerSteps {s : Executor} {t t' : Tracker} (h : BookSteps s t t') :
    LedgerSteps s t t' := by
  induction h with
  | refl => exact .refl
  | tail _ hstep ih => exact ih.tail (.book hstep)

/-! ### The steps of the parts -/

lemma recordPlacement_steps (st : Settings) (now : Time) (edge : EdgeResult) (size : ℚ)
    (orderId : OrderId) (a : AgentState) :
    LedgerSteps a.executor a.tracker (recordPlacement st now edge size orderId a).tracker := by
  rw [recordPlacement]
  cases hget : a.executor.orders.get? orderId with
  | none => exact .refl
  | some order =>
    have hinsert : LedgerSteps a.executor a.tracker (a.tracker.insertTrade edge size order now) :=
      .single (.insert hget edge size now)
    dsimp only
    cases hfound : (a.tracker.insertTrade edge size order now).getTradeIdForOrder orderId with
    | none => split_ifs <;> exact hinsert
    | some k =>
      have hfee := hinsert.tail
        (.book (.fee ⟨orderId, order, hget, Or.inl rfl⟩ hfound (size * st.takerFeeRate)))
      dsimp only
      split_ifs
      · exact hfee
      · exact hinsert
      · exact hfee
      · exact hinsert

lemma syncExpired_steps (ids : List OrderId) (a : AgentState) :
    BookSteps a.executor a.tracker (ids.foldl syncExpired a).tracker := by
  induction ids generalizing a with
  | nil => exact .refl
  | cons id ids ih =>
    have hfirst : (syncExpired a id).executor = a.executor ∧
        BookSteps a.executor a.tracker (syncExpired a id).tracker := by
      rw [syncExpired]
      cases hget : a.executor.orders.get? id with
      | none => exact ⟨rfl, .refl⟩
      | some order =>
        dsimp only
        split_ifs with hkind
        · exact ⟨rfl, .single (.syncEntry hget hkind)⟩
        · exact ⟨rfl, .single (.syncBracket hget hkind)⟩
    obtain ⟨hexecutor, hsteps⟩ := hfirst
    have hrest := ih (syncExpired a id)
    rw [hexecutor] at hrest
    exact hsteps.trans hrest

/-- The phantoms are closed one by one. -/
lemma reconcilePositions_steps (autoClosePhantoms : Bool) (now : Time) (s : Executor) (t : Tracker) :
    LedgerSteps s t (reconcilePositions autoClosePhantoms now s t) :=
  Tracker.reconcilePositions_induction (P := LedgerSteps s t) .refl
    fun _ _ _ _ hsteps _ hrow hphantom => hsteps.tail (.phantom hrow hphantom now)

/-! ### The steps of a move -/

section Moves

variable {st : Settings} {input : CycleInput} {a b : AgentState}

lemma Reconciles.evolves {books : Dict MarketId BookData} {booked : Bool}
    (h : Reconciles st input books a b booked) :
    Evolves st.cfg (a.executor, a.tracker) (b.executor, b.tracker) := by
  have hchanges := h.changes
  obtain ⟨events, s, hreturns, hbook⟩ := h
  have hbooks := bookEvents_booksOnly st input 0 events { a with executor := s }
  rw [hbook] at hbooks
  have hledger : LedgerSteps b.executor a.tracker b.tracker :=
    hbooks.executor ▸ BookSteps.ledgerSteps hbooks.ledger
  exact (hchanges.evolves a.tracker).trans (hledger.evolves st.cfg)

lemma Places.evolves {books : Dict MarketId BookData} {multiplier : ℚ} {n : ℕ} {edge : EdgeResult}
    {positions positions' : List Trade}
    (h : Places st input books multiplier n edge positions a positions' b) :
    Evolves st.cfg (a.executor, a.tracker) (b.executor, b.tracker) := by
  have hchanges := h.changes
  cases h with
  | passed => exact .refl
  | refused hasked horder => exact hchanges.evolves a.tracker
  | placed hasked horder hrecord =>
    subst hrecord
    rw [executor_recordPlacement] at hchanges ⊢
    exact (hchanges.evolves a.tracker).trans
      ((recordPlacement_steps st (input.placeAt n) edge _ _ { a with executor := _ }).evolves st.cfg)

lemma PlacesAll.evolves {books : Dict MarketId BookData} {multiplier : ℚ} {n : ℕ}
    {edges : List EdgeResult} {positions positions' : List Trade}
    (h : PlacesAll st input books multiplier n edges positions a positions' b) :
    Evolves st.cfg (a.executor, a.tracker) (b.executor, b.tracker) := by
  induction h with
  | nil => exact .refl
  | cons hplaces _ ih => exact hplaces.evolves.trans ih

lemma Trades.evolves {books : Dict MarketId BookData} {edges : List EdgeResult}
    (h : Trades st input books edges a b) :
    Evolves st.cfg (a.executor, a.tracker) (b.executor, b.tracker) := by
  obtain ⟨positions, a₁, hplaces, rfl⟩ := h
  exact hplaces.evolves

lemma Tidies.evolves (h : Tidies st input a b) :
    Evolves st.cfg (a.executor, a.tracker) (b.executor, b.tracker) := by
  obtain ⟨expired, s, hreturns, rfl⟩ := h
  have hchanges : Changes st.cfg a.executor s :=
    changes_of_returns ⟨.cancelExpiredOrders, { now := _ }⟩ (hreturns.map OpResult.ids)
  obtain ⟨tracker, htracker⟩ := syncExpired_frame expired { a with executor := s }
  have hexpired := syncExpired_steps expired { a with executor := s }
  dsimp only
  rw [htracker] at hexpired ⊢
  exact (hchanges.evolves a.tracker).trans
    (LedgerSteps.evolves (hexpired.ledgerSteps.trans (reconcilePositions_steps ..)) st.cfg)

/-- What a cycle does to the executor and the ledger. -/
theorem CycleRun.evolves {report : CycleReport} (h : CycleRun st input a report b) :
    Evolves st.cfg (a.executor, a.tracker) (b.executor, b.tracker) := by
  cases h with
  | halted => exact .refl
  | unscanned => exact .refl
  | failed hrunning hreconciles => exact hreconciles.evolves
  | emergency hrunning hreconciles hclose hcancels =>
    refine hreconciles.evolves.trans (Changes.evolves ?_ _)
    exact changes_of_returns ⟨.cancelAllOpenOrders, { now := 0 }⟩ (hcancels.map OpResult.count)
  | traded hrunning hreconciles hclose htrades htidies =>
    exact (hreconciles.evolves.trans htrades.evolves).trans htidies.evolves

theorem Moves.evolves {move : AgentMove} {report : Option CycleReport}
    (h : Moves st a move report b) :
    Evolves st.cfg (a.executor, a.tracker) (b.executor, b.tracker) := by
  cases h with
  | cycle hrun => exact hrun.evolves
  | pause => exact .refl
  | changeFile => exact .refl

/-- What a run of the agent does to the executor and the ledger. -/
theorem AgentRun.run_evolves (st : Settings) (r : AgentRun) (moves : List AgentMove) :
    Evolves st.cfg (r.state.executor, r.state.tracker)
      ((r.run st moves).state.executor, (r.run st moves).state.tracker) := by
  refine AgentRun.run_induction (P := fun r' => Evolves st.cfg (r.state.executor, r.state.tracker)
    (r'.state.executor, r'.state.tracker)) (C := fun _ => True) .refl (fun _ _ => trivial) ?_
  exact fun r' move report a h _ hmove => h.trans hmove.evolves

end Moves
end PolyCortex
