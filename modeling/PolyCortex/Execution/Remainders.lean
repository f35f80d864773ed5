import PolyCortex.Execution.BracketStates

/-!
# Cancelling the remainder of an entry

An entry of which a part is filled is cancelled, by `cancel_order` or by `cancel_expired_orders` for
its age. On paper the cancellation takes the children with it and leaves the filled part without a
bracket, on the exchange it leaves them armed under an entry that says `cancelled`.
-/

namespace PolyCortex

open Coroutine

variable {cfg : Config} {w : ExecWorld} {i : Invocation} {e : OrderId} {g : ℕ} {f : Family}
  {entry : Order}

/-- The call `i` cancels the entry `e`, which is filled in part and has armed children. None of them
is past its expiry if the call is one that looks at expiries. -/
structure CancelsRemainder (cfg : Config) (w : ExecWorld) (i : Invocation) (e : OrderId)
    (entry : Order) : Prop where
  get : w.state.orders.get? e = some entry
  kind : entry.orderKind = .entry
  partly : 0 < entry.filledSizeUsdc ∧ entry.filledSizeUsdc < entry.sizeUsdc
  listed : entry.bracketOrderIds ≠ []
  armed : ∀ c ∈ entry.bracketOrderIds, ∃ child, w.state.orders.get? c = some child ∧
    child.status = .armed
  cancels : let failed := cancelFailed e (i.outcome cfg w.state).trace
    i.call.op = .cancelOrder e ∧ entry.isCancelledBy cfg failed = true ∨
    i.call.op = .cancelExpiredOrders ∧ entry.isAgedOut cfg i.call.env.now failed = true ∧
      ¬ w.state.ListsLapsed i.call.env.now entry

/-- The entry `e` has all its children armed, with the size that it has filled. -/
def Executor.ProtectsFilled (s : Executor) (e : OrderId) : Prop :=
  ∃ entry, s.orders.get? e = some entry ∧ ∀ c ∈ entry.bracketOrderIds,
    ∃ child, s.orders.get? c = some child ∧ child.status = .armed ∧
      child.sizeUsdc = entry.filledSizeUsdc

/-- The status and the bracket state of the entry `e`, and the statuses of its children. -/
def Executor.outcomeOf (s : Executor) (e : OrderId) :
    Option (OrderStatus × BracketState × List (Option OrderStatus)) :=
  (s.orders.get? e).map fun entry => (entry.status, entry.bracketState,
    entry.bracketOrderIds.map fun c => (s.orders.get? c).map (·.status))

/-! ### Families -/

lemma Family.lapsed_of_current {o : Order} {now : Time} (h : o.isPastExpiry now = false) :
    o.lapsed now = o := by
  simp [Order.lapsed, h]

lemma Family.withdrawn_lapsed (o : Order) (now : Time) : o.withdrawn.lapsed now = o.withdrawn := by
  simp [Order.lapsed]

/-- The two calls do the same to the family. -/
lemma CancelsRemainder.after (h : CancelsRemainder cfg w i e entry) (hf : w.state.FamilyAt e g f)
    (hentry : f.entry = entry) :
    let failed := cancelFailed e (i.outcome cfg w.state).trace
    entry.isCancelledBy cfg failed = true ∧
      f.after cfg e g i.call (i.outcome cfg w.state).trace = f.cancelled cfg failed := by
  obtain ⟨_, _, _, _, harmed, hcancels⟩ := h
  subst hentry
  dsimp only at hcancels ⊢
  rcases hcancels with ⟨hop, hcancels⟩ | ⟨hop, haged, hcurrent⟩
  · exact ⟨hcancels, by simp [Family.after, hop]⟩
  rcases Family.aged_cases cfg i.call.env.now (cancelFailed e (i.outcome cfg w.state).trace) f with
    ⟨hnot, _⟩ | ⟨_, hcancels, hsame⟩
  · rw [haged] at hnot
    cases hnot
  refine ⟨hcancels, ?_⟩
  -- the children are armed, so none is past its expiry
  have hpast : f.takeProfit.isPastExpiry i.call.env.now = false := by
    obtain ⟨child, hchild, harmed'⟩ := harmed (g + 1) (by simp [hf.family.ids])
    obtain rfl := Option.some.inj (hchild.symm.trans hf.family.get_takeProfit)
    have hnot := mt hf.listsLapsed.mpr hcurrent
    simpa [Family.HasArmed, harmed'] using hnot
  have hpast' : f.stopLoss.isPastExpiry i.call.env.now = false := by
    rw [Order.isPastExpiry, hf.family.expiry]
    exact hpast
  simp only [Family.after, hop]
  rw [Family.expired, hsame]
  rcases Family.cancelled_cases cfg (cancelFailed e (i.outcome cfg w.state).trace) f with
    ⟨hnot, _⟩ | ⟨_, _, hlocal⟩ | ⟨_, _, hlive⟩
  · rw [hcancels] at hnot
    cases hnot
  · simp [hlocal, Family.withdrawn_lapsed]
  · simp [hlive, Family.lapsed_of_current hpast, Family.lapsed_of_current hpast']

lemma Executor.FamilyAt.outcomeOf {s : Executor} (h : s.FamilyAt e g f) :
    s.outcomeOf e = some (f.entry.status, f.entry.bracketState,
      [some f.takeProfit.status, some f.stopLoss.status]) := by
  simp [Executor.outcomeOf, h.family.get, h.family.ids, h.family.get_takeProfit,
    h.family.get_stopLoss]

lemma Executor.FamilyAt.protectsFilled {s : Executor} (h : s.FamilyAt e g f) :
    s.ProtectsFilled e ↔
      (f.takeProfit.status = .armed ∧ f.takeProfit.sizeUsdc = f.entry.filledSizeUsdc) ∧
        f.stopLoss.status = .armed ∧ f.stopLoss.sizeUsdc = f.entry.filledSizeUsdc := by
  simp [Executor.ProtectsFilled, h.family.get, h.family.ids, h.family.get_takeProfit,
    h.family.get_stopLoss]

/-! ### Runs -/

/-- What the cancellation of a remainder leaves. -/
theorem runAll_cancelsRemainder (cfg : Config) (run : List Invocation)
    (h : CancelsRemainder cfg (runAll cfg run) i e entry) :
    (runAll cfg (run ++ [i])).state.outcomeOf e = some (.cancelled, .cancelled,
        if cfg.isPaper then [some .cancelled, some .cancelled] else [some .armed, some .armed]) ∧
      ((runAll cfg (run ++ [i])).state.ProtectsFilled e ↔
        cfg.isPaper = false ∧ (runAll cfg run).state.ProtectsFilled e) := by
  have hs := runAll_regular cfg run
  obtain ⟨g, tp, sl, hbracket⟩ := hs.related.listed e entry h.get h.listed
  have hf : (runAll cfg run).state.FamilyAt e g ⟨entry, tp, sl⟩ := ⟨hs.related, hs.whole, hbracket⟩
  obtain ⟨hcancels, hafter⟩ := h.after hf rfl
  have hf' := i.perform_family cfg hf hs.ordered
  rw [hafter] at hf'
  -- both children are armed
  have harmed : tp.status = .armed ∧ sl.status = .armed := by
    obtain ⟨x, hx, hx'⟩ := h.armed (g + 1) (by simp [hbracket.ids])
    obtain ⟨y, hy, hy'⟩ := h.armed (g + 2) (by simp [hbracket.ids])
    rw [← Option.some.inj (hx.symm.trans hbracket.get_takeProfit),
      ← Option.some.inj (hy.symm.trans hbracket.get_stopLoss)]
    exact ⟨hx', hy'⟩
  have hlocal : entry.isLocal cfg = cfg.isPaper := by
    rw [Order.isLocal, runAll_paperIs cfg run e entry h.get, Config.isPaper]
    cases cfg.dryRun <;> cases cfg.clobConnected <;> rfl
  rw [runAll_concat, hf'.outcomeOf, hf'.protectsFilled, hf.protectsFilled]
  rcases Family.cancelled_cases cfg _ (⟨entry, tp, sl⟩ : Family) with
    ⟨hnot, _⟩ | ⟨_, hpaper, hsame⟩ | ⟨_, hlive, hsame⟩
  · replace hnot : entry.isCancelledBy cfg _ = false := hnot
    rw [hcancels] at hnot
    cases hnot
  · replace hpaper : entry.isLocal cfg = true := hpaper
    rw [hlocal] at hpaper
    have hwithdrawn : ∀ o : Order, o.status = .armed → o.withdrawn.status = .cancelled := by
      intro o ho
      rw [Order.withdrawn, if_neg (by simp [ho, OrderStatus.isFinal])]
    rw [hsame]
    simp [hpaper, hwithdrawn tp harmed.1, hwithdrawn sl harmed.2]
  · replace hlive : entry.isLocal cfg = false := hlive
    rw [hlocal] at hlive
    rw [hsame]
    simp [hlive, harmed]

/-- On paper the cancellation of a remainder leaves what is filled without protection, on the
exchange it leaves it as protected as it was: the two modes never end alike. -/
theorem runAll_cancelsRemainder_modes (cfg cfg' : Config) (run run' : List Invocation)
    (i i' : Invocation) (e e' : OrderId) (entry entry' : Order) (hpaper : cfg.isPaper = true)
    (hlive : cfg'.isPaper = false) (h : CancelsRemainder cfg (runAll cfg run) i e entry)
    (h' : CancelsRemainder cfg' (runAll cfg' run') i' e' entry') :
    ¬ (runAll cfg (run ++ [i])).state.ProtectsFilled e ∧
      ((runAll cfg' (run' ++ [i'])).state.ProtectsFilled e' ↔
        (runAll cfg' run').state.ProtectsFilled e') ∧
      (runAll cfg (run ++ [i])).state.outcomeOf e ≠
        (runAll cfg' (run' ++ [i'])).state.outcomeOf e' := by
  obtain ⟨houtcome, hprotects⟩ := runAll_cancelsRemainder cfg run h
  obtain ⟨houtcome', hprotects'⟩ := runAll_cancelsRemainder cfg' run' h'
  refine ⟨?_, ?_, ?_⟩
  · simp [hprotects, hpaper]
  · simp [hprotects', hlive]
  · simp [houtcome, houtcome', hpaper, hlive]

/-- An entry of 10 USDC on paper, of which 3 are filled. -/
def paperRemainder : List Invocation :=
  [offline (.placeOrder { marketId := "m", direction := .yes, sizeUsdc := 10, price := 1 / 2 }) 0,
    midpointPass (2 / 5) 1]

/-- An entry of 10 USDC on the exchange, of which 4 are filled. -/
def liveRemainder : List Invocation := cancelledRemainder.take 2

def confirmedCancel : Invocation :=
  ⟨⟨.cancelOrder 0, { now := 2 }⟩,
    scripted (fun _ => .error .network) (fun _ => .ok ()) fun _ => .failed⟩

/-- The facts about a stored entry that make `confirmedCancel` cancel its remainder. -/
lemma confirmedCancel_cancels {run : List Invocation}
    (h : ((runAll cfg run).state.orders.get? 0).any (fun o => o.orderKind = .entry ∧
      (0 < o.filledSizeUsdc ∧ o.filledSizeUsdc < o.sizeUsdc) ∧ o.bracketOrderIds ≠ [] ∧
      (∀ c ∈ o.bracketOrderIds, ∃ child ∈ (runAll cfg run).state.orders.get? c,
        child.status = .armed) ∧
      o.isCancelledBy cfg (cancelFailed 0
        (confirmedCancel.outcome cfg (runAll cfg run).state).trace) = true) = true) :
    ∃ entry, CancelsRemainder cfg (runAll cfg run) confirmedCancel 0 entry := by
  obtain ⟨o, hget, hfacts⟩ := (Option.any_eq_true _ _).mp h
  obtain ⟨hkind, hpartly, hlisted, harmed, hcancels⟩ := of_decide_eq_true hfacts
  exact ⟨o, hget, hkind, hpartly, hlisted, harmed, Or.inl ⟨rfl, hcancels⟩⟩

lemma paperRemainder_cancels :
    ∃ entry, CancelsRemainder threeTenths (runAll threeTenths paperRemainder) confirmedCancel 0
      entry :=
  confirmedCancel_cancels (by decide +kernel)

lemma liveRemainder_cancels :
    ∃ entry, CancelsRemainder liveConfig (runAll liveConfig liveRemainder) confirmedCancel 0
      entry :=
  confirmedCancel_cancels (by decide +kernel)

/-- The theorem at these two entries. -/
theorem runAll_cancelsRemainder_modes_differ :
    ¬ (runAll threeTenths (paperRemainder ++ [confirmedCancel])).state.ProtectsFilled 0 ∧
      ((runAll liveConfig (liveRemainder ++ [confirmedCancel])).state.ProtectsFilled 0 ↔
        (runAll liveConfig liveRemainder).state.ProtectsFilled 0) ∧
      (runAll threeTenths (paperRemainder ++ [confirmedCancel])).state.outcomeOf 0 ≠
        (runAll liveConfig (liveRemainder ++ [confirmedCancel])).state.outcomeOf 0 := by
  obtain ⟨entry, h⟩ := paperRemainder_cancels
  obtain ⟨entry', h'⟩ := liveRemainder_cancels
  exact runAll_cancelsRemainder_modes threeTenths liveConfig paperRemainder liveRemainder
    confirmedCancel confirmedCancel 0 0 entry entry' rfl rfl h h'

/-- The children of the paper entry are cancelled with its remainder. -/
theorem paperRemainder_unprotected :
    (∃ entry, CancelsRemainder threeTenths (runAll threeTenths paperRemainder) confirmedCancel 0
      entry) ∧
    (runAll threeTenths (paperRemainder ++ [confirmedCancel])).state.outcomeOf 0 =
      some (.cancelled, .cancelled, [some .cancelled, some .cancelled]) ∧
    (runAll liveConfig (liveRemainder ++ [confirmedCancel])).state.outcomeOf 0 =
      some (.cancelled, .cancelled, [some .armed, some .armed]) := by
  refine ⟨paperRemainder_cancels, ?_, ?_⟩
  · decide +kernel
  · decide +kernel

end PolyCortex
