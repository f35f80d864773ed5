import PolyCortex.Execution.Brackets
import PolyCortex.Execution.Placement

/-!
# Cancelling one order

An entry with exchange orders is cancelled through the exchange: it becomes `cancelled` only when
every one of its exchange orders was confirmed, and a failure leaves everything as it was. The other
kinds take the local branch of `cancel_order`, whatever exchange orders they carry.
-/

namespace PolyCortex

open Coroutine

variable {cfg : Config} {s : Executor} {id : OrderId} {o : Order}

/-- What an exchange-confirmed `cancel_order` of `o` satisfies: success means that the exchange
confirmed every exchange order of `o`, a failed cancellation leaves its status alone. -/
def ExchangeConfirmed (id : OrderId) (o : Order) (outcome : Outcome Executor Request Reply Bool) :
    Prop :=
  (outcome.result = true →
    (outcome.state.orders.get? id).map (·.status) = some .cancelled →
    ∀ x ∈ o.exchangeOrderIds, x ∈ confirmedIds id outcome.trace) ∧
  (cancelFailed id outcome.trace = true →
    (outcome.state.orders.get? id).map (·.status) = some o.status)

/-- Through the exchange: all exchange orders are confirmed, or nothing changes. -/
lemma cancelOrder_entry (hget : s.orders.get? id = some o) (hopen : o.status.isFinal = false)
    (hpaper : o.isPaper = false) (hclob : cfg.clobConnected = true) (hkind : o.orderKind = .entry)
    (ω : Oracle Request Reply) : ExchangeConfirmed id o ((cancelOrder cfg id).run ω s) := by
  have hrun : (cancelOrder cfg id).run ω s =
      ((cancelOnExchange id o.exchangeOrderIds).bind (concludeCancel id)).run ω s := by
    simp [cancelOrder, hget, hopen, hpaper, hclob, hkind]
  obtain ⟨ok, t, ω', ⟨_, hfailed, hconfirmed⟩, hbind⟩ :=
    (cancelOnExchange_inquires id o.exchangeOrderIds).run_bind (concludeCancel id) ω s
  rw [hrun, hbind]
  cases ok with
  | true =>
    simp only [concludeCancel, if_true, bind_def, run_modify_bind, pure_def, run_pure,
      List.append_nil]
    constructor
    · intro _ _ x hx
      simpa [hconfirmed rfl] using hx
    · simp [hfailed]
  | false =>
    simp only [concludeCancel, Bool.false_eq_true, if_false, pure_def, run_pure, List.append_nil]
    constructor
    · simp
    · intro _
      simp [hget]

/-- Every other kind is cancelled without asking the exchange. -/
lemma cancelOrder_local (cfg : Config) (hget : s.orders.get? id = some o) (hopen : o.status.isFinal = false)
    (hkind : o.orderKind ≠ .entry) (ω : Oracle Request Reply) :
    ((cancelOrder cfg id).run ω s).result = true ∧
      (((cancelOrder cfg id).run ω s).state.orders.get? id).map (·.status) = some .cancelled ∧
      ((cancelOrder cfg id).run ω s).trace = [] := by
  have hrun : (cancelOrder cfg id).run ω s = ⟨s.setStatus id .cancelled, [], true⟩ := by
    simp [cancelOrder, hget, hopen, hkind, cancelLocally]
  rw [hrun]
  refine ⟨rfl, ?_, rfl⟩
  simp [Executor.setStatus, hget]

/-- Of the open orders that carry exchange orders exactly the entries are cancelled with the
exchange's confirmation. -/
theorem cancelOrder_exchangeConfirmed_iff (cfg : Config) (hlive : cfg.isPaper = false)
    (run : List Invocation) (id : OrderId) (o : Order)
    (hget : (runAll cfg run).state.orders.get? id = some o) (hopen : o.status.isFinal = false)
    (hids : o.exchangeOrderIds ≠ []) (ω : Oracle Request Reply) :
    ExchangeConfirmed id o ((cancelOrder cfg id).run ω (runAll cfg run).state) ↔
      o.orderKind = .entry := by
  have hpaper : o.isPaper = false := (runAll_paperIs cfg run id o hget).trans hlive
  have hclob : cfg.clobConnected = true := by
    simp only [Config.isPaper, Bool.or_eq_false_iff, Bool.not_eq_false'] at hlive
    exact hlive.2
  constructor
  · intro hconfirmed
    by_contra hkind
    obtain ⟨hresult, hstatus, htrace⟩ := cancelOrder_local cfg hget hopen hkind ω
    have hall := hconfirmed.1 hresult hstatus
    rw [htrace] at hall
    apply hids
    rw [List.eq_nil_iff_forall_not_mem]
    intro x hx
    simpa using hall x hx
  · intro hkind
    exact cancelOrder_entry hget hopen hpaper hclob hkind ω

/-- A live SELL order that the exchange has acknowledged. -/
def acknowledgedExit : List Invocation :=
  [⟨⟨.closePosition
      { marketId := "m", tokenId := "t", direction := .yes, sizeUsdc := 10, price := 1 / 2 },
      { now := 0 }⟩,
    scripted (fun _ => acknowledged "x") (fun _ => .error .network) fun _ => .failed⟩]

/-- A live entry that the exchange has acknowledged. -/
def acknowledgedEntry : List Invocation :=
  [⟨⟨.placeOrder
      { marketId := "m", direction := .yes, sizeUsdc := 10, price := 1 / 2, tokenId := "t" },
      { now := 0 }⟩,
    scripted (fun _ => acknowledged "x") (fun _ => .error .network) fun _ => .failed⟩]

/-- The theorem at an acknowledged entry, with an exchange that cannot be reached. -/
theorem cancelOrder_exchangeConfirmed_unreachable : ∃ o,
    (runAll liveConfig acknowledgedEntry).state.orders.get? 0 = some o ∧
      ExchangeConfirmed 0 o
        ((cancelOrder liveConfig 0).run unreachable (runAll liveConfig acknowledgedEntry).state) := by
  have hsome : ((runAll liveConfig acknowledgedEntry).state.orders.get? 0).any (fun o =>
      o.status.isFinal = false ∧ o.exchangeOrderIds = ["x"] ∧ o.orderKind = .entry) = true := by
    decide +kernel
  obtain ⟨o, hget, hfacts⟩ := (Option.any_eq_true _ _).mp hsome
  obtain ⟨hopen, hids, hkind⟩ := of_decide_eq_true hfacts
  refine ⟨o, hget, ?_⟩
  exact (cancelOrder_exchangeConfirmed_iff liveConfig rfl acknowledgedEntry 0 o hget hopen
    (by simp [hids]) unreachable).mpr hkind

/-- An acknowledged SELL order is cancelled although the exchange cannot be reached. -/
theorem cancelOrder_exit_unconfirmed : ∃ o,
    (runAll liveConfig acknowledgedExit).state.orders.get? 0 = some o ∧
      o.status.isFinal = false ∧ o.exchangeOrderIds = ["x"] ∧
      ¬ ExchangeConfirmed 0 o
        ((cancelOrder liveConfig 0).run unreachable (runAll liveConfig acknowledgedExit).state) := by
  have hsome : ((runAll liveConfig acknowledgedExit).state.orders.get? 0).any (fun o =>
      o.status.isFinal = false ∧ o.exchangeOrderIds = ["x"] ∧ o.orderKind = .exit) = true := by
    decide +kernel
  obtain ⟨o, hget, hfacts⟩ := (Option.any_eq_true _ _).mp hsome
  obtain ⟨hopen, hids, hkind⟩ := of_decide_eq_true hfacts
  refine ⟨o, hget, hopen, hids, ?_⟩
  intro hconfirmed
  obtain ⟨hresult, hstatus, htrace⟩ :=
    cancelOrder_local liveConfig hget hopen (by simp [hkind]) unreachable
  have hall := hconfirmed.1 hresult hstatus "x" (by simp [hids])
  rw [htrace] at hall
  simp at hall

end PolyCortex
