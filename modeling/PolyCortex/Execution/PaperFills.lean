import PolyCortex.Data.Grouping
import PolyCortex.Execution.PaperEngine

/-!
# The books of the paper engine

A fill is rounded to cents after it was computed against what remains. An engine stays exact in a run
just when no rounding takes a fill to zero or beyond what remains, and no order that has fills is
replaced (`alongRun_exact_iff`).
-/

namespace PolyCortex

open Rounding Weighted

/-! ### Runs -/

section Runs

variable {σ α : Type*} {step : σ → α → σ} {P : σ → Prop} {Ok : σ → α → Prop}

/-- The property holds in every state of the run. -/
def AlongRun (step : σ → α → σ) (P : σ → Prop) : σ → List α → Prop
  | s, [] => P s
  | s, a :: as => P s ∧ AlongRun step P (step s a) as

/-- Every step meets the condition in the state before it. -/
def EachStep (step : σ → α → σ) (Ok : σ → α → Prop) : σ → List α → Prop
  | _, [] => True
  | s, a :: as => Ok s a ∧ EachStep step Ok (step s a) as

/-- A condition that is exact for one step is exact for the runs. -/
lemma alongRun_iff {as : List α} (hstep : ∀ a ∈ as, ∀ s, P s → (P (step s a) ↔ Ok s a)) {s : σ}
    (hs : P s) : AlongRun step P s as ↔ EachStep step Ok s as := by
  induction as generalizing s with
  | nil => exact iff_of_true hs trivial
  | cons a as ih =>
    have hrest : ∀ b ∈ as, ∀ s, P s → (P (step s b) ↔ Ok s b) := fun b hb =>
      hstep b (List.mem_cons_of_mem _ hb)
    have hfirst := hstep a List.mem_cons_self s hs
    rw [AlongRun, EachStep, ← hfirst, and_iff_right hs]
    constructor
    · intro hrun
      have hnext : P (step s a) := by
        cases as with
        | nil => exact hrun
        | cons b as => exact hrun.1
      exact ⟨hnext, (ih hrest hnext).mp hrun⟩
    · rintro ⟨hnext, hrun⟩
      exact (ih hrest hnext).mpr hrun

end Runs

/-! ### One order -/

namespace PaperOrder

variable {o : PaperOrder} {settings : PaperSettings} {draws : FillDraws} {bids asks : List Level}
  {fill : SimulatedFill}

/-- The fills are positive and add up to what is filled, which is at most the size; the order is
filled when it is the size. -/
structure Exact (o : PaperOrder) : Prop where
  fills_pos : ∀ fill ∈ o.fills, 0 < fill.fillSize
  filled_eq : o.filledSize = (o.fills.map (·.fillSize)).sum
  filled_le : o.filledSize ≤ o.size
  filled_iff : o.status = .filled ↔ o.filledSize = o.size

/-- What remains of the order. -/
def remaining (o : PaperOrder) : ℚ := o.size - o.filledSize

/-- What can be filled of an order that is hit, and is not thinned out, rounds to a positive number of
cents within what remains. -/
def RoundsWithin (settings : PaperSettings) (draws : FillDraws) (bids asks : List Level)
    (o : PaperOrder) : Prop :=
  o.status = .opened → o.Hit settings draws o.remaining bids asks →
    ¬Thinned settings draws (o.fillableOf o.remaining bids asks) →
    0 < roundTo 2 (o.fillableOf o.remaining bids asks) ∧
      roundTo 2 (o.fillableOf o.remaining bids asks) ≤ o.remaining

lemma Exact.remaining_pos (h : o.Exact) (hopen : o.status = .opened) : 0 < o.remaining := by
  have hne : o.filledSize ≠ o.size := fun heq => by
    have hfilled := h.filled_iff.mpr heq
    rw [hopen] at hfilled
    cases hfilled
  exact sub_pos.mpr (lt_of_le_of_ne h.filled_le hne)

lemma exact_addFill_iff (h : o.Exact) (hopen : o.status = .opened) :
    (o.addFill fill).Exact ↔ 0 < fill.fillSize ∧ fill.fillSize ≤ o.remaining := by
  constructor
  · intro hexact
    have hle := hexact.filled_le
    simp only [addFill] at hle
    exact ⟨hexact.fills_pos fill (by simp [addFill]), by rw [remaining]; linarith⟩
  · rintro ⟨hpos, hle⟩
    rw [remaining] at hle
    constructor
    case fills_pos =>
      intro other hother
      rw [addFill, List.mem_append, List.mem_singleton] at hother
      obtain hother | rfl := hother
      · exact h.fills_pos other hother
      · exact hpos
    case filled_eq =>
      simp only [addFill, List.map_append, List.sum_append, List.map_singleton, List.sum_singleton,
        h.filled_eq]
    case filled_le =>
      simp only [addFill]
      linarith
    case filled_iff =>
      simp only [addFill, hopen]
      split_ifs with hfull
      · exact iff_of_true rfl (by linarith)
      · exact iff_of_false (by simp) fun heq => hfull heq.ge

lemma Exact.cancel (h : o.Exact) (hopen : o.status = .opened) :
    Exact { o with status := .cancelled } where
  fills_pos := h.fills_pos
  filled_eq := h.filled_eq
  filled_le := h.filled_le
  filled_iff := iff_of_false (by simp) fun heq => by
    have hfilled := h.filled_iff.mpr heq
    rw [hopen] at hfilled
    cases hfilled

/-- A fraction of more than 10 stays positive and within, also when it is rounded. -/
lemma roundTo_thinned (hdraws : draws.Valid) {x remaining : ℚ} (hx : 10 < x) (hle : x ≤ remaining) :
    0 < roundTo 2 (x * draws.keptFraction) ∧ roundTo 2 (x * draws.keptFraction) ≤ remaining := by
  obtain ⟨hlow, hhigh⟩ := keptFraction_mem hdraws
  have hup := roundTo_le_add (n := 2) (x * draws.keptFraction)
  have hdown := le_roundTo_add (n := 2) (x * draws.keptFraction)
  norm_num at hup hdown
  constructor <;> nlinarith

/-- An order stays exact when its fill, if it gets one, rounds within. -/
lemma exact_simulate_iff (h : o.Exact) (hdraws : draws.Valid) :
    (o.simulate settings draws bids asks).1.Exact ↔ o.RoundsWithin settings draws bids asks := by
  by_cases hopen : o.status = .opened
  · have hpos : 0 < o.remaining := h.remaining_pos hopen
    rw [simulate, if_neg (not_not.mpr hopen), if_neg (by rw [← remaining]; exact not_le.mpr hpos),
      ← remaining]
    by_cases hhit : o.Hit settings draws o.remaining bids asks
    · obtain ⟨fill, hfill, -, hsize, -⟩ := tryFill_of_hit hpos hdraws hhit
      rw [hfill, exact_addFill_iff h hopen, hsize]
      split_ifs with hthin
      · exact iff_of_true (roundTo_thinned hdraws hthin.2 (fillable_le _ _))
          fun _ _ hnot => absurd hthin hnot
      · exact ⟨fun hwithin _ _ _ => hwithin, fun hwithin => hwithin hopen hhit hthin⟩
    · rw [tryFill_of_not_hit hpos hhit]
      exact iff_of_true h fun _ hhit' => absurd hhit' hhit
  · rw [simulate, if_pos hopen]
    exact iff_of_true h fun hopen' => absurd hopen' hopen

lemma filledSize_simulate (settings : PaperSettings) (draws : FillDraws) (bids asks : List Level)
    (o : PaperOrder) :
    (o.simulate settings draws bids asks).1.filledSize =
      o.filledSize + ((o.simulate settings draws bids asks).2.map (·.fillSize)).getD 0 := by
  rw [simulate]
  split_ifs
  · simp
  · simp
  · cases o.tryFill settings draws (o.size - o.filledSize) bids asks with
    | none => simp
    | some fill => rfl

end PaperOrder

/-! ### The engine -/

/-- A call from outside. -/
inductive PaperCall where
  | submitOrder (orderId tokenId side : String) (price size : ℚ)
  | cancelOrder (orderId : String)
  | simulateFills (bids asks : List Level) (draws : String → FillDraws)

/-- Orders have a positive size, and draws are in their interval. -/
def PaperCall.Valid : PaperCall → Prop
  | .submitOrder _ _ _ _ size => 0 < size
  | .cancelOrder _ => True
  | .simulateFills _ _ draws => ∀ orderId, (draws orderId).Valid

namespace PaperTradingEngine

variable {e : PaperTradingEngine} {bids asks : List Level} {draws : String → FillDraws}

def perform (e : PaperTradingEngine) : PaperCall → PaperTradingEngine
  | .submitOrder orderId tokenId side price size => e.submitOrder orderId tokenId side price size
  | .cancelOrder orderId => (e.cancelOrder orderId).2
  | .simulateFills bids asks draws => (e.simulateFills bids asks draws).2

/-- The orders are exact, and the volume is what is filled of them together. -/
structure Exact (e : PaperTradingEngine) : Prop where
  orders : ∀ orderId o, e.orders.get? orderId = some o → o.Exact
  volume : e.totalVolume = (e.orders.values.map (·.filledSize)).sum

/-- A new order takes no place of one with fills, and fills round within what remains. -/
def Meets (e : PaperTradingEngine) : PaperCall → Prop
  | .submitOrder orderId _ _ _ _ => ∀ o, e.orders.get? orderId = some o → o.fills = []
  | .cancelOrder _ => True
  | .simulateFills bids asks draws => ∀ orderId o, e.orders.get? orderId = some o →
      o.RoundsWithin e.settings (draws o.orderId) bids asks

/-- The loop over some orders: what it appends, and what it adds up. -/
lemma foldl_simulateStep (items : List (String × PaperOrder)) (fills : List SimulatedFill)
    (e : PaperTradingEngine) :
    items.foldl (simulateStep bids asks draws) (fills, e) =
      (fills ++ items.filterMap fun item => (e.simulated bids asks draws item.2).2,
        { e with
          orders := items.foldl
            (fun d item => d.modify item.1 fun _ => (e.simulated bids asks draws item.2).1) e.orders
          fillCount := e.fillCount +
            (items.filterMap fun item => (e.simulated bids asks draws item.2).2).length
          totalVolume := e.totalVolume +
            ((items.filterMap fun item => (e.simulated bids asks draws item.2).2).map
              (·.fillSize)).sum
          totalFees := e.totalFees +
            ((items.filterMap fun item => (e.simulated bids asks draws item.2).2).map
              (·.feeUsdc)).sum }) := by
  induction items generalizing fills e with
  | nil => simp
  | cons item items ih =>
    rw [List.foldl_cons, simulateStep]
    cases hfill : (e.simulated bids asks draws item.2).2 with
    | none =>
      simp only [hfill, ih, List.filterMap_cons_none, List.foldl_cons]
      rfl
    | some fill =>
      have hcons : (item :: items).filterMap (fun item => (e.simulated bids asks draws item.2).2) =
          fill :: items.filterMap fun item => (e.simulated bids asks draws item.2).2 :=
        List.filterMap_cons_some hfill
      simp only [ih, hcons, List.foldl_cons, List.append_assoc, List.singleton_append,
        List.length_cons, List.map_cons, List.sum_cons, add_assoc, add_comm 1]
      rfl

lemma filterMap_items {α β κ : Type} (d : Dict κ α) (f : α → Option β) :
    (d.items.filterMap fun item => f item.2) = d.values.filterMap f := by
  rw [Dict.items, Dict.values, List.filterMap_filterMap, List.filterMap_filterMap]
  refine List.filterMap_congr fun k _ => ?_
  cases d.get? k <;> rfl

/-- The fills of a call, one after the other. -/
lemma simulateFills_fst : (e.simulateFills bids asks draws).1 =
    e.orders.values.filterMap fun o => (e.simulated bids asks draws o).2 := by
  rw [simulateFills, foldl_simulateStep, List.nil_append]
  exact filterMap_items e.orders fun o => (e.simulated bids asks draws o).2

lemma get?_simulateFills (orderId : String) :
    (e.simulateFills bids asks draws).2.orders.get? orderId =
      (e.orders.get? orderId).map fun o => (e.simulated bids asks draws o).1 := by
  rw [simulateFills, foldl_simulateStep]
  simp only
  rw [Dict.foldl_items_modify e.orders (fun o _ => (e.simulated bids asks draws o).1),
    Dict.get?_mapValues]
  cases e.orders.get? orderId <;> rfl

lemma values_simulateFills : (e.simulateFills bids asks draws).2.orders.values =
    e.orders.values.map fun o => (e.simulated bids asks draws o).1 := by
  rw [← Dict.values_mapValues]
  congr 1
  refine Dict.ext ?_ (funext fun orderId => get?_simulateFills orderId)
  rw [simulateFills, foldl_simulateStep]
  simp only
  rw [Dict.foldl_items_modify e.orders (fun o _ => (e.simulated bids asks draws o).1)]
  rfl

/-- The volume grows by what is filled. -/
lemma volume_simulateFills (h : e.totalVolume = (e.orders.values.map (·.filledSize)).sum) :
    (e.simulateFills bids asks draws).2.totalVolume =
      ((e.simulateFills bids asks draws).2.orders.values.map (·.filledSize)).sum := by
  have hsum : ∀ orders : List PaperOrder,
      (orders.map (·.filledSize)).sum +
          ((orders.filterMap fun o => (e.simulated bids asks draws o).2).map (·.fillSize)).sum =
        (orders.map fun o => (e.simulated bids asks draws o).1.filledSize).sum := by
    intro orders
    induction orders with
    | nil => exact add_zero 0
    | cons o orders ih =>
      have hfilled := o.filledSize_simulate e.settings (draws o.orderId) bids asks
      rw [← PaperTradingEngine.simulated] at hfilled
      rw [List.map_cons, List.map_cons, List.sum_cons, List.sum_cons, ← ih, hfilled]
      rw [List.filterMap_cons]
      cases hfill : (e.simulated bids asks draws o).2 with
      | none =>
        simp only [Option.map_none, Option.getD_none]
        ring
      | some fill =>
        simp only [Option.map_some, Option.getD_some, List.map_cons, List.sum_cons]
        ring
  rw [values_simulateFills, List.map_map, simulateFills, foldl_simulateStep]
  simp only
  rw [filterMap_items e.orders fun o => (e.simulated bids asks draws o).2, h]
  exact hsum e.orders.values

lemma mem_values {o : PaperOrder} {orderId : String} (h : e.orders.get? orderId = some o) :
    o ∈ e.orders.values :=
  (Dict.mem_values_iff _ _).mpr ⟨orderId, h⟩

/-- Cancelling changes no size. -/
lemma Exact.cancelOrder (h : e.Exact) (orderId : String) : (e.cancelOrder orderId).2.Exact := by
  rw [PaperTradingEngine.cancelOrder]
  cases hget : e.orders.get? orderId with
  | none => exact h
  | some o =>
    simp only
    split_ifs with hopen
    · constructor
      case orders =>
        intro otherId other hother
        simp only at hother
        rw [Dict.get?_modify] at hother
        split_ifs at hother with hid
        · rw [hget, Option.map_some, Option.some.injEq] at hother
          exact hother ▸ (h.orders orderId o hget).cancel hopen
        · exact h.orders otherId other hother
      case volume =>
        have hsum := Dict.sum_set e.orders orderId { o with status := .cancelled } (·.filledSize)
        rw [hget, Option.map_some, Option.getD_some, add_left_inj] at hsum
        simp only
        rw [h.volume, ← hsum, Dict.set_of_some hget]
        congr 3
        exact Dict.modify_congr fun other hother => by
          rw [Option.some.inj (hget.symm.trans hother)]
    · exact h

/-- A new order leaves the volume what is filled unless it takes the place of fills. -/
lemma exact_submitOrder_iff (h : e.Exact) {orderId tokenId side : String} {price size : ℚ}
    (hsize : 0 < size) :
    (e.submitOrder orderId tokenId side price size).Exact ↔
      ∀ o, e.orders.get? orderId = some o → o.fills = [] := by
  have hsum := Dict.sum_set e.orders orderId
    ({ orderId, tokenId, side := side.toUpper, price, size } : PaperOrder) (·.filledSize)
  simp only [add_zero] at hsum
  constructor
  · intro hexact o hget
    have hvolume := hexact.volume
    simp only [submitOrder] at hvolume
    rw [h.volume, ← hsum, hget, Option.map_some, Option.getD_some] at hvolume
    have hzero : o.filledSize = 0 := by linarith
    have ho := h.orders orderId o hget
    by_contra hne
    have hpos : 0 < (o.fills.map (·.fillSize)).sum :=
      List.sum_pos _ (by simpa using ho.fills_pos) (by simpa using hne)
    rw [← ho.filled_eq, hzero] at hpos
    exact lt_irrefl 0 hpos
  · intro hnone
    constructor
    case orders =>
      intro otherId other hother
      simp only [submitOrder] at hother
      rw [Dict.get?_set] at hother
      split_ifs at hother with hid
      · obtain rfl := Option.some.inj hother
        exact ⟨by simp, by simp, hsize.le, iff_of_false (by simp) hsize.ne⟩
      · exact h.orders otherId other hother
    case volume =>
      have hold : ((e.orders.get? orderId).map (·.filledSize)).getD 0 = 0 := by
        cases hget : e.orders.get? orderId with
        | none => rfl
        | some o =>
          rw [Option.map_some, Option.getD_some, (h.orders orderId o hget).filled_eq, hnone o hget]
          rfl
      rw [hold, add_zero] at hsum
      exact h.volume.trans hsum.symm

lemma exact_simulateFills_iff (h : e.Exact) (hdraws : ∀ orderId, (draws orderId).Valid) :
    (e.simulateFills bids asks draws).2.Exact ↔ e.Meets (.simulateFills bids asks draws) := by
  have horder : ∀ orderId o, e.orders.get? orderId = some o →
      ((e.simulated bids asks draws o).1.Exact ↔
        o.RoundsWithin e.settings (draws o.orderId) bids asks) := fun orderId o hget =>
    PaperOrder.exact_simulate_iff (h.orders orderId o hget) (hdraws o.orderId)
  constructor
  · intro hexact orderId o hget
    exact (horder orderId o hget).mp (hexact.orders orderId _ (by
      rw [get?_simulateFills, hget, Option.map_some]))
  · intro hmeets
    refine ⟨fun orderId o' hget' => ?_, volume_simulateFills h.volume⟩
    rw [get?_simulateFills] at hget'
    obtain ⟨o, hget, rfl⟩ := Option.map_eq_some_iff.mp hget'
    exact (horder orderId o hget).mpr (hmeets orderId o hget)

/-- A call leaves the engine exact just when it meets the condition. -/
lemma exact_perform_iff (h : e.Exact) {call : PaperCall} (hcall : call.Valid) :
    (e.perform call).Exact ↔ e.Meets call := by
  match call with
  | .submitOrder orderId tokenId side price size => exact exact_submitOrder_iff h hcall
  | .cancelOrder orderId => exact iff_of_true (h.cancelOrder orderId) trivial
  | .simulateFills bids asks draws => exact exact_simulateFills_iff h hcall

/-- Four thousandths of a share are bought, and then what remains of them is filled. -/
def dustRun : List PaperCall :=
  [.submitOrder "dust" "token" "BUY" (1 / 2) (4 / 1000),
    .simulateFills [] [(1 / 2, 100)] fun _ => ⟨1 / 2, 1 / 2, 1 / 2, 1 / 2⟩]

lemma valid_dustRun : ∀ call ∈ dustRun, call.Valid := by
  simp only [dustRun, List.mem_cons, List.not_mem_nil, or_false, forall_eq_or_imp, forall_eq,
    PaperCall.Valid, FillDraws.Valid]
  norm_num

/-- The fill of the dust is recorded with size 0. -/
lemma fills_dustRun :
    ((dustRun.foldl perform (new {})).orders.get? "dust").map (fun o => o.fills.map (·.fillSize)) =
      some [0] := by
  decide +kernel

end PaperTradingEngine
end PolyCortex
