import PolyCortex.Execution.LiveEntry
import PolyCortex.Execution.Placement

/-!
# The status of a live entry

The rows of a pass withdraw an entry as soon as one of them says cancelled or expired, provided the
entry has no fill, and never when it has one (`Order.afterRows_out_iff`). So the status agrees with
the exchange exactly in the passes that `StatusesAgree` describes.
-/

namespace PolyCortex

open Coroutine

variable {cfg : Config}

/-- The exchange order is gone without being filled completely. -/
def StatusRow.isOut (row : StatusRow) : Prop := row.isCancelled = true ∨ row.isExpired = true

/-- All `n` exchange orders are reported cancelled or expired. -/
def AllOut (n : ℕ) (rows : List StatusRow) : Prop :=
  rows.length = n ∧ ∀ row ∈ rows, row.isOut

instance (row : StatusRow) : Decidable row.isOut :=
  inferInstanceAs (Decidable (_ ∨ _))

instance (n : ℕ) (rows : List StatusRow) : Decidable (AllOut n rows) :=
  inferInstanceAs (Decidable (_ ∧ _))

/-- The entry is cancelled or expired. -/
def Executor.IsOut (s : Executor) (e : OrderId) : Prop :=
  ∃ o, s.orders.get? e = some o ∧ (o.status = .cancelled ∨ o.status = .expired)

/-- The passes that decide as the exchange does: an entry with a fill, old or new, still has an
exchange order that is not out; without a fill all of them are out as soon as one is. -/
def StatusesAgree (o : Order) (rows : List StatusRow) : Prop :=
  if o.status = .partiallyFilled ∨ 0 < totalFilled rows then
    ¬ AllOut o.exchangeOrderIds.length rows
  else (∃ row ∈ rows, row.isOut) → AllOut o.exchangeOrderIds.length rows

instance (o : Order) (rows : List StatusRow) : Decidable (StatusesAgree o rows) :=
  inferInstanceAs (Decidable (if o.status = .partiallyFilled ∨ 0 < totalFilled rows then
    ¬ AllOut o.exchangeOrderIds.length rows
  else (∃ row ∈ rows, row.isOut) → AllOut o.exchangeOrderIds.length rows))

/-- An open entry is either untouched or partially filled. -/
lemma Order.Accounted.placed_or_partiallyFilled {o : Order} (h : o.Accounted)
    (hkind : o.orderKind = .entry) (hopen : o.status.isFinal = false) :
    o.status = .placed ∨ o.status = .partiallyFilled := by
  cases hstatus : o.status with
  | placed => exact Or.inl rfl
  | partiallyFilled => exact Or.inr rfl
  | armed =>
    have hbracket := h.bracket_of_armed hstatus
    rw [hkind] at hbracket
    cases hbracket
  | filled => simp [hstatus, OrderStatus.isFinal] at hopen
  | cancelled => simp [hstatus, OrderStatus.isFinal] at hopen
  | expired => simp [hstatus, OrderStatus.isFinal] at hopen

lemma Order.liveFill_status (o : Order) (rows : List StatusRow) (now : Time) :
    (o.liveFill rows now).status = o.status ∨ (o.liveFill rows now).status = .filled ∨
      (o.liveFill rows now).status = .partiallyFilled := by
  rw [liveFill]
  split_ifs
  · rcases o.applyFill_status (deltaFilled o rows) (lastPrice o rows) now with
      ⟨heq, _⟩ | ⟨_, hst⟩ | ⟨_, hst⟩
    · exact Or.inl (congrArg Order.status heq)
    · exact Or.inr (Or.inl hst)
    · exact Or.inr (Or.inr hst)
  · exact Or.inl rfl

/-- After the fills of the rows an entry has a fill status exactly when it has a fill. -/
lemma Order.liveFill_status_iff {o : Order} (h : o.Accounted) (hkind : o.orderKind = .entry)
    (hopen : o.status.isFinal = false) (rows : List StatusRow) (now : Time) :
    ((o.liveFill rows now).status = .filled ∨ (o.liveFill rows now).status = .partiallyFilled) ↔
      (o.status = .partiallyFilled ∨ 0 < totalFilled rows) := by
  rcases h.placed_or_partiallyFilled hkind hopen with hplaced | hpart
  · obtain ⟨hfilled, hremaining⟩ := h.untouched (Or.inl hplaced)
    have hdelta : 0 < deltaFilled o rows ↔ 0 < totalFilled rows := by
      simp [deltaFilled, hfilled]
    have hsize := h.entry_size hkind
    simp only [hplaced, reduceCtorEq, false_or]
    rw [liveFill, ← hdelta]
    split_ifs with hpos
    · have haccepted : 0 < o.acceptedFill (deltaFilled o rows) := by
        refine lt_min hpos ?_
        rw [hremaining]
        linarith
      rcases o.applyFill_status (deltaFilled o rows) (lastPrice o rows) now with
        ⟨_, hnone⟩ | ⟨_, hst⟩ | ⟨_, hst⟩
      · exact absurd haccepted (not_lt.mpr hnone)
      · simp [hst, hpos]
      · simp [hst, hpos]
    · simp [hplaced, hpos]
  · simp only [hpart, true_or, iff_true]
    rcases o.liveFill_status rows now with h | h | h
    · exact Or.inr (h.trans hpart)
    · exact Or.inl h
    · exact Or.inr h

/-- The rows withdraw an open entry when it has no fill and one of them is out. -/
lemma Order.afterRows_out_iff {o : Order} (h : o.Accounted) (hkind : o.orderKind = .entry)
    (hopen : o.status.isFinal = false) (rows : List StatusRow) (now : Time) :
    ((o.afterRows rows now).status = .cancelled ∨ (o.afterRows rows now).status = .expired) ↔
      ¬ (o.status = .partiallyFilled ∨ 0 < totalFilled rows) ∧ ∃ row ∈ rows, row.isOut := by
  have hnotOut : ¬ (o.status = .cancelled ∨ o.status = .expired) := by
    rintro (hst | hst) <;> simp [hst, OrderStatus.isFinal] at hopen
  by_cases hrows : rows = []
  · simp [afterRows, hrows, hnotOut]
  have hfill := o.liveFill_status_iff h hkind hopen rows now
  rw [afterRows, if_neg hrows, liveStatus, ← hfill]
  by_cases hstatus : (o.liveFill rows now).status = .filled ∨
      (o.liveFill rows now).status = .partiallyFilled
  · rw [if_pos hstatus]
    rcases hstatus with hst | hst <;> simp [hst]
  rw [if_neg hstatus]
  by_cases hcancelled : rows.any StatusRow.isCancelled = true
  · rw [if_pos hcancelled]
    obtain ⟨row, hrow, hout⟩ := List.any_eq_true.mp hcancelled
    simp only [true_or, hstatus, not_false_eq_true, true_and, true_iff]
    exact ⟨row, hrow, Or.inl hout⟩
  rw [if_neg hcancelled]
  by_cases hexpired : rows.any StatusRow.isExpired = true
  · rw [if_pos hexpired]
    obtain ⟨row, hrow, hout⟩ := List.any_eq_true.mp hexpired
    simp only [or_true, hstatus, not_false_eq_true, true_and, true_iff]
    exact ⟨row, hrow, Or.inr hout⟩
  · rw [if_neg hexpired]
    simp only [List.any_eq_true, not_exists, not_and] at hcancelled hexpired
    have hsame : (o.liveFill rows now).status = o.status := by
      rcases o.liveFill_status rows now with h | h | h
      · exact h
      · exact absurd (Or.inl h) hstatus
      · exact absurd (Or.inr h) hstatus
    rw [hsame]
    refine iff_of_false hnotOut ?_
    rintro ⟨_, row, hrow, hout | hout⟩
    · exact hcancelled row hrow hout
    · exact hexpired row hrow hout

/-- A pass withdraws a live entry exactly when all its exchange orders are reported out, if and only
if the statuses agree in that pass. -/
theorem reconcileOrders_withdraws_iff (cfg : Config) (hlive : cfg.isPaper = false)
    (run : List Invocation) (e : OrderId) (o : Order)
    (hget : (runAll cfg run).state.orders.get? e = some o) (hkind : o.orderKind = .entry)
    (hopen : o.status.isFinal = false) (hids : o.exchangeOrderIds ≠ []) (books : MarketBooks)
    (now : Time) (ω : Oracle Request Reply) :
    let outcome := (reconcileOrders cfg books now).run ω (runAll cfg run).state
    let rows := reportedRows e outcome.trace
    (outcome.state.IsOut e ↔ AllOut o.exchangeOrderIds.length rows) ↔ StatusesAgree o rows := by
  intro outcome rows
  have hlinked := runAll_linked cfg run
  obtain ⟨_, rows', htrace, _, _, o', ho', hsame⟩ := reconcileOrders_liveEntry cfg books now hlinked
    hget hkind ((runAll_paperIs cfg run e o hget).trans hlive) ω
  have hrows : rows' = rows := by
    simpa [rows, outcome] using htrace.symm
  subst hrows
  have hmoves : outcome.state.IsOut e ↔
      ¬ (o.status = .partiallyFilled ∨ 0 < totalFilled rows) ∧ ∃ row ∈ rows, row.isOut := by
    rw [← Order.afterRows_out_iff (hlinked.accounted e o hget) hkind hopen rows now, ← hsame.status]
    constructor
    · rintro ⟨o'', ho'', hout⟩
      rw [World.after_state, ho'', Option.some.injEq] at ho'
      exact ho' ▸ hout
    · exact fun hout => ⟨o', ho', hout⟩
  have hsome : AllOut o.exchangeOrderIds.length rows → ∃ row ∈ rows, row.isOut := by
    rintro ⟨hlen, hall⟩
    have hpos : 0 < rows.length := hlen ▸ List.length_pos_iff.mpr hids
    obtain ⟨row, hrow⟩ := List.exists_mem_of_length_pos hpos
    exact ⟨row, hrow, hall row hrow⟩
  rw [hmoves, StatusesAgree]
  split_ifs with hfill
  · simp only [hfill, not_true, false_and, false_iff]
  · simp only [hfill, not_false_eq_true, true_and]
    exact ⟨fun h => h.mp, fun h => ⟨h, hsome⟩⟩

/-- A live entry in three chunks, which the exchange acknowledges as `x`, `y` and `z`. -/
def threeChunkEntry : List Invocation :=
  [⟨⟨.placeOrder threeChunks, { now := 0 }⟩,
    scripted (fun n => acknowledged (if n = 2 then "x" else if n = 4 then "y" else "z"))
      (fun _ => .error .network) fun _ => .failed⟩]

/-- Status answers: the first exchange order is cancelled, the status of the others is as given. -/
def firstCancelled (others : String) : Oracle Request Reply :=
  scripted (fun _ => .error .network) (fun _ => .error .network) fun n =>
    .response (.dict [("status", .text (if n = 0 then "cancelled" else others))])

/-- A pass over that entry. -/
def passOver (ω : Oracle Request Reply) :
    Outcome Executor Request Reply (List OrderLifecycleEvent) :=
  (reconcileOrders liveConfig (fun _ => none) 1).run ω (runAll liveConfig threeChunkEntry).state

/-- The theorem at a pass in which all exchange orders are reported cancelled. -/
theorem reconcileOrders_withdraws_allCancelled :
    (passOver (firstCancelled "canceled")).state.IsOut 0 ↔
      AllOut 3 (reportedRows 0 (passOver (firstCancelled "canceled")).trace) := by
  have hsome : ((runAll liveConfig threeChunkEntry).state.orders.get? 0).any (fun o =>
      o.orderKind = .entry ∧ o.status.isFinal = false ∧ o.exchangeOrderIds = ["x", "y", "z"] ∧
        StatusesAgree o (reportedRows 0 (passOver (firstCancelled "canceled")).trace)) = true := by
    decide +kernel
  obtain ⟨o, hget, hfacts⟩ := (Option.any_eq_true _ _).mp hsome
  obtain ⟨hkind, hopen, hids, hagree⟩ := of_decide_eq_true hfacts
  have hiff := (reconcileOrders_withdraws_iff liveConfig rfl threeChunkEntry 0 o hget hkind hopen
    (by simp [hids]) (fun _ => none) 1 (firstCancelled "canceled")).mpr hagree
  rwa [hids] at hiff

/-- One of three exchange orders is cancelled, and the entry is. -/
theorem reconcileOrders_withdraws_firstCancelled :
    (passOver (firstCancelled "live")).state.IsOut 0 ∧
      ¬ AllOut 3 (reportedRows 0 (passOver (firstCancelled "live")).trace) := by
  have hout : ((passOver (firstCancelled "live")).state.orders.get? 0).any
      (fun o => o.status = .cancelled) = true := by decide +kernel
  obtain ⟨o, ho, hstatus⟩ := (Option.any_eq_true _ _).mp hout
  exact ⟨⟨o, ho, Or.inl (of_decide_eq_true hstatus)⟩, by decide +kernel⟩

end PolyCortex
