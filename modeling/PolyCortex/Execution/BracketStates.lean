import PolyCortex.Execution.Arrivals
import PolyCortex.Execution.Exits
import PolyCortex.Execution.Placement

/-!
# Bracket states

The entry of a bracket says `armed` while one of its children is. Eight places write the one or the
other. A pass keeps the two together as long as it does not arm a bracket whose children are gone,
`cancel_order` and the two other cancellations as long as they do not take the children alone, or
leave them behind. The expiry of a child by a pass and by `cancel_expired_orders` never leaves the
entry the same.
-/

namespace PolyCortex

open Coroutine Relation

variable {cfg : Config} {s s' : Executor} {w : ExecWorld} {e id : OrderId} {g : ℕ} {f f' : Family}
  {o : Order} {books : MarketBooks} {now : Time}

/-! ### Families -/

/-- A fill of `x` moves the status of the entry: it is the first one, or the last one. -/
def Order.fillMoves (o : Order) (x : ℚ) : Prop :=
  0 < o.acceptedFill x ∧ (o.status = .placed ∨ o.remainingAfter x ≤ dust)

instance (o : Order) (x : ℚ) : Decidable (o.fillMoves x) :=
  inferInstanceAs (Decidable (_ ∧ _))

/-- A pass in which the exchange reports `rows` arms the bracket of the entry again. -/
def Order.Rearms (cfg : Config) (books : MarketBooks) (rows : List StatusRow) (o : Order) : Prop :=
  cfg.enableBracketOrders = true ∧ o.status.isFinal = false ∧
    if ¬ o.isPaper ∧ cfg.liveReconcileEnabled ∧ cfg.clobConnected then rows ≠ []
    else o.isPaper = true ∧ (o.status = .placed ∨ o.status = .partiallyFilled) ∧
      ∃ data ∈ books o.marketId, isMarketable cfg data o = true ∧
        o.fillMoves (paperFillSize cfg o)

instance (cfg : Config) (books : MarketBooks) (rows : List StatusRow) (o : Order) :
    Decidable (o.Rearms cfg books rows) :=
  inferInstanceAs (Decidable (cfg.enableBracketOrders = true ∧ o.status.isFinal = false ∧
    if ¬ o.isPaper ∧ cfg.liveReconcileEnabled ∧ cfg.clobConnected then rows ≠ []
    else o.isPaper = true ∧ (o.status = .placed ∨ o.status = .partiallyFilled) ∧
      ∃ data ∈ books o.marketId, isMarketable cfg data o = true ∧
        o.fillMoves (paperFillSize cfg o)))

/-- A fill after which the status is another one moves the status. -/
lemma Order.fillMoves_of_status {x p : ℚ} (hopen : o.status = .placed ∨ o.status = .partiallyFilled)
    (h : (o.applyFill x p now).status ≠ o.status) : o.fillMoves x := by
  by_cases hpos : 0 < o.acceptedFill x
  · refine ⟨hpos, ?_⟩
    rw [applyFill_of_pos hpos] at h
    dsimp only at h
    split_ifs at h with hdust
    · exact Or.inr hdust
    · exact Or.inl (hopen.resolve_right fun hpartial => h hpartial.symm)
  · rw [applyFill_of_nonpos (not_lt.mp hpos)] at h
    exact absurd rfl h

/-- The order is none of the exchange's. -/
def Order.isLocal (cfg : Config) (o : Order) : Bool := o.isPaper || !cfg.clobConnected

/-- `cancel_order` cancels the entry `o`, when the exchange fails to confirm it if `failed`. -/
def Order.isCancelledBy (cfg : Config) (failed : Bool) (o : Order) : Bool :=
  !o.status.isFinal && (o.isLocal cfg || !failed)

/-- `cancel_expired_orders` cancels the entry `o` for its age. -/
def Order.isAgedOut (cfg : Config) (now : Time) (failed : Bool) (o : Order) : Bool :=
  decide (minutes cfg.orderExpiryMinutes < now - o.timestamp) && o.isCancelledBy cfg failed

namespace Family

/-- Some child is armed. -/
def HasArmed (f : Family) : Prop := f.takeProfit.status = .armed ∨ f.stopLoss.status = .armed

/-- The entry says `armed` when some child is. -/
def Truthful (f : Family) : Prop := f.entry.bracketState = .armed ↔ f.HasArmed

/-- An entry with an armed child says `armed`, or has been cancelled. -/
def Known (f : Family) : Prop :=
  f.HasArmed → f.entry.bracketState = .armed ∨ f.entry.bracketState = .cancelled

lemma Truthful.known (h : f.Truthful) : f.Known := fun harmed => Or.inl (h.mpr harmed)

/-- What both children of a family in some state are. -/
structure Paired (f : Family) : Prop where
  takeProfit : f.takeProfit.Ready
  stopLoss : f.stopLoss.Ready
  marketId : f.stopLoss.marketId = f.takeProfit.marketId
  expiry : f.stopLoss.gttExpiryAt = f.takeProfit.gttExpiryAt

/-- No armed child expires or fires in a pass over `books`. -/
def Quiet (books : MarketBooks) (now : Time) (f : Family) : Prop :=
  ∀ own, own = f.takeProfit ∨ own = f.stopLoss → own.status = .armed →
    ∀ data, books own.marketId = some data →
      own.isPastExpiry now = false ∧ shouldTrigger data own = false

/-! The two rounds of the children. -/

/-- The family after the rounds of its children. -/
def childRounds (books : MarketBooks) (now : Time) (f : Family) : Family :=
  (f.takeProfitRound books now).stopLossRound books now

lemma takeProfitRound_of_notArmed (h : ¬ f.takeProfit.status = .armed) :
    f.takeProfitRound books now = f := by
  rw [takeProfitRound]
  cases books f.takeProfit.marketId with
  | none => rfl
  | some data => simp [childRound, h]

lemma stopLossRound_of_notArmed (h : ¬ f.stopLoss.status = .armed) : f.stopLossRound books now = f := by
  rw [stopLossRound]
  cases books f.stopLoss.marketId with
  | none => rfl
  | some data => simp [childRound, h]

lemma childRounds_of_notArmed (h : ¬ f.HasArmed) : f.childRounds books now = f := by
  obtain ⟨htp, hsl⟩ := not_or.mp h
  rw [childRounds, takeProfitRound_of_notArmed htp, stopLossRound_of_notArmed hsl]

/-- An armed child past its expiry takes the other one with it. -/
lemma Paired.childRounds_of_pastExpiry (h : f.Paired) (harmed : f.HasArmed) {data : MarketData}
    (hdata : books f.takeProfit.marketId = some data)
    (hpast : f.takeProfit.isPastExpiry now = true) :
    (f.childRounds books now).entry.bracketState = .expired ∧
      ¬ (f.childRounds books now).HasArmed := by
  have hdata' : books f.stopLoss.marketId = some data := h.marketId ▸ hdata
  have hpast' : f.stopLoss.isPastExpiry now = true := by
    rw [Order.isPastExpiry, h.expiry]
    exact hpast
  by_cases htp : f.takeProfit.status = .armed
  · have hfirst : f.takeProfitRound books now =
        { f with
          entry := { f.entry with bracketState := .expired }
          takeProfit := { f.takeProfit with status := .expired } } := by
      simp [takeProfitRound, hdata, childRound, htp, hpast]
    by_cases hsl : f.stopLoss.status = .armed <;>
      simp [childRounds, hfirst, stopLossRound, hdata', childRound, hsl, hpast', HasArmed]
  · have hsl : f.stopLoss.status = .armed := harmed.resolve_left htp
    simp [childRounds, takeProfitRound, hdata, childRound, htp, stopLossRound, hdata', hsl, hpast',
      HasArmed]

section Round

variable {data : MarketData}

/-- A take-profit that is due closes the bracket, and the stop-loss goes with it. -/
lemma Paired.takeProfitRound_of_due (h : f.Paired) (hdata : books f.takeProfit.marketId = some data)
    (hpast : ¬ f.takeProfit.isPastExpiry now = true)
    (hdue : f.takeProfit.status = .armed ∧ shouldTrigger data f.takeProfit = true) :
    (f.takeProfitRound books now).entry.bracketState = .closed ∧
      ¬ (f.takeProfitRound books now).HasArmed := by
  obtain ⟨htp, htrigger⟩ := hdue
  have hround : f.takeProfitRound books now =
      { entry := { f.entry with bracketState := .closed }
        takeProfit := f.takeProfit.exitFill data now
        stopLoss := if f.stopLoss.status = .armed then
          { f.stopLoss with status := .cancelled } else f.stopLoss } := by
    simp [takeProfitRound, hdata, childRound, htp, hpast, htrigger]
  rw [hround]
  refine ⟨rfl, ?_⟩
  rw [HasArmed, h.takeProfit.exitFill_status htp]
  split_ifs with hsl <;> simp [hsl]

/-- A stop-loss that is due closes the bracket, and the take-profit goes with it. -/
lemma Paired.stopLossRound_of_due (h : f.Paired) (hdata : books f.stopLoss.marketId = some data)
    (hpast : ¬ f.stopLoss.isPastExpiry now = true)
    (hdue : f.stopLoss.status = .armed ∧ shouldTrigger data f.stopLoss = true) :
    (f.stopLossRound books now).entry.bracketState = .closed ∧
      ¬ (f.stopLossRound books now).HasArmed := by
  obtain ⟨hsl, htrigger⟩ := hdue
  have hround : f.stopLossRound books now =
      { entry := { f.entry with bracketState := .closed }
        takeProfit := if f.takeProfit.status = .armed then
          { f.takeProfit with status := .cancelled } else f.takeProfit
        stopLoss := f.stopLoss.exitFill data now } := by
    simp [stopLossRound, hdata, childRound, hsl, hpast, htrigger]
  rw [hround]
  refine ⟨rfl, ?_⟩
  rw [HasArmed, h.stopLoss.exitFill_status hsl]
  split_ifs with htp <;> simp [htp]

lemma takeProfitRound_of_idle (hdata : books f.takeProfit.marketId = some data)
    (hpast : ¬ f.takeProfit.isPastExpiry now = true)
    (hidle : ¬ (f.takeProfit.status = .armed ∧ shouldTrigger data f.takeProfit = true)) :
    f.takeProfitRound books now = f := by
  rcases not_and_or.mp hidle with htp | htrigger
  · exact takeProfitRound_of_notArmed htp
  · simp [takeProfitRound, hdata, childRound, hpast, htrigger]

lemma stopLossRound_of_idle (hdata : books f.stopLoss.marketId = some data)
    (hpast : ¬ f.stopLoss.isPastExpiry now = true)
    (hidle : ¬ (f.stopLoss.status = .armed ∧ shouldTrigger data f.stopLoss = true)) :
    f.stopLossRound books now = f := by
  rcases not_and_or.mp hidle with hsl | htrigger
  · exact stopLossRound_of_notArmed hsl
  · simp [stopLossRound, hdata, childRound, hpast, htrigger]

end Round

/-- The rounds of the children change nothing, or leave no child armed and say so. -/
lemma Paired.childRounds_cases (books : MarketBooks) (now : Time) (h : f.Paired) :
    f.childRounds books now = f ∧ f.Quiet books now ∨
      ¬ (f.childRounds books now).HasArmed ∧
        ((f.childRounds books now).entry.bracketState = .expired ∨
          (f.childRounds books now).entry.bracketState = .closed) := by
  by_cases harmed : f.HasArmed
  swap
  · refine Or.inl ⟨childRounds_of_notArmed harmed, ?_⟩
    rintro own (rfl | rfl) hown
    · exact absurd (Or.inl hown) harmed
    · exact absurd (Or.inr hown) harmed
  cases hdata : books f.takeProfit.marketId with
  | none =>
    have hdata' : books f.stopLoss.marketId = none := h.marketId ▸ hdata
    refine Or.inl ⟨by simp [childRounds, takeProfitRound, hdata, stopLossRound, hdata'], ?_⟩
    rintro own (rfl | rfl) _ data hdata''
    · rw [hdata] at hdata''
      cases hdata''
    · rw [hdata'] at hdata''
      cases hdata''
  | some data =>
    by_cases hpast : f.takeProfit.isPastExpiry now = true
    · obtain ⟨hstate, hnone⟩ := h.childRounds_of_pastExpiry harmed hdata hpast
      exact Or.inr ⟨hnone, Or.inl hstate⟩
    have hdata' : books f.stopLoss.marketId = some data := h.marketId ▸ hdata
    have hpast' : ¬ f.stopLoss.isPastExpiry now = true := by
      rw [Order.isPastExpiry, h.expiry]
      exact hpast
    by_cases htp : f.takeProfit.status = .armed ∧ shouldTrigger data f.takeProfit = true
    · obtain ⟨hstate, hnone⟩ := h.takeProfitRound_of_due hdata hpast htp
      rw [childRounds, stopLossRound_of_notArmed (not_or.mp hnone).2]
      exact Or.inr ⟨hnone, Or.inr hstate⟩
    · rw [childRounds, takeProfitRound_of_idle hdata hpast htp]
      by_cases hsl : f.stopLoss.status = .armed ∧ shouldTrigger data f.stopLoss = true
      · obtain ⟨hstate, hnone⟩ := h.stopLossRound_of_due hdata' hpast' hsl
        exact Or.inr ⟨hnone, Or.inr hstate⟩
      · refine Or.inl ⟨stopLossRound_of_idle hdata' hpast' hsl, ?_⟩
        rintro own (rfl | rfl) hown data'' hdata''
        · obtain rfl := Option.some.inj (hdata.symm.trans hdata'')
          exact ⟨by simpa using hpast, by simpa [hown] using htp⟩
        · obtain rfl := Option.some.inj (hdata'.symm.trans hdata'')
          exact ⟨by simpa using hpast', by simpa [hown] using hsl⟩

/-! The round of the entry. -/

lemma liveStatus_activeSize (rows : List StatusRow) (o : Order) :
    (o.liveStatus rows).activeSize = o.activeSize := by
  rcases liveStatus_cases rows o with h | ⟨_, _, h | h⟩ <;> rw [h] <;> rfl

lemma defaultBracketSpec_of_enabled {spec : BracketSpec} (h : cfg.defaultBracketSpec = some spec) :
    cfg.enableBracketOrders = true := by
  by_contra hdisabled
  rw [Config.defaultBracketSpec, if_neg hdisabled] at h
  cases h

/-- The round of the entry is its fills, and then its bracket may be armed again. -/
lemma entryRound_cases (cfg : Config) (books : MarketBooks) (now : Time)
    (hacc : f.entry.Accounted) (hkind : f.entry.orderKind = .entry) (rows : List StatusRow) :
    f.entryRound cfg books now rows =
        { f with entry := f.entry.afterFills cfg books now rows } ∨
      f.entry.Rearms cfg books rows ∧ ∃ spec, cfg.defaultBracketSpec = some spec ∧
        0 < (f.entry.afterFills cfg books now rows).activeSize ∧
        f.entryRound cfg books now rows =
          { f with entry := f.entry.afterFills cfg books now rows }.refresh spec := by
  rw [entryRound, Order.afterFills]
  split_ifs with hfinal hlive hpaper
  · exact Or.inl rfl
  · rw [applyRows, Order.afterRows]
    dsimp only
    split_ifs with hrows hpos
    · exact Or.inl rfl
    · have hsize : 0 < ((f.entry.liveFill rows now).liveStatus rows).activeSize := by
        rw [liveStatus_activeSize, Order.activeSize, pyOr, if_neg hpos.ne']
        exact hpos
      cases hspec : cfg.defaultBracketSpec with
      | none => exact Or.inl (by simp [refreshDefault, hspec])
      | some spec =>
        refine Or.inr ⟨⟨defaultBracketSpec_of_enabled hspec, by simpa using hfinal, ?_⟩, spec, rfl,
          hsize, by simp [refreshDefault, hspec]⟩
        rw [if_pos hlive]
        exact hrows
    · exact Or.inl rfl
  · cases hdata : books f.entry.marketId with
    | none => exact Or.inl rfl
    | some data =>
      dsimp only
      rw [applyBook]
      dsimp only
      split_ifs with hmarket hmoved
      · have hsize := (hacc.applyFill (paperFillSize cfg f.entry)
          (entryFillPrice data f.entry) now).activeSize_pos
            ((f.entry.applyFill_sameTerms _ _ _).orderKind.trans hkind)
        cases hspec : cfg.defaultBracketSpec with
        | none => exact Or.inl (by simp [refreshDefault, hspec])
        | some spec =>
          refine Or.inr ⟨⟨defaultBracketSpec_of_enabled hspec, by simpa using hfinal, ?_⟩, spec,
            rfl, hsize, by simp [refreshDefault, hspec]⟩
          rw [if_neg hlive]
          exact ⟨hpaper.1, hpaper.2, data, hdata, hmarket,
            Order.fillMoves_of_status hpaper.2 hmoved⟩
      · exact Or.inl rfl
      · exact Or.inl rfl
  · exact Or.inl rfl

/-! What keeps the entry truthful. -/

lemma Paired.resized (h : f.Paired) {size : ℚ} (hpos : 0 < size)
    (htp : f'.takeProfit = f.takeProfit.resized size)
    (hsl : f'.stopLoss = f.stopLoss.resized size) : f'.Paired where
  takeProfit := htp ▸ h.takeProfit.resized hpos
  stopLoss := hsl ▸ h.stopLoss.resized hpos
  marketId := by
    rw [htp, hsl, (Order.resized_terms size _).marketId, (Order.resized_terms size _).marketId,
      h.marketId]
  expiry := by
    rw [htp, hsl, (Order.resized_terms size _).gttExpiryAt,
      (Order.resized_terms size _).gttExpiryAt, h.expiry]

/-- What the round of the entry leaves: the children in their states, and the entry too unless the
bracket is armed again. -/
lemma entryRound_spec (cfg : Config) (books : MarketBooks) (now : Time) (h : f.Paired)
    (hacc : f.entry.Accounted) (hkind : f.entry.orderKind = .entry) (rows : List StatusRow) :
    let f' := f.entryRound cfg books now rows
    f'.Paired ∧ (f'.HasArmed ↔ f.HasArmed) ∧
      f'.takeProfit.marketId = f.takeProfit.marketId ∧
      f'.takeProfit.gttExpiryAt = f.takeProfit.gttExpiryAt ∧
      (f'.entry.bracketState = f.entry.bracketState ∨
        f.entry.Rearms cfg books rows ∧ f'.entry.bracketState = .armed) := by
  have hstate := (f.entry.afterFills_sameBracket cfg books now rows).bracketState
  dsimp only
  rcases entryRound_cases cfg books now hacc hkind rows with
    hround | ⟨hrearms, spec, _, hpos, hround⟩
  · rw [hround]
    exact ⟨⟨h.takeProfit, h.stopLoss, h.marketId, h.expiry⟩, Iff.rfl, rfl, rfl, Or.inl hstate⟩
  · rw [hround]
    refine ⟨h.resized hpos rfl rfl, ?_, ?_, ?_, Or.inr ⟨hrearms, rfl⟩⟩
    · rw [HasArmed, refresh, Order.resized_status, Order.resized_status]
      rfl
    · exact (Order.resized_terms _ f.takeProfit).marketId
    · exact (Order.resized_terms _ f.takeProfit).gttExpiryAt

lemma reconciled_eq (rows : List StatusRow) :
    f.reconciled cfg books now rows = (f.entryRound cfg books now rows).childRounds books now := rfl

/-- A pass keeps an entry truthful unless it arms a bracket whose children are gone. -/
lemma Truthful.reconciled (ht : f.Truthful) (h : f.Paired) (hacc : f.entry.Accounted)
    (hkind : f.entry.orderKind = .entry) {rows : List StatusRow}
    (hquiet : f.entry.Rearms cfg books rows → f.HasArmed) :
    (f.reconciled cfg books now rows).Truthful := by
  obtain ⟨hpaired, harmed, _, _, hstate⟩ :=
    entryRound_spec cfg books now h hacc hkind rows
  have htruth : (f.entryRound cfg books now rows).Truthful := by
    rw [Truthful, harmed]
    rcases hstate with hstate | ⟨hrearms, hstate⟩
    · rw [hstate]
      exact ht
    · exact iff_of_true hstate (hquiet hrearms)
  rw [reconciled_eq]
  rcases hpaired.childRounds_cases books now with ⟨hsame, _⟩ | ⟨hnone, hstate⟩
  · rwa [hsame]
  · refine iff_of_false ?_ hnone
    rcases hstate with hstate | hstate <;> simp [hstate]

/-- A pass that can see the market of an armed child past its expiry makes the entry say so. -/
lemma Paired.reconciled_of_pastExpiry (h : f.Paired) (hacc : f.entry.Accounted)
    (hkind : f.entry.orderKind = .entry) (harmed : f.HasArmed) {data : MarketData}
    (hdata : books f.takeProfit.marketId = some data)
    (hpast : f.takeProfit.isPastExpiry now = true) (rows : List StatusRow) :
    (f.reconciled cfg books now rows).entry.bracketState = .expired := by
  obtain ⟨hpaired, harmed', hmarket, hexpiry, _⟩ :=
    entryRound_spec cfg books now h hacc hkind rows
  rw [reconciled_eq]
  apply (hpaired.childRounds_of_pastExpiry (harmed'.mpr harmed) (hmarket ▸ hdata) ?_).1
  rw [Order.isPastExpiry, hexpiry]
  exact hpast

lemma Known.reconciled (hknown : f.Known) (h : f.Paired) (hacc : f.entry.Accounted)
    (hkind : f.entry.orderKind = .entry) (rows : List StatusRow) :
    (f.reconciled cfg books now rows).Known := by
  obtain ⟨hpaired, harmed, _, _, hstate⟩ :=
    entryRound_spec cfg books now h hacc hkind rows
  rw [reconciled_eq]
  rcases hpaired.childRounds_cases books now with ⟨hsame, _⟩ | ⟨hnone, _⟩
  · rw [hsame]
    intro harmed'
    rcases hstate with hstate | ⟨_, hstate⟩
    · rw [hstate]
      exact hknown (harmed.mp harmed')
    · exact Or.inl hstate
  · exact fun harmed' => absurd harmed' hnone

/-! Cancellations. -/

@[simp] lemma withdrawn_notArmed (o : Order) : o.withdrawn.status ≠ .armed := by
  rw [Order.withdrawn]
  split_ifs with hfinal
  · intro harmed
    rw [harmed] at hfinal
    cases hfinal
  · simp

/-- The three outcomes of a cancellation. -/
lemma cancelled_cases (cfg : Config) (failed : Bool) (f : Family) :
    f.entry.isCancelledBy cfg failed = false ∧ f.cancelled cfg failed = f ∨
    f.entry.isCancelledBy cfg failed = true ∧ f.entry.isLocal cfg = true ∧
      f.cancelled cfg failed =
        { entry := { f.entry with status := .cancelled, bracketState := .cancelled }
          takeProfit := f.takeProfit.withdrawn
          stopLoss := f.stopLoss.withdrawn } ∨
    f.entry.isCancelledBy cfg failed = true ∧ f.entry.isLocal cfg = false ∧
      f.cancelled cfg failed =
        { f with entry := { f.entry with status := .cancelled, bracketState := .cancelled } } := by
  rw [cancelled, Order.isCancelledBy, Order.isLocal]
  split_ifs with hfinal hlocal hfailed
  · exact Or.inl ⟨by simp [hfinal], rfl⟩
  · have hlocal' : (f.entry.isPaper || !cfg.clobConnected) = true := by simpa using hlocal
    exact Or.inr (Or.inl ⟨by simp [hfinal, hlocal'], hlocal', rfl⟩)
  · have hlocal' : (f.entry.isPaper || !cfg.clobConnected) = false := by simpa using hlocal
    exact Or.inl ⟨by simp [hlocal', hfailed], rfl⟩
  · have hlocal' : (f.entry.isPaper || !cfg.clobConnected) = false := by simpa using hlocal
    exact Or.inr (Or.inr ⟨by simp [hfinal, hfailed], hlocal', rfl⟩)

lemma Truthful.cancelled (ht : f.Truthful) {failed : Bool}
    (hc : f.HasArmed → f.entry.isCancelledBy cfg failed = true → f.entry.isLocal cfg = true) :
    (f.cancelled cfg failed).Truthful := by
  rcases cancelled_cases cfg failed f with ⟨_, hsame⟩ | ⟨_, _, hlocal⟩ | ⟨hcancels, hlocal, hlive⟩
  · rwa [hsame]
  · rw [hlocal]
    exact iff_of_false (by simp) (by simp [HasArmed])
  · rw [hlive]
    refine iff_of_false (by simp) fun harmed => ?_
    rw [hc harmed hcancels] at hlocal
    cases hlocal

lemma Truthful.allCancelled (ht : f.Truthful) {failed : Bool}
    (hc : f.HasArmed → f.entry.isCancelledBy cfg failed = true) :
    (f.allCancelled cfg failed).Truthful := by
  have hnone : ¬ (f.allCancelled cfg failed).HasArmed := by simp [HasArmed, Family.allCancelled]
  refine iff_of_false ?_ hnone
  show (f.cancelled cfg failed).entry.bracketState ≠ .armed
  rcases cancelled_cases cfg failed f with ⟨hcancels, hsame⟩ | ⟨_, _, h⟩ | ⟨_, _, h⟩
  · rw [hsame]
    intro hstate
    rw [hc (ht.mp hstate)] at hcancels
    cases hcancels
  · simp [h]
  · simp [h]

/-- The entry is cancelled for its age. -/
lemma aged_cases (cfg : Config) (now : Time) (failed : Bool) (f : Family) :
    f.entry.isAgedOut cfg now failed = false ∧ f.aged cfg now failed = f ∨
      f.entry.isAgedOut cfg now failed = true ∧ f.entry.isCancelledBy cfg failed = true ∧
        f.aged cfg now failed = f.cancelled cfg failed := by
  rw [aged, Order.isAgedOut]
  by_cases hage : minutes cfg.orderExpiryMinutes < now - f.entry.timestamp
  · rw [if_pos hage]
    cases hcancels : f.entry.isCancelledBy cfg failed with
    | true => exact Or.inr ⟨by simp [hage], rfl, rfl⟩
    | false =>
      rcases cancelled_cases cfg failed f with ⟨_, hsame⟩ | ⟨h, _⟩ | ⟨h, _⟩
      · exact Or.inl ⟨by simp, hsame⟩
      · rw [hcancels] at h
        cases h
      · rw [hcancels] at h
        cases h
  · rw [if_neg hage]
    exact Or.inl ⟨by simp [hage], rfl⟩

lemma lapsed_armed (o : Order) (now : Time) :
    (o.lapsed now).status = .armed ↔ o.status = .armed ∧ o.isPastExpiry now = false := by
  rw [Order.lapsed]
  split_ifs with h
  · simp [h]
  · constructor
    · intro harmed
      exact ⟨harmed, by simpa [harmed] using h⟩
    · exact fun hfacts => hfacts.1

/-- The armed children after the expiry of stale orders. -/
lemma Paired.expired_armed (h : f.Paired) (failed : Bool) :
    (f.expired cfg now failed).HasArmed ↔
      (f.aged cfg now failed).HasArmed ∧ f.takeProfit.isPastExpiry now = false := by
  have hexpiry : ∀ f' : Family, f'.takeProfit.gttExpiryAt = f.takeProfit.gttExpiryAt →
      f'.stopLoss.gttExpiryAt = f.takeProfit.gttExpiryAt →
      (((f'.takeProfit.lapsed now).status = .armed ∨ (f'.stopLoss.lapsed now).status = .armed) ↔
        f'.HasArmed ∧ f.takeProfit.isPastExpiry now = false) := by
    intro f' htp hsl
    rw [lapsed_armed, lapsed_armed, Order.isPastExpiry, htp, Order.isPastExpiry, hsl, ← or_and_right]
    rfl
  have hkeeps : ∀ o : Order, o.withdrawn.gttExpiryAt = o.gttExpiryAt := by
    intro o
    rw [Order.withdrawn]
    split_ifs <;> rfl
  apply hexpiry
  · rcases aged_cases cfg now failed f with ⟨_, hsame⟩ | ⟨_, _, haged⟩
    · rw [hsame]
    · rw [haged]
      rcases cancelled_cases cfg failed f with ⟨_, h'⟩ | ⟨_, _, h'⟩ | ⟨_, _, h'⟩ <;> simp [h', hkeeps]
  · rcases aged_cases cfg now failed f with ⟨_, hsame⟩ | ⟨_, _, haged⟩
    · rw [hsame, h.expiry]
    · rw [haged]
      rcases cancelled_cases cfg failed f with ⟨_, h'⟩ | ⟨_, _, h'⟩ | ⟨_, _, h'⟩ <;>
        simp [h', hkeeps, h.expiry]

lemma Truthful.expired (ht : f.Truthful) (h : f.Paired) {failed : Bool}
    (hc : f.HasArmed → if f.entry.isAgedOut cfg now failed then
      f.entry.isLocal cfg = true ∨ f.takeProfit.isPastExpiry now = true
      else f.takeProfit.isPastExpiry now = false) :
    (f.expired cfg now failed).Truthful := by
  rw [Truthful, h.expired_armed]
  show (f.aged cfg now failed).entry.bracketState = .armed ↔ _
  rcases aged_cases cfg now failed f with ⟨haged, hsame⟩ | ⟨haged, hcancels, hsame⟩
  · rw [hsame]
    refine Iff.trans ht ⟨fun harmed => ⟨harmed, ?_⟩, fun h' => h'.1⟩
    simpa [haged] using hc harmed
  · rw [hsame]
    rcases cancelled_cases cfg failed f with ⟨hnot, _⟩ | ⟨_, _, hlocal⟩ | ⟨_, hlocal, hlive⟩
    · rw [hcancels] at hnot
      cases hnot
    · rw [hlocal]
      exact iff_of_false (by simp) (by simp [HasArmed])
    · rw [hlive]
      refine iff_of_false (by simp) ?_
      rintro ⟨harmed, hpast⟩
      have hnot := hc harmed
      simp [haged, hlocal, hpast] at hnot

/-! What keeps the state of the entry known. -/

lemma Known.of_le (h : f.Known) (hstate : f'.entry.bracketState = f.entry.bracketState ∨
    f'.entry.bracketState = .cancelled) (harmed : f'.HasArmed → f.HasArmed) : f'.Known := by
  intro harmed'
  rcases hstate with hstate | hstate
  · rw [hstate]
    exact h (harmed harmed')
  · exact Or.inr hstate

lemma cancelled_le (cfg : Config) (failed : Bool) (f : Family) :
    ((f.cancelled cfg failed).entry.bracketState = f.entry.bracketState ∨
      (f.cancelled cfg failed).entry.bracketState = .cancelled) ∧
      ((f.cancelled cfg failed).HasArmed → f.HasArmed) := by
  rcases cancelled_cases cfg failed f with ⟨_, h⟩ | ⟨_, _, h⟩ | ⟨_, _, h⟩
  · simp [h]
  · simp [h, HasArmed]
  · simp [h, HasArmed]

lemma aged_le (cfg : Config) (now : Time) (failed : Bool) (f : Family) :
    ((f.aged cfg now failed).entry.bracketState = f.entry.bracketState ∨
      (f.aged cfg now failed).entry.bracketState = .cancelled) ∧
      ((f.aged cfg now failed).HasArmed → f.HasArmed) := by
  rcases aged_cases cfg now failed f with ⟨_, h⟩ | ⟨_, _, h⟩
  · simp [h]
  · rw [h]
    exact cancelled_le cfg failed f

lemma Known.expired (h : f.Known) (hpaired : f.Paired) (failed : Bool) :
    (f.expired cfg now failed).Known := by
  obtain ⟨hstate, harmed⟩ := aged_le cfg now failed f
  exact h.of_le hstate fun harmed' => harmed ((hpaired.expired_armed failed).mp harmed').1

/-- Every call keeps the state of an entry known. -/
lemma Known.after (h : f.Known) (hpaired : f.Paired) (hacc : f.entry.Accounted)
    (hkind : f.entry.orderKind = .entry) (e : OrderId) (g : ℕ) (call : Call) (trace : Trace) :
    (f.after cfg e g call trace).Known := by
  obtain ⟨op, env⟩ := call
  cases op with
  | placeOrder req => exact h
  | closePosition req => exact h
  | cancelOrder id =>
    simp only [Family.after]
    split_ifs
    · exact h.of_le (cancelled_le cfg _ f).1 (cancelled_le cfg _ f).2
    · exact h.of_le (Or.inl rfl) (by simp [HasArmed]; exact Or.inr)
    · exact h.of_le (Or.inl rfl) (by simp [HasArmed]; exact Or.inl)
    · exact h
  | cancelAllOpenOrders =>
    intro harmed
    simp [Family.after, Family.allCancelled, HasArmed] at harmed
  | cancelExpiredOrders => exact h.expired hpaired _
  | reconcileOrders books => exact h.reconciled hpaired hacc hkind _

end Family

lemma Family.created_hasArmed (spec : BracketSpec) (now : Time) (g : ℕ) (o : Order) :
    (Family.created spec now g o).HasArmed := by
  left
  rw [Family.created, takeProfitOrder, bracketChild_eq]

lemma Family.created_truthful (spec : BracketSpec) (now : Time) (g : ℕ) (o : Order) :
    (Family.created spec now g o).Truthful :=
  iff_of_true rfl (Family.created_hasArmed spec now g o)

/-! ### States -/

lemma Executor.FamilyAt.paired (h : s.FamilyAt e g f) : f.Paired where
  takeProfit := (h.whole _ _ h.family.get_takeProfit (by
    rw [h.family.takeProfit.orderKind]; rfl)).ready (h.related.accounted _ _ h.family.get_takeProfit)
  stopLoss := (h.whole _ _ h.family.get_stopLoss (by
    rw [h.family.stopLoss.orderKind]; rfl)).ready (h.related.accounted _ _ h.family.get_stopLoss)
  marketId := h.family.stopLoss.marketId.trans h.family.takeProfit.marketId.symm
  expiry := h.family.expiry

/-- Some child that `o` lists is armed. -/
def Executor.ListsArmed (s : Executor) (o : Order) : Prop :=
  ∃ c ∈ o.bracketOrderIds, ∃ x ∈ s.orders.get? c, x.status = .armed

instance (s : Executor) (o : Order) : Decidable (s.ListsArmed o) :=
  inferInstanceAs (Decidable (∃ c ∈ o.bracketOrderIds, ∃ x ∈ s.orders.get? c, x.status = .armed))

lemma Executor.FamilyAt.exists_listed (h : s.FamilyAt e g f) (P : Order → Prop) :
    (∃ c ∈ f.entry.bracketOrderIds, ∃ x ∈ s.orders.get? c, P x) ↔
      P f.takeProfit ∨ P f.stopLoss := by
  simp [h.family.ids, h.family.get_takeProfit, h.family.get_stopLoss]

lemma Executor.FamilyAt.listsArmed (h : s.FamilyAt e g f) : s.ListsArmed f.entry ↔ f.HasArmed :=
  h.exists_listed fun x => x.status = .armed

/-- The entries say `armed` when one of their children is. -/
def Executor.TellsTruth (s : Executor) : Prop :=
  ∀ e entry, s.orders.get? e = some entry → entry.orderKind = .entry →
    (entry.bracketState = .armed ↔ s.ListsArmed entry)

lemma Executor.FamilyAt.truthful (h : s.FamilyAt e g f) (hs : s.TellsTruth) : f.Truthful :=
  (hs e f.entry h.family.get h.family.kind).trans h.listsArmed

lemma Executor.Regular.tellsTruth (hs : s.Regular)
    (hfamilies : ∀ e g f, s.FamilyAt e g f → f.Truthful) : s.TellsTruth := by
  intro e entry hget hkind
  rcases hs.related.lone_or_family hs.whole hget hkind with hlone | ⟨g, f, hfamily, rfl⟩
  · exact iff_of_false (hs.lones e entry hlone) (by simp [Executor.ListsArmed, hlone.noBracket])
  · exact (hfamilies e g f hfamily).trans hfamily.listsArmed.symm

/-- Some child that `o` lists is armed and past its expiry. -/
def Executor.ListsLapsed (s : Executor) (now : Time) (o : Order) : Prop :=
  ∃ c ∈ o.bracketOrderIds, ∃ x ∈ s.orders.get? c, x.status = .armed ∧ x.isPastExpiry now = true

lemma Executor.FamilyAt.listsLapsed (h : s.FamilyAt e g f) :
    s.ListsLapsed now f.entry ↔ f.HasArmed ∧ f.takeProfit.isPastExpiry now = true := by
  have hexpiry : f.stopLoss.isPastExpiry now = f.takeProfit.isPastExpiry now := by
    rw [Order.isPastExpiry, h.family.expiry]
    rfl
  rw [Executor.ListsLapsed, h.exists_listed fun x => x.status = .armed ∧ x.isPastExpiry now = true,
    hexpiry, ← or_and_right]
  rfl

/-- The call does not part the entry `e`, which has an armed child, from its children. -/
def SparesArmed (cfg : Config) (w : ExecWorld) (i : Invocation) (e : OrderId) (entry : Order) :
    Prop :=
  let failed := cancelFailed e (i.outcome cfg w.state).trace
  match i.call.op with
  | .cancelOrder id =>
    (id = e → entry.isCancelledBy cfg failed = true → entry.isLocal cfg = true) ∧
      (id ∈ entry.bracketOrderIds →
        ∃ c ∈ entry.bracketOrderIds, c ≠ id ∧ ∃ x ∈ w.state.orders.get? c, x.status = .armed)
  | .cancelAllOpenOrders => entry.isCancelledBy cfg failed = true
  | .cancelExpiredOrders =>
    if entry.isAgedOut cfg i.call.env.now failed then
      entry.isLocal cfg = true ∨ w.state.ListsLapsed i.call.env.now entry
    else ¬ w.state.ListsLapsed i.call.env.now entry
  | .placeOrder _ | .closePosition _ | .reconcileOrders _ => True

/-- The call keeps the entries truthful: it parts none from an armed child, and arms no bracket
whose children are gone. -/
def KeepsTruth (cfg : Config) (w : ExecWorld) (i : Invocation) : Prop :=
  ∀ e entry, w.state.orders.get? e = some entry → entry.orderKind = .entry →
    entry.bracketOrderIds ≠ [] →
    (w.state.ListsArmed entry → SparesArmed cfg w i e entry) ∧
      (¬ w.state.ListsArmed entry → ∀ books, i.call.op = .reconcileOrders books →
        ¬ entry.Rearms cfg books (reportedRows e (i.outcome cfg w.state).trace))

lemma Family.Truthful.after (i : Invocation) (h : w.state.FamilyAt e g f) (ht : f.Truthful)
    (hspares : f.HasArmed → SparesArmed cfg w i e f.entry)
    (hquiet : ¬ f.HasArmed → ∀ books, i.call.op = .reconcileOrders books →
      ¬ f.entry.Rearms cfg books (reportedRows e (i.outcome cfg w.state).trace)) :
    (f.after cfg e g i.call (i.outcome cfg w.state).trace).Truthful := by
  have hacc := h.related.accounted e f.entry h.family.get
  obtain ⟨⟨op, env⟩, ω⟩ := i
  cases op with
  | placeOrder req => exact ht
  | closePosition req => exact ht
  | cancelOrder id =>
    -- of two children one is cancelled: the other one is armed if any was
    have hother : id ∈ f.entry.bracketOrderIds → f.HasArmed →
        id = g + 1 ∧ f.stopLoss.status = .armed ∨ id = g + 2 ∧ f.takeProfit.status = .armed := by
      intro hid harmed
      obtain ⟨c, hc, hne, x, hx, hx'⟩ := (hspares harmed).2 hid
      rw [h.family.ids] at hid hc
      simp only [List.mem_cons, List.not_mem_nil, or_false] at hid hc
      rcases hid with rfl | rfl <;> rcases hc with rfl | rfl
      · exact absurd rfl hne
      · exact Or.inl ⟨rfl, Option.some.inj (hx.symm.trans h.family.get_stopLoss) ▸ hx'⟩
      · exact Or.inr ⟨rfl, Option.some.inj (hx.symm.trans h.family.get_takeProfit) ▸ hx'⟩
      · exact absurd rfl hne
    simp only [Family.after]
    split_ifs with he htp hsl
    · exact ht.cancelled fun harmed => (hspares harmed).1 he
    · refine Iff.trans ht ⟨fun harmed => Or.inr ?_, fun harmed => Or.inr ?_⟩
      · have hcases := hother (by simp [h.family.ids, htp]) harmed
        simpa [htp] using hcases
      · simpa [Family.HasArmed] using harmed
    · refine Iff.trans ht ⟨fun harmed => Or.inl ?_, fun harmed => Or.inl ?_⟩
      · have hcases := hother (by simp [h.family.ids, hsl]) harmed
        simpa [hsl] using hcases
      · simpa [Family.HasArmed] using harmed
    · exact ht
  | cancelAllOpenOrders => exact ht.allCancelled hspares
  | cancelExpiredOrders =>
    apply ht.expired h.paired
    intro harmed
    have hkeeps := hspares harmed
    simp only [SparesArmed, h.listsLapsed, harmed, true_and, Bool.not_eq_true] at hkeeps
    exact hkeeps
  | reconcileOrders books =>
    apply ht.reconciled h.paired hacc h.family.kind
    intro hrearms
    by_contra hnone
    exact hquiet hnone books rfl hrearms

/-- What a call that keeps the truth leaves. -/
lemma Executor.TellsTruth.perform (hs : w.state.Regular) (htruth : w.state.TellsTruth)
    (i : Invocation) (hkeeps : KeepsTruth cfg w i) : (i.perform cfg w).state.TellsTruth := by
  apply (hs.perform cfg i).tellsTruth
  intro e g f' h'
  cases i.perform_origin cfg hs.related hs.whole hs.ordered h' with
  | armed o spec books _ _ _ _ hsame =>
    rw [hsame]
    exact Family.created_truthful ..
  | placed req spec o _ _ _ _ hsame =>
    rw [hsame]
    exact Family.created_truthful ..
  | kept f h hsame =>
    obtain ⟨hspares, hquiet⟩ :=
      hkeeps e f.entry h.family.get h.family.kind h.family.ids_ne_nil
    rw [hsame]
    rw [h.listsArmed] at hspares hquiet
    exact (h.truthful htruth).after i h hspares hquiet

/-- In every state the bracket state of an entry with an armed child is known. -/
lemma runAll_known (cfg : Config) (run : List Invocation) :
    ∀ e g f, (runAll cfg run).state.FamilyAt e g f → f.Known := by
  induction run using List.reverseRecOn with
  | nil =>
    rintro e g f ⟨_, _, h⟩
    cases h.get
  | append_singleton run i ih =>
    intro e g f' h'
    rw [runAll_concat] at h'
    have hs := runAll_regular cfg run
    cases i.perform_origin cfg hs.related hs.whole hs.ordered h' with
    | armed o spec books _ _ _ _ hsame =>
      rw [hsame]
      exact (Family.created_truthful ..).known
    | placed req spec o _ _ _ _ hsame =>
      rw [hsame]
      exact (Family.created_truthful ..).known
    | kept f h hsame =>
      rw [hsame]
      exact (ih e g f h).after h.paired (h.related.accounted e f.entry h.family.get)
        h.family.kind e g i.call _

lemma runAll_tellsTruth (cfg : Config) (run : List Invocation)
    (hsteps : InvocationsMeet cfg (KeepsTruth cfg) ⟨.init, []⟩ run) :
    (runAll cfg run).state.TellsTruth := by
  have hend := hsteps.induction (I := fun w => w.state.Regular ∧ w.state.TellsTruth)
    ⟨Executor.regular_init, by rintro e entry ⟨⟩⟩
    fun w i hw hkeeps => ⟨hw.1.perform cfg i, hw.2.perform hw.1 i hkeeps⟩
  exact hend.2

/-- An entry after the two ways in which an armed child expires. -/
lemma runAll_expired_child (cfg : Config) (run : List Invocation) {e c : OrderId}
    {entry child : Order} {data : MarketData} (ω ω' : Oracle Request Reply)
    (hget : (runAll cfg run).state.orders.get? e = some entry) (hc : c ∈ entry.bracketOrderIds)
    (hchild : (runAll cfg run).state.orders.get? c = some child) (harmed : child.status = .armed)
    (hpast : child.isPastExpiry now = true) (hdata : books child.marketId = some data) :
    ∃ x y,
      ((cancelExpiredOrders cfg now).run ω (runAll cfg run).state).state.orders.get? e = some x ∧
      ((reconcileOrders cfg books now).run ω' (runAll cfg run).state).state.orders.get? e = some y ∧
      (x.bracketState = .armed ∨ x.bracketState = .cancelled) ∧ y.bracketState = .expired := by
  have hs := runAll_regular cfg run
  obtain ⟨g, tp, sl, hbracket⟩ := hs.related.listed e entry hget (List.ne_nil_of_mem hc)
  set f : Family := ⟨entry, tp, sl⟩
  have h : (runAll cfg run).state.FamilyAt e g f := ⟨hs.related, hs.whole, hbracket⟩
  -- the two children have one expiry and one market
  have hfacts : f.HasArmed ∧ f.takeProfit.isPastExpiry now = true ∧
      books f.takeProfit.marketId = some data := by
    rw [hbracket.ids] at hc
    simp only [List.mem_cons, List.not_mem_nil, or_false] at hc
    rcases hc with rfl | rfl
    · obtain rfl := Option.some.inj (hchild.symm.trans hbracket.get_takeProfit)
      exact ⟨Or.inl harmed, hpast, hdata⟩
    · obtain rfl := Option.some.inj (hchild.symm.trans hbracket.get_stopLoss)
      refine ⟨Or.inr harmed, ?_, ?_⟩
      · rw [Order.isPastExpiry, ← h.paired.expiry]
        exact hpast
      · rw [← h.paired.marketId]
        exact hdata
  obtain ⟨harmed', hpast', hdata'⟩ := hfacts
  have hexpired := cancelExpiredOrders_family cfg now h hs.ordered ω
  have hpass := reconcileOrders_family cfg books now h hs.ordered ω'
  refine ⟨_, _, hexpired.family.get, hpass.family.get, ?_, ?_⟩
  · have hknown := runAll_known cfg run e g f h harmed'
    rcases (Family.aged_le cfg now _ f).1 with hstate | hstate
    · rw [← hstate] at hknown
      exact hknown
    · exact Or.inr hstate
  · exact h.paired.reconciled_of_pastExpiry (h.related.accounted e entry hget) hbracket.kind harmed'
      hdata' hpast' _

/-- As long as every call keeps the truth, every entry says `armed` when one of its children is. An
armed child that expires leaves its entry in one state when a pass finds it, and in another one when
`cancel_expired_orders` does. -/
theorem runAll_bracketStates (cfg : Config) (run : List Invocation) :
    (InvocationsMeet cfg (KeepsTruth cfg) ⟨.init, []⟩ run → (runAll cfg run).state.TellsTruth) ∧
    ∀ (e c : OrderId) (entry child : Order) (now : Time) (books : MarketBooks) (data : MarketData)
      (ω ω' : Oracle Request Reply),
      (runAll cfg run).state.orders.get? e = some entry → c ∈ entry.bracketOrderIds →
      (runAll cfg run).state.orders.get? c = some child → child.status = .armed →
      child.isPastExpiry now = true → books child.marketId = some data →
      ∃ x y,
        ((cancelExpiredOrders cfg now).run ω (runAll cfg run).state).state.orders.get? e = some x ∧
        ((reconcileOrders cfg books now).run ω' (runAll cfg run).state).state.orders.get? e =
          some y ∧
        x.bracketState ≠ y.bracketState := by
  refine ⟨runAll_tellsTruth cfg run, ?_⟩
  intro e c entry child now books data ω ω' hget hc hchild harmed hpast hdata
  obtain ⟨x, y, hx, hy, hstate, hexpired⟩ :=
    runAll_expired_child cfg run ω ω' hget hc hchild harmed hpast hdata
  refine ⟨x, y, hx, hy, ?_⟩
  rw [hexpired]
  rcases hstate with hstate | hstate <;> simp [hstate]

/-- The theorem after a placement on paper, and after the expiry of its bracket. -/
theorem runAll_bracketStates_heldPosition :
    (runAll {} heldPosition).state.TellsTruth ∧
    ∃ x y,
      ((cancelExpiredOrders {} (minutes 1441)).run unreachable
        (runAll {} heldPosition).state).state.orders.get? 0 = some x ∧
      ((reconcileOrders {} (fun _ => some {}) (minutes 1441)).run unreachable
        (runAll {} heldPosition).state).state.orders.get? 0 = some y ∧
      x.bracketState ≠ y.bracketState := by
  obtain ⟨htruth, hexpiries⟩ := runAll_bracketStates {} heldPosition
  have hentry : ((runAll {} heldPosition).state.orders.get? 0).any (fun o =>
      2 ∈ o.bracketOrderIds) = true := by decide +kernel
  have hchild : ((runAll {} heldPosition).state.orders.get? 2).any (fun o =>
      o.status = .armed ∧ o.isPastExpiry (minutes 1441) = true) = true := by decide +kernel
  obtain ⟨entry, hget, hmem⟩ := (Option.any_eq_true _ _).mp hentry
  obtain ⟨child, hget', hfacts⟩ := (Option.any_eq_true _ _).mp hchild
  obtain ⟨harmed, hpast⟩ := of_decide_eq_true hfacts
  constructor
  · apply htruth
    refine ⟨?_, trivial⟩
    rintro e entry ⟨⟩
  · exact hexpiries 0 2 entry child (minutes 1441) (fun _ => some {}) {} unreachable unreachable
      hget (of_decide_eq_true hmem) hget' harmed hpast rfl

/-- A live entry of 10 USDC, of which 4 are filled, and the remainder is cancelled. -/
def cancelledRemainder : List Invocation :=
  [⟨⟨.placeOrder { threeChunks with sizeUsdc := 10 }, { now := 0 }⟩,
      scripted (fun _ => acknowledged "x") (fun _ => .error .network) fun _ => .failed⟩,
    ⟨⟨.reconcileOrders fun _ => none, { now := 1 }⟩,
      scripted (fun _ => .error .network) (fun _ => .error .network) fun _ =>
        .response (.dict [("status", .text "live"), ("size_matched", .num 4),
          ("avg_price", .num (1 / 2))])⟩,
    ⟨⟨.cancelOrder 0, { now := 2 }⟩,
      scripted (fun _ => .error .network) (fun _ => .ok ()) fun _ => .failed⟩]

/-- The entry says `cancelled`, and its children are armed. -/
theorem cancelledRemainder_untruthful :
    ¬ (runAll liveConfig cancelledRemainder).state.TellsTruth := by
  intro htruth
  have hentry : ((runAll liveConfig cancelledRemainder).state.orders.get? 0).any (fun o =>
      o.orderKind = .entry ∧ o.bracketState = .cancelled ∧
        (runAll liveConfig cancelledRemainder).state.ListsArmed o) = true := by decide +kernel
  obtain ⟨entry, hget, hfacts⟩ := (Option.any_eq_true _ _).mp hentry
  obtain ⟨hkind, hstate, harmed⟩ := of_decide_eq_true hfacts
  have hsays := (htruth 0 entry hget hkind).mpr harmed
  rw [hstate] at hsays
  cases hsays

end PolyCortex
