import PolyCortex.Execution.LiveStatus

/-!
# The average price of a live entry

Rows are cumulative, and a pass prices everything that is new at the average of the last row. When
that is what the new part has cost, the average of the entry follows the reported value
(`Order.Tracks.afterRows`); every pass adds at most the rounding of the sizes to the error.
-/

namespace PolyCortex

open Coroutine

variable {cfg : Config} {o : Order} {rows : List StatusRow} {M T N : ℚ} {k : ℕ}

/-! ### What the rows report -/

/-- The cost of what the rows report as filled. -/
def totalValue (rows : List StatusRow) : ℚ :=
  (rows.map fun row => row.filledSizeUsdc * row.averageFillPrice.getD 0).sum

/-- The average price of the last row that has one. -/
def reportedPrice (rows : List StatusRow) : Option ℚ :=
  rows.reverse.findSome? (·.averageFillPrice)

/-- Rows after earlier rows: more is filled, but not more than the size, at prices within `M`. -/
structure RowsFollow (size M : ℚ) (prev rows : List StatusRow) : Prop where
  grows : totalFilled prev ≤ totalFilled rows
  within_size : totalFilled rows ≤ size
  price_le : ∀ row ∈ rows, ∀ a, row.averageFillPrice = some a → |a| ≤ M

/-- What is new in the rows has cost the average price of the last row. -/
def PricedByLast (prev rows : List StatusRow) : Prop :=
  ∃ p, reportedPrice rows = some p ∧
    p * (totalFilled rows - totalFilled prev) = totalValue rows - totalValue prev

lemma lastPrice_eq {p : ℚ} (h : reportedPrice rows = some p) (o : Order) : lastPrice o rows = p := by
  rw [reportedPrice] at h
  rw [lastPrice, h, Option.getD_some]

lemma RowsFollow.abs_reportedPrice_le {size p : ℚ} {prev : List StatusRow}
    (h : RowsFollow size M prev rows) (hp : reportedPrice rows = some p) : |p| ≤ M := by
  obtain ⟨row, hrow, hprice⟩ := List.exists_of_findSome?_eq_some hp
  exact h.price_le row (List.mem_reverse.mp hrow) p hprice

/-! ### One pass -/

/-- After `k` passes that report `T` filled for `N`: the filled size is `T` and the average price
gives the value `N`, up to the rounding of the sizes. -/
structure Order.Tracks (M : ℚ) (k : ℕ) (T N : ℚ) (o : Order) : Prop where
  near : |o.filledSizeUsdc - T| ≤ dust
  value : |o.averageFillPrice.getD 0 * o.filledSizeUsdc - N| ≤ 2 * k * M * dust
  average : (T ≤ 0 ∧ o.filledSizeUsdc = 0) ∨ ∃ a, o.averageFillPrice = some a ∧ |a| ≤ M
  open_total : o.status.isFinal = false →
    o.sizeUsdc ≤ o.filledSizeUsdc + o.remainingSizeUsdc + dust / 2

lemma abs_mul_le_mul {a b d : ℚ} (ha : |a| ≤ M) (hb : |b| ≤ d) : |a * b| ≤ M * d := by
  rw [abs_mul]
  exact mul_le_mul ha hb (abs_nonneg b) ((abs_nonneg a).trans ha)

/-- A weighted average stays within the bound of its parts. -/
lemma abs_average_le {a p f x : ℚ} (ha : |a| ≤ M) (hp : |p| ≤ M) (hf : 0 ≤ f) (hx : 0 < x) :
    |(a * f + p * x) / (f + x)| ≤ M := by
  have hsum : 0 < f + x := by linarith
  rw [abs_div, abs_of_pos hsum, div_le_iff₀ hsum]
  have haf : |a * f| ≤ M * f := abs_mul_le_mul ha (abs_of_nonneg hf).le
  have hpx : |p * x| ≤ M * x := abs_mul_le_mul hp (abs_of_pos hx).le
  have htri := abs_add_le (a * f) (p * x)
  linarith

/-- The new average price, weighted with everything filled, is the old value plus the new cost. -/
lemma Order.averageWith_mul {x p : ℚ} (hacc : o.Accounted) (hp : |p| ≤ M) (hx : 0 < x)
    (haverage : o.filledSizeUsdc = 0 ∨ ∃ a, o.averageFillPrice = some a ∧ |a| ≤ M) :
    |o.averageWith x p| ≤ M ∧ o.averageWith x p * (o.filledSizeUsdc + x) =
      o.averageFillPrice.getD 0 * o.filledSizeUsdc + p * x := by
  rcases hacc.filled_nonneg.eq_or_lt with hzero | hpos
  · have hprice : o.averageWith x p = p := by
      rw [averageWith]
      cases o.averageFillPrice with
      | none => rfl
      | some a => simp [← hzero]
    rw [hprice, ← hzero]
    exact ⟨hp, by ring⟩
  · obtain ⟨a, ha, hle⟩ := haverage.resolve_left hpos.ne'
    have hprice : o.averageWith x p =
        (a * o.filledSizeUsdc + p * x) / (o.filledSizeUsdc + x) := by
      rw [averageWith, ha]
      exact if_pos hpos
    rw [hprice, ha, Option.getD_some]
    refine ⟨abs_average_le hle hp hpos.le hx, ?_⟩
    rw [div_mul_cancel₀]
    linarith

lemma dust_lt_half : dust < 1 / 2 := by norm_num [dust]

/-- Tracking looks at the fills only, and at whether the order is open. -/
lemma Order.Tracks.congr {o' : Order} (h : o.Tracks M k T N) (hfill : Order.SameFill o o')
    (hstatus : o'.status = o.status ∨ o'.status.isFinal = true) : o'.Tracks M k T N where
  near := by rw [hfill.filledSizeUsdc]; exact h.near
  value := by rw [hfill.filledSizeUsdc, hfill.averageFillPrice]; exact h.value
  average := by rw [hfill.filledSizeUsdc, hfill.averageFillPrice]; exact h.average
  open_total := by
    rw [hfill.sizeUsdc, hfill.filledSizeUsdc, hfill.remainingSizeUsdc]
    rcases hstatus with hst | hst
    · rw [hst]
      exact h.open_total
    · rw [hst]
      exact fun h => by cases h

/-- What a pass asks of the rows, and what it knows of the order, for the fill to be tracked. -/
structure Order.Trackable (M T N : ℚ) (rows : List StatusRow) (p : ℚ) (o : Order) : Prop where
  accounted : o.Accounted
  half_le : 1 / 2 ≤ o.sizeUsdc
  isOpen : o.status.isFinal = false
  price_le : |p| ≤ M
  grows : T ≤ totalFilled rows
  within_size : totalFilled rows ≤ o.sizeUsdc
  cost : p * (totalFilled rows - T) = totalValue rows - N

/-- When nothing is accepted, what is new in the rows is within the rounding. -/
lemma Order.Tracks.of_quiet {p : ℚ} (h : o.Tracks M k T N) (hrows : o.Trackable M T N rows p)
    (hquiet : deltaFilled o rows ≤ 0 ∨ o.acceptedFill (deltaFilled o rows) ≤ 0) :
    o.Tracks M (k + 1) (totalFilled rows) (totalValue rows) := by
  have hdust := dust_pos
  have hdust_half := dust_lt_half
  have htotal := h.open_total hrows.isOpen
  have hhalf := hrows.half_le
  have hgrows := hrows.grows
  have hsize := hrows.within_size
  obtain ⟨hlow, hhigh⟩ := abs_le.mp h.near
  -- either nothing is new, or nothing remains to be filled
  have hnew : totalFilled rows ≤ o.filledSizeUsdc ∨ o.remainingSizeUsdc ≤ 0 := by
    by_cases hdelta : totalFilled rows ≤ o.filledSizeUsdc
    · exact Or.inl hdelta
    · refine Or.inr ?_
      rw [not_le] at hdelta
      have hpos : deltaFilled o rows = totalFilled rows - o.filledSizeUsdc :=
        max_eq_left (by linarith)
      rcases hquiet with hzero | hzero
      · linarith
      · rcases min_le_iff.mp hzero with hle | hle
        · linarith
        · exact hle
  have hclose : totalFilled rows ≤ o.filledSizeUsdc + dust / 2 := by
    rcases hnew with hle | hle <;> linarith
  have hstep : |totalFilled rows - T| ≤ 3 / 2 * dust := by
    rw [abs_of_nonneg (by linarith)]
    linarith
  refine ⟨?_, ?_, ?_, h.open_total⟩
  · rw [abs_le]
    constructor <;> linarith
  · have hprice := abs_mul_le_mul hrows.price_le hstep
    rw [hrows.cost] at hprice
    have htri := abs_sub_le (o.averageFillPrice.getD 0 * o.filledSizeUsdc) N (totalValue rows)
    rw [abs_sub_comm N] at htri
    have hM : 0 ≤ M * dust := mul_nonneg ((abs_nonneg p).trans hrows.price_le) hdust.le
    have hvalue := h.value
    push_cast
    linarith
  · rcases h.average with ⟨hT, hF⟩ | hsome
    · refine Or.inl ⟨?_, hF⟩
      rcases hnew with hle | hle <;> linarith
    · exact Or.inr hsome

/-- An accepted fill brings the order up to the rows. -/
lemma Order.Tracks.of_fill {p : ℚ} (h : o.Tracks M k T N) (hrows : o.Trackable M T N rows p)
    (hpos : 0 < o.acceptedFill (deltaFilled o rows)) (now : Time) :
    (o.applyFill (deltaFilled o rows) p now).Tracks M (k + 1) (totalFilled rows)
      (totalValue rows) := by
  have hdust := dust_pos
  have htotal := h.open_total hrows.isOpen
  have hsize := hrows.within_size
  set x := o.acceptedFill (deltaFilled o rows) with hx
  have hdelta : deltaFilled o rows = totalFilled rows - o.filledSizeUsdc := by
    have hle : 0 < deltaFilled o rows := hpos.trans_le (min_le_left _ _)
    rw [deltaFilled] at hle ⊢
    exact max_eq_left (by
      by_contra hneg
      rw [max_eq_right (not_le.mp hneg).le] at hle
      exact lt_irrefl _ hle)
  -- the accepted fill reaches the reported size, but for the rounding of what remains
  have hreach : o.filledSizeUsdc + x ≤ totalFilled rows ∧
      totalFilled rows ≤ o.filledSizeUsdc + x + dust / 2 := by
    have hle : x ≤ totalFilled rows - o.filledSizeUsdc := hdelta ▸ min_le_left _ _
    refine ⟨by linarith, ?_⟩
    rcases min_choice (deltaFilled o rows) o.remainingSizeUsdc with hmin | hmin
    · have heq : x = totalFilled rows - o.filledSizeUsdc := hmin.trans hdelta
      linarith
    · have heq : x = o.remainingSizeUsdc := hmin
      linarith
  have hround : |round8 (o.filledSizeUsdc + x) - (o.filledSizeUsdc + x)| ≤ dust / 2 := by
    have hle := round8_le_add (o.filledSizeUsdc + x)
    have hge := le_round8_add (o.filledSizeUsdc + x)
    rw [abs_le]
    constructor <;> linarith
  obtain ⟨hround₁, hround₂⟩ := abs_le.mp hround
  obtain ⟨hlow, hhigh⟩ := abs_le.mp h.near
  have haverage : o.filledSizeUsdc = 0 ∨ ∃ a, o.averageFillPrice = some a ∧ |a| ≤ M :=
    h.average.imp And.right id
  obtain ⟨hle, hmul⟩ := Order.averageWith_mul hrows.accounted hrows.price_le hpos haverage
  rw [applyFill_of_pos hpos]
  refine ⟨?_, ?_, Or.inr ⟨_, rfl, hle⟩, ?_⟩
  · dsimp only
    rw [abs_le]
    constructor <;> linarith
  · have hstep : |x - (totalFilled rows - T)| ≤ 3 / 2 * dust := by
      rw [abs_le]
      constructor <;> linarith
    have hcost := hrows.cost
    have hsplit : o.averageWith x p * round8 (o.filledSizeUsdc + x) - totalValue rows =
        o.averageWith x p * (round8 (o.filledSizeUsdc + x) - (o.filledSizeUsdc + x)) +
          (o.averageFillPrice.getD 0 * o.filledSizeUsdc - N) +
          p * (x - (totalFilled rows - T)) := by
      linear_combination hmul + hcost
    have h₁ := abs_mul_le_mul hle hround
    have h₂ := abs_mul_le_mul hrows.price_le hstep
    have h₃ := h.value
    simp only [Option.getD_some]
    rw [hsplit]
    refine (abs_add_three _ _ _).trans ?_
    push_cast
    linarith
  · dsimp only
    split_ifs with hrest
    · exact fun h => by cases h
    · intro _
      have hmax := le_max_left (o.sizeUsdc - round8 (o.filledSizeUsdc + x)) 0
      have hrem := le_round8_add (max (o.sizeUsdc - round8 (o.filledSizeUsdc + x)) 0)
      rw [remainingAfter, ← hx]
      linarith

/-- One pass keeps track of what its rows report. -/
lemma Order.Tracks.afterRows {prev : List StatusRow}
    (h : o.Tracks M k (totalFilled prev) (totalValue prev)) (hacc : o.Accounted)
    (hkind : o.orderKind = .entry) (hopen : o.status.isFinal = false)
    (hfollow : RowsFollow o.sizeUsdc M prev rows) (hpriced : PricedByLast prev rows) (now : Time) :
    (o.afterRows rows now).Tracks M (k + 1) (totalFilled rows) (totalValue rows) := by
  obtain ⟨p, hp, hcost⟩ := hpriced
  have hrows : o.Trackable M (totalFilled prev) (totalValue prev) rows p :=
    ⟨hacc, hacc.entry_size hkind, hopen, hfollow.abs_reportedPrice_le hp, hfollow.grows,
      hfollow.within_size, hcost⟩
  have hfill : (o.liveFill rows now).Tracks M (k + 1) (totalFilled rows) (totalValue rows) := by
    rw [liveFill, lastPrice_eq hp]
    split_ifs with hdelta
    · by_cases hpos : 0 < o.acceptedFill (deltaFilled o rows)
      · exact h.of_fill hrows hpos now
      · rw [applyFill_of_nonpos (not_lt.mp hpos)]
        exact h.of_quiet hrows (Or.inr (not_lt.mp hpos))
    · exact h.of_quiet hrows (Or.inl (not_lt.mp hdelta))
  have hnonempty : rows ≠ [] := by
    rintro rfl
    cases hp
  rw [Order.afterRows, if_neg hnonempty]
  rcases liveStatus_cases rows (o.liveFill rows now) with hst | ⟨_, _, hst | hst⟩
  · rw [hst]
    exact hfill
  · rw [hst]
    exact hfill.congr (by constructor <;> rfl) (Or.inr rfl)
  · rw [hst]
    exact hfill.congr (by constructor <;> rfl) (Or.inr rfl)

lemma Order.afterRows_sizeUsdc (o : Order) (rows : List StatusRow) (now : Time) :
    (o.afterRows rows now).sizeUsdc = o.sizeUsdc := by
  have hfill : (o.liveFill rows now).sizeUsdc = o.sizeUsdc := by
    rw [liveFill]
    split_ifs
    · simp
    · rfl
  rw [Order.afterRows]
  split_ifs
  · rfl
  · rcases liveStatus_cases rows (o.liveFill rows now) with hst | ⟨_, _, hst | hst⟩
    · rw [hst, hfill]
    · rw [hst]
      exact hfill
    · rw [hst]
      exact hfill

/-! ### Sequences of passes -/

/-- A call of `reconcile_orders`, with the answers it gets. -/
structure ReconcilePass where
  books : MarketBooks
  now : Time
  answers : Oracle Request Reply

def ReconcilePass.outcome (cfg : Config) (pass : ReconcilePass) (s : Executor) :
    Outcome Executor Request Reply (List OrderLifecycleEvent) :=
  (reconcileOrders cfg pass.books pass.now).run pass.answers s

/-- The executor after a sequence of passes. -/
def afterPasses (cfg : Config) : Executor → List ReconcilePass → Executor
  | s, [] => s
  | s, pass :: passes => afterPasses cfg (pass.outcome cfg s).state passes

/-- The rows that each pass of a sequence reports for the entry `e`. -/
def passRows (cfg : Config) (e : OrderId) : Executor → List ReconcilePass → List (List StatusRow)
  | _, [] => []
  | s, pass :: passes =>
    reportedRows e (pass.outcome cfg s).trace :: passRows cfg e (pass.outcome cfg s).state passes

/-- Passes in which everything new has cost the last reported average. -/
def PassesPriced (size M : ℚ) (rowss : List (List StatusRow)) : Prop :=
  ([] :: rowss).IsChain fun prev rows => RowsFollow size M prev rows ∧ PricedByLast prev rows

/-- By induction on the passes: the entry tracks the rows of the last one. -/
lemma afterPasses_tracks {s : Executor} {e : OrderId} (hs : s.Linked)
    (hget : s.orders.get? e = some o) (hkind : o.orderKind = .entry) (hpaper : o.isPaper = false)
    {prev : List StatusRow} (h : o.Tracks M k (totalFilled prev) (totalValue prev))
    (passes : List ReconcilePass)
    (hchain : (prev :: passRows cfg e s passes).IsChain fun prev rows =>
      RowsFollow o.sizeUsdc M prev rows ∧ PricedByLast prev rows) :
    ∃ o', (afterPasses cfg s passes).orders.get? e = some o' ∧
      o'.Tracks M (k + passes.length)
        (totalFilled ((passRows cfg e s passes).getLastD prev))
        (totalValue ((passRows cfg e s passes).getLastD prev)) := by
  induction passes generalizing s o prev k with
  | nil => exact ⟨o, hget, h⟩
  | cons pass passes ih =>
    obtain ⟨⟨hfollow, hpriced⟩, hrest⟩ := List.isChain_cons_cons.mp hchain
    set rows := reportedRows e (pass.outcome cfg s).trace with hrows
    obtain ⟨hlinked, rows', htrace, _, hfinal, o', ho', hsame⟩ :=
      reconcileOrders_liveEntry (w := ⟨s, []⟩) cfg pass.books pass.now hs hget hkind hpaper
        pass.answers
    have hrows' : rows' = rows := by
      simpa [hrows, ReconcilePass.outcome] using htrace.symm
    rw [hrows'] at hfinal hsame
    have hopen : o.status.isFinal = false := by
      rw [Bool.eq_false_iff]
      intro hf
      obtain ⟨p, hp, _⟩ := hpriced
      rw [hfinal hf] at hp
      cases hp
    have hterms := (o.afterRows_terms rows pass.now).1.trans hsame.terms
    have hsize : o'.sizeUsdc = o.sizeUsdc :=
      hsame.fill.sizeUsdc.trans (o.afterRows_sizeUsdc rows pass.now)
    have htracks : o'.Tracks M (k + 1) (totalFilled rows) (totalValue rows) :=
      (h.afterRows (hs.accounted e o hget) hkind hopen hfollow hpriced pass.now).congr hsame.fill
        (Or.inl hsame.status)
    obtain ⟨o'', ho'', htracks'⟩ := ih hlinked ho' (hterms.orderKind.trans hkind)
      (hterms.isPaper.trans hpaper) htracks (by rw [hsize]; exact hrest)
    refine ⟨o'', ho'', ?_⟩
    rw [passRows, List.getLastD_cons, List.length_cons, Nat.add_comm passes.length, ← Nat.add_assoc]
    exact htracks'

/-- When every pass reports something new at the last reported price, the average price of the
entry is the reported average, up to the rounding of the sizes in each pass. -/
theorem afterPasses_averageFillPrice (cfg : Config) (hlive : cfg.isPaper = false)
    (run : List Invocation) (e : OrderId) (o : Order)
    (hget : (runAll cfg run).state.orders.get? e = some o) (hkind : o.orderKind = .entry)
    (hstatus : o.status = .placed) (M : ℚ) (passes : List ReconcilePass)
    (hpriced : PassesPriced o.sizeUsdc M (passRows cfg e (runAll cfg run).state passes)) :
    let last := (passRows cfg e (runAll cfg run).state passes).getLastD []
    0 < totalFilled last →
    ∃ o' a, (afterPasses cfg (runAll cfg run).state passes).orders.get? e = some o' ∧
      o'.averageFillPrice = some a ∧
      |a - totalValue last / totalFilled last| ≤
        (2 * passes.length + 1) * M * dust / totalFilled last := by
  intro last hfilled
  have hlinked := runAll_linked cfg run
  have hacc := hlinked.accounted e o hget
  obtain ⟨hzero, hremaining⟩ := hacc.untouched (Or.inl hstatus)
  have hdust := dust_pos
  have hstart : o.Tracks M 0 (totalFilled []) (totalValue []) := by
    refine ⟨?_, ?_, Or.inl ⟨le_rfl, hzero⟩, fun _ => ?_⟩
    · simpa [totalFilled, hzero] using hdust.le
    · simp [totalValue, hzero]
    · rw [hzero, hremaining]
      linarith
  obtain ⟨o', ho', htracks⟩ := afterPasses_tracks hlinked hget hkind
    ((runAll_paperIs cfg run e o hget).trans hlive) hstart passes hpriced
  rw [Nat.zero_add] at htracks
  obtain ⟨a, ha, hle⟩ := htracks.average.resolve_left fun h => absurd hfilled (not_lt.mpr h.1)
  refine ⟨o', a, ho', ha, ?_⟩
  have hvalue := htracks.value
  rw [ha, Option.getD_some] at hvalue
  have hnear : |a * (totalFilled last - o'.filledSizeUsdc)| ≤ M * dust :=
    abs_mul_le_mul hle (by rw [abs_sub_comm]; exact htracks.near)
  have hsplit : a - totalValue last / totalFilled last =
      (a * (totalFilled last - o'.filledSizeUsdc) + (a * o'.filledSizeUsdc - totalValue last)) /
        totalFilled last := by
    rw [← add_sub_assoc, ← mul_add, sub_add_cancel, sub_div, mul_div_cancel_right₀ _ hfilled.ne']
  rw [hsplit, abs_div, abs_of_pos hfilled, div_le_div_iff_of_pos_right hfilled]
  have htri := abs_add_le (a * (totalFilled last - o'.filledSizeUsdc))
    (a * o'.filledSizeUsdc - totalValue last)
  linarith

/-- A pass over the three chunks of `threeChunkEntry`, each reported live with a filled size and an
average price. -/
def fillPass (fills : List (ℚ × ℚ)) : ReconcilePass where
  books := fun _ => none
  now := 1
  answers := scripted (fun _ => .error .network) (fun _ => .error .network) fun n =>
    let fill := fills.getD n (0, 0)
    .response (.dict [("status", .text "live"), ("size_matched", .num fill.1),
      ("avg_price", .num fill.2)])

/-- The theorem at two passes: first one chunk is half filled, then another at another price. -/
theorem afterPasses_averageFillPrice_twoChunks :
    ∃ o' a, (afterPasses liveConfig (runAll liveConfig threeChunkEntry).state
        [fillPass [(10, 2 / 5), (0, 2 / 5), (0, 2 / 5)],
          fillPass [(10, 2 / 5), (10, 3 / 5), (0, 3 / 5)]]).orders.get? 0 = some o' ∧
      o'.averageFillPrice = some a ∧ |a - 1 / 2| ≤ dust := by
  have hsome : ((runAll liveConfig threeChunkEntry).state.orders.get? 0).any (fun o =>
      o.orderKind = .entry ∧ o.status = .placed ∧ o.sizeUsdc = 60) = true := by decide +kernel
  obtain ⟨o, hget, hfacts⟩ := (Option.any_eq_true _ _).mp hsome
  obtain ⟨hkind, hstatus, hsize⟩ := of_decide_eq_true hfacts
  have hrows : passRows liveConfig 0 (runAll liveConfig threeChunkEntry).state
      [fillPass [(10, 2 / 5), (0, 2 / 5), (0, 2 / 5)],
        fillPass [(10, 2 / 5), (10, 3 / 5), (0, 3 / 5)]] =
      [[⟨"live", 10, some (2 / 5)⟩, ⟨"live", 0, some (2 / 5)⟩, ⟨"live", 0, some (2 / 5)⟩],
        [⟨"live", 10, some (2 / 5)⟩, ⟨"live", 10, some (3 / 5)⟩, ⟨"live", 0, some (3 / 5)⟩]] := by
    decide +kernel
  have h := afterPasses_averageFillPrice liveConfig rfl threeChunkEntry 0 o hget hkind hstatus 1
    [fillPass [(10, 2 / 5), (0, 2 / 5), (0, 2 / 5)],
      fillPass [(10, 2 / 5), (10, 3 / 5), (0, 3 / 5)]]
  rw [hrows, hsize] at h
  obtain ⟨o', a, ho', ha, hle⟩ := h
    (by
      refine .cons_cons ⟨⟨?_, ?_, ?_⟩, 2 / 5, rfl, ?_⟩
        (.cons_cons ⟨⟨?_, ?_, ?_⟩, 3 / 5, rfl, ?_⟩ (.singleton _))
      all_goals norm_num [totalFilled, totalValue])
    (by norm_num [totalFilled])
  refine ⟨o', a, ho', ha, ?_⟩
  norm_num [totalFilled, totalValue, dust] at hle ⊢
  linarith

/-- Three chunks filled at different prices in one pass: the entry gets the price of the last. -/
theorem afterPasses_averageFillPrice_lastChunk :
    let passes := [fillPass [(10, 2 / 5), (10, 1 / 2), (10, 3 / 5)]]
    let last := (passRows liveConfig 0 (runAll liveConfig threeChunkEntry).state passes).getLastD []
    totalValue last / totalFilled last = 1 / 2 ∧
    ∃ o', (afterPasses liveConfig (runAll liveConfig threeChunkEntry).state passes).orders.get? 0 =
      some o' ∧ o'.averageFillPrice = some (3 / 5) := by
  refine ⟨by decide +kernel, ?_⟩
  have hsome : ((afterPasses liveConfig (runAll liveConfig threeChunkEntry).state
      [fillPass [(10, 2 / 5), (10, 1 / 2), (10, 3 / 5)]]).orders.get? 0).any
      (fun o => o.averageFillPrice = some (3 / 5)) = true := by decide +kernel
  obtain ⟨o, hget, hprice⟩ := (Option.any_eq_true _ _).mp hsome
  exact ⟨o, hget, of_decide_eq_true hprice⟩

end PolyCortex
