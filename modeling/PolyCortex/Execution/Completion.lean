import PolyCortex.Execution.Reentry

/-!
# Paper entries complete

With partial fills a paper entry is filled by a fixed part of its size in every pass that reaches its
limit. Both sizes are rounded, but by far less than the part, so the remaining size falls with every such
pass (`Order.Filling.paperFill`), and after one pass more than the parts that make up the size the entry
is filled (`runAll_paperEntry_completes`). Nothing else fills the entry or takes a fill back
(`Command.keptOrCancelled`).
-/

namespace PolyCortex

open Coroutine Relation Rounding

variable {cfg : Config} {s s' : Executor} {e id : OrderId} {o o' : Order} {k : ℕ}

/-! ### One fill -/

/-- Paper entries are filled in the passes, in parts within the limits of the settings. -/
structure Config.FillsInParts (cfg : Config) : Prop where
  fillOnPlace : cfg.paperFillOnPlace = false
  partialFills : cfg.paperAllowPartialFills = true
  ratio_ge : 1 / 1000 ≤ cfg.paperPartialFillRatio
  ratio_le : cfg.paperPartialFillRatio ≤ 1

/-- An entry that is open, with a remainder that makes up its size up to half of the last digit. -/
structure Order.Filling (o : Order) : Prop where
  accounted : o.Accounted
  isOpen : o.status = .placed ∨ o.status = .partiallyFilled
  size_ge : 1 / 2 ≤ o.sizeUsdc
  remaining_gt : dust < o.remainingSizeUsdc
  size_le : o.sizeUsdc ≤ round8 (o.filledSizeUsdc + o.remainingSizeUsdc) + dust / 2

/-- The part of the size that is filled in one pass. -/
def Order.part (cfg : Config) (o : Order) : ℚ := o.sizeUsdc * cfg.paperPartialFillRatio

lemma dust_eq : dust = 1 / 10 ^ 8 := rfl

/-- The part is far above the rounding. -/
lemma Config.FillsInParts.part_ge (hcfg : cfg.FillsInParts) (h : 1 / 2 ≤ o.sizeUsdc) :
    1 / 2000 ≤ o.part cfg := by
  have hmul : 1 / 2 * (1 / 1000) ≤ o.sizeUsdc * cfg.paperPartialFillRatio :=
    mul_le_mul h hcfg.ratio_ge (by norm_num) (by linarith)
  rw [Order.part]
  linarith

/-- An entry that has just been placed. -/
lemma Order.Filling.of_placed (h : o.Accounted) (hkind : o.orderKind = .entry)
    (hplaced : o.status = .placed) : o.Filling := by
  obtain ⟨hfilled, hremaining⟩ := h.untouched (Or.inl hplaced)
  have hsize := h.entry_size hkind
  constructor
  · exact h
  · exact Or.inl hplaced
  · exact hsize
  · rw [hremaining, dust_eq]
    norm_num
    linarith
  · rw [hfilled, hremaining, zero_add]
    exact le_round8_add _

namespace Order.Filling

lemma paperFillSize_eq (h : o.Filling) (hcfg : cfg.FillsInParts) :
    paperFillSize cfg o = min o.remainingSizeUsdc (o.part cfg) := by
  have hpart := hcfg.part_ge h.size_ge
  have hpos : 0 < o.remainingSizeUsdc := dust_pos.trans h.remaining_gt
  rw [Order.part] at hpart
  rw [paperFillSize, if_pos ⟨hcfg.partialFills, hpos⟩, max_eq_left (by linarith), Order.part]

lemma acceptedFill_eq (h : o.Filling) (hcfg : cfg.FillsInParts) :
    o.acceptedFill (paperFillSize cfg o) = min o.remainingSizeUsdc (o.part cfg) := by
  rw [Order.acceptedFill, h.paperFillSize_eq hcfg, min_eq_left (min_le_left _ _)]

lemma acceptedFill_pos (h : o.Filling) (hcfg : cfg.FillsInParts) :
    0 < o.acceptedFill (paperFillSize cfg o) := by
  have hpart := hcfg.part_ge h.size_ge
  rw [h.acceptedFill_eq hcfg]
  exact lt_min (dust_pos.trans h.remaining_gt) (by linarith)

/-- A pass that takes the whole remainder completes the entry. -/
lemma remainingAfter_le (h : o.Filling)
    (hall : o.acceptedFill (paperFillSize cfg o) = o.remainingSizeUsdc) :
    o.remainingAfter (paperFillSize cfg o) ≤ dust := by
  have hsize := h.size_le
  have hdust := dust_pos
  have hmax : max (o.sizeUsdc - round8 (o.filledSizeUsdc + o.remainingSizeUsdc)) 0 ≤ dust / 2 :=
    max_le (by linarith) (by linarith)
  have hround := round8_le_add (max (o.sizeUsdc - round8 (o.filledSizeUsdc + o.remainingSizeUsdc)) 0)
  rw [Order.remainingAfter, hall]
  linarith

/-- A pass that does not complete the entry has filled a whole part of it. -/
lemma acceptedFill_eq_part (h : o.Filling) (hcfg : cfg.FillsInParts)
    (hopen : dust < o.remainingAfter (paperFillSize cfg o)) :
    o.acceptedFill (paperFillSize cfg o) = o.part cfg := by
  rcases min_choice o.remainingSizeUsdc (o.part cfg) with hmin | hmin
  · have hall : o.acceptedFill (paperFillSize cfg o) = o.remainingSizeUsdc := by
      rw [h.acceptedFill_eq hcfg, hmin]
    exact absurd (h.remainingAfter_le hall) (not_le.mpr hopen)
  · rw [h.acceptedFill_eq hcfg, hmin]

/-- What remains after a whole part, when it is not dust. -/
lemma remainingAfter_bounds (h : o.Filling) (hcfg : cfg.FillsInParts)
    (hopen : dust < o.remainingAfter (paperFillSize cfg o)) :
    o.remainingAfter (paperFillSize cfg o) ≤
        o.sizeUsdc - round8 (o.filledSizeUsdc + o.part cfg) + dust / 2 ∧
      o.sizeUsdc ≤ round8 (o.filledSizeUsdc + o.part cfg) +
        o.remainingAfter (paperFillSize cfg o) + dust / 2 := by
  have hpart := h.acceptedFill_eq_part hcfg hopen
  have hdust := dust_pos
  rw [Order.remainingAfter, hpart] at hopen ⊢
  have hle := round8_le_add (max (o.sizeUsdc - round8 (o.filledSizeUsdc + o.part cfg)) 0)
  have hge := le_round8_add (max (o.sizeUsdc - round8 (o.filledSizeUsdc + o.part cfg)) 0)
  have hsize := le_max_left (o.sizeUsdc - round8 (o.filledSizeUsdc + o.part cfg)) 0
  constructor
  · rcases max_choice (o.sizeUsdc - round8 (o.filledSizeUsdc + o.part cfg)) 0 with hmax | hmax
    · rw [hmax] at hle ⊢
      exact hle
    · rw [hmax] at hle hopen
      linarith
  · linarith

/-- A pass completes the entry, or fills a whole part of it and leaves it open; what remains gets less. -/
lemma paperFill (h : o.Filling) (hcfg : cfg.FillsInParts) (data : MarketData) (now : Time) :
    ((o.paperFill cfg data now).status = .filled ∨
      (o.paperFill cfg data now).Filling ∧
        o.filledSizeUsdc + o.part cfg - dust / 2 ≤ (o.paperFill cfg data now).filledSizeUsdc) ∧
      (o.paperFill cfg data now).remainingSizeUsdc < o.remainingSizeUsdc := by
  have haccounted : (o.paperFill cfg data now).Accounted := h.accounted.applyFill _ _ _
  have hdust := dust_pos
  by_cases hopen : o.remainingAfter (paperFillSize cfg o) ≤ dust
  · rw [Order.paperFill, Order.applyFill_of_pos (h.acceptedFill_pos hcfg)]
    simp only [if_pos hopen]
    exact ⟨Or.inl trivial, hdust.trans h.remaining_gt⟩
  · have hgt := not_le.mp hopen
    obtain ⟨hle, hge⟩ := h.remainingAfter_bounds hcfg hgt
    have hpart := hcfg.part_ge h.size_ge
    have hfilled := le_round8_add (o.filledSizeUsdc + o.part cfg)
    have hgrid : round8 (round8 (o.filledSizeUsdc + o.part cfg) +
        o.remainingAfter (paperFillSize cfg o)) =
        round8 (o.filledSizeUsdc + o.part cfg) + o.remainingAfter (paperFillSize cfg o) :=
      ((onGrid_roundTo _).add (onGrid_roundTo _)).roundTo_eq
    have hsize := h.accounted.size_le_total
    revert haccounted
    rw [Order.paperFill, Order.applyFill_of_pos (h.acceptedFill_pos hcfg),
      h.acceptedFill_eq_part hcfg hgt]
    simp only [if_neg hopen]
    intro haccounted
    refine ⟨Or.inr ⟨?_, by linarith⟩, ?_⟩
    · constructor
      · exact haccounted
      · exact Or.inr rfl
      · exact h.size_ge
      · exact hgt
      · dsimp only
        rw [hgrid]
        exact hge
    · rw [dust_eq] at hle hfilled hsize
      norm_num at hle hfilled hsize
      linarith

end Order.Filling

/-! ### The number of passes -/

/-- An open entry has had fewer passes than make up its size, and one. -/
lemma Order.Filling.passes_lt (h : o.Filling) (hcfg : cfg.FillsInParts)
    (hfilled : k * (o.part cfg - dust / 2) ≤ o.filledSizeUsdc) :
    k < ⌈1 / cfg.paperPartialFillRatio⌉₊ + 1 := by
  by_contra hk
  have hratio : 0 < cfg.paperPartialFillRatio := by linarith [hcfg.ratio_ge]
  have hsize := h.size_ge
  have hpart := hcfg.part_ge hsize
  set n := ⌈1 / cfg.paperPartialFillRatio⌉₊ with hn
  have hceil : 1 / cfg.paperPartialFillRatio ≤ n := Nat.le_ceil _
  have hceil' : (n : ℚ) < 1 / cfg.paperPartialFillRatio + 1 :=
    Nat.ceil_lt_add_one (by positivity)
  -- `n` parts make up the size, and `n` is at most a thousand
  have hall : o.sizeUsdc ≤ n * o.part cfg := by
    rw [div_le_iff₀ hratio] at hceil
    have hmul := mul_le_mul_of_nonneg_left hceil (show 0 ≤ o.sizeUsdc by linarith)
    rw [Order.part]
    linarith
  have hthousand : (n : ℚ) ≤ 1001 := by
    have hinv : 1 / cfg.paperPartialFillRatio ≤ 1000 := by
      rw [div_le_iff₀ hratio]
      linarith [hcfg.ratio_ge]
    linarith
  have hk' : (n : ℚ) + 1 ≤ k := by exact_mod_cast not_lt.mp hk
  have hstep : 0 ≤ o.part cfg - dust / 2 := by
    rw [dust_eq]
    norm_num
    linarith
  have hmany := mul_le_mul_of_nonneg_right hk' hstep
  have htotal := h.accounted.total_le_size
  have hremaining := h.remaining_gt
  rw [dust_eq] at hmany hfilled htotal hremaining
  norm_num at hmany hfilled htotal hremaining
  nlinarith

/-! ### Between the passes -/

/-- `o'` is what has become of the order `o`: it has its fill, and its status unless it was withdrawn. -/
structure Order.KeptOrCancelled (o o' : Order) : Prop where
  terms : Order.SameTerms o o'
  fill : Order.SameFill o o'
  status : o'.status = o.status ∨ o.status.isFinal = false ∧ o'.status = .cancelled

lemma Order.KeptOrCancelled.refl (o : Order) : Order.KeptOrCancelled o o :=
  ⟨.refl o, .refl o, Or.inl rfl⟩

lemma Order.KeptOrCancelled.trans {o₁ o₂ o₃ : Order} (h : Order.KeptOrCancelled o₁ o₂)
    (h' : Order.KeptOrCancelled o₂ o₃) : Order.KeptOrCancelled o₁ o₃ := by
  constructor
  · exact h.terms.trans h'.terms
  · exact h.fill.trans h'.fill
  · rcases h.status with hsame | ⟨hopen, hcancelled⟩
    · rw [← hsame]
      exact h'.status
    · rcases h'.status with hsame' | ⟨-, hcancelled'⟩
      · exact Or.inr ⟨hopen, hsame'.trans hcancelled⟩
      · exact Or.inr ⟨hopen, hcancelled'⟩

/-- Placing, cancelling and closing may withdraw an entry, and do nothing else to it. -/
lemma Command.keptOrCancelled (hcfg : cfg.paperFillOnPlace = false) (h : Command cfg s s')
    (hget : s.orders.get? e = some o) (hkind : o.orderKind = .entry) (harmed : o.status ≠ .armed) :
    ∃ o', s'.orders.get? e = some o' ∧ Order.KeptOrCancelled o o' := by
  have hmodify : ∀ {j : OrderId} {f : Order → Order},
      (s.orders.get? j = some o → Order.KeptOrCancelled o (f o)) →
      ∃ o', (s.modifyOrder j f).orders.get? e = some o' ∧ Order.KeptOrCancelled o o' :=
    fun hf => Executor.exists_modifyOrder hget (.refl o) hf
  have hwithdraw : ∀ {j : OrderId} {x : Order}, s.orders.get? j = some x → x.status.isFinal = false →
      ∀ {f : Order → Order}, (f o = { o with status := .cancelled, bracketState := (f o).bracketState }) →
        ∃ o', (s.modifyOrder j f).orders.get? e = some o' ∧ Order.KeptOrCancelled o o' := by
    intro j x hx hopen f hf
    refine hmodify fun hget' => ?_
    rw [hx, Option.some.injEq] at hget'
    rw [hf]
    exact ⟨by constructor <;> rfl, ⟨rfl, rfl, rfl, rfl⟩, Or.inr ⟨hget' ▸ hopen, rfl⟩⟩
  cases h with
  | cleanup now => exact ⟨o, by rwa [orders_cleanupRecentPlacements], .refl o⟩
  | openEntry env req hvalid => exact ⟨o, Executor.get?_insertOrder_of_some hget _, .refl o⟩
  | fillOnPlace env req id hvalid hgetId hpaper =>
    rw [PolyCortex.fillOnPlace, if_neg (by simp [hcfg])]
    exact ⟨o, hget, .refl o⟩
  | persist env req => exact ⟨o, by rwa [orders_persistOrderIntent], .refl o⟩
  | abandon id x hx hkind' hstatus => exact hwithdraw hx (by rw [hstatus]; rfl) rfl
  | acknowledgeEntry req exchangeIds id x hx hkind' =>
    refine hmodify fun _ => ⟨by constructor <;> rfl, ⟨rfl, rfl, rfl, rfl⟩, Or.inl rfl⟩
  | cancelLocally id x hx hopen =>
    rw [get?_cancelLocally, hget, Option.map_some]
    refine ⟨_, rfl, ?_⟩
    rw [Order.besideCancelled]
    by_cases hid : e = id
    · rw [if_pos hid]
      rw [hid, hx, Option.some.injEq] at hget
      exact ⟨by constructor <;> rfl, ⟨rfl, rfl, rfl, rfl⟩, Or.inr ⟨hget ▸ hopen, rfl⟩⟩
    · rw [if_neg hid]
      split_ifs with hchild
      · exact ⟨by constructor <;> rfl, ⟨rfl, rfl, rfl, rfl⟩, Or.inr ⟨hchild.2.2, rfl⟩⟩
      · exact .refl o
  | cancelConfirmed id x hx hkind' hopen =>
    rw [Executor.setBracketState, Executor.setStatus, Executor.modifyOrder_modifyOrder]
    exact hwithdraw hx hopen rfl
  | expire id x hx harmed' =>
    refine hmodify fun hget' => ?_
    rw [hx, Option.some.injEq] at hget'
    exact absurd (hget' ▸ harmed') harmed
  | openExit env req hsize => exact ⟨o, Executor.get?_insertOrder_of_some hget _, .refl o⟩
  | fillExit env req id hsize hgetId hpaper =>
    refine hmodify fun hget' => ?_
    rw [hgetId, Option.some.injEq] at hget'
    rw [← hget', buildExitOrder_eq] at hkind
    cases hkind
  | acknowledgeExit id exchangeId x hx hkind' =>
    refine hmodify fun _ => ⟨by constructor <;> rfl, ⟨rfl, rfl, rfl, rfl⟩, Or.inl rfl⟩

lemma Commands.keptOrCancelled (hcfg : cfg.paperFillOnPlace = false) (h : Commands cfg s s')
    (hget : s.orders.get? e = some o) (hkind : o.orderKind = .entry) (harmed : o.status ≠ .armed) :
    ∃ o', s'.orders.get? e = some o' ∧ Order.KeptOrCancelled o o' := by
  induction h with
  | refl => exact ⟨o, hget, .refl o⟩
  | tail _ hstep ih =>
    obtain ⟨x, hx, hkept⟩ := ih
    have harmed' : x.status ≠ .armed := by
      rcases hkept.status with hsame | ⟨-, hcancelled⟩
      · rwa [hsame]
      · rw [hcancelled]
        simp
    obtain ⟨o', ho', hkept'⟩ :=
      hstep.keptOrCancelled hcfg hx (hkept.terms.orderKind.trans hkind) harmed'
    exact ⟨o', ho', hkept.trans hkept'⟩

/-! ### Passes that reach the limit -/

/-- The call is a pass over a book that makes the entry marketable. -/
def Order.reachedBy (cfg : Config) (o : Order) (i : Invocation) : Bool :=
  match i.call.op with
  | .reconcileOrders books => (books o.marketId).any fun data => isMarketable cfg data o
  | _ => false

lemma Order.reachedBy_sameTerms (h : Order.SameTerms o o') (i : Invocation) :
    o'.reachedBy cfg i = o.reachedBy cfg i := by
  have hprice (data : MarketData) : entryFillPrice data o' = entryFillPrice data o := by
    simp only [entryFillPrice, h.direction, h.price]
  have hmarket (data : MarketData) : isMarketable cfg data o' = isMarketable cfg data o := by
    simp only [isMarketable, hprice, h.price]
  unfold Order.reachedBy
  cases i.call.op with
  | reconcileOrders books => simp only [h.marketId, hmarket]
  | _ => rfl

/-- Where an entry is after `k` passes that have reached its limit: filled, withdrawn, or filled by as
many parts. -/
inductive Order.Progress (cfg : Config) (k : ℕ) (o : Order) : Prop
  | filled (h : o.status = .filled)
  | cancelled (h : o.status = .cancelled)
  | filling (h : o.Filling) (hparts : k * (o.part cfg - dust / 2) ≤ o.filledSizeUsdc)

/-- What is done to the ledger of an entry is done to its progress. -/
lemma Order.Filling.congr (h : o.Filling) (hsame : Order.SameFill o o') (haccounted : o'.Accounted)
    (hstatus : o'.status = o.status) : o'.Filling where
  accounted := haccounted
  isOpen := hstatus ▸ h.isOpen
  size_ge := hsame.sizeUsdc ▸ h.size_ge
  remaining_gt := hsame.remainingSizeUsdc ▸ h.remaining_gt
  size_le := by
    rw [hsame.sizeUsdc, hsame.filledSizeUsdc, hsame.remainingSizeUsdc]
    exact h.size_le

lemma Order.Progress.congr (h : o.Progress cfg k) (hsame : Order.SameFill o o')
    (haccounted : o'.Accounted) (hstatus : o'.status = o.status) : o'.Progress cfg k := by
  cases h with
  | filled h => exact .filled (hstatus.trans h)
  | cancelled h => exact .cancelled (hstatus.trans h)
  | filling h hparts =>
    refine .filling (h.congr hsame haccounted hstatus) ?_
    rw [Order.part, hsame.sizeUsdc, hsame.filledSizeUsdc]
    exact hparts

/-- A pass that does not reach the limit, or finds the entry filled or withdrawn. -/
lemma Order.afterBooks_eq_self {books : MarketBooks} {i : Invocation}
    (hop : i.call.op = .reconcileOrders books)
    (h : (o.status = .placed ∨ o.status = .partiallyFilled) → o.reachedBy cfg i = false) (now : Time) :
    o.afterBooks cfg books now = o := by
  rw [Order.afterBooks]
  cases hdata : books o.marketId with
  | none => rfl
  | some data =>
    refine if_neg fun hfills => ?_
    have hreached := h hfills.1
    rw [Order.reachedBy, hop] at hreached
    simp only [hdata, Option.any_some, hfills.2] at hreached
    cases hreached

/-- A pass that reaches the limit of an open entry. -/
lemma Order.afterBooks_eq_paperFill {books : MarketBooks} {i : Invocation}
    (hop : i.call.op = .reconcileOrders books)
    (hopen : o.status = .placed ∨ o.status = .partiallyFilled) (h : o.reachedBy cfg i = true)
    (now : Time) : ∃ data, o.afterBooks cfg books now = o.paperFill cfg data now := by
  rw [Order.reachedBy, hop] at h
  rw [Order.afterBooks]
  cases hdata : books o.marketId with
  | none => simp [hdata] at h
  | some data =>
    simp only [hdata, Option.any_some] at h
    exact ⟨data, if_pos ⟨hopen, h⟩⟩

/-- The passes of a call: one if it reaches the limit. -/
def Order.passOf (cfg : Config) (o : Order) (i : Invocation) : ℕ := if o.reachedBy cfg i then 1 else 0

/-- What a pass leaves of an entry. -/
lemma Order.Progress.afterBooks (h : o.Progress cfg k) (hcfg : cfg.FillsInParts) {books : MarketBooks}
    {i : Invocation} (hop : i.call.op = .reconcileOrders books) (now : Time) :
    (o.afterBooks cfg books now).Progress cfg (k + o.passOf cfg i) := by
  cases h with
  | filled h =>
    rw [Order.afterBooks_eq_self hop (by simp [h])]
    exact .filled h
  | cancelled h =>
    rw [Order.afterBooks_eq_self hop (by simp [h])]
    exact .cancelled h
  | filling h hparts =>
    cases hreached : o.reachedBy cfg i with
    | false =>
      rw [Order.afterBooks_eq_self hop fun _ => hreached, Order.passOf, hreached]
      exact .filling h hparts
    | true =>
      obtain ⟨data, hfill⟩ := Order.afterBooks_eq_paperFill hop h.isOpen hreached now
      rw [hfill, Order.passOf, hreached]
      rcases (h.paperFill hcfg data now).1 with hdone | ⟨hopen, hpart⟩
      · exact .filled hdone
      · refine .filling hopen ?_
        have hsize : (o.paperFill cfg data now).part cfg = o.part cfg := by
          rw [Order.part, Order.paperFill, Order.applyFill_sizeUsdc, Order.part]
        rw [hsize, if_pos rfl]
        push_cast
        linarith

/-! ### Runs -/

/-- One call, whatever it is. -/
lemma Invocation.perform_progress {w : ExecWorld} (hcfg : cfg.FillsInParts) (hw : w.state.Linked)
    (hget : w.state.orders.get? e = some o) (hkind : o.orderKind = .entry) (hpaper : o.isPaper = true)
    (h : o.Progress cfg k) (i : Invocation) :
    ∃ o', (i.perform cfg w).state.orders.get? e = some o' ∧ Order.SameTerms o o' ∧
      o'.Progress cfg (k + o.passOf cfg i) ∧
      (o.Filling → o.reachedBy cfg i = true → o'.remainingSizeUsdc < o.remainingSizeUsdc) := by
  have hw' : (i.perform cfg w).state.Linked := (i.perform_changes cfg w).linked hw
  by_cases hop : ∃ books, i.call.op = .reconcileOrders books
  · obtain ⟨books, hop⟩ := hop
    obtain ⟨⟨op, env⟩, answers⟩ := i
    dsimp only at hop
    subst hop
    rw [Invocation.perform_reconcileOrders] at hw' ⊢
    obtain ⟨-, o', ho', hsame⟩ :=
      reconcileOrders_paperEntry cfg books env.now hw hget hkind hpaper answers
    refine ⟨o', ho', (o.afterBooks_terms cfg books env.now).trans hsame.terms, ?_, ?_⟩
    · exact (h.afterBooks hcfg rfl env.now).congr hsame.fill (hw'.accounted e o' ho') hsame.status
    · intro hopen hreached
      obtain ⟨data, hfill⟩ := Order.afterBooks_eq_paperFill rfl hopen.isOpen hreached env.now
      rw [hsame.fill.remainingSizeUsdc, hfill]
      exact (hopen.paperFill hcfg data env.now).2
  · have hnone : o.reachedBy cfg i = false := by
      unfold Order.reachedBy
      cases hcall : i.call.op with
      | reconcileOrders books => exact absurd ⟨books, hcall⟩ hop
      | _ => rfl
    have hcommands : Commands cfg w.state (i.perform cfg w).state :=
      ((Call.byCommands cfg i.call w (not_exists.mp hop)).run alone_refl (fun _ => .refl) .trans
        i.answers).1
    have harmed : o.status ≠ .armed := by
      intro harmed
      have hbracket := (hw.accounted e o hget).bracket_of_armed harmed
      rw [hkind] at hbracket
      cases hbracket
    obtain ⟨o', ho', hkept⟩ := hcommands.keptOrCancelled hcfg.fillOnPlace hget hkind harmed
    refine ⟨o', ho', hkept.terms, ?_, fun _ hreached => ?_⟩
    · rw [Order.passOf, hnone]
      rcases hkept.status with hsame | ⟨-, hcancelled⟩
      · exact h.congr hkept.fill (hw'.accounted e o' ho') hsame
      · exact .cancelled hcancelled
    · rw [hnone] at hreached
      cases hreached

/-- A run after the entry has been placed. -/
lemma runAll_progress (hcfg : cfg.FillsInParts) (pre post : List Invocation)
    (hget : (runAll cfg pre).state.orders.get? e = some o) (hkind : o.orderKind = .entry)
    (hpaper : o.isPaper = true) (hplaced : o.status = .placed) :
    ∃ o', (runAll cfg (pre ++ post)).state.orders.get? e = some o' ∧ Order.SameTerms o o' ∧
      o'.Progress cfg (post.countP (o.reachedBy cfg)) := by
  induction post using List.reverseRecOn with
  | nil =>
    have hfilling := Order.Filling.of_placed ((runAll_linked cfg pre).accounted e o hget) hkind hplaced
    refine ⟨o, by rwa [List.append_nil], .refl o, .filling hfilling ?_⟩
    simpa using hfilling.accounted.filled_nonneg
  | append_singleton post i ih =>
    obtain ⟨o', ho', hterms, hprogress⟩ := ih
    obtain ⟨o'', ho'', hterms', hprogress', -⟩ := Invocation.perform_progress hcfg
      (runAll_linked cfg (pre ++ post)) ho' (hterms.orderKind.trans hkind)
      (hterms.isPaper.trans hpaper) hprogress i
    refine ⟨o'', ?_, hterms.trans hterms', ?_⟩
    · rwa [← List.append_assoc, runAll_concat]
    · rw [Order.passOf, Order.reachedBy_sameTerms hterms] at hprogress'
      rwa [List.countP_append, List.countP_singleton]

/-- A paper entry that is not cancelled is filled after one pass more than the parts that make up its
size, and until then every pass that reaches its limit leaves less of it. -/
theorem runAll_paperEntry_completes (cfg : Config) (hcfg : cfg.FillsInParts)
    (pre post : List Invocation) (e : OrderId) (o : Order)
    (hget : (runAll cfg pre).state.orders.get? e = some o) (hkind : o.orderKind = .entry)
    (hpaper : o.isPaper = true) (hplaced : o.status = .placed) :
    ∃ o', (runAll cfg (pre ++ post)).state.orders.get? e = some o' ∧
      (o'.status ≠ .cancelled →
        ⌈1 / cfg.paperPartialFillRatio⌉₊ + 1 ≤ post.countP (o.reachedBy cfg) →
          o'.status = .filled) ∧
      ∀ i : Invocation, o.reachedBy cfg i = true → o'.status ≠ .filled → o'.status ≠ .cancelled →
        ∃ o'', (runAll cfg (pre ++ post ++ [i])).state.orders.get? e = some o'' ∧
          o''.remainingSizeUsdc < o'.remainingSizeUsdc := by
  obtain ⟨o', ho', hterms, hprogress⟩ := runAll_progress hcfg pre post hget hkind hpaper hplaced
  refine ⟨o', ho', fun hne hmany => ?_, fun i hreached hfilled hne => ?_⟩
  · cases hprogress with
    | filled h => exact h
    | cancelled h => exact absurd h hne
    | filling h hparts => exact absurd (h.passes_lt hcfg hparts) (not_lt.mpr hmany)
  · obtain ⟨o'', ho'', -, -, hless⟩ := Invocation.perform_progress hcfg
      (runAll_linked cfg (pre ++ post)) ho' (hterms.orderKind.trans hkind)
      (hterms.isPaper.trans hpaper) hprogress i
    refine ⟨o'', by rwa [runAll_concat], hless ?_ ?_⟩
    · cases hprogress with
      | filled h => exact absurd h hfilled
      | cancelled h => exact absurd h hne
      | filling h hparts => exact h
    · rw [Order.reachedBy_sameTerms hterms]
      exact hreached

/-- A paper entry of 10 USDC. -/
def placeTen : List Invocation :=
  [offline (.placeOrder { marketId := "m", direction := .yes, sizeUsdc := 10, price := 1 / 2 }) 0]

/-- Passes over books with these midpoints. -/
def passesAt (midpoints : List ℚ) : List Invocation :=
  midpoints.map fun midpoint =>
    offline (.reconcileOrders fun _ => some { midpoint := some midpoint }) 1

/-- Three tenths of the size in each pass: five passes below the limit, and one above it. -/
theorem runAll_paperEntry_completes_tenths :
    ∃ o', (runAll threeTenths (placeTen ++
        passesAt [2 / 5, 2 / 5, 4 / 5, 2 / 5, 2 / 5, 2 / 5])).state.orders.get? 0 = some o' ∧
      o'.status = .filled := by
  have hcfg : threeTenths.FillsInParts :=
    ⟨rfl, rfl, by norm_num [threeTenths], by norm_num [threeTenths]⟩
  have hplaced : ((runAll threeTenths placeTen).state.orders.get? 0).any (fun o =>
      o.orderKind = .entry ∧ o.isPaper = true ∧ o.status = .placed ∧
        5 ≤ (passesAt [2 / 5, 2 / 5, 4 / 5, 2 / 5, 2 / 5, 2 / 5]).countP (o.reachedBy threeTenths)) =
      true := by
    decide +kernel
  have hkept : ((runAll threeTenths (placeTen ++
      passesAt [2 / 5, 2 / 5, 4 / 5, 2 / 5, 2 / 5, 2 / 5])).state.orders.get? 0).all (fun o =>
      o.status ≠ .cancelled) = true := by
    decide +kernel
  obtain ⟨o, hget, hfacts⟩ := (Option.any_eq_true _ _).mp hplaced
  obtain ⟨hkind, hpaper, hstatus, hmany⟩ := of_decide_eq_true hfacts
  obtain ⟨o', ho', hdone, -⟩ := runAll_paperEntry_completes threeTenths hcfg placeTen
    (passesAt [2 / 5, 2 / 5, 4 / 5, 2 / 5, 2 / 5, 2 / 5]) 0 o hget hkind hpaper hstatus
  have hceil : ⌈1 / threeTenths.paperPartialFillRatio⌉₊ + 1 = 5 := by
    have hinv : 1 / threeTenths.paperPartialFillRatio = 10 / 3 := by norm_num [threeTenths]
    rw [hinv]
    have h : ⌈(10 / 3 : ℚ)⌉₊ = 4 := by rw [Nat.ceil_eq_iff (by norm_num)]; norm_num
    rw [h]
  rw [ho', Option.all_some] at hkept
  exact ⟨o', ho', hdone (of_decide_eq_true hkept) (hceil ▸ hmany)⟩

end PolyCortex
