import PolyCortex.Reporting.Tax

/-!
# The order of the lots

What a cost-basis method asks for: the sales draw on one pool of lots, FIFO on the earliest lot that
is left, LIFO on the latest that was there at the sale. The form gives each sale its own lot, which
is the one asked for exactly when the trades were sold in the right order (`followsMethod_iff`).
-/

namespace PolyCortex

open Rounding

def Lot.AcquiredBy (row : Form8949Row) (lot : Lot) : Prop :=
  ∃ sold, row.dateSold = some sold ∧ lot.dateAcquired ≤ sold

/-- The method lets a sale have a lot of the unused ones. -/
def CostBasisMethod.Allows (unused : List Lot) (row : Form8949Row) (lot : Lot) : CostBasisMethod → Prop
  | .fifo => ∀ other ∈ unused, lot.dateAcquired ≤ other.dateAcquired
  | .lifo => lot.AcquiredBy row ∧
      ∀ other ∈ unused, other.AcquiredBy row → other.dateAcquired ≤ lot.dateAcquired

/-- The row is of a sale of the lot. -/
structure Form8949Row.Uses (lot : Lot) (row : Form8949Row) : Prop where
  dateAcquired : row.dateAcquired = lot.dateAcquired
  costBasis : row.costBasis = roundTo 4 lot.costBasis

/-- The rows use the lots once each, every one as the method asks for at its sale. -/
inductive FollowsMethod (method : CostBasisMethod) : List Lot → List Form8949Row → Prop
  | nil : FollowsMethod method [] []
  | cons {lots : List Lot} {lot : Lot} {row : Form8949Row} {rows : List Form8949Row} (hmem : lot ∈ lots)
      (hallows : method.Allows lots row lot) (huses : row.Uses lot)
      (hrows : FollowsMethod method (lots.erase lot) rows) : FollowsMethod method lots (row :: rows)

namespace Trade

def acquired (trade : Trade) : Day := utcDay trade.timestamp

def sold (trade : Trade) : Day := utcDay (trade.closedAt.getD 0)

end Trade

/-- The order of the sales that a method needs: FIFO that of the purchases; LIFO that no lot bought
later, and not after a sale, is sold after it. -/
def SoldInOrder : CostBasisMethod → List Trade → Prop
  | .fifo, trades => trades.Pairwise fun x y => x.acquired ≤ y.acquired
  | .lifo, trades => (∀ x ∈ trades, x.acquired ≤ x.sold) ∧
      trades.Pairwise fun x y => y.acquired ≤ x.sold → y.acquired ≤ x.acquired

/-- The trades of one market and direction. -/
def Tracker.ofKey (key : LotKey) (t : Tracker) : Tracker := ⟨t.trades.filter (·.lotKey = key)⟩

section

variable {method : CostBasisMethod} {question : Trade → String} {t : Tracker} {year : ℤ}
  {lots : List Lot} {rows : List Form8949Row} {trades : List Trade}

namespace FollowsMethod

/-- The dates of the rows are those of the lots. -/
lemma dates_perm (h : FollowsMethod method lots rows) :
    (rows.map (·.dateAcquired)).Perm (lots.map (·.dateAcquired)) := by
  induction h with
  | nil => exact List.Perm.refl _
  | @cons lots lot row rows hmem _ huses _ ih =>
    have hlots : (lots.map (·.dateAcquired)).Perm
        (lot.dateAcquired :: (lots.erase lot).map (·.dateAcquired)) :=
      (List.perm_cons_erase hmem).map _
    rw [List.map_cons, huses.dateAcquired]
    exact (ih.cons _).trans hlots.symm

/-- A row that comes later has the date of a lot that is still there. -/
lemma exists_lot (h : FollowsMethod method lots rows) {row : Form8949Row} (hrow : row ∈ rows) :
    ∃ lot ∈ lots, lot.dateAcquired = row.dateAcquired :=
  List.mem_map.mp (h.dates_perm.mem_iff.mp (List.mem_map_of_mem hrow))

lemma pairwise_of_fifo (h : FollowsMethod .fifo lots rows) :
    rows.Pairwise fun x y => x.dateAcquired ≤ y.dateAcquired := by
  induction h with
  | nil => exact List.Pairwise.nil
  | @cons lots lot row rows hmem hallows huses hrows ih =>
    refine List.pairwise_cons.mpr ⟨fun later hlater => ?_, ih⟩
    obtain ⟨other, hother, hdate⟩ := hrows.exists_lot hlater
    rw [huses.dateAcquired, ← hdate]
    exact hallows other (List.mem_of_mem_erase hother)

lemma pairwise_of_lifo (h : FollowsMethod .lifo lots rows) :
    rows.Pairwise fun x y => ∀ sold, x.dateSold = some sold → y.dateAcquired ≤ sold →
      y.dateAcquired ≤ x.dateAcquired := by
  induction h with
  | nil => exact List.Pairwise.nil
  | @cons lots lot row rows hmem hallows huses hrows ih =>
    refine List.pairwise_cons.mpr ⟨fun later hlater sold hsold hle => ?_, ih⟩
    obtain ⟨other, hother, hdate⟩ := hrows.exists_lot hlater
    rw [huses.dateAcquired, ← hdate]
    exact hallows.2 other (List.mem_of_mem_erase hother) ⟨sold, hsold, hdate ▸ hle⟩

lemma acquired_of_lifo (h : FollowsMethod .lifo lots rows) :
    ∀ row ∈ rows, ∃ sold, row.dateSold = some sold ∧ row.dateAcquired ≤ sold := by
  induction h with
  | nil => exact fun _ hrow => absurd hrow List.not_mem_nil
  | @cons lots lot row rows hmem hallows huses hrows ih =>
    intro row' hrow'
    rcases List.mem_cons.mp hrow' with rfl | hrow'
    · obtain ⟨sold, hsold, hle⟩ := hallows.1
      exact ⟨sold, hsold, huses.dateAcquired ▸ hle⟩
    · exact ih row' hrow'

end FollowsMethod

lemma Trade.uses_ownLot (question : Trade → String) (trade : Trade) :
    (trade.form8949Row question trade.ownLot).Uses trade.ownLot := ⟨rfl, rfl⟩

/-- Sales in the order of a method are each allowed the own lot. -/
lemma followsMethod_ownLots (hclosed : ∀ trade ∈ trades, trade.closedAt.isSome = true)
    (horder : SoldInOrder method trades) :
    FollowsMethod method (trades.map (·.ownLot))
      (trades.map fun trade => trade.form8949Row question trade.ownLot) := by
  induction trades with
  | nil => exact .nil
  | cons trade trades ih =>
    have hrest : ∀ trade' ∈ trades, trade'.closedAt.isSome = true := fun trade' h =>
      hclosed trade' (List.mem_cons_of_mem _ h)
    obtain ⟨closedAt, hclosedAt⟩ := Option.isSome_iff_exists.mp (hclosed trade List.mem_cons_self)
    have hdateSold : (trade.form8949Row question trade.ownLot).dateSold = some trade.sold := by
      simp [Trade.form8949Row, Trade.sold, hclosedAt]
    rw [List.map_cons, List.map_cons]
    have htail : SoldInOrder method trades →
        FollowsMethod method ((trade.ownLot :: trades.map (·.ownLot)).erase trade.ownLot)
          (trades.map fun trade => trade.form8949Row question trade.ownLot) := by
      intro horder'
      rw [List.erase_cons_head]
      exact ih hrest horder'
    cases method with
    | fifo =>
      obtain ⟨hfirst, horder'⟩ := List.pairwise_cons.mp horder
      refine .cons List.mem_cons_self ?_ (trade.uses_ownLot question) (htail horder')
      intro other hother
      rcases List.mem_cons.mp hother with rfl | hother
      · exact le_rfl
      · obtain ⟨later, hlater, rfl⟩ := List.mem_map.mp hother
        exact hfirst later hlater
    | lifo =>
      obtain ⟨hacquired, hpairs⟩ := horder
      obtain ⟨hfirst, horder'⟩ := List.pairwise_cons.mp hpairs
      refine .cons List.mem_cons_self ⟨⟨trade.sold, hdateSold, hacquired trade List.mem_cons_self⟩, ?_⟩
        (trade.uses_ownLot question)
        (htail ⟨fun x hx => hacquired x (List.mem_cons_of_mem _ hx), horder'⟩)
      rintro other hother ⟨sold, hsold, hle⟩
      rcases List.mem_cons.mp hother with rfl | hother
      · exact le_rfl
      · obtain ⟨later, hlater, rfl⟩ := List.mem_map.mp hother
        obtain rfl : trade.sold = sold := Option.some.inj (hdateSold.symm.trans hsold)
        exact hfirst later hlater hle

/-- When each sale has its own lot, the method is followed exactly when the sales are in its order. -/
lemma followsMethod_ownLots_iff (hclosed : ∀ trade ∈ trades, trade.closedAt.isSome = true) :
    FollowsMethod method (trades.map (·.ownLot))
        (trades.map fun trade => trade.form8949Row question trade.ownLot) ↔
      SoldInOrder method trades := by
  refine ⟨fun h => ?_, followsMethod_ownLots hclosed⟩
  have hsold : ∀ trade ∈ trades, trade.closedAt.map utcDay = some trade.sold := by
    intro trade htrade
    obtain ⟨closedAt, hclosedAt⟩ := Option.isSome_iff_exists.mp (hclosed trade htrade)
    simp [Trade.sold, hclosedAt]
  cases method with
  | fifo =>
    have hpairs := List.pairwise_map.mp h.pairwise_of_fifo
    exact hpairs
  | lifo =>
    constructor
    · intro trade htrade
      obtain ⟨sold, hdate, hle⟩ := h.acquired_of_lifo _ (List.mem_map_of_mem htrade)
      obtain rfl : trade.sold = sold := Option.some.inj ((hsold trade htrade).symm.trans hdate)
      exact hle
    · have hpairs := List.pairwise_map.mp h.pairwise_of_lifo
      refine hpairs.imp_of_mem fun {x y} hx _ hxy => ?_
      exact hxy x.sold (hsold x hx)

/-- The trades on a form have a closing time. -/
lemma closedAt_isSome {trade : Trade} (h : trade ∈ iterClosedTrades year t) :
    trade.closedAt.isSome = true := by
  rw [iterClosedTrades, (bySale_perm _).mem_iff, List.mem_filter] at h
  have hyear := (of_decide_eq_true h.2).2
  cases hclosedAt : trade.closedAt with
  | none => simp [Trade.closingYear, hclosedAt] at hyear
  | some closedAt => rfl

end

/-- The rows of the closed trades of one market and direction follow the method exactly when the trades
were sold in the order that it needs. -/
theorem followsMethod_iff (method : CostBasisMethod) (year : ℤ) (question : Trade → String)
    (t : Tracker) (key : LotKey) :
    FollowsMethod method ((iterClosedTrades year (t.ofKey key)).map (·.ownLot))
        (generateForm8949 year method question (t.ofKey key)) ↔
      SoldInOrder method (iterClosedTrades year (t.ofKey key)) := by
  rw [generateForm8949_eq]
  exact followsMethod_ownLots_iff fun trade htrade => closedAt_isSome htrade

/-- A trade of one market, bought and sold on these days of 1970. -/
def heldDays (bought sold : Day) : Trade :=
  { marketId := "heads", direction := .yes, entryPrice := some (1 / 2), sizeUsdc := 10,
    timestamp := bought * 86400000000, isPaper := true, status := .closed, exitPrice := some (1 / 2),
    pnl := some 0, closedAt := some (sold * 86400000000) }

/-- The later trade is sold first. -/
def nestedLedger : Tracker := ⟨[heldDays 0 10, heldDays 2 5]⟩

/-- The earlier trade is sold first, after the later one was bought. -/
def crossingLedger : Tracker := ⟨[heldDays 0 5, heldDays 2 10]⟩

theorem not_followsMethod_overlapping :
    ¬ FollowsMethod .fifo ((iterClosedTrades 1970 (nestedLedger.ofKey ("heads", .yes))).map (·.ownLot))
        (generateForm8949 1970 .fifo (fun _ => "") (nestedLedger.ofKey ("heads", .yes))) ∧
      ¬ FollowsMethod .lifo
        ((iterClosedTrades 1970 (crossingLedger.ofKey ("heads", .yes))).map (·.ownLot))
        (generateForm8949 1970 .lifo (fun _ => "") (crossingLedger.ofKey ("heads", .yes))) := by
  have hnested : iterClosedTrades 1970 (nestedLedger.ofKey ("heads", .yes)) =
      [heldDays 2 5, heldDays 0 10] := by decide +kernel
  have hcrossing : iterClosedTrades 1970 (crossingLedger.ofKey ("heads", .yes)) =
      [heldDays 0 5, heldDays 2 10] := by decide +kernel
  constructor
  · rw [generateForm8949_eq, hnested, followsMethod_ownLots_iff (by simp [heldDays])]
    unfold SoldInOrder
    decide +kernel
  · rw [generateForm8949_eq, hcrossing, followsMethod_ownLots_iff (by simp [heldDays])]
    unfold SoldInOrder
    decide +kernel

end PolyCortex
