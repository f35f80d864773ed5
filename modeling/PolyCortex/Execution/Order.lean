import PolyCortex.Numeric.Rounding

/-!
# Orders

The `Order` record of the executor, its `__post_init__`, and the two ways an order changes by
itself: `applyFill` takes a fill, and the status assignments of the operations.

Amounts and prices are exact rationals; the rounding to 8 digits that the code applies to sizes
is explicit. Times are microseconds, the resolution of `datetime`.
-/

namespace PolyCortex

open Rounding

abbrev Time := ℤ
abbrev OrderId := ℕ
abbrev MarketId := String
abbrev TokenId := String
abbrev ExchangeId := String

/-- `timedelta(minutes=n)` and `timedelta(seconds=n)`. -/
def minutes (n : ℤ) : Time := n * 60000000

def seconds (n : ℤ) : Time := n * 1000000

/-- The side of the market an order bets on. The code accepts any string and validates it. -/
inductive Direction where
  | yes
  | no
  | other (text : String)
  deriving DecidableEq, Repr

inductive Side where
  | buy
  | sell
  deriving DecidableEq, Repr

inductive OrderStatus where
  | placed
  | partiallyFilled
  | filled
  | armed
  | cancelled
  | expired
  deriving DecidableEq, Repr

/-- `FINAL_ORDER_STATUSES`. -/
def OrderStatus.isFinal : OrderStatus → Bool
  | .filled | .cancelled | .expired => true
  | .placed | .partiallyFilled | .armed => false

/-- The statuses `cancel_all_open_orders` and `cancel_expired_orders` select. -/
def OrderStatus.isOpen : OrderStatus → Bool
  | .placed | .partiallyFilled | .armed => true
  | .filled | .cancelled | .expired => false

def OrderStatus.text : OrderStatus → String
  | .placed => "placed"
  | .partiallyFilled => "partially_filled"
  | .filled => "filled"
  | .armed => "armed"
  | .cancelled => "cancelled"
  | .expired => "expired"

inductive OrderType where
  | limit
  | gtt
  deriving DecidableEq, Repr

inductive OrderKind where
  | entry
  | exit
  | takeProfit
  | stopLoss
  deriving DecidableEq, Repr

def OrderKind.text : OrderKind → String
  | .entry => "entry"
  | .exit => "exit"
  | .takeProfit => "take_profit"
  | .stopLoss => "stop_loss"

/-- The two kinds of bracket children. -/
def OrderKind.isBracket : OrderKind → Bool
  | .takeProfit | .stopLoss => true
  | .entry | .exit => false

inductive TriggerCondition where
  | gte
  | lte
  deriving DecidableEq, Repr

inductive BracketState where
  | inactive
  | pendingFill
  | armed
  | cancelled
  | expired
  | closed
  deriving DecidableEq, Repr

structure Order where
  orderId : OrderId
  marketId : MarketId
  tokenId : TokenId
  direction : Direction
  side : Side
  sizeUsdc : ℚ
  price : ℚ
  status : OrderStatus
  timestamp : Time
  chunks : ℕ
  isPaper : Bool
  exchangeOrderIds : List ExchangeId := []
  filledSizeUsdc : ℚ := 0
  remainingSizeUsdc : ℚ := 0
  averageFillPrice : Option ℚ := none
  lastFillAt : Option Time := none
  orderType : OrderType := .limit
  orderKind : OrderKind := .entry
  reduceOnly : Bool := false
  parentOrderId : Option OrderId := none
  ocoGroupId : Option ℕ := none
  triggerPrice : Option ℚ := none
  triggerCondition : Option TriggerCondition := none
  takeProfitPrice : Option ℚ := none
  stopLossPrice : Option ℚ := none
  bracketOrderIds : List OrderId := []
  bracketState : BracketState := .inactive
  gttExpiryAt : Option Time := none
  deriving DecidableEq, Repr

/-- `x or y` of Python on numbers: zero counts as absent. -/
def pyOr (x y : ℚ) : ℚ := if x = 0 then y else x

/-- The same with a value that may be `None`. -/
def pyOr? (x : Option ℚ) (y : ℚ) : ℚ := pyOr (x.getD 0) y

/-- Sizes are rounded to 8 digits. -/
def round8 (q : ℚ) : ℚ := roundTo 8 q

/-- One unit of the rounded sizes, `1e-8`. -/
def dust : ℚ := 1 / 10 ^ 8

def contractPrice (direction : Direction) (marketPrice : ℚ) : ℚ :=
  if direction = .yes then marketPrice else 1 - marketPrice

def clampPrice (price : ℚ) : ℚ := max (1 / 100) (min price (99 / 100))

namespace Order

/-- `__post_init__`: what the constructor does to the sizes it was given. -/
def postInit (o : Order) : Order :=
  let o :=
    if o.remainingSizeUsdc ≤ 0 ∧ ¬ o.status.isFinal ∧ o.status ≠ .armed then
      { o with remainingSizeUsdc := o.sizeUsdc - o.filledSizeUsdc }
    else o
  if o.status = .filled then
    { o with
      remainingSizeUsdc := 0
      filledSizeUsdc := if o.filledSizeUsdc ≤ 0 then o.sizeUsdc else o.filledSizeUsdc
      averageFillPrice := some (o.averageFillPrice.getD o.price) }
  else if o.status = .armed then
    { o with remainingSizeUsdc := o.sizeUsdc }
  else o

/-- The constructor leaves an unfilled order as it is. -/
lemma postInit_of_placed {o : Order} (hstatus : o.status = .placed) (hfilled : o.filledSizeUsdc = 0)
    (hremaining : o.remainingSizeUsdc = o.sizeUsdc) : o.postInit = o := by
  cases o
  dsimp only at hstatus hfilled hremaining
  subst hstatus hfilled hremaining
  simp [postInit, OrderStatus.isFinal]

lemma postInit_of_armed {o : Order} (hstatus : o.status = .armed)
    (hremaining : o.remainingSizeUsdc = o.sizeUsdc) : o.postInit = o := by
  cases o
  dsimp only at hstatus hremaining
  subst hstatus hremaining
  simp [postInit]

/-- The new average price: weighted with the old one when there is one. -/
def averageWith (o : Order) (fillSize fillPrice : ℚ) : ℚ :=
  match o.averageFillPrice with
  | some average =>
    if 0 < o.filledSizeUsdc then
      (average * o.filledSizeUsdc + fillPrice * fillSize) / (o.filledSizeUsdc + fillSize)
    else fillPrice
  | none => fillPrice

/-- `_apply_fill`. The accepted part of the fill is cut to the remaining size; a remainder of at
most `1e-8` completes the order. -/
def applyFill (o : Order) (fillSizeUsdc fillPrice : ℚ) (now : Time) : Order :=
  let fillSize := max 0 (min fillSizeUsdc o.remainingSizeUsdc)
  if fillSize ≤ 0 then o
  else
    let filled := round8 (o.filledSizeUsdc + fillSize)
    let remaining := round8 (max (o.sizeUsdc - filled) 0)
    let o :=
      { o with
        averageFillPrice := some (o.averageWith fillSize fillPrice)
        filledSizeUsdc := filled
        lastFillAt := some now }
    if remaining ≤ dust then { o with remainingSizeUsdc := 0, status := .filled }
    else { o with remainingSizeUsdc := remaining, status := .partiallyFilled }

/-- `filled_size_usdc or size_usdc`, the size a bracket protects. -/
def activeSize (o : Order) : ℚ := pyOr o.filledSizeUsdc o.sizeUsdc

/-- `average_fill_price or price`, the price a bracket is built around. -/
def activePrice (o : Order) : ℚ := pyOr? o.averageFillPrice o.price

end Order
end PolyCortex
