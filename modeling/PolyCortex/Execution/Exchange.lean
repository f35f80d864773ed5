import PolyCortex.Execution.Order

/-!
# The exchange and the chain, as the executor sees them

The awaits of the executor: what it asks (`Request`) and what may come back (`Reply`). A request
carries the local order on whose behalf it is made. The answers are arbitrary: any call may time
out, fail, or return a response of any shape.
-/

namespace PolyCortex

/-- The scalar values of a response of the CLOB client. -/
inductive PyValue where
  | none
  | bool (b : Bool)
  | num (q : ℚ)
  | text (s : String)
  deriving DecidableEq, Repr

/-- A response: a `dict` with its fields, or something else. -/
inductive Response where
  | dict (fields : List (String × PyValue))
  | other
  deriving DecidableEq, Repr

/-- The three ways a call can raise that the executor tells apart. -/
inductive CallError where
  | timeout
  | network
  | other
  deriving DecidableEq, Repr

/-- The two client methods `_fetch_live_exchange_status` tries. -/
inductive StatusMethod where
  | getOrder
  | getOrderStatus
  deriving DecidableEq, Repr

/-- What a status method does: the client lacks it or rejects the argument (`TypeError`), the call
times out or fails, or it returns a response. -/
inductive StatusReply where
  | unsupported
  | timeout
  | failed
  | response (r : Response)
  deriving DecidableEq, Repr

inductive Request where
  /-- USDC balance of the wallet; `none` when there is no wallet or the query fails. -/
  | balance (order : OrderId)
  /-- Gas price in gwei; `none` when the query fails. -/
  | gasPrice (order : OrderId)
  | createAndPostOrder (order : OrderId) (tokenId : TokenId) (price size : ℚ) (side : Side)
  | sleep (order : OrderId)
  | cancel (order : OrderId) (exchangeId : ExchangeId)
  | status (order : OrderId) (method : StatusMethod) (exchangeId : ExchangeId)
  deriving DecidableEq, Repr

abbrev Reply : Request → Type
  | .balance _ => Option ℚ
  | .gasPrice _ => Option ℚ
  | .createAndPostOrder .. => Except CallError Response
  | .sleep _ => Unit
  | .cancel .. => Except CallError Unit
  | .status .. => StatusReply

/-- The local order a request is made for. -/
def Request.order : Request → OrderId
  | .balance order | .gasPrice order | .sleep order => order
  | .createAndPostOrder order _ _ _ _ => order
  | .cancel order _ => order
  | .status order _ _ => order

/-! ### Order ids in responses -/

/-- A truthy value used as an exchange order id. -/
def PyValue.asExchangeId : PyValue → Option ExchangeId
  | .none | .bool false => Option.none
  | .bool true => some "True"
  | .num q => if q = 0 then Option.none else some (toString q)
  | .text s => if s = "" then Option.none else some s

def Response.get? : Response → String → Option PyValue
  | .dict fields, key => fields.lookup key
  | .other, _ => Option.none

/-- The exchange order id of a response: `orderID`, or else `order_id`. -/
def Response.exchangeId? (r : Response) : Option ExchangeId :=
  ((r.get? "orderID").bind PyValue.asExchangeId).or
    ((r.get? "order_id").bind PyValue.asExchangeId)

/-! ### Status rows -/

structure StatusRow where
  status : String
  filledSizeUsdc : ℚ
  averageFillPrice : Option ℚ
  deriving DecidableEq, Repr

/-- A run of digits, with single underscores between digits: its value, its length, the rest. -/
def readDigits : List Char → ℕ → ℕ → ℕ × ℕ × List Char
  | c :: rest, value, count =>
    if c.isDigit then readDigits rest (10 * value + (c.toNat - '0'.toNat)) (count + 1)
    else if c = '_' ∧ count ≠ 0 ∧ rest.head?.any Char.isDigit then readDigits rest value count
    else (value, count, c :: rest)
  | [], value, count => (value, count, [])

def readSign : List Char → ℚ × List Char
  | '-' :: rest => (-1, rest)
  | '+' :: rest => (1, rest)
  | rest => (1, rest)

/-- The exponent part of a decimal literal, if the text ends there. -/
def readExponent : List Char → Option ℤ
  | [] => some 0
  | c :: rest =>
    if c = 'e' ∨ c = 'E' then
      let (sign, rest) := readSign rest
      match readDigits rest 0 0 with
      | (_, 0, _) => Option.none
      | (value, _, []) => some (sign.num * value)
      | _ => Option.none
    else Option.none

/-- `float(s)` on the finite decimal literals. -/
def parseFloat (s : String) : Option ℚ :=
  let (sign, rest) := readSign s.trimAscii.toString.toList
  let (whole, wholeDigits, rest) := readDigits rest 0 0
  let (fraction, fractionDigits, rest) :=
    match rest with
    | '.' :: rest => readDigits rest 0 0
    | rest => (0, 0, rest)
  if wholeDigits + fractionDigits = 0 then Option.none
  else
    (readExponent rest).map fun exponent =>
      sign * (whole + fraction / 10 ^ fractionDigits) * (10 : ℚ) ^ exponent

/-- `float(v)`; `none` where it raises. -/
def PyValue.toFloat : PyValue → Option ℚ
  | .none => Option.none
  | .bool b => some (if b then 1 else 0)
  | .num q => some q
  | .text s => parseFloat s

/-- `str(v)`. -/
def PyValue.toStr : PyValue → String
  | .none => "None"
  | .bool b => if b then "True" else "False"
  | .num q => toString q
  | .text s => s

def statusFields : List String := ["status", "state", "order_status"]

def filledFields : List String := ["size_matched", "filled_size", "filled", "filled_size_usdc"]

def avgPriceFields : List String := ["avg_price", "average_price", "price"]

/-- The value of the first of `keys` that the response has. -/
def Response.firstPresent (r : Response) (keys : List String) : Option PyValue :=
  keys.findSome? r.get?

/-- The value of the first of `keys` that the response has with a value other than `None`. -/
def Response.firstValue (r : Response) (keys : List String) : Option PyValue :=
  keys.findSome? fun key => (r.get? key).filter (· ≠ .none)

/-- `_parse_live_status_response`. -/
def parseLiveStatusResponse (r : Response) : Option StatusRow :=
  match r.firstPresent statusFields with
  | Option.none | some .none => Option.none
  | some status =>
    some
      { status := status.toStr.toLower
        filledSizeUsdc := ((r.firstValue filledFields).bind PyValue.toFloat).getD 0
        averageFillPrice := (r.firstValue avgPriceFields).bind PyValue.toFloat }

namespace StatusRow

/-- The row's status is one of the two spellings of cancelled. -/
def isCancelled (row : StatusRow) : Bool :=
  row.status.toLower = "cancelled" || row.status.toLower = "canceled"

def isExpired (row : StatusRow) : Bool := row.status.toLower = "expired"

end StatusRow
end PolyCortex
