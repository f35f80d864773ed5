import PolyCortex.Data.Dict
import PolyCortex.Data.Json

/-!
# The Gamma client

`GammaClient`: the markets of the API are fetched page by page, with retries, parsed one by one, and
cached, the pages and the whole list alike. A network says how each attempt of each request goes and
how long it takes; a request is made at most once in a run of `get_all_markets`.
-/

namespace PolyCortex.Gamma

/-- A market; the texts are whatever JSON value the API gave. -/
structure Market where
  conditionId : Json
  question : Json
  description : Json
  category : Json
  endDate : Option Time
  active : Bool
  liquidity : ℚ
  volume24h : ℚ
  yesPrice : ℚ
  noPrice : ℚ
  clobTokenIds : List String

/-- How a call ends; a loop whose fuel is used up is unfinished. -/
inductive Outcome (α : Type) where
  | returned (a : α)
  | raised
  | unfinished
  deriving DecidableEq

/-! ### The cache -/

/-- The keys of the cache: of a page, and of all markets. -/
inductive CacheKey where
  | markets (active closed : Bool) (limit offset : ℕ)
  | allMarkets (active closed : Bool)
  deriving DecidableEq

/-- `_TTLCache`. -/
structure TTLCache where
  defaultTtl : ℚ := 300
  maxSize : ℕ := 1000
  store : Dict CacheKey (ℚ × List Market) := .empty
  hits : ℕ := 0
  misses : ℕ := 0

namespace TTLCache

/-- `get`, at the time `now`. -/
def get (key : CacheKey) (now : ℚ) (cache : TTLCache) : Option (List Market) × TTLCache :=
  match cache.store.get? key with
  | none => (none, { cache with misses := cache.misses + 1 })
  | some (expiresAt, value) =>
    if expiresAt < now then
      (none, { cache with store := cache.store.filter fun k _ => k ≠ key, misses := cache.misses + 1 })
    else (some value, { cache with hits := cache.hits + 1 })

/-- `_evict_expired`. -/
def evictExpired (now : ℚ) (cache : TTLCache) : TTLCache :=
  { cache with store := cache.store.filter fun _ entry => ¬ entry.1 < now }

/-- `set`. -/
def set (key : CacheKey) (value : List Market) (ttl : Option ℚ) (now : ℚ) (cache : TTLCache) : TTLCache :=
  let cache := if cache.maxSize ≤ cache.store.keys.length then cache.evictExpired now else cache
  { cache with store := cache.store.set key (now + ttl.getD cache.defaultTtl, value) }

end TTLCache

/-! ### Parsing -/

section Parse

variable (py : PyText)

/-- `_parse_json_field`; the text may hold any JSON value. -/
def parseJsonField : Json → Json
  | .arr items => .arr items
  | .str s => (py.loads s).getD (.arr [])
  | _ => .arr []

/-- The two prices, 0 when one of them is no number. -/
def pricesOf (yes no : Json) : ℚ × ℚ :=
  match yes.float py, no.float py with
  | some yesPrice, some noPrice => (yesPrice, noPrice)
  | _, _ => (0, 0)

/-- `_parse_outcome_prices`; `none` when it raises, for a value without a length or an object. -/
def parseOutcomePrices (raw : Json) : Option (ℚ × ℚ) :=
  match parseJsonField py raw with
  | .arr (yes :: no :: _) => some (pricesOf py yes no)
  | .arr _ => some (0, 0)
  | .str s =>
    match s.toList with
    | yes :: no :: _ => some (pricesOf py (.str yes.toString) (.str no.toString))
    | _ => some (0, 0)
  | .obj fields => if 2 ≤ fields.length then none else some (0, 0)
  | _ => none

/-- `end_date`. -/
def parseEndDate : Json → Option Time
  | .str s => if s = "" then none else py.fromIsoFormat (s.replace "Z" "+00:00")
  | _ => none

/-- `_parse_market`: `none` when it raises, `some none` when the market is rejected. -/
def parseMarket : Json → Option (Option Market)
  | .obj data =>
    let clobTokenIds := parseJsonField py (Json.get "clobTokenIds" data)
    if clobTokenIds.truthy then
      match parseOutcomePrices py (Json.get "outcomePrices" data), clobTokenIds.iterate with
      | some (yesPrice, noPrice), some tokens =>
        some (some
          { conditionId := (data.lookup "conditionId").getD (.str "")
            question := (data.lookup "question").getD (.str "")
            description := (data.lookup "description").getD (.str "")
            category := ((Json.get "groupItemTitle" data).or (Json.get "category" data)).or (.str "")
            endDate := parseEndDate py (Json.get "endDate" data)
            active := (Json.get "active" data).truthy
            liquidity := (((Json.get "liquidity" data).or (.num 0)).float py).getD 0
            volume24h :=
              ((((Json.get "volume24hr" data).or (Json.get "volume" data)).or (.num 0)).float py).getD 0
            yesPrice
            noPrice
            clobTokenIds := tokens.map (·.toStr py) })
      | _, _ => none
    else some none
  | _ => none

/-- The loop over the items of a page; `none` when an item makes it raise. -/
def parseItems : List Json → Option (List Market)
  | [] => some []
  | item :: items =>
    (parseMarket py item).bind fun market => (parseItems items).map (market.toList ++ ·)

end Parse

/-! ### Requests -/

/-- How an attempt of a request goes. -/
inductive Attempt where
  | ok (body : Json)
  /-- Status 429, with a `Retry-After` that is a number, or without. -/
  | rateLimited (retryAfter : Option ℚ)
  /-- Status 500 and above. -/
  | serverError
  /-- An `aiohttp.ClientError`, as also other statuses from 400 on raise. -/
  | clientError
  /-- Any other status. -/
  | otherStatus
  /-- An exception that is not caught: a timeout, a body that is not JSON. -/
  | raises

/-- What the url of a page asks for. -/
structure PageQuery where
  active : Bool
  closed : Bool
  limit : ℕ
  offset : ℕ
  deriving DecidableEq

/-- The outcome of each attempt of a request, and its duration. -/
abbrev Network := PageQuery → ℕ → Attempt × ℚ

def maxRetries : ℕ := 3

def baseDelay : ℚ := 1

def backoff (attempt : ℕ) : ℚ := baseDelay * 2 ^ attempt

/-- `_request`, with some attempts left; the clock goes on while it waits. -/
def requestFrom (net : Network) (query : PageQuery) : ℕ → ℚ → Outcome (Option Json) × ℚ
  | 0, clock => (.returned none, clock)
  | left + 1, clock =>
    let attempt := maxRetries - (left + 1)
    let clock := clock + (net query attempt).2
    match (net query attempt).1 with
    | .ok body => (.returned (some body), clock)
    | .rateLimited retryAfter =>
      requestFrom net query left (clock + max (retryAfter.getD (backoff attempt)) 0)
    | .serverError => requestFrom net query left (clock + backoff attempt)
    | .clientError =>
      if attempt < maxRetries - 1 then requestFrom net query left (clock + backoff attempt)
      else (.returned none, clock)
    | .otherStatus => requestFrom net query left clock
    | .raises => (.raised, clock)

/-- `_request`. -/
def request (net : Network) (query : PageQuery) (clock : ℚ) : Outcome (Option Json) × ℚ :=
  requestFrom net query maxRetries clock

/-! ### Markets -/

/-- The client, and the clock. -/
structure Client where
  cache : TTLCache := {}
  clock : ℚ := 0

def Client.sleep (seconds : ℚ) (client : Client) : Client := { client with clock := client.clock + seconds }

/-- The items of a response; one that is empty or not a list counts as none. -/
def itemsOf : Option Json → List Json
  | some (.arr items) => items
  | _ => []

/-- `get_markets`. A response without items is not cached. -/
def getMarkets (py : PyText) (net : Network) (query : PageQuery) (client : Client) :
    Outcome (List Market) × Client :=
  let key := CacheKey.markets query.active query.closed query.limit query.offset
  let (cached, cache) := client.cache.get key client.clock
  match cached with
  | some markets => (.returned markets, { client with cache })
  | none =>
    match request net query client.clock with
    | (.returned response, clock) =>
      match itemsOf response with
      | [] => (.returned [], { cache, clock })
      | items =>
        match parseItems py items with
        | some markets => (.returned markets, { cache := cache.set key markets (some 300) clock, clock })
        | none => (.raised, { cache, clock })
    | (.raised, clock) => (.raised, { cache, clock })
    | (.unfinished, clock) => (.unfinished, { cache, clock })

/-- The `limit` of `get_all_markets`. -/
def pageLimit : ℕ := 100

/-- The loop of `get_all_markets`, from an offset on. -/
def fetchPages (py : PyText) (net : Network) (active closed : Bool) :
    ℕ → ℕ → List Market → Client → Outcome (List Market) × Client
  | 0, _, _, client => (.unfinished, client)
  | fuel + 1, offset, allMarkets, client =>
    match getMarkets py net ⟨active, closed, pageLimit, offset⟩ client with
    | (.returned batch, client) =>
      if batch.length < pageLimit then (.returned (allMarkets ++ batch), client)
      else
        fetchPages py net active closed fuel (offset + pageLimit) (allMarkets ++ batch)
          (client.sleep (1 / 2))
    | (.raised, client) => (.raised, client)
    | (.unfinished, client) => (.unfinished, client)

/-- `get_all_markets`. -/
def getAllMarkets (py : PyText) (net : Network) (active closed : Bool) (fuel : ℕ) (client : Client) :
    Outcome (List Market) × Client :=
  let key := CacheKey.allMarkets active closed
  let (cached, cache) := client.cache.get key client.clock
  match cached with
  | some markets => (.returned markets, { client with cache })
  | none =>
    match fetchPages py net active closed fuel 0 [] { client with cache } with
    | (.returned markets, client) =>
      (.returned markets,
        { client with cache := client.cache.set key markets (some 300) client.clock })
    | (.raised, client) => (.raised, client)
    | (.unfinished, client) => (.unfinished, client)

end PolyCortex.Gamma
