import PolyCortex.Data.Levels
import PolyCortex.Execution.Order

/-!
# The items of a page of markets

`_parse_market` of the Gamma client, with the errors that it raises. Two fields are JSON inside of a
text, and may hold a value of any type; the conversions to floats are guarded, but only against some
errors, and what is done with the two fields is not. An error that leaves the loop of `get_markets` takes
all markets with it, so that every item has to be digestible (`getMarkets_eq_ok_iff`).
-/

namespace PolyCortex.MarketItems

/-- The standard library: `json.loads` of a text, and `datetime.fromisoformat`, `none` for a
`ValueError`. -/
structure Library extends PyConversions where
  loads : String → Except PyError PersistedValue
  fromIsoFormat : String → Option Time

/-- A market; the texts are whatever JSON value the API gave. -/
structure Market where
  conditionId : PersistedValue
  question : PersistedValue
  description : PersistedValue
  category : PersistedValue
  endDate : Option Time
  active : Bool
  liquidity : PyFloat
  volume24h : PyFloat
  yesPrice : PyFloat
  noPrice : PyFloat
  clobTokenIds : List String

variable (lib : Library)

/-- `_parse_json_field`; what is no text cannot be decoded. -/
def parseJsonField : PersistedValue → Except ReadError PersistedValue
  | .arr items => .ok (.arr items)
  | .str s =>
    match lib.loads s with
    | .ok value => .ok value
    | .error e => if e = .jsonDecodeError ∨ e = .typeError then .ok (.arr []) else .error (.raised e)
  | _ => .ok (.arr [])

/-- `except (ValueError, TypeError)` around a conversion, with what stands for its result. -/
def orElse {α : Type} (other : α) (result : Except PyError α) : Except ReadError α :=
  match result with
  | .ok a => .ok a
  | .error e => if (ReadError.raised e).skipped then .ok other else .error (.raised e)

/-- The first two prices, `none` when `len(prices)` is less than two. -/
def firstTwo : PersistedValue → Except ReadError (Option (PersistedValue × PersistedValue))
  | .arr (yes :: no :: _) => .ok (some (yes, no))
  | .arr _ => .ok none
  | .str s =>
    match s.toList with
    | yes :: no :: _ => .ok (some (.str yes.toString, .str no.toString))
    | _ => .ok none
  | .obj fields => if 2 ≤ fields.length then .error (.raised .keyError) else .ok none
  | _ => .error (.raised .typeError)

/-- `float(prices[0]), float(prices[1])`. -/
def twoFloats (yes no : PersistedValue) : Except PyError (PyFloat × PyFloat) := do
  let yesPrice ← yes.toFloat lib.toPyConversions
  let noPrice ← no.toFloat lib.toPyConversions
  pure (yesPrice, noPrice)

/-- `_parse_outcome_prices`. -/
def parseOutcomePrices (raw : PersistedValue) : Except ReadError (PyFloat × PyFloat) := do
  let prices ← parseJsonField lib raw
  match ← firstTwo prices with
  | some (yes, no) => orElse (.finite 0, .finite 0) (twoFloats lib yes no)
  | none => pure (.finite 0, .finite 0)

/-- `end_date`: an `AttributeError` of what is no text is suppressed. -/
def parseEndDate : PersistedValue → Option Time
  | .str s => if s = "" then none else lib.fromIsoFormat (s.replace "Z" "+00:00")
  | _ => none

/-- `liquidity` and `volume_24h`. -/
def parseFloat (value : PersistedValue) : Except ReadError PyFloat :=
  orElse (.finite 0) (value.toFloat lib.toPyConversions)

/-- The value of the liquidity. -/
def liquidityOf (fields : List (String × PersistedValue)) : PersistedValue :=
  (field fields "liquidity").or (.int 0)

/-- The value of the volume. -/
def volumeOf (fields : List (String × PersistedValue)) : PersistedValue :=
  ((field fields "volume24hr").or (field fields "volume")).or (.int 0)

/-- `_parse_market` of an object with tokens. -/
def parseTokens (fields : List (String × PersistedValue)) (clobTokenIds : PersistedValue) :
    Except ReadError (Option Market) := do
  let endDate := parseEndDate lib (field fields "endDate")
  let (yesPrice, noPrice) ← parseOutcomePrices lib (field fields "outcomePrices")
  let category := ((field fields "groupItemTitle").or (field fields "category")).or (.str "")
  let liquidity ← parseFloat lib (liquidityOf fields)
  let volume24h ← parseFloat lib (volumeOf fields)
  let tokens ← clobTokenIds.iterate.mapError .raised
  pure (some
    { conditionId := (fields.lookup "conditionId").getD (.str "")
      question := (fields.lookup "question").getD (.str "")
      description := (fields.lookup "description").getD (.str "")
      category
      endDate
      active := (field fields "active").truthy
      liquidity
      volume24h
      yesPrice
      noPrice
      clobTokenIds := tokens.map (·.toStr lib.toPyConversions) })

/-- `_parse_market`: `none` when the market is rejected. -/
def parseMarket : PersistedValue → Except ReadError (Option Market)
  | .obj fields => do
    let clobTokenIds ← parseJsonField lib (field fields "clobTokenIds")
    if clobTokenIds.truthy then parseTokens lib fields clobTokenIds else pure none
  | _ => .error .attributeError

/-- The loop over the items of a page. -/
def parseItems : List PersistedValue → Except ReadError (List Market)
  | [] => .ok []
  | item :: items => do
    let market ← parseMarket lib item
    let markets ← parseItems items
    pure (market.toList ++ markets)

/-- `get_markets`, with what the cache has and the response to the request. -/
def getMarkets (cached : Option (List Market)) (response : Option PersistedValue) :
    Except ReadError (List Market) :=
  match cached, response with
  | some markets, _ => .ok markets
  | none, some (.arr items) => parseItems lib items
  | none, _ => .ok []

/-! ### What can be digested -/

/-- A text fails to decode in no way that is not caught. -/
def Decodes : PersistedValue → Prop
  | .str s => ∀ e, lib.loads s = .error e → e = .jsonDecodeError ∨ e = .typeError
  | _ => True

/-- What a field holds, as it is or as JSON. -/
def decoded : PersistedValue → PersistedValue
  | .arr items => .arr items
  | .str s => (lib.loads s).toOption.getD (.arr [])
  | _ => .arr []

/-- The prices have a length, and no price that is converted is too large for a float. -/
def DigestiblePrices : PersistedValue → Prop
  | .arr (yes :: no :: _) =>
    yes.overflows = false ∧ ((yes.toFloat lib.toPyConversions).isOk = true → no.overflows = false)
  | .arr _ | .str _ => True
  | .obj fields => fields.length < 2
  | _ => False

/-- An object whose fields decode; when it has tokens, they can be gone through, the prices are
digestible, and no other number that is read is too large for a float. -/
def Digestible : PersistedValue → Prop
  | .obj fields =>
    Decodes lib (field fields "clobTokenIds") ∧
      ((decoded lib (field fields "clobTokenIds")).truthy = true →
        (decoded lib (field fields "clobTokenIds")).iterate.isOk = true ∧
        Decodes lib (field fields "outcomePrices") ∧
        DigestiblePrices lib (decoded lib (field fields "outcomePrices")) ∧
        (liquidityOf fields).overflows = false ∧ (volumeOf fields).overflows = false)
  | _ => False

/-- What is parsed of an item; a malformed one gives nothing. -/
def marketOf (item : PersistedValue) : Option Market := (parseMarket lib item).toOption.bind id

/-- The markets of the items that are well formed. -/
def wellFormed (items : List PersistedValue) : List Market := items.filterMap (marketOf lib)

variable {lib}

/-! ### Fields -/

lemma parseJsonField_isOk {raw : PersistedValue} :
    (parseJsonField lib raw).isOk = true ↔ Decodes lib raw := by
  cases raw with
  | str s =>
    rw [parseJsonField]
    cases hloads : lib.loads s with
    | ok value => simp [Decodes, hloads, isOk_iff]
    | error e => by_cases hcaught : e = .jsonDecodeError ∨ e = .typeError <;>
        simp [Decodes, hloads, isOk_iff, hcaught]
  | _ => simp [parseJsonField, Decodes, isOk_iff]

lemma eq_decoded {raw value : PersistedValue} (h : parseJsonField lib raw = .ok value) :
    value = decoded lib raw := by
  cases raw with
  | str s =>
    rw [parseJsonField] at h
    rw [decoded]
    cases hloads : lib.loads s with
    | ok value' =>
      rw [hloads] at h
      exact (Except.ok.inj h).symm
    | error e =>
      rw [hloads] at h
      dsimp only at h
      split_ifs at h
      exact (Except.ok.inj h).symm
  | _ => exact (Except.ok.inj h).symm

lemma parseJsonField_eq_ok {raw value : PersistedValue} :
    parseJsonField lib raw = .ok value ↔ Decodes lib raw ∧ value = decoded lib raw := by
  constructor
  · intro h
    exact ⟨parseJsonField_isOk.mp (isOk_iff.mpr ⟨value, h⟩), eq_decoded h⟩
  · rintro ⟨hdecodes, rfl⟩
    obtain ⟨value, h⟩ := isOk_iff.mp (parseJsonField_isOk.mpr hdecodes)
    rw [h, eq_decoded h]

/-- A conversion raises what is not caught just when the number is too large. -/
lemma parseFloat_isOk {value : PersistedValue} :
    (parseFloat lib value).isOk = true ↔ value.overflows = false := by
  rw [parseFloat]
  cases hfloat : value.toFloat lib.toPyConversions with
  | ok x => simp [orElse, isOk_iff, toFloat_ok hfloat]
  | error e => cases hover : value.overflows <;> simp [orElse, isOk_iff, toFloat_error hfloat, hover]

lemma orElse_twoFloats_isOk {yes no : PersistedValue} {other : PyFloat × PyFloat} :
    (orElse other (twoFloats lib yes no)).isOk = true ↔ yes.overflows = false ∧
      ((yes.toFloat lib.toPyConversions).isOk = true → no.overflows = false) := by
  rw [twoFloats]
  cases hyes : yes.toFloat lib.toPyConversions with
  | error e =>
    cases hover : yes.overflows <;>
      simp [orElse, bind, Except.bind, isOk_iff, toFloat_error hyes, hover]
  | ok x =>
    cases hno : no.toFloat lib.toPyConversions with
    | error e =>
      cases hover : no.overflows <;>
        simp [orElse, bind, Except.bind, isOk_iff, toFloat_ok hyes, toFloat_error hno, hover]
    | ok y => simp [orElse, bind, Except.bind, pure, Except.pure, isOk_iff, toFloat_ok hyes, toFloat_ok hno]

/-- The prices that are converted, if there are two. -/
def parsePair (lib : Library) :
    Option (PersistedValue × PersistedValue) → Except ReadError (PyFloat × PyFloat)
  | some (yes, no) => orElse (.finite 0, .finite 0) (twoFloats lib yes no)
  | none => pure (.finite 0, .finite 0)

lemma parseOutcomePrices_eq (raw : PersistedValue) :
    parseOutcomePrices lib raw =
      parseJsonField lib raw >>= fun prices => firstTwo prices >>= parsePair lib := by
  rw [parseOutcomePrices]
  congr 1

lemma digestiblePrices_iff {prices : PersistedValue} :
    (firstTwo prices >>= parsePair lib).isOk = true ↔ DigestiblePrices lib prices := by
  cases prices with
  | arr items =>
    match items with
    | [] | [_] => simp [firstTwo, parsePair, DigestiblePrices, isOk_bind]
    | yes :: no :: rest =>
      simp [firstTwo, parsePair, DigestiblePrices, isOk_bind, orElse_twoFloats_isOk]
  | str s =>
    match hchars : s.toList with
    | [] | [_] => simp [firstTwo, hchars, parsePair, DigestiblePrices, isOk_bind]
    | yes :: no :: rest =>
      simp [firstTwo, hchars, parsePair, DigestiblePrices, isOk_bind, orElse_twoFloats_isOk,
        PersistedValue.overflows]
  | obj fields =>
    by_cases htwo : 2 ≤ fields.length
    · simp [firstTwo, htwo, DigestiblePrices, isOk_bind, one_lt_two.trans_le htwo]
    · simp [firstTwo, htwo, parsePair, DigestiblePrices, isOk_bind, not_le.mp htwo]
  | _ => simp [firstTwo, DigestiblePrices, isOk_bind]

lemma parseOutcomePrices_isOk {raw : PersistedValue} :
    (parseOutcomePrices lib raw).isOk = true ↔
      Decodes lib raw ∧ DigestiblePrices lib (decoded lib raw) := by
  rw [parseOutcomePrices_eq, isOk_bind]
  simp only [parseJsonField_eq_ok, digestiblePrices_iff, and_assoc, exists_and_left, exists_eq_left]

/-! ### Items -/

lemma parseTokens_isOk {fields : List (String × PersistedValue)} {clobTokenIds : PersistedValue} :
    (parseTokens lib fields clobTokenIds).isOk = true ↔
      (Decodes lib (field fields "outcomePrices") ∧
        DigestiblePrices lib (decoded lib (field fields "outcomePrices"))) ∧
      (liquidityOf fields).overflows = false ∧ (volumeOf fields).overflows = false ∧
      clobTokenIds.iterate.isOk = true := by
  rw [parseTokens, isOk_bind_const, parseOutcomePrices_isOk]
  intro prices
  rw [isOk_bind_const, parseFloat_isOk]
  intro liquidity
  rw [isOk_bind_const, parseFloat_isOk]
  intro volume24h
  rw [isOk_bind_const (P := True), isOk_mapError, and_true]
  intro tokens
  simp

lemma parseMarket_isOk {item : PersistedValue} :
    (parseMarket lib item).isOk = true ↔ Digestible lib item := by
  cases item with
  | obj fields =>
    rw [parseMarket, isOk_bind, Digestible]
    simp only [parseJsonField_eq_ok, and_assoc, exists_and_left, exists_eq_left]
    apply and_congr_right
    intro _
    split_ifs with htruthy
    · rw [parseTokens_isOk]
      simp only [htruthy, true_imp_iff]
      tauto
    · simp [htruthy]
  | _ => simp [parseMarket, Digestible, isOk_iff]

lemma parseItems_isOk {items : List PersistedValue} :
    (parseItems lib items).isOk = true ↔ ∀ item ∈ items, Digestible lib item := by
  induction items with
  | nil => simp [parseItems, isOk_iff]
  | cons item items ih =>
    rw [parseItems, isOk_bind_const, parseMarket_isOk, List.forall_mem_cons]
    intro market
    rw [isOk_bind_const (P := True), and_true, ih]
    intro markets
    simp

/-- What the loop returns are the markets of the items that are well formed. -/
lemma eq_wellFormed {items : List PersistedValue} {markets : List Market}
    (h : parseItems lib items = .ok markets) : markets = wellFormed lib items := by
  induction items generalizing markets with
  | nil => exact (Except.ok.inj h).symm
  | cons item items ih =>
    rw [parseItems] at h
    cases hmarket : parseMarket lib item with
    | error e => simp [hmarket, bind, Except.bind] at h
    | ok market =>
      cases hitems : parseItems lib items with
      | error e => simp [hmarket, hitems, bind, Except.bind] at h
      | ok rest =>
        rw [hmarket, hitems] at h
        obtain rfl : market.toList ++ rest = markets := Except.ok.inj h
        have hitem : marketOf lib item = market := by simp [marketOf, hmarket, Except.toOption]
        rw [ih hitems, wellFormed, wellFormed, List.filterMap_cons, hitem]
        cases market <;> rfl

/-- The markets are those of the well formed items just when all items are digestible; an item that is
not takes all of them with it. -/
theorem getMarkets_eq_ok_iff (lib : Library) (items : List PersistedValue) :
    getMarkets lib none (some (.arr items)) = .ok (wellFormed lib items) ↔
      ∀ item ∈ items, Digestible lib item := by
  rw [getMarkets, ← parseItems_isOk, isOk_iff]
  constructor
  · exact fun h => ⟨_, h⟩
  · rintro ⟨markets, h⟩
    rw [h, eq_wellFormed h]

/-- The texts of one market, and of one with a single price. -/
def twoTexts : Library where
  toPyConversions := .noTexts
  loads s :=
    if s = "[\"1\"]" then .ok (.arr [.str "1"])
    else if s = "0.5" then .ok (.float (.finite (1 / 2)))
    else .error .jsonDecodeError
  fromIsoFormat _ := none

/-- A market without prices, and one whose prices are a number. -/
def singlePrice : List PersistedValue :=
  [.obj [("clobTokenIds", .str "[\"1\"]")],
    .obj [("clobTokenIds", .str "[\"1\"]"), ("outcomePrices", .str "0.5")]]

/-- The second one has no `len`, and takes the first one with it. -/
theorem not_getMarkets_singlePrice :
    getMarkets twoTexts none (some (.arr singlePrice)) ≠ .ok (wellFormed twoTexts singlePrice) := by
  intro h
  have hdigestible := parseItems_isOk.mp (isOk_iff.mpr ⟨_, h⟩)
  have hsecond := (hdigestible _ (List.mem_cons_of_mem _ List.mem_cons_self)).2 (by decide)
  exact hsecond.2.2.1

end PolyCortex.MarketItems
