import PolyCortex.Data.GammaClient
import PolyCortex.Data.MarketItems

/-!
# The two models of a market

`_parse_market` is modelled twice: over values whose numbers are rational, with no account of the errors
(`Gamma.parseMarket`), and over all values, with the errors (`MarketItems.parseMarket`). On the values of
the former the two agree (`parseMarket_ofJson`).
-/

namespace PolyCortex

open PersistedValue

/-- A value whose numbers are all finite floats. -/
def PersistedValue.ofJson : Json → PersistedValue
  | .null => .null
  | .bool b => .bool b
  | .num q => .float (.finite q)
  | .str s => .str s
  | .arr items => .arr (items.map ofJson)
  | .obj fields => .obj (fields.map fun field => (field.1, ofJson field.2))
decreasing_by
  all_goals
    have hmem := List.sizeOf_lt_of_mem ‹_ ∈ _›
    simp only [Json.arr.sizeOf_spec, Json.obj.sizeOf_spec]
  · omega
  · have hvalue : sizeOf field = 1 + sizeOf field.1 + sizeOf field.2 := by
      cases field
      simp
    omega

namespace MarketItems

/-- The library does the same on texts; a text that is no JSON is a `JSONDecodeError`. -/
structure Refines (lib : Library) (py : PyText) : Prop where
  loads : ∀ s, lib.loads s = ((py.loads s).map ofJson).elim (.error .jsonDecodeError) .ok
  float : ∀ s, lib.float s = (py.float s).map .finite
  fromIsoFormat : ∀ s, lib.fromIsoFormat s = py.fromIsoFormat s
  str : ∀ value, lib.str (ofJson value) = py.str value

/-- A market with finite numbers. -/
def ofMarket (market : Gamma.Market) : Market where
  conditionId := ofJson market.conditionId
  question := ofJson market.question
  description := ofJson market.description
  category := ofJson market.category
  endDate := market.endDate
  active := market.active
  liquidity := .finite market.liquidity
  volume24h := .finite market.volume24h
  yesPrice := .finite market.yesPrice
  noPrice := .finite market.noPrice
  clobTokenIds := market.clobTokenIds

variable {lib : Library} {py : PyText} {value : Json} {fields : List (String × Json)}

/-! ### Values -/

lemma toOption_eq_some {ε α : Type} {result : Except ε α} {a : α} :
    result.toOption = some a ↔ result = .ok a := by
  cases result <;> simp [Except.toOption]

lemma toOption_eq_none {ε α : Type} {result : Except ε α} :
    result.toOption = none ↔ ∃ e, result = .error e := by
  cases result <;> simp [Except.toOption]

@[simp] lemma truthy_ofJson (value : Json) : (ofJson value).truthy = value.truthy := by
  cases value <;> simp [ofJson, PersistedValue.truthy, Json.truthy]

@[simp] lemma or_ofJson (value other : Json) :
    (ofJson value).or (ofJson other) = ofJson (value.or other) := by
  rw [PersistedValue.or, truthy_ofJson, Json.or]
  split_ifs <;> rfl

lemma lookup_ofJson (fields : List (String × Json)) (key : String) :
    (fields.map fun field => (field.1, ofJson field.2)).lookup key = (fields.lookup key).map ofJson := by
  induction fields with
  | nil => rfl
  | cons field fields ih =>
    rw [List.map_cons, List.lookup_cons, List.lookup_cons, ih]
    split <;> rfl

lemma field_ofJson (fields : List (String × Json)) (key : String) :
    field (fields.map fun field => (field.1, ofJson field.2)) key = ofJson (Json.get key fields) := by
  rw [field, lookup_ofJson, Json.get]
  cases fields.lookup key <;> simp [ofJson]

lemma getD_ofJson (fields : List (String × Json)) (key : String) (other : Json) :
    ((fields.map fun field => (field.1, ofJson field.2)).lookup key).getD (ofJson other) =
      ofJson ((fields.lookup key).getD other) := by
  rw [lookup_ofJson]
  cases fields.lookup key <;> rfl

lemma toOption_iterate_ofJson (value : Json) :
    (ofJson value).iterate.toOption = value.iterate.map (List.map ofJson) := by
  cases value <;> simp [ofJson, PersistedValue.iterate, Json.iterate, Except.toOption]

/-- A conversion to a float fails for the same values, with an error that is skipped. -/
lemma toFloat_ofJson (h : Refines lib py) (value : Json) :
    (∃ q, value.float py = some q ∧ (ofJson value).toFloat lib.toPyConversions = .ok (.finite q)) ∨
      (value.float py = none ∧ ∃ e, (ofJson value).toFloat lib.toPyConversions = .error e ∧
        (ReadError.raised e).skipped = true) := by
  cases value with
  | null | arr | obj => exact Or.inr ⟨rfl, .typeError, by simp [ofJson, PersistedValue.toFloat], rfl⟩
  | bool b => exact Or.inl ⟨_, rfl, by simp [ofJson, PersistedValue.toFloat]⟩
  | num q => exact Or.inl ⟨q, rfl, by simp [ofJson, PersistedValue.toFloat]⟩
  | str s =>
    rcases hfloat : py.float s with - | q
    · refine Or.inr ⟨hfloat, .valueError, ?_, rfl⟩
      simp [ofJson, PersistedValue.toFloat, h.float, hfloat]
    · refine Or.inl ⟨q, hfloat, ?_⟩
      simp [ofJson, PersistedValue.toFloat, h.float, hfloat]

/-! ### Fields -/

lemma parseJsonField_ofJson (h : Refines lib py) (value : Json) :
    parseJsonField lib (ofJson value) = .ok (ofJson (Gamma.parseJsonField py value)) := by
  cases value with
  | str s =>
    rw [ofJson, parseJsonField, h.loads, Gamma.parseJsonField]
    cases py.loads s <;> simp [ofJson]
  | null | bool | num | arr | obj => simp [ofJson, parseJsonField, Gamma.parseJsonField]

lemma twoFloats_ofJson (h : Refines lib py) (yes no : Json) :
    orElse (.finite 0, .finite 0) (twoFloats lib (ofJson yes) (ofJson no)) =
      .ok (.finite (Gamma.pricesOf py yes no).1, .finite (Gamma.pricesOf py yes no).2) := by
  rw [twoFloats, Gamma.pricesOf]
  rcases toFloat_ofJson h yes with ⟨y, hy, hyes⟩ | ⟨hy, e, hyes, hskipped⟩
  · rcases toFloat_ofJson h no with ⟨n, hn, hno⟩ | ⟨hn, e, hno, hskipped⟩
    · simp [hyes, hno, hy, hn, orElse, bind, Except.bind, pure, Except.pure]
    · simp [hyes, hno, hy, hn, orElse, bind, Except.bind, hskipped]
  · simp [hyes, hy, orElse, bind, Except.bind, hskipped]

/-- The prices with finite numbers. -/
def finitePrices (prices : ℚ × ℚ) : PyFloat × PyFloat := (.finite prices.1, .finite prices.2)

lemma parseOutcomePrices_ofJson (h : Refines lib py) (value : Json) :
    (parseOutcomePrices lib (ofJson value)).toOption =
      (Gamma.parseOutcomePrices py value).map finitePrices := by
  rw [parseOutcomePrices, parseJsonField_ofJson h, Gamma.parseOutcomePrices]
  simp only [bind, Except.bind]
  cases Gamma.parseJsonField py value with
  | null | bool | num => simp [ofJson, firstTwo, Except.toOption]
  | arr items =>
    rcases items with - | ⟨yes, - | ⟨no, rest⟩⟩
    · simp [ofJson, firstTwo, Except.toOption, finitePrices, pure, Except.pure]
    · simp [ofJson, firstTwo, Except.toOption, finitePrices, pure, Except.pure]
    · simp [ofJson, firstTwo, twoFloats_ofJson h, Except.toOption, finitePrices]
  | str s =>
    simp only [ofJson, firstTwo]
    rcases s.toList with - | ⟨yes, - | ⟨no, rest⟩⟩
    · simp [Except.toOption, finitePrices, pure, Except.pure]
    · simp [Except.toOption, finitePrices, pure, Except.pure]
    · have htwo := twoFloats_ofJson h (.str yes.toString) (.str no.toString)
      simp only [ofJson] at htwo
      simp only [htwo, Except.toOption, finitePrices, Option.map_some]
  | obj fields =>
    by_cases hlength : 2 ≤ fields.length
    · simp [ofJson, firstTwo, hlength, Except.toOption]
    · simp [ofJson, firstTwo, hlength, Except.toOption, finitePrices, pure, Except.pure]

/-- A number with the default 0. -/
lemma parseFloat_ofJson (h : Refines lib py) (value : Json) :
    parseFloat lib ((ofJson value).or (.int 0)) =
      .ok (.finite (((value.or (.num 0)).float py).getD 0)) := by
  rw [PersistedValue.or, truthy_ofJson, Json.or]
  split_ifs
  · rw [parseFloat]
    rcases toFloat_ofJson h value with ⟨q, hq, hfloat⟩ | ⟨hq, e, hfloat, hskipped⟩
    · simp [hfloat, hq, orElse]
    · simp [hfloat, hq, orElse, hskipped]
  · have hzero : (PersistedValue.int 0).toFloat lib.toPyConversions = .ok (.finite 0) := by
      rw [PersistedValue.toFloat, if_pos]
      · simp
      · rw [abs_zero, floatOverflow, sub_pos]
        exact pow_lt_pow_right₀ one_lt_two (by norm_num)
    simp [parseFloat, hzero, orElse, Json.float]

lemma parseEndDate_ofJson (h : Refines lib py) (value : Json) :
    parseEndDate lib (ofJson value) = Gamma.parseEndDate py value := by
  cases value <;> simp [ofJson, parseEndDate, Gamma.parseEndDate, h.fromIsoFormat]

lemma toStr_ofJson (h : Refines lib py) (value : Json) :
    (ofJson value).toStr lib.toPyConversions = value.toStr py := by
  cases value with
  | str s => simp [ofJson, PersistedValue.toStr, Json.toStr]
  | null | bool | num | arr | obj =>
    rw [Json.toStr, ← h.str]
    · simp [ofJson, PersistedValue.toStr]
    · simp

/-! ### Markets -/

lemma parseFloat_liquidity (h : Refines lib py) (fields : List (String × Json)) :
    parseFloat lib (liquidityOf (fields.map fun field => (field.1, ofJson field.2))) =
      .ok (.finite ((((Json.get "liquidity" fields).or (.num 0)).float py).getD 0)) := by
  rw [liquidityOf, field_ofJson, parseFloat_ofJson h]

lemma parseFloat_volume (h : Refines lib py) (fields : List (String × Json)) :
    parseFloat lib (volumeOf (fields.map fun field => (field.1, ofJson field.2))) =
      .ok (.finite (((((Json.get "volume24hr" fields).or (Json.get "volume" fields)).or
        (.num 0)).float py).getD 0)) := by
  rw [volumeOf, field_ofJson, field_ofJson, or_ofJson, parseFloat_ofJson h]

/-- An item is a market, is rejected, or raises in both models. -/
theorem parseMarket_ofJson (h : Refines lib py) (item : Json) :
    (parseMarket lib (ofJson item)).toOption = (Gamma.parseMarket py item).map (Option.map ofMarket) := by
  cases item with
  | null | bool | num | str | arr => simp [ofJson, parseMarket, Gamma.parseMarket, Except.toOption]
  | obj fields =>
    have hempty : PersistedValue.str "" = ofJson (.str "") := by simp [ofJson]
    have hprices := parseOutcomePrices_ofJson h (Json.get "outcomePrices" fields)
    have htokens := toOption_iterate_ofJson (Gamma.parseJsonField py (Json.get "clobTokenIds" fields))
    rw [ofJson, parseMarket, Gamma.parseMarket, field_ofJson, parseJsonField_ofJson h]
    simp only [bind, Except.bind, truthy_ofJson]
    split_ifs
    · rw [parseTokens]
      simp only [parseFloat_liquidity h, parseFloat_volume h, field_ofJson, bind, Except.bind, pure,
        Except.pure, hempty, getD_ofJson, or_ofJson, truthy_ofJson, parseEndDate_ofJson h]
      rcases hcoarse : Gamma.parseOutcomePrices py (Json.get "outcomePrices" fields) with - | prices
      · obtain ⟨e, he⟩ := toOption_eq_none.mp (hprices.trans (by rw [hcoarse, Option.map_none]))
        simp [he, Except.toOption]
      · have hok := toOption_eq_some.mp (hprices.trans (by rw [hcoarse, Option.map_some]))
        rcases hitems : (Gamma.parseJsonField py (Json.get "clobTokenIds" fields)).iterate with - | tokens
        · obtain ⟨e, he⟩ := toOption_eq_none.mp (htokens.trans (by rw [hitems, Option.map_none]))
          simp [hok, he, Except.mapError, Except.toOption]
        · have htokens := toOption_eq_some.mp (htokens.trans (by rw [hitems, Option.map_some]))
          simp [hok, htokens, Except.mapError, Except.toOption, finitePrices, ofMarket, toStr_ofJson h]
    · rfl

theorem parseItems_ofJson (h : Refines lib py) (items : List Json) :
    (parseItems lib (items.map ofJson)).toOption = (Gamma.parseItems py items).map (List.map ofMarket) := by
  induction items with
  | nil => rfl
  | cons item items ih =>
    have hitem := parseMarket_ofJson h item
    rw [List.map_cons, parseItems, Gamma.parseItems]
    simp only [bind, Except.bind, pure, Except.pure]
    rcases hcoarse : Gamma.parseMarket py item with - | market
    · obtain ⟨e, he⟩ := toOption_eq_none.mp (hitem.trans (by rw [hcoarse, Option.map_none]))
      simp [he, Except.toOption]
    · have hok := toOption_eq_some.mp (hitem.trans (by rw [hcoarse, Option.map_some]))
      rcases hrest : Gamma.parseItems py items with - | markets
      · obtain ⟨e, he⟩ := toOption_eq_none.mp (ih.trans (by rw [hrest, Option.map_none]))
        simp [hok, he, Except.toOption]
      · have hmarkets := toOption_eq_some.mp (ih.trans (by rw [hrest, Option.map_some]))
        cases market <;> simp [hok, hmarkets, Except.toOption]

end MarketItems
end PolyCortex
