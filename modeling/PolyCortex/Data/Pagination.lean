import PolyCortex.Data.GammaClient

/-!
# Pagination

What `get_all_markets` returns, for a server that holds a list of items and answers a request for a page
with the items of the page, or fails. The loop stops at the first page on which fewer markets than the
limit were parsed: the last one, one that failed, or one with an item that is rejected.
-/

namespace PolyCortex.Gamma

variable {py : PyText} {net : Network} {active closed : Bool} {client : Client}

/-! ### The pages of a list -/

section Pages

variable (py : PyText) (items : List Json)

/-- The markets of some items, without the items that are rejected. -/
def accepted : List Market := items.filterMap fun item => (parseMarket py item).join

/-- No item makes the parser raise. -/
def Parsable : Prop := ∀ item ∈ items, (parseMarket py item).isSome = true

/-- The items from a page on. -/
def fromPage (k : ℕ) : List Json := items.drop (pageLimit * k)

/-- The items of a page. -/
def page (k : ℕ) : List Json := (fromPage items k).take pageLimit

/-- Fewer markets than the limit are parsed on the page. -/
def Short (k : ℕ) : Prop := (accepted py (page items k)).length < pageLimit

/-- What the loop gets of a page. -/
def received (fails : ℕ → Bool) (k : ℕ) : List Json := if fails k then [] else page items k

/-- What the loop collects, from a page on. -/
def collect (fails : ℕ → Bool) : ℕ → ℕ → Option (List Market)
  | 0, _ => none
  | fuel + 1, k =>
    let batch := accepted py (received items fails k)
    if batch.length < pageLimit then some batch else (collect fails fuel (k + 1)).map (batch ++ ·)

end Pages

section Lists

variable {items : List Json} {fails : ℕ → Bool} {k : ℕ}

lemma accepted_append (xs ys : List Json) : accepted py (xs ++ ys) = accepted py xs ++ accepted py ys :=
  List.filterMap_append

lemma length_accepted_le (xs : List Json) : (accepted py xs).length ≤ xs.length :=
  List.length_filterMap_le _ _

/-- A page and what comes after it. -/
lemma page_append_fromPage : page items k ++ fromPage items (k + 1) = fromPage items k := by
  rw [fromPage, Nat.mul_add, Nat.mul_one, ← List.drop_drop]
  exact List.take_append_drop _ _

lemma accepted_fromPage :
    accepted py (fromPage items k) =
      accepted py (page items k) ++ accepted py (fromPage items (k + 1)) := by
  rw [← accepted_append, page_append_fromPage]

/-- Where nothing is accepted, nothing is accepted later. -/
lemma accepted_fromPage_eq_nil {j : ℕ} (hjk : j ≤ k) (h : accepted py (fromPage items j) = []) :
    accepted py (fromPage items k) = [] := by
  induction hjk with
  | refl => exact h
  | step _ ih =>
    rw [accepted_fromPage, List.append_eq_nil_iff] at ih
    exact ih.2

/-- A page that is not short is full, so there are pages left. -/
lemma length_of_not_short (hfull : ¬ Short py items k) : pageLimit * (k + 1) ≤ items.length := by
  have hle := (not_lt.mp hfull).trans (length_accepted_le (page items k))
  rw [page, List.length_take, fromPage, List.length_drop] at hle
  have := Nat.mul_add pageLimit k 1
  unfold pageLimit at *
  omega

/-- The pages from `k` on drop no market: nothing is accepted from a page on that failed, or after one
that is short. -/
def Complete (py : PyText) (items : List Json) (fails : ℕ → Bool) (k : ℕ) : Prop :=
  ∀ j, k ≤ j → (fails j = true → accepted py (fromPage items j) = []) ∧
    (Short py items j → accepted py (fromPage items (j + 1)) = [])

lemma complete_of_nil (h : accepted py (fromPage items k) = []) : Complete py items fails k := by
  intro j hj
  exact ⟨fun _ => accepted_fromPage_eq_nil hj h,
    fun _ => accepted_fromPage_eq_nil (hj.trans (Nat.le_succ j)) h⟩

/-- With fuel for all pages the loop ends, with a prefix of the accepted markets. It is all of them
exactly when no market is dropped. -/
lemma collect_spec {fuel : ℕ} (hfuel : items.length < pageLimit * (k + fuel)) (hpos : 0 < fuel) :
    ∃ markets, collect py items fails fuel k = some markets ∧
      markets <+: accepted py (fromPage items k) ∧
      (markets = accepted py (fromPage items k) ↔ Complete py items fails k) := by
  induction fuel generalizing k with
  | zero => omega
  | succ fuel ih =>
    rw [collect, received]
    by_cases hfails : fails k = true
    · -- a page that failed
      rw [if_pos hfails]
      refine ⟨[], rfl, List.nil_prefix, ?_⟩
      constructor
      · exact fun h => complete_of_nil h.symm
      · exact fun h => ((h k le_rfl).1 hfails).symm
    · rw [if_neg hfails]
      by_cases hshort : Short py items k
      · -- the loop ends at this page
        refine ⟨_, if_pos hshort, ⟨_, accepted_fromPage.symm⟩, ?_⟩
        rw [accepted_fromPage, List.self_eq_append_right]
        constructor
        · intro hnil j hj
          rcases hj.eq_or_lt with rfl | hj
          · exact ⟨fun h => absurd h hfails, fun _ => hnil⟩
          · exact complete_of_nil hnil j hj
        · exact fun h => (h k le_rfl).2 hshort
      · -- a full page, and the pages after it
        have hlength := length_of_not_short hshort
        have hpos' : 0 < fuel := by
          by_contra! hzero
          obtain rfl := Nat.le_zero.mp hzero
          exact absurd hlength (not_le.mpr hfuel)
        obtain ⟨markets, hmarkets, hinitial, hiff⟩ :=
          ih (by rwa [show k + 1 + fuel = k + (fuel + 1) by omega]) hpos'
        refine ⟨accepted py (page items k) ++ markets, ?_, ?_, ?_⟩
        · refine (if_neg hshort).trans ?_
          rw [hmarkets]
          rfl
        · rw [accepted_fromPage]
          exact (List.prefix_append_right_inj _).mpr hinitial
        · rw [accepted_fromPage, List.append_cancel_left_eq, hiff]
          constructor
          · intro h j hj
            rcases hj.eq_or_lt with rfl | hj
            · exact ⟨fun h => absurd h hfails, fun h => absurd h hshort⟩
            · exact h j hj
          · exact fun h j hj => h j (Nat.le_of_succ_le hj)

lemma collect_all (py : PyText) (fails : ℕ → Bool) {fuel : ℕ} (hfuel : items.length < pageLimit * fuel) :
    ∃ markets, collect py items fails fuel 0 = some markets ∧ markets <+: accepted py items ∧
      (markets = accepted py items ↔ ∀ k, (fails k = true → accepted py (fromPage items k) = []) ∧
        (Short py items k → accepted py (fromPage items (k + 1)) = [])) := by
  have hpos : 0 < fuel := Nat.pos_of_mul_pos_left (Nat.zero_lt_of_lt hfuel)
  obtain ⟨markets, hcollect, hinitial, hiff⟩ := collect_spec (by rwa [zero_add]) hpos
  exact ⟨markets, hcollect, hinitial, hiff.trans ⟨fun h k => h k (Nat.zero_le k), fun h k _ => h k⟩⟩

lemma parseItems_eq (h : Parsable py items) : parseItems py items = some (accepted py items) := by
  induction items with
  | nil => rfl
  | cons item items ih =>
    obtain ⟨market, hmarket⟩ := Option.isSome_iff_exists.mp (h item List.mem_cons_self)
    rw [parseItems, hmarket, ih fun i hi => h i (List.mem_cons_of_mem _ hi)]
    cases market <;> simp [accepted, hmarket]

lemma Parsable.received (h : Parsable py items) (fails : ℕ → Bool) (k : ℕ) :
    Parsable py (received items fails k) := by
  intro item hitem
  by_cases hfails : fails k = true
  · simp [Gamma.received, hfails] at hitem
  · rw [Gamma.received, if_neg hfails] at hitem
    exact h item (List.mem_of_mem_drop (List.mem_of_mem_take hitem))

end Lists

/-! ### The cache -/

namespace TTLCache

variable {cache : TTLCache} {key : CacheKey} {now : ℚ} {markets : List Market} {ttl : Option ℚ}

lemma get_of_none (h : cache.store.get? key = none) :
    cache.get key now = (none, { cache with misses := cache.misses + 1 }) := by
  rw [get, h]

lemma get?_set_some (ttl : ℚ) :
    (cache.set key markets (some ttl) now).store.get? key = some (now + ttl, markets) := by
  rw [set]
  dsimp only
  split_ifs
  · rw [Dict.get?_set_self, Option.getD_some]
  · rw [Dict.get?_set_self, Option.getD_some]

lemma get?_set_of_none {key' : CacheKey} (hne : key' ≠ key) (h : cache.store.get? key' = none) :
    (cache.set key markets ttl now).store.get? key' = none := by
  rw [set]
  dsimp only
  rw [Dict.get?_set_of_ne _ hne]
  split_ifs
  · simp [evictExpired, h]
  · exact h

/-- A value that is found is returned until it expires. -/
lemma get_of_some {expiresAt : ℚ} (h : cache.store.get? key = some (expiresAt, markets))
    (hnow : now ≤ expiresAt) : (cache.get key now).1 = some markets := by
  rw [get, h]
  dsimp only
  rw [if_neg (not_lt.mpr hnow)]

end TTLCache

/-! ### The loop -/

/-- The server holds the items: the request for a page is answered with the items of the page, or it fails
in all attempts. -/
def Serves (net : Network) (active closed : Bool) (items : List Json) (fails : ℕ → Bool) : Prop :=
  ∀ k clock, (request net ⟨active, closed, pageLimit, pageLimit * k⟩ clock).1 =
    .returned (if fails k then none else some (.arr (page items k)))

def Outcome.ofOption {α : Type} : Option α → Outcome α
  | some a => .returned a
  | none => .unfinished

/-- The key of a page. -/
def pageKey (active closed : Bool) (k : ℕ) : CacheKey := .markets active closed pageLimit (pageLimit * k)

lemma pageKey_ne {j k : ℕ} (h : j ≠ k) : pageKey active closed j ≠ pageKey active closed k := by
  intro heq
  have : pageLimit * j = pageLimit * k := (CacheKey.markets.inj heq).2.2.2
  unfold pageLimit at this
  omega

section Loop

variable {items : List Json} {fails : ℕ → Bool}

/-- A page that is not cached yet. -/
lemma getMarkets_spec (hserves : Serves net active closed items fails) (hparsable : Parsable py items)
    {k : ℕ} (hcache : client.cache.store.get? (pageKey active closed k) = none) :
    (getMarkets py net ⟨active, closed, pageLimit, pageLimit * k⟩ client).1 =
        .returned (accepted py (received items fails k)) ∧
      ∀ key, key ≠ pageKey active closed k → client.cache.store.get? key = none →
        (getMarkets py net ⟨active, closed, pageLimit, pageLimit * k⟩ client).2.cache.store.get? key =
          none := by
  have hrequest := hserves k client.clock
  have hitems : itemsOf (if fails k then none else some (.arr (page items k))) =
      received items fails k := by
    rw [received]
    split_ifs <;> rfl
  have hparse := parseItems_eq (hparsable.received fails k)
  rw [getMarkets]
  dsimp only
  rw [show CacheKey.markets active closed pageLimit (pageLimit * k) = pageKey active closed k from rfl,
    TTLCache.get_of_none hcache]
  dsimp only
  generalize request net _ client.clock = answer at hrequest
  obtain ⟨_, clock⟩ := answer
  obtain rfl : _ = _ := hrequest
  dsimp only
  rw [hitems]
  cases hreceived : received items fails k with
  | nil => exact ⟨rfl, fun key _ hnone => hnone⟩
  | cons item rest =>
    dsimp only
    rw [← hreceived, hparse]
    exact ⟨rfl, fun key hne hnone => TTLCache.get?_set_of_none hne hnone⟩

/-- The loop collects the pages. -/
lemma fetchPages_eq (hserves : Serves net active closed items fails) (hparsable : Parsable py items)
    (fuel k : ℕ) (allMarkets : List Market) (client : Client)
    (hcache : ∀ j, k ≤ j → client.cache.store.get? (pageKey active closed j) = none) :
    (fetchPages py net active closed fuel (pageLimit * k) allMarkets client).1 =
      Outcome.ofOption ((collect py items fails fuel k).map (allMarkets ++ ·)) := by
  induction fuel generalizing k allMarkets client with
  | zero => rfl
  | succ fuel ih =>
    obtain ⟨hbatch, hnone⟩ := getMarkets_spec hserves hparsable (hcache k le_rfl)
    rw [fetchPages, collect]
    generalize getMarkets py net _ client = answer at hbatch hnone
    obtain ⟨_, after⟩ := answer
    obtain rfl : _ = _ := hbatch
    dsimp only
    by_cases hshort : (accepted py (received items fails k)).length < pageLimit
    · rw [if_pos hshort, if_pos hshort]
      rfl
    · rw [if_neg hshort, if_neg hshort, show pageLimit * k + pageLimit = pageLimit * (k + 1) from rfl, ih]
      · rw [Option.map_map]
        simp [Function.comp_def]
      · intro j hj
        exact hnone _ (pageKey_ne (by omega)) (hcache j (by omega))

/-- From an empty cache, with fuel for all pages: what the loop has collected is returned and cached. -/
lemma getAllMarkets_spec (hserves : Serves net active closed items fails) (hparsable : Parsable py items)
    (hempty : client.cache.store = .empty) {fuel : ℕ} {markets : List Market}
    (hcollect : collect py items fails fuel 0 = some markets) :
    ∃ after, getAllMarkets py net active closed fuel client = (.returned markets, after) ∧
      after.cache.store.get? (.allMarkets active closed) = some (after.clock + 300, markets) := by
  have hnone : ∀ key, client.cache.store.get? key = none := by
    intro key
    rw [hempty]
    rfl
  have hfetch := fetchPages_eq hserves hparsable fuel 0 []
    { client with cache := { client.cache with misses := client.cache.misses + 1 } } fun j _ => hnone _
  rw [Nat.mul_zero, hcollect] at hfetch
  rw [getAllMarkets]
  dsimp only
  rw [TTLCache.get_of_none (hnone _)]
  dsimp only
  generalize fetchPages py net active closed fuel 0 [] _ = answer at hfetch
  obtain ⟨_, after⟩ := answer
  obtain rfl : _ = _ := hfetch
  exact ⟨_, rfl, TTLCache.get?_set_some 300⟩

/-- Within the lifetime of the cached list, a later call returns it, whatever the network does. -/
lemma getAllMarkets_cached {markets : List Market} {expiresAt : ℚ}
    (hcached : client.cache.store.get? (.allMarkets active closed) = some (expiresAt, markets))
    (hclock : client.clock ≤ expiresAt) (fuel : ℕ) :
    (getAllMarkets py net active closed fuel client).1 = .returned markets := by
  have hget := TTLCache.get_of_some hcached hclock
  rw [getAllMarkets]
  dsimp only
  generalize client.cache.get (.allMarkets active closed) client.clock = answer at hget
  obtain ⟨_, cache⟩ := answer
  obtain rfl : _ = _ := hget
  rfl

end Loop

/-! ### Which lists are complete -/

section Complete

variable {items : List Json} {fails : ℕ → Bool} {fuel : ℕ}

/-- All markets that are accepted are returned exactly when none comes after a page on which fewer markets
than the limit were parsed. -/
theorem getAllMarkets_complete_iff (hserves : Serves net active closed items fun _ => false)
    (hparsable : Parsable py items) (hempty : client.cache.store = .empty)
    (hfuel : items.length < pageLimit * fuel) :
    (getAllMarkets py net active closed fuel client).1 = .returned (accepted py items) ↔
      ∀ k, Short py items k → accepted py (fromPage items (k + 1)) = [] := by
  obtain ⟨markets, hcollect, -, hiff⟩ := collect_all py (fun _ => false) hfuel
  obtain ⟨after, hall, -⟩ := getAllMarkets_spec hserves hparsable hempty hcollect
  rw [hall, Outcome.returned.injEq, hiff]
  simp

/-- A list that stops short of another one. -/
def ProperPrefix (xs ys : List Market) : Prop := xs <+: ys ∧ xs ≠ ys

/-- The failure of some pages leaves no proper prefix of the markets behind, neither as the result nor in
the cache, and a later call before the cached list expires returns all of them, exactly when no market is
accepted from a page on that failed, or after one on which fewer markets than the limit were parsed. -/
theorem getAllMarkets_failed_page_iff (hserves : Serves net active closed items fails)
    (hparsable : Parsable py items) (hempty : client.cache.store = .empty)
    (hfuel : items.length < pageLimit * fuel) :
    let call := getAllMarkets py net active closed fuel client
    ((∀ markets, call.1 = .returned markets → ¬ ProperPrefix markets (accepted py items)) ∧
      (∀ expiresAt markets,
        call.2.cache.store.get? (.allMarkets active closed) = some (expiresAt, markets) →
          ¬ ProperPrefix markets (accepted py items)) ∧
      ∀ (wait : ℚ) (net' : Network) (fuel' : ℕ), 0 ≤ wait → wait ≤ 300 →
        Serves net' active closed items (fun _ => false) → items.length < pageLimit * fuel' →
          (getAllMarkets py net' active closed fuel' (call.2.sleep wait)).1 =
            .returned (accepted py items)) ↔
      ∀ k, (fails k = true → accepted py (fromPage items k) = []) ∧
        (Short py items k → accepted py (fromPage items (k + 1)) = []) := by
  obtain ⟨markets, hcollect, hinitial, hiff⟩ := collect_all py fails hfuel
  obtain ⟨after, hall, hcached⟩ := getAllMarkets_spec hserves hparsable hempty hcollect
  rw [hall, ← hiff]
  constructor
  · rintro ⟨hresult, -, -⟩
    by_contra hne
    exact hresult markets rfl ⟨hinitial, hne⟩
  · rintro rfl
    refine ⟨?_, ?_, ?_⟩
    · rintro _ ⟨⟩ ⟨-, hne⟩
      exact hne rfl
    · intro expiresAt markets hentry
      obtain ⟨-, rfl⟩ := Prod.mk.inj (Option.some.inj (hcached.symm.trans hentry))
      exact fun h => h.2 rfl
    · intro wait net' fuel' _ hwait _ _
      have hcached' : (after.sleep wait).cache.store.get? (.allMarkets active closed) =
          some (after.clock + 300, accepted py items) := hcached
      exact getAllMarkets_cached hcached' (by simpa [Client.sleep] using hwait) fuel'

/-! ### A market that is lost -/

/-- No item below has a text to read. -/
def noText : PyText where
  loads _ := none
  float _ := none
  fromIsoFormat _ := none
  str _ := ""

/-- A market with a token. -/
def goodItem : Json := .obj [("conditionId", .str "m"), ("clobTokenIds", .arr [.str "t"])]

/-- A market without tokens is rejected. -/
def badItem : Json := .obj [("conditionId", .str "n")]

/-- A server that holds some items, with some pages that fail. -/
def serverOf (items : List Json) (fails : ℕ → Bool) : Network := fun query _ =>
  (if fails (query.offset / pageLimit) then .clientError
    else .ok (.arr ((items.drop query.offset).take query.limit)), 1 / 10)

lemma serverOf_serves (items : List Json) (fails : ℕ → Bool) :
    Serves (serverOf items fails) active closed items fails := by
  intro k clock
  have hk : pageLimit * k / pageLimit = k := Nat.mul_div_cancel_left k (by decide)
  by_cases hfails : fails k = true
  · simp [request, requestFrom, serverOf, hk, hfails, maxRetries]
  · simp [request, requestFrom, serverOf, hk, hfails, maxRetries, page, fromPage]

lemma parsable_of {items : List Json} (h : ∀ item ∈ items, item = goodItem ∨ item = badItem) :
    Parsable noText items := by
  intro item hitem
  rcases h item hitem with rfl | rfl
  · decide +kernel
  · decide +kernel

lemma fromPage_eq_nil {k : ℕ} (h : items.length ≤ pageLimit * k) : fromPage items k = [] :=
  List.drop_eq_nil_of_le h

theorem getAllMarkets_complete_iff_two :
    (getAllMarkets noText (serverOf [goodItem, badItem] fun _ => false) true false 1 {}).1 =
      .returned (accepted noText [goodItem, badItem]) := by
  refine (getAllMarkets_complete_iff (serverOf_serves _ _) (parsable_of (by simp)) rfl (by decide)).mpr ?_
  intro k _
  rw [fromPage_eq_nil]
  · rfl
  · simp only [List.length_cons, List.length_nil, pageLimit]
    omega

lemma fresh_empty : ({} : Client).cache.store = .empty := rfl

/-- The first item is rejected: the first page gives 99 markets, and the market on the second page is never
asked for. -/
theorem getAllMarkets_loses_market :
    (getAllMarkets noText (serverOf (badItem :: List.replicate 100 goodItem) fun _ => false) true false 5
      {}).1 ≠ .returned (accepted noText (badItem :: List.replicate 100 goodItem)) := by
  have hparsable : Parsable noText (badItem :: List.replicate 100 goodItem) :=
    parsable_of fun item hitem => by
      rcases List.mem_cons.mp hitem with rfl | hitem
      · exact Or.inr rfl
      · exact Or.inl (List.eq_of_mem_replicate hitem)
  obtain ⟨markets, hcollect⟩ : ∃ markets, collect noText (badItem :: List.replicate 100 goodItem)
      (fun _ => false) 5 0 = some markets := ⟨_, rfl⟩
  have hlength : (collect noText (badItem :: List.replicate 100 goodItem) (fun _ => false) 5 0).map
      List.length = some 99 := by decide +kernel
  have hall : (accepted noText (badItem :: List.replicate 100 goodItem)).length = 100 := by decide +kernel
  obtain ⟨after, hcall, -⟩ := getAllMarkets_spec (serverOf_serves _ _) hparsable fresh_empty hcollect
  rw [hcall]
  intro heq
  rw [hcollect, Outcome.returned.inj heq, Option.map_some, hall] at hlength
  cases hlength

/-- Two full pages: the request that fails is the one for the empty page after them. -/
theorem getAllMarkets_failed_page_iff_empty :
    (getAllMarkets noText (serverOf (List.replicate 200 goodItem) fun _ => false) true false 3
      ((getAllMarkets noText (serverOf (List.replicate 200 goodItem) fun k => k = 2) true false 3
        {}).2.sleep 60)).1 = .returned (accepted noText (List.replicate 200 goodItem)) := by
  have hparsable : Parsable noText (List.replicate 200 goodItem) :=
    parsable_of fun item hitem => Or.inl (List.eq_of_mem_replicate hitem)
  have hfuel : (List.replicate 200 goodItem).length < pageLimit * 3 := by
    rw [List.length_replicate, pageLimit]
    omega
  refine ((getAllMarkets_failed_page_iff (serverOf_serves _ fun k => k = 2) hparsable fresh_empty
    hfuel).mpr ?_).2.2 60 _ 3 (by norm_num) (by norm_num) (serverOf_serves _ _) hfuel
  have hlast : ∀ k, 2 ≤ k → accepted noText (fromPage (List.replicate 200 goodItem) k) = [] := by
    intro k hk
    rw [fromPage_eq_nil]
    · rfl
    · rw [List.length_replicate, pageLimit]
      omega
  intro k
  refine ⟨fun hfails => hlast k (of_decide_eq_true hfails).ge, fun hshort => hlast (k + 1) ?_⟩
  rcases Nat.eq_zero_or_pos k with rfl | hk
  · exact absurd hshort (by unfold Short; decide +kernel)
  · omega

/-- The second page fails: the 100 markets of the first one are returned as if they were all, and so they
are, a minute later and with a server that is well again. -/
theorem getAllMarkets_failed_page_cached :
    let items := List.replicate 101 goodItem
    let call := getAllMarkets noText (serverOf items fun k => k = 1) true false 5 {}
    (accepted noText items).length = 101 ∧ ∃ markets, markets.length = 100 ∧
      call.1 = .returned markets ∧
      (getAllMarkets noText (serverOf items fun _ => false) true false 5 (call.2.sleep 60)).1 =
        .returned markets := by
  intro items call
  have hparsable : Parsable noText items :=
    parsable_of fun item hitem => Or.inl (List.eq_of_mem_replicate hitem)
  obtain ⟨markets, hcollect⟩ : ∃ markets, collect noText items (fun k => k = 1) 5 0 = some markets :=
    ⟨_, rfl⟩
  have hlength : (collect noText items (fun k => k = 1) 5 0).map List.length = some 100 := by
    decide +kernel
  rw [hcollect] at hlength
  obtain ⟨after, hcall, hcached⟩ := getAllMarkets_spec (serverOf_serves _ _) hparsable fresh_empty hcollect
  have hcached' : (after.sleep 60).cache.store.get? (.allMarkets true false) =
      some (after.clock + 300, markets) := hcached
  refine ⟨by decide +kernel, markets, Option.some.inj hlength, congrArg Prod.fst hcall, ?_⟩
  change (getAllMarkets noText _ true false 5 ((getAllMarkets noText _ true false 5 {}).2.sleep 60)).1 = _
  rw [hcall]
  exact getAllMarkets_cached hcached' (by simp [Client.sleep]; norm_num) 5

end Complete

end PolyCortex.Gamma
