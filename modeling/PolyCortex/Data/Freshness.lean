import PolyCortex.Data.Pagination

/-!
# How old a market list is

The pages are cached for five minutes, and so is the list that is put together from them, whatever the age
of its pages. Over any calls of the client, a page is at most five minutes old when it is returned. The list
is at most five minutes older than the walk over the pages that made it, and each page at most five minutes
older than the walk: a market that is listed is up to ten minutes and one walk old (`calls_current`).
-/

namespace PolyCortex.Gamma

/-- What the server answered to a request, and when. -/
structure Answer where
  query : PageQuery
  items : List Json
  time : ℚ

/-- The answer to the request of `get_markets`, when it makes one. -/
def answerTo (net : Network) (query : PageQuery) (client : Client) : List Answer :=
  let key := CacheKey.markets query.active query.closed query.limit query.offset
  match (client.cache.get key client.clock).1, request net query client.clock with
  | none, (.returned response, clock) => [⟨query, itemsOf response, clock⟩]
  | _, _ => []

section Calls

variable (py : PyText)

/-- The answers to the requests of the loop of `get_all_markets`. -/
def answersToPages (net : Network) (active closed : Bool) : ℕ → ℕ → Client → List Answer
  | 0, _, _ => []
  | fuel + 1, offset, client =>
    answerTo net ⟨active, closed, pageLimit, offset⟩ client ++
      match getMarkets py net ⟨active, closed, pageLimit, offset⟩ client with
      | (.returned batch, client) =>
        if batch.length < pageLimit then []
        else answersToPages net active closed fuel (offset + pageLimit) (client.sleep (1 / 2))
      | _ => []

/-- `clear`. -/
def TTLCache.clear (cache : TTLCache) : TTLCache := { cache with store := .empty }

/-- The value that a call returns. -/
def Outcome.returned? {α : Type} : Outcome α → Option α
  | .returned a => some a
  | _ => none

/-- What is done with the client; each call meets a network of its own. -/
inductive Call where
  | getMarkets (net : Network) (query : PageQuery)
  | getAllMarkets (net : Network) (active closed : Bool) (fuel : ℕ)
  | clearCache
  /-- Nothing, for a time. -/
  | wait (seconds : ℚ)

def Call.run (client : Client) : Call → Outcome (List Market) × Client
  | .getMarkets net query => Gamma.getMarkets py net query client
  | .getAllMarkets net active closed fuel => Gamma.getAllMarkets py net active closed fuel client
  | .clearCache => (.returned [], { client with cache := client.cache.clear })
  | .wait seconds => (.returned [], client.sleep seconds)

def Call.answers (client : Client) : Call → List Answer
  | .getMarkets net query => answerTo net query client
  | .getAllMarkets net active closed fuel =>
    match client.cache.get (.allMarkets active closed) client.clock with
    | (none, cache) => answersToPages py net active closed fuel 0 { client with cache }
    | _ => []
  | _ => []

/-- The client, and what the server has answered so far. -/
structure Session where
  client : Client := {}
  log : List Answer := []

def Session.step (s : Session) (call : Call) : Session where
  client := (call.run py s.client).2
  log := s.log ++ call.answers py s.client

/-- The session after some calls of a new client. -/
def session (calls : List Call) : Session := calls.foldl (Session.step py) {}

/-! ### What a list is made of -/

/-- A page that holds no markets or is at most five minutes old. -/
def PageAt (log : List Answer) (query : PageQuery) (now : ℚ) (batch : List Market) : Prop :=
  batch = [] ∨ ∃ answer ∈ log, answer.query = query ∧ parseItems py answer.items = some batch ∧
    answer.time ≤ now ∧ now ≤ answer.time + 300

/-- A walk over the pages, from an offset and a time on. The first page with fewer markets than were asked
for ends it. -/
inductive Walk (log : List Answer) (active closed : Bool) (stop : ℚ) : ℕ → ℚ → List Market → Prop where
  | last {offset start time batch} (hstart : start ≤ time) (hstop : time ≤ stop)
      (hpage : PageAt py log ⟨active, closed, pageLimit, offset⟩ time batch)
      (hlength : batch.length < pageLimit) : Walk log active closed stop offset start batch
  | next {offset start time batch rest} (hstart : start ≤ time) (hstop : time ≤ stop)
      (hpage : PageAt py log ⟨active, closed, pageLimit, offset⟩ time batch)
      (hlength : pageLimit ≤ batch.length)
      (hrest : Walk log active closed stop (offset + pageLimit) (time + 1 / 2) rest) :
      Walk log active closed stop offset start (batch ++ rest)

/-- What is said of the markets that a call returns. -/
def Call.Current (log : List Answer) (now : ℚ) (markets : List Market) : Call → Prop
  | .getMarkets _ query => PageAt py log query now markets
  | .getAllMarkets _ active closed _ => ∃ start stop,
      Walk py log active closed stop 0 start markets ∧ start ≤ stop ∧ stop ≤ now ∧ now ≤ stop + 300 ∧
        ∀ market ∈ markets, ∃ answer ∈ log, answer.query.active = active ∧ answer.query.closed = closed ∧
          (∃ batch, parseItems py answer.items = some batch ∧ market ∈ batch) ∧
          answer.time ≤ now ∧ now ≤ answer.time + 600 + (stop - start)
  | _ => True

/-- The entries of the cache are what the server has answered, and expire in time. -/
def Kept (log : List Answer) (now : ℚ) : CacheKey → ℚ × List Market → Prop
  | .markets active closed limit offset, (expiresAt, markets) =>
    ∃ answer ∈ log, answer.query = ⟨active, closed, limit, offset⟩ ∧
      parseItems py answer.items = some markets ∧ answer.time ≤ now ∧ expiresAt = answer.time + 300
  | .allMarkets active closed, (expiresAt, markets) =>
    ∃ start stop, Walk py log active closed stop 0 start markets ∧ start ≤ stop ∧ stop ≤ now ∧
      expiresAt = stop + 300

def Sound (log : List Answer) (client : Client) : Prop :=
  ∀ key entry, client.cache.store.get? key = some entry → Kept py log client.clock key entry

end Calls

/-- No attempt ends before it has begun. -/
def Network.Timed (net : Network) : Prop := ∀ query attempt, 0 ≤ (net query attempt).2

def Call.Timed : Call → Prop
  | .getMarkets net _ => net.Timed
  | .getAllMarkets net _ _ _ => net.Timed
  | .clearCache => True
  | .wait seconds => 0 ≤ seconds

variable {py : PyText} {log log' : List Answer} {active closed : Bool} {stop start now now' time : ℚ}
  {offset fuel : ℕ} {markets batch : List Market} {net : Network} {query : PageQuery}
  {client : Client} {key : CacheKey} {entry : ℚ × List Market}

/-! ### The log grows -/

lemma PageAt.mono (h : PageAt py log query now batch) (hlog : log ⊆ log') :
    PageAt py log' query now batch := by
  rcases h with h | ⟨answer, hmem, hanswer⟩
  · exact Or.inl h
  · exact Or.inr ⟨answer, hlog hmem, hanswer⟩

lemma Walk.mono (h : Walk py log active closed stop offset start markets) (hlog : log ⊆ log') :
    Walk py log' active closed stop offset start markets := by
  induction h with
  | last hstart hstop hpage hlength => exact Walk.last hstart hstop (hpage.mono hlog) hlength
  | next hstart hstop hpage hlength _ ih => exact Walk.next hstart hstop (hpage.mono hlog) hlength ih

lemma Kept.mono (h : Kept py log now key entry) (hlog : log ⊆ log') (hnow : now ≤ now') :
    Kept py log' now' key entry := by
  cases key with
  | markets =>
    obtain ⟨answer, hmem, hquery, hparse, htime, hexpires⟩ := h
    exact ⟨answer, hlog hmem, hquery, hparse, htime.trans hnow, hexpires⟩
  | allMarkets =>
    obtain ⟨start, stop, hwalk, hstart, hstop, hexpires⟩ := h
    exact ⟨start, stop, hwalk.mono hlog, hstart, hstop.trans hnow, hexpires⟩

/-- A market of a walk comes from an answer that was at most five minutes old when the walk took it. -/
lemma Walk.mem (h : Walk py log active closed stop offset start markets) {market : Market}
    (hmarket : market ∈ markets) :
    ∃ answer ∈ log, answer.query.active = active ∧ answer.query.closed = closed ∧
      (∃ batch, parseItems py answer.items = some batch ∧ market ∈ batch) ∧
      answer.time ≤ stop ∧ start ≤ answer.time + 300 := by
  have hpage : ∀ {offset start time batch}, start ≤ time → time ≤ stop →
      PageAt py log ⟨active, closed, pageLimit, offset⟩ time batch → market ∈ batch →
      ∃ answer ∈ log, answer.query.active = active ∧ answer.query.closed = closed ∧
        (∃ batch, parseItems py answer.items = some batch ∧ market ∈ batch) ∧
        answer.time ≤ stop ∧ start ≤ answer.time + 300 := by
    rintro offset start time batch hstart hstop (rfl | ⟨answer, hmem, hquery, hparse, hle, hge⟩) hmarket
    · cases hmarket
    · refine ⟨answer, hmem, ?_, ?_, ⟨batch, hparse, hmarket⟩, hle.trans hstop, hstart.trans hge⟩
      · rw [hquery]
      · rw [hquery]
  induction h with
  | last hstart hstop hbatch _ => exact hpage hstart hstop hbatch hmarket
  | next hstart hstop hbatch _ _ ih =>
    rcases List.mem_append.mp hmarket with hmarket | hmarket
    · exact hpage hstart hstop hbatch hmarket
    · obtain ⟨answer, hmem, hactive, hclosed, hparse, hle, hge⟩ := ih hmarket
      exact ⟨answer, hmem, hactive, hclosed, hparse, hle, by linarith⟩

/-! ### The cache -/

namespace TTLCache

variable {cache : TTLCache} {value : List Market} {ttl : ℚ} {other : CacheKey}

lemma get?_get (h : (cache.get key now).2.store.get? other = some entry) :
    cache.store.get? other = some entry := by
  rw [get] at h
  split at h
  · exact h
  · split_ifs at h
    · rw [Dict.get?_filter] at h
      exact (Option.filter_eq_some_iff.mp h).1
    · exact h

lemma get?_set (h : (cache.set key value (some ttl) now).store.get? other = some entry) :
    other = key ∧ entry = (now + ttl, value) ∨ cache.store.get? other = some entry := by
  by_cases hkey : other = key
  · subst hkey
    rw [get?_set_some, Option.some.injEq] at h
    exact Or.inl ⟨rfl, h.symm⟩
  · right
    rw [set] at h
    dsimp only at h
    rw [Dict.get?_set_of_ne _ hkey] at h
    split_ifs at h
    · rw [evictExpired, Dict.get?_filter] at h
      exact (Option.filter_eq_some_iff.mp h).1
    · exact h

/-- A value that is returned has been set and is not expired. -/
lemma get?_of_get {cache' : TTLCache} (h : cache.get key now = (some value, cache')) :
    ∃ expiresAt, cache.store.get? key = some (expiresAt, value) ∧ now ≤ expiresAt := by
  rw [get] at h
  split at h
  · cases h
  · rename_i expiresAt stored hstored
    split_ifs at h with hexpired
    · cases h
    · obtain ⟨hvalue, -⟩ := Prod.mk.inj h
      rw [Option.some.injEq] at hvalue
      exact ⟨expiresAt, hvalue ▸ hstored, not_lt.mp hexpired⟩

end TTLCache

/-! ### The calls -/

lemma le_requestFrom (hnet : net.Timed) (left : ℕ) (clock : ℚ) :
    clock ≤ (requestFrom net query left clock).2 := by
  induction left generalizing clock with
  | zero => exact le_rfl
  | succ left ih =>
    have hduration := hnet query (maxRetries - (left + 1))
    have hbackoff : 0 ≤ backoff (maxRetries - (left + 1)) := by
      unfold backoff baseDelay
      positivity
    rw [requestFrom]
    split
    · simpa using hduration
    · rename_i retryAfter _
      have hdelay := le_max_right (retryAfter.getD (backoff (maxRetries - (left + 1)))) 0
      exact le_trans (by linarith) (ih _)
    · exact le_trans (by linarith) (ih _)
    · split_ifs
      · exact le_trans (by linarith) (ih _)
      · simpa using hduration
    · exact le_trans (by linarith) (ih _)
    · simpa using hduration

lemma Sound.mono (h : Sound py log client) (hlog : log ⊆ log') {next : Client}
    (hclock : client.clock ≤ next.clock)
    (hstore : ∀ key entry, next.cache.store.get? key = some entry →
      client.cache.store.get? key = some entry) : Sound py log' next := by
  intro key entry hentry
  exact (h key entry (hstore key entry hentry)).mono hlog hclock

/-- A list is stored. -/
lemma Sound.set (h : Sound py log client)
    (hkept : Kept py log client.clock key (client.clock + 300, markets)) :
    Sound py log { client with cache := client.cache.set key markets (some 300) client.clock } := by
  intro other entry hentry
  rcases TTLCache.get?_set hentry with ⟨rfl, rfl⟩ | hentry
  · exact hkept
  · exact h other entry hentry

/-- A call takes the client on: its cache stays sound, and the clock does not go back. -/
structure Goes (py : PyText) (log : List Answer) (client next : Client) : Prop where
  sound : Sound py log next
  le : client.clock ≤ next.clock

lemma Sound.goes (h : Sound py log client) (hlog : log ⊆ log') {next : Client}
    (hclock : client.clock ≤ next.clock)
    (hstore : ∀ key entry, next.cache.store.get? key = some entry →
      client.cache.store.get? key = some entry) : Goes py log' client next :=
  ⟨h.mono hlog hclock hstore, hclock⟩

lemma Sound.getMarkets (h : Sound py log client) (hnet : net.Timed) (query : PageQuery) :
    Goes py (log ++ answerTo net query client) client (getMarkets py net query client).2 ∧
      ∀ markets, (getMarkets py net query client).1 = .returned markets →
        PageAt py (log ++ answerTo net query client) query (getMarkets py net query client).2.clock
          markets := by
  have hlog : log ⊆ log ++ answerTo net query client := List.subset_append_left log _
  have hclock : client.clock ≤ (request net query client.clock).2 := le_requestFrom hnet _ _
  obtain ⟨cached, cache, hget⟩ : ∃ cached cache, client.cache.get
      (.markets query.active query.closed query.limit query.offset) client.clock = (cached, cache) :=
    ⟨_, _, rfl⟩
  have hcache : ∀ key entry, cache.store.get? key = some entry →
      client.cache.store.get? key = some entry := by
    intro key entry hentry
    apply TTLCache.get?_get
    rw [hget]
    exact hentry
  simp only [Gamma.getMarkets, hget]
  cases cached with
  | some markets =>
    obtain ⟨expiresAt, hstored, hexpires⟩ := TTLCache.get?_of_get hget
    obtain ⟨answer, hmem, hquery, hparse, htime, rfl⟩ := h _ _ hstored
    refine ⟨h.goes hlog le_rfl hcache, ?_⟩
    rintro _ ⟨⟩
    exact Or.inr ⟨answer, hlog hmem, hquery, hparse, htime, hexpires⟩
  | none =>
    have hgoes : Goes py (log ++ answerTo net query client) client
        ⟨cache, (request net query client.clock).2⟩ := h.goes hlog hclock hcache
    dsimp only
    split
    · rename_i response clock hrequest
      rw [hrequest] at hgoes
      split
      · refine ⟨hgoes, ?_⟩
        rintro _ ⟨⟩
        exact Or.inl rfl
      · rename_i hitems
        split
        · rename_i markets hparse
          have hanswer : ⟨query, itemsOf response, clock⟩ ∈ log ++ answerTo net query client := by
            apply List.mem_append_right
            simp [answerTo, hget, hrequest]
          refine ⟨⟨hgoes.sound.set ?_, hgoes.le⟩, ?_⟩
          · exact ⟨_, hanswer, rfl, hparse, le_rfl, rfl⟩
          · rintro _ ⟨⟩
            exact Or.inr ⟨_, hanswer, rfl, hparse, le_rfl, by linarith⟩
        · exact ⟨hgoes, by rintro _ ⟨⟩⟩
    · rename_i hrequest
      rw [hrequest] at hgoes
      exact ⟨hgoes, by rintro _ ⟨⟩⟩
    · rename_i hrequest
      rw [hrequest] at hgoes
      exact ⟨hgoes, by rintro _ ⟨⟩⟩

lemma Goes.trans {next last : Client} (h : Goes py log client next) (hnext : Goes py log' next last) :
    Goes py log' client last := ⟨hnext.sound, h.le.trans hnext.le⟩

lemma Goes.sleep {next : Client} (h : Goes py log client next) (seconds : ℚ) (hseconds : 0 ≤ seconds) :
    Goes py log client (next.sleep seconds) := by
  have hle : next.clock ≤ (next.sleep seconds).clock := le_add_of_nonneg_right hseconds
  exact ⟨h.sound.mono (List.Subset.refl log) hle fun _ _ hentry => hentry, h.le.trans hle⟩

lemma Sound.fetchPages (h : Sound py log client) (hnet : net.Timed) (active closed : Bool) (fuel offset : ℕ)
    (allMarkets : List Market) :
    Goes py (log ++ answersToPages py net active closed fuel offset client) client
        (fetchPages py net active closed fuel offset allMarkets client).2 ∧
      ∀ markets, (fetchPages py net active closed fuel offset allMarkets client).1 = .returned markets →
        ∃ listed, markets = allMarkets ++ listed ∧
          Walk py (log ++ answersToPages py net active closed fuel offset client) active closed
            (fetchPages py net active closed fuel offset allMarkets client).2.clock offset client.clock
            listed := by
  induction fuel generalizing log client offset allMarkets with
  | zero =>
    rw [answersToPages, List.append_nil]
    exact ⟨⟨h, le_rfl⟩, by rintro _ ⟨⟩⟩
  | succ fuel ih =>
    obtain ⟨hgoes, hpage⟩ := h.getMarkets hnet ⟨active, closed, pageLimit, offset⟩
    rw [answersToPages, Gamma.fetchPages, ← List.append_assoc]
    generalize log ++ answerTo net ⟨active, closed, pageLimit, offset⟩ client = seen at *
    generalize Gamma.getMarkets py net ⟨active, closed, pageLimit, offset⟩ client = result at *
    obtain ⟨outcome, next⟩ := result
    cases outcome with
    | raised =>
      simp only [List.append_nil]
      exact ⟨hgoes, by rintro _ ⟨⟩⟩
    | unfinished =>
      simp only [List.append_nil]
      exact ⟨hgoes, by rintro _ ⟨⟩⟩
    | returned batch =>
      have hbatch := hpage batch rfl
      dsimp only
      split_ifs with hlength
      · rw [List.append_nil]
        refine ⟨hgoes, ?_⟩
        rintro _ ⟨⟩
        exact ⟨batch, rfl, Walk.last hgoes.le le_rfl hbatch hlength⟩
      · have hslept := hgoes.sleep (1 / 2) (by norm_num)
        obtain ⟨hrest, hwalk⟩ := ih hslept.sound (offset + pageLimit) (allMarkets ++ batch)
        refine ⟨hslept.trans hrest, fun markets hmarkets => ?_⟩
        obtain ⟨listed, rfl, hlisted⟩ := hwalk markets hmarkets
        refine ⟨batch ++ listed, List.append_assoc _ _ _, ?_⟩
        have hle : next.clock ≤ (next.sleep (1 / 2)).clock := le_add_of_nonneg_right (by norm_num)
        exact Walk.next hgoes.le (hle.trans hrest.le) (hbatch.mono (List.subset_append_left seen _))
          (not_lt.mp hlength) hlisted

lemma Walk.le (h : Walk py log active closed stop offset start markets) : start ≤ stop := by
  cases h with
  | last hstart hstop => exact hstart.trans hstop
  | next hstart hstop => exact hstart.trans hstop

lemma Walk.current (h : Walk py log active closed stop 0 start markets) (hstop : stop ≤ now)
    (hnow : now ≤ stop + 300) :
    (Call.getAllMarkets net active closed fuel).Current py log now markets := by
  refine ⟨start, stop, h, h.le, hstop, hnow, fun market hmarket => ?_⟩
  obtain ⟨answer, hmem, hactive, hclosed, hparse, hle, hge⟩ := h.mem hmarket
  exact ⟨answer, hmem, hactive, hclosed, hparse, hle.trans hstop, by linarith⟩

lemma Sound.getAllMarkets (h : Sound py log client) (hnet : net.Timed) (active closed : Bool) (fuel : ℕ) :
    let call := Call.getAllMarkets net active closed fuel
    Goes py (log ++ call.answers py client) client (call.run py client).2 ∧
      ∀ markets, (call.run py client).1 = .returned markets →
        call.Current py (log ++ call.answers py client) (call.run py client).2.clock markets := by
  obtain ⟨cached, cache, hget⟩ :
      ∃ cached cache, client.cache.get (.allMarkets active closed) client.clock = (cached, cache) :=
    ⟨_, _, rfl⟩
  have hcache : ∀ key entry, cache.store.get? key = some entry →
      client.cache.store.get? key = some entry := by
    intro key entry hentry
    apply TTLCache.get?_get
    rw [hget]
    exact hentry
  simp only [Call.run, Call.answers, Gamma.getAllMarkets, hget]
  cases cached with
  | some markets =>
    obtain ⟨expiresAt, hstored, hexpires⟩ := TTLCache.get?_of_get hget
    obtain ⟨start, stop, hwalk, -, hstop, rfl⟩ := h _ _ hstored
    refine ⟨h.goes (List.subset_append_left log _) le_rfl hcache, ?_⟩
    rintro _ ⟨⟩
    exact (hwalk.mono (List.subset_append_left log _)).current hstop hexpires
  | none =>
    have hmissed : Sound py log { client with cache } := h.mono (List.Subset.refl log) le_rfl hcache
    obtain ⟨hgoes, hwalk⟩ := hmissed.fetchPages hnet active closed fuel 0 []
    dsimp only
    generalize log ++ answersToPages py net active closed fuel 0 { client with cache } = seen at *
    generalize Gamma.fetchPages py net active closed fuel 0 [] { client with cache } = result at *
    obtain ⟨outcome, next⟩ := result
    cases outcome with
    | raised => exact ⟨⟨hgoes.sound, hgoes.le⟩, by rintro _ ⟨⟩⟩
    | unfinished => exact ⟨⟨hgoes.sound, hgoes.le⟩, by rintro _ ⟨⟩⟩
    | returned markets =>
      obtain ⟨listed, hmarkets, hlisted⟩ := hwalk markets rfl
      rw [List.nil_append] at hmarkets
      subst hmarkets
      refine ⟨⟨hgoes.sound.set ⟨_, _, hlisted, hlisted.le, le_rfl, rfl⟩, hgoes.le⟩, ?_⟩
      rintro _ ⟨⟩
      exact hlisted.current le_rfl (by linarith)

/-! ### Whole runs -/

lemma Outcome.eq_returned {α : Type} {outcome : Outcome α} {a : α} (h : outcome.returned? = some a) :
    outcome = .returned a := by
  cases outcome with
  | returned value => exact congrArg Outcome.returned (Option.some.inj h)
  | raised => cases h
  | unfinished => cases h

lemma Sound.call (h : Sound py log client) {call : Call} (htimed : call.Timed) :
    Goes py (log ++ call.answers py client) client (call.run py client).2 ∧
      ∀ markets, (call.run py client).1 = .returned markets →
        call.Current py (log ++ call.answers py client) (call.run py client).2.clock markets := by
  cases call with
  | getMarkets net query => exact h.getMarkets htimed query
  | getAllMarkets net active closed fuel => exact h.getAllMarkets htimed active closed fuel
  | clearCache =>
    refine ⟨h.goes (List.subset_append_left log _) le_rfl ?_, fun _ _ => trivial⟩
    intro key entry hentry
    cases hentry
  | wait seconds =>
    have hle : client.clock ≤ (client.sleep seconds).clock := le_add_of_nonneg_right htimed
    exact ⟨h.goes (List.subset_append_left log _) hle fun _ _ hentry => hentry, fun _ _ => trivial⟩

lemma session_append (calls : List Call) (call : Call) :
    session py (calls ++ [call]) = (session py calls).step py call := by
  rw [session, List.foldl_append]
  rfl

lemma session_sound {calls : List Call} (htimed : ∀ call ∈ calls, call.Timed) :
    Sound py (session py calls).log (session py calls).client := by
  induction calls using List.reverseRecOn with
  | nil =>
    intro key entry hentry
    cases hentry
  | append_singleton calls call ih =>
    rw [session_append]
    have hsound := ih fun call hcall => htimed call (List.mem_append_left _ hcall)
    exact (hsound.call (htimed call (by simp))).1.sound

/-- What any call of any run returns is as new as the cache allows. -/
theorem calls_current {calls before after : List Call} {call : Call} {markets : List Market}
    (htimed : ∀ call ∈ calls, call.Timed) (hcalls : calls = before ++ call :: after)
    (h : (call.run py (session py before).client).1.returned? = some markets) :
    let s := session py (before ++ [call])
    call.Current py s.log s.client.clock markets := by
  subst hcalls
  have hsound : Sound py (session py before).log (session py before).client :=
    session_sound fun call hcall => htimed call (List.mem_append_left _ hcall)
  rw [session_append]
  exact (hsound.call (htimed call (by simp))).2 markets (Outcome.eq_returned h)

/-- A page is fetched, after five minutes the list is put together, and after five more it is returned
again, as old as it can be. -/
def tenMinutes : List Call :=
  let server := serverOf [goodItem] fun _ => false
  [.getMarkets server ⟨true, false, 100, 0⟩, .wait 300, .getAllMarkets server true false 1, .wait 300]

theorem calls_current_tenMinutes : ∃ markets : List Market, markets.length = 1 ∧
    let call := Call.getAllMarkets (serverOf [] fun _ => true) true false 1
    let s := session noText (tenMinutes ++ [call])
    call.Current noText s.log s.client.clock markets := by
  have htimed : (serverOf [goodItem] fun _ => false).Timed := fun _ _ => by norm_num [serverOf]
  have hdown : (serverOf [] fun _ => true).Timed := fun _ _ => by norm_num [serverOf]
  have hreturned : (Gamma.getAllMarkets noText (serverOf [] fun _ => true) true false 1
      (session noText tenMinutes).client).1.returned?.map List.length = some 1 := by decide +kernel
  obtain ⟨markets, hmarkets, hlength⟩ := Option.map_eq_some_iff.mp hreturned
  have hall : ∀ call ∈ tenMinutes ++ .getAllMarkets (serverOf [] fun _ => true) true false 1 :: [],
      call.Timed := by
    simp [tenMinutes, Call.Timed, htimed, hdown]
  exact ⟨markets, hlength, calls_current hall rfl hmarkets⟩

end PolyCortex.Gamma
