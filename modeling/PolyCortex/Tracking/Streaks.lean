import PolyCortex.Data.DateTime
import PolyCortex.Data.ListRuns
import PolyCortex.Data.Sorting
import PolyCortex.Tracking.Metrics

/-!
# Streaks

The streaks of `get_metrics`: the closed trades in the order of their closing, and one pass over them. The
pass keeps the longest runs of wins and of losses so far and the two runs at the end, of which at least
one is empty (`StreakCounters.Inv`).
-/

namespace PolyCortex

/-! ### The order of the trades -/

/-- A row with the texts of its times. -/
structure TimedRow extends MetricsRow where
  closedAt : Option String := none
  timestamp : Option String := none
  deriving DecidableEq, Repr

/-- A datetime without a time zone, or one with: their microseconds. -/
inductive Moment where
  | naive (time : ℤ)
  | aware (time : ℤ)
  deriving DecidableEq, Repr

namespace Moment

def time : Moment → ℤ
  | naive time => time
  | aware time => time

def isAware : Moment → Bool
  | naive _ => false
  | aware _ => true

/-- `datetime.min.replace(tzinfo=UTC)`. -/
def least : Moment := aware (newYear 1 * 86400 * 1000000)

end Moment

/-- `sorted(l, key=key)` for moments; two of different kinds are not compared. -/
def sortedByMoment {α : Type} (key : α → Moment) (l : List α) : Except PyError (List α) :=
  if (l.all fun a => (key a).isAware) ∨ (l.all fun a => !(key a).isAware) then
    .ok (sortBy (fun a => (key a).time) l)
  else .error .typeError

/-- `value.replace("Z", "+00:00")`. -/
def replaceZ (value : String) : String :=
  String.ofList (value.toList.flatMap fun c => if c = 'Z' then "+00:00".toList else [c])

section

variable (fromIsoFormat : String → Option Moment)

/-- `_parse_iso`; `fromIsoFormat` gives `none` for a `ValueError`. -/
def parseIso (value : Option String) : Moment :=
  match value with
  | some text =>
    if text = "" then .least else (fromIsoFormat (replaceZ text)).getD .least
  | none => .least

/-- The time a row is ordered by: `closed_at or timestamp`. -/
def TimedRow.closingTime (row : TimedRow) : Moment :=
  parseIso fromIsoFormat
    (match row.closedAt with
      | some text => if text = "" then row.timestamp else some text
      | none => row.timestamp)

/-- `ordered_closed` of `get_metrics`. -/
def orderedClosed (rows : List TimedRow) : Except PyError (List TimedRow) :=
  sortedByMoment (TimedRow.closingTime fromIsoFormat) (rows.filter (·.isClosed))

end

/-! ### The counters -/

inductive StreakType where
  | flat
  | win
  | loss
  deriving DecidableEq, Repr

/-- The variables of the loop. -/
structure StreakCounters where
  longestWinStreak : ℕ := 0
  longestLossStreak : ℕ := 0
  currentType : StreakType := .flat
  currentCount : ℕ := 0
  winStreak : ℕ := 0
  lossStreak : ℕ := 0
  deriving DecidableEq, Repr

/-- One pass of the loop. -/
def StreakCounters.next (s : StreakCounters) (row : TimedRow) : StreakCounters :=
  if row.won then
    { s with
      winStreak := s.winStreak + 1
      lossStreak := 0
      longestWinStreak := max s.longestWinStreak (s.winStreak + 1)
      currentType := .win
      currentCount := s.winStreak + 1 }
  else if row.pnlOrZero < 0 then
    { s with
      lossStreak := s.lossStreak + 1
      winStreak := 0
      longestLossStreak := max s.longestLossStreak (s.lossStreak + 1)
      currentType := .loss
      currentCount := s.lossStreak + 1 }
  else
    { s with
      winStreak := 0
      lossStreak := 0
      currentType := .flat
      currentCount := 0 }

/-- The streaks that `get_metrics` returns. -/
structure StreakMetrics where
  longestWinStreak : ℕ
  longestLossStreak : ℕ
  currentStreak : StreakType × ℕ
  deriving DecidableEq, Repr

def StreakCounters.metrics (s : StreakCounters) : StreakMetrics where
  longestWinStreak := s.longestWinStreak
  longestLossStreak := s.longestLossStreak
  currentStreak := (s.currentType, s.currentCount)

/-- The streaks of `get_metrics`. -/
def getStreaks (fromIsoFormat : String → Option Moment) (rows : List TimedRow) :
    Except PyError StreakMetrics := do
  let ordered ← orderedClosed fromIsoFormat rows
  return (ordered.foldl StreakCounters.next {}).metrics

/-! ### Runs of wins and of losses -/

/-- A trade with a positive profit. -/
def IsWin (row : TimedRow) : Prop := 0 < row.pnlOrZero

def IsLoss (row : TimedRow) : Prop := row.pnlOrZero < 0

/-- The type and the length of the run at the end of a list of trades. -/
inductive CurrentStreak (ordered : List TimedRow) : StreakType × ℕ → Prop
  | win {n : ℕ} (hpos : 0 < n) (h : IsGreatest (finalRunLengths IsWin ordered) n) :
      CurrentStreak ordered (.win, n)
  | loss {n : ℕ} (hpos : 0 < n) (h : IsGreatest (finalRunLengths IsLoss ordered) n) :
      CurrentStreak ordered (.loss, n)
  | flat (h : ∀ row ∈ ordered.getLast?, row.pnlOrZero = 0) : CurrentStreak ordered (.flat, 0)

variable {row : TimedRow} {rows ordered : List TimedRow} {s : StreakCounters}

/-- What the counters are after the trades that have been read. -/
structure StreakCounters.Inv (ordered : List TimedRow) (s : StreakCounters) : Prop where
  longestWin : IsGreatest (runLengths IsWin ordered) s.longestWinStreak
  longestLoss : IsGreatest (runLengths IsLoss ordered) s.longestLossStreak
  win : IsGreatest (finalRunLengths IsWin ordered) s.winStreak
  loss : IsGreatest (finalRunLengths IsLoss ordered) s.lossStreak
  current : CurrentStreak ordered (s.currentType, s.currentCount)

lemma StreakCounters.inv_nil : StreakCounters.Inv [] {} where
  longestWin := isGreatest_runLengths_nil _
  longestLoss := isGreatest_runLengths_nil _
  win := isGreatest_finalRunLengths_nil _
  loss := isGreatest_finalRunLengths_nil _
  current := .flat (by simp)

/-- One more trade. -/
lemma StreakCounters.Inv.next (h : StreakCounters.Inv ordered s) (row : TimedRow) :
    StreakCounters.Inv (ordered ++ [row]) (s.next row) := by
  rcases lt_trichotomy row.pnlOrZero 0 with hneg | hzero | hpos
  · have hwin : ¬ IsWin row := hneg.not_gt
    have hfinal := isGreatest_finalRunLengths_concat h.loss (a := row) hneg
    have hnext : s.next row = { s with
        lossStreak := s.lossStreak + 1
        winStreak := 0
        longestLossStreak := max s.longestLossStreak (s.lossStreak + 1)
        currentType := .loss
        currentCount := s.lossStreak + 1 } := by
      simp [StreakCounters.next, MetricsRow.won, hneg, hneg.not_gt]
    rw [hnext]
    constructor
    · exact isGreatest_runLengths_concat_of_not h.longestWin hwin
    · exact isGreatest_runLengths_concat h.longestLoss hfinal
    · exact isGreatest_finalRunLengths_concat_of_not ordered hwin
    · exact hfinal
    · exact .loss (Nat.succ_pos _) hfinal
  · have hwin : ¬ IsWin row := by simp [IsWin, hzero]
    have hloss : ¬ IsLoss row := by simp [IsLoss, hzero]
    have hnext : s.next row = { s with
        winStreak := 0
        lossStreak := 0
        currentType := .flat
        currentCount := 0 } := by
      simp [StreakCounters.next, MetricsRow.won, hzero]
    rw [hnext]
    constructor
    · exact isGreatest_runLengths_concat_of_not h.longestWin hwin
    · exact isGreatest_runLengths_concat_of_not h.longestLoss hloss
    · exact isGreatest_finalRunLengths_concat_of_not ordered hwin
    · exact isGreatest_finalRunLengths_concat_of_not ordered hloss
    · exact .flat (by simpa using hzero)
  · have hloss : ¬ IsLoss row := hpos.not_gt
    have hfinal := isGreatest_finalRunLengths_concat h.win (a := row) hpos
    have hnext : s.next row = { s with
        winStreak := s.winStreak + 1
        lossStreak := 0
        longestWinStreak := max s.longestWinStreak (s.winStreak + 1)
        currentType := .win
        currentCount := s.winStreak + 1 } := by
      simp [StreakCounters.next, MetricsRow.won, hpos]
    rw [hnext]
    constructor
    · exact isGreatest_runLengths_concat h.longestWin hfinal
    · exact isGreatest_runLengths_concat_of_not h.longestLoss hloss
    · exact hfinal
    · exact isGreatest_finalRunLengths_concat_of_not ordered hloss
    · exact .win (Nat.succ_pos _) hfinal

lemma StreakCounters.inv_foldl (ordered : List TimedRow) :
    StreakCounters.Inv ordered (ordered.foldl StreakCounters.next {}) := by
  induction ordered using List.reverseRecOn with
  | nil => exact inv_nil
  | append_singleton ordered row ih =>
    rw [List.foldl_concat]
    exact ih.next row

/-! ### The streaks of the metrics -/

/-- The closed trades of a ledger in the order of their closing. -/
structure InClosingOrder (fromIsoFormat : String → Option Moment) (rows ordered : List TimedRow) :
    Prop where
  perm : ordered.Perm (rows.filter (·.isClosed))
  sorted : ordered.Pairwise fun row row' =>
    (row.closingTime fromIsoFormat).time ≤ (row'.closingTime fromIsoFormat).time
  sameKind : ∀ row ∈ ordered, ∀ row' ∈ ordered,
    (row.closingTime fromIsoFormat).isAware = (row'.closingTime fromIsoFormat).isAware

/-- The streaks are what the runs in the list of trades say. -/
structure StreakMetrics.Describes (m : StreakMetrics) (ordered : List TimedRow) : Prop where
  longestWin : IsGreatest (runLengths IsWin ordered) m.longestWinStreak
  longestLoss : IsGreatest (runLengths IsLoss ordered) m.longestLossStreak
  current : CurrentStreak ordered m.currentStreak

lemma inClosingOrder {fromIsoFormat : String → Option Moment}
    (h : orderedClosed fromIsoFormat rows = .ok ordered) :
    InClosingOrder fromIsoFormat rows ordered := by
  unfold orderedClosed sortedByMoment at h
  split_ifs at h with hkind
  · obtain rfl := Except.ok.inj h
    constructor
    · exact sortBy_perm _ _
    · exact sortBy_pairwise _ _
    · intro row hrow row' hrow'
      rw [mem_sortBy] at hrow hrow'
      rcases hkind with hall | hall
      · rw [List.all_eq_true] at hall
        rw [hall row hrow, hall row' hrow']
      · rw [List.all_eq_true] at hall
        have hnaive := hall row hrow
        have hnaive' := hall row' hrow'
        rw [Bool.not_eq_true'] at hnaive hnaive'
        rw [hnaive, hnaive']

/-- Only times with and without a zone in one ledger keep it from being ordered. -/
lemma exists_orderedClosed {fromIsoFormat : String → Option Moment} {aware : Bool}
    (h : ∀ row ∈ rows, row.isClosed → (row.closingTime fromIsoFormat).isAware = aware) :
    ∃ ordered, orderedClosed fromIsoFormat rows = .ok ordered := by
  refine ⟨_, if_pos ?_⟩
  cases aware with
  | true =>
    left
    rw [List.all_eq_true]
    intro row hrow
    exact h row (List.mem_filter.mp hrow).1 (List.mem_filter.mp hrow).2
  | false =>
    right
    rw [List.all_eq_true]
    intro row hrow
    rw [h row (List.mem_filter.mp hrow).1 (List.mem_filter.mp hrow).2, Bool.not_false]

/-- Whatever the ledger: the closed trades in order, and their streaks. -/
theorem getStreaks_describes {fromIsoFormat : String → Option Moment}
    (h : orderedClosed fromIsoFormat rows = .ok ordered) :
    InClosingOrder fromIsoFormat rows ordered ∧
      ∃ m, getStreaks fromIsoFormat rows = .ok m ∧ m.Describes ordered := by
  have hinv := StreakCounters.inv_foldl ordered
  refine ⟨inClosingOrder h, _, by rw [getStreaks, h]; rfl, ?_⟩
  constructor
  · exact hinv.longestWin
  · exact hinv.longestLoss
  · exact hinv.current

/-- `fromisoformat` on the times of `streakRows`. -/
def januaryTime (text : String) : Option Moment :=
  if text = "2026-01-01T00:00:00+00:00" then some (.aware 1767225600000000)
  else if text = "2026-01-02T00:00:00+00:00" then some (.aware 1767312000000000)
  else if text = "2026-01-03T00:00:00+00:00" then some (.aware 1767398400000000)
  else none

/-- A loss, closed last; a win; a win that was not given a closing time, entered before that. -/
def streakRows : List TimedRow :=
  [{ status := some "closed", direction := .yes, pnl := some (-3),
     closedAt := some "2026-01-03T00:00:00Z" },
   { status := some "resolved", direction := .yes, pnl := some 2,
     closedAt := some "2026-01-02T00:00:00Z" },
   { status := some "closed", direction := .no, pnl := some 1,
     timestamp := some "2026-01-01T00:00:00+00:00" }]

theorem getStreaks_describes_rows :
    getStreaks januaryTime streakRows = .ok ⟨2, 1, .loss, 1⟩ ∧
      ∃ ordered, InClosingOrder januaryTime streakRows ordered ∧
        StreakMetrics.Describes ⟨2, 1, .loss, 1⟩ ordered := by
  have haware : ∀ row ∈ streakRows, row.isClosed →
      (row.closingTime januaryTime).isAware = true := by
    decide +kernel
  have hsorted : sortBy (fun row => (row.closingTime januaryTime).time)
      (streakRows.filter (·.isClosed)) = streakRows.reverse :=
    sortBy_eq_of_perm (by decide +kernel) (by decide +kernel)
  have hrun : (getStreaks januaryTime streakRows).toOption = some ⟨2, 1, .loss, 1⟩ := by
    simp only [getStreaks, orderedClosed, sortedByMoment, hsorted]
    decide +kernel
  obtain ⟨ordered, hordered⟩ := exists_orderedClosed haware
  obtain ⟨horder, m, hm, hdescribes⟩ := getStreaks_describes hordered
  rw [hm] at hrun
  obtain rfl := Option.some.inj hrun
  exact ⟨hm, ordered, horder, hdescribes⟩

end PolyCortex
