import PolyCortex.Data.ClobClient
import PolyCortex.Data.Dict
import PolyCortex.Data.Sorting
import PolyCortex.Execution.Order
import PolyCortex.Machine.History

/-!
# The price history

`HistoryStore`: a directory for each market, with a file of rows for each day. A snapshot is appended to
the file of its day; a file that cannot be read is moved aside. What is loaded for a market is settled by
the rows that were saved for it and whose file has not been damaged since: they come back in the order of
their times, one row for each time (`loadHistory_spec`), whatever happened to other markets and in
whichever order they were saved (`loadHistory_congr`).

The sort of `sort_values` is not stable: which of the rows of one time is kept is left open.
-/

namespace PolyCortex

open Machine

namespace HistoryStore

structure SnapshotRow where
  timestamp : Time
  midpoint : PyFloat
  spread : PyFloat
  bidDepth : PyFloat
  askDepth : PyFloat
  volume : PyFloat
  bookImbalance : PyFloat
  deriving DecidableEq

/-- The row of a snapshot, which has the time of its request. -/
def newRow (timestamp : Time) (snapshot : ClobClient.OrderBookSnapshot) (volume : PyFloat) :
    SnapshotRow where
  timestamp
  midpoint := snapshot.midpoint
  spread := snapshot.spread
  bidDepth := snapshot.bidDepth
  askDepth := snapshot.askDepth
  volume
  bookImbalance := snapshot.imbalance

inductive FileName where
  /-- `2026-01-31.parquet` -/
  | daily (date : ℤ)
  /-- `2026-01-31.corrupted.1769817600.parquet` -/
  | corrupted (date second : ℤ)
  deriving DecidableEq, Repr

inductive Parquet where
  | rows (df : List SnapshotRow)
  | unreadable

def Parquet.rows? : Parquet → Option (List SnapshotRow)
  | .rows df => some df
  | .unreadable => none

/-- `DataFrame.sort_values("timestamp")`. -/
structure TimestampSort where
  sort : List SnapshotRow → List SnapshotRow
  perm (rows : List SnapshotRow) : (sort rows).Perm rows
  sorted (rows : List SnapshotRow) : (sort rows).Pairwise fun r r' => r.timestamp ≤ r'.timestamp

/-- `drop_duplicates(subset=["timestamp"])`. -/
def dropDuplicates : List SnapshotRow → List SnapshotRow
  | [] => []
  | row :: rows => row :: (dropDuplicates rows).filter fun r => r.timestamp ≠ row.timestamp

end HistoryStore

open HistoryStore in
/-- The directories of the markets. -/
abbrev HistoryStore := Dict String (Dict FileName Parquet)

namespace HistoryStore

/-- `strftime("%Y-%m-%d")`, as a number. -/
abbrev DateOf := Time → ℤ

/-- What is in the directory of a market. -/
def directory (store : HistoryStore) (conditionId : String) : Dict FileName Parquet :=
  (store.get? conditionId).getD .empty

/-- The row goes to the end of the file of its day, after that was moved aside if it cannot be read. The
clock gives the name it is moved to, unless that fails. -/
def appendRow (dateOf : DateOf) (row : SnapshotRow) (second : ℤ) (renames : Bool)
    (dir : Dict FileName Parquet) : Dict FileName Parquet :=
  let date := dateOf row.timestamp
  match dir.get? (.daily date) with
  | some (.rows existing) => dir.set (.daily date) (.rows (existing ++ [row]))
  | some .unreadable =>
    let dir := if renames then
      (dir.filter fun name _ => name ≠ .daily date).set (.corrupted date second) .unreadable else dir
    dir.set (.daily date) (.rows [row])
  | none => dir.set (.daily date) (.rows [row])

/-- `save_snapshot`. -/
def saveSnapshot (dateOf : DateOf) (conditionId : String) (row : SnapshotRow) (second : ℤ)
    (renames : Bool) (store : HistoryStore) : HistoryStore :=
  store.set conditionId (appendRow dateOf row second renames (store.directory conditionId))

/-- The frames of the files that can be read. -/
def frames (dir : Dict FileName Parquet) : List (List SnapshotRow) := dir.values.filterMap Parquet.rows?

/-- `load_history`; the times are in seconds. -/
def loadHistory (sort : TimestampSort) (now : Time) (conditionId : String) (lookbackHours : Option ℤ)
    (store : HistoryStore) : Option (List SnapshotRow) :=
  let frames := frames (store.directory conditionId)
  if frames.isEmpty then none
  else
    let df := dropDuplicates (sort.sort frames.flatten)
    match lookbackHours with
    | none => some df
    | some hours =>
      let df := df.filter fun row => now - 3600 * hours ≤ row.timestamp
      if df.isEmpty then none else some df

/-! ### Runs -/

inductive StoreEvent where
  | save (conditionId : String) (row : SnapshotRow) (second : ℤ) (renames : Bool)
  /-- a file is cut off or overwritten by something else -/
  | damage (conditionId : String) (name : FileName)

def step (dateOf : DateOf) (store : HistoryStore) : StoreEvent → HistoryStore
  | .save conditionId row second renames => store.saveSnapshot dateOf conditionId row second renames
  | .damage conditionId name =>
    store.modify conditionId fun dir => dir.modify name fun _ => .unreadable

/-- The rows of a market and a day that were saved since the file of the day was damaged. -/
def keptStep (dateOf : DateOf) (conditionId : String) (date : ℤ) (rows : List SnapshotRow) :
    StoreEvent → List SnapshotRow
  | .save market row _ _ =>
    if market = conditionId ∧ dateOf row.timestamp = date then rows ++ [row] else rows
  | .damage market name => if market = conditionId ∧ name = .daily date then [] else rows

def kept (dateOf : DateOf) (conditionId : String) (date : ℤ) (events : List StoreEvent) :
    List SnapshotRow :=
  run (keptStep dateOf conditionId date) [] events

/-- What the files of a market hold, after the events. -/
structure Holds (dateOf : DateOf) (conditionId : String) (events : List StoreEvent)
    (dir : Dict FileName Parquet) : Prop where
  daily : ∀ date, ((dir.get? (.daily date)).bind Parquet.rows?).getD [] = kept dateOf conditionId date events
  nonempty : ∀ date rows, dir.get? (.daily date) = some (.rows rows) → rows ≠ []
  corrupted : ∀ date second rows, dir.get? (.corrupted date second) ≠ some (.rows rows)

variable {dateOf : DateOf} {conditionId : String} {events : List StoreEvent} {store : HistoryStore}
  {sort : TimestampSort} {rows : List SnapshotRow}

lemma kept_concat (date : ℤ) (events : List StoreEvent) (event : StoreEvent) :
    kept dateOf conditionId date (events ++ [event]) =
      keptStep dateOf conditionId date (kept dateOf conditionId date events) event := by
  rw [kept, run_concat, kept]

lemma directory_set (store : HistoryStore) (market : String) (dir : Dict FileName Parquet) :
    directory (store.set market dir) conditionId =
      if conditionId = market then dir else store.directory conditionId := by
  rw [directory, Dict.get?_set]
  split_ifs <;> rfl

/-! ### Steps -/

/-- The rows that can be read from a file, none if it is not there. -/
def rowsOf (dir : Dict FileName Parquet) (name : FileName) : List SnapshotRow :=
  ((dir.get? name).bind Parquet.rows?).getD []

variable {dir : Dict FileName Parquet} {row : SnapshotRow} {second : ℤ} {renames : Bool}

lemma get?_appendRow_daily :
    (appendRow dateOf row second renames dir).get? (.daily (dateOf row.timestamp)) =
      some (.rows (rowsOf dir (.daily (dateOf row.timestamp)) ++ [row])) := by
  rw [appendRow, rowsOf]
  rcases hfile : dir.get? (.daily (dateOf row.timestamp)) with _ | existing | _ <;>
    simp [Parquet.rows?]

variable (row second renames) in
/-- The other files stay what they are, and what has been moved aside cannot be read. -/
lemma get?_appendRow_of_ne {name : FileName} (hname : name ≠ .daily (dateOf row.timestamp)) :
    (appendRow dateOf row second renames dir).get? name = dir.get? name ∨
      name = .corrupted (dateOf row.timestamp) second ∧
        (appendRow dateOf row second renames dir).get? name = some .unreadable := by
  rw [appendRow]
  rcases hfile : dir.get? (.daily (dateOf row.timestamp)) with _ | existing | _
  · exact Or.inl (Dict.get?_set_of_ne _ hname _)
  · exact Or.inl (Dict.get?_set_of_ne _ hname _)
  · simp only [Dict.get?_set_of_ne _ hname]
    cases renames with
    | false => exact Or.inl rfl
    | true =>
      rw [if_pos rfl, Dict.get?_set]
      split_ifs with hcorrupted
      · exact Or.inr ⟨hcorrupted, rfl⟩
      · left
        rw [Dict.get?_filter]
        cases dir.get? name <;> simp [hname]

lemma get?_appendRow_other {date : ℤ} (hdate : date ≠ dateOf row.timestamp) :
    (appendRow dateOf row second renames dir).get? (.daily date) = dir.get? (.daily date) := by
  have hname : FileName.daily date ≠ .daily (dateOf row.timestamp) := fun h => hdate (FileName.daily.inj h)
  exact (get?_appendRow_of_ne row second renames hname).resolve_right fun h => FileName.noConfusion h.1

lemma Holds.appendRow (h : Holds dateOf conditionId events dir) :
    Holds dateOf conditionId (events ++ [.save conditionId row second renames])
      (appendRow dateOf row second renames dir) where
  daily date := by
    rw [kept_concat, keptStep]
    split_ifs with hdate
    · obtain ⟨-, rfl⟩ := hdate
      rw [get?_appendRow_daily, ← h.daily]
      rfl
    · rw [get?_appendRow_other fun hsame => hdate ⟨rfl, hsame.symm⟩, h.daily]
  nonempty date rows hget := by
    by_cases hdate : date = dateOf row.timestamp
    · rw [hdate, get?_appendRow_daily] at hget
      obtain rfl := Parquet.rows.inj (Option.some.inj hget)
      simp
    · rw [get?_appendRow_other hdate] at hget
      exact h.nonempty date rows hget
  corrupted date second' rows hget := by
    have hname : FileName.corrupted date second' ≠ .daily (dateOf row.timestamp) := nofun
    rcases get?_appendRow_of_ne row second renames hname with hsame | ⟨-, hunreadable⟩
    · exact h.corrupted date second' rows (hsame ▸ hget)
    · rw [hunreadable] at hget
      cases hget

lemma Holds.damage (name : FileName) (h : Holds dateOf conditionId events dir) :
    Holds dateOf conditionId (events ++ [.damage conditionId name])
      (dir.modify name fun _ => .unreadable) where
  daily date := by
    rw [kept_concat, keptStep, Dict.get?_modify]
    by_cases hname : FileName.daily date = name
    · rw [if_pos hname, if_pos ⟨rfl, hname.symm⟩]
      cases dir.get? name <;> rfl
    · rw [if_neg hname, if_neg fun hsame => hname hsame.2.symm, h.daily]
  nonempty date rows hget := by
    rw [Dict.get?_modify] at hget
    split_ifs at hget
    · simp at hget
    · exact h.nonempty date rows hget
  corrupted date second rows hget := by
    rw [Dict.get?_modify] at hget
    split_ifs at hget
    · simp at hget
    · exact h.corrupted date second rows hget

/-- What happens to another market changes nothing. -/
lemma Holds.of_other {event : StoreEvent}
    (hother : ∀ date, keptStep dateOf conditionId date (kept dateOf conditionId date events) event =
      kept dateOf conditionId date events) (h : Holds dateOf conditionId events dir) :
    Holds dateOf conditionId (events ++ [event]) dir :=
  { h with daily := fun date => by rw [h.daily, kept_concat, hother] }

lemma Holds.step (h : Holds dateOf conditionId events (store.directory conditionId)) (event : StoreEvent) :
    Holds dateOf conditionId (events ++ [event]) ((store.step dateOf event).directory conditionId) := by
  cases event with
  | save market row second renames =>
    rw [HistoryStore.step, saveSnapshot, directory_set]
    split_ifs with hmarket
    · subst hmarket
      exact h.appendRow
    · exact h.of_other fun date => if_neg fun hsame => hmarket hsame.1.symm
  | damage market name =>
    rw [HistoryStore.step, directory, Dict.get?_modify]
    split_ifs with hmarket
    · subst hmarket
      rw [show ((store.get? conditionId).map fun dir => dir.modify name fun _ => .unreadable).getD .empty =
        (store.directory conditionId).modify name fun _ => .unreadable from ?_]
      · exact h.damage name
      · rw [directory]
        cases store.get? conditionId with
        | some dir => rfl
        | none => exact (Dict.modify_eq_self (by simp)).symm
    · exact h.of_other fun date => if_neg fun hsame => hmarket hsame.1.symm

/-- The store after the events, from an empty one on. -/
def after (dateOf : DateOf) (events : List StoreEvent) : HistoryStore := run (step dateOf) .empty events

lemma holds_after (dateOf : DateOf) (conditionId : String) (events : List StoreEvent) :
    Holds dateOf conditionId events ((after dateOf events).directory conditionId) := by
  have hempty : Holds dateOf conditionId [] (directory .empty conditionId) := {
    daily := fun _ => rfl
    nonempty := fun date rows hget => absurd hget (by simp [directory])
    corrupted := fun date second rows hget => absurd hget (by simp [directory]) }
  have hkeeps : ∀ events store event, Holds dateOf conditionId events (directory store conditionId) →
      Holds dateOf conditionId (events ++ [event]) (directory (step dateOf store event) conditionId) :=
    fun _ _ event h => h.step event
  refine run_history ?_ hkeeps events
  exact hempty

/-! ### What is loaded -/

lemma mem_of_mem_dropDuplicates {r : SnapshotRow} (h : r ∈ dropDuplicates rows) : r ∈ rows := by
  induction rows with
  | nil => exact h
  | cons row rows ih =>
    rcases List.mem_cons.mp h with rfl | h
    · exact List.mem_cons_self
    · exact List.mem_cons_of_mem _ (ih (List.mem_of_mem_filter h))

/-- A row of every time is kept. -/
lemma exists_mem_dropDuplicates {r : SnapshotRow} (h : r ∈ rows) :
    ∃ r' ∈ dropDuplicates rows, r'.timestamp = r.timestamp := by
  induction rows with
  | nil => cases h
  | cons row rows ih =>
    by_cases hsame : r.timestamp = row.timestamp
    · exact ⟨row, List.mem_cons_self, hsame.symm⟩
    · have hmem : r ∈ rows := (List.mem_cons.mp h).resolve_left fun heq => hsame (heq ▸ rfl)
      obtain ⟨r', hr', htime⟩ := ih hmem
      refine ⟨r', List.mem_cons_of_mem _ (List.mem_filter.mpr ⟨hr', ?_⟩), htime⟩
      simpa [htime] using hsame

lemma dropDuplicates_pairwise (h : rows.Pairwise fun r r' => r.timestamp ≤ r'.timestamp) :
    (dropDuplicates rows).Pairwise fun r r' => r.timestamp < r'.timestamp := by
  induction rows with
  | nil => exact List.Pairwise.nil
  | cons row rows ih =>
    rw [List.pairwise_cons] at h
    refine List.pairwise_cons.mpr ⟨fun r hr => ?_, (ih h.2).filter _⟩
    obtain ⟨hmem, hne⟩ := List.mem_filter.mp hr
    exact lt_of_le_of_ne (h.1 r (mem_of_mem_dropDuplicates hmem)) (by simpa using Ne.symm (by simpa using hne))

/-- A file that can be read is that of a day, with the rows that were kept. -/
lemma Holds.get?_rows (h : Holds dateOf conditionId events dir) {name : FileName}
    (hget : dir.get? name = some (.rows rows)) :
    ∃ date, name = .daily date ∧ rows = kept dateOf conditionId date events ∧ rows ≠ [] := by
  cases name with
  | daily date =>
    refine ⟨date, rfl, ?_, h.nonempty date rows hget⟩
    rw [← h.daily, hget]
    rfl
  | corrupted date second => exact absurd hget (h.corrupted date second rows)

lemma mem_frames : rows ∈ frames dir ↔ ∃ name, dir.get? name = some (.rows rows) := by
  rw [frames, List.mem_filterMap]
  constructor
  · rintro ⟨file, hfile, hrows⟩
    obtain ⟨name, hget⟩ := (Dict.mem_values_iff _ _).mp hfile
    cases file with
    | rows df => exact ⟨name, by rw [hget, Option.some.inj hrows]⟩
    | unreadable => cases hrows
  · rintro ⟨name, hget⟩
    exact ⟨.rows rows, (Dict.mem_values_iff _ _).mpr ⟨name, hget⟩, rfl⟩

lemma Holds.mem_flatten (h : Holds dateOf conditionId events dir) {r : SnapshotRow} :
    r ∈ (frames dir).flatten ↔ ∃ date, r ∈ kept dateOf conditionId date events := by
  rw [List.mem_flatten]
  constructor
  · rintro ⟨df, hdf, hr⟩
    obtain ⟨name, hget⟩ := mem_frames.mp hdf
    obtain ⟨date, -, rfl, -⟩ := h.get?_rows hget
    exact ⟨date, hr⟩
  · rintro ⟨date, hr⟩
    rw [← h.daily] at hr
    obtain ⟨file, hfile⟩ | hnone := (dir.get? (.daily date)).eq_none_or_eq_some.symm
    · rw [hfile] at hr
      cases file with
      | rows df => exact ⟨df, mem_frames.mpr ⟨_, hfile⟩, hr⟩
      | unreadable => cases hr
    · rw [hnone] at hr
      cases hr

lemma Holds.frames_eq_nil (h : Holds dateOf conditionId events dir) :
    frames dir = [] ↔ (frames dir).flatten = [] := by
  constructor
  · intro hnil
    rw [hnil, List.flatten_nil]
  · intro hflat
    rw [List.eq_nil_iff_forall_not_mem]
    intro df hdf
    obtain ⟨name, hget⟩ := mem_frames.mp hdf
    obtain ⟨date, -, -, hne⟩ := h.get?_rows hget
    exact hne (List.flatten_eq_nil_iff.mp hflat df hdf)

/-- A row is kept with the rows of its day. -/
lemma dateOf_of_mem_kept {date : ℤ} {r : SnapshotRow} (h : r ∈ kept dateOf conditionId date events) :
    dateOf r.timestamp = date := by
  induction events using List.reverseRecOn with
  | nil => cases h
  | append_singleton events event ih =>
    rw [kept_concat] at h
    cases event with
    | save market row second renames =>
      rw [keptStep] at h
      split_ifs at h with hrow
      · rcases List.mem_append.mp h with h | h
        · exact ih h
        · rw [List.mem_singleton.mp h]
          exact hrow.2
      · exact ih h
    | damage market name =>
      rw [keptStep] at h
      split_ifs at h
      · cases h
      · exact ih h

/-- What is kept was saved. -/
lemma saved_of_mem_kept {date : ℤ} {r : SnapshotRow} (h : r ∈ kept dateOf conditionId date events) :
    ∃ second renames, StoreEvent.save conditionId r second renames ∈ events := by
  induction events using List.reverseRecOn with
  | nil => cases h
  | append_singleton events event ih =>
    have hearlier : r ∈ kept dateOf conditionId date events →
        ∃ second renames, StoreEvent.save conditionId r second renames ∈ events ++ [event] := by
      intro hr
      obtain ⟨second, renames, hsave⟩ := ih hr
      exact ⟨second, renames, List.mem_append_left _ hsave⟩
    rw [kept_concat] at h
    cases event with
    | save market row second renames =>
      rw [keptStep] at h
      split_ifs at h with hrow
      · rcases List.mem_append.mp h with hr | hr
        · exact hearlier hr
        · rw [List.mem_singleton.mp hr, ← hrow.1]
          exact ⟨second, renames, by simp⟩
      · exact hearlier h
    | damage market name =>
      rw [keptStep] at h
      split_ifs at h
      · cases h
      · exact hearlier h

/-- The times that a lookback leaves in. -/
def Recent (now : Time) (lookbackHours : Option ℤ) (r : SnapshotRow) : Prop :=
  ∀ hours ∈ lookbackHours, now - 3600 * hours ≤ r.timestamp

/-- The rows that are loaded, before the lookback. -/
def loaded (sort : TimestampSort) (dir : Dict FileName Parquet) : List SnapshotRow :=
  dropDuplicates (sort.sort (frames dir).flatten)

lemma loadHistory_getD (sort : TimestampSort) (now : Time) (lookbackHours : Option ℤ) :
    (store.loadHistory sort now conditionId lookbackHours).getD [] =
      match lookbackHours with
      | none => loaded sort (store.directory conditionId)
      | some hours =>
        (loaded sort (store.directory conditionId)).filter fun row => now - 3600 * hours ≤ row.timestamp := by
  rw [loadHistory]
  by_cases hframes : (frames (store.directory conditionId)).isEmpty = true
  · have hloaded : loaded sort (store.directory conditionId) = [] := by
      rw [loaded, List.isEmpty_iff.mp hframes, List.flatten_nil, List.perm_nil.mp (sort.perm [])]
      rfl
    rw [if_pos hframes, hloaded]
    cases lookbackHours <;> rfl
  · rw [if_neg hframes]
    cases lookbackHours with
    | none => rfl
    | some hours =>
      dsimp only
      split_ifs with hempty
      · exact (List.isEmpty_iff.mp hempty).symm
      · rfl

lemma Holds.mem_loaded (h : Holds dateOf conditionId events dir) {r : SnapshotRow}
    (hr : r ∈ loaded sort dir) : r ∈ kept dateOf conditionId (dateOf r.timestamp) events := by
  have hmem := (sort.perm _).mem_iff.mp (mem_of_mem_dropDuplicates hr)
  obtain ⟨date, hkept⟩ := h.mem_flatten.mp hmem
  rwa [dateOf_of_mem_kept hkept]

lemma Holds.exists_mem_loaded (h : Holds dateOf conditionId events dir) (sort : TimestampSort) {date : ℤ}
    {r : SnapshotRow} (hr : r ∈ kept dateOf conditionId date events) :
    ∃ r' ∈ loaded sort dir, r'.timestamp = r.timestamp :=
  exists_mem_dropDuplicates ((sort.perm _).mem_iff.mpr (h.mem_flatten.mpr ⟨date, hr⟩))

/-- Of rows with times of their own all are loaded. -/
lemma Holds.mem_loaded_iff (h : Holds dateOf conditionId events dir)
    (hdistinct : ∀ date, ∀ r ∈ kept dateOf conditionId date events,
      ∀ r' ∈ kept dateOf conditionId date events, r.timestamp = r'.timestamp → r = r')
    {r : SnapshotRow} :
    r ∈ loaded sort dir ↔ r ∈ kept dateOf conditionId (dateOf r.timestamp) events := by
  refine ⟨h.mem_loaded, fun hr => ?_⟩
  obtain ⟨r', hr', htime⟩ := h.exists_mem_loaded sort hr
  have hkept' := h.mem_loaded hr'
  rw [htime] at hkept'
  rwa [← hdistinct _ r' hkept' r hr htime]

/-- Rows in the strict order of their times are settled by which ones they are. -/
lemma eq_of_pairwise_lt {rows' : List SnapshotRow}
    (h : rows.Pairwise fun r r' => r.timestamp < r'.timestamp)
    (h' : rows'.Pairwise fun r r' => r.timestamp < r'.timestamp) (hmem : ∀ r, r ∈ rows ↔ r ∈ rows') :
    rows = rows' := by
  have hnodup : rows.Nodup := h.imp fun hlt heq => hlt.ne (congrArg _ heq)
  have hnodup' : rows'.Nodup := h'.imp fun hlt heq => hlt.ne (congrArg _ heq)
  refine ((List.perm_ext_iff_of_nodup hnodup hnodup').mpr hmem).eq_of_pairwise
    (fun r r' _ _ hlt hgt => absurd hgt hlt.asymm) h h'

lemma loaded_pairwise : (loaded sort dir).Pairwise fun r r' => r.timestamp < r'.timestamp :=
  dropDuplicates_pairwise (sort.sorted _)

lemma loadHistory_pairwise (now : Time) (lookbackHours : Option ℤ) :
    ((store.loadHistory sort now conditionId lookbackHours).getD []).Pairwise
      fun r r' => r.timestamp < r'.timestamp := by
  rw [loadHistory_getD]
  cases lookbackHours with
  | none => exact loaded_pairwise
  | some hours => exact loaded_pairwise.filter _

lemma mem_loadHistory {now : Time} {lookbackHours : Option ℤ} {r : SnapshotRow} :
    r ∈ (store.loadHistory sort now conditionId lookbackHours).getD [] ↔
      r ∈ loaded sort (store.directory conditionId) ∧ Recent now lookbackHours r := by
  rw [loadHistory_getD]
  cases lookbackHours with
  | none => simp [Recent]
  | some hours => simp [Recent]

/-- Nothing is loaded only if there is no row to load. -/
lemma loadHistory_eq_none (h : Holds dateOf conditionId events (store.directory conditionId))
    (sort : TimestampSort) (now : Time) (lookbackHours : Option ℤ) :
    store.loadHistory sort now conditionId lookbackHours = none ↔
      (store.loadHistory sort now conditionId lookbackHours).getD [] = [] := by
  constructor
  · intro hnone
    rw [hnone]
    rfl
  · intro hnil
    rw [loadHistory] at hnil ⊢
    split_ifs at hnil ⊢ with hframes
    · rfl
    · have hflat : loaded sort (store.directory conditionId) ≠ [] := by
        intro hloaded
        refine hframes (List.isEmpty_iff.mpr (h.frames_eq_nil.mpr (List.eq_nil_iff_forall_not_mem.mpr ?_)))
        intro r hr
        obtain ⟨r', hr', -⟩ := exists_mem_dropDuplicates ((sort.perm _).mem_iff.mpr hr)
        rw [← loaded, hloaded] at hr'
        cases hr'
      cases lookbackHours with
      | none => exact absurd hnil hflat
      | some hours =>
        dsimp only at hnil ⊢
        split_ifs at hnil ⊢ with hempty
        · rfl
        · exact absurd (List.isEmpty_iff.mpr hnil) hempty

/-- What is loaded for a market after any saves and damages: rows in the strict order of their times, all
of them kept and recent, and one for the time of each kept and recent row; nothing if there is none. -/
theorem loadHistory_spec (dateOf : DateOf) (sort : TimestampSort) (events : List StoreEvent)
    (conditionId : String) (now : Time) (lookbackHours : Option ℤ) :
    let history := (after dateOf events).loadHistory sort now conditionId lookbackHours
    let rows := history.getD []
    (history = none ↔ rows = []) ∧ (rows.Pairwise fun r r' => r.timestamp < r'.timestamp) ∧
      (∀ r ∈ rows, r ∈ kept dateOf conditionId (dateOf r.timestamp) events ∧ Recent now lookbackHours r) ∧
      ∀ date, ∀ r ∈ kept dateOf conditionId date events, Recent now lookbackHours r →
        ∃ r' ∈ rows, r'.timestamp = r.timestamp := by
  have h := holds_after dateOf conditionId events
  refine ⟨loadHistory_eq_none h sort now lookbackHours, loadHistory_pairwise now lookbackHours, fun r hr => ?_,
    fun date r hr hrecent => ?_⟩
  · obtain ⟨hloaded, hrecent⟩ := mem_loadHistory.mp hr
    exact ⟨h.mem_loaded hloaded, hrecent⟩
  · obtain ⟨r', hr', htime⟩ := h.exists_mem_loaded sort hr
    refine ⟨r', mem_loadHistory.mpr ⟨hr', fun hours hhours => ?_⟩, htime⟩
    rw [htime]
    exact hrecent hours hhours

/-- What is loaded depends only on which rows were kept, as long as these have times of their own: not on
the order of the saves, on other markets, on what was moved aside or on how ties are sorted. -/
theorem loadHistory_congr (dateOf : DateOf) (sort sort' : TimestampSort) (events events' : List StoreEvent)
    (conditionId : String) (now : Time) (lookbackHours : Option ℤ)
    (hsame : ∀ date r, r ∈ kept dateOf conditionId date events ↔ r ∈ kept dateOf conditionId date events')
    (hdistinct : ∀ date, ∀ r ∈ kept dateOf conditionId date events,
      ∀ r' ∈ kept dateOf conditionId date events, r.timestamp = r'.timestamp → r = r') :
    (after dateOf events).loadHistory sort now conditionId lookbackHours =
      (after dateOf events').loadHistory sort' now conditionId lookbackHours := by
  have h := holds_after dateOf conditionId events
  have h' := holds_after dateOf conditionId events'
  have hmem : ∀ r, r ∈ loaded sort ((after dateOf events).directory conditionId) ↔
      r ∈ loaded sort' ((after dateOf events').directory conditionId) := by
    intro r
    rw [h.mem_loaded_iff hdistinct, h'.mem_loaded_iff, hsame]
    simpa only [hsame] using hdistinct
  have hrows : ((after dateOf events).loadHistory sort now conditionId lookbackHours).getD [] =
      ((after dateOf events').loadHistory sort' now conditionId lookbackHours).getD [] := by
    apply eq_of_pairwise_lt (loadHistory_pairwise now lookbackHours) (loadHistory_pairwise now lookbackHours)
    intro r
    rw [mem_loadHistory, mem_loadHistory, hmem]
  have hnone := loadHistory_eq_none h sort now lookbackHours
  have hnone' := loadHistory_eq_none h' sort' now lookbackHours
  rw [hrows, ← hnone'] at hnone
  cases hload : (after dateOf events).loadHistory sort now conditionId lookbackHours with
  | none => exact (hnone.mp hload).symm
  | some rows =>
    cases hload' : (after dateOf events').loadHistory sort' now conditionId lookbackHours with
    | none => exact absurd (hnone.mpr hload') (by simp [hload])
    | some rows' =>
      rw [hload, hload'] at hrows
      exact congrArg some hrows

/-- A stable sort. -/
def stableSort : TimestampSort where
  sort := sortBy (·.timestamp)
  perm := sortBy_perm _
  sorted := sortBy_pairwise _

/-- A save of a row with the price `1/2`. -/
def saveAt (conditionId : String) (timestamp : Time) : StoreEvent :=
  .save conditionId ⟨timestamp, .finite (1 / 2), 0, 0, 0, 0, 0⟩ 0 true

theorem loadHistory_congr_saveAt :
    (after (· / 86400) [saveAt "a" 9, saveAt "b" 7, saveAt "a" 5]).loadHistory stableSort 10 "a" (some 1) =
      (after (· / 86400) [saveAt "a" 5, saveAt "a" 9]).loadHistory stableSort 10 "a" (some 1) := by
  apply loadHistory_congr
  · intro date r
    by_cases hdate : 0 = date
    · subst hdate
      simp [kept, run, keptStep, saveAt, or_comm]
    · simp [kept, run, keptStep, saveAt, hdate]
  · intro date
    by_cases hdate : 0 = date
    · subst hdate
      simp [kept, run, keptStep, saveAt]
    · simp [kept, run, keptStep, saveAt, hdate]

end HistoryStore
end PolyCortex
