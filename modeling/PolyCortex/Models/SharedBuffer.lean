import PolyCortex.Models.Regime

/-!
# The buffer of all markets

One detector predicts the regime of every market of a cycle, and its buffer keeps the observations of all
of them. What a market is told depends on its own observations alone only as far as the windows at its
calls do (`labels_agree_iff`).
-/

namespace PolyCortex.RegimeDetector

variable {M : Type} {d : RegimeDetector M} {market : MarketId} {hmm : Hmm M}
  {run run' : List (MarketId × Observation)}

/-- The labels a market is told, in a run of calls of `predict` with the market each is for. -/
def labels (hmm : Hmm M) (market : MarketId) :
    List (MarketId × Observation) → RegimeDetector M → List Regime
  | [], _ => []
  | (other, observation) :: run, d =>
    let (label, d') := d.predict hmm observation
    if other = market then label :: labels hmm market run d' else labels hmm market run d'

/-- The last observations at the calls for a market, of all that the detector has been shown. -/
def windows (bufferMaxlen : ℕ) (market : MarketId) :
    List (MarketId × Observation) → List Observation → List (List Observation)
  | [], _ => []
  | (other, observation) :: run, shown =>
    if other = market then
      keepLast bufferMaxlen (shown ++ [observation]) ::
        windows bufferMaxlen market run (shown ++ [observation])
    else windows bufferMaxlen market run (shown ++ [observation])

/-- What the model makes of a window. -/
def labelOf (hmm : Hmm M) (d : RegimeDetector M) (window : List Observation) : Regime :=
  match hmm.predict d.model window with
  | some state => (d.regimeLabels[state]?).getD .stable
  | none => .stable

/-- The observations that a market contributes, in their order. -/
def observationsOf (market : MarketId) (run : List (MarketId × Observation)) : List Observation :=
  (run.filter (·.1 = market)).map (·.2)

/-! ### The buffer -/

/-- Forgetting in between what is forgotten in the end makes no difference. -/
lemma keepLast_keepLast_append (n : ℕ) (shown : List Observation) (observation : Observation) :
    keepLast n (keepLast n shown ++ [observation]) = keepLast n (shown ++ [observation]) := by
  cases n with
  | zero => rfl
  | succ n =>
    simp only [keepLast, Nat.add_one_ne_zero, if_false, List.rtake_concat_succ]
    simp only [List.rtake_eq_reverse_take_reverse, List.reverse_reverse, List.take_take,
      Nat.min_eq_left (Nat.le_succ n)]

lemma predict_of_fitted (hfitted : d.fitted = true) (observation : Observation) :
    d.predict hmm observation =
      (labelOf hmm d (keepLast d.bufferMaxlen (d.historyBuffer ++ [observation])),
        { d with historyBuffer := keepLast d.bufferMaxlen (d.historyBuffer ++ [observation]) }) := by
  rw [predict, if_pos hfitted, labelOf]
  dsimp only
  cases hmm.predict d.model (keepLast d.bufferMaxlen (d.historyBuffer ++ [observation])) <;> rfl

/-- A fitted detector labels the windows. -/
lemma labels_of_fitted (hfitted : d.fitted = true) (run : List (MarketId × Observation))
    {shown : List Observation}
    (hshown : ∀ observation, keepLast d.bufferMaxlen (d.historyBuffer ++ [observation]) =
      keepLast d.bufferMaxlen (shown ++ [observation])) :
    labels hmm market run d = (windows d.bufferMaxlen market run shown).map (labelOf hmm d) := by
  induction run generalizing d shown with
  | nil => rfl
  | cons call run ih =>
    obtain ⟨other, observation⟩ := call
    have hnext : ∀ next, keepLast d.bufferMaxlen
        (keepLast d.bufferMaxlen (d.historyBuffer ++ [observation]) ++ [next]) =
          keepLast d.bufferMaxlen (shown ++ [observation] ++ [next]) := by
      intro next
      rw [hshown, keepLast_keepLast_append]
    have hrest := ih (d := { d with
      historyBuffer := keepLast d.bufferMaxlen (d.historyBuffer ++ [observation]) }) hfitted hnext
    rw [labels, windows, predict_of_fitted hfitted]
    dsimp only
    split_ifs with hmarket
    · rw [List.map_cons, hrest, hshown]
      rfl
    · exact hrest

lemma labels_of_not_fitted (hfitted : d.fitted = false) (run : List (MarketId × Observation)) :
    labels hmm market run d = (observationsOf market run).map fun _ => .stable := by
  induction run with
  | nil => rfl
  | cons call run ih =>
    obtain ⟨other, observation⟩ := call
    have hpredict : d.predict hmm observation = (.stable, d) := by
      rw [predict, if_neg (by simp [hfitted])]
    rw [labels, hpredict]
    dsimp only
    rw [ih]
    by_cases hmarket : other = market
    · simp [observationsOf, hmarket]
    · simp [observationsOf, hmarket]

/-! ### Two runs -/

lemma length_windows (bufferMaxlen : ℕ) (market : MarketId) (run : List (MarketId × Observation))
    (shown : List Observation) :
    (windows bufferMaxlen market run shown).length = (observationsOf market run).length := by
  induction run generalizing shown with
  | nil => rfl
  | cons call run ih =>
    obtain ⟨other, observation⟩ := call
    rw [windows]
    split_ifs with hmarket
    · rw [List.length_cons, ih]
      simp [observationsOf, hmarket]
    · rw [ih]
      simp [observationsOf, hmarket]

/-- Without a label other than `stable` the windows do not matter. -/
lemma labelOf_of_stable (h : ∀ label ∈ d.regimeLabels, label = .stable) (window : List Observation) :
    labelOf hmm d window = .stable := by
  rw [labelOf]
  cases hmm.predict d.model window with
  | none => rfl
  | some state =>
    dsimp only
    cases hlabel : d.regimeLabels[state]? with
    | none => rfl
    | some label => exact h label (List.mem_of_getElem? hlabel)

/-- Some model tells two windows apart when a label is not `stable`. -/
lemma exists_predict_ne {label : Regime} (hlabel : label ∈ d.regimeLabels) (hne : label ≠ .stable)
    {window window' : List Observation} (hwindow : window' ≠ window) (hmm : Hmm M) :
    ∃ predict, labelOf { hmm with predict } d window ≠ labelOf { hmm with predict } d window' := by
  obtain ⟨state, hstate⟩ := List.mem_iff_getElem?.mp hlabel
  refine ⟨fun _ shown => if shown = window then some state else none, ?_⟩
  simp [labelOf, hwindow, hstate, hne]

/-- A market with the same observations in two runs is told the same by every model exactly when there
is but one label to tell, or the last observations at its calls, of all markets, are the same. -/
theorem labels_agree_iff (hmm : Hmm M) (d : RegimeDetector M)
    (hsame : observationsOf market run = observationsOf market run') :
    (∀ predict, labels { hmm with predict } market run d = labels { hmm with predict } market run' d) ↔
      d.fitted = false ∨ (∀ label ∈ d.regimeLabels, label = .stable) ∨
        windows d.bufferMaxlen market run d.historyBuffer =
          windows d.bufferMaxlen market run' d.historyBuffer := by
  cases hfitted : d.fitted with
  | false => simp [labels_of_not_fitted hfitted, hsame]
  | true =>
    have hlength : (windows d.bufferMaxlen market run d.historyBuffer).length =
        (windows d.bufferMaxlen market run' d.historyBuffer).length := by
      rw [length_windows, length_windows, hsame]
    have hlabels : ∀ predict run, labels { hmm with predict } market run d =
        (windows d.bufferMaxlen market run d.historyBuffer).map (labelOf { hmm with predict } d) :=
      fun predict run => labels_of_fitted hfitted run fun _ => rfl
    simp only [hlabels]
    constructor
    · intro hagree
      by_cases hstable : ∀ label ∈ d.regimeLabels, label = .stable
      · exact Or.inr (Or.inl hstable)
      · refine Or.inr (Or.inr (List.ext_getElem hlength fun i hi hi' => ?_))
        by_contra hne
        push Not at hstable
        obtain ⟨label, hlabel, hnot⟩ := hstable
        obtain ⟨predict, hpredict⟩ := exists_predict_ne hlabel hnot (Ne.symm hne) hmm
        refine hpredict ?_
        have hat := congrArg (fun labels => labels[i]?) (hagree predict)
        simpa [hi, hi'] using hat
    · rintro (hnot | hstable | hwindows) predict
      · cases hnot
      · have hconst : labelOf { hmm with predict } d = fun _ => .stable :=
          funext (labelOf_of_stable hstable)
        rw [hconst, List.map_const', List.map_const', hlength]
      · rw [hwindows]

/-- A detector with the three labels. -/
def fittedDetector : RegimeDetector Unit where
  model := ()
  fitted := true
  regimeLabels := [.stable, .trending, .volatile]

/-- A model that finds longer windows volatile. -/
def lengthHmm : Hmm Unit where
  unfitted := ()
  fit _ _ := ((), true)
  volatilityMeans _ := []
  predict _ window := some (if window.length = 1 then 0 else 2)
  std _ := 0

def calm : Observation := ⟨1 / 100, 1, 1 / 50⟩

def wild : Observation := ⟨1 / 5, 4, 1 / 10⟩

theorem labels_agree_iff_later :
    labels lengthHmm "left" [("left", calm), ("right", wild)] fittedDetector =
      labels lengthHmm "left" [("left", calm)] fittedDetector := by
  have hsame : observationsOf "left" [("left", calm), ("right", wild)] =
      observationsOf "left" [("left", calm)] := rfl
  exact (labels_agree_iff lengthHmm fittedDetector hsame).mpr (Or.inr (Or.inr rfl)) lengthHmm.predict

/-- An observation of another market before the call changes the label. -/
theorem other_market_changes_label :
    observationsOf "left" [("right", wild), ("left", calm)] = observationsOf "left" [("left", calm)] ∧
      labels lengthHmm "left" [("left", calm)] fittedDetector = [.stable] ∧
      labels lengthHmm "left" [("right", wild), ("left", calm)] fittedDetector = [.volatile] :=
  ⟨rfl, rfl, rfl⟩

end PolyCortex.RegimeDetector
