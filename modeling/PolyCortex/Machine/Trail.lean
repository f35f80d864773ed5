import PolyCortex.Machine.History

/-!
# Trailing a running maximum

A trail follows the values of a linear order: it keeps the greatest one so far and a bound that is an
offset of it, until a value does not exceed the bound. For a monotone offset the bound is the offset of
the running maximum (`Consistent`), so that the first value that trips the trail can be read off the
values.
-/

namespace Machine

/-- The greatest value so far, the bound, and whether a value has not exceeded it. -/
structure Trail (α : Type) where
  peak : α
  bound : α
  triggered : Bool

namespace Trail

variable {α : Type} [LinearOrder α] (offset : α → α)

def start (initial : α) : Trail α := ⟨initial, offset initial, false⟩

/-- A new maximum moves the bound, if that is up. -/
def advance (t : Trail α) (value : α) : Trail α :=
  { t with
    peak := max t.peak value
    bound := if t.peak < value ∧ t.bound < offset value then offset value else t.bound }

/-- A value that does not exceed the bound ends the trail. -/
def update (t : Trail α) (value : α) : Trail α :=
  if t.triggered then t
  else { t.advance offset value with triggered := decide (value ≤ (t.advance offset value).bound) }

/-- The greatest value of a list and an initial one. -/
def peakOf (initial : α) (values : List α) : α := values.foldl max initial

/-- Some value does not exceed the offset of the greatest one up to it. -/
def Trips (initial : α) : List α → Prop :=
  Occurs fun before value => value ≤ offset (peakOf initial (before ++ [value]))

@[simp] lemma peakOf_concat (initial value : α) (values : List α) :
    peakOf initial (values ++ [value]) = max (peakOf initial values) value := by
  simp [peakOf]

variable {offset} {initial value : α} {values : List α} {t : Trail α}

@[simp] lemma not_trips_nil : ¬ Trips offset initial [] := not_occurs_nil

lemma trips_concat :
    Trips offset initial (values ++ [value]) ↔
      Trips offset initial values ∨ value ≤ offset (peakOf initial (values ++ [value])) :=
  occurs_concat

lemma update_of_triggered (h : t.triggered = true) : t.update offset value = t := by
  rw [update, if_pos h]

lemma update_of_not (h : t.triggered = false) :
    t.update offset value =
      { t.advance offset value with triggered := decide (value ≤ (t.advance offset value).bound) } := by
  rw [update, if_neg (by simp [h])]

lemma bound_le_advance (t : Trail α) (value : α) : t.bound ≤ (t.advance offset value).bound := by
  rw [advance]
  split_ifs with hmoves
  · exact hmoves.2.le
  · exact le_rfl

lemma bound_le_update (t : Trail α) (value : α) : t.bound ≤ (t.update offset value).bound := by
  cases htriggered : t.triggered with
  | true => rw [update_of_triggered htriggered]
  | false =>
    rw [update_of_not htriggered]
    exact bound_le_advance t value

variable (offset initial) in
/-- While the trail lasts its bound is the offset of the running maximum; it has ended when a value has
tripped it. -/
structure Consistent (values : List α) (t : Trail α) : Prop where
  peak : t.triggered = false → t.peak = peakOf initial values
  bound : t.triggered = false → t.bound = offset (peakOf initial values)
  triggered : t.triggered = true ↔ Trips offset initial values

/-- A new maximum has an offset that is not smaller, so the bound is the offset of the maximum. -/
lemma bound_advance (hoffset : Monotone offset) (hbound : t.bound = offset t.peak) :
    (t.advance offset value).bound = offset (max t.peak value) := by
  rw [advance]
  dsimp only
  rcases le_or_gt value t.peak with hle | hlt
  · rw [if_neg fun h => absurd h.1 (not_lt.mpr hle), max_eq_left hle, hbound]
  · rw [max_eq_right hlt.le]
    split_ifs with hmoves
    · rfl
    · have hle : offset value ≤ t.bound := not_lt.mp fun h => hmoves ⟨hlt, h⟩
      exact le_antisymm (hbound ▸ hoffset hlt.le) hle

lemma Consistent.update (hoffset : Monotone offset) (h : Consistent offset initial values t)
    (value : α) : Consistent offset initial (values ++ [value]) (t.update offset value) := by
  cases htriggered : t.triggered with
  | true =>
    rw [update_of_triggered htriggered]
    refine ⟨fun hfalse => ?_, fun hfalse => ?_, ?_⟩
    · rw [htriggered] at hfalse
      cases hfalse
    · rw [htriggered] at hfalse
      cases hfalse
    · rw [trips_concat, htriggered]
      exact iff_of_true rfl (Or.inl (h.triggered.mp htriggered))
  | false =>
    have hpeak := h.peak htriggered
    have hbound : (t.advance offset value).bound = offset (peakOf initial (values ++ [value])) := by
      rw [bound_advance hoffset (hpeak ▸ h.bound htriggered), hpeak, peakOf_concat]
    have hnot : ¬ Trips offset initial values := by
      rw [← h.triggered, htriggered]
      exact Bool.false_ne_true
    rw [update_of_not htriggered]
    refine ⟨fun _ => ?_, fun _ => hbound, ?_⟩
    · rw [peakOf_concat, ← hpeak]
      rfl
    · rw [trips_concat, or_iff_right hnot, ← hbound]
      exact decide_eq_true_iff

/-- A trail from its start on is consistent. -/
theorem run_consistent (hoffset : Monotone offset) (initial : α) (values : List α) :
    Consistent offset initial values (run (update offset) (start offset initial) values) := by
  apply run_history
  · exact ⟨fun _ => rfl, fun _ => rfl, iff_of_false Bool.false_ne_true not_trips_nil⟩
  · exact fun before t value h => h.update hoffset value

end Trail
end Machine
