import Mathlib.Algebra.BigOperators.Group.List.Basic
import PolyCortex.Data.Dict

/-!
# Grouping

`groupFold` sorts rows into the bindings of a dictionary, one at a time: the binding of a row's key is
created when it is not there, and updated. What adds up over the rows adds up over the groups
(`sum_groupFold`), and every row is in one group (`sum_countP_groupFold`).
-/

namespace Dict

variable {κ α β M : Type}

/-- Apply `f` to every value; the values may change their type. -/
def map (d : Dict κ α) (f : α → β) : Dict κ β where
  keys := d.keys
  get? k := (d.get? k).map f
  nodup := d.nodup
  mem_keys k := by simp [d.mem_keys]

lemma values_map (d : Dict κ α) (f : α → β) : (d.map f).values = d.values.map f := by
  rw [values, values, List.map_filterMap]
  rfl

variable [DecidableEq κ]

/-- Update the binding of `k`, which is `init` when there is none. -/
def upsert (d : Dict κ α) (k : κ) (init : α) (f : α → α) : Dict κ α :=
  d.set k (f ((d.get? k).getD init))

/-- Sort the rows by their key. -/
def groupFold (key : β → κ) (init : α) (step : β → α → α) (rows : List β) : Dict κ α :=
  rows.foldl (fun d row => d.upsert (key row) init (step row)) empty

variable [AddCommMonoid M] {d : Dict κ α} {k : κ} {init : α} {m : α → M} {key : β → κ}
  {step : β → α → α} {weight : β → M}

omit [DecidableEq κ] in
/-- A sum over the values, by the keys. -/
lemma sum_values (d : Dict κ α) (m : α → M) :
    (d.values.map m).sum = (d.keys.map fun k => ((d.get? k).map m).getD 0).sum := by
  have hkeys : ∀ keys : List κ, (∀ k ∈ keys, (d.get? k).isSome = true) →
      ((keys.filterMap d.get?).map m).sum = (keys.map fun k => ((d.get? k).map m).getD 0).sum := by
    intro keys hbound
    induction keys with
    | nil => rfl
    | cons k keys ih =>
      obtain ⟨a, ha⟩ := Option.isSome_iff_exists.mp (hbound k List.mem_cons_self)
      rw [List.filterMap_cons_some ha, List.map_cons, List.sum_cons,
        ih fun j hj => hbound j (List.mem_cons_of_mem _ hj), List.map_cons, List.sum_cons, ha]
      rfl
  exact hkeys d.keys fun k hk => (d.mem_keys k).mp hk

omit [DecidableEq κ] in
/-- A sum over distinct keys, when one of the terms grows. -/
lemma sum_map_of_grows {keys : List κ} (hnodup : keys.Nodup) (hk : k ∈ keys) {f g : κ → M} {w : M}
    (hgrows : g k = f k + w) (hsame : ∀ j ≠ k, g j = f j) :
    (keys.map g).sum = (keys.map f).sum + w := by
  induction keys with
  | nil => cases hk
  | cons j keys ih =>
    obtain ⟨hnew, hnodup⟩ := List.nodup_cons.mp hnodup
    rw [List.map_cons, List.map_cons, List.sum_cons, List.sum_cons]
    rcases List.mem_cons.mp hk with rfl | hk
    · have hrest : keys.map g = keys.map f :=
        List.map_congr_left fun i hi => hsame i fun heq => hnew (heq ▸ hi)
      rw [hgrows, hrest, add_right_comm]
    · rw [hsame j fun heq => hnew (heq ▸ hk), ih hnodup hk, add_assoc]

/-- An update that adds `w` to one value adds `w` to the sum. -/
lemma sum_upsert {f : α → α} {w : M} (hinit : m init = 0) (hf : ∀ a, m (f a) = m a + w) :
    ((d.upsert k init f).values.map m).sum = (d.values.map m).sum + w := by
  rw [sum_values, sum_values]
  have hother : ∀ j ≠ k, (((d.upsert k init f).get? j).map m).getD 0 = ((d.get? j).map m).getD 0 :=
    fun j hj => by rw [upsert, get?_set_of_ne d hj]
  cases hget : d.get? k with
  | none =>
    have hnew : k ∉ d.keys := fun hk => by
      rw [d.mem_keys, hget] at hk
      cases hk
    have hkeys : (d.upsert k init f).keys = d.keys ++ [k] := keys_set_of_none hget _
    have hvalue : (((d.upsert k init f).get? k).map m).getD 0 = w := by
      rw [upsert, get?_set_self, hget, Option.getD_none, Option.map_some, Option.getD_some, hf, hinit,
        zero_add]
    rw [hkeys, List.map_append, List.sum_append, List.map_singleton, List.sum_singleton, hvalue]
    congr 2
    exact List.map_congr_left fun j hj => hother j fun heq => hnew (heq ▸ hj)
  | some a =>
    have hkeys : (d.upsert k init f).keys = d.keys := by
      simp [upsert, set, hget]
    have hvalue : (((d.upsert k init f).get? k).map m).getD 0 = ((d.get? k).map m).getD 0 + w := by
      rw [upsert, get?_set_self, hget, Option.getD_some, Option.map_some, Option.getD_some, hf,
        Option.map_some, Option.getD_some]
    rw [hkeys]
    exact sum_map_of_grows d.nodup (mem_keys_of_get? hget) hvalue hother

/-- Setting a key puts the new value in the place of the old one. -/
lemma sum_set (d : Dict κ α) (k : κ) (a : α) (m : α → M) :
    ((d.set k a).values.map m).sum + ((d.get? k).map m).getD 0 = (d.values.map m).sum + m a := by
  rw [sum_values, sum_values]
  have hself : (((d.set k a).get? k).map m).getD 0 = m a := by
    rw [get?_set_self, Option.map_some, Option.getD_some]
  have hother : ∀ j ≠ k, (((d.set k a).get? j).map m).getD 0 = ((d.get? j).map m).getD 0 :=
    fun j hj => by rw [get?_set_of_ne d hj]
  cases hget : d.get? k with
  | none =>
    have hnew : k ∉ d.keys := fun hk => by
      rw [d.mem_keys, hget] at hk
      cases hk
    rw [keys_set_of_none hget, List.map_append, List.sum_append, List.map_singleton,
      List.sum_singleton, hself, Option.map_none, Option.getD_none, add_zero]
    congr 2
    exact List.map_congr_left fun j hj => hother j fun heq => hnew (heq ▸ hj)
  | some old =>
    have hkeys : (d.set k a).keys = d.keys := by simp [set, hget]
    have hk : k ∈ d.keys := mem_keys_of_get? hget
    have hrest : (d.keys.erase k).map (fun j => (((d.set k a).get? j).map m).getD 0) =
        (d.keys.erase k).map fun j => ((d.get? j).map m).getD 0 :=
      List.map_congr_left fun j hj => hother j fun heq => d.nodup.not_mem_erase (heq ▸ hj)
    rw [hkeys, ← List.sum_map_erase _ hk, hself, hrest, ← List.sum_map_erase _ hk, hget]
    abel

/-- What a row adds to its group adds up over the groups as it does over the rows. -/
lemma sum_groupFold (hinit : m init = 0) (hstep : ∀ row a, m (step row a) = m a + weight row)
    (rows : List β) :
    ((groupFold key init step rows).values.map m).sum = (rows.map weight).sum := by
  induction rows using List.reverseRecOn with
  | nil => rfl
  | append_singleton rows row ih =>
    rw [groupFold, List.foldl_append, List.foldl_cons, List.foldl_nil, sum_upsert hinit (hstep row),
      List.map_append, List.sum_append, List.map_singleton, List.sum_singleton, ← ih]
    rfl

/-! ### The rows of the groups -/

omit [AddCommMonoid M] in
/-- The binding of a key comes from the rows of the key, in their order. -/
lemma get?_groupFold (rows : List β) (k : κ) :
    (groupFold key init step rows).get? k =
      if ∃ row ∈ rows, key row = k then
        some ((rows.filter (key · = k)).foldl (fun a row => step row a) init)
      else none := by
  induction rows using List.reverseRecOn with
  | nil => simp [groupFold]
  | append_singleton rows row ih =>
    rw [groupFold, List.foldl_append, List.foldl_cons, List.foldl_nil, ← groupFold, upsert, get?_set]
    by_cases hk : k = key row
    · subst hk
      rw [ih]
      by_cases hrows : ∃ row' ∈ rows, key row' = key row
      · simp [hrows, List.filter_append, List.foldl_append]
      · have hnone : rows.filter (key · = key row) = [] := by
          simpa [List.filter_eq_nil_iff] using hrows
        simp [hrows, hnone, List.filter_append]
    · rw [if_neg hk, ih]
      simp [Ne.symm hk, List.filter_append]

omit [AddCommMonoid M] in
/-- After rows have set their keys, a key has the value that all of its rows give it. -/
lemma get?_foldl_set {value : β → α} {rows : List β} {row : β} {a : α} (hrow : row ∈ rows)
    (hvalue : ∀ row' ∈ rows, key row' = key row → value row' = a) :
    (rows.foldl (fun d row' => d.set (key row') (value row')) d).get? (key row) = some a := by
  induction rows using List.reverseRecOn with
  | nil => cases hrow
  | append_singleton rows last ih =>
    rw [List.foldl_append, List.foldl_cons, List.foldl_nil, get?_set]
    by_cases hlast : key row = key last
    · rw [if_pos hlast, hvalue last (by simp) hlast.symm]
    · rw [if_neg hlast]
      refine ih ?_ fun row' hrow' => hvalue row' (List.mem_append_left _ hrow')
      rcases List.mem_append.mp hrow with h | h
      · exact h
      · exact absurd (congrArg key (List.mem_singleton.mp h)) hlast

lemma mem_keys_groupFold (rows : List β) :
    k ∈ (groupFold key init step rows).keys ↔ ∃ row ∈ rows, key row = k := by
  induction rows using List.reverseRecOn with
  | nil => simp [groupFold]
  | append_singleton rows row ih =>
    rw [groupFold, List.foldl_append, List.foldl_cons, List.foldl_nil, ← groupFold, upsert, mem_keys,
      get?_set]
    by_cases hk : k = key row
    · simp [hk]
    · rw [if_neg hk, ← mem_keys, ih]
      simp [Ne.symm hk]

/-- Over distinct keys that cover the rows, the sums over the rows of every key add up to the sum over
the rows. -/
lemma sum_filter_keys {keys : List κ} (hnodup : keys.Nodup) {rows : List β}
    (hcover : ∀ row ∈ rows, key row ∈ keys) :
    (keys.map fun k => ((rows.filter (key · = k)).map weight).sum).sum = (rows.map weight).sum := by
  induction rows with
  | nil => simp
  | cons row rows ih =>
    have hrows := ih fun row hrow => hcover row (List.mem_cons_of_mem _ hrow)
    rw [List.map_cons, List.sum_cons, ← hrows, add_comm]
    exact sum_map_of_grows hnodup (hcover row List.mem_cons_self)
      (by simp [add_comm]) fun k hk => by simp [hk.symm]

/-- Over distinct keys that cover the rows, the rows of all keys are all rows. -/
lemma sum_countP_keys {keys : List κ} (hnodup : keys.Nodup) {rows : List β}
    (hcover : ∀ row ∈ rows, key row ∈ keys) :
    (keys.map fun k => rows.countP (key · = k)).sum = rows.length := by
  have hsum : (keys.map fun k => ((rows.filter (key · = k)).map fun _ => 1).sum).sum =
      (rows.map fun _ => 1).sum := sum_filter_keys hnodup hcover
  simpa [List.countP_eq_length_filter] using hsum

/-- Every row is in one group. -/
lemma sum_countP_groupFold (rows : List β) :
    ((groupFold key init step rows).keys.map fun k => rows.countP (key · = k)).sum = rows.length :=
  sum_countP_keys (Dict.nodup _) fun row hrow => (mem_keys_groupFold rows).mpr ⟨row, hrow, rfl⟩

end Dict
