import Mathlib.Data.List.Nodup
import Mathlib.Tactic

/-!
# Insertion-ordered dictionaries

A finite map that remembers the order in which its keys were first set, as the `dict` of Python
does. The fields `nodup` and `mem_keys` tie the list of keys to the lookup, so that iterating over
`values` visits every binding exactly once.
-/

/-- A finite map from `κ` to `α` with the keys in insertion order. -/
@[ext]
structure Dict (κ α : Type) where
  keys : List κ
  get? : κ → Option α
  nodup : keys.Nodup
  mem_keys : ∀ k, k ∈ keys ↔ (get? k).isSome = true

namespace Dict

variable {κ α β : Type}

def empty : Dict κ α where
  keys := []
  get? _ := none
  nodup := List.nodup_nil
  mem_keys _ := by simp

/-- The values, oldest key first. -/
def values (d : Dict κ α) : List α := d.keys.filterMap d.get?

/-- The bindings, oldest key first. -/
def items (d : Dict κ α) : List (κ × α) := d.keys.filterMap fun k => (d.get? k).map (k, ·)

/-- Keep the bindings that satisfy `p`. -/
def filter (d : Dict κ α) (p : κ → α → Bool) : Dict κ α where
  keys := d.keys.filter fun k => (d.get? k).any (p k)
  get? k := (d.get? k).filter (p k)
  nodup := d.nodup.filter _
  mem_keys k := by
    rw [List.mem_filter, d.mem_keys]
    cases d.get? k <;> simp

/-- Apply `f` to every value. -/
def mapValues (d : Dict κ α) (f : κ → α → α) : Dict κ α where
  keys := d.keys
  get? k := (d.get? k).map (f k)
  nodup := d.nodup
  mem_keys k := by simp [d.mem_keys]

@[simp] lemma get?_empty (k : κ) : (empty : Dict κ α).get? k = none := rfl

@[simp] lemma keys_empty : (empty : Dict κ α).keys = [] := rfl

@[simp] lemma get?_mapValues (d : Dict κ α) (f : κ → α → α) (k : κ) :
    (d.mapValues f).get? k = (d.get? k).map (f k) := rfl

@[simp] lemma keys_mapValues (d : Dict κ α) (f : κ → α → α) : (d.mapValues f).keys = d.keys := rfl

lemma mapValues_mapValues (d : Dict κ α) (f g : κ → α → α) :
    (d.mapValues f).mapValues g = d.mapValues fun k a => g k (f k a) := by
  refine Dict.ext rfl (funext fun k => ?_)
  rw [get?_mapValues, get?_mapValues, get?_mapValues, Option.map_map]
  rfl

lemma mapValues_congr {d : Dict κ α} {f g : κ → α → α}
    (h : ∀ k a, d.get? k = some a → f k a = g k a) : d.mapValues f = d.mapValues g := by
  refine Dict.ext rfl (funext fun k => ?_)
  rw [get?_mapValues, get?_mapValues]
  cases hk : d.get? k with
  | none => rfl
  | some a => rw [Option.map_some, Option.map_some, h k a hk]

/-- A function on the values changes nothing when it changes no value. -/
lemma mapValues_eq_self_iff {d : Dict κ α} {f : κ → α → α} :
    d.mapValues f = d ↔ ∀ k a, d.get? k = some a → f k a = a := by
  constructor
  · intro h k a hk
    have hget : (d.mapValues f).get? k = d.get? k := by rw [h]
    rwa [get?_mapValues, hk, Option.map_some, Option.some.injEq] at hget
  · intro h
    rw [mapValues_congr h]
    exact Dict.ext rfl (funext fun k => by simp)

@[simp] lemma get?_filter (d : Dict κ α) (p : κ → α → Bool) (k : κ) :
    (d.filter p).get? k = (d.get? k).filter (p k) := rfl

lemma mem_keys_of_get? {d : Dict κ α} {k : κ} {a : α} (h : d.get? k = some a) : k ∈ d.keys :=
  (d.mem_keys k).mpr (by simp [h])

lemma mem_values_iff (d : Dict κ α) (a : α) : a ∈ d.values ↔ ∃ k, d.get? k = some a := by
  simp only [values, List.mem_filterMap]
  constructor
  · rintro ⟨k, _, h⟩
    exact ⟨k, h⟩
  · rintro ⟨k, h⟩
    exact ⟨k, mem_keys_of_get? h, h⟩

lemma mem_items {d : Dict κ α} {k : κ} {a : α} : (k, a) ∈ d.items ↔ d.get? k = some a := by
  simp only [items, List.mem_filterMap, Option.map_eq_some_iff, Prod.mk.injEq]
  constructor
  · rintro ⟨_, -, a, hget, rfl, rfl⟩
    exact hget
  · exact fun hget => ⟨k, mem_keys_of_get? hget, a, hget, rfl, rfl⟩

/-- The order of the keys aside, the bindings are what the lookup says. -/
lemma items_perm {d d' : Dict κ α} (h : ∀ k, d.get? k = d'.get? k) : d.items.Perm d'.items := by
  have hkeys : d.keys.Perm d'.keys := by
    rw [List.perm_ext_iff_of_nodup d.nodup d'.nodup]
    intro k
    rw [d.mem_keys, d'.mem_keys, h k]
  rw [items, items, funext h]
  exact hkeys.filterMap _

lemma items_mapValues (d : Dict κ α) (f : κ → α → α) :
    (d.mapValues f).items = d.items.map fun item => (item.1, f item.1 item.2) := by
  rw [items, items, List.map_filterMap, keys_mapValues]
  congr 1
  funext k
  rw [get?_mapValues, Option.map_map, Option.map_map]
  rfl

lemma items_filter (d : Dict κ α) (p : κ → α → Bool) :
    (d.filter p).items = d.items.filter fun item => p item.1 item.2 := by
  rw [items, items, List.filter_filterMap, filter, List.filterMap_filter]
  congr 1
  funext k
  dsimp only
  cases hget : d.get? k with
  | none => simp
  | some a => by_cases hp : p k a = true <;> simp [Option.filter, hp]

/-- A relation between the values of any two keys holds between the values in their order. -/
lemma pairwise_values {d : Dict κ α} {R : α → α → Prop}
    (h : ∀ j k a b, j ≠ k → d.get? j = some a → d.get? k = some b → R a b) :
    d.values.Pairwise R := by
  rw [values, List.pairwise_filterMap]
  exact d.nodup.imp fun hne a ha b hb => h _ _ a b hne ha hb

/-- Rename the keys along a bijection. -/
def mapKeys {κ' : Type} (d : Dict κ α) (e : κ ≃ κ') : Dict κ' α where
  keys := d.keys.map e
  get? k := d.get? (e.symm k)
  nodup := d.nodup.map e.injective
  mem_keys k := by
    rw [← d.mem_keys, List.mem_map]
    constructor
    · rintro ⟨j, hj, rfl⟩
      rwa [e.symm_apply_apply]
    · exact fun hk => ⟨e.symm k, hk, e.apply_symm_apply k⟩

@[simp] lemma keys_mapKeys {κ' : Type} (d : Dict κ α) (e : κ ≃ κ') :
    (d.mapKeys e).keys = d.keys.map e := rfl

@[simp] lemma get?_mapKeys {κ' : Type} (d : Dict κ α) (e : κ ≃ κ') (k : κ) :
    (d.mapKeys e).get? (e k) = d.get? k := by
  simp [mapKeys]

lemma mapKeys_filter {κ' : Type} (d : Dict κ α) (e : κ ≃ κ') (p' : κ' → α → Bool) :
    (d.mapKeys e).filter p' = (d.filter fun k => p' (e k)).mapKeys e := by
  refine Dict.ext ?_ (funext fun j => ?_)
  · simp [filter, List.filter_map, Function.comp_def]
  · obtain ⟨j, rfl⟩ := e.surjective j
    simp

lemma values_mapValues (d : Dict κ α) (f : α → α) :
    (d.mapValues fun _ => f).values = d.values.map f := by
  rw [values, values, List.map_filterMap]
  rfl

/-! ### Setting and updating one key -/

variable [DecidableEq κ]

/-- Bind `k` to `a`. A key that is already bound keeps its place in the order. -/
def set (d : Dict κ α) (k : κ) (a : α) : Dict κ α where
  keys := if (d.get? k).isSome then d.keys else d.keys ++ [k]
  get? := Function.update d.get? k (some a)
  nodup := by
    split_ifs with h
    · exact d.nodup
    · refine List.nodup_append.mpr ⟨d.nodup, List.nodup_singleton k, ?_⟩
      intro a ha b hb
      rw [List.mem_singleton] at hb
      subst hb
      rintro rfl
      exact h ((d.mem_keys a).mp ha)
  mem_keys j := by
    by_cases hj : j = k
    · subst hj
      split_ifs with h <;> simp [d.mem_keys, h]
    · rw [Function.update_of_ne hj]
      split_ifs <;> simp [d.mem_keys, hj]

/-- Apply `f` to the value of `k`, if there is one. -/
def modify (d : Dict κ α) (k : κ) (f : α → α) : Dict κ α :=
  d.mapValues fun j a => if j = k then f a else a

@[simp] lemma get?_set_self (d : Dict κ α) (k : κ) (a : α) : (d.set k a).get? k = some a := by
  simp [set]

lemma get?_set_of_ne (d : Dict κ α) {j k : κ} (h : j ≠ k) (a : α) :
    (d.set k a).get? j = d.get? j := by
  simp [set, h]

lemma get?_set (d : Dict κ α) (j k : κ) (a : α) :
    (d.set k a).get? j = if j = k then some a else d.get? j := by
  split_ifs with h
  · rw [h, get?_set_self]
  · exact d.get?_set_of_ne h a

lemma keys_set_of_none {d : Dict κ α} {k : κ} (h : d.get? k = none) (a : α) :
    (d.set k a).keys = d.keys ++ [k] := by
  simp [set, h]

/-- A key that was not bound comes last. -/
lemma items_set_of_none {d : Dict κ α} {k : κ} (h : d.get? k = none) (a : α) :
    (d.set k a).items = d.items ++ [(k, a)] := by
  have hold : d.keys.filterMap (fun j => ((d.set k a).get? j).map (j, ·)) = d.items := by
    refine List.filterMap_congr fun j hj => ?_
    have hne : j ≠ k := by
      rintro rfl
      have hbound := (d.mem_keys j).mp hj
      rw [h] at hbound
      exact absurd hbound (by simp)
    rw [get?_set_of_ne d hne]
  rw [items, keys_set_of_none h, List.filterMap_append, hold]
  simp

@[simp] lemma get?_modify_self (d : Dict κ α) (k : κ) (f : α → α) :
    (d.modify k f).get? k = (d.get? k).map f := by
  simp [modify]

lemma get?_modify_of_ne (d : Dict κ α) {j k : κ} (h : j ≠ k) (f : α → α) :
    (d.modify k f).get? j = d.get? j := by
  simp [modify, h]

lemma get?_modify (d : Dict κ α) (j k : κ) (f : α → α) :
    (d.modify k f).get? j = if j = k then (d.get? k).map f else d.get? j := by
  split_ifs with h
  · rw [h, get?_modify_self]
  · exact d.get?_modify_of_ne h f

lemma modify_congr {d : Dict κ α} {k : κ} {f g : α → α} (h : ∀ a, d.get? k = some a → f a = g a) :
    d.modify k f = d.modify k g := by
  refine Dict.ext rfl (funext fun j => ?_)
  rw [get?_modify, get?_modify]
  split_ifs
  · cases hk : d.get? k with
    | none => rfl
    | some a => rw [Option.map_some, Option.map_some, h a hk]
  · rfl

lemma modify_eq_self {d : Dict κ α} {k : κ} {f : α → α} (h : ∀ a, d.get? k = some a → f a = a) :
    d.modify k f = d := by
  refine mapValues_eq_self_iff.mpr fun j a hj => ?_
  split_ifs with hjk
  · exact h a (hjk ▸ hj)
  · rfl

lemma modify_modify (d : Dict κ α) (k : κ) (f g : α → α) :
    (d.modify k f).modify k g = d.modify k fun a => g (f a) := by
  refine Dict.ext rfl (funext fun j => ?_)
  simp only [get?_modify]
  split_ifs
  · rw [Option.map_map]
    rfl
  · rfl

lemma set_of_some {d : Dict κ α} {k : κ} {a : α} (h : d.get? k = some a) (b : α) :
    d.set k b = d.modify k fun _ => b := by
  refine Dict.ext ?_ (funext fun j => ?_)
  · exact if_pos (by simp [h])
  · rw [get?_set, get?_modify, h]
    rfl

@[simp] lemma keys_modify (d : Dict κ α) (k : κ) (f : α → α) : (d.modify k f).keys = d.keys := rfl

/-! ### Functions on values and renamed keys

Setting and updating a key commute with a function on the values, and with a renaming of the
keys. -/

lemma mapValues_set (d : Dict κ α) (f : α → α) (k : κ) (a : α) :
    (d.set k a).mapValues (fun _ => f) = (d.mapValues fun _ => f).set k (f a) := by
  refine Dict.ext ?_ (funext fun j => ?_)
  · simp [set]
  · simp only [get?_mapValues, get?_set]
    split_ifs <;> rfl

lemma mapValues_modify (d : Dict κ α) {f g g' : α → α} (k : κ) (h : ∀ a, f (g a) = g' (f a)) :
    (d.modify k g).mapValues (fun _ => f) = (d.mapValues fun _ => f).modify k g' := by
  refine Dict.ext rfl (funext fun j => ?_)
  simp only [get?_mapValues, get?_modify]
  split_ifs
  · simp [Option.map_map, Function.comp_def, h]
  · rfl

lemma mapKeys_set {κ' : Type} [DecidableEq κ'] (d : Dict κ α) (e : κ ≃ κ') (k : κ) (a : α) :
    (d.set k a).mapKeys e = (d.mapKeys e).set (e k) a := by
  refine Dict.ext ?_ (funext fun j => ?_)
  · simp only [keys_mapKeys, set, get?_mapKeys]
    split_ifs <;> simp
  · obtain ⟨j, rfl⟩ := e.surjective j
    simp [get?_set]

/-! ### Updating the keys of another dictionary -/

lemma foldl_modify {keys : List κ} (hnodup : keys.Nodup) (get : κ → Option β) (f : β → α → α)
    (d : Dict κ α) :
    (keys.filterMap fun k => (get k).map (k, ·)).foldl (fun d item => d.modify item.1 (f item.2)) d =
      d.mapValues fun k a => if k ∈ keys then (get k).elim a (f · a) else a := by
  induction keys generalizing d with
  | nil =>
    refine Dict.ext rfl (funext fun k => ?_)
    simp
  | cons key keys ih =>
    obtain ⟨hkey, hnodup⟩ := List.nodup_cons.mp hnodup
    cases hget : get key with
    | none =>
      rw [List.filterMap_cons_none (by rw [hget]; rfl), ih hnodup]
      refine Dict.ext rfl (funext fun k => ?_)
      by_cases hk : k = key
      · subst hk
        simp [hkey, hget]
      · simp [hk]
    | some b =>
      rw [List.filterMap_cons_some (by rw [hget]; rfl), List.foldl_cons, ih hnodup]
      refine Dict.ext rfl (funext fun k => ?_)
      by_cases hk : k = key
      · subst hk
        simp [hkey, hget, Function.comp_def]
      · simp [hk, get?_modify_of_ne d hk]

/-- Updating the value of each key of `e` by its value there. -/
lemma foldl_items_modify (e : Dict κ β) (f : β → α → α) (d : Dict κ α) :
    e.items.foldl (fun d item => d.modify item.1 (f item.2)) d =
      d.mapValues fun k a => (e.get? k).elim a (f · a) := by
  rw [items, foldl_modify e.nodup]
  refine Dict.ext rfl (funext fun k => ?_)
  simp only [get?_mapValues, e.mem_keys]
  cases e.get? k <;> simp

end Dict
