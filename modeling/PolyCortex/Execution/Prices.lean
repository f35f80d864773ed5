import PolyCortex.Execution.Families

/-!
# Filled orders have a price

An order gets its average price with its first fill and keeps it. An order without one was never
filled, and no bracket was armed for it (`Changes.fillsPriced`).
-/

namespace PolyCortex

open Relation

variable {cfg : Config} {s s' : Executor}

/-- No fill was ever applied to the order. -/
def Order.NeverFilled (o : Order) : Prop := o.filledSizeUsdc = 0 ∧ o.averageFillPrice = none

/-- What is filled has a price, and so has an entry with a bracket. -/
structure Order.FillsPriced (o : Order) : Prop where
  filled : 0 < o.filledSizeUsdc → o.averageFillPrice.isSome = true
  bracketed : o.bracketOrderIds ≠ [] → o.averageFillPrice.isSome = true

def Executor.FillsPriced (s : Executor) : Prop := ∀ id o, s.orders.get? id = some o → o.FillsPriced

/-- A price stays, and what has one where it must still has. -/
structure Order.KeepsPrice (o o' : Order) : Prop where
  price : o.averageFillPrice.isSome = true → o'.averageFillPrice.isSome = true
  priced : o.FillsPriced → o'.FillsPriced

namespace Order.KeepsPrice

lemma refl (o : Order) : o.KeepsPrice o := ⟨id, id⟩

lemma trans {o₁ o₂ o₃ : Order} (h : o₁.KeepsPrice o₂) (h' : o₂.KeepsPrice o₃) : o₁.KeepsPrice o₃ :=
  ⟨fun hp => h'.price (h.price hp), fun hp => h'.priced (h.priced hp)⟩

/-- The same fill, and the same children. -/
lemma of_same {o o' : Order} (hfilled : o'.filledSizeUsdc = o.filledSizeUsdc)
    (haverage : o'.averageFillPrice = o.averageFillPrice)
    (hids : o'.bracketOrderIds = o.bracketOrderIds) : o.KeepsPrice o' := by
  refine ⟨fun h => haverage ▸ h, fun ⟨hpriced, hbracketed⟩ => ⟨?_, ?_⟩⟩
  · rw [hfilled, haverage]
    exact hpriced
  · rw [hids, haverage]
    exact hbracketed

lemma applyFill (o : Order) (x p : ℚ) (now : Time) : o.KeepsPrice (o.applyFill x p now) := by
  by_cases hpos : 0 < o.acceptedFill x
  · have hprice : (o.applyFill x p now).averageFillPrice.isSome = true := by
      rw [Order.applyFill_of_pos hpos]
      rfl
    exact ⟨fun _ => hprice, fun _ => ⟨fun _ => hprice, fun _ => hprice⟩⟩
  · rw [Order.applyFill_of_nonpos (not_lt.mp hpos)]
    exact refl o

end Order.KeepsPrice

/-- Every order of `s` keeps its price, and what is new is priced. -/
structure Executor.KeepsPrices (s s' : Executor) : Prop where
  kept : ∀ id o, s.orders.get? id = some o → ∃ o', s'.orders.get? id = some o' ∧ o.KeepsPrice o'
  new : ∀ id o', s.orders.get? id = none → s'.orders.get? id = some o' → o'.FillsPriced

namespace Executor.KeepsPrices

lemma refl (s : Executor) : s.KeepsPrices s :=
  ⟨fun _ o ho => ⟨o, ho, .refl o⟩, fun id o' hnone ho' => by rw [hnone] at ho'; cases ho'⟩

lemma trans {s'' : Executor} (h : s.KeepsPrices s') (h' : s'.KeepsPrices s'') :
    s.KeepsPrices s'' := by
  constructor
  · intro id o ho
    obtain ⟨o', ho', hkeeps⟩ := h.kept id o ho
    obtain ⟨o'', ho'', hkeeps'⟩ := h'.kept id o' ho'
    exact ⟨o'', ho'', hkeeps.trans hkeeps'⟩
  · intro id o'' hnone ho''
    cases hget : s'.orders.get? id with
    | none => exact h'.new id o'' hget ho''
    | some o' =>
      obtain ⟨x, hx, hkeeps⟩ := h'.kept id o' hget
      obtain rfl := Option.some.inj (ho''.symm.trans hx)
      exact hkeeps.priced (h.new id o' hnone hget)

lemma of_map {f : OrderId → Order → Order}
    (hget : ∀ id, s'.orders.get? id = (s.orders.get? id).map (f id))
    (hf : ∀ id o, s.orders.get? id = some o → o.KeepsPrice (f id o)) : s.KeepsPrices s' := by
  constructor
  · intro id o ho
    exact ⟨f id o, by rw [hget, ho, Option.map_some], hf id o ho⟩
  · intro id o' hnone ho'
    rw [hget, hnone] at ho'
    cases ho'

lemma modifyOrder {j : OrderId} {f : Order → Order}
    (hf : ∀ o, s.orders.get? j = some o → o.KeepsPrice (f o)) : s.KeepsPrices (s.modifyOrder j f) := by
  apply of_map (f := fun id o => if id = j then f o else o)
  · intro id
    rw [get?_modifyOrder]
    split_ifs with hid
    · rw [hid]
    · simp
  · intro id o ho
    split_ifs with hid
    · exact hf o (hid ▸ ho)
    · exact .refl o

end Executor.KeepsPrices

lemma Effect.keepsPrices (h : Effect cfg s s') (hs : s.FillsPriced) : s.KeepsPrices s' := by
  cases h with
  | bookkeeping _ horders hid =>
    exact .of_map (f := fun _ o => o) (fun id => by simp [horders]) fun _ o _ => .refl o
  | insert mk hnew hpaper =>
    constructor
    · exact fun id o ho => ⟨o, Executor.get?_insertOrder_of_some ho mk, .refl o⟩
    · intro id o' hnone ho'
      rw [Executor.get?_insertOrder] at ho'
      split_ifs at ho' with hid
      · rw [← Option.some.inj ho']
        refine ⟨fun hpos => ?_, fun hids => absurd (hnew _).bracketOrderIds hids⟩
        rw [(hnew _).filled] at hpos
        exact absurd hpos (lt_irrefl 0)
      · rw [hnone] at ho'
        cases ho'
  | touch j f htouch =>
    refine .modifyOrder fun o ho => ?_
    have htouched := htouch o ho
    exact .of_same htouched.fill.filledSizeUsdc htouched.fill.averageFillPrice htouched.bracketOrderIds
  | withdraw j o status hget hopen hstatus => exact .modifyOrder fun o _ => .of_same rfl rfl rfl
  | fill j o x p now hget hkind hopen => exact .modifyOrder fun o _ => .applyFill o x p now
  | refresh parentId o hget hkind =>
    refine .of_map (get?_syncChildSizes o s) fun id child _ => ?_
    split_ifs
    · exact .of_same (child.resized_filledSizeUsdc _) (child.resized_averageFillPrice _)
        (child.resized_bracketOrderIds _)
    · exact .refl child
  | create parentId o spec now hget hkind hnone hfill =>
    have hparent : (o.withBracket s.nextId).FillsPriced :=
      ⟨(hs parentId o hget).filled, fun _ => hfill.priced (hs parentId o hget).filled⟩
    constructor
    · intro id x hx
      rw [get?_createBrackets_of_some spec now hget hx]
      split_ifs with hid
      · subst hid
        obtain rfl := Option.some.inj (hget.symm.trans hx)
        exact ⟨_, rfl, fun h => h, fun _ => hparent⟩
      · exact ⟨x, rfl, .refl x⟩
    · intro id x hnew hx
      rcases createBrackets_cases spec now hget hx with ⟨_, hchild⟩ | ⟨rfl, rfl⟩ | ⟨_, hx⟩
      · refine ⟨fun hpos => ?_, fun hids => absurd hchild.bracketOrderIds hids⟩
        rw [hchild.filledSizeUsdc] at hpos
        exact absurd hpos (lt_irrefl 0)
      · exact hparent
      · rw [hnew] at hx
        cases hx
  | trigger data now j o hget hkind harmed =>
    have hbeside : ∀ id x, Order.KeepsPrice x ((o.exitFill data now).besideTriggered id x) :=
      fun id x => .of_same (besideTriggered_fill _ id x).filledSizeUsdc
        (besideTriggered_fill _ id x).averageFillPrice (besideTriggered_bracketOrderIds _ id x)
    refine .of_map (f := fun id x => (o.exitFill data now).besideTriggered id
      (if id = j then o.exitFill data now else x)) (fun id => ?_) fun id x hx => ?_
    · rw [get?_triggerChild hget]
      split_ifs with hid
      · rw [hid, hget, Option.map_some, Option.map_some]
      · rfl
    · split_ifs with hid
      · subst hid
        obtain rfl := Option.some.inj (hx.symm.trans hget)
        exact (Order.KeepsPrice.applyFill x _ _ now).trans (hbeside id _)
      · exact hbeside id x

lemma Executor.FillsPriced.keeps (hs : s.FillsPriced) (h : s.KeepsPrices s') : s'.FillsPriced := by
  intro id o' ho'
  cases hget : s.orders.get? id with
  | none => exact h.new id o' hget ho'
  | some o =>
    obtain ⟨x, hx, hkeeps⟩ := h.kept id o hget
    obtain rfl := Option.some.inj (ho'.symm.trans hx)
    exact hkeeps.priced (hs id o hget)

/-- Whatever happens, prices stay and fills have one. -/
theorem Changes.keepsPrices (h : Changes cfg s s') (hacc : s.Accounted) (hs : s.FillsPriced) :
    s.KeepsPrices s' := by
  have heffects : ∀ {s s'}, Effects cfg s s' → s.FillsPriced → s.KeepsPrices s' := by
    intro s s' h hs
    induction h with
    | refl => exact .refl s
    | tail _ hstep ih => exact ih.trans (hstep.keepsPrices (hs.keeps ih))
  induction h with
  | refl => exact .refl s
  | tail hpre hstep ih =>
    have hacc' := (Changes.conserves hpre hacc).accounted
    exact ih.trans (heffects (hstep.effects hacc') (hs.keeps ih))

lemma Changes.fillsPriced (h : Changes cfg s s') (hacc : s.Accounted) (hs : s.FillsPriced) :
    s'.FillsPriced :=
  hs.keeps (h.keepsPrices hacc hs)

/-- An order that was never filled had not been before, if it was there. -/
lemma Changes.neverFilled_before (h : Changes cfg s s') (hacc : s.Accounted) (hs : s.FillsPriced)
    {id : OrderId} {o o' : Order} (hget : s.orders.get? id = some o)
    (hget' : s'.orders.get? id = some o') (hnever : o'.averageFillPrice = none) :
    o.averageFillPrice = none := by
  obtain ⟨x, hx, hkeeps⟩ := (h.keepsPrices hacc hs).kept id o hget
  obtain rfl := Option.some.inj (hget'.symm.trans hx)
  by_contra hprice
  have hsome := hkeeps.price (Option.isSome_iff_ne_none.mpr hprice)
  rw [hnever] at hsome
  contradiction

end PolyCortex
