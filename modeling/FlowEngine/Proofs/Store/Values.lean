import FlowEngine.Proofs.Json.Leading
import FlowEngine.Proofs.Store.Order
/-!
# `FlowEngine.Proofs.Store.Values` — when the order of records is one

Values of different kinds are told apart by their kinds, and of one kind they are ordered by a
linear order: numbers by the floats nearest to them, truth values with false first, arrays and
objects by their texts.  Only texts have two orders, by time where both are moments and by code
point where one of them is not.  They fit together unless a text that is no moment stands, by code
point, between two moments of which the one behind it is not the later; then the three go round in a
circle.

`Orderly` rules that out, and infinite floats, which data does not have.  On fields with orderly
values the order of records is one, by any keys (`ordersOn_orderBy`).
-/

namespace FlowEngine.Store

/-! ## Texts and moments -/

theorem orderTexts_eq_compare (s t : String) : orderTexts s t = compare s t := by
  rcases lt_trichotomy s t with h | rfl | h
  · rw [orderTexts, if_pos h, compare_lt_iff_lt.mpr h]
  · rw [orderTexts, if_neg (lt_irrefl s), if_neg (lt_irrefl s), compare_eq_iff_eq.mpr rfl]
  · rw [orderTexts, if_neg (lt_asymm h), if_pos h, compare_gt_iff_gt.mpr h]

instance : Std.TransCmp orderTexts := by
  have heq : orderTexts = compare := funext fun s => funext fun t => orderTexts_eq_compare s t
  rw [heq]
  infer_instance

theorem isLE_orderTexts {s t : String} : (orderTexts s t).isLE = true ↔ s ≤ t := by
  rw [orderTexts_eq_compare, Ordering.isLE_iff_ne_gt, compare_gt_iff_gt, not_lt]

/-- The order of two texts, as values. -/
def orderStrings (s t : String) : Ordering := orderValues (.string s) (.string t)

theorem orderStrings_moments {s t : String} {m n : Timestamp} (hs : Timestamp.parse? s = some m)
    (ht : Timestamp.parse? t = some n) : orderStrings s t = m.order n := by
  rw [orderStrings, orderValues, hs, ht]

theorem orderStrings_left {s t : String} (h : Timestamp.parse? s = none) :
    orderStrings s t = orderTexts s t := by
  rw [orderStrings, orderValues, h]

theorem orderStrings_right {s t : String} (h : Timestamp.parse? t = none) :
    orderStrings s t = orderTexts s t := by
  rw [orderStrings, orderValues, h]
  cases Timestamp.parse? s <;> rfl

/-- No text that is no moment stands, by code point, between two moments of which the one behind it
is not the later. -/
def MomentsApart (P : String → Prop) : Prop :=
  ∀ s t between, P s → P t → P between → ∀ m n, Timestamp.parse? s = some m →
    Timestamp.parse? t = some n → Timestamp.parse? between = none → m.notAfter n = true →
    ¬ (t < between ∧ between < s)

theorem orderStrings_swap (s t : String) : orderStrings s t = (orderStrings t s).swap := by
  cases hs : Timestamp.parse? s with
  | none =>
      rw [orderStrings_left hs, orderStrings_right hs]
      exact Std.OrientedCmp.eq_swap
  | some m =>
      cases ht : Timestamp.parse? t with
      | none =>
          rw [orderStrings_left ht, orderStrings_right ht]
          exact Std.OrientedCmp.eq_swap
      | some n =>
          rw [orderStrings_moments hs ht, orderStrings_moments ht hs]
          exact m.order_swap n

/-- Texts are in order where those that are moments stand apart from the others. -/
theorem ordersOn_strings {P : String → Prop} (h : MomentsApart P) : OrdersOn P orderStrings where
  swap s t _ _ := orderStrings_swap s t
  trans x y z hx hy hz hxy hyz := by
    -- A moment and another text are not the same, so between them the order is strict.
    have hstrict : ∀ {s t : String} {m : Timestamp}, s ≤ t →
        (Timestamp.parse? s = some m ∧ Timestamp.parse? t = none ∨
          Timestamp.parse? s = none ∧ Timestamp.parse? t = some m) → s < t := by
      intro s t m hle hkinds
      refine lt_of_le_of_ne hle ?_
      rintro rfl
      rcases hkinds with ⟨hm, hnone⟩ | ⟨hnone, hm⟩ <;> rw [hnone] at hm <;> cases hm
    cases hpx : Timestamp.parse? x with
    | none =>
        rw [orderStrings_left hpx, isLE_orderTexts] at hxy ⊢
        cases hpy : Timestamp.parse? y with
        | none =>
            rw [orderStrings_left hpy, isLE_orderTexts] at hyz
            exact hxy.trans hyz
        | some n =>
            cases hpz : Timestamp.parse? z with
            | none =>
                rw [orderStrings_right hpz, isLE_orderTexts] at hyz
                exact hxy.trans hyz
            | some k =>
                rw [orderStrings_moments hpy hpz, Timestamp.isLE_order] at hyz
                refine not_lt.mp fun hlt => ?_
                exact h y z x hy hz hx n k hpy hpz hpx hyz ⟨hlt, hstrict hxy (Or.inr ⟨hpx, hpy⟩)⟩
    | some m =>
        cases hpy : Timestamp.parse? y with
        | none =>
            rw [orderStrings_right hpy, isLE_orderTexts] at hxy
            rw [orderStrings_left hpy, isLE_orderTexts] at hyz
            cases hpz : Timestamp.parse? z with
            | none =>
                rw [orderStrings_right hpz, isLE_orderTexts]
                exact hxy.trans hyz
            | some k =>
                rw [orderStrings_moments hpx hpz, Timestamp.isLE_order]
                by_contra hlater
                have hzx : k.notAfter m = true := by
                  have htotal := Timestamp.notAfter_total m k
                  rwa [Bool.or_eq_true, or_iff_right hlater] at htotal
                exact h z x y hz hx hy k m hpz hpx hpy hzx
                  ⟨hstrict hxy (Or.inl ⟨hpx, hpy⟩), hstrict hyz (Or.inr ⟨hpy, hpz⟩)⟩
        | some n =>
            rw [orderStrings_moments hpx hpy, Timestamp.isLE_order] at hxy
            cases hpz : Timestamp.parse? z with
            | none =>
                rw [orderStrings_right hpz, isLE_orderTexts] at hyz ⊢
                refine not_lt.mp fun hlt => ?_
                exact h x y z hx hy hz m n hpx hpy hpz hxy ⟨hstrict hyz (Or.inl ⟨hpy, hpz⟩), hlt⟩
            | some k =>
                rw [orderStrings_moments hpy hpz, Timestamp.isLE_order] at hyz
                rw [orderStrings_moments hpx hpz, Timestamp.isLE_order]
                exact Timestamp.notAfter_trans hxy hyz

theorem ordersOn_strings_of_unread {P : String → Prop}
    (h : ∀ s, P s → Timestamp.parse? s = none) : OrdersOn P orderStrings := by
  refine ordersOn_strings ?_
  intro s _ _ hs _ _ m _ hm _ _ _
  rw [h s hs] at hm
  cases hm

/-! ## Values -/

/-- The values can be brought into an order: the numbers are finite, and the moments stand apart
from the other texts. -/
structure Orderly (P : Json → Prop) : Prop where
  finite : ∀ x, P x → x.isFinite = true
  moments : MomentsApart fun s => P (.string s)

theorem Orderly.mono {P Q : Json → Prop} (h : Orderly Q) (hPQ : ∀ x, P x → Q x) : Orderly P where
  finite x hx := h.finite x (hPQ x hx)
  moments s t between hs ht hb := h.moments s t between (hPQ _ hs) (hPQ _ ht) (hPQ _ hb)

def textsOf (values : List Json) : List String := values.filterMap Json.text?

theorem mem_textsOf {values : List Json} {s : String} :
    s ∈ textsOf values ↔ .string s ∈ values := by
  rw [textsOf, List.mem_filterMap]
  constructor
  · rintro ⟨x, hx, htext⟩
    cases x with
    | string t =>
        obtain rfl := Option.some.inj htext
        exact hx
    | _ => cases htext
  · intro h
    exact ⟨_, h, rfl⟩

/-- Whether the values of a list are orderly can be told. -/
instance (values : List Json) : Decidable (Orderly (· ∈ values)) :=
  decidable_of_iff ((∀ x ∈ values, x.isFinite = true) ∧
    ∀ s ∈ textsOf values, ∀ t ∈ textsOf values, ∀ between ∈ textsOf values,
      ∀ m ∈ Timestamp.parse? s, ∀ n ∈ Timestamp.parse? t, Timestamp.parse? between = none →
        m.notAfter n = true → ¬ (t < between ∧ between < s)) <| by
    simp only [mem_textsOf]
    constructor
    · rintro ⟨hfinite, hmoments⟩
      exact ⟨hfinite, fun s t b hs ht hb m n hm hn => hmoments s hs t ht b hb m hm n hn⟩
    · rintro ⟨hfinite, hmoments⟩
      exact ⟨hfinite, fun s hs t ht b hb m hm n hn => hmoments s t b hs ht hb m n hm hn⟩

theorem orderBools_eq_compare (a b : Bool) : orderBools a b = compare a b := by
  cases a <;> cases b <;> rfl

instance : Std.TransCmp orderBools := by
  have heq : orderBools = compare := funext fun a => funext fun b => orderBools_eq_compare a b
  rw [heq]
  infer_instance

theorem ordersOn_compact (P : Json → Prop) :
    OrdersOn P fun x y => orderTexts x.compact y.compact :=
  (OrdersOn.of_transCmp (fun _ => True) orderTexts).comap fun _ _ => trivial

theorem orderValues_of_leading_ne {x y : Json} (h : x.leading.1 ≠ y.leading.1) :
    orderValues x y = orderTexts x.compact y.compact := by
  cases x <;> cases y <;> first | exact absurd rfl h | rfl

theorem ordersOn_orderValues {P : Json → Prop} (h : Orderly P)
    (hnull : ∀ x, P x → x.isNull = false) : OrdersOn P orderValues := by
  refine OrdersOn.of_kinds (fun x => x.leading.1) ?_ ?_
  · intro x y hx hy hlt
    have htexts := Json.compact_lt_compact (h.finite x hx) (h.finite y hy) (hnull x hx) (hnull y hy)
      hlt
    rw [orderValues_of_leading_ne (Nat.ne_of_lt hlt), orderValues_of_leading_ne (Nat.ne_of_gt hlt),
      orderTexts, orderTexts, if_pos htexts, if_neg (lt_asymm htexts), if_pos htexts]
    exact ⟨rfl, rfl⟩
  · intro a ha
    -- The values of the kind of `a` all come from its constructor.
    cases a with
    | null => exact absurd (hnull _ ha) Bool.noConfusion
    | string _ =>
        refine (ordersOn_strings h.moments).of_image (f := Json.string) ?_ fun _ _ _ _ => rfl
        rintro x ⟨hx, hkind⟩
        cases x with
        | string s => exact ⟨s, hx, rfl⟩
        | _ => simp [Json.leading] at hkind
    | number _ =>
        have hnumbers : OrdersOn (fun n : Number => n.isFinite = true)
            fun m n => orderFloats m.toFloat n.toFloat :=
          Decimal.ordersOn_floats.comap fun _ hn => Number.isNaN_toFloat hn
        refine hnumbers.of_image (f := Json.number) ?_ fun _ _ _ _ => rfl
        rintro x ⟨hx, hkind⟩
        cases x with
        | number n => exact ⟨n, h.finite _ hx, rfl⟩
        | _ => simp [Json.leading] at hkind
    | bool _ =>
        refine (OrdersOn.of_transCmp (fun _ => True) orderBools).of_image
          (f := Json.bool) ?_ fun _ _ _ _ => rfl
        rintro x ⟨-, hkind⟩
        cases x with
        | bool b => exact ⟨b, trivial, rfl⟩
        | _ => simp [Json.leading] at hkind
    | array _ =>
        refine (ordersOn_compact _).congr ?_
        rintro x y ⟨-, hkind⟩ -
        cases x with
        | array items => rfl
        | _ => simp [Json.leading] at hkind
    | object _ =>
        refine (ordersOn_compact _).congr ?_
        rintro x y ⟨-, hkind⟩ -
        cases x with
        | object members => rfl
        | _ => simp [Json.leading] at hkind

/-! ## Fields and keys -/

/-- Fields without a value come first, the others are ordered by their values. -/
theorem ordersOn_orderFields {P : Option Json → Prop} (h : Orderly fun x => P (some x)) :
    OrdersOn P orderFields := by
  have hvalues : OrdersOn (fun x => P (some x) ∧ x.isNull = false) orderValues :=
    ordersOn_orderValues (h.mono fun _ hx => hx.1) fun _ hx => hx.2
  refine OrdersOn.of_kinds (fun o => if (o.filter (!·.isNull)).isSome then 1 else 0) ?_ ?_
  · intro x y _ _ hlt
    unfold orderFields
    cases hx : x.filter (!·.isNull) <;> cases hy : y.filter (!·.isNull) <;> simp [hx, hy] at hlt ⊢
  · intro a _
    cases a.filter (!·.isNull) with
    | none =>
        have habsent : ∀ o : Option Json, (if (o.filter (!·.isNull)).isSome then 1 else 0) = 0 →
            o.filter (!·.isNull) = none := by
          intro o ho
          cases hf : o.filter (!·.isNull) <;> simp [hf] at ho ⊢
        refine OrdersOn.of_ties ?_
        rintro x y ⟨-, hx⟩ ⟨-, hy⟩
        rw [orderFields, habsent x hx, habsent y hy]
    | some _ =>
        refine hvalues.of_image (f := some) ?_ ?_
        · rintro o ⟨ho, hkind⟩
          cases hf : o.filter (!·.isNull) with
          | none => simp [hf] at hkind
          | some x =>
              obtain ⟨rfl, hx⟩ := Option.filter_eq_some_iff.mp hf
              exact ⟨x, ⟨ho, by simpa using hx⟩, rfl⟩
        · rintro x y ⟨-, hx⟩ ⟨-, hy⟩
          simp [orderFields, Option.filter, hx, hy]

theorem SortKey.ordersOn_order {P : Json → Prop} (key : SortKey)
    (h : Orderly fun x => ∃ r, P r ∧ r.get? key.field = some x) : OrdersOn P key.order := by
  have hrising : OrdersOn P fun x y => orderFields (x.get? key.field) (y.get? key.field) :=
    (ordersOn_orderFields (P := fun o => ∃ r, P r ∧ r.get? key.field = o) h).comap
      fun x hx => ⟨x, hx, rfl⟩
  refine (if hdescending : key.descending then hrising.reverse.congr ?_ else hrising.congr ?_)
  · intro x y _ _
    rw [SortKey.order, if_pos hdescending]
  · intro x y _ _
    rw [SortKey.order, if_neg hdescending]

/-- Records that show orderly values in every field to sort by are in order. -/
theorem ordersOn_orderBy {P : Json → Prop} {keys : List SortKey}
    (h : ∀ key ∈ keys, Orderly fun x => ∃ r, P r ∧ r.get? key.field = some x) :
    OrdersOn P (orderBy keys) := by
  induction keys with
  | nil => exact OrdersOn.of_ties fun _ _ _ _ => rfl
  | cons key rest ih =>
      obtain ⟨hkey, hrest⟩ := List.forall_mem_cons.mp h
      refine ((key.ordersOn_order hkey).thenBy (ih hrest)).congr ?_
      intro x y _ _
      rw [orderBy]
      cases key.order x y <;> rfl

/-! ## Records by a text -/

theorem orderBy_of_texts {field s t : String} {x y : Json} (hx : x.get? field = some (.string s))
    (hy : y.get? field = some (.string t)) : orderBy [⟨field, false⟩] x y = orderStrings s t := by
  have hkey : SortKey.order ⟨field, false⟩ x y = orderStrings s t := by
    rw [SortKey.order, hx, hy]
    rfl
  rw [orderBy, hkey]
  cases orderStrings s t <;> rfl

/-- Records that show texts, none of them a moment, stand in the order of the texts by code point. -/
theorem Sorting.sort_texts (sorting : Sorting) {α : Type} {f : α → Json} {text : α → String}
    {field : String} {items : List α}
    (h : ∀ a ∈ items, (f a).get? field = some (.string (text a)) ∧
      Timestamp.parse? (text a) = none) :
    sorting.sort [⟨field, false⟩] (items.map f) =
      (items.mergeSort fun a b => decide (text a ≤ text b)).map f := by
  have hkeys : ∀ a ∈ items, ∀ b ∈ items,
      orderBy [⟨field, false⟩] (f a) (f b) = orderTexts (text a) (text b) := by
    intro a ha b hb
    rw [orderBy_of_texts (h a ha).1 (h b hb).1, orderStrings_left (h a ha).2]
  have hle : ∀ s t, (orderTexts s t).isLE = decide (s ≤ t) := fun s t => by
    rw [Bool.eq_iff_iff, isLE_orderTexts, decide_eq_true_iff]
  rw [sorting.sort_map (OrdersOn.of_transCmp (fun _ => True) orderTexts) (fun _ _ => trivial) hkeys]
  simp only [hle]

end FlowEngine.Store
