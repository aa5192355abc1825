import FlowEngine.Proofs.Time.Moment
import FlowEngine.Store.Sorting
/-!
# `FlowEngine.Proofs.Store.Order` — records sorted by what they show

Where records show something that is in order, and the keys compare them by it, sorting them is
sorting what they are records of (`sort_map`).  What is promised of a way to sort is enough for that.

The case that matters most is a moment in a field: the runs and the steps of a ledger are listed by
when they began.
-/

namespace FlowEngine.Store

variable {α β : Type} {f : α → Json} {items : List α}

/-- Records that the keys compare by what they are records of, and in an order of it, stand in that
order. -/
theorem Sorting.sort_map (sorting : Sorting) {keys : List SortKey} {value : α → β}
    {P : β → Prop} {order : β → β → Ordering} (horder : OrdersOn P order)
    (hvalue : ∀ a ∈ items, P (value a))
    (hkeys : ∀ a ∈ items, ∀ b ∈ items, orderBy keys (f a) (f b) = order (value a) (value b)) :
    sorting.sort keys (items.map f) =
      (items.mergeSort fun a b => (order (value a) (value b)).isLE).map f := by
  have hitems : OrdersOn (· ∈ items) fun a b => order (value a) (value b) := horder.comap hvalue
  have hrecords : Sortable keys (items.map f) :=
    hitems.of_image (f := f) (fun x hx => List.mem_map.mp hx) fun a b ha hb => hkeys a ha b hb
  obtain ⟨le, trans, total, hle⟩ := hrecords.exists_le
  rw [sorting.sort_eq_mergeSort hrecords trans total hle]
  refine (List.map_mergeSort ?_).symm
  intro a ha b hb
  rw [hle _ _ (List.mem_map_of_mem ha) (List.mem_map_of_mem hb), hkeys a ha b hb]

/-! ## Records by a moment -/

/-- A record shows a moment in a field. -/
def Shows (field : String) (moment : Timestamp) (record : Json) : Prop :=
  ∃ text, record.get? field = some (.string text) ∧ Timestamp.parse? text = some moment

theorem orderFields_of_shows {field : String} {x y : Json} {m n : Timestamp} (hx : Shows field m x)
    (hy : Shows field n y) : orderFields (x.get? field) (y.get? field) = m.order n := by
  obtain ⟨s, hs, hm⟩ := hx
  obtain ⟨t, ht, hn⟩ := hy
  rw [hs, ht]
  show orderValues (.string s) (.string t) = _
  rw [orderValues, hm, hn]

theorem orderBy_of_shows {field : String} {descending : Bool} {x y : Json} {m n : Timestamp}
    (hx : Shows field m x) (hy : Shows field n y) :
    orderBy [⟨field, descending⟩] x y =
      if descending then (m.order n).swap else m.order n := by
  rw [orderBy, SortKey.order, orderFields_of_shows hx hy]
  cases descending <;> cases m.order n <;> rfl

variable {moment : α → Timestamp} {field : String}

/-- Records that show moments, rising by them, stand in the order of what they are records of. -/
theorem Sorting.sort_rising (sorting : Sorting)
    (h : ∀ a ∈ items, Shows field (moment a) (f a)) :
    sorting.sort [⟨field, false⟩] (items.map f) =
      (items.mergeSort fun a b => (moment a).notAfter (moment b)).map f := by
  rw [sorting.sort_map (Timestamp.ordersOn_order fun _ => True) (fun _ _ => trivial)
    fun a ha b hb => orderBy_of_shows (h a ha) (h b hb)]
  simp only [Timestamp.isLE_order_eq]

/-- Falling by them, they stand the other way round, but not those that show the same moment. -/
theorem Sorting.sort_falling (sorting : Sorting)
    (h : ∀ a ∈ items, Shows field (moment a) (f a)) :
    sorting.sort [⟨field, true⟩] (items.map f) =
      (items.mergeSort fun a b => (moment b).notAfter (moment a)).map f := by
  rw [sorting.sort_map (Timestamp.ordersOn_order fun _ => True).reverse (fun _ _ => trivial)
    fun a ha b hb => orderBy_of_shows (h a ha) (h b hb)]
  simp only [← Timestamp.order_swap, Timestamp.isLE_order_eq]

end FlowEngine.Store
