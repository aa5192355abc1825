import FlowEngine.Comparison
import FlowEngine.Time.Timestamp
/-!
# `FlowEngine.Proofs.Time.Moment` — the order of moments, and moments that can be read back

Moments are ordered by their seconds and then by their nanoseconds.  `notAfter` is that order
without its strictness, and total.

A moment is kept as text.  `Legible` says of one that its text is read as that moment and no other;
nothing of what is stored can be read back without it.
-/

namespace FlowEngine.Timestamp

/-- Earlier than or the same as. -/
def notAfter (s t : Timestamp) : Bool := !t.isBefore s

theorem isBefore_iff {s t : Timestamp} : s.isBefore t = true ↔
    s.seconds < t.seconds ∨ s.seconds = t.seconds ∧ s.nanos < t.nanos := by
  simp [isBefore]

theorem notAfter_iff {s t : Timestamp} : s.notAfter t = true ↔
    s.seconds < t.seconds ∨ s.seconds = t.seconds ∧ s.nanos ≤ t.nanos := by
  rw [notAfter, Bool.not_eq_true', ← Bool.not_eq_true, isBefore_iff]
  omega

theorem notAfter_trans {r s t : Timestamp} (h : r.notAfter s = true) (h' : s.notAfter t = true) :
    r.notAfter t = true := by
  rw [notAfter_iff] at *
  omega

theorem notAfter_total (s t : Timestamp) : (s.notAfter t || t.notAfter s) = true := by
  rw [Bool.or_eq_true, notAfter_iff, notAfter_iff]
  omega

theorem order_eq_lt_iff {s t : Timestamp} : s.order t = .lt ↔ s.isBefore t = true := by
  unfold order
  split
  · simp [*]
  · split <;> simp [*]

theorem order_eq_gt_iff {s t : Timestamp} : s.order t = .gt ↔ t.isBefore s = true := by
  unfold order
  split
  · next h =>
      -- The other way round they are not in order as well.
      rw [isBefore_iff] at h
      simp only [reduceCtorEq, false_iff, isBefore_iff]
      omega
  · split <;> simp [*]

theorem isLE_order {s t : Timestamp} : (s.order t).isLE = true ↔ s.notAfter t = true := by
  rw [Ordering.isLE_iff_ne_gt, order_eq_gt_iff, notAfter, Bool.not_eq_true, Bool.not_eq_true']

theorem order_swap (s t : Timestamp) : s.order t = (t.order s).swap := by
  cases ht : t.order s with
  | lt => exact order_eq_gt_iff.mpr (order_eq_lt_iff.mp ht)
  | gt => exact order_eq_lt_iff.mpr (order_eq_gt_iff.mp ht)
  | eq =>
      cases hs : s.order t with
      | eq => rfl
      | lt =>
          rw [order_eq_gt_iff.mpr (order_eq_lt_iff.mp hs)] at ht
          cases ht
      | gt =>
          rw [order_eq_lt_iff.mpr (order_eq_gt_iff.mp hs)] at ht
          cases ht

theorem isLE_order_eq (s t : Timestamp) : (s.order t).isLE = s.notAfter t :=
  Bool.eq_iff_iff.mpr isLE_order

theorem ordersOn_order (P : Timestamp → Prop) : OrdersOn P order where
  swap s t _ _ := order_swap s t
  trans r s t _ _ _ h h' := by
    rw [isLE_order] at *
    exact notAfter_trans h h'

/-- The text of the moment is read as the moment. -/
def Legible (t : Timestamp) : Prop := parse? t.text = some t

theorem latest_eq_or (s t : Timestamp) : s.latest t = s ∨ s.latest t = t := by
  unfold latest
  split
  · exact Or.inr rfl
  · exact Or.inl rfl

theorem notAfter_latest (s t : Timestamp) : t.notAfter (s.latest t) = true := by
  unfold latest
  split
  · rw [notAfter_iff]
    exact Or.inr ⟨rfl, Nat.le_refl _⟩
  · next h => rw [notAfter, Bool.not_eq_true', ← Bool.not_eq_true]; exact h

theorem latest_of_notAfter {s t : Timestamp} (h : t.notAfter s = true) : s.latest t = s := by
  rw [notAfter, Bool.not_eq_true'] at h
  rw [latest, h]
  rfl

theorem Legible.latest {s t : Timestamp} (hs : s.Legible) (ht : t.Legible) :
    (s.latest t).Legible := by
  rcases latest_eq_or s t with h | h
  · rw [h]
    exact hs
  · rw [h]
    exact ht

end FlowEngine.Timestamp
