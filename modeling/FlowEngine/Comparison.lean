/-!
# `FlowEngine.Comparison` — comparisons that order what they are used on

A comparison need not be an order to be one on some values.  `OrdersOn P order` says that it is on
those that satisfy `P`: the other way round it gives the other answer, and it is transitive.  It is
carried along maps, turned round, refined by another comparison, and put together from what it is on
each of several kinds.

A list that has been brought into an order is fixed by how it stands within its ties
(`eq_of_filter_tied`).  Nothing has to be known of how a sort goes about it.
-/

namespace FlowEngine

/-- On the values that satisfy `P` the comparison is an order, up to ties. -/
structure OrdersOn {α : Type} (P : α → Prop) (order : α → α → Ordering) : Prop where
  swap : ∀ x y, P x → P y → order x y = (order y x).swap
  trans : ∀ x y z, P x → P y → P z → (order x y).isLE → (order y z).isLE → (order x z).isLE

namespace OrdersOn

variable {α β : Type} {P Q : α → Prop} {order refinement : α → α → Ordering}

variable (P order) in
theorem of_transCmp [Std.TransCmp order] : OrdersOn P order where
  swap _ _ _ _ := Std.OrientedCmp.eq_swap
  trans _ _ _ _ _ _ := Std.TransCmp.isLE_trans

/-- As a comparison of the values that satisfy `P`, it is an order without reserve. -/
theorem transCmp (h : OrdersOn P order) : Std.TransCmp fun x y : {a // P a} => order x y where
  eq_swap {x y} := h.swap x y x.2 y.2
  isLE_trans {x y z} := h.trans x y z x.2 y.2 z.2

theorem of_subtype (h : Std.TransCmp fun x y : {a // P a} => order x y) : OrdersOn P order where
  swap x y hx hy := h.eq_swap (a := ⟨x, hx⟩) (b := ⟨y, hy⟩)
  trans x y z hx hy hz := h.isLE_trans (a := ⟨x, hx⟩) (b := ⟨y, hy⟩) (c := ⟨z, hz⟩)

/-- Where nothing is told apart, everything is in order. -/
theorem of_ties (h : ∀ x y, P x → P y → order x y = .eq) : OrdersOn P order where
  swap x y hx hy := by
    rw [h x y hx hy, h y x hy hx]
    rfl
  trans x y z hx _ hz _ _ := by
    rw [h x z hx hz]
    rfl

/-- It is an order on what is mapped to such values, compared by what it is mapped to. -/
theorem comap {order : β → β → Ordering} {Q : β → Prop} {f : α → β} (h : OrdersOn Q order)
    (hf : ∀ x, P x → Q (f x)) : OrdersOn P fun x y => order (f x) (f y) where
  swap x y hx hy := h.swap _ _ (hf x hx) (hf y hy)
  trans x y z hx hy hz := h.trans _ _ _ (hf x hx) (hf y hy) (hf z hz)

/-- It is an order on what such values are mapped to, if that is compared as they are. -/
theorem of_image {order' : β → β → Ordering} {Q : β → Prop} {f : β → α} (h : OrdersOn Q order')
    (hP : ∀ x, P x → ∃ b, Q b ∧ f b = x)
    (hf : ∀ b b', Q b → Q b' → order (f b) (f b') = order' b b') : OrdersOn P order where
  swap x y hx hy := by
    obtain ⟨a, ha, rfl⟩ := hP x hx
    obtain ⟨b, hb, rfl⟩ := hP y hy
    rw [hf a b ha hb, hf b a hb ha]
    exact h.swap a b ha hb
  trans x y z hx hy hz := by
    obtain ⟨a, ha, rfl⟩ := hP x hx
    obtain ⟨b, hb, rfl⟩ := hP y hy
    obtain ⟨c, hc, rfl⟩ := hP z hz
    rw [hf a b ha hb, hf b c hb hc, hf a c ha hc]
    exact h.trans a b c ha hb hc

theorem congr {other : α → α → Ordering} (h : OrdersOn P order)
    (heq : ∀ x y, P x → P y → other x y = order x y) : OrdersOn P other where
  swap x y hx hy := by
    rw [heq x y hx hy, heq y x hy hx]
    exact h.swap x y hx hy
  trans x y z hx hy hz := by
    rw [heq x y hx hy, heq y z hy hz, heq x z hx hz]
    exact h.trans x y z hx hy hz

theorem reverse (h : OrdersOn P order) : OrdersOn P fun x y => (order x y).swap := by
  have hflipped : OrdersOn P fun x y => order y x := by
    have := h.transCmp
    exact of_subtype (@Std.TransCmp.opposite _ (fun x y : {a // P a} => order x y) _)
  exact hflipped.congr fun x y hx hy => (h.swap y x hy hx).symm

/-- Where one comparison does not decide, another may. -/
theorem thenBy (h : OrdersOn P order) (h' : OrdersOn P refinement) :
    OrdersOn P fun x y => (order x y).then (refinement x y) := by
  have := h.transCmp
  have := h'.transCmp
  exact of_subtype (inferInstanceAs (Std.TransCmp (compareLex
    (fun x y : {a // P a} => order x y) fun x y => refinement x y)))

/-- Values of different kinds are told apart by the kind, those of one kind are in order. -/
theorem of_kinds (kind : α → Nat)
    (hapart : ∀ x y, P x → P y → kind x < kind y → order x y = .lt ∧ order y x = .gt)
    (hkind : ∀ a, P a → OrdersOn (fun x => P x ∧ kind x = kind a) order) : OrdersOn P order where
  swap x y hx hy := by
    rcases Nat.lt_trichotomy (kind x) (kind y) with hlt | heq | hlt
    · rw [(hapart x y hx hy hlt).1, (hapart x y hx hy hlt).2]
      rfl
    · exact (hkind y hy).swap x y ⟨hx, heq⟩ ⟨hy, rfl⟩
    · rw [(hapart y x hy hx hlt).1, (hapart y x hy hx hlt).2]
      rfl
  trans x y z hx hy hz hxy hyz := by
    -- What is not after another is not of a later kind.
    have hle : ∀ u v, P u → P v → (order u v).isLE → kind u ≤ kind v := by
      intro u v hu hv huv
      refine Nat.le_of_not_lt fun hlt => ?_
      rw [(hapart v u hv hu hlt).2] at huv
      cases huv
    have hxy' := hle x y hx hy hxy
    have hyz' := hle y z hy hz hyz
    rcases Nat.lt_or_eq_of_le (Nat.le_trans hxy' hyz') with hlt | heq
    · rw [(hapart x z hx hz hlt).1]
      rfl
    · have hy' : kind y = kind z := Nat.le_antisymm hyz' (heq ▸ hxy')
      exact (hkind z hz).trans x y z ⟨hx, heq⟩ ⟨hy, hy'⟩ ⟨hz, rfl⟩ hxy hyz

open Classical in
/-- It extends to an order of all values, in which those that satisfy `P` come first. -/
theorem exists_le (h : OrdersOn P order) : ∃ le : α → α → Bool,
    (∀ x y z, le x y → le y z → le x z) ∧ (∀ x y, le x y || le y x) ∧
      ∀ x y, P x → P y → le x y = (order x y).isLE := by
  refine ⟨fun x y => if P x then !P y || (order x y).isLE else !P y, ?_, ?_, ?_⟩
  · intro x y z hxy hyz
    by_cases hz : P z
    · by_cases hy : P y
      · by_cases hx : P x
        · simp only [hx, hy, hz, if_true, decide_true, Bool.not_true, Bool.false_or] at hxy hyz ⊢
          exact h.trans x y z hx hy hz hxy hyz
        · simp [hx, hy] at hxy
      · simp [hy, hz] at hyz
    · simp [hz]
  · intro x y
    by_cases hx : P x
    · by_cases hy : P y
      · simp only [hx, hy, if_true, decide_true, Bool.not_true, Bool.false_or]
        rw [h.swap x y hx hy]
        cases order y x <;> rfl
      · simp [hx, hy]
    · simp [hx]
  · intro x y hx hy
    simp [hx, hy]

end OrdersOn

/-! ## A sorted list is fixed by its ties -/

section Ties

variable {α : Type} {le : α → α → Bool}

/-- Each may stand before the other. -/
def tied (le : α → α → Bool) (x y : α) : Bool := le x y && le y x

theorem tied_iff {x y : α} : tied le x y = true ↔ le x y = true ∧ le y x = true := by
  rw [tied, Bool.and_eq_true]

theorem tied_self (total : ∀ x y, le x y || le y x) (x : α) : tied le x x = true := by
  have h := total x x
  rw [Bool.or_self] at h
  exact tied_iff.mpr ⟨h, h⟩

/-- The first of a list in order may stand before each of the list. -/
theorem le_of_mem_cons (total : ∀ x y, le x y || le y x) {x y : α} {rest : List α}
    (h : (x :: rest).Pairwise fun x y => le x y = true) (hy : y ∈ x :: rest) : le x y = true := by
  rcases List.mem_cons.mp hy with rfl | hy
  · exact (tied_iff.mp (tied_self total y)).1
  · exact (List.pairwise_cons.mp h).1 y hy

/-- Two lists in order that hold the same elements are the same if they agree, for each of these, on
what is tied with it. -/
theorem eq_of_filter_tied (total : ∀ x y, le x y || le y x) {l l' : List α} (hperm : l.Perm l')
    (hl : l.Pairwise fun x y => le x y = true) (hl' : l'.Pairwise fun x y => le x y = true)
    (h : ∀ x ∈ l, l.filter (tied le x) = l'.filter (tied le x)) : l = l' := by
  induction l generalizing l' with
  | nil => exact hperm.nil_eq
  | cons x rest ih =>
      cases l' with
      | nil => exact hperm.eq_nil
      | cons y rest' =>
          -- Each of the two first ones stands in the other list, so they are tied.
          have hxy := le_of_mem_cons total hl (hperm.mem_iff.mpr List.mem_cons_self)
          have hyx := le_of_mem_cons total hl' (hperm.mem_iff.mp List.mem_cons_self)
          have hfirst := h x List.mem_cons_self
          rw [List.filter_cons_of_pos (tied_self total x),
            List.filter_cons_of_pos (tied_iff.mpr ⟨hxy, hyx⟩)] at hfirst
          obtain rfl := (List.cons.inj hfirst).1
          refine congrArg (List.cons x) (ih hperm.cons_inv hl.of_cons hl'.of_cons ?_)
          intro z hz
          have hfilters := h z (List.mem_cons_of_mem x hz)
          cases hzx : tied le z x with
          | true =>
              rw [List.filter_cons_of_pos hzx, List.filter_cons_of_pos hzx] at hfilters
              exact (List.cons.inj hfilters).2
          | false =>
              rwa [List.filter_cons_of_neg (by simp [hzx]),
                List.filter_cons_of_neg (by simp [hzx])] at hfilters

/-- The stable sort leaves in their order the elements that are tied with one. -/
theorem filter_tied_mergeSort (trans : ∀ x y z, le x y → le y z → le x z)
    (total : ∀ x y, le x y || le y x) (x : α) (l : List α) :
    (l.mergeSort le).filter (tied le x) = l.filter (tied le x) := by
  have hpairwise : (l.filter (tied le x)).Pairwise fun y z => le y z = true := by
    refine List.pairwise_of_forall_mem_list ?_
    intro y hy z hz
    have hy' := (tied_iff.mp (List.mem_filter.mp hy).2).2
    have hz' := (tied_iff.mp (List.mem_filter.mp hz).2).1
    exact trans y x z hy' hz'
  have hsublist := (List.sublist_mergeSort trans total hpairwise List.filter_sublist).filter
    (tied le x)
  simp only [List.filter_filter, Bool.and_self] at hsublist
  refine (hsublist.eq_of_length ?_).symm
  exact (((List.mergeSort_perm l le).filter _).length_eq).symm

/-- The stable sort leaves out what a filter leaves out, and the rest is as sorted. -/
theorem filter_mergeSort (trans : ∀ x y z, le x y → le y z → le x z)
    (total : ∀ x y, le x y || le y x) (p : α → Bool) (l : List α) :
    (l.mergeSort le).filter p = (l.filter p).mergeSort le := by
  refine eq_of_filter_tied total
    (((List.mergeSort_perm l le).filter p).trans (List.mergeSort_perm _ le).symm)
    ((List.pairwise_mergeSort trans total l).filter p) (List.pairwise_mergeSort trans total _) ?_
  intro x _
  have hcomm : ∀ items : List α,
      (items.filter p).filter (tied le x) = (items.filter (tied le x)).filter p := by
    intro items
    simp only [List.filter_filter, Bool.and_comm]
  rw [filter_tied_mergeSort trans total, hcomm, filter_tied_mergeSort trans total, hcomm]

/-- In the stable sort of a list, what is tied stands as it did in the list. -/
theorem pairwise_mergeSort_tied (trans : ∀ x y z, le x y → le y z → le x z)
    (total : ∀ x y, le x y || le y x) {R : α → α → Prop} {l : List α} (h : l.Pairwise R) :
    (l.mergeSort le).Pairwise fun x y => le x y = true ∧ (le y x = true → R x y) := by
  refine List.pairwise_iff_forall_sublist.mpr ?_
  intro x y hxy
  have hle := List.pairwise_iff_forall_sublist.mp (List.pairwise_mergeSort trans total l) hxy
  refine ⟨hle, ?_⟩
  intro hyx
  have htied := hxy.filter (tied le x)
  rw [filter_tied_mergeSort trans total, List.filter_cons_of_pos (tied_self total x),
    List.filter_cons_of_pos (tied_iff.mpr ⟨hle, hyx⟩), List.filter_nil] at htied
  exact List.pairwise_iff_forall_sublist.mp h (htied.trans List.filter_sublist)

end Ties

end FlowEngine
