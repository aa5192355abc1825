import FlowEngine.Comparison
import FlowEngine.Store.Order
/-!
# `FlowEngine.Store.Sorting` — sorting records

The keys of a sort need not bring the records into an order, and what becomes of records that they do
not is up to who sorts.  All that is promised is written down in `Sorting`: no record is lost and none
made up, and where the keys are an order of the records, none stands before one that it comes after,
and those that the keys do not tell apart stay as they stood.

A few records are sorted by placing one after the other, each from the end past those that come after
it (`Sorting.insertion`).
-/

namespace FlowEngine.Store

/-- No record stands before one that it comes after. -/
def InOrder (keys : List SortKey) (records : List Json) : Prop :=
  records.Pairwise fun x y => orderBy keys x y ≠ .gt

/-- The records that the keys do not tell from one stand in the same order in both lists. -/
def SameTies (keys : List SortKey) (records others : List Json) : Prop :=
  ∀ x ∈ records, records.filter (orderBy keys x · == .eq) = others.filter (orderBy keys x · == .eq)

/-- The keys are an order of the records, up to ties. -/
def Sortable (keys : List SortKey) (records : List Json) : Prop :=
  OrdersOn (· ∈ records) (orderBy keys)

/-- A way to sort records by keys. -/
structure Sorting where
  sort : List SortKey → List Json → List Json
  perm (keys : List SortKey) (records : List Json) : (sort keys records).Perm records
  inOrder {keys : List SortKey} {records : List Json} : Sortable keys records →
    InOrder keys (sort keys records)
  sameTies {keys : List SortKey} {records : List Json} : Sortable keys records →
    SameTies keys (sort keys records) records

variable {keys : List SortKey} {records : List Json} {le : Json → Json → Bool}

/-- Records that the keys bring into an order are sorted by it, and stably. -/
theorem Sorting.sort_eq_mergeSort (sorting : Sorting) (h : Sortable keys records)
    (trans : ∀ x y z, le x y → le y z → le x z) (total : ∀ x y, le x y || le y x)
    (hle : ∀ x y, x ∈ records → y ∈ records → le x y = (orderBy keys x y).isLE) :
    sorting.sort keys records = records.mergeSort le := by
  have hmem : ∀ {x}, x ∈ sorting.sort keys records → x ∈ records :=
    fun hx => (sorting.perm keys records).mem_iff.mp hx
  have htied : ∀ x ∈ records, ∀ y ∈ records, (orderBy keys x y == .eq) = tied le x y := by
    intro x hx y hy
    rw [tied, hle x y hx hy, hle y x hy hx, h.swap y x hy hx]
    cases orderBy keys x y <;> rfl
  refine eq_of_filter_tied total
    ((sorting.perm keys records).trans (List.mergeSort_perm records le).symm) ?_
    (List.pairwise_mergeSort trans total records) ?_
  · refine (sorting.inOrder h).imp_of_mem ?_
    intro x y hx hy hxy
    rwa [hle x y (hmem hx) (hmem hy), Ordering.isLE_iff_ne_gt]
  · intro x hx
    have hties := sorting.sameTies h x hx
    rw [List.filter_congr fun y hy => htied x (hmem hx) y (hmem hy),
      List.filter_congr fun y hy => htied x (hmem hx) y hy] at hties
    rw [hties, filter_tied_mergeSort trans total]

/-- All ways to sort agree on records that the keys bring into an order. -/
theorem Sorting.sort_congr (sorting sorting' : Sorting) (h : Sortable keys records) :
    sorting.sort keys records = sorting'.sort keys records := by
  obtain ⟨le, trans, total, hle⟩ := h.exists_le
  rw [sorting.sort_eq_mergeSort h trans total hle, sorting'.sort_eq_mergeSort h trans total hle]

/-! ## Placing records -/

/-- Place a record among those that stand with the last one first: it passes every record that it
comes before, up to the first that it does not. -/
def place (keys : List SortKey) (record : Json) : List Json → List Json
  | [] => [record]
  | last :: earlier =>
    if comesBefore keys record last then last :: place keys record earlier
    else record :: last :: earlier

/-- Place records one after the other. -/
def placeAll (keys : List SortKey) (placed records : List Json) : List Json :=
  records.foldl (fun placed record => place keys record placed) placed

theorem place_perm (keys : List SortKey) (record : Json) (placed : List Json) :
    (place keys record placed).Perm (record :: placed) := by
  induction placed with
  | nil => exact List.Perm.refl _
  | cons last earlier ih =>
      unfold place
      split
      · exact (ih.cons last).trans (List.Perm.swap record last earlier)
      · exact List.Perm.refl _

theorem placeAll_perm (keys : List SortKey) (placed records : List Json) :
    (placeAll keys placed records).Perm (records ++ placed) := by
  induction records generalizing placed with
  | nil => exact List.Perm.refl placed
  | cons record rest ih =>
      refine (ih (place keys record placed)).trans ?_
      exact ((place_perm keys record placed).append_left rest).trans List.perm_middle

section Ordered

variable {P : Json → Prop} (hkeys : ∀ x y, P x → P y → comesBefore keys x y = !le y x)
  (trans : ∀ x y z, le x y → le y z → le x z) (total : ∀ x y, le x y || le y x)
  {record : Json} {placed : List Json}

include hkeys trans

/-- A record that is placed passes none that it is tied with. -/
theorem filter_tied_place (hrecord : P record) (hplaced : ∀ x ∈ placed, P x) (x : Json) :
    (place keys record placed).filter (tied le x) = (record :: placed).filter (tied le x) := by
  induction placed with
  | nil => rfl
  | cons last earlier ih =>
      obtain ⟨hlast, hearlier⟩ := List.forall_mem_cons.mp hplaced
      unfold place
      split
      · next hbefore =>
          rw [hkeys _ _ hrecord hlast, Bool.not_eq_true'] at hbefore
          have hapart : ¬ (tied le x record = true ∧ tied le x last = true) := by
            rintro ⟨hr, hl⟩
            have hle := trans last x record (tied_iff.mp hl).2 (tied_iff.mp hr).1
            rw [hbefore] at hle
            cases hle
          rw [List.filter_cons, ih hearlier]
          by_cases hr : tied le x record = true
          · have hl : ¬ tied le x last = true := fun hl => hapart ⟨hr, hl⟩
            rw [if_neg hl, List.filter_cons_of_pos hr, List.filter_cons_of_pos hr,
              List.filter_cons_of_neg hl]
          · rw [List.filter_cons_of_neg hr, List.filter_cons_of_neg hr, List.filter_cons]
      · rfl

include total

theorem pairwise_place (hrecord : P record) (hplaced : ∀ x ∈ placed, P x)
    (h : placed.Pairwise fun x y => le y x = true) :
    (place keys record placed).Pairwise fun x y => le y x = true := by
  induction placed with
  | nil => exact List.pairwise_singleton _ _
  | cons last earlier ih =>
      obtain ⟨hlast, hearlier⟩ := List.forall_mem_cons.mp hplaced
      obtain ⟨hfirst, hrest⟩ := List.pairwise_cons.mp h
      unfold place
      split
      · next hbefore =>
          rw [hkeys _ _ hrecord hlast, Bool.not_eq_true'] at hbefore
          refine List.pairwise_cons.mpr ⟨?_, ih hearlier hrest⟩
          intro x hx
          rcases List.mem_cons.mp ((place_perm keys record earlier).mem_iff.mp hx) with rfl | hx
          · have h := total x last
            rwa [hbefore, Bool.or_false] at h
          · exact hfirst x hx
      · next hbefore =>
          rw [hkeys _ _ hrecord hlast, Bool.not_eq_true', Bool.not_eq_false] at hbefore
          refine List.pairwise_cons.mpr ⟨?_, h⟩
          intro x hx
          rcases List.mem_cons.mp hx with rfl | hx
          · exact hbefore
          · exact trans x last record (hfirst x hx) hbefore

/-- Records placed one after the other, behind those already placed: they stand in order, and what
is tied stands as it came. -/
theorem placeAll_inOrder (hrecords : ∀ x ∈ records, P x) (hplaced : ∀ x ∈ placed, P x)
    (h : placed.Pairwise fun x y => le y x = true) :
    (placeAll keys placed records).Pairwise (fun x y => le y x = true) ∧
      ∀ x, (placeAll keys placed records).filter (tied le x) =
        (records.reverse ++ placed).filter (tied le x) := by
  induction records generalizing placed with
  | nil => exact ⟨h, fun _ => rfl⟩
  | cons record rest ih =>
      obtain ⟨hrecord, hrest⟩ := List.forall_mem_cons.mp hrecords
      have hplaced' : ∀ x ∈ place keys record placed, P x := by
        intro x hx
        rcases List.mem_cons.mp ((place_perm keys record placed).mem_iff.mp hx) with rfl | hx
        · exact hrecord
        · exact hplaced x hx
      obtain ⟨hpairwise, hties⟩ :=
        ih hrest hplaced' (pairwise_place hkeys trans total hrecord hplaced h)
      refine ⟨hpairwise, ?_⟩
      intro x
      show (placeAll keys (place keys record placed) rest).filter (tied le x) = _
      rw [hties, List.filter_append, filter_tied_place hkeys trans hrecord hplaced x,
        ← List.filter_append, List.reverse_cons, List.append_assoc]
      rfl

end Ordered

/-- Records that the keys bring into an order, placed one after the other, are in that order, and what
is tied stands as it came. -/
theorem reverse_placeAll_inOrder (h : Sortable keys records) :
    InOrder keys (placeAll keys [] records).reverse ∧
      SameTies keys (placeAll keys [] records).reverse records := by
  obtain ⟨le, trans, total, hle⟩ := h.exists_le
  have hkeys : ∀ x y, x ∈ records → y ∈ records → comesBefore keys x y = !le y x := by
    intro x y hx hy
    rw [hle y x hy hx, h.swap y x hy hx, comesBefore]
    cases orderBy keys x y <;> rfl
  have htied : ∀ x ∈ records, ∀ y ∈ records, (orderBy keys x y == .eq) = tied le x y := by
    intro x hx y hy
    rw [tied, hle x y hx hy, hle y x hy hx, h.swap y x hy hx]
    cases orderBy keys x y <;> rfl
  have hmem : ∀ {x}, x ∈ (placeAll keys [] records).reverse → x ∈ records := by
    intro x hx
    rw [List.mem_reverse, (placeAll_perm keys [] records).mem_iff, List.append_nil] at hx
    exact hx
  obtain ⟨hpairwise, hties⟩ := placeAll_inOrder hkeys trans total (fun _ hx => hx)
    (List.forall_mem_nil _) List.Pairwise.nil
  constructor
  · refine (List.pairwise_reverse.mpr hpairwise).imp_of_mem ?_
    intro x y hx hy hxy
    rwa [hle x y (hmem hx) (hmem hy), Ordering.isLE_iff_ne_gt] at hxy
  · intro x hx
    rw [List.filter_congr fun y hy => htied x (hmem hx) y (hmem hy),
      List.filter_congr fun y hy => htied x (hmem hx) y hy, List.filter_reverse, hties x,
      List.append_nil, ← List.filter_reverse, List.reverse_reverse]

/-- Records sorted by placing one after the other. -/
def Sorting.insertion : Sorting where
  sort keys records := (placeAll keys [] records).reverse
  perm keys records := by
    have h := placeAll_perm keys [] records
    rw [List.append_nil] at h
    exact (List.reverse_perm _).trans h
  inOrder h := (reverse_placeAll_inOrder h).1
  sameTies h := (reverse_placeAll_inOrder h).2

end FlowEngine.Store
