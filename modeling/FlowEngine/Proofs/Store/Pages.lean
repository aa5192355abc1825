import FlowEngine.Proofs.Store.Values
import FlowEngine.Store.Memory
/-!
# `FlowEngine.Proofs.Store.Pages` — the pages of a sorted listing

A listing selects records, sorts them and cuts out a page.  The pages put together are the sorted
records (`pages_eq_take`), so all there is to say of them is said of the sort: it permutes the
records, leaves none before one that it comes after, and leaves in their order those that the keys
do not tell apart.

That is so where the keys are an order of the records, and they are where the fields to sort by show
orderly values (`sortable_of_orderly`).  Where a text stands between two moments
the wrong way round, there is no arrangement of the records with these properties, whatever the sort
does (`not_inOrder_of_circle`).
-/

namespace FlowEngine

namespace Store

/-! ## Records that go round in a circle -/

variable {keys : List SortKey} {records : List Json}

/-- Three records that go round in a circle are in order in no list. -/
theorem not_inOrder_of_circle {x y z : Json} (hxy : orderBy keys y x = .gt)
    (hyz : orderBy keys z y = .gt) (hzx : orderBy keys x z = .gt) (hne : x ≠ y)
    (hx : x ∈ records) (hy : y ∈ records) (hz : z ∈ records) : ¬ InOrder keys records := by
  intro h
  obtain ⟨i, hi, rfl⟩ := List.getElem_of_mem hx
  obtain ⟨j, hj, rfl⟩ := List.getElem_of_mem hy
  obtain ⟨k, hk, rfl⟩ := List.getElem_of_mem hz
  have hafter := List.pairwise_iff_getElem.mp h
  have hij : i ≤ j := Nat.le_of_not_lt fun hlt => hafter j i hj hi hlt hxy
  have hjk : j ≤ k := Nat.le_of_not_lt fun hlt => hafter k j hk hj hlt hyz
  have hki : k ≤ i := Nat.le_of_not_lt fun hlt => hafter i k hi hk hlt hzx
  obtain rfl : i = j := Nat.le_antisymm hij (hjk.trans hki)
  exact hne rfl

/-- Where a text that is no moment stands, by code point, between two moments and the later one is
before it, the records are in order in no list. -/
theorem not_inOrder_of_between {field s t between : String} {m n : Timestamp} {x y z : Json}
    (hx : x.get? field = some (.string s)) (hy : y.get? field = some (.string t))
    (hz : z.get? field = some (.string between)) (hm : Timestamp.parse? s = some m)
    (hn : Timestamp.parse? t = some n) (hnone : Timestamp.parse? between = none)
    (hmn : m.isBefore n = true) (htb : t < between) (hbs : between < s)
    (hmem : x ∈ records ∧ y ∈ records ∧ z ∈ records) :
    ¬ InOrder [⟨field, false⟩] records := by
  have htexts : ∀ {a b : String}, a < b → orderTexts b a = .gt := by
    intro a b hab
    rw [orderTexts_eq_compare, compare_gt_iff_gt]
    exact hab
  refine not_inOrder_of_circle (x := x) (y := y) (z := z) ?_ ?_ ?_ ?_ hmem.1 hmem.2.1 hmem.2.2
  · rw [orderBy_of_texts hy hx, orderStrings_moments hn hm]
    exact Timestamp.order_eq_gt_iff.mpr hmn
  · rw [orderBy_of_texts hz hy, orderStrings_left hnone]
    exact htexts htb
  · rw [orderBy_of_texts hx hz, orderStrings_right hnone]
    exact htexts hbs
  · rintro rfl
    rw [hx, Option.some_inj, Json.string.injEq] at hy
    exact lt_asymm htb (hy ▸ hbs)

end Store

namespace MemoryStore

variable {store : MemoryStore} {collection : String}

/-! ## Pages -/

def pages (store : MemoryStore) (collection : String) (query : ListQuery) (n : Nat) : List Json :=
  (List.range n).flatMap fun i =>
    ((store.list collection { query with page := UInt32.ofNat (i + 1) }).toOption.map
      RecordPage.items).getD []

theorem flatMap_pageOf (limit : UInt32) (records : List Json) {n : Nat} (hn : n < 4294967296) :
    ((List.range n).flatMap fun i => pageOf limit (UInt32.ofNat (i + 1)) records) =
      records.take (n * max limit.toNat 1) := by
  induction n with
  | zero => simp
  | succ n ih =>
      have hpage : (UInt32.ofNat (n + 1)).toNat = n + 1 := UInt32.toNat_ofNat_of_lt' hn
      have hskipped : max (n + 1) 1 - 1 = n := by omega
      rw [List.range_succ, List.flatMap_append, ih (Nat.lt_of_succ_lt hn), List.flatMap_singleton,
        pageOf, hpage, hskipped, Nat.succ_mul, List.take_add]

theorem pages_eq_take {query : ListQuery} {condition : Option Condition.Expr}
    (hfilter : MemoryStore.condition query.filter = .ok condition) {n : Nat}
    (hn : n < 4294967296) :
    store.pages collection query n =
      ((store.select collection condition query.sort).take (n * max query.limit.toNat 1)).map
        (project query.fields) := by
  rw [← flatMap_pageOf _ _ hn, List.map_flatMap, pages]
  refine congrArg (fun f => (List.range n).flatMap f) (funext fun i => ?_)
  rw [list, hfilter]
  rfl

def valuesIn (field : String) (records : List Json) : List Json :=
  records.filterMap (·.get? field)

/-- Records that show orderly values in the fields to sort by can be sorted. -/
theorem sortable_of_orderly {keys : List Store.SortKey} {records : List Json}
    (h : ∀ key ∈ keys, Store.Orderly (· ∈ valuesIn key.field records)) :
    Store.Sortable keys records := by
  refine Store.ordersOn_orderBy fun key hkey => (h key hkey).mono ?_
  rintro x ⟨r, hr, hx⟩
  exact List.mem_filterMap.mpr ⟨r, hr, hx⟩

/-- Where the fields to sort by show orderly values, a listing gives the records that match its
filter in order: none stands before one that it comes after by the keys of the sort, and those that
the keys do not tell apart stand as they were created.  Each page is cut out of these records, and
the pages together are all of them. -/
theorem list_sorted {filter : Option String} {condition : Option Condition.Expr}
    (hfilter : MemoryStore.condition filter = .ok condition) (sort : String)
    (hvalues : ∀ key ∈ Store.sortKeys sort,
      Store.Orderly (· ∈ valuesIn key.field (store.select collection condition none))) :
    ∃ sorted : List Json, sorted.Perm (store.select collection condition none) ∧
      Store.InOrder (Store.sortKeys sort) sorted ∧
      Store.SameTies (Store.sortKeys sort) sorted (store.select collection condition none) ∧
      ∀ query : ListQuery, query.filter = filter → query.sort = some sort →
        store.list collection query =
            .ok ⟨(pageOf query.limit query.page sorted).map (project query.fields),
              sorted.length⟩ ∧
          ∀ n < 4294967296, store.pages collection query n =
            (sorted.take (n * max query.limit.toNat 1)).map (project query.fields) := by
  have hsortable := sortable_of_orderly hvalues
  refine ⟨_, store.sorting.perm _ _, store.sorting.inOrder hsortable,
    store.sorting.sameTies hsortable, ?_⟩
  rintro query rfl hsort
  have hselect : store.select collection condition query.sort =
      store.sorting.sort (Store.sortKeys sort) (store.select collection condition none) := by
    rw [hsort]
    rfl
  constructor
  · rw [list, hfilter]
    simp only [hselect]
  · intro n hn
    rw [pages_eq_take hfilter hn, hselect]

def dated (text : String) : Json := .object [("at", .string text)]

def ofNotes : MemoryStore :=
  { collections := [("notes", [dated "soon", dated "2026-01-02T06:00:00Z", .object [],
      .object [("at", .number (.integer 7))], dated "2026-01-01T06:00:00Z"])] }

theorem list_sorted_ofNotes : MemoryStore.condition none = .ok none ∧
    (∀ key ∈ Store.sortKeys "-at", Store.Orderly (· ∈ valuesIn key.field
      (ofNotes.select "notes" none none))) ∧
    ∃ sorted : List Json, sorted.Perm (ofNotes.select "notes" none none) ∧
      Store.InOrder (Store.sortKeys "-at") sorted ∧
      ofNotes.pages "notes" { sort := some "-at", limit := 2 } 3 = sorted := by
  have hvalues : ∀ key ∈ Store.sortKeys "-at", Store.Orderly (· ∈ valuesIn key.field
      (ofNotes.select "notes" none none)) := by decide +kernel
  have hfilter : MemoryStore.condition none = .ok none := rfl
  obtain ⟨sorted, hperm, hinOrder, -, hlisted⟩ := list_sorted hfilter "-at" hvalues
  have hpages := (hlisted { sort := some "-at", limit := 2 } rfl rfl).2 3 (by decide)
  have hlength : sorted.length = 5 := hperm.length_eq
  refine ⟨hfilter, hvalues, sorted, hperm, hinOrder, hpages.trans ?_⟩
  rw [List.take_of_length_le (by rw [hlength]; decide)]
  exact List.map_id sorted

/-- Records with two moments and a text that stands between them, by code point, the wrong way
round. -/
def ofClocks : MemoryStore :=
  { collections := [("clocks", [dated "2026-01-01T06:00:00Z", dated "2026-01-01T08",
      dated "2026-01-01T10:00:00+05:00"])] }

/-- They are listed, but not in order: there is no order of them. -/
theorem not_inOrder_ofClocks :
    (ofClocks.pages "clocks" { sort := some "at" } 1).Perm
        (ofClocks.select "clocks" none none) ∧
      ∀ sorted : List Json, sorted.Perm (ofClocks.select "clocks" none none) →
        ¬ Store.InOrder (Store.sortKeys "at") sorted := by
  constructor
  · have hlength : (ofClocks.select "clocks" none (some "at")).length = 3 := by decide +kernel
    have hfilter : MemoryStore.condition none = .ok none := rfl
    rw [pages_eq_take hfilter (by decide),
      List.take_of_length_le (by rw [hlength]; decide)]
    exact (List.Perm.of_eq (List.map_id _)).trans (ofClocks.sorting.perm _ _)
  · intro sorted hperm
    have hkeys : Store.sortKeys "at" = [⟨"at", false⟩] := by decide
    rw [hkeys]
    refine Store.not_inOrder_of_between (m := ⟨1767243600, 0⟩) (n := ⟨1767247200, 0⟩)
      (x := dated "2026-01-01T10:00:00+05:00") (y := dated "2026-01-01T06:00:00Z")
      (z := dated "2026-01-01T08") rfl rfl rfl (by decide +kernel) (by decide +kernel)
      (by decide +kernel) (by decide) (by decide) (by decide) ?_
    simp only [hperm.mem_iff]
    exact ⟨.tail _ (.tail _ (.head _)), .head _, .tail _ (.head _)⟩

end MemoryStore

end FlowEngine
