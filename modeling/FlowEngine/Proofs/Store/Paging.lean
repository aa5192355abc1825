import FlowEngine.Proofs.Json.Members
import FlowEngine.Proofs.Store.Pages
/-!
# `FlowEngine.Proofs.Store.Paging` — one page after the other

Whoever asks for page after page is answered out of one list: the records that the filter selects, in
the order of the sort.  Neither limit nor page nor fields have a part in that list, so calls that
differ in nothing else agree on it (`Cuts`).

Limit and page are words of 32 bits, and the place where a page begins is a word of 64.  It is
computed there without wrapping around, whatever the two are (`toNat_firstPlace`): the greatest
product is below 2^64.

A page is empty just when the pages before it hold the whole list, and then they hold it once
(`pages_eq_all`).
-/

namespace FlowEngine

/-! ## Fields -/

namespace MemoryStore

/-- A list of fields names the field; without a list all are kept. -/
def keepsField (fields : Option String) (name : String) : Bool :=
  match fields.bind Text.nonBlank? with
  | some names => ((Text.splitAt ',' names).map Text.trim).contains name
  | none => true

theorem lookup_filterMap (name : String) (members : Json.Members) (names : List String) :
    Json.lookup name (names.filterMap fun n => (Json.lookup n members).map fun value => (n, value)) =
      if name ∈ names then Json.lookup name members else none := by
  induction names with
  | nil => rfl
  | cons n names ih =>
      cases hvalue : Json.lookup n members with
      | none =>
          rw [List.filterMap_cons_none (by rw [hvalue]; rfl), ih]
          by_cases hn : name = n
          · subst hn
            simp [hvalue]
          · simp [hn]
      | some value =>
          rw [List.filterMap_cons_some (b := (n, value)) (by rw [hvalue]; rfl), Json.lookup]
          by_cases hn : n = name
          · subst hn
            simp [hvalue]
          · simp [hn, Ne.symm hn, ih]

/-- One value is the other without the fields that are not kept; what is no object has no fields and
stays as it is. -/
structure Trimmed (keeps : String → Bool) (value trimmed : Json) : Prop where
  get? : ∀ name, trimmed.get? name = if keeps name then value.get? name else none
  shape : trimmed = value ∨ (∃ members, value = .object members) ∧ trimmed.IsRecord

theorem trimmed_project (fields : Option String) (record : Json) :
    Trimmed (keepsField fields) record (project fields record) := by
  unfold project keepsField
  cases fields.bind Text.nonBlank? with
  | none => exact ⟨fun name => rfl, .inl rfl⟩
  | some names =>
      cases record with
      | object members =>
          refine ⟨fun name => ?_, .inr ⟨⟨members, rfl⟩, Json.isRecord_record _⟩⟩
          rw [Json.get?_record, ← List.filterMap_reverse, lookup_filterMap]
          simp only [List.mem_reverse, List.contains_eq_mem, decide_eq_true_eq, Json.get?]
      | _ => exact ⟨fun name => by simp [Json.get?], .inl rfl⟩

/-! ## Places -/

/-- How many records a page has at most, as a word. -/
def pageSize (limit : UInt32) : UInt64 := (max limit 1).toUInt64

/-- The place of the first record of a page, as a word. -/
def firstPlace (limit page : UInt32) : UInt64 := ((max page 1).toUInt64 - 1) * pageSize limit

theorem toNat_max_one (n : UInt32) : (max n 1).toNat = max n.toNat 1 := by
  have hgreater : max n 1 = if n ≤ 1 then 1 else n := rfl
  have hone : (1 : UInt32).toNat = 1 := rfl
  by_cases h : n ≤ 1
  · have hsmall : n.toNat ≤ 1 := UInt32.le_iff_toNat_le.mp h
    rw [hgreater, if_pos h, hone, max_eq_right hsmall]
  · have hlarge : 1 ≤ n.toNat := by
      rw [UInt32.le_iff_toNat_le, hone] at h
      omega
    rw [hgreater, if_neg h, max_eq_left hlarge]

theorem toNat_pageSize (limit : UInt32) : (pageSize limit).toNat = max limit.toNat 1 := by
  rw [pageSize, UInt32.toNat_toUInt64, toNat_max_one]

/-- A page begins where it does in whole numbers: the product of two numbers below 2^32 is a word. -/
theorem toNat_firstPlace (limit page : UInt32) :
    (firstPlace limit page).toNat = (max page.toNat 1 - 1) * max limit.toNat 1 := by
  have hlimit := limit.toNat_lt
  have hpage := page.toNat_lt
  have hone : (1 : UInt64).toNat = 1 := rfl
  have hlarge : 1 ≤ (max page 1).toUInt64 := by
    rw [UInt64.le_iff_toNat_le, hone, UInt32.toNat_toUInt64, toNat_max_one]
    exact Nat.le_max_right _ _
  have hbefore : ((max page 1).toUInt64 - 1).toNat = max page.toNat 1 - 1 := by
    rw [UInt64.toNat_sub_of_le _ _ hlarge, UInt32.toNat_toUInt64, toNat_max_one, hone]
  have hproduct : (max page.toNat 1 - 1) * max limit.toNat 1 < 2 ^ 64 :=
    calc (max page.toNat 1 - 1) * max limit.toNat 1
        ≤ 4294967295 * 4294967295 := Nat.mul_le_mul (by omega) (by omega)
      _ < 2 ^ 64 := by norm_num
  rw [firstPlace, UInt64.toNat_mul, hbefore, toNat_pageSize, Nat.mod_eq_of_lt hproduct]

/-! ## Pages -/

/-- The page that the query asks for, cut out of the records that are listed: as many as the limit
allows, from the place on where the page begins, each without the fields that are not asked for. -/
structure Cuts (listed : List Json) (query : ListQuery) (page : RecordPage) : Prop where
  total : page.total = listed.length
  items : ∀ i, page.items[i]? =
    if i < (pageSize query.limit).toNat then
      (listed[(firstPlace query.limit query.page).toNat + i]?).map (project query.fields)
    else none

variable {store : MemoryStore} {collection : String} {query : ListQuery}
  {condition : Option Condition.Expr}

theorem list_eq (hfilter : MemoryStore.condition query.filter = .ok condition) :
    store.list collection query =
      .ok ⟨(pageOf query.limit query.page (store.select collection condition query.sort)).map
          (project query.fields), (store.select collection condition query.sort).length⟩ := by
  rw [list, hfilter]

theorem getElem?_pageOf (limit page : UInt32) (listed : List Json) (i : Nat) :
    (pageOf limit page listed)[i]? =
      if i < (pageSize limit).toNat then listed[(firstPlace limit page).toNat + i]? else none := by
  rw [toNat_pageSize, toNat_firstPlace, pageOf, List.getElem?_take, List.getElem?_drop]

theorem cuts_pageOf (query : ListQuery) (listed : List Json) :
    Cuts listed query
      ⟨(pageOf query.limit query.page listed).map (project query.fields), listed.length⟩ where
  total := rfl
  items := by
    intro i
    rw [List.getElem?_map, getElem?_pageOf]
    split <;> rfl

/-- A page is empty just when the pages before it have room for all that is listed. -/
theorem pageOf_eq_nil_iff (limit : UInt32) (listed : List Json) {n : Nat}
    (hn : n + 1 < 4294967296) :
    pageOf limit (UInt32.ofNat (n + 1)) listed = [] ↔ listed.length ≤ n * max limit.toNat 1 := by
  have hpage : (UInt32.ofNat (n + 1)).toNat = n + 1 := UInt32.toNat_ofNat_of_lt' hn
  have hbefore : max (n + 1) 1 - 1 = n := by omega
  have hroom : max limit.toNat 1 ≠ 0 := by omega
  rw [pageOf, hpage, hbefore, List.take_eq_nil_iff, List.drop_eq_nil_iff]
  simp [hroom]

/-- Up to an empty page, the pages are all that is listed. -/
theorem pages_eq_all (hfilter : MemoryStore.condition query.filter = .ok condition) {n : Nat}
    (hn : n < 4294967296)
    (hall : (store.select collection condition query.sort).length ≤ n * max query.limit.toNat 1) :
    store.pages collection query n =
      (store.select collection condition query.sort).map (project query.fields) := by
  rw [pages_eq_take hfilter hn, List.take_of_length_le hall]

/-- A filter and a sort tell one list of records.  It is made of the records that the filter selects,
and without a sort they stand as they were created.  Where the keys of the sort are an order of them,
they stand in that order, with ties as they were created, and every query with this filter and this
sort is answered by its page of that list and by the length of the list.  If the page behind the
first `n` is empty, the first `n` together are the list, and one is empty as soon as the page numbers
last that far.  The place where a page begins is computed without wrapping around, and the fields
asked for take nothing from a record but the others. -/
theorem pages_of_one_list (store : MemoryStore) (collection : String) {filter : Option String}
    {condition : Option Condition.Expr} (hfilter : MemoryStore.condition filter = .ok condition)
    (sort : Option String) :
    ∃ listed : List Json,
      listed.Perm (store.select collection condition none) ∧
      (sort = none → listed = store.select collection condition none) ∧
      ((∀ text ∈ sort, Store.Sortable (Store.sortKeys text)
          (store.select collection condition none)) →
        (∀ text ∈ sort, Store.InOrder (Store.sortKeys text) listed ∧
          Store.SameTies (Store.sortKeys text) listed (store.select collection condition none)) ∧
        ∀ query : ListQuery, query.filter = filter → query.sort = sort →
          (∃ page, store.list collection query = .ok page ∧ Cuts listed query page) ∧
          (∀ n, n + 1 < 4294967296 →
            ∃ page, store.list collection { query with page := UInt32.ofNat (n + 1) } = .ok page ∧
              (page.items = [] ↔ listed.length ≤ n * max query.limit.toNat 1) ∧
              (page.items = [] →
                store.pages collection query n = listed.map (project query.fields)))) ∧
      (∀ limit page : UInt32, (pageSize limit).toNat = max limit.toNat 1 ∧
        (firstPlace limit page).toNat = (max page.toNat 1 - 1) * max limit.toNat 1) ∧
      ∀ fields record, Trimmed (keepsField fields) record (project fields record) := by
  refine ⟨store.select collection condition sort, ?_, ?_, ?_, ?_, trimmed_project⟩
  · cases sort with
    | none => exact .refl _
    | some text => exact store.sorting.perm _ _
  · rintro rfl
    rfl
  · intro hsortable
    constructor
    · rintro text rfl
      exact ⟨store.sorting.inOrder (hsortable text rfl), store.sorting.sameTies (hsortable text rfl)⟩
    · rintro query rfl rfl
      refine ⟨⟨_, list_eq hfilter, cuts_pageOf query _⟩, ?_⟩
      intro n hn
      have hempty := pageOf_eq_nil_iff query.limit (store.select collection condition query.sort) hn
      refine ⟨_, list_eq hfilter, ?_, ?_⟩
      · rw [List.map_eq_nil_iff]
        exact hempty
      · intro hnil
        rw [List.map_eq_nil_iff] at hnil
        exact pages_eq_all hfilter (Nat.lt_of_succ_lt hn) (hempty.mp hnil)
  · intro limit page
    exact ⟨toNat_pageSize limit, toNat_firstPlace limit page⟩

/-- A query for the dates of the notes that have one, the latest first, two on a page. -/
def latestNotes : ListQuery :=
  { filter := some "at", sort := some "-at", limit := 2, fields := some "at , by" }

/-- Of five notes four have something for a date, so they fill two pages, and the third is empty. -/
theorem pages_of_one_list_ofNotes :
    MemoryStore.condition latestNotes.filter = .ok (some (.path ["at"])) ∧
    (∀ text ∈ some "-at", Store.Sortable (Store.sortKeys text)
      (ofNotes.select "notes" (some (.path ["at"])) none)) ∧
    ∃ listed : List Json,
      listed.Perm (ofNotes.select "notes" (some (.path ["at"])) none) ∧
      Store.InOrder (Store.sortKeys "-at") listed ∧ listed.length = 4 ∧
      (∃ page, ofNotes.list "notes" { latestNotes with page := 3 } = .ok page ∧ page.items = []) ∧
      ofNotes.pages "notes" latestNotes 2 = listed.map (project (some "at , by")) := by
  have hfilter : MemoryStore.condition latestNotes.filter = .ok (some (.path ["at"])) := by
    rfl
  have hvalues : ∀ key ∈ Store.sortKeys "-at", Store.Orderly (· ∈ valuesIn key.field
      (ofNotes.select "notes" (some (.path ["at"])) none)) := by decide +kernel
  have hsortable : ∀ text ∈ some "-at", Store.Sortable (Store.sortKeys text)
      (ofNotes.select "notes" (some (.path ["at"])) none) := by
    intro text htext
    obtain rfl := Option.some.inj htext
    exact sortable_of_orderly hvalues
  obtain ⟨listed, hperm, -, hlisted, -, -⟩ :=
    pages_of_one_list ofNotes "notes" hfilter (some "-at")
  obtain ⟨hordered, hpages⟩ := hlisted hsortable
  have hlength : listed.length = 4 := by
    rw [hperm.length_eq]
    decide +kernel
  obtain ⟨page, hpage, hempty, hall⟩ := (hpages latestNotes rfl rfl).2 2 (by decide)
  have hnil : page.items = [] := by
    rw [hempty, hlength]
    decide
  exact ⟨hfilter, hsortable, listed, hperm, (hordered "-at" rfl).1, hlength, ⟨page, hpage, hnil⟩,
    hall hnil⟩

end MemoryStore

end FlowEngine
