import FlowEngine.Proofs.Library.Listing
import FlowEngine.Proofs.Store.Pages
/-!
# `FlowEngine.Proofs.Library.Catalogue` — every flow listed once, and by name

A listing does not know how many pages there are: it goes on until it has as many flows as the store
says there are.  Told by its transcript, of any store that cuts its pages out of one list, it turns
them from the first to the last and asks for nothing else (`leads_listFrom`).

In memory the pages are cut out of the records sorted by name.  `Filled` remembers in which order
the flows were created; a flow that is saved again or archived keeps its place in it, and so flows
of one name are listed in that order.  The filter for active flows is a text that the store reads,
and selects what the status says.
-/

namespace FlowEngine

namespace Library

variable {library : Library} {flows read : List Flow} {records : List Json}
  {filter : Option String} {size k : Nat} {t : Transcript}

/-- The page behind the first k pages, asked for and cut out of the records. -/
def turning (library : Library) (filter : Option String) (size : Nat) (records : List Json)
    (k : Nat) : Exchange :=
  ⟨.list library.collection (pageQuery filter (UInt32.ofNat (k + 1))),
    .ok ⟨(records.drop (k * size)).take size, records.length⟩⟩

/-- The pages in a transcript are cut out of the records, all of them of one size. -/
def Cut (library : Library) (filter : Option String) (size : Nat) (records : List Json)
    (t : Transcript) : Prop :=
  ∀ (k : Nat) (reply : Except StoreError RecordPage), k + 1 < maxPages →
    (⟨.list library.collection (pageQuery filter (UInt32.ofNat (k + 1))), reply⟩ : Exchange) ∈ t →
      reply = .ok ⟨(records.drop (k * size)).take size, records.length⟩

/-- How many pages the records take up; no records take up an empty one. -/
def pagesOf (size count : Nat) : Nat := max 1 ((count + size - 1) / size)

/-- Pages turned one after the other are cut out of the records. -/
theorem cut_turning {m : Nat} (hm : m < maxPages) :
    Cut library filter size records ((List.range m).map (turning library filter size records)) := by
  intro k reply hk hmem
  obtain ⟨j, hj, hturning⟩ := List.mem_map.mp hmem
  obtain ⟨haction, hreply⟩ := Exchange.mk.inj hturning
  have hj' : j + 1 < maxPages := Nat.lt_of_le_of_lt (List.mem_range.mp hj) hm
  have hpage := congrArg UInt32.toNat (congrArg ListQuery.page (Action.list.inj haction).2)
  have hsame : j + 1 = k + 1 := by
    rwa [pageQuery, pageQuery, UInt32.toNat_ofNat_of_lt' hj', UInt32.toNat_ofNat_of_lt' hk] at hpage
  obtain rfl := Nat.succ.inj hsame
  exact (eq_of_heq hreply).symm

/-- What a listing does with a page: it stops if the page cannot be read or was the last one, and
goes on to the next page otherwise. -/
theorem leads_page {fuel : Nat} {result : Except StoreError (List Flow)} (hroom : k + 1 < maxPages)
    (h : Program.Leads (library.listFrom filter (fuel + 1) (UInt32.ofNat (k + 1)) read) t result)
    (hcut : Cut library filter size records t) :
    ∃ rest, t = turning library filter size records k :: rest ∧
      ((∃ e, Json.readRecords Flow.ofRecord? library.collection
            ((records.drop (k * size)).take size) = .error e ∧ rest = []) ∨
        ∃ values, Json.readRecords Flow.ofRecord? library.collection
            ((records.drop (k * size)).take size) = .ok values ∧
          ((values = [] ∨ records.length ≤ (read ++ values).length) ∧ rest = [] ∧
              result = .ok (read ++ values) ∨
            (read ++ values).length < records.length ∧
              Program.Leads (library.listFrom filter fuel (UInt32.ofNat (k + 1 + 1))
                (read ++ values)) rest result)) := by
  obtain ⟨reply, rest, rfl, hrest⟩ := Program.leads_perform_bind.mp h
  obtain rfl := hcut k reply hroom List.mem_cons_self
  refine ⟨rest, rfl, ?_⟩
  cases hvalues : Json.readRecords Flow.ofRecord? library.collection
      ((records.drop (k * size)).take size) with
  | error e =>
      simp only [hvalues] at hrest
      exact Or.inl ⟨e, rfl, (Program.leads_pure.mp hrest).1⟩
  | ok values =>
      simp only [hvalues] at hrest
      refine Or.inr ⟨values, rfl, ?_⟩
      split at hrest
      · next hlast =>
          obtain ⟨hnil, hresult⟩ := Program.leads_pure.mp hrest
          rw [Bool.or_eq_true_iff, List.isEmpty_iff, decide_eq_true_eq] at hlast
          exact Or.inl ⟨hlast, hnil, hresult⟩
      · next hmore =>
          rw [Bool.or_eq_true_iff, not_or, decide_eq_true_eq, Nat.not_le] at hmore
          rw [← UInt32.ofNat_one, ← UInt32.ofNat_add] at hrest
          exact Or.inr ⟨hmore.2, hrest⟩

/-- A listing that has come to some page turns the pages in their order and none behind the last
one, and returns the list if all of it can be read. -/
theorem leads_listFrom (hsize : 0 < size) (hnumbered : records.length ≤ size * (maxPages - 1))
    {fuel : Nat} (hroom : k + 1 < maxPages) (hfuel : maxPages ≤ fuel + k)
    (hread : read.length = min (k * size) records.length)
    {result : Except StoreError (List Flow)}
    (h : Program.Leads (library.listFrom filter fuel (UInt32.ofNat (k + 1)) read) t result)
    (hcut : Cut library filter size records t) :
    ∃ m, k + m ≤ max (k + 1) (pagesOf size records.length) ∧
      t = (List.range' k m).map (turning library filter size records) ∧
      ∀ flows : List Flow, records.map Flow.ofRecord? = flows.map some →
        read = flows.take (k * size) → result = .ok flows := by
  induction fuel generalizing k read t with
  | zero => omega
  | succ fuel ih =>
      have hchunk : ∀ flows : List Flow, records.map Flow.ofRecord? = flows.map some →
          Json.readRecords Flow.ofRecord? library.collection
            ((records.drop (k * size)).take size) = .ok ((flows.drop (k * size)).take size) := by
        intro flows hflows
        refine Json.readRecords_of_map ?_ library.collection
        rw [List.map_take, List.map_drop, hflows, List.map_take, List.map_drop]
      obtain ⟨rest, rfl, ⟨e, hvalues, rfl⟩ | ⟨values, hvalues, hnext⟩⟩ := leads_page hroom h hcut
      · refine ⟨1, le_max_left _ _, rfl, ?_⟩
        intro flows hflows _
        rw [hchunk flows hflows] at hvalues
        cases hvalues
      have hcount : values.length = min size (records.length - k * size) := by
        have hlength := congrArg List.length (Json.map_of_readRecords hvalues)
        rw [List.length_map, List.length_map, List.length_take, List.length_drop] at hlength
        exact hlength.symm
      have hgrown : (read ++ values).length = min ((k + 1) * size) records.length := by
        rw [List.length_append, hread, hcount, Nat.add_one_mul]
        omega
      have htaken : ∀ flows : List Flow, records.map Flow.ofRecord? = flows.map some →
          read = flows.take (k * size) → read ++ values = flows.take ((k + 1) * size) := by
        rintro flows hflows rfl
        rw [hchunk flows hflows] at hvalues
        rw [← Except.ok.inj hvalues, Nat.add_one_mul, List.take_add]
      rcases hnext with ⟨hlast, rfl, rfl⟩ | ⟨hmore, hrest⟩
      · refine ⟨1, le_max_left _ _, rfl, ?_⟩
        intro flows hflows hbefore
        have hlength : records.length = flows.length := by
          simpa using congrArg List.length hflows
        rw [htaken flows hflows hbefore, List.take_of_length_le]
        rw [Nat.add_one_mul] at hgrown ⊢
        rcases hlast with rfl | hcounted
        · rw [List.length_nil] at hcount
          omega
        · omega
      · have hbehind : (k + 1) * size < records.length := by omega
        have hroom' : k + 1 + 1 < maxPages := by
          have hlt := Nat.lt_of_lt_of_le hbehind hnumbered
          rw [Nat.mul_comm size] at hlt
          have hfewer := Nat.lt_of_mul_lt_mul_right hlt
          omega
        obtain ⟨m, hm, rfl, hall⟩ := ih hroom' (by omega) hgrown hrest
          fun k reply hk hmem => hcut k reply hk (List.mem_cons_of_mem _ hmem)
        have hpages : k + 2 ≤ pagesOf size records.length := by
          refine le_max_of_le_right ((Nat.le_div_iff_mul_le hsize).mpr ?_)
          rw [Nat.succ_mul]
          omega
        refine ⟨m + 1, by omega, rfl, ?_⟩
        intro flows hflows hbefore
        exact hall flows hflows (htaken flows hflows hbefore)

/-! ## By name -/

/-- The flows in the order of their names by code point, those of one name as they stood. -/
def byName (flows : List Flow) : List Flow := flows.mergeSort fun a b => decide (a.name ≤ b.name)

theorem name_le_trans (a b c : Flow) (hab : decide (a.name ≤ b.name) = true)
    (hbc : decide (b.name ≤ c.name) = true) : decide (a.name ≤ c.name) = true := by
  rw [decide_eq_true_eq] at *
  exact hab.trans hbc

theorem name_le_total (a b : Flow) :
    (decide (a.name ≤ b.name) || decide (b.name ≤ a.name)) = true := by
  simpa using le_total a.name b.name

theorem filter_byName (p : Flow → Bool) (flows : List Flow) :
    (byName flows).filter p = byName (flows.filter p) :=
  filter_mergeSort name_le_trans name_le_total p flows

theorem byName_perm (flows : List Flow) : (byName flows).Perm flows := List.mergeSort_perm _ _

/-- The records of flows whose names are no moments are sorted by these names. -/
theorem sort_stored (sorting : Store.Sorting)
    (hname : ∀ flow ∈ flows, Timestamp.parse? flow.name = none) :
    sorting.sort (Store.sortKeys "+name") (flows.map Flow.stored) =
      (byName flows).map Flow.stored := by
  have hkeys : Store.sortKeys "+name" = [⟨"name", false⟩] := by decide
  rw [hkeys]
  exact sorting.sort_texts fun flow hflow => ⟨flow.get?_stored "name", hname flow hflow⟩

theorem ofRecord?_map_stored (hexact : ∀ flow ∈ flows, flow.Exact) :
    (flows.map Flow.stored).map Flow.ofRecord? = flows.map some := by
  rw [List.map_map]
  exact List.map_congr_left fun flow hflow => Flow.ofRecord?_stored (hexact flow hflow)

theorem runWith_list {store : MemoryStore} (clock : Clock) (n : Nat)
    (hread : (store.select library.collection none (some "+name")).map Flow.ofRecord? =
      flows.map some) (hnumbered : Numbered 200 flows) :
    library.list.runWith (withClock clock MemoryStore.answer) (n, store) =
      (.ok flows, (n, store)) := by
  have hserves : Serves (withClock clock MemoryStore.answer) (n, store) library none 200
      (store.select library.collection none (some "+name")) := serves_memory rfl
  have hwalk := runWith_listFrom hserves (by decide) hread hnumbered maxPages 0 1 rfl
    (Nat.le_add_right _ _)
  rw [Nat.zero_mul, List.take_zero] at hwalk
  exact hwalk

/-- All flows are listed by name, and so are the active ones among them. -/
theorem Holds.listed {store : MemoryStore} (h : library.Holds store flows)
    (hname : ∀ flow ∈ flows, Timestamp.parse? flow.name = none) (hnumbered : Numbered 200 flows)
    (clock : Clock) (n : Nat) :
    library.list.runWith (withClock clock MemoryStore.answer) (n, store) =
        (.ok (byName flows), (n, store)) ∧
      library.listActive.runWith (withClock clock MemoryStore.answer) (n, store) =
        (.ok ((byName flows).filter Flow.isActive), (n, store)) := by
  have hexact : ∀ flow ∈ byName flows, flow.Exact :=
    fun flow hflow => h.exact flow ((byName_perm flows).mem_iff.mp hflow)
  constructor
  · have hrecords : store.records library.collection = flows.map Flow.stored := h.lists
    have hselect : store.select library.collection none (some "+name") =
        (byName flows).map Flow.stored := by
      rw [← sort_stored store.sorting hname, ← hrecords]
      exact congrArg (store.sorting.sort (Store.sortKeys "+name")) (List.filter_true _)
    refine runWith_list clock n ?_ ?_
    · rw [hselect, ofRecord?_map_stored hexact]
    · rwa [Numbered, (byName_perm flows).length_eq]
  · have hfewer : Numbered 200 (flows.filter Flow.isActive) :=
      (List.length_filter_le _ _).trans hnumbered
    obtain ⟨listed, hperm, hstored, hactive⟩ := h.listActive hfewer clock n
    have hlisted : listed = (byName flows).filter Flow.isActive := by
      have hexact' : ∀ flow ∈ listed, flow.Exact :=
        fun flow hflow => h.exact flow (List.mem_of_mem_filter (hperm.mem_iff.mp hflow))
      refine List.map_injective_iff.mpr (Option.some_injective Flow) ?_
      rw [← ofRecord?_map_stored hexact', hstored, filter_byName, sort_stored,
        ofRecord?_map_stored]
      · intro flow hflow
        exact h.exact flow (List.mem_of_mem_filter ((byName_perm _).mem_iff.mp hflow))
      · exact fun flow hflow => hname flow (List.mem_of_mem_filter hflow)
    rw [hactive, hlisted]

/-! ## Libraries filled one flow after the other -/

/-- The store after saves and archivings, of flows whose names are no moments, with the identifiers
of the flows in the order in which they were created.  The other collections are anyone's. -/
inductive Filled (library : Library) : List String → MemoryStore → Prop where
  | empty {store : MemoryStore} : store.records library.collection = [] → Filled library [] store
  | saved {ids : List String} {store store' : MemoryStore} {flow saved : Flow} :
      Filled library ids store → flow.canvas.Tidy → Timestamp.parse? flow.name = none →
      (library.save flow).runWith MemoryStore.answer store = (.ok saved, store') →
      Filled library (if saved.id ∈ ids then ids else ids ++ [saved.id]) store'
  | refused {ids : List String} {store store' : MemoryStore} {flow : Flow} {e : StoreError} :
      Filled library ids store → flow.canvas.Tidy →
      (library.save flow).runWith MemoryStore.answer store = (.error e, store') →
      Filled library ids store'
  | archived {ids : List String} {store : MemoryStore} (id : String) : Filled library ids store →
      Filled library ids ((library.archive id).runWith MemoryStore.answer store).2
  | elsewhere {ids : List String} {store store' : MemoryStore} : Filled library ids store →
      store'.records library.collection = store.records library.collection →
      Filled library ids store'

/-- What a filing does to the identifiers: that of a new flow goes behind the others. -/
theorem Filed.map_id {flow : Flow} {old : Option Flow} {flows flows' : List Flow}
    (h : Filed flow old flows flows') : flows'.map Flow.id =
      if flow.id ∈ flows.map Flow.id then flows.map Flow.id
      else flows.map Flow.id ++ [flow.id] := by
  cases h with
  | replaced hid =>
      rw [if_pos (by simp [hid]), List.map_append, List.map_append, List.map_cons, List.map_cons,
        hid]
      rfl
  | added hfree =>
      rw [if_neg (by simpa using hfree), List.map_append]
      rfl

theorem Filed.forall_name {flow : Flow} {old : Option Flow} {flows flows' : List Flow}
    {P : String → Prop} (h : Filed flow old flows flows') (hflows : ∀ x ∈ flows, P x.name)
    (hflow : P flow.name) : ∀ x ∈ flows', P x.name := by
  obtain ⟨before, after, rfl, rfl, -⟩ := h.split
  simp only [List.forall_mem_append, List.forall_mem_cons] at hflows ⊢
  exact ⟨hflows.1.1, hflow, hflows.2⟩

/-- The flows are held in the order in which they were created. -/
theorem Filled.holds {ids : List String} {store : MemoryStore} (h : library.Filled ids store) :
    ∃ flows, library.Holds store flows ∧ flows.map Flow.id = ids ∧
      ∀ flow ∈ flows, Timestamp.parse? flow.name = none := by
  induction h with
  | empty hrecords =>
      exact ⟨[], ⟨hrecords, List.forall_mem_nil _, List.nodup_nil⟩, rfl, List.forall_mem_nil _⟩
  | saved _ hflow hname hsave ih =>
      obtain ⟨flows, hholds, rfl, hnames⟩ := ih
      rcases hholds.save hflow with ⟨e, _, hrefused, -⟩ |
        ⟨old, filed, flows', after, -, hsaved, hself, -, hfiled, hholds'⟩
      · rw [hrefused] at hsave
        cases hsave
      obtain ⟨hok, rfl⟩ := Prod.mk.inj (hsave.symm.trans hsaved)
      obtain rfl := Except.ok.inj hok
      refine ⟨flows', hholds', hfiled.map_id,
        hfiled.forall_name (P := fun name => Timestamp.parse? name = none) hnames ?_⟩
      rwa [hself]
  | refused _ hflow hsave ih =>
      obtain ⟨flows, hholds, hids, hnames⟩ := ih
      rcases hholds.save hflow with ⟨e, _, hrefused, hkept⟩ |
        ⟨_, _, _, _, -, hsaved, -, -, -, -⟩
      · obtain ⟨-, rfl⟩ := Prod.mk.inj (hsave.symm.trans hrefused)
        exact ⟨flows, hkept, hids, hnames⟩
      · rw [hsaved] at hsave
        cases hsave
  | archived id _ ih =>
      obtain ⟨flows, hholds, hids, hnames⟩ := ih
      obtain ⟨store', harchived, hholds'⟩ := hholds.archived id
      rw [harchived]
      refine ⟨archiving id flows, hholds', (map_id_archiving id flows).trans hids, ?_⟩
      intro flow hflow
      obtain ⟨x, hx, rfl⟩ := List.mem_map.mp hflow
      split <;> exact hnames x hx
  | elsewhere _ hrecords ih =>
      obtain ⟨flows, hholds, hids, hnames⟩ := ih
      exact ⟨flows, ⟨hrecords.trans hholds.lists, hholds.exact, hholds.distinct⟩, hids, hnames⟩

/-- The flow has the smaller name, or the same one and was created earlier. -/
def Precedes (ids : List String) (a b : Flow) : Prop :=
  a.name < b.name ∨ a.name = b.name ∧ ids.idxOf a.id < ids.idxOf b.id

theorem pairwise_idxOf {ids : List String} (h : ids.Nodup) :
    ids.Pairwise fun a b => ids.idxOf a < ids.idxOf b := by
  refine List.pairwise_iff_getElem.mpr ?_
  intro i j hi hj hij
  rwa [h.idxOf_getElem, h.idxOf_getElem]

theorem pairwise_byName (hdistinct : (flows.map Flow.id).Nodup) :
    (byName flows).Pairwise (Precedes (flows.map Flow.id)) := by
  have hcreated := List.pairwise_map.mp (pairwise_idxOf hdistinct)
  refine (pairwise_mergeSort_tied name_le_trans name_le_total hcreated).imp ?_
  rintro a b ⟨hle, htied⟩
  rw [decide_eq_true_eq] at hle
  rcases hle.lt_or_eq with hlt | heq
  · exact Or.inl hlt
  · exact Or.inr ⟨heq, htied (decide_eq_true heq.ge)⟩

/-! ## Listings -/

/-- Of every store that cuts its pages out of one list a listing asks for one page after the other
and for none behind the last one, and it returns the whole list, in its order, if all of it can be
read.  So it does of a store in memory in which the names of the flows are in order.  What has been
saved there and archived, under names that are no moments, is listed by name, and flows of one name in
the order of their creation; the active flows are listed as they stand among all. -/
theorem listings (library : Library) :
    (∀ (size : Nat) (records : List Json) (t : Transcript) (result : Except StoreError (List Flow)),
      0 < size → records.length ≤ size * (maxPages - 1) →
      Program.Leads library.list t result → Cut library none size records t →
      (∃ m ≤ pagesOf size records.length,
        t = (List.range m).map (turning library none size records)) ∧
      ∀ flows : List Flow, records.map Flow.ofRecord? = flows.map some → result = .ok flows) ∧
    (∀ (store : MemoryStore) (flows : List Flow) (clock : Clock) (n : Nat),
      Store.Sortable (Store.sortKeys "+name") (store.records library.collection) →
      (store.select library.collection none (some "+name")).map Flow.ofRecord? =
        flows.map some →
      Numbered 200 flows →
      Store.InOrder (Store.sortKeys "+name")
        (store.select library.collection none (some "+name")) ∧
      library.list.runWith (withClock clock MemoryStore.answer) (n, store) =
        (.ok flows, (n, store))) ∧
    ∀ (ids : List String) (store : MemoryStore) (clock : Clock) (n : Nat),
      library.Filled ids store → Numbered 200 (library.flowsIn store) →
      (library.flowsIn store).map Flow.id = ids ∧
      ∃ listed : List Flow, listed.Perm (library.flowsIn store) ∧
        listed.Pairwise (Precedes ids) ∧
        library.list.runWith (withClock clock MemoryStore.answer) (n, store) =
          (.ok listed, (n, store)) ∧
        library.listActive.runWith (withClock clock MemoryStore.answer) (n, store) =
          (.ok (listed.filter Flow.isActive), (n, store)) := by
  refine ⟨?_, ?_, ?_⟩
  · intro size records t result hsize hnumbered hleads hcut
    have hread : ([] : List Flow).length = min (0 * size) records.length := by simp
    obtain ⟨m, hm, ht, hall⟩ := leads_listFrom hsize hnumbered (by decide)
      (Nat.le_add_right _ _) hread hleads hcut
    refine ⟨⟨m, ?_, ?_⟩, ?_⟩
    · rw [pagesOf] at hm ⊢
      omega
    · rw [ht, List.range_eq_range']
    · intro flows hflows
      exact hall flows hflows (by simp)
  · intro store flows clock n hsortable hread hnumbered
    refine ⟨?_, runWith_list clock n hread hnumbered⟩
    refine store.sorting.inOrder ?_
    show Store.Sortable _ ((store.records library.collection).filter fun _ => true)
    rwa [List.filter_true]
  · intro ids store clock n hfilled hnumbered
    obtain ⟨flows, hholds, rfl, hnames⟩ := hfilled.holds
    rw [hholds.flowsIn_eq] at hnumbered ⊢
    obtain ⟨hlist, hactive⟩ := hholds.listed hnames hnumbered clock n
    exact ⟨rfl, byName flows, byName_perm flows, pairwise_byName hholds.distinct, hlist, hactive⟩

def stocks : Flow := { id := "f2", name := "Stock", status := .active }

/-- A library in which both are saved, the one with the smaller name last. -/
def ofStocks : MemoryStore :=
  ((save {} (orders none)).runWith MemoryStore.answer
    ((save {} stocks).runWith MemoryStore.answer {}).2).2

theorem filled_ofStocks : Filled {} ["f2", "f1"] ofStocks := by
  have htidy : ∀ flow ∈ [stocks, orders none], flow.canvas.Tidy := by
    simp only [List.forall_mem_cons]
    exact ⟨List.forall_mem_nil _, List.forall_mem_nil _, List.forall_mem_nil _⟩
  have hname : ∀ flow ∈ [stocks, orders none], Timestamp.parse? flow.name = none := by
    decide +kernel
  have hempty : Filled {} [] {} := .empty rfl
  have hfirst : (save {} stocks).runWith MemoryStore.answer {} =
      (.ok { stocks with version := 1 }, _) := rfl
  have hsecond : (save {} (orders none)).runWith MemoryStore.answer
      ((save {} stocks).runWith MemoryStore.answer {}).2 =
        (.ok { orders none with version := 1 }, ofStocks) := rfl
  have hone : Filled {} ["f2"] ((save {} stocks).runWith MemoryStore.answer {}).2 :=
    hempty.saved (htidy _ (.head _)) (hname _ (.head _)) hfirst
  exact hone.saved (htidy _ (.tail _ (.head _))) (hname _ (.tail _ (.head _))) hsecond

def pagesOfStocks : Transcript :=
  (List.range 2).map (turning {} none 1 ([orders none, stocks].map Flow.stored))

theorem leads_pagesOfStocks :
    Program.Leads (list {}) pagesOfStocks (.ok [orders none, stocks]) := by
  have hexact : ∀ flow ∈ [orders none, stocks], flow.Exact := by
    simp only [List.forall_mem_cons]
    exact ⟨⟨List.forall_mem_nil _, by decide⟩, ⟨List.forall_mem_nil _, by decide⟩,
      List.forall_mem_nil _⟩
  have hread : ∀ flow ∈ [orders none, stocks],
      Json.readRecords Flow.ofRecord? "flows" [flow.stored] = .ok [flow] := by
    intro flow hflow
    refine Json.readRecords_of_map ?_ "flows"
    rw [List.map_singleton, Flow.ofRecord?_stored (hexact flow hflow)]
    rfl
  rw [list, show maxPages = 4294967294 + 1 + 1 from rfl, listFrom]
  refine Program.leads_perform_bind.mpr ⟨_, _, rfl, ?_⟩
  have hfirst := hread _ (.head _)
  have hsecond := hread _ (.tail _ (.head _))
  simp only [List.map_cons, List.map_nil, Nat.zero_mul, List.drop_zero, List.take_succ_cons,
    List.take_zero, hfirst]
  rw [if_neg (by decide), listFrom]
  refine Program.leads_perform_bind.mpr ⟨_, _, rfl, ?_⟩
  simp only [Nat.one_mul, List.drop_succ_cons, List.drop_zero, List.take_succ_cons, List.take_nil,
    hsecond]
  rw [if_pos (by decide)]
  exact .done _

theorem listings_ofStocks :
    Program.Leads (list {}) pagesOfStocks (.ok [orders none, stocks]) ∧
      Cut {} none 1 ([orders none, stocks].map Flow.stored) pagesOfStocks ∧
      (∃ m ≤ pagesOf 1 2, pagesOfStocks = (List.range m).map
        (turning {} none 1 ([orders none, stocks].map Flow.stored))) ∧
      Store.Sortable (Store.sortKeys "+name") (ofStocks.records "flows") ∧
      (∃ flows : List Flow, flows.map Flow.id = ["f1", "f2"] ∧
        (list {}).runWith (withClock (fun _ => ⟨0, 0⟩) MemoryStore.answer) (0, ofStocks) =
          (.ok flows, (0, ofStocks))) ∧
      Filled {} ["f2", "f1"] ofStocks ∧ Numbered 200 (flowsIn {} ofStocks) ∧
      ∃ listed : List Flow, listed.Perm (flowsIn {} ofStocks) ∧
        listed.Pairwise (Precedes ["f2", "f1"]) ∧
        (list {}).runWith (withClock (fun _ => ⟨0, 0⟩) MemoryStore.answer) (0, ofStocks) =
          (.ok listed, (0, ofStocks)) := by
  have hcut : Cut {} none 1 ([orders none, stocks].map Flow.stored) pagesOfStocks :=
    cut_turning (by decide)
  obtain ⟨hany, hstored, hmemory⟩ := listings {}
  obtain ⟨hpages, -⟩ := hany 1 _ _ _ (by decide) (by decide) leads_pagesOfStocks hcut
  have hnumbered : Numbered 200 (flowsIn {} ofStocks) := by
    obtain ⟨flows, hholds, hids, -⟩ := filled_ofStocks.holds
    have hlength := congrArg List.length hids
    rw [List.length_map] at hlength
    rw [hholds.flowsIn_eq, Numbered, hlength]
    decide
  obtain ⟨-, listed, hperm, hordered, hlist, -⟩ :=
    hmemory _ _ (fun _ => ⟨0, 0⟩) 0 filled_ofStocks hnumbered
  have hsortable : Store.Sortable (Store.sortKeys "+name") (ofStocks.records "flows") :=
    MemoryStore.sortable_of_orderly (by decide +kernel)
  have hselect : ofStocks.select "flows" none (some "+name") =
      [{ orders none with version := 1 }, { stocks with version := 1 }].map Flow.stored := rfl
  have hread : (ofStocks.select "flows" none (some "+name")).map Flow.ofRecord? =
      [{ orders none with version := 1 }, { stocks with version := 1 }].map some := by
    rw [hselect]
    refine ofRecord?_map_stored ?_
    simp only [List.forall_mem_cons]
    exact ⟨⟨List.forall_mem_nil _, by decide⟩, ⟨List.forall_mem_nil _, by decide⟩,
      List.forall_mem_nil _⟩
  have hlisted := (hstored ofStocks _ (fun _ => ⟨0, 0⟩) 0 hsortable hread
    (Nat.le_of_ble_eq_true rfl)).2
  exact ⟨leads_pagesOfStocks, hcut, hpages, hsortable, ⟨_, rfl, hlisted⟩, filled_ofStocks, hnumbered,
    listed, hperm, hordered, hlist⟩

end Library

end FlowEngine
