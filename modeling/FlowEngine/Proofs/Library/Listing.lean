import FlowEngine.Proofs.Library.Saved
import FlowEngine.Proofs.Store.Values
import Mathlib.Data.List.Basic
/-!
# `FlowEngine.Proofs.Library.Listing` — flows listed page by page

A listing asks for one page after another until it has as many flows as the store says there are.
Of a store that cuts its pages out of one list, all of them of one size, it returns that list
(`runWith_listFrom`); how large the pages are is the business of the store.  Pages are numbered in
thirty-two bits, so this is said of lists that have no more pages than there are numbers for.

A library in memory lists what it holds: all flows, or the active ones.
-/

namespace FlowEngine

theorem Json.readRecords_of_map {α : Type} {read : Json → Option α} {records : List Json}
    {values : List α} (h : records.map read = values.map some) (collection : String) :
    readRecords read collection records = .ok values := by
  induction records generalizing values with
  | nil =>
      obtain rfl := List.map_eq_nil_iff.mp h.symm
      rfl
  | cons record rest ih =>
      obtain ⟨value, values, rfl⟩ := List.exists_cons_of_ne_nil
        (List.ne_nil_of_length_eq_add_one (by simpa using (congrArg List.length h).symm))
      rw [List.map_cons, List.map_cons] at h
      obtain ⟨hvalue, hrest⟩ := List.cons.inj h
      simp only [readRecords, readRecord, hvalue, ih hrest]

theorem Json.map_of_readRecords {α : Type} {read : Json → Option α} {collection : String}
    {records : List Json} {values : List α}
    (h : readRecords read collection records = .ok values) : records.map read = values.map some := by
  induction records generalizing values with
  | nil =>
      obtain rfl := Except.ok.inj h
      rfl
  | cons record rest ih =>
      unfold readRecords readRecord at h
      cases hvalue : read record with
      | none =>
          simp only [hvalue] at h
          cases h
      | some value =>
          cases hrest : readRecords read collection rest with
          | error e =>
              simp only [hvalue, hrest] at h
              cases h
          | ok later =>
              simp only [hvalue, hrest] at h
              obtain rfl := Except.ok.inj h
              rw [List.map_cons, List.map_cons, hvalue, ih hrest]

namespace Library

variable {library : Library} {flows read : List Flow} {records : List Json}

/-- The pages of this size can be told apart by their numbers; page zero is not among them. -/
def Numbered (size : Nat) (flows : List Flow) : Prop := flows.length ≤ size * (maxPages - 1)

/-- The flows can be listed by name: there are numbers for all pages, and the names are in order.
Names go round in a circle only where some are moments and another stands between them. -/
structure Listable (flows : List Flow) : Prop where
  numbered : Numbered 200 flows
  named : OrdersOn (· ∈ flows.map Flow.name) Store.orderStrings

theorem Listable.sortable (h : Listable flows) :
    Store.Sortable (Store.sortKeys "+name") (flows.map Flow.stored) := by
  have hnames : OrdersOn (· ∈ flows) fun a b => Store.orderStrings a.name b.name :=
    h.named.comap fun _ hflow => List.mem_map_of_mem hflow
  have hkeys : Store.sortKeys "+name" = [⟨"name", false⟩] := by decide
  rw [hkeys]
  refine hnames.of_image (f := Flow.stored) (fun _ hx => List.mem_map.mp hx) ?_
  intro a b _ _
  exact Store.orderBy_of_texts (a.get?_stored "name") (b.get?_stored "name")

theorem Listable.of_unread (hnumbered : Numbered 200 flows)
    (hname : ∀ flow ∈ flows, Timestamp.parse? flow.name = none) : Listable flows := by
  refine ⟨hnumbered, Store.ordersOn_strings_of_unread ?_⟩
  intro name hmem
  obtain ⟨flow, hflow, rfl⟩ := List.mem_map.mp hmem
  exact hname flow hflow

/-- The store answers with pages that it cuts out of the records, all of them of one size. -/
def Serves {σ : Type} (answer : (action : Action) → σ → action.Reply × σ) (s : σ)
    (library : Library) (filter : Option String) (size : Nat) (records : List Json) : Prop :=
  ∀ (page : UInt32) (k : Nat), page.toNat = k + 1 →
    answer (.list library.collection (pageQuery filter page)) s =
      (.ok ⟨(records.drop (k * size)).take size, records.length⟩, s)

/-- A listing that has come to some page goes on to the end of the list. -/
theorem runWith_listFrom {σ : Type} {answer : (action : Action) → σ → action.Reply × σ} {s : σ}
    {filter : Option String} {size : Nat} (hserves : Serves answer s library filter size records)
    (hsize : 0 < size) (hread : records.map Flow.ofRecord? = flows.map some)
    (hnumbered : Numbered size flows) (fuel k : Nat) (page : UInt32) (hpage : page.toNat = k + 1)
    (hfuel : maxPages ≤ fuel + k) :
    (library.listFrom filter fuel page (flows.take (k * size))).runWith answer s =
      (.ok flows, s) := by
  have hlength : records.length = flows.length := by
    simpa using congrArg List.length hread
  induction fuel generalizing k page with
  | zero =>
      have hlt := page.toNat_lt
      unfold maxPages at hfuel
      omega
  | succ fuel ih =>
      have hchunk : ((records.drop (k * size)).take size).map Flow.ofRecord? =
          ((flows.drop (k * size)).take size).map some := by
        rw [List.map_take, List.map_drop, hread, List.map_take, List.map_drop]
      have hflows := Json.readRecords_of_map hchunk library.collection
      have hgrown : flows.take (k * size) ++ (flows.drop (k * size)).take size =
          flows.take ((k + 1) * size) := by
        rw [Nat.add_one_mul, List.take_add]
      have hcall : (Program.list library.collection (pageQuery filter page)).runWith answer s =
          (.ok ⟨(records.drop (k * size)).take size, records.length⟩, s) := hserves page k hpage
      rw [listFrom, Program.runWith_bind, hcall]
      simp only [hflows, hgrown]
      split
      · next hlast =>
          have hall : flows.take ((k + 1) * size) = flows := by
            refine List.take_of_length_le ?_
            rcases Bool.or_eq_true_iff.mp hlast with hempty | hcounted
            · have hnone := List.length_eq_zero_iff.mpr (List.isEmpty_iff.mp hempty)
              rw [List.length_take, List.length_drop] at hnone
              rw [Nat.add_one_mul]
              omega
            · have hle := of_decide_eq_true hcounted
              rw [List.length_take] at hle
              omega
          rw [hall]
          rfl
      · next hmore =>
          have hbehind : (k + 1) * size < flows.length := by
            have hle := (Bool.or_eq_false_iff.mp (Bool.not_eq_true _ ▸ hmore)).2
            have hgt := of_decide_eq_false hle
            rw [List.length_take] at hgt
            omega
          have hnext : (page + 1).toNat = k + 1 + 1 := by
            have hlt : (k + 1) * size < (maxPages - 1) * size := by
              rw [Nat.mul_comm (maxPages - 1)]
              exact Nat.lt_of_lt_of_le hbehind hnumbered
            have hroom := Nat.lt_of_mul_lt_mul_right hlt
            rw [UInt32.toNat_add, hpage]
            unfold maxPages at hroom
            show (k + 1 + 1) % 4294967296 = k + 1 + 1
            omega
          exact ih (k + 1) (page + 1) hnext (by omega)

/-! ## Libraries in memory -/

def flowsIn (library : Library) (store : MemoryStore) : List Flow :=
  (store.records library.collection).filterMap Flow.ofRecord?

theorem Holds.flowsIn_eq {store : MemoryStore} (h : library.Holds store flows) :
    library.flowsIn store = flows := by
  rw [flowsIn, h.lists, List.filterMap_map]
  refine (List.filterMap_congr ?_).trans List.filterMap_some
  intro flow hflow
  exact Flow.ofRecord?_stored (h.exact flow hflow)

theorem runWith_listFrom_snd (library : Library) (clock : Clock) (n : Nat) (store : MemoryStore)
    (filter : Option String) (fuel : Nat) (page : UInt32) (read : List Flow) :
    ((library.listFrom filter fuel page read).runWith (withClock clock MemoryStore.answer)
      (n, store)).2 = (n, store) := by
  induction fuel generalizing page read with
  | zero => rfl
  | succ fuel ih =>
      have hcall : (Program.list library.collection (pageQuery filter page)).runWith
          (withClock clock MemoryStore.answer) (n, store) =
          (store.list library.collection (pageQuery filter page), (n, store)) := rfl
      rw [listFrom, Program.runWith_bind, hcall]
      cases store.list library.collection (pageQuery filter page) with
      | error e => rfl
      | ok found =>
          cases hflows : Json.readRecords Flow.ofRecord? library.collection found.items with
          | error e =>
              simp only [hflows]
              rfl
          | ok flows =>
              simp only [hflows]
              split
              · rfl
              · exact ih _ _

theorem isField_status : Condition.IsField "status" where
  start := ⟨'s', "tatus".toList, rfl, by decide, by decide, List.all_eq_true.mp (by decide)⟩
  named := rfl
  single := by decide

theorem FlowStatus.text_eq_active {status : FlowStatus} :
    (status.text == "active") = (status == .active) := by
  cases status <;> rfl

theorem condition_active : MemoryStore.condition (some "status = \"active\"") =
    .ok (some (.compare .eq (.path ["status"]) (.text "active"))) := by
  have hquery : "status" ++ " = \"" ++ "active" ++ "\"" = "status = \"active\"" := by decide
  have hvalue : '"' ∉ "active".toList := by decide
  rw [← hquery, MemoryStore.condition_equals isField_status hvalue]

/-- A page in memory is cut out of the records that are selected, sorted by name. -/
theorem list_pageQuery {store : MemoryStore} {filter : Option String}
    {condition : Option Condition.Expr} (h : MemoryStore.condition filter = .ok condition)
    {page : UInt32} {k : Nat} (hpage : page.toNat = k + 1) :
    store.list library.collection (pageQuery filter page) =
      .ok ⟨((store.select library.collection condition (some "+name")).drop (k * 200)).take 200,
        (store.select library.collection condition (some "+name")).length⟩ := by
  have hstart : (max page.toNat 1 - 1) * 200 = k * 200 := by omega
  have hpageOf : ∀ items : List Json,
      MemoryStore.pageOf pageSize page items = (items.drop (k * 200)).take 200 := by
    intro items
    rw [MemoryStore.pageOf, show max pageSize.toNat 1 = 200 from rfl, hstart]
  have hproject : ∀ items : List Json, items.map (MemoryStore.project none) = items :=
    fun items => List.map_id items
  simp only [MemoryStore.list, pageQuery, h, hpageOf, hproject]

/-- A store in memory serves the records that it selects, sorted by name. -/
theorem serves_memory {store : MemoryStore} {clock : Clock} {n : Nat} {filter : Option String}
    {condition : Option Condition.Expr} (h : MemoryStore.condition filter = .ok condition) :
    Serves (withClock clock MemoryStore.answer) (n, store) library filter 200
      (store.select library.collection condition (some "+name")) := by
  intro page k hpage
  exact congrArg (·, (n, store)) (list_pageQuery h hpage)

/-- The records of flows, put into another order, are the records of the flows in that order. -/
theorem exists_perm_of_records (hexact : ∀ flow ∈ flows, flow.Exact)
    (hperm : records.Perm (flows.map Flow.stored)) : ∃ listed : List Flow, listed.Perm flows ∧
      listed.map Flow.stored = records ∧ records.map Flow.ofRecord? = listed.map some := by
  have hread : ∀ flow ∈ flows, Flow.ofRecord? flow.stored = some flow :=
    fun flow hflow => Flow.ofRecord?_stored (hexact flow hflow)
  have hmem : ∀ record ∈ records, ∃ flow, Flow.ofRecord? record = some flow ∧
      flow.stored = record := by
    intro record hrecord
    obtain ⟨flow, hflow, rfl⟩ := List.mem_map.mp (hperm.mem_iff.mp hrecord)
    exact ⟨flow, hread flow hflow, rfl⟩
  refine ⟨records.filterMap Flow.ofRecord?, ?_, ?_⟩
  · refine (hperm.filterMap Flow.ofRecord?).trans (List.Perm.of_eq ?_)
    rw [List.filterMap_map]
    refine (List.filterMap_congr ?_).trans List.filterMap_some
    exact hread
  · clear hperm
    induction records with
    | nil => exact ⟨rfl, rfl⟩
    | cons record rest ih =>
        obtain ⟨⟨flow, hflow, hstored⟩, hrest⟩ := List.forall_mem_cons.mp hmem
        obtain ⟨hmap, hvalues⟩ := ih hrest
        rw [List.filterMap_cons_some hflow, List.map_cons, List.map_cons, List.map_cons, hstored,
          hflow, hmap, hvalues]
        exact ⟨rfl, rfl⟩

theorem Holds.select_active {store : MemoryStore} (h : library.Holds store flows) :
    store.select library.collection (some (.compare .eq (.path ["status"]) (.text "active")))
        none = (flows.filter Flow.isActive).map Flow.stored := by
  have hstatus : ∀ flow ∈ flows,
      (Flow.keeping.stored flow).get? "status" = some (.string flow.status.text) :=
    fun flow _ => flow.get?_stored "status"
  have hmatching := h.lists.filter_equals "active" hstatus
  simp only [FlowStatus.text_eq_active] at hmatching
  simp only [MemoryStore.select, Option.map_some, Option.getD_some, hmatching]
  rfl

theorem Holds.select_active_sorted {store : MemoryStore} (h : library.Holds store flows) :
    store.select library.collection (some (.compare .eq (.path ["status"]) (.text "active")))
        (some "+name") =
      store.sorting.sort (Store.sortKeys "+name") ((flows.filter Flow.isActive).map Flow.stored) :=
  congrArg (store.sorting.sort (Store.sortKeys "+name")) h.select_active

/-- The active flows are listed, in the order that the sort by name puts their records into. -/
theorem Holds.listActive {store : MemoryStore} (h : library.Holds store flows)
    (hnumbered : Numbered 200 (flows.filter Flow.isActive)) (clock : Clock) (n : Nat) :
    ∃ listed : List Flow, listed.Perm (flows.filter Flow.isActive) ∧
      listed.map Flow.stored =
        store.sorting.sort (Store.sortKeys "+name") ((flows.filter Flow.isActive).map Flow.stored) ∧
      library.listActive.runWith (withClock clock MemoryStore.answer) (n, store) =
        (.ok listed, (n, store)) := by
  have hexact : ∀ flow ∈ flows.filter Flow.isActive, flow.Exact :=
    fun flow hflow => h.exact flow ((List.mem_filter.mp hflow).1)
  obtain ⟨listed, hperm, hstored, hread⟩ :=
    exists_perm_of_records hexact (store.sorting.perm (Store.sortKeys "+name") _)
  refine ⟨listed, hperm, hstored, ?_⟩
  have hserves : Serves (withClock clock MemoryStore.answer) (n, store) library
      (some "status = \"active\"") 200
      (store.sorting.sort (Store.sortKeys "+name") ((flows.filter Flow.isActive).map Flow.stored)) := by
    rw [← h.select_active_sorted]
    exact serves_memory condition_active
  have hlisted : Numbered 200 listed := by
    rwa [Numbered, hperm.length_eq]
  have hwalk := runWith_listFrom hserves (by decide) hread hlisted maxPages 0 1 rfl
    (Nat.le_add_right _ _)
  rw [Nat.zero_mul, List.take_zero] at hwalk
  rw [Library.listActive]
  exact hwalk

end Library

end FlowEngine
