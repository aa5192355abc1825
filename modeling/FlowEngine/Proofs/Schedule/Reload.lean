import FlowEngine.Proofs.Library.Listing
import FlowEngine.Proofs.Schedule.Timetable
import FlowEngine.Schedule.Pattern
import Mathlib.Algebra.GroupWithZero.Nat
/-!
# `FlowEngine.Proofs.Schedule.Reload` — the jobs that are held after a reload

Flows are saved and archived, jobs fire, and from time to time the active flows are loaded anew.
After a reload no start that the active flows ask for is without its job.  If no two of them have one
key, now or at any reload before, there are no other jobs, and the timetable counts them right
(`Operated.reload_jobs`).

Keys are not apart by themselves.  A key is the identifier of a flow and that of a node with a colon
between them, and identifiers may hold colons.  Where two entries have one key the count is short by
one, and from the next reload on there is a job too many for good (`not_exact_collided`).
-/

namespace FlowEngine

namespace Schedule

variable {reader : Reader} {library : Library} {clock : Clock} {n : Nat} {store : MemoryStore} {table : Timetable}
  {seen : List (List Flow)}

/-- The starts that the active flows ask for, as far as their expressions can be read. -/
def wanted (reader : Reader) (flows : List Flow) : List Entry :=
  ((flows.filter Flow.isActive).flatMap entries).filter (Entry.isReadable reader)

/-- How many of these have the key of a later one. -/
def clashes (reader : Reader) (flows : List Flow) : Nat :=
  (wanted reader flows).length - ((wanted reader flows).map Entry.key).dedup.length

/-- The active flows can be listed. -/
def Listable (flows : List Flow) : Prop := Library.Listable (flows.filter Flow.isActive)

/-- What can become of a library and a timetable: flows are saved and archived, the other collections
change and time goes on, jobs fire, and the active flows are loaded anew.  `seen` are the flows that
there were at each reload, the latest first. -/
inductive Operated (reader : Reader) (library : Library) (clock : Clock) :
    List (List Flow) → Nat → MemoryStore → Timetable → Prop where
  | new {n : Nat} {store : MemoryStore} : store.records library.collection = [] →
      Operated reader library clock [] n store {}
  | save {seen : List (List Flow)} {n : Nat} {store : MemoryStore} {table : Timetable}
      {flow : Flow} : Operated reader library clock seen n store table → flow.canvas.Tidy →
      Operated reader library clock seen n ((library.save flow).runWith MemoryStore.answer store).2 table
  | archive {seen : List (List Flow)} {n : Nat} {store : MemoryStore} {table : Timetable}
      (id : String) : Operated reader library clock seen n store table →
      Operated reader library clock seen n ((library.archive id).runWith MemoryStore.answer store).2 table
  | elsewhere {seen : List (List Flow)} {n n' : Nat} {store store' : MemoryStore}
      {table : Timetable} : Operated reader library clock seen n store table →
      store'.records library.collection = store.records library.collection →
      Operated reader library clock seen n' store' table
  | fire {seen : List (List Flow)} {n : Nat} {store : MemoryStore} {table : Timetable}
      (moment : Timestamp) : Operated reader library clock seen n store table →
      Operated reader library clock seen n store (table.fire moment).2
  | reload {seen : List (List Flow)} {n n' : Nat} {store store' : MemoryStore} {table : Timetable}
      {result : Except StoreError Timetable} : Operated reader library clock seen n store table →
      (reload reader library table).runWith (withClock clock MemoryStore.answer) (n, store) =
        (result, (n', store')) →
      Operated reader library clock (library.flowsIn store :: seen) n' store'
        (result.toOption.getD table)

/-! ## The flows at a reload -/

/-- A reload loads the active flows in the order in which they are listed. -/
theorem runWith_reload (reader : Reader) {flows : List Flow} (h : library.Holds store flows)
    (hlistable : Listable flows) (table : Timetable) :
    ∃ listed : List Flow, listed.Perm (flows.filter Flow.isActive) ∧
      (reload reader library table).runWith (withClock clock MemoryStore.answer) (n, store) =
        (.ok (table.load reader listed (clock n)), (n + 1, store)) := by
  obtain ⟨listed, hperm, -, hlisted⟩ := h.listActive hlistable.numbered clock n
  refine ⟨listed, hperm, ?_⟩
  rw [reload, Program.runWith_bind, hlisted]
  rfl

theorem runWith_reload_store (reader : Reader) (library : Library) (table : Timetable) (clock : Clock) (n : Nat)
    (store : MemoryStore) :
    ((reload reader library table).runWith (withClock clock MemoryStore.answer) (n, store)).2.2 =
      store := by
  have hkept := library.runWith_listFrom_snd clock n store (some "status = \"active\"")
    Library.maxPages 1 []
  rw [← Library.listActive] at hkept
  rw [reload, Program.runWith_bind, hkept]
  cases (library.listActive.runWith (withClock clock MemoryStore.answer) (n, store)).1 <;> rfl

theorem Operated.built (h : Operated reader library clock seen n store table) : library.Built store := by
  induction h with
  | new hrecords => exact .empty hrecords
  | save _ hflow ih => exact .save ih hflow
  | archive id _ ih => exact .archive id ih
  | elsewhere _ hrecords ih => exact .elsewhere ih hrecords
  | fire _ _ ih => exact ih
  | @reload seen n n' store store' table result _ hreload ih =>
      have hkept := runWith_reload_store reader library table clock n store
      rw [hreload] at hkept
      obtain rfl : store' = store := hkept
      exact ih

/-! ## The jobs after a reload -/

/-- The entries of the jobs held: those of the latest load are what its flows asked for, and those
left over are of earlier loads, as many of each as had the key of a later one. -/
structure Told (reader : Reader) (seen : List (List Flow)) (left latest : List Entry) : Prop where
  latest : latest.Perm ((seen.head?.map (wanted reader)).getD [])
  count : left.length = (seen.tail.map (clashes reader)).sum
  source : ∀ entry ∈ left, ∃ flows ∈ seen.tail, entry ∈ wanted reader flows

/-- What is overtaken is left over. -/
theorem Told.reload {left latest entries : List Entry} {flows : List Flow}
    (h : Told reader seen left latest) (hentries : entries.Perm (wanted reader flows)) :
    Told reader (flows :: seen) (left ++ overtaken Entry.key latest) entries where
  latest := hentries
  count := by
    have hcount : (overtaken Entry.key latest).length + (latest.map Entry.key).dedup.length =
        latest.length := length_overtaken_add latest
    rw [List.length_append, h.count, List.tail_cons]
    cases seen with
    | nil =>
        obtain rfl := List.Perm.eq_nil h.latest
        rfl
    | cons before earlier =>
        have hkeys := (h.latest.map Entry.key).dedup.length_eq
        have hlength := h.latest.length_eq
        simp only [List.head?_cons, Option.map_some, Option.getD_some] at hkeys hlength
        rw [List.tail_cons, List.map_cons, List.sum_cons, clashes]
        omega
  source := by
    intro entry hentry
    rw [List.tail_cons]
    rcases List.mem_append.mp hentry with hleft | hovertaken
    · obtain ⟨before, hbefore, hmem⟩ := h.source entry hleft
      exact ⟨before, List.mem_of_mem_tail hbefore, hmem⟩
    · have hmem := h.latest.mem_iff.mp ((overtaken_sublist latest).mem hovertaken)
      cases seen with
      | nil => exact absurd hmem List.not_mem_nil
      | cons before earlier => exact ⟨before, List.mem_cons_self, hmem⟩

/-- The jobs that a timetable holds are accounted for by the flows that there were at the reloads. -/
theorem Operated.told (h : Operated reader library clock seen n store table)
    (hlistable : ∀ flows ∈ seen, Listable flows) : ∃ left latest : List Job,
      table.Loaded left latest ∧ Told reader seen (left.map Job.entry) (latest.map Job.entry) := by
  induction h with
  | new _ => exact ⟨[], [], .new, .refl _, rfl, List.forall_mem_nil _⟩
  | save _ _ ih => exact ih hlistable
  | archive _ _ ih => exact ih hlistable
  | elsewhere _ _ ih => exact ih hlistable
  | fire moment _ ih =>
      obtain ⟨left, latest, hloaded, htold⟩ := ih hlistable
      obtain ⟨left', latest', hleft, hlatest, hfired⟩ := hloaded.fire moment
      refine ⟨left', latest', hfired, ?_⟩
      rw [hleft, hlatest]
      exact htold
  | @reload seen n n' store store' table result hbefore hreload ih =>
      obtain ⟨hnow, hearlier⟩ := List.forall_mem_cons.mp hlistable
      obtain ⟨left, latest, hloaded, htold⟩ := ih hearlier
      obtain ⟨flows, hholds⟩ := hbefore.built.holds
      rw [hholds.flowsIn_eq] at hnow ⊢
      obtain ⟨listed, hperm, hrun⟩ := runWith_reload reader hholds hnow table
      rw [hrun] at hreload
      obtain ⟨rfl, -⟩ := Prod.mk.inj hreload
      obtain ⟨jobs, hjobs, hloaded'⟩ := hloaded.load reader listed (clock n)
      refine ⟨_, jobs, hloaded', ?_⟩
      have hwanted : (jobs.map Job.entry).Perm (wanted reader flows) := by
        rw [hjobs]
        exact (hperm.flatMap_right entries).filter (Entry.isReadable reader)
      have hovertaken : (overtaken Job.key latest).map Job.entry =
          overtaken Entry.key (latest.map Job.entry) := overtaken_map Job.entry latest
      rw [List.map_append, hovertaken]
      exact htold.reload hwanted

/-- A reload succeeds, and the jobs held after it are those that the active flows ask for and those
that are left over from the reloads before. -/
theorem Operated.reload_accounted (h : Operated reader library clock seen n store table)
    (hlistable : ∀ flows ∈ library.flowsIn store :: seen, Listable flows) :
    ∃ table', (Schedule.reload reader library table).runWith (withClock clock MemoryStore.answer)
        (n, store) = (.ok table', (n + 1, store)) ∧
      (∃ left : List Entry,
        (table'.jobs.map Job.entry).Perm (left ++ wanted reader (library.flowsIn store)) ∧
        left.length = (seen.map (clashes reader)).sum ∧
        ∀ entry ∈ left, ∃ flows ∈ seen, entry ∈ wanted reader flows) ∧
      table'.size = ((wanted reader (library.flowsIn store)).map Entry.key).dedup.length := by
  obtain ⟨flows, hholds⟩ := h.built.holds
  have hnow : Listable flows := by
    rw [← hholds.flowsIn_eq]
    exact hlistable _ List.mem_cons_self
  obtain ⟨listed, -, hrun⟩ := runWith_reload reader hholds hnow table
  obtain ⟨left, latest, hloaded, htold⟩ := (h.reload hrun).told hlistable
  have hloaded' : (table.load reader listed (clock n)).Loaded left latest := hloaded
  have hjobs : ((table.load reader listed (clock n)).jobs.map Job.entry).Perm
      (left.map Job.entry ++ wanted reader (library.flowsIn store)) := by
    rw [hloaded'.jobs, List.map_append]
    exact htold.latest.append_left _
  have hkeys : (latest.map Job.key).Perm ((wanted reader (library.flowsIn store)).map Entry.key) := by
    have hperm := htold.latest.map Entry.key
    rwa [List.map_map] at hperm
  exact ⟨_, hrun, ⟨left.map Job.entry, hjobs, htold.count, htold.source⟩,
    hloaded'.size.trans hkeys.dedup.length_eq⟩

/-- A reload succeeds, and after it each start that the active flows ask for has its job.  The other
jobs are left over from earlier reloads, as many from each as had the key of a later one; and as many
jobs are counted as there are keys.

If no two entries had one key, now or at any reload before, the jobs held are those that the active
flows ask for, and the timetable counts them right. -/
theorem Operated.reload_jobs (h : Operated reader library clock seen n store table)
    (hlistable : ∀ flows ∈ library.flowsIn store :: seen, Listable flows) :
    ∃ table', (Schedule.reload reader library table).runWith (withClock clock MemoryStore.answer)
        (n, store) = (.ok table', (n + 1, store)) ∧
      (∃ left : List Entry,
        (table'.jobs.map Job.entry).Perm (left ++ wanted reader (library.flowsIn store)) ∧
        left.length = (seen.map (clashes reader)).sum ∧
        ∀ entry ∈ left, ∃ flows ∈ seen, entry ∈ wanted reader flows) ∧
      table'.size = ((wanted reader (library.flowsIn store)).map Entry.key).dedup.length ∧
      ((∀ flows ∈ library.flowsIn store :: seen, ((wanted reader flows).map Entry.key).Nodup) →
        (table'.jobs.map Job.entry).Perm (wanted reader (library.flowsIn store)) ∧
        table'.size = (wanted reader (library.flowsIn store)).length) := by
  obtain ⟨table', hrun, ⟨left, hjobs, hcount, hsource⟩, hsize⟩ := h.reload_accounted hlistable
  refine ⟨table', hrun, ⟨left, hjobs, hcount, hsource⟩, hsize, ?_⟩
  intro hapart
  obtain ⟨hnow, hbefore⟩ := List.forall_mem_cons.mp hapart
  have hnone : ∀ flows ∈ seen, clashes reader flows = 0 := by
    intro flows hflows
    rw [clashes, (hbefore flows hflows).dedup, List.length_map, Nat.sub_self]
  have hleft : left = [] := by
    refine List.length_eq_zero_iff.mp (hcount.trans ?_)
    rw [List.map_congr_left hnone]
    simp
  rw [hleft, List.nil_append] at hjobs
  refine ⟨hjobs, hsize.trans ?_⟩
  rw [hnow.dedup, List.length_map]

/-- An active flow with triggers, each a node with its expression. -/
def timed (id : String) (triggers : List (String × String)) : Flow :=
  { id, name := id, status := .active,
    canvas := { nodes := triggers.map fun (node, expression) =>
      ⟨node, "trigger.cron", [("cron", .string expression)]⟩ } }

theorem tidy_timed (id : String) (triggers : List (String × String)) :
    (timed id triggers).canvas.Tidy := by
  intro node hnode
  obtain ⟨trigger, -, rfl⟩ := List.mem_map.mp hnode
  exact ⟨List.pairwise_singleton _ _, trivial, trivial⟩

def twoSaved (first second : Flow) : MemoryStore :=
  ((Library.save {} second).runWith MemoryStore.answer
    ((Library.save {} first).runWith MemoryStore.answer {}).2).2

theorem operated_twoSaved {first second : Flow} (hfirst : first.canvas.Tidy)
    (hsecond : second.canvas.Tidy) (clock : Clock) :
    Operated .plain {} clock [] 0 (twoSaved first second) {} :=
  .save (.save (.new rfl) hfirst) hsecond

def still : Clock := fun _ => ⟨0, 0⟩

/-- Orders are due every minute, and at a time that cannot be read. -/
def orders : Flow := timed "orders" [("t", "0 * * * * *"), ("u", "whenever")]

def stock : Flow := timed "stock" [("t", "0 * * * * *")]

def ordersArchived : MemoryStore :=
  ((Library.archive {} "orders").runWith MemoryStore.answer (twoSaved orders stock)).2

/-- Both flows are loaded, the orders are archived, and the flows are loaded again. -/
theorem reload_jobs_archived : ∃ seen table table',
    Operated .plain {} still seen 1 ordersArchived table ∧
    (∀ flows ∈ Library.flowsIn {} ordersArchived :: seen, Listable flows) ∧
    (Schedule.reload .plain {} table).runWith (withClock still MemoryStore.answer) (1, ordersArchived) =
      (.ok table', (2, ordersArchived)) ∧
    seen.map (fun flows => (wanted .plain flows).map Entry.key) = [["orders:t", "stock:t"]] ∧
    table'.jobs.map Job.key = ["stock:t"] ∧ table'.size = 1 := by
  have horders : orders.canvas.Tidy := tidy_timed _ _
  have hstock : stock.canvas.Tidy := tidy_timed _ _
  have hsaved := operated_twoSaved horders hstock still
  have hlistable : ∀ flows ∈ [Library.flowsIn {} (twoSaved orders stock)], Listable flows := by
    refine List.forall_mem_singleton.mpr ?_
    exact Library.Listable.of_unread (Nat.le_of_ble_eq_true rfl) (by decide +kernel)
  obtain ⟨table, hrun, -, -⟩ := hsaved.reload_accounted hlistable
  have hafter : Operated .plain {} still _ 1 ordersArchived table :=
    (hsaved.reload hrun).archive "orders"
  have hlistable' : Listable (Library.flowsIn {} ordersArchived) := by
    exact Library.Listable.of_unread (Nat.le_of_ble_eq_true rfl) (by decide +kernel)
  have hkeys : (wanted .plain (Library.flowsIn {} (twoSaved orders stock))).map Entry.key =
      ["orders:t", "stock:t"] := by decide +kernel
  have hkeys' : (wanted .plain (Library.flowsIn {} ordersArchived)).map Entry.key = ["stock:t"] := by
    decide +kernel
  have hapart : ∀ flows ∈ [Library.flowsIn {} ordersArchived,
      Library.flowsIn {} (twoSaved orders stock)], ((wanted .plain flows).map Entry.key).Nodup := by
    refine List.forall_mem_cons.mpr ⟨?_, List.forall_mem_singleton.mpr ?_⟩
    · rw [hkeys']
      decide
    · rw [hkeys]
      decide
  have hall := List.forall_mem_cons.mpr ⟨hlistable', hlistable⟩
  obtain ⟨table', hrun', -, -, hexact⟩ := Operated.reload_jobs hafter hall
  obtain ⟨hjobs, hsize⟩ := hexact hapart
  refine ⟨_, table, table', hafter, hall, hrun', ?_, ?_, ?_⟩
  · exact congrArg (fun keys => [keys]) hkeys
  · have hperm := hjobs.map Entry.key
    rw [hkeys', List.map_map] at hperm
    exact List.perm_singleton.mp hperm
  · have hlength := congrArg List.length hkeys'
    rw [List.length_map] at hlength
    exact hsize.trans hlength

/-- The node `b:c` of the flow `a` and the node `c` of the flow `a:b` have one key: only one of the
two jobs is counted, and the other one is there twice after the next reload. -/
theorem not_exact_collided : ∃ store table table',
    Operated .plain {} still [] 0 store {} ∧
    (Schedule.reload .plain {} {}).runWith (withClock still MemoryStore.answer) (0, store) =
      (.ok table, (1, store)) ∧
    (Schedule.reload .plain {} table).runWith (withClock still MemoryStore.answer) (1, store) =
      (.ok table', (2, store)) ∧
    (wanted .plain (Library.flowsIn {} store)).map (fun entry => (entry.flowId, entry.nodeId)) =
      [("a", "b:c"), ("a:b", "c")] ∧
    table.size = 1 ∧ table'.jobs.length = 3 := by
  have hsaved := operated_twoSaved (tidy_timed "a" [("b:c", "0 * * * * *")])
    (tidy_timed "a:b" [("c", "0 * * * * *")]) still
  generalize hstore : twoSaved (timed "a" [("b:c", "0 * * * * *")])
    (timed "a:b" [("c", "0 * * * * *")]) = store at hsaved
  have hlistable : Listable (Library.flowsIn {} store) := by
    rw [← hstore]
    exact Library.Listable.of_unread (Nat.le_of_ble_eq_true rfl) (by decide +kernel)
  have hwanted : (wanted .plain (Library.flowsIn {} store)).map
      (fun entry => (entry.flowId, entry.nodeId)) = [("a", "b:c"), ("a:b", "c")] := by
    rw [← hstore]
    decide +kernel
  have hkeys : (wanted .plain (Library.flowsIn {} store)).map Entry.key = ["a:b:c", "a:b:c"] := by
    rw [← hstore]
    decide +kernel
  have hcount : (wanted .plain (Library.flowsIn {} store)).length = 2 := by
    simpa using congrArg List.length hkeys
  have hclashes : clashes .plain (Library.flowsIn {} store) = 1 := by
    rw [clashes, hkeys, hcount]
    decide
  obtain ⟨table, hrun, -, hsize⟩ :=
    hsaved.reload_accounted (List.forall_mem_singleton.mpr hlistable)
  obtain ⟨table', hrun', ⟨left, hjobs, hleft, -⟩, -⟩ := (hsaved.reload hrun).reload_accounted
    (List.forall_mem_cons.mpr ⟨hlistable, List.forall_mem_singleton.mpr hlistable⟩)
  refine ⟨store, table, table', hsaved, hrun, hrun', hwanted, ?_, ?_⟩
  · rw [hsize, hkeys]
    decide
  · have hlength := hjobs.length_eq
    rw [List.length_map, List.length_append, hleft, hcount] at hlength
    rw [hlength]
    simp [hclashes]

end Schedule

end FlowEngine
