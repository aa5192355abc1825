import FlowEngine.Schedule.Timetable
import Mathlib.Data.List.Dedup
/-!
# `FlowEngine.Proofs.Schedule.Timetable` — what a load puts in and what it takes out

A timetable keeps its jobs, and knows the number of the last one under each key.  To load it is to
take out the jobs that it knows and to put in one for each entry that can be read.  `Loaded` says
which jobs there are then: those left over from earlier loads, and those of the latest one.

Of the latest jobs only the last under each key is known.  A job that another of the same load
overtakes is not known any more, is not taken out by the next load, and is left over from then on
(`Loaded.clear`).
-/

namespace FlowEngine

namespace Schedule

/-! ## The latest under each key -/

section Keys

variable {α : Type} (key : α → String)

/-- The items of a list behind which no other has their key. -/
def lastUnder : List α → List α
  | [] => []
  | a :: later => if key a ∈ later.map key then lastUnder later else a :: lastUnder later

/-- The items of a list behind which some other has their key. -/
def overtaken : List α → List α
  | [] => []
  | a :: later => if key a ∈ later.map key then a :: overtaken later else overtaken later

variable {key}

theorem lastUnder_cons_of_mem {a : α} {later : List α} (h : key a ∈ later.map key) :
    lastUnder key (a :: later) = lastUnder key later := if_pos h

theorem lastUnder_cons_of_not_mem {a : α} {later : List α} (h : key a ∉ later.map key) :
    lastUnder key (a :: later) = a :: lastUnder key later := if_neg h

theorem overtaken_cons_of_mem {a : α} {later : List α} (h : key a ∈ later.map key) :
    overtaken key (a :: later) = a :: overtaken key later := if_pos h

theorem overtaken_cons_of_not_mem {a : α} {later : List α} (h : key a ∉ later.map key) :
    overtaken key (a :: later) = overtaken key later := if_neg h

theorem lastUnder_sublist (items : List α) : (lastUnder key items).Sublist items := by
  induction items with
  | nil => exact .slnil
  | cons a later ih =>
      by_cases h : key a ∈ later.map key
      · rw [lastUnder_cons_of_mem h]
        exact ih.cons a
      · rw [lastUnder_cons_of_not_mem h]
        exact ih.cons_cons a

theorem overtaken_sublist (items : List α) : (overtaken key items).Sublist items := by
  induction items with
  | nil => exact .slnil
  | cons a later ih =>
      by_cases h : key a ∈ later.map key
      · rw [overtaken_cons_of_mem h]
        exact ih.cons_cons a
      · rw [overtaken_cons_of_not_mem h]
        exact ih.cons a

/-- One item is left for each key. -/
theorem map_lastUnder (items : List α) : (lastUnder key items).map key = (items.map key).dedup := by
  induction items with
  | nil => rfl
  | cons a later ih =>
      rw [List.map_cons]
      by_cases h : key a ∈ later.map key
      · rw [lastUnder_cons_of_mem h, List.dedup_cons_of_mem h, ih]
      · rw [lastUnder_cons_of_not_mem h, List.dedup_cons_of_notMem h, List.map_cons, ih]

theorem length_overtaken_add (items : List α) :
    (overtaken key items).length + (items.map key).dedup.length = items.length := by
  induction items with
  | nil => rfl
  | cons a later ih =>
      rw [List.map_cons, List.length_cons, ← ih]
      by_cases h : key a ∈ later.map key
      · rw [overtaken_cons_of_mem h, List.dedup_cons_of_mem h, List.length_cons, Nat.add_right_comm]
      · rw [overtaken_cons_of_not_mem h, List.dedup_cons_of_notMem h, List.length_cons, Nat.add_assoc]

/-- An item that is put behind the others takes its key from the one that had it. -/
theorem lastUnder_append (items : List α) (a : α) : lastUnder key (items ++ [a]) =
    (lastUnder key items).filter (fun b => key b != key a) ++ [a] := by
  induction items with
  | nil => rfl
  | cons b later ih =>
      have hkeys : key b ∈ (later ++ [a]).map key ↔ key b ∈ later.map key ∨ key b = key a := by
        rw [List.map_append, List.map_singleton, List.mem_append, List.mem_singleton]
      rw [List.cons_append]
      by_cases hlater : key b ∈ later.map key
      · rw [lastUnder_cons_of_mem (hkeys.mpr (Or.inl hlater)), lastUnder_cons_of_mem hlater, ih]
      rw [lastUnder_cons_of_not_mem hlater]
      by_cases ha : key b = key a
      · rw [lastUnder_cons_of_mem (hkeys.mpr (Or.inr ha)), ih, List.filter_cons_of_neg (by simp [ha])]
      · have hfree : key b ∉ (later ++ [a]).map key := fun h => (hkeys.mp h).elim hlater ha
        rw [lastUnder_cons_of_not_mem hfree, ih, List.filter_cons_of_pos (by simp [ha]),
          List.cons_append]

theorem lastUnder_map {β : Type} (f : β → α) (items : List β) :
    (lastUnder (key ∘ f) items).map f = lastUnder key (items.map f) := by
  induction items with
  | nil => rfl
  | cons b later ih =>
      rw [List.map_cons]
      by_cases h : (key ∘ f) b ∈ later.map (key ∘ f)
      · rw [lastUnder_cons_of_mem h, ih, lastUnder_cons_of_mem (by rwa [List.map_map])]
      · rw [lastUnder_cons_of_not_mem h, List.map_cons, ih,
          lastUnder_cons_of_not_mem (by rwa [List.map_map])]

theorem overtaken_map {β : Type} (f : β → α) (items : List β) :
    (overtaken (key ∘ f) items).map f = overtaken key (items.map f) := by
  induction items with
  | nil => rfl
  | cons b later ih =>
      rw [List.map_cons]
      by_cases h : (key ∘ f) b ∈ later.map (key ∘ f)
      · rw [overtaken_cons_of_mem h, List.map_cons, ih, overtaken_cons_of_mem (by rwa [List.map_map])]
      · rw [overtaken_cons_of_not_mem h, ih, overtaken_cons_of_not_mem (by rwa [List.map_map])]

/-- What is overtaken, told by numbers that tell the items apart. -/
theorem filter_not_lastUnder {number : α → Nat} {items : List α}
    (hnumbers : (items.map number).Nodup) :
    items.filter (fun a => decide (number a ∉ (lastUnder key items).map number)) =
      overtaken key items := by
  induction items with
  | nil => rfl
  | cons a later ih =>
      rw [List.map_cons, List.nodup_cons] at hnumbers
      obtain ⟨hfirst, hrest⟩ := hnumbers
      by_cases h : key a ∈ later.map key
      · have habsent : number a ∉ (lastUnder key later).map number := fun hmem =>
          hfirst (((lastUnder_sublist later).map number).mem hmem)
        rw [lastUnder_cons_of_mem h, overtaken_cons_of_mem h,
          List.filter_cons_of_pos (by simpa using habsent), ih hrest]
      · rw [lastUnder_cons_of_not_mem h, overtaken_cons_of_not_mem h,
          List.filter_cons_of_neg (by simp), ← ih hrest]
        refine List.filter_congr ?_
        intro b hb
        have hne : number b ≠ number a := fun heq => hfirst (heq ▸ List.mem_map_of_mem hb)
        simp [hne]

end Keys

/-! ## Jobs -/

def Job.key (job : Job) : String := job.entry.key

def Entry.isReadable (reader : Reader) (entry : Entry) : Bool :=
  (reader.read? entry.expression).isSome

namespace Timetable

variable {table : Timetable} {left latest : List Job}

/-- The jobs held are those left over from earlier loads and those of the latest one, and of these
the timetable knows the last under each key. -/
structure Loaded (table : Timetable) (left latest : List Job) : Prop where
  jobs : table.jobs = left ++ latest
  known : table.known = ((lastUnder Job.key latest).map fun job => (job.key, job.number)).reverse
  distinct : (table.jobs.map Job.number).Nodup
  made : ∀ job ∈ table.jobs, job.number < table.made

theorem Loaded.new : Loaded {} [] [] := ⟨rfl, rfl, List.nodup_nil, List.forall_mem_nil _⟩

theorem Loaded.size (h : Loaded table left latest) :
    table.size = (latest.map Job.key).dedup.length := by
  rw [Timetable.size, h.known, List.length_reverse, List.length_map, ← map_lastUnder,
    List.length_map]

/-- To clear a timetable is to take out the last job under each key; what was overtaken stays. -/
theorem Loaded.clear (h : Loaded table left latest) :
    Loaded table.clear (left ++ overtaken Job.key latest) [] := by
  have hdistinct := h.distinct
  rw [h.jobs, List.map_append, List.nodup_append] at hdistinct
  obtain ⟨-, hlatest, happart⟩ := hdistinct
  have hknown : ∀ number, (table.known.any fun pair => pair.2 == number) =
      decide (number ∈ (lastUnder Job.key latest).map Job.number) := by
    intro number
    rw [h.known, List.any_reverse, List.any_map, Bool.eq_iff_iff, decide_eq_true_iff,
      List.any_eq_true, List.mem_map]
    exact exists_congr fun job => and_congr_right fun _ => beq_iff_eq
  have hleft : left.filter (fun job => !(table.known.any fun pair => pair.2 == job.number)) =
      left := by
    refine List.filter_eq_self.mpr ?_
    intro job hjob
    rw [hknown, Bool.not_eq_true', decide_eq_false_iff_not]
    intro hmem
    have hnumber := ((lastUnder_sublist latest).map Job.number).mem hmem
    exact happart _ (List.mem_map_of_mem hjob) _ hnumber rfl
  have hjobs : table.clear.jobs = left ++ overtaken Job.key latest ++ [] := by
    rw [Timetable.clear, h.jobs, List.filter_append, hleft, List.append_nil]
    refine congrArg (left ++ ·) ?_
    rw [← filter_not_lastUnder hlatest]
    refine List.filter_congr ?_
    intro job _
    rw [hknown, decide_not]
  have hkept : table.clear.jobs.Sublist table.jobs := List.filter_sublist
  exact ⟨hjobs, rfl, (hkept.map Job.number).nodup h.distinct,
    fun job hjob => h.made job (hkept.mem hjob)⟩

theorem Loaded.add (h : Loaded table left latest) (reader : Reader) (moment : Timestamp)
    (entry : Entry) :
    ∃ jobs : List Job, jobs.map Job.entry = [entry].filter (Entry.isReadable reader) ∧
      Loaded (table.add reader moment entry) left (latest ++ jobs) := by
  unfold Timetable.add
  split
  · next hnone =>
      have hunreadable : entry.isReadable reader = false := by rw [Entry.isReadable, hnone]; rfl
      refine ⟨[], ?_, ?_⟩
      · rw [List.filter_cons_of_neg (by simp [hunreadable])]
        rfl
      · rw [List.append_nil]
        exact h
  · next recurs hsome =>
      have hreadable : entry.isReadable reader = true := by rw [Entry.isReadable, hsome]; rfl
      refine ⟨[⟨table.made, entry, recurs, recurs moment⟩], ?_, ?_, ?_, ?_, ?_⟩
      · rw [List.filter_cons_of_pos hreadable]
        rfl
      · rw [h.jobs, List.append_assoc]
      · rw [lastUnder_append, List.map_append, List.reverse_append, h.known, List.filter_reverse,
          List.filter_map]
        rfl
      · rw [List.map_append, List.map_singleton]
        refine List.nodup_append.mpr ⟨h.distinct, List.nodup_singleton _, ?_⟩
        intro number hnumber other hother
        obtain ⟨job, hjob, rfl⟩ := List.mem_map.mp hnumber
        obtain rfl := List.mem_singleton.mp hother
        exact Nat.ne_of_lt (h.made job hjob)
      · intro job hjob
        rcases List.mem_append.mp hjob with hold | hnew
        · exact Nat.lt_succ_of_lt (h.made job hold)
        · obtain rfl := List.mem_singleton.mp hnew
          exact Nat.lt_succ_self _

theorem Loaded.addAll (h : Loaded table left latest) (reader : Reader) (moment : Timestamp)
    (entries : List Entry) :
    ∃ jobs : List Job, jobs.map Job.entry = entries.filter (Entry.isReadable reader) ∧
      Loaded (entries.foldl (Timetable.add reader moment) table) left (latest ++ jobs) := by
  induction entries generalizing table latest with
  | nil =>
      refine ⟨[], rfl, ?_⟩
      rw [List.foldl_nil, List.append_nil]
      exact h
  | cons entry rest ih =>
      obtain ⟨first, hfirst, hadded⟩ := h.add reader moment entry
      obtain ⟨others, hothers, hall⟩ := ih hadded
      refine ⟨first ++ others, ?_, ?_⟩
      · rw [List.map_append, hfirst, hothers, ← List.filter_append]
        rfl
      · rw [List.foldl_cons, ← List.append_assoc]
        exact hall

/-- After a load the jobs of the load before it are left over as far as they were overtaken in it. -/
theorem Loaded.load (h : Loaded table left latest) (reader : Reader) (flows : List Flow)
    (moment : Timestamp) :
    ∃ jobs : List Job, jobs.map Job.entry = (flows.flatMap entries).filter (Entry.isReadable reader) ∧
      Loaded (table.load reader flows moment) (left ++ overtaken Job.key latest) jobs :=
  h.clear.addAll reader moment (flows.flatMap entries)

/-- When jobs are due they stay what they are. -/
theorem Loaded.fire (h : Loaded table left latest) (moment : Timestamp) :
    ∃ left' latest' : List Job, left'.map Job.entry = left.map Job.entry ∧
      latest'.map Job.entry = latest.map Job.entry ∧ Loaded (table.fire moment).2 left' latest' := by
  let again (job : Job) : Job :=
    if Job.isDue moment job then { job with due := job.recurs moment } else job
  have hentry : Job.entry ∘ again = Job.entry := by
    funext job
    exact (apply_ite Job.entry _ _ _).trans (ite_self _)
  have hnumber : Job.number ∘ again = Job.number := by
    funext job
    exact (apply_ite Job.number _ _ _).trans (ite_self _)
  have hkey : Job.key ∘ again = Job.key := congrArg (Entry.key ∘ ·) hentry
  have hjobs : (table.fire moment).2.jobs = table.jobs.map again := rfl
  have hknown : (lastUnder Job.key (latest.map again)).map (fun job => (job.key, job.number)) =
      (lastUnder Job.key latest).map fun job => (job.key, job.number) := by
    rw [← lastUnder_map, hkey, List.map_map]
    refine List.map_congr_left ?_
    intro job _
    exact Prod.ext (congrFun hkey job) (congrFun hnumber job)
  refine ⟨left.map again, latest.map again, ?_, ?_, ?_, ?_, ?_, ?_⟩
  · rw [List.map_map, hentry]
  · rw [List.map_map, hentry]
  · rw [hjobs, h.jobs, List.map_append]
  · rw [hknown]
    exact h.known
  · rw [hjobs, List.map_map, hnumber]
    exact h.distinct
  · rw [hjobs]
    intro job hjob
    obtain ⟨job, hold, rfl⟩ := List.mem_map.mp hjob
    rw [show (again job).number = job.number from congrFun hnumber job]
    exact h.made job hold

end Timetable

end Schedule

end FlowEngine
