import FlowEngine.Proofs.Ledger.Writing
/-!
# `FlowEngine.Proofs.Ledger.Growth` — adding to a ledger under new identifiers

A run or a step is kept under an identifier from the supply of the store.  As long as the supply
gives out what is not in use, nothing that is created is turned away, and a patch meets what it is
meant for.  `Open` says that a ledger is in this state; creating, patching and the work of others
lead from one such state to the next.
-/

namespace FlowEngine

namespace MemoryStore

variable {store store' : MemoryStore} {id : String}

/-- The store has yet to give out the identifier. -/
def WillIssue (store : MemoryStore) (id : String) : Prop :=
  ∃ n, store.issued < n ∧ store.supply n = id

theorem willIssue_issue (store : MemoryStore) : store.WillIssue store.issue.1 :=
  ⟨store.issued + 1, Nat.lt_succ_self _, rfl⟩

theorem WillIssue.earlier (h : store'.WillIssue id) (hsupply : store'.supply = store.supply)
    (hissued : store.issued ≤ store'.issued) : store.WillIssue id := by
  obtain ⟨n, hn, hid⟩ := h
  exact ⟨n, Nat.lt_of_le_of_lt hissued hn, hsupply ▸ hid⟩

end MemoryStore

/-- The ledger holds these runs and steps, and the identifiers that the store has yet to give out
are all different, without a quote, and not in use in the ledger. -/
structure Ledger.Open (ledger : Ledger) (store : MemoryStore) (runs : List (Run × Json))
    (steps : List RunStep) : Prop where
  holds : ledger.Holds store runs steps
  distinct : ∀ m n, store.issued < m → store.issued < n → store.supply m = store.supply n → m = n
  quoteless : ∀ id, store.WillIssue id → '"' ∉ id.toList
  runs : ∀ x ∈ runs, ¬ store.WillIssue x.1.id
  steps : ∀ step ∈ steps, ¬ store.WillIssue step.id ∧ ¬ store.WillIssue step.runId

/-! ## A new store -/

namespace MemoryStore

theorem toList_supply (n : Nat) :
    (({} : MemoryStore).supply n).toList = "<id:".toList ++ Nat.toDigits 10 n ++ ">".toList := by
  show ("<id:" ++ Nat.repr n ++ ">").toList = _
  rw [String.toList_append, String.toList_append, Nat.toList_repr]

theorem supply_injective {m n : Nat}
    (h : ({} : MemoryStore).supply m = ({} : MemoryStore).supply n) : m = n := by
  have hdigits := congrArg String.toList h
  rw [toList_supply, toList_supply, List.append_cancel_right_eq,
    List.append_cancel_left_eq] at hdigits
  calc
    m = Nat.ofDigitChars 10 (Nat.toDigits 10 m) 0 := Nat.ofDigitChars_ten_toDigits.symm
    _ = Nat.ofDigitChars 10 (Nat.toDigits 10 n) 0 := by rw [hdigits]
    _ = n := Nat.ofDigitChars_ten_toDigits

theorem quote_not_mem_supply (n : Nat) : '"' ∉ (({} : MemoryStore).supply n).toList := by
  rw [toList_supply, List.mem_append, List.mem_append]
  rintro ((hopening | hdigit) | hclosing)
  · exact absurd hopening (by decide)
  · exact absurd (Nat.isDigit_of_mem_toDigits (by decide) (by decide) hdigit) (by decide)
  · exact absurd hclosing (by decide)

end MemoryStore

theorem Ledger.open_new (ledger : Ledger) : ledger.Open {} [] [] where
  holds := ⟨rfl, rfl⟩
  distinct := fun _ _ _ _ h => MemoryStore.supply_injective h
  quoteless := by
    rintro id ⟨n, -, rfl⟩
    exact MemoryStore.quote_not_mem_supply n
  runs := List.forall_mem_nil _
  steps := List.forall_mem_nil _

namespace Ledger.Open

variable {ledger : Ledger} {store store' : MemoryStore} {runs runs' : List (Run × Json)}
  {steps steps' : List RunStep}

/-- The ledger stays open while identifiers are given out, whatever it comes to hold, if that is not
kept under identifiers still to come. -/
theorem later (h : ledger.Open store runs steps) (hsupply : store'.supply = store.supply)
    (hissued : store.issued ≤ store'.issued) (hholds : ledger.Holds store' runs' steps')
    (hruns : ∀ x ∈ runs', ¬ store'.WillIssue x.1.id)
    (hsteps : ∀ step ∈ steps', ¬ store'.WillIssue step.id ∧ ¬ store'.WillIssue step.runId) :
    ledger.Open store' runs' steps' where
  holds := hholds
  distinct := by
    intro m n hm hn heq
    rw [hsupply] at heq
    exact h.distinct m n (Nat.lt_of_le_of_lt hissued hm) (Nat.lt_of_le_of_lt hissued hn) heq
  quoteless := fun id hid => h.quoteless id (hid.earlier hsupply hissued)
  runs := hruns
  steps := hsteps

theorem runs_later (h : ledger.Open store runs steps) (hsupply : store'.supply = store.supply)
    (hissued : store.issued ≤ store'.issued) : ∀ x ∈ runs, ¬ store'.WillIssue x.1.id :=
  fun x hx hid => h.runs x hx (hid.earlier hsupply hissued)

theorem steps_later (h : ledger.Open store runs steps) (hsupply : store'.supply = store.supply)
    (hissued : store.issued ≤ store'.issued) :
    ∀ step ∈ steps, ¬ store'.WillIssue step.id ∧ ¬ store'.WillIssue step.runId :=
  fun step hstep => ⟨fun hid => (h.steps step hstep).1 (hid.earlier hsupply hissued),
    fun hid => (h.steps step hstep).2 (hid.earlier hsupply hissued)⟩

/-- What others do leaves the ledger open, if they do not write to its collections. -/
theorem frame (h : ledger.Open store runs steps) {t : Transcript} (hkeeps : t.Keeps store store')
    (hruns : ∀ exchange ∈ t, exchange.action.written? ≠ some ledger.runs)
    (hsteps : ∀ exchange ∈ t, exchange.action.written? ≠ some ledger.steps) :
    ledger.Open store' runs steps := by
  obtain ⟨hsupply, hissued, hrecords⟩ := hkeeps.frame
  have hholds := h.holds.of_records (hrecords _ hruns) (hrecords _ hsteps)
  exact h.later hsupply hissued hholds (h.runs_later hsupply hissued)
    (h.steps_later hsupply hissued)

/-- The identifier that is given out next is not given out again. -/
theorem not_willIssue_issue (h : ledger.Open store runs steps)
    (hsupply : store'.supply = store.supply) (hissued : store.issued < store'.issued) :
    ¬ store'.WillIssue store.issue.1 := by
  rintro ⟨n, hn, hid⟩
  rw [hsupply] at hid
  have heq : n = store.issued + 1 :=
    h.distinct n (store.issued + 1) (Nat.lt_trans hissued hn) (Nat.lt_succ_self _) hid
  omega

/-! ## Creating -/

theorem create_run (h : ledger.Open store runs steps) (hnames : ledger.runs ≠ ledger.steps)
    (run : Run) (inputEvent : Json) :
    (store.create ledger.runs (run.toRecord inputEvent)).1 =
        .ok ({ run with id := store.issue.1 }.stored inputEvent) ∧
      ledger.Open (store.create ledger.runs (run.toRecord inputEvent)).2
        (runs ++ [({ run with id := store.issue.1 }, inputEvent)]) steps := by
  rcases h.holds.create_run hnames run inputEvent with ⟨⟨x, hx, hused⟩, -⟩ | ⟨hreply, hholds⟩
  · exact absurd (hused ▸ store.willIssue_issue) (h.runs x hx)
  · obtain ⟨hsupply, hissued, -⟩ :=
      MemoryStore.create_frame store ledger.runs (run.toRecord inputEvent)
    have hone : store.issued < (store.create ledger.runs (run.toRecord inputEvent)).2.issued := by
      rw [MemoryStore.issued_create_anonymous (run.isRecord_toRecord inputEvent)
        (run.get?_toRecord inputEvent "id")]
      exact Nat.lt_succ_self _
    refine ⟨hreply, h.later hsupply hissued hholds ?_ (h.steps_later hsupply hissued)⟩
    exact List.forall_mem_append.mpr ⟨h.runs_later hsupply hissued,
      List.forall_mem_singleton.mpr (h.not_willIssue_issue hsupply hone)⟩

theorem create_step (h : ledger.Open store runs steps) (hnames : ledger.runs ≠ ledger.steps)
    (step : RunStep) (howner : ∃ x ∈ runs, x.1.id = step.runId) :
    (store.create ledger.steps step.toRecord).1 = .ok { step with id := store.issue.1 }.stored ∧
      ledger.Open (store.create ledger.steps step.toRecord).2 runs
        (steps ++ [{ step with id := store.issue.1 }]) := by
  rcases h.holds.create_step hnames step with ⟨⟨other, hother, hused⟩, -⟩ | ⟨hreply, hholds⟩
  · exact absurd (hused ▸ store.willIssue_issue) (h.steps other hother).1
  · obtain ⟨hsupply, hissued, -⟩ := MemoryStore.create_frame store ledger.steps step.toRecord
    have hone : store.issued < (store.create ledger.steps step.toRecord).2.issued := by
      rw [MemoryStore.issued_create_anonymous step.isRecord_toRecord (step.get?_toRecord "id")]
      exact Nat.lt_succ_self _
    have hruns := h.runs_later hsupply hissued
    refine ⟨hreply, h.later hsupply hissued hholds hruns ?_⟩
    refine List.forall_mem_append.mpr ⟨h.steps_later hsupply hissued,
      List.forall_mem_singleton.mpr ⟨h.not_willIssue_issue hsupply hone, ?_⟩⟩
    obtain ⟨x, hx, hrun⟩ := howner
    exact fun hwill => hruns x hx (hrun ▸ hwill)

/-! ## Patching -/

theorem update_run {before after : List (Run × Json)} {run : Run} {inputEvent : Json}
    (h : ledger.Open store (before ++ (run, inputEvent) :: after) steps)
    (hnames : ledger.runs ≠ ledger.steps) (hbefore : ∀ x ∈ before, x.1.id ≠ run.id)
    (update : Run) (hid : update.id = run.id) :
    ledger.Open (store.update ledger.runs update.id update.toPatch).2
      (before ++ (run.patched update, inputEvent) :: after) steps := by
  obtain ⟨hsupply, hissued, -⟩ :=
    MemoryStore.update_frame store ledger.runs update.id update.toPatch
  have hruns := h.runs_later hsupply hissued
  have hsteps := h.steps_later hsupply hissued
  have hholds := h.holds.update_run_at hnames hbefore update hid
  exact h.later hsupply hissued hholds (forall_mem_changed hruns id) hsteps

theorem update_step {before after : List RunStep} {step : RunStep}
    (h : ledger.Open store runs (before ++ step :: after)) (hnames : ledger.runs ≠ ledger.steps)
    (hbefore : ∀ other ∈ before, other.id ≠ step.id) (update : RunStep)
    (hid : update.id = step.id) :
    ledger.Open (store.update ledger.steps update.id update.toPatch).2 runs
      (before ++ step.patched update :: after) := by
  obtain ⟨hsupply, hissued, -⟩ :=
    MemoryStore.update_frame store ledger.steps update.id update.toPatch
  have hruns := h.runs_later hsupply hissued
  have hsteps := h.steps_later hsupply hissued
  have hholds := h.holds.update_step_at hnames hbefore update hid
  exact h.later hsupply hissued hholds hruns (forall_mem_changed hsteps id)

end Ledger.Open

end FlowEngine
