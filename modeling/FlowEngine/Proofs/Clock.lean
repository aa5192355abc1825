import FlowEngine.Proofs.Time.Moment
import FlowEngine.Proofs.Transcript
/-!
# `FlowEngine.Proofs.Clock` — worlds with a clock, and what programs read off it

A transcript has the readings of the clock in it, in order.  `Clock.Follows` says that a list of
readings is what a given clock shows; a world can be given such a clock whatever else it answers
(`withClock`), and then the readings follow it (`leads_withClock`).
-/

namespace FlowEngine

/-- What a clock shows when it is read, by the number of the reading. -/
abbrev Clock := Nat → Timestamp

/-- The readings are those of the clock, from its n-th on. -/
def Clock.Follows (clock : Clock) : Nat → List Timestamp → Prop
  | _, [] => True
  | n, moment :: later => moment = clock n ∧ clock.Follows (n + 1) later

theorem Clock.follows_append {clock : Clock} {n : Nat} {moments later : List Timestamp} :
    clock.Follows n (moments ++ later) ↔
      clock.Follows n moments ∧ clock.Follows (n + moments.length) later := by
  induction moments generalizing n with
  | nil => simp [Follows]
  | cons moment rest ih =>
      rw [List.cons_append, Follows, Follows, ih, List.length_cons, and_assoc,
        show n + 1 + rest.length = n + (rest.length + 1) by omega]

/-- What is read off a clock that never goes back stands in order. -/
theorem Clock.Follows.rising {clock : Clock}
    (hclock : ∀ n m, n ≤ m → (clock n).notAfter (clock m) = true) {n : Nat}
    {moments : List Timestamp} (h : clock.Follows n moments) :
    moments.Pairwise fun a b => a.notAfter b = true := by
  have hlater : ∀ {n : Nat} {moments : List Timestamp}, clock.Follows n moments →
      ∀ moment ∈ moments, ∃ m, n ≤ m ∧ moment = clock m := by
    intro n moments h
    induction moments generalizing n with
    | nil => exact List.forall_mem_nil _
    | cons first rest ih =>
        refine List.forall_mem_cons.mpr ⟨⟨n, Nat.le_refl n, h.1⟩, fun moment hmoment => ?_⟩
        obtain ⟨m, hm, hread⟩ := ih h.2 moment hmoment
        exact ⟨m, Nat.le_of_succ_le hm, hread⟩
  induction moments generalizing n with
  | nil => exact .nil
  | cons first rest ih =>
      refine .cons (fun moment hmoment => ?_) (ih h.2)
      obtain ⟨m, hm, rfl⟩ := hlater h.2 moment hmoment
      rw [h.1]
      exact hclock n m (Nat.le_of_succ_le hm)

def Exchange.reading? : Exchange → Option Timestamp
  | ⟨.now, moment⟩ => some moment
  | _ => none

def Transcript.readings (t : Transcript) : List Timestamp := t.filterMap Exchange.reading?

/-! ## A world with a clock -/

/-- A world in which the clock shows what it is told to, and is read by nobody else. -/
def withClock {σ : Type} (clock : Clock) (answer : (action : Action) → σ → action.Reply × σ) :
    (action : Action) → Nat × σ → action.Reply × (Nat × σ)
  | .now, (n, s) => (clock n, (n + 1, s))
  | action, (n, s) => ((answer action s).1, (n, (answer action s).2))

namespace Program

variable {α σ : Type}

/-- The readings that a program takes in a world with a clock are those of the clock. -/
theorem leads_withClock (clock : Clock) (answer : (action : Action) → σ → action.Reply × σ)
    (p : Program α) (n : Nat) (s : σ) :
    ∃ t : Transcript, Leads p t (p.runWith (withClock clock answer) (n, s)).1 ∧
      clock.Follows n t.readings := by
  induction p generalizing n s with
  | done a => exact ⟨[], .done a, trivial⟩
  | act action next ih =>
      cases action with
      | now =>
          obtain ⟨t, h, hread⟩ := ih (clock n) (n + 1) s
          exact ⟨⟨.now, clock n⟩ :: t, .act h, rfl, hread⟩
      | _ =>
          obtain ⟨t, h, hread⟩ := ih (answer _ s).1 n (answer _ s).2
          exact ⟨⟨_, (answer _ s).1⟩ :: t, .act h, hread⟩

/-! ## Programs that do not read the clock -/

/-- The program does not read the clock, whatever it is answered. -/
def Clockless (p : Program α) : Prop := p.Asks fun action => action ≠ .now

theorem Clockless.readings_eq_nil {p : Program α} {t : Transcript} {a : α} (hp : p.Clockless)
    (h : Leads p t a) : t.readings = [] := by
  induction h with
  | done => rfl
  | @act action next reply rest a _ ih =>
      obtain ⟨haction, hnext⟩ := Asks.act_inv hp
      have hrest := ih (hnext reply)
      cases action with
      | now => exact absurd rfl haction
      | _ => exact hrest

end Program

end FlowEngine
