import FlowEngine.Proofs.Event.Listening
import FlowEngine.Proofs.Execution.Story
import FlowEngine.Proofs.Interleaving
/-!
# `FlowEngine.Proofs.Execution.Traffic` — many runs on one bus

Any number of runs are executed at a time, and they share one bus.  Traffic is all that has been
asked of the world so far, in the order in which it was asked; each exchange is marked with the run
that has had it, or with none if it belongs to something else that the engine does in between.  The
only thing that holds the runs together is this order: the share of each of them is the course of
its execution as far as it has come, and nothing is said about how the shares are interleaved, or
about what the world answers.

Discreet handlers publish in the name of their own run.  So the events of a run can be found among
all others by the identifier that they carry (`filter_runId`), and of a run that has ended they are
its story.  Whoever comes to the bus before the run begins and does not fall behind hears the whole
of it, and nothing of it twice.
-/

namespace FlowEngine

/-- The events of one run on a bus, in the order of their publication. -/
def Bus.eventsOf (bus : Bus) (runId : String) : List Event :=
  bus.log.reverse.filter fun event => event.runId == runId

section Shares

variable {ι : Type} [DecidableEq ι] {history : List (Option ι × Exchange)} {i : ι}

theorem Transcript.events_subset {exchange : Exchange} {t : Transcript} (h : exchange ∈ t) :
    Transcript.events [exchange] ⊆ t.events := by
  obtain ⟨earlier, later, rfl⟩ := List.append_of_mem h
  intro event hevent
  rw [← List.singleton_append, events_append, events_append]
  exact List.mem_append_right _ (List.mem_append_left _ hevent)

/-- If everyone publishes in a name of its own, the events in a name are those of its owner. -/
theorem Transcript.filter_runId {name : ι → String} (hown : ∀ j, name j = name i → j = i)
    (hnamed : ∀ asked ∈ history, ∀ event ∈ Transcript.events [asked.2],
      ∃ j, asked.1 = some j ∧ event.runId = name j) :
    (Transcript.events (history.map Prod.snd)).filter (fun event => event.runId == name i) =
      (Transcript.share history i).events := by
  induction history with
  | nil => rfl
  | cons asked later ih =>
      obtain ⟨owner, exchange⟩ := asked
      obtain ⟨hfirst, hlater⟩ := List.forall_mem_cons.mp hnamed
      have hshare : Transcript.share ((owner, exchange) :: later) i =
          Transcript.share ([exchange].map fun exchange => (owner, exchange)) i ++
            Transcript.share later i :=
        share_append [(owner, exchange)] later i
      rw [List.map_cons, ← List.singleton_append, events_append, List.filter_append, ih hlater,
        hshare, events_append]
      -- An exchange of the owner keeps all its events, and one of anybody else loses them all.
      by_cases howner : owner = some i
      · subst howner
        have hsame : ∀ event ∈ Transcript.events [exchange], (event.runId == name i) = true := by
          intro event hevent
          obtain ⟨j, hj, hname⟩ := hfirst event hevent
          obtain rfl := Option.some.inj hj
          exact beq_iff_eq.mpr hname
        rw [List.filter_eq_self.mpr hsame, share_self]
      · have hother : ∀ event ∈ Transcript.events [exchange], ¬ (event.runId == name i) = true := by
          intro event hevent heq
          obtain ⟨j, hj, hname⟩ := hfirst event hevent
          obtain rfl := hown j (hname.symm.trans (beq_iff_eq.mp heq))
          exact howner hj
        rw [List.filter_eq_nil_iff.mpr hother, share_other howner]
        rfl

end Shares

/-- Runs that one engine executes at a time, and all that has been asked of the world so far. -/
structure Traffic (executor : Executor) (ι : Type) [DecidableEq ι] where
  run : ι → Run
  flow : ι → Flow
  input : ι → Json
  /-- All exchanges in order, each with the run that has had it. -/
  history : List (Option ι × Exchange)
  /-- Every run has come some way, if only to its beginning. -/
  begun : ∀ i, ∃ rest outcome, (executor.execute (run i) (flow i) (input i)).Leads
    (Transcript.share history i ++ rest) outcome
  /-- Nobody but the runs has anything to tell. -/
  silent : ∀ asked ∈ history, asked.1 = none → Transcript.events [asked.2] = []

namespace Traffic

variable {executor : Executor} {ι : Type} [DecidableEq ι]

def share (traffic : Traffic executor ι) (i : ι) : Transcript :=
  Transcript.share traffic.history i

def events (traffic : Traffic executor ι) : List Event :=
  Transcript.events (traffic.history.map Prod.snd)

def bus (traffic : Traffic executor ι) (capacity : Nat) : Bus :=
  (Bus.ofCapacity capacity).after traffic.events

theorem eventsOf_bus (traffic : Traffic executor ι) (capacity : Nat) (runId : String) :
    (traffic.bus capacity).eventsOf runId =
      traffic.events.filter fun event => event.runId == runId := by
  have hlog : (traffic.bus capacity).log = traffic.events.reverse ++ [] := Bus.log_after
  rw [Bus.eventsOf, hlog, List.append_nil, List.reverse_reverse]

/-- Whatever is published is published by a run, and in its name. -/
theorem runId_published (traffic : Traffic executor ι) (hdiscreet : executor.registry.Discreet) :
    ∀ asked ∈ traffic.history, ∀ event ∈ Transcript.events [asked.2],
      ∃ j, asked.1 = some j ∧ event.runId = (traffic.run j).id := by
  intro asked hasked event hevent
  cases howner : asked.1 with
  | none =>
      rw [traffic.silent asked hasked howner] at hevent
      cases hevent
  | some j =>
      obtain ⟨rest, outcome, h⟩ := traffic.begun j
      refine ⟨j, rfl, Executor.runId_execute hdiscreet h event ?_⟩
      rw [Transcript.events_append]
      exact List.mem_append_left _
        (Transcript.events_subset (Transcript.mem_share hasked howner) hevent)

/-- The events of a run on the bus are those that it has published itself. -/
theorem eventsOf_eq_share (traffic : Traffic executor ι) (hdiscreet : executor.registry.Discreet)
    {i : ι} (hown : ∀ j, (traffic.run j).id = (traffic.run i).id → j = i) (capacity : Nat) :
    (traffic.bus capacity).eventsOf (traffic.run i).id = (traffic.share i).events := by
  rw [eventsOf_bus]
  exact @Transcript.filter_runId ι _ _ i (fun j => (traffic.run j).id) hown
    (traffic.runId_published hdiscreet)

/-! ## Whoever listens -/

variable {traffic : Traffic executor ι} {i : ι} {capacity : Nat} {before since : List Event}

/-- The events of a run on the bus have all been published since a moment before the first. -/
theorem filter_since (capacity : Nat) (hsplit : traffic.events = before ++ since) {runId : String}
    (hbefore : ∀ event ∈ before, event.runId ≠ runId) :
    (since.filter fun event => event.runId == runId) =
      (traffic.bus capacity).eventsOf runId := by
  have hnone : (before.filter fun event => event.runId == runId) = [] :=
    List.filter_eq_nil_iff.mpr fun event hevent heq => hbefore event hevent (beq_iff_eq.mp heq)
  rw [eventsOf_bus, hsplit, List.filter_append, hnone, List.nil_append]

theorem bus_of_split (hsplit : traffic.events = before ++ since) :
    traffic.bus capacity = ((Bus.ofCapacity capacity).after before).after since := by
  rw [bus, hsplit, Bus.after_append]

open Api (Stream) in
/-- With handlers that speak for themselves only, what is on the bus of a run that has ended is the
story of its report, however many other runs there are and however they are interleaved; and whoever
listens from before its beginning, and does not lag, hears exactly this of the run.  So does a client
that follows the run on a stream. -/
theorem toldBy_eventsOf (traffic : Traffic executor ι) (hdiscreet : executor.registry.Discreet)
    (hown : ∀ j, (traffic.run j).id = (traffic.run i).id → j = i)
    (hq : (traffic.run i).status = .queued) {outcome : Except FlowError RunReport}
    (hended : (executor.execute (traffic.run i) (traffic.flow i) (traffic.input i)).Leads
      (traffic.share i) outcome) (capacity : Nat) :
    ∃ report, outcome = .ok report ∧ report.run.id = (traffic.run i).id ∧
      report.ToldBy (traffic.flow i) ((traffic.bus capacity).eventsOf (traffic.run i).id) ∧
      ∀ before since, traffic.events = before ++ since →
        (∀ event ∈ before, event.runId ≠ (traffic.run i).id) →
        (∀ heard, ((Bus.ofCapacity capacity).after before).Heard since
            (traffic.bus capacity).position heard →
          (heard.filter fun event => event.runId == (traffic.run i).id) =
            (traffic.bus capacity).eventsOf (traffic.run i).id) ∧
        ∀ request opening stream frames,
          Stream.opened request ((Bus.ofCapacity capacity).after before) = .ok opening →
          opening.runId = some (traffic.run i).id →
          Stream.Attended ((Bus.ofCapacity capacity).after before) opening since stream frames →
          stream.position = (traffic.bus capacity).position →
          stream.sentEvents frames = (traffic.bus capacity).eventsOf (traffic.run i).id := by
  obtain ⟨report, houtcome, hid, htold⟩ := Executor.toldBy_execute hdiscreet hq hended
  refine ⟨report, houtcome, hid, ?_, ?_⟩
  · rw [eventsOf_eq_share traffic hdiscreet hown capacity]
    exact htold
  · intro before since hsplit hbefore
    have hsince := filter_since capacity hsplit hbefore
    rw [bus_of_split hsplit] at hsince ⊢
    refine ⟨?_, ?_⟩
    · intro heard hheard
      rw [hheard.eq_since rfl]
      exact hsince
    · intro request opening stream frames hopened hfollows hattended hcaught
      rw [hattended.sentEvents_eq hopened hcaught, ← hsince]
      refine List.filter_congr fun event _ => ?_
      rw [Stream.follows, hfollows, Bool.beq_comm]

end Traffic

/-! ## Two runs to try things on -/

namespace Executor

def furnished : Executor := { registry := .standard }

/-- A trigger that hands on a sample, and a message that nobody receives. -/
def sampled : Flow :=
  { id := "f", name := "f"
    canvas :=
      { nodes := [⟨"t", "trigger.manual", [("testData", .bool true)]⟩, ⟨"x", "sms.send", []⟩]
        edges := [{ source := "t", target := "x" }] } }

end Executor

namespace Traffic

open Executor

def queuedRun (first : Bool) : Run :=
  { Run.queued "f" .manual false ⟨0, 0⟩ with id := if first then "1" else "2" }

/-- The first run starts, the second is executed from its beginning to its end, and then the first
goes on. -/
def nestedHistory (t u : Transcript) : List (Option Bool × Exchange) :=
  (t.take 4).map (fun exchange => (some true, exchange)) ++
    (u.map (fun exchange => (some false, exchange)) ++
      (t.drop 4).map fun exchange => (some true, exchange))

theorem share_nestedHistory (t u : Transcript) (first : Bool) :
    Transcript.share (nestedHistory t u) first = if first then t else u := by
  have htrue : ∀ t : Transcript,
      Transcript.share (t.map fun exchange => (some true, exchange)) false = [] :=
    Transcript.share_other (by decide)
  have hfalse : ∀ t : Transcript,
      Transcript.share (t.map fun exchange => (some false, exchange)) true = [] :=
    Transcript.share_other (by decide)
  rw [nestedHistory, Transcript.share_append, Transcript.share_append]
  cases first with
  | true =>
      rw [Transcript.share_self, Transcript.share_self, hfalse, List.nil_append,
        List.take_append_drop]
      rfl
  | false =>
      rw [Transcript.share_self, htrue, htrue, List.append_nil]
      rfl

theorem silent_nestedHistory (t u : Transcript) :
    ∀ asked ∈ nestedHistory t u, asked.1 = none → Transcript.events [asked.2] = [] := by
  have howned : ∀ (t : Transcript) (first : Bool),
      ∀ asked ∈ t.map (fun exchange => (some first, exchange)), asked.1 ≠ none :=
    fun t first => List.forall_mem_map.mpr fun _ _ => Option.some_ne_none first
  intro asked hasked hnone
  have hsome : asked.1 ≠ none := by
    rcases List.mem_append.mp hasked with hmem | hmem
    · exact howned _ true asked hmem
    · rcases List.mem_append.mp hmem with hmem | hmem
      · exact howned _ false asked hmem
      · exact howned _ true asked hmem
  exact absurd hnone hsome

/-- A run that fails at its second node, with another run in the middle of it, and a subscriber that
hears everything at once. -/
theorem toldBy_nested :
    ∃ (traffic : Traffic furnished Bool) (t u : Transcript) (report : RunReport),
      traffic.history = nestedHistory t u ∧ traffic.run = queuedRun ∧
      report.executed = ["t", "x"] ∧ report.run.status = .failed ∧
      report.ToldBy sampled ((traffic.bus 16).eventsOf "1") ∧
      (Bus.ofCapacity 16).Heard traffic.events (traffic.bus 16).position traffic.events ∧
      (traffic.events.filter fun event => event.runId == "1") = (traffic.bus 16).eventsOf "1" := by
  let flow : Bool → Flow := fun first => if first then sampled else fadingLine
  obtain ⟨t, ht⟩ :=
    Program.leads_runWith outage (furnished.execute (queuedRun true) sampled .null) ()
  obtain ⟨u, hu⟩ :=
    Program.leads_runWith recording (furnished.execute (queuedRun false) fadingLine .null) ()
  have hbegun : ∀ first, ∃ rest outcome, (furnished.execute (queuedRun first) (flow first)
      .null).Leads (Transcript.share (nestedHistory t u) first ++ rest) outcome := by
    intro first
    refine ⟨[], ?_⟩
    rw [share_nestedHistory, List.append_nil]
    cases first with
    | true => exact ⟨_, ht⟩
    | false => exact ⟨_, hu⟩
  let traffic : Traffic furnished Bool :=
    { run := queuedRun, flow, input := fun _ => .null, history := nestedHistory t u
      begun := hbegun, silent := silent_nestedHistory t u }
  have hown : ∀ j, (queuedRun j).id = (queuedRun true).id → j = true := by decide
  have hshare : traffic.share true = t := share_nestedHistory t u true
  obtain ⟨report, houtcome, -, htold, hlisten⟩ := toldBy_eventsOf traffic
    Registry.discreet_standard hown rfl (by rw [hshare]; exact ht) 16
  have hends : (((furnished.execute (queuedRun true) sampled .null).runWith outage
      ()).1.toOption.map fun report => (report.executed, report.run.status)) =
      some (["t", "x"], .failed) := rfl
  rw [houtcome] at hends
  simp only [Except.toOption, Option.map_some, Option.some.injEq, Prod.mk.injEq] at hends
  have hsubscribed : (Bus.ofCapacity 16).Heard [] (Bus.ofCapacity 16).position [] := .subscribed
  have hheard := hsubscribed.promptly (Bus.capacity_ofCapacity_pos 16) traffic.events
  exact ⟨traffic, t, u, report, rfl, rfl, hends.1, hends.2, htold, hheard,
    (hlisten [] traffic.events rfl (List.forall_mem_nil _)).1 traffic.events hheard⟩

end Traffic

end FlowEngine
