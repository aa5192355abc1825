import FlowEngine.Api.Stream
/-!
# `FlowEngine.Proofs.Event.Listening` — who does not fall behind hears everything

A listener comes to the bus at some moment and hears what is published from then on, in portions of
its own choosing.  Between two portions any number of events may be published; a listener does not
lag if nothing has been lost whenever it listens.  There are two kinds of listener, a subscriber of
the bus and the stream of a client, and one invariant for both: what has been heard is the beginning
of what has been published since, as far as the listener's position tells.

A stream passes on the events that its client follows only.  Pings are answered in between, so it is
the events among the frames that are compared.
-/

namespace FlowEngine

namespace Bus

variable {bus : Bus} {since heard events : List Event} {position count : Nat}

/-- The bus behind some more events. -/
def after (bus : Bus) (events : List Event) : Bus := events.foldl publish bus

theorem after_append (bus : Bus) (events more : List Event) :
    bus.after (events ++ more) = (bus.after events).after more := List.foldl_append

theorem log_after : (bus.after events).log = events.reverse ++ bus.log := by
  induction events generalizing bus with
  | nil => rfl
  | cons event later ih =>
      rw [List.reverse_cons, List.append_assoc]
      exact ih

theorem capacity_after : (bus.after events).capacity = bus.capacity := by
  induction events generalizing bus with
  | nil => rfl
  | cons event later ih => exact @ih (bus.publish event)

theorem position_after : (bus.after events).position = bus.position + events.length := by
  rw [position, log_after, List.length_append, List.length_reverse, Nat.add_comm]
  rfl

/-- A listener that has lost nothing can hear all that it has not heard yet. -/
theorem heardFrom_after (hlost : (bus.after events).lost (bus.position + count) = 0) :
    (bus.after events).heardFrom (bus.position + count) = events.drop count := by
  have hbehind : bus.position + events.length - (bus.position + count) - 0 =
      events.reverse.length - count := by
    rw [List.length_reverse]
    omega
  have hfits : events.reverse.length - count ≤ events.reverse.length := Nat.sub_le _ _
  -- The log has the latest events in front, so what is taken from it is the end of the list.
  rw [heardFrom, hlost, position_after, log_after, hbehind, List.take_append_of_le_length hfits,
    List.take_reverse, List.reverse_reverse, List.length_reverse]
  rcases Nat.le_total count events.length with hle | hge
  · rw [Nat.sub_sub_self hle]
  · rw [Nat.sub_eq_zero_of_le hge, Nat.sub_zero, List.drop_length, List.drop_of_length_le hge]

/-- A bus keeps its latest event, whatever capacity was asked for. -/
theorem capacity_ofCapacity_pos (asked : Nat) : 0 < (ofCapacity asked).capacity :=
  Nat.pos_of_isPowerOfTwo (Nat.isPowerOfTwo_nextPowerOfTwo _)

/-! ## Subscribers -/

/-- What a subscriber that does not lag has heard since it came to a bus, and its position.  It hears
some of what there is to hear, and has lost nothing whenever it listens. -/
inductive Heard (bus : Bus) : List Event → Nat → List Event → Prop where
  | subscribed : Heard bus [] bus.position []
  | published {since heard : List Event} {position : Nat} (event : Event) :
      Heard bus since position heard → Heard bus (since ++ [event]) position heard
  | received {since heard : List Event} {position : Nat} (portion rest : List Event) :
      Heard bus since position heard → (bus.after since).lost position = 0 →
      (bus.after since).heardFrom position = portion ++ rest →
      Heard bus since (position + portion.length) (heard ++ portion)

theorem Heard.eq_take (h : Heard bus since position heard) :
    ∃ count ≤ since.length, position = bus.position + count ∧ heard = since.take count := by
  induction h with
  | subscribed => exact ⟨0, Nat.le_refl 0, rfl, rfl⟩
  | @published since heard position event _ ih =>
      obtain ⟨count, hle, hposition, rfl⟩ := ih
      refine ⟨count, ?_, hposition, ?_⟩
      · rw [List.length_append]
        exact Nat.le_add_right_of_le hle
      · rw [List.take_append_of_le_length hle]
  | @received since heard position portion rest _ hlost hrest ih =>
      obtain ⟨count, hle, rfl, rfl⟩ := ih
      rw [heardFrom_after hlost] at hrest
      have hlength := congrArg List.length hrest
      rw [List.length_drop, List.length_append] at hlength
      refine ⟨count + portion.length, by omega, Nat.add_assoc _ _ _, ?_⟩
      rw [List.take_add, hrest, List.take_left]

/-- A subscriber that does not lag, once it has caught up, has heard everything. -/
theorem Heard.eq_since (h : Heard bus since position heard)
    (hcaught : position = (bus.after since).position) : heard = since := by
  obtain ⟨count, -, hposition, rfl⟩ := h.eq_take
  rw [hposition, position_after] at hcaught
  rw [Nat.add_left_cancel hcaught, List.take_length]

/-- A subscriber that hears every event before the next one is published does not lag. -/
theorem Heard.promptly (hkept : 0 < bus.capacity)
    (h : Heard bus since (bus.after since).position since) (events : List Event) :
    Heard bus (since ++ events) (bus.after (since ++ events)).position (since ++ events) := by
  induction events generalizing since with
  | nil =>
      rw [List.append_nil]
      exact h
  | cons event later ih =>
      have hposition : (bus.after since).position = bus.position + since.length := position_after
      rw [hposition] at h
      have hlost : (bus.after (since ++ [event])).lost (bus.position + since.length) = 0 := by
        rw [lost, position_after, capacity_after, List.length_append, List.length_singleton]
        omega
      have hheard : (bus.after (since ++ [event])).heardFrom (bus.position + since.length) =
          [event] ++ [] := by
        rw [heardFrom_after hlost, List.drop_left, List.append_nil]
      have hnext := (h.published event).received [event] [] hlost hheard
      have hcaught : bus.position + since.length + [event].length =
          (bus.after (since ++ [event])).position := by
        rw [position_after, List.length_append, Nat.add_assoc]
      rw [hcaught] at hnext
      have hlater := ih hnext
      rw [List.append_assoc] at hlater
      exact hlater

end Bus

/-! ## Streams -/

namespace Api

def ServerFrame.event? : ServerFrame → Option Event
  | .event told => some told
  | .pong _ => none
  | .close => none

namespace Stream

variable {bus : Bus} {opening stream : Stream} {since : List Event} {frames : List ServerFrame}

/-- What the client of a stream has read since the stream was opened on a bus, and the stream.  The
stream has lost nothing whenever it is served, and the client does not close it. -/
inductive Attended (bus : Bus) (opening : Stream) :
    List Event → Stream → List ServerFrame → Prop where
  | opened : Attended bus opening [] opening []
  | published {since : List Event} {stream : Stream} {frames : List ServerFrame} (event : Event) :
      Attended bus opening since stream frames →
      Attended bus opening (since ++ [event]) stream frames
  | served {since : List Event} {stream : Stream} {frames : List ServerFrame} :
      Attended bus opening since stream frames → (bus.after since).lost stream.position = 0 →
      Attended bus opening since (stream.drain (bus.after since)) frames
  | answered {since : List Event} {stream : Stream} {frames : List ServerFrame}
      (asked : List ClientFrame) :
      Attended bus opening since stream frames → ClientFrame.close ∉ asked →
      Attended bus opening since (stream.receive asked) frames
  | read {since : List Event} {stream : Stream} {frames : List ServerFrame} :
      Attended bus opening since stream frames →
      Attended bus opening since stream.read.2 (frames ++ stream.read.1)

/-- The events that have been sent to a client, those that it has not read yet included. -/
def sentEvents (stream : Stream) (frames : List ServerFrame) : List Event :=
  (frames ++ stream.sent.reverse).filterMap ServerFrame.event?

theorem eq_of_opened {request : Request} (h : opened request bus = .ok stream) :
    ∃ runId, stream = { runId, position := bus.position } := by
  unfold opened at h
  split at h
  · split at h
    · next runId _ => exact ⟨runId, (Except.ok.inj h).symm⟩
    · cases h
  · cases h

theorem receive_eq {asked : List ClientFrame} (h : ClientFrame.close ∉ asked) (stream : Stream) :
    ∃ pongs, stream.receive asked = { stream with sent := pongs ++ stream.sent } ∧
      pongs.reverse.filterMap ServerFrame.event? = [] := by
  induction asked generalizing stream with
  | nil => exact ⟨[], rfl, rfl⟩
  | cons frame later ih =>
      obtain ⟨hframe, hlater⟩ := not_or.mp (mt List.mem_cons.mpr h)
      cases frame with
      | ping text =>
          obtain ⟨pongs, hpongs, hnone⟩ := ih hlater { stream with sent := .pong text :: stream.sent }
          refine ⟨pongs ++ [.pong text], ?_, ?_⟩
          · rw [List.append_assoc]
            exact hpongs
          · rw [List.reverse_append, List.filterMap_append, hnone]
            rfl
      | other => exact ih hlater stream
      | close => exact absurd rfl hframe

theorem filterMap_event? (events : List Event) :
    (events.map ServerFrame.event).filterMap ServerFrame.event? = events := by
  have hsome : ServerFrame.event? ∘ ServerFrame.event = some := rfl
  rw [List.filterMap_map, hsome, List.filterMap_some]

/-- A stream as it is attended: it is still open and follows what it followed, and what has been sent
is what the client follows of the beginning of what has been published. -/
structure Serves (bus : Bus) (opening : Stream) (since : List Event) (stream : Stream)
    (frames : List ServerFrame) : Prop where
  runId : stream.runId = opening.runId
  ended : stream.ended = false
  sent : ∃ count ≤ since.length, stream.position = bus.position + count ∧
    stream.sentEvents frames = (since.take count).filter opening.follows

theorem follows_eq {other : Stream} (h : stream.runId = other.runId) :
    stream.follows = other.follows := by
  funext event
  rw [follows, follows, h]

theorem Serves.drain (h : Serves bus opening since stream frames)
    (hlost : (bus.after since).lost stream.position = 0) :
    Serves bus opening since (stream.drain (bus.after since)) frames := by
  obtain ⟨hrunId, hended, count, hle, hposition, hsent⟩ := h
  rw [hposition] at hlost
  rw [Stream.drain, hended, if_neg Bool.false_ne_true]
  refine ⟨hrunId, rfl, since.length, Nat.le_refl _, Bus.position_after, ?_⟩
  rw [sentEvents, hposition, Bus.heardFrom_after hlost, List.reverse_append, List.reverse_reverse,
    ← List.append_assoc, List.filterMap_append, ← sentEvents, hsent, filterMap_event?,
    follows_eq hrunId, ← List.filter_append, List.take_append_drop, List.take_length]

theorem Attended.serves (hposition : opening.position = bus.position) (hsent : opening.sent = [])
    (hended : opening.ended = false) (h : Attended bus opening since stream frames) :
    Serves bus opening since stream frames := by
  induction h with
  | opened =>
      refine ⟨rfl, hended, 0, Nat.le_refl 0, hposition, ?_⟩
      rw [sentEvents, hsent]
      rfl
  | published event _ ih =>
      obtain ⟨hrunId, hended, count, hle, hposition, hsent⟩ := ih
      refine ⟨hrunId, hended, count, ?_, hposition, ?_⟩
      · rw [List.length_append]
        exact Nat.le_add_right_of_le hle
      · rw [List.take_append_of_le_length hle]
        exact hsent
  | served _ hlost ih => exact ih.drain hlost
  | @answered since stream frames asked _ hclose ih =>
      obtain ⟨hrunId, hended, count, hle, hposition, hsent⟩ := ih
      obtain ⟨pongs, hpongs, hnone⟩ := receive_eq hclose stream
      rw [hpongs]
      refine ⟨hrunId, hended, count, hle, hposition, ?_⟩
      rw [← hsent, sentEvents, List.reverse_append, ← List.append_assoc, List.filterMap_append,
        hnone, List.append_nil]
      rfl
  | read _ ih =>
      obtain ⟨hrunId, hended, count, hle, hposition, hsent⟩ := ih
      refine ⟨hrunId, hended, count, hle, hposition, ?_⟩
      rw [← hsent, sentEvents, sentEvents, Stream.read, List.reverse_nil, List.append_nil]

/-- A stream that does not lag, once it has caught up, has sent all that its client follows. -/
theorem Attended.sentEvents_eq {request : Request} (hopened : Stream.opened request bus = .ok opening)
    (h : Attended bus opening since stream frames)
    (hcaught : stream.position = (bus.after since).position) :
    stream.sentEvents frames = since.filter opening.follows := by
  obtain ⟨runId, rfl⟩ := eq_of_opened hopened
  obtain ⟨-, -, count, -, hposition, hsent⟩ := h.serves rfl rfl rfl
  rw [hposition, Bus.position_after] at hcaught
  rw [hsent, Nat.add_left_cancel hcaught, List.take_length]

end Stream

end Api

end FlowEngine
