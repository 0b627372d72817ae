import VisualNovel.Proofs.Event.Scripted

/-!
# Delivery

An event is published while nothing waits. Whatever the handlers do, the event and all that are
published meanwhile are dispatched one by one in the order of their publication, each of them to the
handlers that are registered when its dispatch begins; and nothing waits when all is over, so that
the next event that is published is dispatched as well.

## Main definitions

* `Hall.Resting`: nothing waits and nothing is being delivered.

## Main results

* `Hall.Delivering.drain`, `Hall.Resting.publish_cases`: what is delivered within some patience;
* `Hall.publish_delivers`: everything is delivered if there is an end to what handlers publish;
* `Scenario.publish_ends`: there is one in a scenario.
-/

namespace VisualNovel

namespace Hall

variable {ω τ ε η : Type} [DecidableEq τ] [DecidableEq η] {hall : Hall ω τ ε η} {P : ω → Prop}
  {w : ω}

/-! ### The queue -/

/-- What comes of a patience of `n` deliveries: the queue is empty in the end, or the patience is at
its end before the queue. -/
theorem Delivering.drain (hcivil : hall.Civil P) (n : Nat) (hw : hall.Delivering P w) :
    ∃ ds w', hall.Dispatched w ds w' ∧ hall.Delivering P w' ∧
      Dispatch.InOrder (hall.bus w).pending ds ∧
      ds.map Dispatch.event ++ (hall.bus w').pending =
        (hall.bus w).pending ++ ds.flatMap Dispatch.published ∧
      (hall.drain n w = some w' ∧ (hall.bus w').pending = [] ∨
        hall.drain n w = none ∧ ds.length = n ∧ (hall.bus w').pending ≠ []) := by
  induction n generalizing w with
  | zero =>
    refine ⟨[], w, .nil (.refl hcivil.toLawful w), hw, Dispatch.inOrder_nil, by simp, ?_⟩
    by_cases hpending : (hall.bus w).pending = []
    · exact .inl ⟨by simp [Hall.drain, hpending], hpending⟩
    · exact .inr ⟨by simp [Hall.drain, hpending], rfl, hpending⟩
  | succ n ih =>
    rcases hpending : (hall.bus w).pending with _ | ⟨e, rest⟩
    · exact ⟨[], w, .nil (.refl hcivil.toLawful w), hw, Dispatch.inOrder_nil, by simp [hpending],
        .inl ⟨by simp [Hall.drain, hpending], hpending⟩⟩
    · let pop : Bus τ ε η → Bus τ ε η := fun b => { b with pending := rest }
      have hw₁ : hall.Delivering P (hall.modifyBus pop w) := hw.modifyBus hcivil pop rfl rfl rfl
      obtain ⟨es, hcalled, hwaiting, hw₂⟩ := hw₁.deliver hcivil e
      obtain ⟨ds, w', hdispatched, hw', horder, hqueue, hresult⟩ := ih hw₂
      rw [hcivil.bus_modifyBus] at hcalled hwaiting
      rw [hwaiting] at horder hqueue
      -- The delivery is the first dispatch, and what it publishes waits behind the rest.
      refine ⟨⟨e, ((hall.bus w).registered (hall.topic e)).map Registration.handler, es⟩ :: ds, w',
        .cons rfl (hcalled.of_same hcivil.toLawful (.modifyBus pop w rfl rfl)) hdispatched, hw',
        horder.cons, ?_, ?_⟩
      · rw [List.map_cons, List.cons_append, hqueue]
        simp [pop]
      · have hdrain : hall.drain (n + 1) w =
            hall.drain n (hall.deliver e (hall.modifyBus pop w)) := by
          rw [Hall.drain, hpending]
        rw [hdrain]
        exact hresult.imp id fun ⟨hnone, hlength, hne⟩ => ⟨hnone, by simp [hlength], hne⟩

/-! ### Publication -/

/-- Nothing waits and nothing is being delivered in a world with a property, and its handlers
live. -/
structure Resting (hall : Hall ω τ ε η) (P : ω → Prop) (w : ω) : Prop where
  property : P w
  idle : (hall.bus w).Idle
  live : (hall.bus w).Live

/-- What comes of an event that is published while nothing waits: the queue is empty in the end, or
the handlers have published as many events as would be delivered. -/
theorem Resting.publish_cases (hcivil : hall.Civil P) (hw : hall.Resting P w) (e : ε)
    (patience : Nat) :
    ∃ ds w', hall.Dispatched w ds w' ∧ Dispatch.InOrder [e] ds ∧
      (hall.publish patience e w = some w' ∧
          ds.map Dispatch.event = e :: ds.flatMap Dispatch.published ∧ hall.Resting P w' ∨
        hall.publish patience e w = none ∧
          patience ≤ (ds.flatMap Dispatch.published).length) := by
  obtain ⟨hpending, hdelivering⟩ := hw.idle
  let begin : Bus τ ε η → Bus τ ε η := fun b => { b.enqueue e with delivering := true }
  let finish : Bus τ ε η → Bus τ ε η := fun b => { b with delivering := false }
  have hbegin : hall.Delivering P (hall.modifyBus begin w) := by
    refine ⟨hcivil.setBus _ _ hw.property, by rw [hcivil.bus_modifyBus], ?_⟩
    rw [hcivil.bus_modifyBus]
    exact hw.live
  have hpublish : hall.publish patience e w =
      (hall.drain patience (hall.modifyBus begin w)).map (hall.modifyBus finish) := by
    simp [publish, enqueue, modifyBus, hcivil.bus_setBus, hcivil.setBus_setBus, Bus.enqueue,
      hdelivering, begin, finish]
  have hwaiting : (hall.bus (hall.modifyBus begin w)).pending = [e] := by
    rw [hcivil.bus_modifyBus]
    simp [begin, Bus.enqueue, hpending]
  obtain ⟨ds, w', hdispatched, hw', horder, hqueue, hresult⟩ := hbegin.drain hcivil patience
  rw [hwaiting] at horder hqueue
  have hdispatched := hdispatched.of_same hcivil.toLawful (.modifyBus begin w rfl rfl)
  rcases hresult with ⟨hsome, hempty⟩ | ⟨hnone, hlength, hne⟩
  · refine ⟨ds, hall.modifyBus finish w',
      hdispatched.same hcivil.toLawful (.modifyBus finish w' rfl rfl), horder,
      .inl ⟨by rw [hpublish, hsome, Option.map_some], ?_, hcivil.setBus _ _ hw'.property, ?_, ?_⟩⟩
    · rwa [hempty, List.append_nil] at hqueue
    · rw [hcivil.bus_modifyBus]
      exact ⟨hempty, rfl⟩
    · rw [hcivil.bus_modifyBus]
      exact hw'.live
  · -- Something still waits, so that more has been published than dispatched, but for one event.
    refine ⟨ds, w', hdispatched, horder, .inr ⟨by rw [hpublish, hnone, Option.map_none], ?_⟩⟩
    have hcount := congrArg List.length hqueue
    have hmore := List.length_pos_iff.mpr hne
    simp only [List.length_append, List.length_map, List.length_cons, List.length_nil] at hcount
    omega

/-- An event is published while nothing waits. The handlers live; each of them may publish further
events, register and remove handlers, and fail part of the way. There is only an end to what they
publish. Then the event and all that are published meanwhile are dispatched, one after the other in
the order of their publication, each to the handlers that are registered for its topic when its
dispatch begins; and nothing waits in the end. -/
theorem publish_delivers (hcivil : hall.Civil P) (hw : hall.Resting P w) {e : ε} {bound : Nat}
    (hbound : ∀ ds w', hall.Dispatched w ds w' → Dispatch.InOrder [e] ds →
      (ds.flatMap Dispatch.published).length ≤ bound) {patience : Nat}
    (hpatience : bound < patience) :
    ∃ ds w', hall.publish patience e w = some w' ∧ hall.Dispatched w ds w' ∧
      Dispatch.InOrder [e] ds ∧
      ds.map Dispatch.event = e :: ds.flatMap Dispatch.published ∧ hall.Resting P w' := by
  obtain ⟨ds, w', hdispatched, horder, ⟨hsome, hall, hw'⟩ | ⟨-, hmany⟩⟩ :=
    hw.publish_cases hcivil e patience
  · exact ⟨ds, w', hsome, hdispatched, horder, hall, hw'⟩
  · have hfew := hbound ds w' hdispatched horder
    omega

end Hall

namespace Scenario

/-- A guest who answers a greeting, registers the host for answers and stumbles; a host who greets
again and sends the guest away; and a friend who closes the list of those who are greeted. -/
def party : World :=
  { bus :=
      { owned := ["guest", "host", "friend"]
        registrations := [⟨.nodeEntered, "guest", true⟩, ⟨.nodeEntered, "host", true⟩,
          ⟨.musicStarted, "friend", false⟩] }
    roles := [
      ("guest", ⟨2, [.publish ⟨.musicStarted, []⟩, .subscribe .musicStarted "host" true,
        .fail "stumbled", .clear none]⟩),
      ("host", ⟨1, [.publish ⟨.nodeEntered, []⟩, .unsubscribe .nodeEntered "guest"]⟩),
      ("friend", ⟨1, [.clear (some .nodeEntered)]⟩)] }

theorem resting_party : hall.Resting (fun w => Loyal w.roles) party where
  property := by simp [party, Loyal, Action.IsLoyal]
  idle := ⟨rfl, rfl⟩
  live := by
    intro r hr _
    simp only [hall, party, List.mem_cons, List.not_mem_nil, or_false] at hr ⊢
    rcases hr with rfl | rfl | rfl <;> simp

end Scenario

open Scenario in
theorem Hall.publish_delivers_party : ∃ ds w',
    hall.publish 12 ⟨.nodeEntered, []⟩ party = some w' ∧ hall.Dispatched party ds w' ∧
      Dispatch.InOrder [⟨.nodeEntered, []⟩] ds ∧
      ds.map Dispatch.event = ⟨.nodeEntered, []⟩ :: ds.flatMap Dispatch.published ∧
      hall.Resting (fun w => Loyal w.roles) w' :=
  Hall.publish_delivers civil resting_party
    (fun _ _ h _ => published_le_budget h resting_party.property) (by decide)

namespace Scenario

variable {w : World}

/-- The handlers of a scenario come to an end. -/
theorem publish_ends (hw : hall.Resting (fun w => Loyal w.roles) w) (m : Message) {patience : Nat}
    (hpatience : budget w.roles < patience) :
    ∃ ds w', publish patience m w = .ok () w' ∧ hall.Dispatched w ds w' ∧
      Dispatch.InOrder [m] ds ∧
      ds.map Dispatch.event = m :: ds.flatMap Dispatch.published ∧
      hall.Resting (fun w => Loyal w.roles) w' := by
  obtain ⟨ds, w', hdispatched, horder, ⟨hsome, hall, hw'⟩ | ⟨-, hmany⟩⟩ :=
    hw.publish_cases civil m patience
  · refine ⟨ds, w', ?_, hdispatched, horder, hall, hw'⟩
    rw [publish, get_bind_apply, hsome]
    rfl
  · have hfew := published_le_budget hdispatched hw.property
    omega

/-- The answer is heard by the host as well, who was registered while it waited; the second greeting
finds that the list has been closed. -/
example : ((hall.publish 12 ⟨.nodeEntered, []⟩ party).map fun w =>
    w.notes.map fun n => (n.1, n.2.topic)) =
    some [("guest", .nodeEntered), ("host", .nodeEntered), ("friend", .musicStarted),
      ("host", .musicStarted)] := by decide

end Scenario

end VisualNovel
