import VisualNovel.Event.Scenario
import VisualNovel.Proofs.Event.Conduct

/-!
# Scripted handlers

The handlers of a scenario do nothing with the bus but what can be done with it, and each time they
act they use up a part of what they can do at all. So however they call for each other, there is an
end to the events that they publish.

## Main definitions

* `Scenario.outcome`: the world that something done leaves behind, well or not;
* `Scenario.Loyal`: no owner ever lets go of a handler;
* `Scenario.budget`: how many actions all handlers can still do.

## Main results

* `Scenario.civil`: the hall of a scenario is civil;
* `Scenario.published_le_budget`: what is published in any number of dispatches is paid for.
-/

namespace VisualNovel.Scenario

open Hall

variable {α β : Type} {w : World}

/-- The world that something done leaves behind, well or not. -/
def outcome (x : Doing α) (w : World) : World :=
  match x w with
  | .ok _ w' => w'
  | .error _ w' => w'

theorem outcome_bind (x : Doing α) (f : α → Doing β) (w : World) :
    outcome (x >>= f) w =
      match x w with
      | .ok a w' => outcome (f a) w'
      | .error _ w' => w' := by
  unfold outcome
  show (match EStateM.bind x f w with | .ok _ w' => w' | .error _ w' => w') = _
  unfold EStateM.bind
  cases x w <;> rfl

/-- What is done with the world as it is. -/
theorem get_bind_apply (f : World → Doing α) (w : World) : (get >>= f) w = f w w := rfl

theorem lawful : hall.Lawful := ⟨fun _ _ => rfl, fun _ => rfl, fun _ _ _ => rfl⟩

/-- The action leaves handlers with their owners. -/
def Action.IsLoyal : Action → Prop
  | .drop _ => False
  | _ => True

/-- No owner ever lets go of a handler. -/
def Loyal (roles : List (String × Role)) : Prop := ∀ e ∈ roles, ∀ a ∈ e.2.actions, a.IsLoyal

/-- How many actions a handler can still do. -/
def Role.budget (r : Role) : Nat := r.times * r.actions.length

/-- How many actions all handlers can still do. -/
def budget : List (String × Role) → Nat
  | [] => 0
  | e :: roles => e.2.budget + budget roles

/-! ### Actions -/

/-- Something that is done for a handler is done only if its owner holds it. -/
theorem outcome_owned (handler : String) (f : String → Doing α) (w : World) :
    outcome (owned handler >>= f) w =
      if handler ∈ w.bus.owned then outcome (f handler) w else w := by
  by_cases h : handler ∈ w.bus.owned
  · have howned : owned handler w = .ok handler w := by
      show (if w.bus.owned.contains handler then pure handler
        else throw (Failure.unknownKey handler) : Doing String) w = _
      rw [if_pos (List.contains_iff_mem.mpr h)]
      rfl
    rw [outcome_bind, howned, if_pos h]
  · have howned : owned handler w = .error (.unknownKey handler) w := by
      show (if w.bus.owned.contains handler then pure handler
        else throw (Failure.unknownKey handler) : Doing String) w = _
      rw [if_neg (mt List.contains_iff_mem.mp h)]
      rfl
    rw [outcome_bind, howned, if_neg h]

/-- What is sent is added to the queue or refused. -/
theorem outcome_send (m : Message) (w : World) :
    outcome (send enqueue m) w = w ∨ outcome (send enqueue m) w = hall.enqueue m w := by
  unfold send
  split
  · exact .inl rfl
  · exact .inr rfl

/-- An action adds one message at most to the queue, or changes the registrations. -/
theorem Action.outcome_run {a : Action} (ha : a.IsLoyal) (w : World) :
    outcome (a.run enqueue) w = w ∨ (∃ m, outcome (a.run enqueue) w = hall.enqueue m w) ∨
      ∃ f, outcome (a.run enqueue) w = hall.modifyBus f w ∧
        hall.Conduct w [] (hall.modifyBus f w) := by
  cases a with
  | subscribe topic handler weak =>
    rw [Action.run, outcome_owned]
    split
    next h => exact .inr (.inr ⟨_, rfl, .subscribe (fun _ => h) (.rest _)⟩)
    next h => exact .inl rfl
  | unsubscribe topic handler =>
    rw [Action.run, outcome_owned]
    split
    next h => exact .inr (.inr ⟨_, rfl, .unsubscribe topic handler (.rest _)⟩)
    next h => exact .inl rfl
  | drop handler => exact absurd ha id
  | clear topic =>
    cases topic with
    | some topic => exact .inr (.inr ⟨_, rfl, .clear topic (.rest _)⟩)
    | none => exact .inr (.inr ⟨_, rfl, .clearAll (.rest _)⟩)
  | has topic => exact .inl rfl
  | publish m =>
    have hrun : outcome ((Action.publish m).run enqueue) w = outcome (send enqueue m) w := by
      rw [Action.run, outcome_bind, outcome]
      cases send enqueue m w <;> rfl
    rw [hrun]
    exact (outcome_send m w).imp id fun h => .inl ⟨m, h⟩
  | publishAndGet m key =>
    have hrun : outcome ((Action.publishAndGet m key).run enqueue) w =
        outcome (send enqueue m) w := by
      rw [Action.run, outcome_bind, outcome]
      cases send enqueue m w with
      | error f w' => rfl
      | ok u w' =>
        -- The look-up may fail, but the message has been sent by then.
        cases Json.member? key m.data <;> rfl
    rw [hrun]
    exact (outcome_send m w).imp id fun h => .inl ⟨m, h⟩
  | fail message => exact .inl rfl

/-- During a delivery actions do what can be done with a bus. They publish at most one event each,
and leave the roles alone. -/
theorem conduct_runAll {actions : List Action} (hloyal : ∀ a ∈ actions, a.IsLoyal)
    (hdelivering : w.bus.delivering) :
    ∃ es, es.length ≤ actions.length ∧ hall.Conduct w es (outcome (runAll enqueue actions) w) ∧
      (outcome (runAll enqueue actions) w).roles = w.roles := by
  induction actions generalizing w with
  | nil => exact ⟨[], by simp, .rest w, rfl⟩
  | cons a actions ih =>
    obtain ⟨ha, hrest⟩ := List.forall_mem_cons.mp hloyal
    obtain ⟨es, hlength, hconduct, hroles⟩ : ∃ es, es.length ≤ 1 ∧
        hall.Conduct w es (outcome (a.run enqueue) w) ∧
        (outcome (a.run enqueue) w).roles = w.roles := by
      rcases Action.outcome_run ha w with h | ⟨m, h⟩ | ⟨f, h, hconduct⟩ <;> rw [h]
      · exact ⟨[], by simp, .rest w, rfl⟩
      · exact ⟨[m], by simp, .publish (lawful.publish_of_delivering 0 m hdelivering) (.rest _), rfl⟩
      · exact ⟨[], by simp, hconduct, rfl⟩
    have hstill : (outcome (a.run enqueue) w).bus.delivering :=
      (hconduct.continues lawful hdelivering).delivering.trans hdelivering
    rw [runAll, outcome_bind]
    unfold outcome at hlength hconduct hroles hstill
    -- An action that fails ends the reaction.
    cases hrun : a.run enqueue w with
    | error f w' =>
      rw [hrun] at hconduct hroles
      exact ⟨es, Nat.le_trans hlength (by simp), hconduct, hroles⟩
    | ok answer w' =>
      rw [hrun] at hconduct hroles hstill
      obtain ⟨es', hlength', hconduct', hroles'⟩ := ih hrest hstill
      refine ⟨es ++ es', ?_, hconduct.trans hconduct', hroles'.trans hroles⟩
      rw [List.length_append, List.length_cons]
      omega

/-! ### Reactions -/

theorem Role.budget_spend {r : Role} (h : 0 < r.times) :
    r.actions.length + r.spend.budget = r.budget := by
  unfold budget spend
  rw [Nat.add_comm, Nat.sub_mul, Nat.one_mul]
  exact Nat.sub_add_cancel (Nat.le_mul_of_pos_left _ h)

theorem Role.budget_spend_le (r : Role) : r.spend.budget ≤ r.budget :=
  Nat.mul_le_mul_right _ (Nat.sub_le _ _)

/-- The handlers of one name have one time less to act. -/
def spent (name : String) (roles : List (String × Role)) : List (String × Role) :=
  roles.map fun e => if e.1 = name then (e.1, e.2.spend) else e

variable {roles : List (String × Role)} {name : String} {role : Role}

theorem Loyal.spent (h : Loyal roles) (name : String) : Loyal (spent name roles) := by
  intro e he
  obtain ⟨e', he', rfl⟩ := List.mem_map.mp he
  split
  · exact h e' he'
  · exact h e' he'

theorem budget_spent_le (name : String) (roles : List (String × Role)) :
    budget (spent name roles) ≤ budget roles := by
  induction roles with
  | nil => simp [spent, budget]
  | cons e roles ih =>
    have he : (if e.1 = name then (e.1, e.2.spend) else e).2.budget ≤ e.2.budget := by
      split
      · exact e.2.budget_spend_le
      · exact Nat.le_refl _
    simp only [spent, budget, List.map_cons] at ih ⊢
    omega

/-- What a handler does when it acts is taken from its budget. -/
theorem budget_spent (h : roles.lookup name = some role) (htimes : 0 < role.times) :
    role.actions.length + budget (spent name roles) ≤ budget roles := by
  induction roles with
  | nil => simp at h
  | cons e roles ih =>
    obtain ⟨n, r⟩ := e
    by_cases hn : n = name
    · subst hn
      rw [List.lookup_cons_self, Option.some.injEq] at h
      subst h
      have hspend := Role.budget_spend htimes
      have hrest := budget_spent_le n roles
      simp only [spent, budget, List.map_cons, if_pos] at hrest ⊢
      omega
    · have hne : (name == n) = false := beq_false_of_ne (Ne.symm hn)
      rw [List.lookup_cons, hne] at h
      have hrest := ih h
      simp only [spent, budget, List.map_cons, if_neg hn] at hrest ⊢
      omega

/-- A handler has got a message. -/
def World.noted (name : String) (m : Message) (w : World) : World :=
  { w with notes := w.notes ++ [(name, m)] }

/-- A reaction is a note, and what the handler does in its role if it has some times left. -/
theorem outcome_react (name : String) (m : Message) (w : World) :
    outcome (react name m) w = w.noted name m ∨
      ∃ role, w.roles.lookup name = some role ∧ 0 < role.times ∧
        outcome (react name m) w = outcome (runAll enqueue role.actions)
          { w.noted name m with roles := spent name w.roles } := by
  generalize hreact : outcome (react name m) w = w'
  unfold react at hreact
  rw [outcome_bind] at hreact
  change outcome (get >>= _) (w.noted name m) = w' at hreact
  rw [outcome, get_bind_apply, ← outcome] at hreact
  split at hreact
  next => exact .inl hreact.symm
  next role hrole =>
    split at hreact
    next htimes => exact .inr ⟨role, hrole, htimes, hreact.symm⟩
    next => exact .inl hreact.symm

/-- Whatever is not the bus changes beside it. -/
theorem conduct_beside (w₁ : World) {w' : World} {es : List Message} (h : w₁.bus = w.bus)
    (next : hall.Conduct w₁ es w') : hall.Conduct w es w' := .aside h next

/-- A handler that is called does what can be done with a bus, and pays for it. -/
theorem conduct_call (hloyal : Loyal w.roles) (hdelivering : w.bus.delivering) (name : String)
    (m : Message) :
    ∃ es, hall.Conduct w es (call name m w) ∧ Loyal (call name m w).roles ∧
      es.length + budget (call name m w).roles ≤ budget w.roles := by
  obtain ⟨es, hconduct, hloyal', hbudget⟩ : ∃ es, hall.Conduct w es (outcome (react name m) w) ∧
      Loyal (outcome (react name m) w).roles ∧
      es.length + budget (outcome (react name m) w).roles ≤ budget w.roles := by
    rcases outcome_react name m w with h | ⟨role, hrole, htimes, h⟩ <;> rw [h]
    · exact ⟨[], conduct_beside (w.noted name m) rfl (.rest _), hloyal, by simp [World.noted]⟩
    · have hactions : ∀ a ∈ role.actions, a.IsLoyal := by
        obtain ⟨front, back, hroles, -⟩ := List.lookup_eq_some_iff.mp hrole
        exact hloyal (name, role) (by simp [hroles])
      let paid : World := { w.noted name m with roles := spent name w.roles }
      obtain ⟨es, hlength, hconduct, hroles⟩ := conduct_runAll (w := paid) hactions hdelivering
      rw [hroles]
      have hspent := budget_spent hrole htimes
      exact ⟨es, conduct_beside paid rfl hconduct, hloyal.spent name, by simp only [paid]; omega⟩
  -- A failure is remarked beside the bus.
  unfold call
  unfold outcome at hconduct hloyal' hbudget
  cases hreact : react name m w with
  | ok u w' =>
    rw [hreact] at hconduct hloyal' hbudget
    exact ⟨es, hconduct, hloyal', hbudget⟩
  | error f w' =>
    rw [hreact] at hconduct hloyal' hbudget
    let remarked : World := { w' with remarks := w'.remarks ++ [m.topic.handlerFailed] }
    refine ⟨es, ?_, hloyal', hbudget⟩
    simpa using hconduct.trans (conduct_beside remarked rfl (.rest remarked))

/-- The handlers of a scenario do nothing with the bus but what can be done with it, as long as
owners do not let go of handlers. -/
theorem civil : hall.Civil fun w => Loyal w.roles where
  toLawful := lawful
  setBus _ _ h := h
  call name m _ hloyal hdelivering := by
    obtain ⟨es, hconduct, hloyal', -⟩ := conduct_call hloyal hdelivering name m
    exact ⟨hloyal', es, hconduct⟩

/-! ### Dispatches -/

variable {w' : World}

theorem budget_of_called {m : Message} {handlers : List String} {es : List Message}
    (h : hall.Called m w handlers es w') (hloyal : Loyal w.roles) :
    Loyal w'.roles ∧ es.length + budget w'.roles ≤ budget w.roles := by
  induction h with
  | nil hsame =>
    obtain ⟨b, rfl, -⟩ := hsame
    exact ⟨hloyal, by simp [hall]⟩
  | @cons w w₁ w' handler handlers es es' hsame hdelivering hconduct _ ih =>
    obtain ⟨b, rfl, -⟩ := hsame
    obtain ⟨es₁, hconduct', hloyal', hbudget⟩ :=
      conduct_call (w := hall.setBus b w) hloyal hdelivering handler m
    -- How the queue has grown tells what has been published.
    have hes : es = es₁ := List.append_cancel_left <|
      (hconduct.continues lawful hdelivering).pending.symm.trans
        (hconduct'.continues lawful hdelivering).pending
    subst hes
    obtain ⟨hloyal'', hbudget'⟩ := ih hloyal'
    refine ⟨hloyal'', ?_⟩
    have hsame : budget (hall.setBus b w).roles = budget w.roles := rfl
    have hcall : budget (hall.call handler m (hall.setBus b w)).roles =
      budget (call handler m (hall.setBus b w)).roles := rfl
    rw [List.length_append]
    omega

/-- What is published in dispatches is paid for. -/
theorem published_le_budget {ds : List (Dispatch Message String)}
    (h : hall.Dispatched w ds w') (hloyal : Loyal w.roles) :
    (ds.flatMap Dispatch.published).length ≤ budget w.roles := by
  induction h with
  | nil _ => exact Nat.zero_le _
  | cons _ hcalled _ ih =>
    obtain ⟨hloyal', hbudget⟩ := budget_of_called hcalled hloyal
    have hrest := ih hloyal'
    rw [List.flatMap_cons, List.length_append]
    omega

end VisualNovel.Scenario
