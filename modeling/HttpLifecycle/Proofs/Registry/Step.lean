import HttpLifecycle.Proofs.Connection.Outcome
import HttpLifecycle.Proofs.Connection.Transcript
import HttpLifecycle.Registry

namespace HttpLifecycle

theorem Connection.Coherent.halted_iff {c : Connection} (h : c.Coherent) :
    c.halted = true ↔ c.tornDown = true := by
  have hset : (!c.tornDown && c.drain.phase == .wait && c.drain.deadline.isNone) = false := by
    rw [← Option.not_isSome]
    cases hd : c.drain.deadline.isSome with
    | true => exact Bool.and_false _
    | false =>
        have hidle := mt h.deadline.mpr (Bool.eq_false_iff.mp hd)
        simpa using not_and.mp hidle
  rw [halted, hset, Bool.or_false, beq_iff_eq, h.closed_iff]

namespace Registry.Member

/-- What the task of a connection may do next, and what stays queued: take the
event that has waited longest, find that no more can come, or wake up for a
timer. -/
inductive Due (m : Member) : Connection.Call → List Connection.Event → Prop
  | event (e : Connection.Event) (rest : List Connection.Event) (now : Instant)
      (h : m.queue = e :: rest) : Due m ⟨.event e, now⟩ rest
  | gone (now : Instant) (h : m.queue = []) (hnone : m.handles = 0) :
      Due m ⟨.event (.lifecycle .removed), now⟩ m.queue
  | timer (d now : Instant) (h : m.connection.nextDeadline = some d) (hle : d.tick ≤ now) :
      Due m ⟨.timers, now⟩ m.queue

inductive Influence where
  | event (e : Connection.Event)
  | detach

/-- All that can happen to one connection of a server, one thing at a time. The
predicate tells what others may do to it. -/
inductive Step (T : Influence → Prop) (m : Member) : Member → Prop
  | enqueue (e : Connection.Event) (h : T (.event e)) (hlive : m.finished = false) :
      Step T m { m with queue := m.queue ++ [e] }
  | clone (h : 0 < m.handles) : Step T m { m with handles := m.handles + 1 }
  | drop (h : 0 < m.handles) : Step T m { m with handles := m.handles - 1 }
  | detach (h : T .detach) : Step T m { m with attached := false }
  | closing : Step T m { m with connection := { m.connection with serverClosing := true } }
  | serve (stream : StreamId) (demand : Demand) (allowance : Option Nat) (now : Instant) :
      Step T m
        ({ m with connection := (m.connection.serve stream demand allowance).1 }.stamp now)
  | turn {x : Connection.Call} {queue : List Connection.Event} (h : m.Due x queue)
      (hlive : m.finished = false) :
      Step T m ({ m with queue := queue }.turn x.now fun c => c.after x)

def Steps (T : Influence → Prop) : Member → Member → Prop := Relation.ReflTransGen (Step T)

variable {T : Influence → Prop} {m n : Member} {now target : Instant}

namespace Steps

theorem refl (m : Member) : Steps T m m := Relation.ReflTransGen.refl

theorem of (s : Step T m n) : Steps T m n := Relation.ReflTransGen.single s

theorem trans {o : Member} (s : Steps T m n) (t : Steps T n o) : Steps T m o :=
  Relation.ReflTransGen.trans s t

theorem keep {P : Member → Prop} (hP : ∀ {m n}, P m → Step T m n → P n) (h : P m)
    (s : Steps T m n) : P n := by
  induction s with
  | refl => exact h
  | tail _ s ih => exact hP ih s

end Steps

def stamped (attached : Bool) (now : Instant) (es : List Effect) : List (Instant × Effect) :=
  (es.filter fun
    | .sink _ => attached
    | _ => true).map fun e => (now, e)

theorem stamp_eq (m : Member) (now : Instant) :
    m.stamp now =
      { m with
        connection := { m.connection with journal := [] }
        history := m.history ++ stamped m.attached now m.connection.journal } := rfl

theorem turn_eq (m : Member) (now : Instant) (f : Connection → Connection) :
    m.turn now f =
      { m with
        connection := { f m.connection with journal := [] }
        finished := m.finished || (f m.connection).halted
        queue := if (f m.connection).halted then [] else m.queue
        history := m.history ++ stamped m.attached now (f m.connection).journal } := by
  rw [turn, stamp_eq]
  have hstamped : ({ f m.connection with journal := [] } : Connection).halted =
      (f m.connection).halted := rfl
  cases hs : (f m.connection).halted <;> simp [hstamped, hs]

theorem steps_drainQueue (m : Member) (now : Instant) (es : List Connection.Event)
    (hlive : m.finished = false) :
    Steps T { m with queue := es } (m.drainQueue now es) := by
  induction es generalizing m with
  | nil => exact .refl _
  | cons e rest ih =>
      have hturn : Step T { m with queue := e :: rest }
          ({ m with queue := rest }.turn now fun c => (c.handle e now).1) :=
        .turn (.event e rest now rfl) hlive
      rw [drainQueue]
      by_cases hs : (m.connection.handle e now).1.halted = true
      · have hend : (m.turn now fun c => (c.handle e now).1).finished = true := by
          simp [turn_eq, hs]
        have hsame : { m with queue := rest }.turn now (fun c => (c.handle e now).1) =
            m.turn now fun c => (c.handle e now).1 := by
          simp [turn_eq, hs]
        rw [if_pos hend, ← hsame]
        exact .of hturn
      · have hlive' : (m.turn now fun c => (c.handle e now).1).finished = false := by
          simp [turn_eq, hs, hlive]
        have hsame : { m with queue := rest }.turn now (fun c => (c.handle e now).1) =
            { m.turn now (fun c => (c.handle e now).1) with queue := rest } := by
          simp [turn_eq, hs]
        rw [if_neg (by simp [hlive'])]
        rw [hsame] at hturn
        exact (Steps.of hturn).trans (ih _ hlive')

theorem drainQueue_queue (m : Member) (now : Instant) (es : List Connection.Event)
    (hlive : m.finished = false) : (m.drainQueue now es).queue = [] := by
  induction es generalizing m with
  | nil => rfl
  | cons e rest ih =>
      rw [drainQueue]
      by_cases hs : (m.connection.handle e now).1.halted = true
      · rw [if_pos (by simp [turn_eq, hs])]
        simp [turn_eq, hs]
      · have hlive' : (m.turn now fun c => (c.handle e now).1).finished = false := by
          simp [turn_eq, hs, hlive]
        rw [if_neg (by simp [hlive'])]
        exact ih _ hlive'

theorem steps_release (m : Member) (now : Instant) (hqueue : m.queue = []) :
    Steps T m (m.release now) := by
  rw [release]
  split
  · rename_i hgone
    obtain ⟨hlive, hnone⟩ : m.finished = false ∧ m.handles = 0 := by simpa [live] using hgone
    exact .of (.turn (.gone now hqueue hnone) hlive)
  · exact .refl m

theorem steps_fireTimers (m : Member) (turns : Nat) :
    Steps T m (m.fireTimers now target turns) := by
  induction turns generalizing m now with
  | zero => exact .refl m
  | succ turns ih =>
      rw [fireTimers]
      split
      · exact .refl m
      · split
        · exact .refl m
        · rename_i hlive _ d hd
          simp only
          split
          · have hwake :
                Step T m (m.turn (max now d.tick) fun c => c.pollTimers (max now d.tick)) :=
              .turn (.timer d _ hd (Nat.le_max_right ..)) (by simpa using hlive)
            exact (Steps.of hwake).trans (ih _)
          · exact .refl m

theorem steps_run (m : Member) (now target : Instant) : Steps T m (m.run now target) := by
  rw [run]
  split
  · exact .refl m
  · rename_i hlive
    have hdrained := steps_drainQueue (T := T) m now m.queue (by simpa using hlive)
    have hreleased :=
      steps_release (T := T) _ now (drainQueue_queue m now m.queue (by simpa using hlive))
    exact (hdrained.trans hreleased).trans (steps_fireTimers _ _)

theorem stamped_effects (attached : Bool) (now : Instant) (es : List Effect) :
    (stamped attached now es).map (·.2) = es.filter fun
      | .sink _ => attached
      | _ => true := by
  rw [stamped, List.map_map]
  exact List.map_id _

theorem commandsOf_stamped (attached : Bool) (now : Instant) (es : List Effect) :
    commandsOf ((stamped attached now es).map (·.2)) = if attached then commandsOf es else [] := by
  rw [stamped_effects, commandsOf, List.filterMap_filter]
  cases attached with
  | true =>
      refine congrArg (List.filterMap · es) (funext fun e => ?_)
      cases e <;> rfl
  | false => exact List.filterMap_eq_nil_iff.mpr fun e _ => by cases e <;> rfl

/-- How often the transport was told to close, as far as it listened. -/
def closes (m : Member) : Nat := (commandsOf (m.history.map (·.2))).count .close

/-- The record of a connection goes with the state it is in. -/
structure Sound (m : Member) : Prop where
  coherent : m.connection.Coherent
  distinct : m.connection.Distinct
  clean : m.connection.journal = []
  ended : m.finished = m.connection.tornDown
  once : m.closes ≤ if m.connection.drain.phase = .closed then 1 else 0
  heard : m.attached = true → m.closes = if m.connection.drain.phase = .closed then 1 else 0

theorem Sound.after (h : Sound m) (x : Connection.Call) (finished : Bool)
    (queue : List Connection.Event) (now : Instant)
    (hended : finished = (m.connection.after x).tornDown) :
    Sound { m with
      connection := { m.connection.after x with journal := [] }
      finished := finished
      queue := queue
      history := m.history ++ stamped m.attached now (m.connection.after x).journal } := by
  have hcoh := Connection.invariant_coherent.after h.coherent h.coherent x
  have hgoes (n : Nat) (hn : n = if m.connection.drain.phase = .closed then 1 else 0) :
      (m.connection.after x).closes + n =
        if (m.connection.after x).drain.phase = .closed then 1 else 0 := by
    refine (Connection.invariant_closes n).after h.coherent ?_ x
    rw [Connection.closes, Connection.commands, h.clean, ← hn]
    exact Nat.zero_add n
  have hcount : (commandsOf ((m.history ++ stamped m.attached now
      (m.connection.after x).journal).map (·.2))).count .close =
      m.closes + if m.attached then (m.connection.after x).closes else 0 := by
    rw [List.map_append, commandsOf_append, List.count_append, commandsOf_stamped]
    cases m.attached <;> rfl
  refine ⟨{ hcoh with }, Connection.after_distinct h.distinct x, rfl, hended, ?_,
    fun hattached => ?_⟩
  · show (commandsOf _).count .close ≤ _
    have honce := h.once
    have hphase := hgoes _ rfl
    rw [hcount]
    cases hattached : m.attached with
    | true =>
        simp only [if_true]
        omega
    | false =>
        simp only [Bool.false_eq_true, if_false]
        omega
  · show (commandsOf _).count .close = _
    have hphase := hgoes _ (h.heard hattached)
    rw [hcount, if_pos hattached, Nat.add_comm]
    exact hphase

theorem Sound.left_eq (h : Sound m) : m.left = !m.live := by
  rw [live, Bool.not_not, h.ended, left]
  exact Bool.eq_iff_iff.mpr (by simpa using h.coherent.closed_iff)

theorem Step.sound (h : Sound m) (s : Step T m n) : Sound n := by
  cases s with
  | enqueue e he hlive => exact { h with }
  | clone hh => exact { h with }
  | drop hh => exact { h with }
  | detach hcut => exact { h with heard := fun hattached => by contradiction }
  | closing => exact ⟨{ h.coherent with }, h.distinct, h.clean, h.ended, h.once, h.heard⟩
  | serve stream demand allowance now =>
      rw [stamp_eq]
      refine h.after ⟨.serve stream demand allowance, now⟩ m.finished m.queue now ?_
      rw [h.ended]
      exact (Connection.StreamSteps.serve (R := fun _ _ => True) (b := true) stream demand
        allowance).attached.symm
  | turn hdue hlive =>
      rename_i x queue
      rw [turn_eq]
      refine h.after x _ _ x.now ?_
      show (m.finished || (m.connection.after x).halted) = _
      have hcoh := Connection.invariant_coherent.after h.coherent h.coherent x
      rw [hlive, Bool.false_or]
      exact Bool.eq_iff_iff.mpr hcoh.halted_iff

theorem Steps.sound (h : Sound m) (s : Steps T m n) : Sound n := s.keep Step.sound h

theorem Step.id_eq (h : Sound m) (s : Step T m n) : n.id = m.id := by
  cases s with
  | turn hdue hlive =>
      rename_i x queue
      rw [turn_eq]
      exact (Connection.invariant_id m.id).after h.coherent rfl x
  | serve stream demand allowance now =>
      exact (Connection.invariant_id m.id).after h.coherent rfl
        ⟨.serve stream demand allowance, now⟩
  | enqueue | clone | drop | detach | closing => rfl

theorem Step.live (s : Step T m n) (h : n.live = true) : m.live = true := by
  cases s with
  | turn hdue hlive => simp [Member.live, hlive]
  | enqueue | clone | drop | detach | closing | serve => exact h

theorem Steps.live (s : Steps T m n) (h : n.live = true) : m.live = true := by
  induction s with
  | refl => exact h
  | tail _ s ih => exact ih (s.live h)

theorem Steps.id_eq (h : Sound m) (s : Steps T m n) : n.id = m.id := by
  induction s with
  | refl => rfl
  | tail t s ih => exact (s.id_eq (Steps.sound h t)).trans ih

end Registry.Member

end HttpLifecycle
