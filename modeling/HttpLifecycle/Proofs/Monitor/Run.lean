import HttpLifecycle.Proofs.Monitor.Step
import Mathlib.Data.List.Induction

namespace HttpLifecycle.Monitor

/-- What is asked of a monitor. A new stream comes without a time. -/
inductive Call where
  | arm (now : Instant)
  | activity (now : Instant) (frame : Frame)
  | openStream
  | ack (payload : Nat) (now : Instant)
  | poll (now : Instant)
  | verdict (now : Instant)
  | needsDisconnection (now : Instant)
  | isUnhealthy (now : Instant)
  | destroy (now : Instant)
  deriving DecidableEq, Repr

namespace Call

def now? : Call → Option Instant
  | .openStream => none
  | .arm now | .activity now _ | .ack _ now | .poll now | .verdict now
  | .needsDisconnection now | .isUnhealthy now | .destroy now => some now

def look? : Call → Option Instant
  | .poll now | .verdict now | .needsDisconnection now | .isUnhealthy now => some now
  | _ => none

end Call

def after (m : Monitor) : Call → Monitor
  | .arm now => (m.arm now).state
  | .activity now frame => m.activity now frame
  | .openStream => m.openStream.state
  | .ack payload now => (m.ack payload now).state
  | .poll now => (m.poll now).state
  | .verdict now => (m.verdict now).state
  | .needsDisconnection now => (m.needsDisconnection now).state
  | .isUnhealthy now => (m.isUnhealthy now).state
  | .destroy now => (m.destroy now).state

def run (m : Monitor) (xs : List Call) : Monitor := xs.foldl after m

def fresh (k : KeepAlive) : Monitor := { limits := k }

theorem fresh_limits (k : KeepAlive) : (fresh k).limits = k := rfl

/-- The clock is not set back between calls. -/
def Ordered (xs : List Call) : Prop := (xs.filterMap Call.now?).Pairwise (· ≤ ·)

instance (xs : List Call) : Decidable (Ordered xs) :=
  inferInstanceAs (Decidable (List.Pairwise _ _))

def gather {α : Type} (f : Monitor → Call → List α) : Monitor → List Call → List α
  | _, [] => []
  | m, x :: rest => f m x ++ gather f (m.after x) rest

variable {m n : Monitor} {x : Call} {xs ys : List Call} {v : Verdict} {now : Instant}

theorem run_concat (m : Monitor) (xs : List Call) (x : Call) :
    m.run (xs ++ [x]) = (m.run xs).after x := List.foldl_append

theorem run_append (m : Monitor) (xs ys : List Call) : m.run (xs ++ ys) = (m.run xs).run ys :=
  List.foldl_append

theorem gather_concat {α : Type} (f : Monitor → Call → List α) (m : Monitor) (xs : List Call)
    (x : Call) : gather f m (xs ++ [x]) = gather f m xs ++ f (m.run xs) x := by
  induction xs generalizing m with
  | nil => simp [gather, run]
  | cons y rest ih => simp [gather, ih, run]

theorem Ordered.append (h : Ordered (xs ++ ys)) :
    Ordered xs ∧ ∀ y ∈ xs, ∀ t, y.now? = some t → ∀ x ∈ ys, ∀ now, x.now? = some now → t ≤ now := by
  rw [Ordered, List.filterMap_append, List.pairwise_append] at h
  refine ⟨h.1, fun y hy t ht x hx now hnow => h.2.2 t ?_ now ?_⟩
  · exact List.mem_filterMap.mpr ⟨y, hy, ht⟩
  · exact List.mem_filterMap.mpr ⟨x, hx, hnow⟩

/-- All that a call can do to a monitor. -/
inductive Change (m : Monitor) : Call → Monitor → Prop
  | armed (now : Instant) (hr : (m.arm now).result = true) : Change m (.arm now)
      { m with
        stage := .active
        startedAt := some now
        idleAt := m.limits.idleTimeout?.map (now + ·)
        ageAt := m.limits.maxAge?.map (now + ·)
        pingAt := m.limits.pingInterval?.map (now + ·) }
  | rearmed (now : Instant) : Change m (.arm now) m
  | restarted (now : Instant) (frame : Frame) (ha : m.stage = .active) (pingAt : Option Instant) :
      Change m (.activity now frame)
        { m with
          idleAt := (m.limits.idleTimeout?.map (now + ·)).or m.idleAt
          pingAt := pingAt }
  | overheard (now : Instant) (frame : Frame)
      (h : m.stage = .active → m.latched = none → ¬ m.limits.Counts frame) :
      Change m (.activity now frame) m
  | opened : Change m .openStream m.openStream.state
  | acked (payload : Nat) (now : Instant) (hr : (m.ack payload now).result = true)
      (pingAt : Option Instant) (pingsAcked roundTrips : Nat) : Change m (.ack payload now)
        { m with
          outstanding := none
          pingAt := pingAt
          pingsAcked := pingsAcked
          roundTrips := roundTrips }
  | unexpected (payload : Nat) (now : Instant) (hr : (m.ack payload now).result = false) :
      Change m (.ack payload now) m
  | looked (x : Call) (now : Instant) (hx : x.look? = some now) : Change m x (m.fired now)
  | sent (payload : Nat) (now : Instant) (hr : (m.poll now).result = some payload)
      (nextPayload pingsSent : Nat) :
      Change m (.poll now)
        { m.fired now with
          nextPayload := nextPayload
          pingAt := none
          outstanding := some ⟨payload, now, now + m.limits.patience⟩
          pingsSent := pingsSent }
  | destroyed (now : Instant) : Change m (.destroy now) (m.destroy now).state

theorem arm_change (m : Monitor) (now : Instant) : m.Change (.arm now) (m.arm now).state := by
  by_cases h : m.stage ≠ .dormant ∨ m.isNoop
  · rw [arm, if_pos h]
    exact .rearmed now
  · have hr : (m.arm now).result = true := by rw [arm, if_neg h]
    rw [arm, if_neg h]
    exact .armed now hr

theorem activity_change (m : Monitor) (now : Instant) (frame : Frame) :
    m.Change (.activity now frame) (m.activity now frame) := by
  by_cases hidle : m.stage ≠ .active ∨ m.latched.isSome
  · rw [activity, if_pos hidle]
    refine .overheard now frame fun ha hl => ?_
    simp [ha, hl] at hidle
  · by_cases hping : frame = .ping ∧ !m.limits.onPing
    · rw [activity, if_neg hidle, if_pos hping]
      refine .overheard now frame fun _ _ hcounts => ?_
      simp [hcounts hping.1] at hping
    · rw [activity, if_neg hidle, if_neg hping]
      exact .restarted now frame (by simpa using (not_or.mp hidle).1) _

theorem ack_change (m : Monitor) (payload : Nat) (now : Instant) :
    m.Change (.ack payload now) (m.ack payload now).state := by
  cases ho : m.outstanding with
  | none =>
      have hr : (m.ack payload now).result = false := by simp [ack, ho]
      have hs : (m.ack payload now).state = m := by simp [ack, ho]
      rw [hs]
      exact .unexpected payload now hr
  | some ping =>
      by_cases h : ping.payload = payload ∧ !m.unhealthy
      · have hr : (m.ack payload now).result = true := by simp only [ack, ho, if_pos h]
        have hs := Change.acked payload now hr (m.limits.pingInterval?.map (now + ·))
          (m.pingsAcked + 1) (m.roundTrips + now.since ping.sentAt)
        simpa only [ack, ho, if_pos h] using hs
      · have hr : (m.ack payload now).result = false := by simp only [ack, ho, if_neg h]
        have hs : (m.ack payload now).state = m := by simp only [ack, ho, if_neg h]
        rw [hs]
        exact .unexpected payload now hr

theorem poll_change (m : Monitor) (now : Instant) : m.Change (.poll now) (m.poll now).state := by
  rcases poll_cases m now with ⟨-, hs, -⟩ | ⟨timeout, -, ht, -, hr, hs⟩
  · rw [hs]
    exact .looked (.poll now) now rfl
  · rw [hs, (KeepAlive.pingTimeout?_eq_some ht).2]
    exact .sent m.nextPayload now hr _ _

theorem after_change (m : Monitor) (x : Call) : m.Change x (m.after x) := by
  cases x with
  | arm now => exact arm_change m now
  | activity now frame => exact activity_change m now frame
  | openStream => exact .opened
  | ack payload now => exact ack_change m payload now
  | poll now => exact poll_change m now
  | verdict now | needsDisconnection now | isUnhealthy now => exact .looked _ now rfl
  | destroy now => exact .destroyed now

/-- Induction on a history, from one call to the next. -/
theorem run_history {P : List Call → Monitor → Prop} (k : KeepAlive) (hfresh : P [] (fresh k))
    (hstep : ∀ past x n, P past ((fresh k).run past) → ((fresh k).run past).Change x n →
      P (past ++ [x]) n) (xs : List Call) : P xs ((fresh k).run xs) := by
  induction xs using List.reverseRecOn with
  | nil => exact hfresh
  | append_singleton xs x ih =>
      rw [run_concat]
      exact hstep xs x _ ih (after_change _ x)

theorem Change.stage (h : m.Change x n) :
    n.stage = m.stage ∨ (∃ now, x = .arm now ∧ (m.arm now).result = true ∧ n.stage = .active) ∨
      ∃ now, x = .destroy now ∧ n.stage = .destroyed := by
  cases h with
  | armed now hr => exact .inr (.inl ⟨now, rfl, hr, rfl⟩)
  | rearmed | restarted | overheard | acked | unexpected => exact .inl rfl
  | opened =>
      rw [openStream_state]
      exact .inl rfl
  | looked x now => exact .inl (fired_stage m now)
  | sent payload now => exact .inl (fired_stage m now)
  | destroyed now => exact .inr (.inr ⟨now, rfl, destroy_stage m now⟩)

theorem after_active (h : m.stage = .active) (hx : ∀ now, x ≠ .destroy now) :
    (m.after x).stage = .active := by
  rcases (m.after_change x).stage with hs | ⟨-, -, -, hs⟩ | ⟨now, rfl, -⟩
  · exact hs.trans h
  · exact hs
  · exact absurd rfl (hx now)

theorem Change.limits (h : m.Change x n) : n.limits = m.limits := by
  cases h with
  | armed | rearmed | restarted | overheard | acked | unexpected => rfl
  | opened => rw [openStream_state]
  | looked x now => exact fired_limits m now
  | sent payload now => exact fired_limits m now
  | destroyed now => exact destroy_limits m now

theorem run_limits (m : Monitor) (xs : List Call) : (m.run xs).limits = m.limits := by
  induction xs generalizing m with
  | nil => rfl
  | cons x rest ih => exact (ih _).trans (m.after_change x).limits

theorem Vigilant.after (h : m.Vigilant) (x : Call) : (m.after x).Vigilant := by
  cases x with
  | arm now => exact h.arm now
  | activity now frame => exact h.activity now frame
  | openStream => exact h.openStream
  | ack payload now => exact h.ack payload now
  | poll now => exact h.poll now
  | verdict now | needsDisconnection now | isUnhealthy now => exact h.fired now
  | destroy now => exact h.destroy now

theorem Vigilant.run (h : m.Vigilant) (xs : List Call) : (m.run xs).Vigilant := by
  induction xs generalizing m with
  | nil => exact h
  | cons x rest ih => exact ih (h.after x)

theorem after_requests (m : Monitor) (x : Call) :
    (m.after x).requests = m.requests + if x = .openStream then 1 else 0 := by
  have h := m.after_change x
  generalize m.after x = n at h
  cases h with
  | armed | rearmed | restarted | overheard | acked | unexpected => rfl
  | opened =>
      rw [openStream_state]
      rfl
  | looked x now hx =>
      have hne : x ≠ .openStream := by
        rintro rfl
        contradiction
      rw [if_neg hne]
      exact fired_requests m now
  | sent payload now hr nextPayload pingsSent => exact fired_requests m now
  | destroyed now =>
      rw [destroy_state]
      rfl

theorem run_requests (m : Monitor) (xs : List Call) :
    (m.run xs).requests = m.requests + xs.count .openStream := by
  induction xs generalizing m with
  | nil => rfl
  | cons x rest ih =>
      refine (ih _).trans ?_
      rw [after_requests, List.count_cons, Nat.add_assoc, Nat.add_comm (List.count _ _)]
      simp

/-- A verdict that is latched, whether or not a lost ping outranks it. -/
def Holds (m : Monitor) : Verdict → Prop
  | .pingTimeout => m.unhealthy = true
  | v => m.graceful = some v

theorem Holds.congr (h : m.Holds v) (hg : n.graceful = m.graceful)
    (hu : n.unhealthy = m.unhealthy) : n.Holds v := by
  cases v with
  | pingTimeout => exact hu.trans h
  | idleTimeout | maxAge | maxRequests => exact hg.trans h

theorem Vigilant.holds (h : m.Vigilant) (hv : m.latched = some v) : m.Holds v := by
  rw [latched] at hv
  split at hv
  · rename_i hu
    obtain rfl := Option.some.inj hv
    exact hu
  · cases v with
    | pingTimeout => exact absurd hv h.graceful
    | idleTimeout | maxAge | maxRequests => exact hv

theorem fired_graceful (h : m.graceful = some v) (now : Instant) :
    (m.fired now).graceful = some v := by
  by_cases ha : m.stage = .active
  · rw [fired_active ha, expire_state]
    simp [h]
  · rw [fired_inactive ha]
    exact h

theorem Change.verdicts (h : m.Change x n) :
    (∀ w, m.graceful = some w → n.graceful = some w) ∧
      (m.unhealthy = true → n.unhealthy = true) := by
  have fired (now : Instant) : (∀ w, m.graceful = some w → (m.fired now).graceful = some w) ∧
      (m.unhealthy = true → (m.fired now).unhealthy = true) := by
    refine ⟨fun w hw => fired_graceful hw now, fun hu => ?_⟩
    rw [fired_unhealthy, hu]
    rfl
  cases h with
  | armed | rearmed | restarted | overheard | acked | unexpected => exact ⟨fun _ hw => hw, id⟩
  | opened =>
      rw [openStream_state]
      exact ⟨fun w hw => by simp [hw], id⟩
  | looked x now => exact fired now
  | sent payload now => exact fired now
  | destroyed now =>
      rw [destroy_state]
      exact ⟨fun _ hw => hw, id⟩

theorem Change.quiet (h : m.Change x n) (hn : n.latched = none) : m.latched = none := by
  have hkept := h.verdicts
  rw [latched] at hn ⊢
  cases hu : m.unhealthy with
  | true => simp [hkept.2 hu] at hn
  | false =>
      cases hg : m.graceful with
      | none => rfl
      | some w =>
          rw [hkept.1 w hg] at hn
          split at hn <;> contradiction

theorem Holds.after (h : m.Holds v) (x : Call) : (m.after x).Holds v := by
  have hkept := (m.after_change x).verdicts
  cases v with
  | pingTimeout => exact hkept.2 h
  | idleTimeout | maxAge | maxRequests => exact hkept.1 _ h

theorem Holds.run (h : m.Holds v) (xs : List Call) : (m.run xs).Holds v := by
  induction xs generalizing m with
  | nil => exact h
  | cons x rest ih => exact ih (h.after x)

theorem exists_latching (h : (m.run xs).Holds v) (hfresh : ¬ m.Holds v) :
    ∃ past x rest, xs = past ++ x :: rest ∧ ¬ (m.run past).Holds v ∧
      ((m.run past).after x).Holds v := by
  induction xs using List.reverseRecOn with
  | nil => exact absurd h hfresh
  | append_singleton xs x ih =>
      by_cases hxs : (m.run xs).Holds v
      · obtain ⟨past, y, rest, rfl, hbefore, hafter⟩ := ih hxs
        exact ⟨past, y, rest ++ [x], by simp, hbefore, hafter⟩
      · rw [run_concat] at h
        exact ⟨xs, x, [], rfl, hxs, h⟩

end HttpLifecycle.Monitor
