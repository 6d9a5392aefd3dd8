import HttpLifecycle.Proofs.Connection.Coherent
import HttpLifecycle.Proofs.Monitor.Vigilance

namespace HttpLifecycle.Connection

variable {c : Connection} {now : Instant}

def fire (c : Connection) (now : Instant) : Connection := c.observe (c.monitor.verdict now)

theorem observe_idle {α : Type} {s : Step Monitor Monitor.Event α} (hs : s.state = c.monitor)
    (he : s.events = []) : c.observe s = c := by
  simp [observe, emit, hs, he]

theorem fire_of_current (h : c.monitor.Current now) : c.fire now = c := by
  apply observe_idle
  · rw [h.verdict_eq]
  · rw [h.verdict_eq]

theorem fire_fire (c : Connection) (now : Instant) : (c.fire now).fire now = c.fire now :=
  fire_of_current (c.monitor.fired_current now)

theorem verdict_fire (c : Connection) (now : Instant) :
    ((c.fire now).monitor.verdict now).result = (c.monitor.verdict now).result := by
  have hc := c.monitor.fired_current now
  show ((c.monitor.fired now).verdict now).result = _
  rw [hc.verdict_eq, Monitor.verdict_result, Monitor.fired_stage]

/-- The drain is still to be ended, and there is a transport to end it on. -/
def Open (c : Connection) : Prop := c.drain.phase ≠ .closed ∧ c.tornDown = false

/-- The connection has to close without waiting for a drain. -/
def Urgent (c : Connection) (now : Instant) : Prop :=
  c.serverClosing = true ∨ c.peerError.isSome ∨ (c.monitor.isUnhealthy now).result = true

theorem needsImmediate_result (c : Connection) (now : Instant) :
    (c.needsImmediate now).2 = true ↔ c.Urgent now := by
  rw [needsImmediate, Urgent]
  cases hs : c.serverClosing <;> cases hp : c.peerError <;> simp

theorem needsImmediate_state (c : Connection) (now : Instant) :
    (c.needsImmediate now).1 = c ∨ (c.needsImmediate now).1 = c.fire now := by
  rw [needsImmediate]
  split
  · exact .inl rfl
  · exact .inr rfl

theorem needsImmediate_calm (h : ¬ c.Urgent now) : c.needsImmediate now = (c.fire now, false) := by
  have hr : (c.needsImmediate now).2 = false := by
    rw [← Bool.not_eq_true, needsImmediate_result]
    exact h
  have hs : ¬ (c.serverClosing || c.peerError.isSome) = true := by
    rw [Bool.or_eq_true]
    exact fun hs => h (hs.elim .inl (fun hp => .inr (.inl hp)))
  simp only [needsImmediate, if_neg hs] at hr ⊢
  rw [hr]
  rfl

theorem forceReason_state (c : Connection) (now : Instant) :
    (c.forceReason now).1 = c ∨ (c.forceReason now).1 = c.fire now := by
  rw [forceReason]
  split
  · exact .inl rfl
  · exact .inr rfl

theorem isOpen_iff (c : Connection) :
    ¬ (c.drain.isClosed || c.tornDown) = true ↔ c.Open := by
  simp [Open, Drain.isClosed]

theorem over_of_not_open (h : ¬ c.Open) : c.tornDown = true ∨ c.drain.phase = .closed := by
  cases ht : c.tornDown with
  | true => exact .inl rfl
  | false => exact .inr (Decidable.byContradiction fun hp => h ⟨hp, ht⟩)

theorem Coherent.destroyed_iff (h : Coherent c) : c.monitor.stage = .destroyed ↔ ¬ c.Open := by
  refine ⟨fun hs ho => ?_, fun ho => h.stage.mpr (over_of_not_open ho)⟩
  rcases h.stage.mp hs with ht | hp
  · rw [ho.2] at ht
    contradiction
  · exact ho.1 hp

theorem checkDisconnection_over (h : ¬ c.Open) : c.checkDisconnection now = c := by
  rw [← isOpen_iff, Decidable.not_not] at h
  simp only [checkDisconnection, if_pos h]

theorem close_over (h : ¬ c.Open) : c.close now = c := by
  rw [← isOpen_iff, Decidable.not_not] at h
  simp only [close, if_pos h]

theorem forced_eq (c : Connection) (now : Instant) :
    ∃ d reason, (d = c ∨ d = c.fire now) ∧
      (c.needsImmediate now).1.forceClose now = d.conclude reason now := by
  refine ⟨((c.needsImmediate now).1.forceReason now).1, _, ?_, forceClose_eq _ now⟩
  rcases forceReason_state (c.needsImmediate now).1 now with hf | hf <;>
    rcases needsImmediate_state c now with hn | hn <;> rw [hf, hn]
  · exact .inl rfl
  · exact .inr rfl
  · exact .inr rfl
  · exact .inr (fire_fire c now)

theorem checkDisconnection_forced (ho : c.Open) (hu : c.Urgent now) :
    c.checkDisconnection now = (c.needsImmediate now).1.forceClose now := by
  rw [checkDisconnection, if_neg ((isOpen_iff c).mpr ho)]
  rw [← needsImmediate_result] at hu
  split
  · rename_i h; rw [h]
  · rename_i h; rw [h] at hu; contradiction

theorem close_forced (ho : c.Open) (hu : c.Urgent now) :
    c.close now = (c.needsImmediate now).1.forceClose now := by
  rw [close, if_neg ((isOpen_iff c).mpr ho)]
  rw [← needsImmediate_result] at hu
  split
  · rename_i h; rw [h]
  · rename_i h; rw [h] at hu; contradiction

theorem checkDisconnection_urgent (ho : c.Open) (hu : c.Urgent now) :
    ∃ d reason, (d = c ∨ d = c.fire now) ∧ c.checkDisconnection now = d.conclude reason now := by
  rw [checkDisconnection_forced ho hu]
  exact forced_eq c now

theorem close_urgent (ho : c.Open) (hu : c.Urgent now) :
    ∃ d reason, (d = c ∨ d = c.fire now) ∧ c.close now = d.conclude reason now := by
  rw [close_forced ho hu]
  exact forced_eq c now

theorem checkDisconnection_closed (ho : c.Open) (hu : c.Urgent now) :
    (c.checkDisconnection now).drain.phase = .closed := by
  obtain ⟨d, reason, -, he⟩ := checkDisconnection_urgent ho hu
  rw [he, conclude_phase]

theorem close_closed (ho : c.Open) (hu : c.Urgent now) : (c.close now).drain.phase = .closed := by
  obtain ⟨d, reason, -, he⟩ := close_urgent ho hu
  rw [he, conclude_phase]

def drainReason (v : Option Verdict) : Reason := (v.map Reason.ofVerdict).getD .serverShutdown

theorem drainReason_required (v : Option Verdict) : (drainReason v).required = true := by
  rcases v with _ | _ | _ | _ | _ <;> rfl

theorem close_calm (ho : c.Open) (hu : ¬ c.Urgent now) :
    c.close now =
      (c.fire now).startDrain (drainReason (c.monitor.verdict now).result) c.drainFor now := by
  rw [close, if_neg ((isOpen_iff c).mpr ho), needsImmediate_calm hu]
  show ((c.fire now).fire now).startDrain _ _ now = _
  rw [fire_fire, ← verdict_fire c now]
  rfl

theorem isUnhealthy_result (m : Monitor) (now : Instant) :
    (m.isUnhealthy now).result = (m.verdict now).result.any (·.unhealthy) := rfl

theorem checkDisconnection_calm (ho : c.Open) (hu : ¬ c.Urgent now) :
    c.checkDisconnection now =
      if c.closeRequested = false ∧ (c.monitor.verdict now).result.isSome then
        ({ c.fire now with closeRequested := true }).startDrain
          (drainReason (c.monitor.verdict now).result) c.drainFor now
      else c.fire now := by
  have hcur : (c.fire now).monitor.Current now := c.monitor.fired_current now
  have hverdict := verdict_fire c now
  have hasked : (c.fire now).observe ((c.fire now).monitor.needsDisconnection now) = c.fire now :=
    fire_fire c now
  have hanswer : ((c.fire now).monitor.needsDisconnection now).result =
      (c.monitor.verdict now).result.isSome := by
    rw [← hverdict]
    rfl
  rw [checkDisconnection, if_neg ((isOpen_iff c).mpr ho), needsImmediate_calm hu]
  simp only [hasked, hanswer]
  cases hr : c.closeRequested with
  | true => exact if_pos hr
  | false =>
      have hr' : ¬ (c.fire now).closeRequested = true := by
        show ¬ c.closeRequested = true
        simp [hr]
      rw [if_neg hr']
      cases hv : (c.monitor.verdict now).result with
      | none => simp
      | some v =>
          have hopen : ({ c.fire now with closeRequested := true } : Connection).Open := ho
          have hcalm : ¬ ({ c.fire now with closeRequested := true } : Connection).Urgent now := by
            rintro (hs | hp | hh)
            · exact hu (.inl hs)
            · exact hu (.inr (.inl hp))
            · refine hu (.inr (.inr ?_))
              rw [isUnhealthy_result] at hh ⊢
              rwa [← hverdict]
          have hclose := close_calm hopen hcalm
          rw [fire_of_current (c := { c.fire now with closeRequested := true }) hcur] at hclose
          simp only [Option.isSome_some, and_self, if_true, hclose]
          rw [← hv, ← hverdict]
          rfl

end HttpLifecycle.Connection
