import HttpLifecycle.Proofs.Connection.ShutdownKept
import HttpLifecycle.Proofs.Connection.Closing
import HttpLifecycle.Proofs.Connection.Run
import HttpLifecycle.Proofs.Monitor.Step
import Mathlib.Logic.Relation

namespace HttpLifecycle

namespace Connection

/-- All that can happen to a connection on the way to its end, one thing at a
time. The flag says whether a verdict may be latched. Every input comes down
to such moves, and what each of them keeps holds throughout. -/
inductive Move : Bool → Connection → Connection → Prop
  | serve {b : Bool} {c d : Connection} (h : ShutdownKept c d) : Move b c d
  | tally {b : Bool} {c : Connection} (es : List Effect) (h : commandsOf es = []) :
      Move b c (c.emit es)
  | attach {b : Bool} {c : Connection} (registered active : Bool) :
      Move b c { c with registered := registered, active := active }
  | watch {b : Bool} {c : Connection} {m : Monitor} (h : c.monitor.Turn m) :
      Move b c { c with monitor := m }
  | latch {c : Connection} {m : Monitor} (h : c.monitor.Latch m) :
      Move true c { c with monitor := m }
  | probe {c : Connection} (payload : Nat) (h : c.monitor.stage = .active) :
      Move true c (c.write [.ping payload, .flush])
  | announce {b : Bool} {c : Connection} (reason : Reason) (wait : Duration) (now : Instant)
      (es : List Effect) (htorn : c.tornDown = false) (hphase : c.drain.phase = .idle)
      (hes : commandsOf es = announcement c.protocol reason) :
      Move b c { c with
        state := .draining
        drain := ⟨.wait, some reason, some now, some (now + wait)⟩
        journal := c.journal ++ es }
  | supersede {b : Bool} {c : Connection} (reason : Reason) (hphase : c.drain.phase ≠ .closed)
      (hold : c.drain.reason = some .appRequested) (hreq : reason.required = true) :
      Move b c { c with drain := { c.drain with reason := some reason } }
  | finish {b : Bool} {c : Connection} (reason : Reason) (now : Instant) (es : List Effect)
      (ho : c.Open) (hreason : c.drain.reason.getD reason = reason)
      (hes : commandsOf es = farewell c.protocol c.lastStream reason) :
      Move b c { c with
        state := .closing
        monitor := (c.monitor.destroy now).state
        drain := { c.drain with phase := .closed, reason := some reason, deadline := none }
        journal := c.journal ++ es }
  | finishLate {b : Bool} {c : Connection} (reason : Reason) (es : List Effect)
      (htorn : c.tornDown = true) (hphase : c.drain.phase ≠ .closed)
      (hreason : c.drain.reason.getD reason = reason)
      (hes : commandsOf es = farewell c.protocol c.lastStream reason) :
      Move b c { c with
        drain := { c.drain with phase := .closed, reason := some reason, deadline := none }
        journal := c.journal ++ es }
  | decide {b : Bool} {c : Connection} (h : c.drain.Decided) :
      Move b c { c with closeRequested := true }
  | peerFails {b : Bool} {c : Connection} (code : Option Nat) (h : c.drain.phase = .closed) :
      Move b c { c with peerError := code }
  | tearDown {b : Bool} {c : Connection} (now : Instant) :
      Move b c { c with
        tornDown := true
        state := .closed
        monitor := (c.monitor.destroy now).state
        drain := { c.drain with deadline := none } }

def Moves (b : Bool) : Connection → Connection → Prop := Relation.ReflTransGen (Move b)

variable {b : Bool} {c d : Connection}

theorem Coherent.supersede_decided (h : Coherent c) {reason : Reason}
    (hold : c.drain.reason = some .appRequested) (hreq : reason.required = true) :
    ({ c.drain with reason := some reason } : Drain).Decided :=
  .inr ⟨h.reason.mp (by simp [hold]), Reason.ne_appRequested hreq⟩

theorem Move.coherent (h : Coherent c) (m : Move b c d) : Coherent d := by
  cases m with
  | serve ha =>
      obtain ⟨streams, intake, dispatched, es, hes⟩ := ha
      exact { h with }
  | tally es hes => exact { h with }
  | attach registered active => exact { h with }
  | watch ht => exact { h with stage := ht.destroyed_iff.trans h.stage }
  | latch hl => exact { h with stage := by rw [hl.stage_eq]; exact h.stage }
  | probe payload ha => exact { h with }
  | announce reason wait now es htorn hphase hes =>
      refine ⟨h.clock, ?_, ?_, ?_, ?_, ?_, ?_, ?_⟩
      · simp [stateFor, htorn]
      · simp
      · have := h.stage
        simp_all
      · simp [htorn]
      · simp
      · intro hp
        have := h.peerError hp
        simp_all
      · intro hc
        rcases h.closeRequested hc with hd | ⟨hd, -⟩
        · rw [hphase] at hd
          contradiction
        · contradiction
  | supersede reason hphase hold hreq =>
      have hidle : c.drain.phase ≠ .idle := h.reason.mp (by simp [hold])
      exact { h with
        reason := by simpa using hidle
        closeRequested := fun _ => h.supersede_decided hold hreq }
  | finish reason now es ho hreason hes =>
      exact ⟨h.clock, by simp [stateFor, ho.2], by simp, by simp [Monitor.destroy_stage], by simp,
        by simp, fun _ => rfl, fun _ => .inl rfl⟩
  | finishLate reason es htorn hphase hreason hes =>
      have hstage := h.stage
      exact ⟨h.clock, by simp [stateFor, htorn, h.state], by simp,
        by simpa [htorn] using hstage, by simp, by simp, fun _ => rfl, fun _ => .inl rfl⟩
  | decide hd => exact { h with closeRequested := fun _ => hd }
  | peerFails code hp => exact { h with peerError := fun _ => hp }
  | tearDown now =>
      exact { h with
        state := by simp [stateFor]
        stage := by simp [Monitor.destroy_stage]
        deadline := by simp }

theorem Move.vigilant (h : c.monitor.Vigilant) (m : Move b c d) : d.monitor.Vigilant := by
  cases m with
  | serve ha => cases ha; exact h
  | watch ht => exact ht.vigilant h
  | latch hl => exact hl.vigilant h
  | finish => exact h.destroy _
  | tearDown => exact h.destroy _
  | tally | attach | probe | announce | supersede | finishLate | decide | peerFails => exact h

theorem Move.frame (m : Move b c d) : d.lastStream = c.lastStream ∧
    d.serverClosing = c.serverClosing ∧ d.protocol = c.protocol := by
  cases m with
  | serve ha => cases ha; exact ⟨rfl, rfl, rfl⟩
  | _ => exact ⟨rfl, rfl, rfl⟩

theorem Move.verdicts (m : Move false c d) :
    d.monitor.graceful = c.monitor.graceful ∧ d.monitor.unhealthy = c.monitor.unhealthy := by
  cases m with
  | serve ha => cases ha; exact ⟨rfl, rfl⟩
  | watch ht => exact ht.verdicts
  | finish => exact c.monitor.destroy_verdicts _
  | tearDown => exact c.monitor.destroy_verdicts _
  | tally | attach | announce | supersede | finishLate | decide | peerFails => exact ⟨rfl, rfl⟩

theorem Move.limits (m : Move b c d) : d.monitor.limits = c.monitor.limits := by
  cases m with
  | serve ha => cases ha; rfl
  | watch ht => exact ht.limits
  | latch hl => exact hl.limits
  | finish => exact c.monitor.destroy_limits _
  | tearDown => exact c.monitor.destroy_limits _
  | _ => rfl

theorem Move.attached (m : Move b c d) (ht : d.tornDown = false) : c.tornDown = false := by
  cases m with
  | serve ha => cases ha; exact ht
  | tearDown => contradiction
  | _ => exact ht

theorem Move.closed (hp : c.drain.phase = .closed) (m : Move b c d) : d.drain.phase = .closed := by
  cases m with
  | serve ha => cases ha; exact hp
  | announce reason wait now es htorn hphase => rw [hphase] at hp; contradiction
  | finish => rfl
  | finishLate => rfl
  | tally | attach | watch | latch | probe | supersede | decide | peerFails | tearDown => exact hp

theorem Move.decided (h : Coherent c) (hd : c.drain.Decided) (m : Move b c d) :
    d.drain.Decided := by
  cases m with
  | serve ha => cases ha; exact hd
  | announce reason wait now es htorn hphase =>
      rcases hd with hd | ⟨hd, -⟩
      · rw [hphase] at hd
        contradiction
      · contradiction
  | supersede reason hphase hold hreq => exact h.supersede_decided hold hreq
  | finish => exact .inl rfl
  | finishLate => exact .inl rfl
  | tally | attach | watch | latch | probe | decide | peerFails | tearDown => exact hd

namespace Moves

theorem refl (c : Connection) : Moves b c c := Relation.ReflTransGen.refl

theorem of (m : Move b c d) : Moves b c d := Relation.ReflTransGen.single m

theorem trans {e : Connection} (m : Moves b c d) (n : Moves b d e) : Moves b c e :=
  Relation.ReflTransGen.trans m n

theorem keep {P : Connection → Prop} (hP : ∀ {c d}, P c → Move b c d → P d) (h : P c)
    (m : Moves b c d) : P d := by
  induction m with
  | refl => exact h
  | tail _ m ih => exact hP ih m

theorem coherent (h : Coherent c) (m : Moves b c d) : Coherent d := keep Move.coherent h m

theorem frame (m : Moves b c d) : d.lastStream = c.lastStream ∧
    d.serverClosing = c.serverClosing ∧ d.protocol = c.protocol := by
  induction m with
  | refl => exact ⟨rfl, rfl, rfl⟩
  | tail _ m ih =>
      obtain ⟨hl, hs, hp⟩ := m.frame
      exact ⟨hl.trans ih.1, hs.trans ih.2.1, hp.trans ih.2.2⟩

theorem closed (hp : c.drain.phase = .closed) (m : Moves b c d) : d.drain.phase = .closed :=
  keep (fun h m => m.closed h) hp m

theorem verdicts (m : Moves false c d) :
    d.monitor.graceful = c.monitor.graceful ∧ d.monitor.unhealthy = c.monitor.unhealthy := by
  induction m with
  | refl => exact ⟨rfl, rfl⟩
  | tail _ m ih => exact ⟨m.verdicts.1.trans ih.1, m.verdicts.2.trans ih.2⟩

end Moves

end Connection

end HttpLifecycle
