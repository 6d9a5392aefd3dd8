import HttpLifecycle.Proofs.Monitor.Timers

namespace HttpLifecycle

theorem millis?_eq_some {n : Nat} {d : Duration} (h : millis? n = some d) :
    0 < n ∧ d = Duration.ofMillis n := by
  rw [millis?] at h
  split at h
  · contradiction
  · cases h
    exact ⟨by omega, rfl⟩

theorem millis?_pos {n : Nat} {d : Duration} (h : millis? n = some d) : 0 < d := by
  obtain ⟨hn, rfl⟩ := millis?_eq_some h
  show 0 < n * 1000000
  omega

namespace KeepAlive

def Counts (k : KeepAlive) (frame : Frame) : Prop := frame = .ping → k.onPing = true

def patience (k : KeepAlive) : Duration :=
  Duration.ofMillis (if k.pingTimeoutMillis = 0 then k.pingIntervalMillis else k.pingTimeoutMillis)

theorem pingTimeout?_eq_some {k : KeepAlive} {d : Duration} (h : k.pingTimeout? = some d) :
    0 < k.pingIntervalMillis ∧ d = k.patience := by
  obtain ⟨interval, hi, rfl⟩ := Option.map_eq_some_iff.mp h
  obtain ⟨hpos, rfl⟩ := millis?_eq_some hi
  refine ⟨hpos, ?_⟩
  by_cases ht : k.pingTimeoutMillis = 0 <;> simp [patience, millis?, ht]

theorem pingTimeout?_pos {k : KeepAlive} {d : Duration} (h : k.pingTimeout? = some d) :
    0 < d := by
  obtain ⟨interval, hi, rfl⟩ := Option.map_eq_some_iff.mp h
  cases ht : millis? k.pingTimeoutMillis with
  | none => exact millis?_pos hi
  | some timeout => exact millis?_pos ht

theorem pingInterval?_eq {k : KeepAlive} (h : 0 < k.pingIntervalMillis) :
    k.pingInterval? = some (Duration.ofMillis k.pingIntervalMillis) :=
  if_neg (Nat.ne_of_gt h)

theorem pingTimeout?_isSome (k : KeepAlive) : k.pingTimeout?.isSome = k.pingInterval?.isSome := by
  simp [pingTimeout?]

theorem maxRequests?_eq_some {k : KeepAlive} {n : Nat} (h : k.maxRequests? = some n) :
    0 < k.maxRequests ∧ n = k.maxRequests := by
  rw [maxRequests?] at h
  split at h
  · contradiction
  · cases h
    exact ⟨by omega, rfl⟩

theorem maxRequests?_pos {k : KeepAlive} {n : Nat} (h : k.maxRequests? = some n) : 0 < n := by
  obtain ⟨hpos, rfl⟩ := maxRequests?_eq_some h
  exact hpos

end KeepAlive

namespace Monitor

/-- A timer is given up only for the verdict it stands for: while none is
latched, every limit that is set is still being watched. Pings go on in any
case, either one is scheduled or one is out. -/
structure Vigilant (m : Monitor) : Prop where
  dormant : m.stage = .dormant → m.outstanding = none
  idle : m.stage = .active → m.graceful = none →
    m.idleAt.isSome = m.limits.idleTimeout?.isSome
  age : m.stage = .active → m.graceful = none → m.ageAt.isSome = m.limits.maxAge?.isSome
  ping : m.stage = .active →
    (m.pingAt.isSome || m.outstanding.isSome) = m.limits.pingInterval?.isSome
  requests : ∀ max, m.limits.maxRequests? = some max → m.graceful = none → m.requests < max
  graceful : m.graceful ≠ some .pingTimeout

theorem vigilant_fresh (k : KeepAlive) : Vigilant { limits := k } where
  dormant _ := rfl
  idle h := by contradiction
  age h := by contradiction
  ping h := by contradiction
  requests max h _ := k.maxRequests?_pos h
  graceful := by simp

namespace Vigilant

variable {m : Monitor}

theorem arm (h : Vigilant m) (now : Instant) : Vigilant (m.arm now).state := by
  by_cases ha : m.stage ≠ .dormant ∨ m.isNoop
  · simpa [Monitor.arm, ha] using h
  · rw [Monitor.arm, if_neg ha]
    have hd : m.stage = .dormant := by simpa using (not_or.mp ha).1
    exact ⟨fun hs => by contradiction, fun _ _ => by simp, fun _ _ => by simp,
      fun _ => by simp [h.dormant hd], h.requests, h.graceful⟩

theorem activity (h : Vigilant m) (now : Instant) (frame : Frame) :
    Vigilant (m.activity now frame) := by
  rw [Monitor.activity]
  split
  · exact h
  · split
    · exact h
    · refine ⟨h.dormant, fun ha hg => ?_, h.age, fun ha => ?_, h.requests, h.graceful⟩
      · have hi := h.idle ha hg
        cases hl : m.limits.idleTimeout? <;> simp_all
      · have hp := h.ping ha
        cases ho : m.outstanding <;> cases hl : m.limits.pingInterval? <;> simp_all

theorem openStream (h : Vigilant m) : Vigilant m.openStream.state := by
  rw [openStream_state]
  refine ⟨h.dormant, fun ha hg => h.idle ha ?_, fun ha hg => h.age ha ?_, h.ping,
    fun max hm hg => ?_, ?_⟩
  · grind
  · grind
  · have hm' : m.limits.maxRequests? = some max := hm
    simp only [hm', Option.any_some, decide_eq_true_eq] at hg
    split at hg
    · simp at hg
    · show m.requests + 1 < max
      omega
  · have := h.graceful
    cases hg : m.graceful <;> grind

theorem ack (h : Vigilant m) (payload : Nat) (now : Instant) :
    Vigilant (m.ack payload now).state := by
  rw [Monitor.ack]
  split
  · split
    · exact ⟨fun _ => rfl, h.idle, h.age, fun _ => by simp, h.requests, h.graceful⟩
    · exact h
  · exact h

theorem fired (h : Vigilant m) (now : Instant) : Vigilant (m.fired now) := by
  by_cases ha : m.stage = .active
  · rw [fired_active ha, expire_state]
    refine ⟨h.dormant, fun _ hg => ?_, fun _ hg => ?_, h.ping, fun max hm hg => ?_, ?_⟩
    · have hi := h.idle ha
      cases hd : due m.idleAt now <;> simp_all
    · have hi := h.age ha
      cases hd : due m.ageAt now <;> simp_all
    · have hr := h.requests max hm
      simp_all
    · have hg := h.graceful
      cases hm : m.graceful <;> cases hi : due m.idleAt now <;> cases hd : due m.ageAt now <;>
        simp_all
  · rw [fired_inactive ha]
    exact h

theorem poll (h : Vigilant m) (now : Instant) : Vigilant (m.poll now).state := by
  have hf := h.fired now
  rcases poll_cases m now with ⟨-, hs, -⟩ | ⟨timeout, ha, ht, -, -, hs⟩
  · rw [hs]
    exact hf
  · rw [hs]
    have hl := fired_limits m now
    have hi := m.limits.pingTimeout?_isSome
    refine ⟨fun hd => ?_, hf.idle, hf.age, fun _ => ?_, hf.requests, hf.graceful⟩
    · have := fired_stage m now
      simp_all
    · rw [hl, ← hi, ht]
      rfl

theorem destroy (h : Vigilant m) (now : Instant) : Vigilant (m.destroy now).state := by
  rw [Monitor.destroy]
  split <;> exact ⟨by simp, by simp, by simp, by simp, h.requests, h.graceful⟩

/-- What a poll leaves armed lies ahead: it latched the limits that were due
and sent the ping that was due, and a ping is given some time. -/
theorem poll_ahead (h : Vigilant m) (now : Instant) : Ahead (m.poll now).state now := by
  have hc := fired_current m now
  by_cases ha : m.stage = .active
  · have hfa : (m.fired now).stage = .active := by rw [fired_stage, ha]
    have later (at? : Option Instant) (hd : due at? now = false) :
        ∀ t, at? = some t → now < t := by
      rintro t rfl
      simpa [due] using hd
    have hidle := later _ (hc.idle hfa)
    have hage := later _ (hc.age hfa)
    rcases poll_cases m now with ⟨-, hs, hn⟩ | ⟨timeout, -, ht, -, -, hs⟩
    · rw [hs, ahead_iff hfa]
      refine ⟨hidle, hage, fun t hp => ?_, fun p ho hu => ?_⟩
      · have hl := fired_limits m now
        have hi := (h.fired now).ping hfa
        refine hn ha ?_ t hp
        rw [KeepAlive.pingTimeout?_isSome, ← hl, ← hi]
        rw [nextPing] at hp
        split at hp
        · contradiction
        · simp [hp]
      · by_cases hd : p.deadline ≤ now
        · have := hc.ping hfa (by simp [ho, hd])
          simp [hu] at this
        · exact Nat.lt_of_not_le hd
    · rw [hs, ahead_iff (by exact hfa)]
      refine ⟨hidle, hage, fun t hp => ?_, fun p ho _ => ?_⟩
      · simp [nextPing] at hp
      · have := KeepAlive.pingTimeout?_pos ht
        obtain rfl := Option.some.inj ho
        exact Nat.lt_add_of_pos_right this
  · have hs : (m.poll now).state = m := by simp [Monitor.poll, ha]
    rw [hs]
    simp [Ahead, timers, ha]

end Vigilant

end Monitor

end HttpLifecycle
