import HttpLifecycle.Proofs.Monitor.Run

namespace HttpLifecycle.Monitor

structure Probes where
  pingAt : Option Instant
  outstanding : Option Ping
  nextPayload : Nat
  sent : Nat
  acked : Nat
  roundTrips : Duration

def probes (m : Monitor) : Probes :=
  ⟨m.pingAt, m.outstanding, m.nextPayload, m.pingsSent, m.pingsAcked, m.roundTrips⟩

def sent? (m : Monitor) : Call → Option Nat
  | .poll now => (m.poll now).result
  | _ => none

def acked? (m : Monitor) : Call → Option Nat
  | .ack payload now => if (m.ack payload now).result then some payload else none
  | _ => none

def sent (m : Monitor) (xs : List Call) : List Nat := m.gather (fun n x => (n.sent? x).toList) xs

def acked (m : Monitor) (xs : List Call) : List Nat := m.gather (fun n x => (n.acked? x).toList) xs

/-- The monitor takes notice of the peer at this time, and the interval up to
the next ping is to begin anew. -/
inductive Heeds (m : Monitor) : Call → Instant → Prop
  | armed (now : Instant) (h : (m.arm now).result = true) : Heeds m (.arm now) now
  | heard (now : Instant) (frame : Frame) (ha : m.stage = .active) (hl : m.latched = none)
      (hc : m.limits.Counts frame) : Heeds m (.activity now frame) now
  | acked (payload : Nat) (now : Instant) (h : (m.ack payload now).result = true) :
      Heeds m (.ack payload now) now

/-- All that a call can do to the pings. While one is out a frame is heeded and
still leaves them alone. -/
inductive Probing (m : Monitor) : Call → Probes → Prop
  | still (x : Call) (hsent : m.sent? x = none) (hacked : m.acked? x = none)
      (hheeds : ∀ now, m.Heeds x now → m.outstanding.isSome) : Probing m x m.probes
  | armed (now : Instant) (hd : m.stage = .dormant) (h : (m.arm now).result = true) :
      Probing m (.arm now) { m.probes with pingAt := m.limits.pingInterval?.map (now + ·) }
  | heard (now : Instant) (frame : Frame) (h : m.Heeds (.activity now frame) now)
      (hout : m.outstanding = none) : Probing m (.activity now frame)
        { m.probes with pingAt := (m.limits.pingInterval?.map (now + ·)).or m.pingAt }
  | sent (now : Instant) (h : (m.poll now).result = some m.nextPayload) : Probing m (.poll now)
      { m.probes with
        pingAt := none
        outstanding := some ⟨m.nextPayload, now, now + m.limits.patience⟩
        nextPayload := Word.wrap (m.nextPayload + 1)
        sent := m.pingsSent + 1 }
  | acked (ping : Ping) (now : Instant) (h : (m.ack ping.payload now).result = true)
      (hout : m.outstanding = some ping) (hhealthy : m.unhealthy = false) :
      Probing m (.ack ping.payload now)
        { m.probes with
          pingAt := m.limits.pingInterval?.map (now + ·)
          outstanding := none
          acked := m.pingsAcked + 1
          roundTrips := m.roundTrips + now.since ping.sentAt }
  | dropped (now : Instant) :
      Probing m (.destroy now) { m.probes with pingAt := none, outstanding := none }

theorem fired_probes (m : Monitor) (now : Instant) : (m.fired now).probes = m.probes := by
  by_cases h : m.stage = .active
  · rw [fired_active h, expire_state]
    rfl
  · rw [fired_inactive h]

theorem arm_probing (m : Monitor) (now : Instant) :
    m.Probing (.arm now) (m.arm now).state.probes := by
  by_cases h : m.stage ≠ .dormant ∨ m.isNoop
  · have hr : (m.arm now).result = false := by rw [arm, if_pos h]
    have hs : (m.arm now).state = m := by rw [arm, if_pos h]
    rw [hs]
    refine .still _ rfl rfl fun t ht => ?_
    cases ht with
    | armed _ hr' => simp [hr] at hr'
  · have hr : (m.arm now).result = true := by rw [arm, if_neg h]
    have hs : (m.arm now).state.probes =
        { m.probes with pingAt := m.limits.pingInterval?.map (now + ·) } := by
      rw [arm, if_neg h]
      rfl
    rw [hs]
    exact .armed now ((m.arm_result_iff now).mp hr).1 hr

theorem activity_probing (m : Monitor) (now : Instant) (frame : Frame) :
    m.Probing (.activity now frame) (m.activity now frame).probes := by
  by_cases hidle : m.stage ≠ .active ∨ m.latched.isSome
  · rw [activity, if_pos hidle]
    refine .still _ rfl rfl fun t ht => ?_
    cases ht with
    | heard _ _ ha hl => simp [ha, hl] at hidle
  · by_cases hping : frame = .ping ∧ !m.limits.onPing
    · rw [activity, if_neg hidle, if_pos hping]
      refine .still _ rfl rfl fun t ht => ?_
      cases ht with
      | heard _ _ _ _ hc => simp [hc hping.1] at hping
    · have hs : (m.activity now frame).probes =
          { m.probes with
            pingAt :=
              if m.outstanding.isSome then m.pingAt
              else (m.limits.pingInterval?.map (now + ·)).or m.pingAt } := by
        rw [activity, if_neg hidle, if_neg hping]
        rfl
      rw [hs]
      cases hout : m.outstanding with
      | some ping => exact .still _ rfl rfl fun _ _ => by rw [hout]; rfl
      | none =>
          obtain ⟨ha, hl⟩ : m.stage = .active ∧ m.latched = none := by simpa using hidle
          exact .heard now frame (.heard now frame ha hl fun hf => by simpa [hf] using hping) hout

theorem ack_probing (m : Monitor) (payload : Nat) (now : Instant) :
    m.Probing (.ack payload now) (m.ack payload now).state.probes := by
  cases hr : (m.ack payload now).result with
  | false =>
      rw [ack_refused hr]
      refine .still _ rfl (by simp [acked?, hr]) fun t ht => ?_
      cases ht with
      | acked _ _ h => simp [hr] at h
  | true =>
      obtain ⟨hhealthy, ping, hout, rfl⟩ := (ack_taken_iff m payload now).mp hr
      rw [ack_taken_state hout hhealthy]
      exact .acked ping now hr hout hhealthy

theorem poll_probing (m : Monitor) (now : Instant) :
    m.Probing (.poll now) (m.poll now).state.probes := by
  rcases poll_cases m now with ⟨hr, hs, -⟩ | ⟨timeout, -, ht, -, hr, hs⟩
  · rw [hs, fired_probes]
    exact .still _ hr rfl nofun
  · have hsent := Probing.sent now hr
    rw [← fired_probes m now] at hsent
    rw [hs, (KeepAlive.pingTimeout?_eq_some ht).2]
    exact hsent

theorem after_probing (m : Monitor) (x : Call) : m.Probing x (m.after x).probes := by
  cases x with
  | arm now => exact arm_probing m now
  | activity now frame => exact activity_probing m now frame
  | openStream =>
      rw [after, openStream_state]
      exact .still _ rfl rfl nofun
  | ack payload now => exact ack_probing m payload now
  | poll now => exact poll_probing m now
  | verdict now | needsDisconnection now | isUnhealthy now =>
      show m.Probing _ (m.fired now).probes
      rw [fired_probes]
      exact .still _ rfl rfl nofun
  | destroy now =>
      rw [after, destroy_state]
      exact .dropped now

def KeepsLost (m : Monitor) : Prop :=
  m.stage ≠ .destroyed → m.unhealthy = true → m.outstanding.isSome

namespace KeepsLost

variable {m : Monitor}

theorem healthy (h : m.KeepsLost) (ha : m.stage = .active) (hout : m.outstanding = none) :
    m.unhealthy = false := by
  cases hu : m.unhealthy with
  | false => rfl
  | true => simpa [hout] using h (by rw [ha]; nofun) hu

theorem after (h : m.KeepsLost) (x : Call) : (m.after x).KeepsLost := by
  have hx := m.after_change x
  generalize m.after x = n at hx
  have fired (now : Instant) : (m.fired now).KeepsLost := by
    intro hs hlost
    rw [fired_stage] at hs
    rw [fired_unhealthy] at hlost
    rw [fired_outstanding]
    rcases (Bool.or_eq_true _ _).mp hlost with hlost | hlost
    · exact h hs hlost
    · exact Option.isSome_of_any (Bool.and_eq_true_iff.mp hlost).2
  cases hx with
  | armed now hr =>
      have hd := ((m.arm_result_iff now).mp hr).1
      exact fun _ => h (by rw [hd]; nofun)
  | rearmed | restarted | overheard | unexpected => exact h
  | opened =>
      rw [openStream_state]
      exact h
  | acked payload now hr =>
      have hhealthy := ((ack_taken_iff m payload now).mp hr).1
      intro _ hlost
      rw [hhealthy] at hlost
      contradiction
  | looked x now => exact fired now
  | sent => exact fun _ _ => rfl
  | destroyed now => exact fun hs => absurd (destroy_stage m now) hs

end KeepsLost

theorem keepsLost_run (k : KeepAlive) (xs : List Call) : ((fresh k).run xs).KeepsLost := by
  induction xs using List.reverseRecOn with
  | nil => exact nofun
  | append_singleton xs x ih =>
      rw [run_concat]
      exact ih.after x

end HttpLifecycle.Monitor
