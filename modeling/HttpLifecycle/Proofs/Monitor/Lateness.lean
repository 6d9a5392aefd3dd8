import HttpLifecycle.Proofs.Monitor.Run

namespace HttpLifecycle.Monitor

def Call.LooksPast (x : Call) (t : Instant) : Prop := ∃ now, x.look? = some now ∧ t ≤ now

/-- Between the deadline of a ping and an acknowledgement of it, somebody looked
at the clock. A ping that is acknowledged in time is not noticed. -/
def Noticed (payload : Nat) (deadline : Instant) (xs : List Call) : Prop :=
  ∀ before now rest, xs = before ++ .ack payload now :: rest →
    ∃ y ∈ before, y.LooksPast deadline

structure Awaits (m : Monitor) (ping : Ping) : Prop where
  active : m.stage = .active
  out : m.outstanding = some ping
  healthy : m.unhealthy = false

structure GivenUp (m : Monitor) : Prop where
  active : m.stage = .active
  lost : m.unhealthy = true

variable {m : Monitor} {ping : Ping} {payload : Nat} {deadline t : Instant}
  {x : Call} {xs : List Call}

theorem noticed_cons : Noticed payload deadline (x :: xs) ↔
    (∀ now, x ≠ .ack payload now) ∧ (x.LooksPast deadline ∨ Noticed payload deadline xs) := by
  constructor
  · intro h
    refine ⟨?_, or_iff_not_imp_left.mpr fun hx before now rest hxs => ?_⟩
    · rintro now rfl
      obtain ⟨y, hy, -⟩ := h [] now xs rfl
      contradiction
    · obtain ⟨y, hy, hpast⟩ := h (x :: before) now rest (by rw [hxs, List.cons_append])
      rcases List.mem_cons.mp hy with rfl | hy
      · exact absurd hpast hx
      · exact ⟨y, hy, hpast⟩
  · rintro ⟨hx, h⟩ before now rest hxs
    cases before with
    | nil => exact absurd (List.cons.inj hxs).1 (hx now)
    | cons y before =>
        obtain ⟨rfl, htail⟩ := List.cons.inj hxs
        rcases h with hpast | h
        · exact ⟨x, List.mem_cons_self, hpast⟩
        · obtain ⟨z, hz, hpast⟩ := h before now rest htail
          exact ⟨z, List.mem_cons_of_mem _ hz, hpast⟩

theorem verdict_lost (ha : m.stage = .active) (hlost : (m.fired t).unhealthy = true) :
    (m.verdict t).result = some .pingTimeout := by
  rw [verdict_result, ha, latched, hlost]
  rfl

namespace GivenUp

theorem after (h : m.GivenUp) (hx : ∀ now, x ≠ .destroy now) : (m.after x).GivenUp :=
  ⟨after_active h.active hx, Holds.after (v := .pingTimeout) h.lost x⟩

theorem run (h : m.GivenUp) (hlive : ∀ now, .destroy now ∉ xs) : (m.run xs).GivenUp := by
  induction xs generalizing m with
  | nil => exact h
  | cons x rest ih =>
      refine ih (h.after ?_) fun now hmem => hlive now (List.mem_cons_of_mem _ hmem)
      rintro now rfl
      exact hlive now List.mem_cons_self

theorem verdict (h : m.GivenUp) (t : Instant) : (m.verdict t).result = some .pingTimeout := by
  refine verdict_lost h.active ?_
  rw [fired_unhealthy, h.lost, Bool.true_or]

end GivenUp

namespace Awaits

theorem fired_unhealthy (h : m.Awaits ping) (now : Instant) :
    (m.fired now).unhealthy = decide (ping.deadline ≤ now) := by
  rw [Monitor.fired_unhealthy, h.healthy, h.active, h.out]
  simp

theorem unsent (h : m.Awaits ping) (now : Instant) (payload : Nat) :
    (m.poll now).result ≠ some payload := by
  intro hsent
  have hnone := (poll_sent hsent).2.1
  rw [h.out] at hnone
  contradiction

theorem after (h : m.Awaits ping) (hpast : ¬ x.LooksPast ping.deadline)
    (hdestroy : ∀ now, x ≠ .destroy now) (hack : ∀ now, x ≠ .ack ping.payload now) :
    (m.after x).Awaits ping := by
  have hx := m.after_change x
  generalize m.after x = n at hx
  cases hx with
  | rearmed | overheard | unexpected => exact h
  | restarted => exact ⟨h.active, h.out, h.healthy⟩
  | destroyed now => exact absurd rfl (hdestroy now)
  | armed now hr => simp [arm, h.active] at hr
  | opened =>
      rw [openStream_state]
      exact ⟨h.active, h.out, h.healthy⟩
  | acked payload now hr =>
      have hother : ping.payload ≠ payload := fun he => hack now (by rw [he])
      simp [ack, h.out, hother] at hr
  | looked x now hlook =>
      have hearly : ¬ ping.deadline ≤ now := fun hle => hpast ⟨now, hlook, hle⟩
      refine ⟨(fired_stage m now).trans h.active, (fired_outstanding m now).trans h.out, ?_⟩
      rw [h.fired_unhealthy]
      exact decide_eq_false hearly
  | sent payload now hr => exact absurd hr (h.unsent now payload)

theorem past (h : m.Awaits ping) (hpast : x.LooksPast ping.deadline) : (m.after x).GivenUp := by
  obtain ⟨now, hlook, hle⟩ := hpast
  have hx := m.after_change x
  generalize m.after x = n at hx
  cases hx with
  | armed | rearmed | restarted | overheard | opened | acked | unexpected | destroyed =>
      contradiction
  | looked x t ht =>
      obtain rfl := Option.some.inj (ht.symm.trans hlook)
      refine ⟨(fired_stage m t).trans h.active, ?_⟩
      rw [h.fired_unhealthy]
      exact decide_eq_true hle
  | sent payload now hr => exact absurd hr (h.unsent now payload)

theorem verdict (h : m.Awaits ping) (ht : ping.deadline ≤ t) :
    (m.verdict t).result = some .pingTimeout := by
  refine verdict_lost h.active ?_
  rw [h.fired_unhealthy]
  exact decide_eq_true ht

theorem forgiven (h : m.Awaits ping) (hv : m.Vigilant) (now t : Instant) :
    ((m.ack ping.payload now).state.verdict t).result ≠ some .pingTimeout := by
  intro hlost
  have hfired := ((verdict_lost_iff (hv.ack ping.payload now) t).mp hlost).2
  rw [Monitor.fired_unhealthy] at hfired
  simp [ack, h.out, h.healthy] at hfired

theorem lost_iff (h : m.Awaits ping) (hv : m.Vigilant) (hlive : ∀ now, .destroy now ∉ xs) :
    (∀ between, between <+: xs → ∀ t, ping.deadline ≤ t →
        ((m.run between).verdict t).result = some .pingTimeout) ↔
      Noticed ping.payload ping.deadline xs := by
  induction xs generalizing m with
  | nil =>
      refine iff_of_true (fun between hb t ht => ?_) fun before now rest hxs => ?_
      · obtain rfl := List.prefix_nil.mp hb
        exact h.verdict ht
      · simp at hxs
  | cons x rest ih =>
      have hx : ∀ now, x ≠ .destroy now := by
        rintro now rfl
        exact hlive now List.mem_cons_self
      have hrest : ∀ now, .destroy now ∉ rest :=
        fun now hmem => hlive now (List.mem_cons_of_mem _ hmem)
      rw [noticed_cons]
      by_cases hack : ∃ now, x = .ack ping.payload now
      · obtain ⟨now, rfl⟩ := hack
        refine iff_of_false (fun hall => ?_) fun hn => hn.1 now rfl
        have hlost := hall [.ack ping.payload now] (List.prefix_append _ rest) ping.deadline
          (Nat.le_refl _)
        exact h.forgiven hv now ping.deadline hlost
      · have hack : ∀ now, x ≠ .ack ping.payload now := fun now he => hack ⟨now, he⟩
        have hcons : (∀ between, between <+: x :: rest → ∀ t, ping.deadline ≤ t →
              ((m.run between).verdict t).result = some .pingTimeout) ↔
            ∀ between, between <+: rest → ∀ t, ping.deadline ≤ t →
              (((m.after x).run between).verdict t).result = some .pingTimeout := by
          constructor
          · intro hall between hb
            exact hall (x :: between) (List.prefix_cons_inj x |>.mpr hb)
          · intro hall between hb t ht
            rcases List.prefix_cons_iff.mp hb with rfl | ⟨tail, rfl, htail⟩
            · exact h.verdict ht
            · exact hall tail htail t ht
        rw [hcons]
        by_cases hpast : x.LooksPast ping.deadline
        · refine iff_of_true (fun between hb t ht => ?_) ⟨hack, .inl hpast⟩
          refine ((h.past hpast).run fun now hmem => ?_).verdict t
          exact hrest now (hb.subset hmem)
        · rw [ih (h.after hpast hx hack) (hv.after x) hrest]
          simp [hack, hpast]

end Awaits

theorem poll_awaits {now : Instant} (h : (m.poll now).result = some payload) :
    (m.poll now).state.Awaits ⟨payload, now, now + m.limits.patience⟩ := by
  obtain ⟨ha, -, -, hu, ho⟩ := poll_sent h
  exact ⟨(poll_stage m now).trans ha, ho, hu⟩

/-- Once the deadline of a ping has passed every verdict is that it was lost,
as long as somebody looked at the clock before the first acknowledgement. -/
theorem lost_forever_iff (k : KeepAlive) (before later : List Call) (s : Instant) (payload : Nat)
    (hsent : (((fresh k).run before).poll s).result = some payload)
    (hlive : ∀ now, .destroy now ∉ later) :
    (∀ between, between <+: later → ∀ t, s + k.patience ≤ t →
        (((fresh k).run (before ++ .poll s :: between)).verdict t).result = some .pingTimeout) ↔
      Noticed payload (s + k.patience) later := by
  have hv : Vigilant ((fresh k).run before) := (vigilant_fresh k).run before
  have hawaits := poll_awaits hsent
  rw [run_limits, fresh_limits] at hawaits
  rw [← hawaits.lost_iff (hv.poll s) hlive]
  simp only [run_append]
  rfl

theorem lost_forever_looked :
    let k : KeepAlive :=
      { idleTimeoutMillis := 0, pingIntervalMillis := 1000, pingTimeoutMillis := 300 }
    let later : List Call := [.verdict 1300000000, .ack 1 1400000000]
    (((fresh k).run [.arm 0]).poll 1000000000).result = some 1 ∧
      (∀ now, .destroy now ∉ later) ∧
      Noticed 1 (1000000000 + k.patience) later ∧
      (((fresh k).run ([.arm 0] ++ .poll 1000000000 :: later)).verdict 1400000000).result =
        some .pingTimeout := by
  intro k later
  have hsent : (((fresh k).run [.arm 0]).poll 1000000000).result = some 1 := by decide
  have hlive : ∀ now, .destroy now ∉ later := by simp [later]
  have hnoticed : Noticed 1 (1000000000 + k.patience) later :=
    noticed_cons.mpr ⟨by simp, .inl ⟨1300000000, rfl, by decide⟩⟩
  have hlost := (lost_forever_iff k [.arm 0] later 1000000000 1 hsent hlive).mpr hnoticed
  exact ⟨hsent, hlive, hnoticed, hlost later List.prefix_rfl 1400000000 (by decide)⟩

/-- The clock only moves on, and still the acknowledgement that comes a tenth of
a second past the deadline is taken. -/
theorem late_ack_forgiven :
    let k : KeepAlive :=
      { idleTimeoutMillis := 0, pingIntervalMillis := 1000, pingTimeoutMillis := 300 }
    Ordered [.arm 0, .poll 1000000000, .ack 1 1400000000, .verdict 1400000000] ∧
      (((fresh k).run [.arm 0]).poll 1000000000).result = some 1 ∧
      1000000000 + k.patience < 1400000000 ∧
      (((fresh k).run [.arm 0, .poll 1000000000, .ack 1 1400000000]).verdict 1400000000).result =
        none := by
  decide

end HttpLifecycle.Monitor
