import HttpLifecycle.Proofs.Monitor.RoundTrips

namespace HttpLifecycle.Monitor

variable {m : Monitor} {xs : List Call} {v : Verdict}

/-- All that is said of the verdict: the answer of a call that asks for it, and
what the statistics show after each call, if they are to be had. -/
def said (m : Monitor) (x : Call) : List (Option Verdict) :=
  (match x with
    | .verdict now => [(m.verdict now).result]
    | _ => []) ++ ((m.after x).stats?.map (·.verdict)).toList

/-- No report is to be had where the number of acknowledgements comes to zero
as a 32-bit word. Any other one shows what is latched. -/
theorem stats?_verdict (m : Monitor) :
    m.stats?.map (·.verdict) =
      if m.pingsAcked ≠ 0 ∧ Word.wrap32 m.pingsAcked = 0 then none else some m.latched := by
  by_cases hz : m.pingsAcked = 0
  · simp [stats?, hz]
  · by_cases hw : Word.wrap32 m.pingsAcked = 0 <;> simp [stats?, hz, hw]

theorem activity_latched (h : m.latched.isSome) (now : Instant) (frame : Frame) :
    m.activity now frame = m := by
  rw [activity, if_pos (.inr h)]

theorem after_latched (h : m.latched = some v) (x : Call) :
    (m.after x).latched = some v ∨ (m.after x).latched = some .pingTimeout := by
  obtain ⟨hgraceful, hlost⟩ := (m.after_change x).verdicts
  rw [latched] at h
  split at h
  · rename_i hu
    rw [latched, if_pos (hlost hu)]
    exact .inr rfl
  · rw [latched, hgraceful v h]
    split
    · exact .inr rfl
    · exact .inl rfl

theorem run_latched (h : m.latched.isSome) (xs : List Call) : (m.run xs).latched.isSome := by
  induction xs generalizing m with
  | nil => exact h
  | cons x rest ih =>
      obtain ⟨v, hv⟩ := Option.isSome_iff_exists.mp h
      refine ih (m := m.after x) ?_
      rcases after_latched hv x with hx | hx <;> rw [hx] <;> rfl

theorem after_undestroyed (h : m.stage ≠ .destroyed) {x : Call} (hx : ∀ now, x ≠ .destroy now) :
    (m.after x).stage ≠ .destroyed := by
  rcases (m.after_change x).stage with hs | ⟨-, -, -, hs⟩ | ⟨now, rfl, -⟩
  · rwa [hs]
  · rw [hs]
    nofun
  · exact absurd rfl (hx now)

theorem run_undestroyed (h : m.stage ≠ .destroyed) (hlive : ∀ now, .destroy now ∉ xs) :
    (m.run xs).stage ≠ .destroyed := by
  induction xs generalizing m with
  | nil => exact h
  | cons x rest ih =>
      refine ih (m := m.after x) (after_undestroyed h ?_) fun now hmem => ?_
      · rintro now rfl
        exact hlive now List.mem_cons_self
      · exact hlive now (List.mem_cons_of_mem _ hmem)

theorem verdict_eq_latched (h : m.stage ≠ .destroyed) (now : Instant) :
    (m.verdict now).result = (m.after (.verdict now)).latched := by
  rw [verdict_result, if_neg h]
  rfl

theorem shown_eq (m : Monitor) :
    ∃ i, (m.stats?.map (·.verdict)).toList = List.replicate i m.latched := by
  rw [stats?_verdict]
  split
  · exact ⟨0, rfl⟩
  · exact ⟨1, rfl⟩

theorem said_eq (h : m.stage ≠ .destroyed) (x : Call) :
    ∃ i, m.said x = List.replicate i (m.after x).latched := by
  obtain ⟨i, hi⟩ := (m.after x).shown_eq
  cases x with
  | verdict now =>
      refine ⟨i + 1, ?_⟩
      rw [said, verdict_eq_latched h, hi]
      rfl
  | _ => exact ⟨i, hi⟩

theorem gather_said (hs : m.stage ≠ .destroyed) (h : m.latched = some v)
    (hlive : ∀ now, .destroy now ∉ xs) :
    ∃ i j, m.gather said xs =
      List.replicate i (some v) ++ List.replicate j (some .pingTimeout) := by
  induction xs generalizing m v with
  | nil => exact ⟨0, 0, rfl⟩
  | cons x rest ih =>
      have hx : ∀ now, x ≠ .destroy now := by
        rintro now rfl
        exact hlive now List.mem_cons_self
      have hrest : ∀ now, .destroy now ∉ rest :=
        fun now hmem => hlive now (List.mem_cons_of_mem _ hmem)
      have hsafter := after_undestroyed hs hx
      obtain ⟨n, hn⟩ := said_eq hs x
      rw [gather, hn]
      rcases after_latched h x with hv | hv
      · obtain ⟨i, j, hij⟩ := ih hsafter hv hrest
        refine ⟨n + i, j, ?_⟩
        rw [hv, hij, ← List.append_assoc, List.replicate_append_replicate]
      · obtain ⟨i, j, hij⟩ := ih hsafter hv hrest
        refine ⟨0, n + (i + j), ?_⟩
        rw [hv, hij, List.replicate_append_replicate, List.replicate_append_replicate]
        rfl

/-- From the first verdict on frames move no timer. A verdict that was given is
given ever after, until a lost ping outranks it or the monitor is destroyed. The
statistics show it too, but for those that are not to be had. -/
theorem verdicts_stay (m : Monitor) :
    (m.latched.isSome → ∀ xs now frame, (m.run xs).activity now frame = m.run xs) ∧
      ∀ t v, (m.verdict t).result = some v → ∀ xs, (∀ now, .destroy now ∉ xs) →
        (∃ i j, (m.fired t).gather said xs =
          List.replicate i (some v) ++ List.replicate j (some .pingTimeout)) ∧
        let n := (m.fired t).run xs
        (∀ s, (n.verdict s).result.isSome) ∧ n.latched.isSome ∧
          n.stats?.map (·.verdict) =
            if n.pingsAcked ≠ 0 ∧ Word.wrap32 n.pingsAcked = 0 then none else some n.latched := by
  refine ⟨fun h xs now frame => activity_latched (run_latched h xs) now frame, ?_⟩
  intro t v hv xs hlive
  rw [verdict_result] at hv
  split at hv
  · contradiction
  · rename_i hs
    rw [← fired_stage m t] at hs
    have hsome : (m.fired t).latched.isSome := by rw [hv]; rfl
    have hsrun := run_undestroyed hs hlive
    refine ⟨gather_said hs hv hlive, fun s => ?_, run_latched hsome xs, stats?_verdict _⟩
    have hlater := run_latched hsome (xs ++ [.verdict s])
    rw [run_concat] at hlater
    rwa [verdict_eq_latched hsrun]

/-- Idle first, and then the ping is lost; the clock is set back in the end. -/
theorem verdicts_stay_outranked :
    let m := (fresh { idleTimeoutMillis := 1500, pingIntervalMillis := 1000 }).run
      [.arm 0, .poll 1000000000]
    let xs : List Call :=
      [.activity 1650000000 .data, .openStream, .verdict 2000000000, .verdict 1000000000]
    let n := (m.fired 1600000000).run xs
    (m.verdict 1600000000).result = some .idleTimeout ∧ (∀ now, .destroy now ∉ xs) ∧
      (∃ i j, (m.fired 1600000000).gather said xs =
        List.replicate i (some .idleTimeout) ++ List.replicate j (some .pingTimeout)) ∧
      n.stats?.map (·.verdict) = some (some .pingTimeout) ∧
      (m.fired 1600000000).latched.isSome ∧
      (m.fired 1600000000).activity 1700000000 .data = m.fired 1600000000 := by
  intro m xs n
  have hv : (m.verdict 1600000000).result = some .idleTimeout := by decide
  have hlive : ∀ now, .destroy now ∉ xs := by simp [xs]
  have hsome : (m.fired 1600000000).latched.isSome := by decide
  have hlost : n.latched = some .pingTimeout := by decide
  obtain ⟨hsaid, -, -, hshown⟩ := (verdicts_stay m).2 1600000000 .idleTimeout hv xs hlive
  rw [hlost, if_neg (by decide)] at hshown
  have hstill := (verdicts_stay (m.fired 1600000000)).1 hsome [] 1700000000 .data
  exact ⟨hv, hlive, hsaid, hshown, hsome, hstill⟩

def dueAfter (n : Nat) : Instant := 1000000 + n * 1500000

theorem rounds_lost (n : Nat) {t : Instant} (ht : t = dueAfter n + brisk.patience)
    (hm : m = (fresh brisk).run (rounds n ++ [.poll (dueAfter n)])) :
    (m.verdict t).result = some .pingTimeout ∧ (m.fired t).pingsAcked = n := by
  have h := rested_rounds n
  replace hm : m = ((fresh brisk).run (rounds n)).after (.poll (dueAfter n)) :=
    hm.trans (run_append ..)
  generalize (fresh brisk).run (rounds n) = r at h hm
  have hprobes := probes_sent (h.sends (t := dueAfter n) rfl)
  rw [← hm] at hprobes
  have hactive : m.stage = .active := by rw [hm, after, poll_stage, h.active]
  have hping : m.outstanding = some ⟨r.nextPayload, dueAfter n, t⟩ := by
    rw [show m.outstanding = _ from congrArg Probes.outstanding hprobes, h.limits, ht]
  have hout : m.outstanding.any (·.deadline ≤ t) = true := by
    simp only [hping, Option.any_some, Nat.le_refl, decide_true]
  have hlost : (m.fired t).unhealthy = true := by simp [fired_unhealthy, hactive, hout]
  have hacked : m.pingsAcked = n :=
    (congrArg Probes.acked hprobes).trans (congrArg Probes.acked h.probes)
  refine ⟨?_, (congrArg Probes.acked (m.fired_probes t)).trans hacked⟩
  rw [verdict_result, hactive, latched, hlost]
  rfl

theorem rounds_unshown {n : Nat} (hn : n ≠ 0) (hword : Word.wrap32 n = 0) :
    let m := (fresh brisk).run (rounds n ++ [.poll (dueAfter n)])
    let t := dueAfter n + brisk.patience
    (m.verdict t).result = some .pingTimeout ∧ (m.fired t).stats? = none := by
  intro m t
  obtain ⟨hv, hacked⟩ := rounds_lost n (t := t) rfl (m := m) rfl
  refine ⟨hv, Option.map_eq_none_iff.mp ((m.fired t).stats?_verdict.trans (if_pos ?_))⟩
  rw [hacked]
  exact ⟨hn, hword⟩

/-- A verdict that was just given, and no statistics to show it. -/
theorem verdict_unshown :
    let m := (fresh brisk).run (rounds 4294967296 ++ [.poll (dueAfter 4294967296)])
    let t := dueAfter 4294967296 + brisk.patience
    (m.verdict t).result = some .pingTimeout ∧ (m.fired t).stats? = none :=
  rounds_unshown (by decide) rfl

end HttpLifecycle.Monitor
