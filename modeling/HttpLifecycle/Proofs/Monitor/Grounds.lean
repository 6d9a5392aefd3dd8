import HttpLifecycle.Proofs.Monitor.Run

namespace HttpLifecycle.Monitor

def Armed (k : KeepAlive) (xs : List Call) (s : Instant) : Prop :=
  ∃ before later, xs = before ++ .arm s :: later ∧
    (((fresh k).run before).arm s).result = true

def Unacked (payload : Nat) : Monitor → List Call → Prop
  | _, [] => True
  | m, x :: rest =>
    (∀ now, x = .ack payload now → (m.ack payload now).result = false) ∧
      Unacked payload (m.after x) rest

/-- The ping went out at `s`, and neither up to now nor later is an
acknowledgement of it taken. -/
def Unanswered (k : KeepAlive) (past rest : List Call) (payload : Nat) (s : Instant) : Prop :=
  ∃ before later, past = before ++ .poll s :: later ∧
    (((fresh k).run before).poll s).result = some payload ∧
    Unacked payload (((fresh k).run before).after (.poll s)) (later ++ rest)

/-- By `t` the connection has been idle for as long as it may. -/
structure Idle (k : KeepAlive) (xs : List Call) (t : Instant) : Prop where
  limit : 0 < k.idleTimeoutMillis
  armed : ∃ s, Armed k xs s ∧ s + Duration.ofMillis k.idleTimeoutMillis ≤ t
  frames : ∀ now frame, .activity now frame ∈ xs → k.Counts frame →
    now + Duration.ofMillis k.idleTimeoutMillis ≤ t

structure Aged (k : KeepAlive) (xs : List Call) (t : Instant) : Prop where
  limit : 0 < k.maxAgeMillis
  armed : ∃ s, Armed k xs s ∧ s + Duration.ofMillis k.maxAgeMillis ≤ t

/-- What speaks for a verdict when the call `x` latches it. -/
def Warranted (k : KeepAlive) (past : List Call) (x : Call) (rest : List Call) : Verdict → Prop
  | .idleTimeout => ∃ t, x.look? = some t ∧ Idle k past t
  | .maxAge => ∃ t, x.look? = some t ∧ Aged k past t
  | .maxRequests =>
    x = .openStream ∧ 0 < k.maxRequests ∧ k.maxRequests ≤ (past ++ [x]).count .openStream
  | .pingTimeout =>
    ∃ t s payload, x.look? = some t ∧ s + k.patience ≤ t ∧
      Unanswered k past (x :: rest) payload s

/-- The statistics show the verdict at some point, or a call answers it. -/
def Reported (k : KeepAlive) (xs : List Call) (v : Verdict) : Prop :=
  (∃ past, past <+: xs ∧ ((fresh k).run past).latched = some v) ∨
    ∃ past now, past ++ [.verdict now] <+: xs ∧
      (((fresh k).run past).verdict now).result = some v

variable {k : KeepAlive} {m : Monitor} {xs ys : List Call} {x : Call} {v : Verdict}
  {s t d : Instant} {payload : Nat}

theorem Armed.append (h : Armed k xs s) (ys : List Call) : Armed k (xs ++ ys) s := by
  obtain ⟨before, later, rfl, hr⟩ := h
  exact ⟨before, later ++ ys, by simp, hr⟩

theorem Armed.mem (h : Armed k xs s) : .arm s ∈ xs := by
  obtain ⟨before, later, rfl, -⟩ := h
  exact List.mem_append_right _ List.mem_cons_self

theorem Unacked.append (h : Unacked payload m xs) (g : Unacked payload (m.run xs) ys) :
    Unacked payload m (xs ++ ys) := by
  induction xs generalizing m with
  | nil => exact g
  | cons x rest ih => exact ⟨h.1, ih h.2 g⟩

theorem unacked_unhealthy (h : m.unhealthy = true) (xs : List Call) : Unacked payload m xs := by
  induction xs generalizing m with
  | nil => trivial
  | cons x rest ih =>
      refine ⟨?_, ih (Holds.after (v := .pingTimeout) h x)⟩
      rintro now rfl
      rw [ack]
      split <;> simp [h]

theorem Unanswered.append (h : Unanswered k xs [] payload s)
    (g : Unacked payload ((fresh k).run xs) ys) : Unanswered k xs ys payload s := by
  obtain ⟨before, later, rfl, hr, hun⟩ := h
  refine ⟨before, later, rfl, hr, ?_⟩
  rw [List.append_nil] at hun
  refine hun.append ?_
  rw [run_append] at g
  exact g

theorem Unanswered.later (h : Unanswered k xs ys payload s) :
    Unanswered k (xs ++ ys) [] payload s := by
  obtain ⟨before, later, rfl, hr, hun⟩ := h
  exact ⟨before, later ++ ys, by simp, hr, by rwa [List.append_nil]⟩

theorem Idle.append (h : Idle k xs t)
    (hx : ∀ now frame, x = .activity now frame → ¬ k.Counts frame) : Idle k (xs ++ [x]) t := by
  refine ⟨h.limit, ?_, fun now frame hmem hcounts => ?_⟩
  · obtain ⟨s, hs, hle⟩ := h.armed
    exact ⟨s, hs.append [x], hle⟩
  · rcases List.mem_append.mp hmem with hmem | hmem
    · exact h.frames now frame hmem hcounts
    · exact absurd hcounts (hx now frame (List.mem_singleton.mp hmem).symm)

theorem Aged.append (h : Aged k xs t) (ys : List Call) : Aged k (xs ++ ys) t := by
  obtain ⟨s, hs, hle⟩ := h.armed
  exact ⟨h.limit, s, hs.append ys, hle⟩

theorem Idle.mono (h : Idle k xs d) (hle : d ≤ t) : Idle k xs t := by
  obtain ⟨s, hs, hd⟩ := h.armed
  refine ⟨h.limit, ⟨s, hs, Nat.le_trans hd hle⟩, fun now frame hmem hcounts => ?_⟩
  exact Nat.le_trans (h.frames now frame hmem hcounts) hle

theorem Aged.mono (h : Aged k xs d) (hle : d ≤ t) : Aged k xs t := by
  obtain ⟨s, hs, hd⟩ := h.armed
  exact ⟨h.limit, s, hs, Nat.le_trans hd hle⟩

theorem cleared_eq_some {at? : Option Instant}
    (h : (if due at? t then none else at?) = some d) : at? = some d := by
  split at h
  · contradiction
  · exact h

theorem fired_idleAt {now : Instant} (h : (m.fired now).idleAt = some d) : m.idleAt = some d := by
  by_cases ha : m.stage = .active
  · rw [fired_active ha, expire_state] at h
    exact cleared_eq_some h
  · rwa [fired_inactive ha] at h

theorem fired_ageAt {now : Instant} (h : (m.fired now).ageAt = some d) : m.ageAt = some d := by
  by_cases ha : m.stage = .active
  · rw [fired_active ha, expire_state] at h
    exact cleared_eq_some h
  · rwa [fired_inactive ha] at h

theorem active_armed (k : KeepAlive) (xs : List Call) :
    ((fresh k).run xs).stage = .active → ∃ s, Armed k xs s := by
  refine run_history (P := fun xs m => m.stage = .active → ∃ s, Armed k xs s) k
    (fun h => by contradiction) (fun past x n ih hx h => ?_) xs
  rcases hx.stage with hs | ⟨now, rfl, hr, -⟩ | ⟨-, -, hs⟩
  · obtain ⟨s, hs⟩ := ih (hs.symm.trans h)
    exact ⟨s, hs.append [x]⟩
  · exact ⟨now, past, [], rfl, hr⟩
  · rw [hs] at h
    contradiction

theorem idleAt_active (k : KeepAlive) (xs : List Call) :
    ((fresh k).run xs).idleAt.isSome → ((fresh k).run xs).stage = .active := by
  refine run_history (P := fun _ m => m.idleAt.isSome → m.stage = .active) k
    (fun h => by contradiction) (fun past x n ih hx h => ?_) xs
  have fired (now : Instant) (h : (((fresh k).run past).fired now).idleAt.isSome) :
      (((fresh k).run past).fired now).stage = .active := by
    obtain ⟨d, hd⟩ := Option.isSome_iff_exists.mp h
    exact (fired_stage _ now).trans (ih (Option.isSome_of_mem (fired_idleAt hd)))
  cases hx with
  | armed => rfl
  | restarted now frame ha => exact ha
  | rearmed | overheard | acked | unexpected => exact ih h
  | opened =>
      rw [openStream_state] at h ⊢
      exact ih h
  | looked x now => exact fired now h
  | sent payload now => exact fired now h
  | destroyed now =>
      rw [destroy_state] at h
      contradiction

theorem run_age (k : KeepAlive) (xs : List Call) :
    ∀ d, ((fresh k).run xs).ageAt = some d → Aged k xs d := by
  refine run_history (P := fun xs m => ∀ d, m.ageAt = some d → Aged k xs d) k
    (fun d h => by contradiction) (fun past x n ih hx d h => ?_) xs
  cases hx with
  | armed now hr =>
      obtain ⟨w, hw, rfl⟩ := Option.map_eq_some_iff.mp h
      rw [run_limits, fresh_limits] at hw
      obtain ⟨hpos, rfl⟩ := millis?_eq_some hw
      exact ⟨hpos, now, ⟨past, [], rfl, hr⟩, Nat.le_refl _⟩
  | rearmed | restarted | overheard | acked | unexpected => exact (ih d h).append [_]
  | opened => exact (ih d (by rwa [openStream_state] at h)).append [_]
  | looked x now => exact (ih d (fired_ageAt h)).append [_]
  | sent payload now => exact (ih d (fired_ageAt h)).append [_]
  | destroyed now =>
      rw [destroy_state] at h
      contradiction

theorem run_idle (k : KeepAlive) (xs : List Call) :
    Ordered xs → ((fresh k).run xs).latched = none →
      ∀ d, ((fresh k).run xs).idleAt = some d → Idle k xs d := by
  refine run_history (P := fun xs m => Ordered xs → m.latched = none →
    ∀ d, m.idleAt = some d → Idle k xs d) k (fun _ _ d h => by contradiction)
    (fun past x n ih hx hordered hn d h => ?_) xs
  have hquiet := hx.quiet hn
  obtain ⟨hpast, hlast⟩ := hordered.append
  have kept (h : ((fresh k).run past).idleAt = some d) := ih hpast hquiet d h
  have fired (now : Instant) (h : (((fresh k).run past).fired now).idleAt = some d) :=
    kept (fired_idleAt h)
  have restart (now : Instant) (hnow : x.now? = some now)
      (hs : ∃ s, Armed k (past ++ [x]) s ∧ s ≤ now)
      (hd : ∃ w, k.idleTimeout? = some w ∧ now + w = d) : Idle k (past ++ [x]) d := by
    obtain ⟨s, hs, hle⟩ := hs
    obtain ⟨w, hw, rfl⟩ := hd
    obtain ⟨hpos, rfl⟩ := millis?_eq_some hw
    refine ⟨hpos, ⟨s, hs, Nat.add_le_add_right hle _⟩, fun t frame hmem _ => ?_⟩
    refine Nat.add_le_add_right ?_ _
    rcases List.mem_append.mp hmem with hmem | hmem
    · exact hlast _ hmem t rfl x List.mem_cons_self now hnow
    · obtain rfl := List.mem_singleton.mp hmem
      exact Nat.le_of_eq (Option.some.inj hnow)
  cases hx with
  | armed now hr =>
      rw [run_limits, fresh_limits] at h
      exact restart now rfl ⟨now, ⟨past, [], rfl, hr⟩, Nat.le_refl _⟩
        (Option.map_eq_some_iff.mp h)
  | restarted now frame ha =>
      rw [run_limits, fresh_limits] at h
      cases hw : k.idleTimeout? with
      | none =>
          rw [hw] at h
          have hpos := (kept h).limit
          simp [KeepAlive.idleTimeout?, millis?] at hw
          omega
      | some w =>
          obtain ⟨s, hs⟩ := active_armed k past ha
          rw [hw] at h
          refine restart now rfl ⟨s, hs.append _, ?_⟩ ⟨w, hw, Option.some.inj h⟩
          exact hlast _ hs.mem s rfl _ List.mem_cons_self now rfl
  | overheard now frame hno =>
      refine (kept h).append ?_
      rintro _ _ ⟨⟩
      have hactive := idleAt_active k past (Option.isSome_of_mem h)
      have hcounts := hno hactive hquiet
      rwa [run_limits, fresh_limits] at hcounts
  | rearmed | acked | unexpected =>
      refine (kept h).append ?_
      rintro _ _ ⟨⟩
  | opened =>
      rw [openStream_state] at h
      refine (kept h).append ?_
      rintro _ _ ⟨⟩
  | looked x now hlook =>
      refine (fired now h).append ?_
      rintro _ _ rfl
      contradiction
  | sent payload now =>
      refine (fired now h).append ?_
      rintro _ _ ⟨⟩
  | destroyed now =>
      rw [destroy_state] at h
      contradiction

theorem run_ping (k : KeepAlive) (xs : List Call) :
    ∀ p, ((fresh k).run xs).outstanding = some p →
      p.deadline = p.sentAt + k.patience ∧ Unanswered k xs [] p.payload p.sentAt := by
  refine run_history (P := fun xs m => ∀ p, m.outstanding = some p →
    p.deadline = p.sentAt + k.patience ∧ Unanswered k xs [] p.payload p.sentAt) k
    (fun p h => by contradiction) (fun past x n ih hx p h => ?_) xs
  have kept (h : ((fresh k).run past).outstanding = some p)
      (hun : Unacked p.payload ((fresh k).run past) [x]) :
      p.deadline = p.sentAt + k.patience ∧ Unanswered k (past ++ [x]) [] p.payload p.sentAt :=
    ⟨(ih p h).1, ((ih p h).2.append hun).later⟩
  cases hx with
  | armed | rearmed | restarted | overheard =>
      refine kept h ⟨?_, trivial⟩
      rintro _ ⟨⟩
  | opened =>
      rw [openStream_state] at h
      refine kept h ⟨?_, trivial⟩
      rintro _ ⟨⟩
  | acked => contradiction
  | unexpected payload now hr =>
      refine kept h ⟨?_, trivial⟩
      rintro _ ⟨⟩
      exact hr
  | looked x now hlook =>
      refine kept ((fired_outstanding _ now).symm.trans h) ⟨?_, trivial⟩
      rintro _ rfl
      contradiction
  | sent payload now hr =>
      obtain rfl := Option.some.inj h
      rw [run_limits, fresh_limits]
      exact ⟨rfl, past, [], rfl, hr, trivial⟩
  | destroyed now =>
      rw [destroy_state] at h
      contradiction

inductive Expires (m : Monitor) (t : Instant) : Verdict → Prop
  | idleTimeout (d : Instant) (h : m.idleAt = some d) (hd : d ≤ t) : Expires m t .idleTimeout
  | maxAge (d : Instant) (h : m.ageAt = some d) (hd : d ≤ t) : Expires m t .maxAge
  | pingTimeout (p : Ping) (h : m.outstanding = some p) (hd : p.deadline ≤ t) :
      Expires m t .pingTimeout

theorem due_iff {at? : Option Instant} : due at? t = true ↔ ∃ d, at? = some d ∧ d ≤ t := by
  simp [due, Option.any_eq_true]

theorem fired_expires (h : (m.fired t).Holds v) (hfresh : ¬ m.Holds v) :
    m.stage = .active ∧ m.Expires t v := by
  by_cases ha : m.stage = .active
  · refine ⟨ha, ?_⟩
    rw [fired_active ha, expire_state] at h
    cases v with
    | pingTimeout =>
        have hhealthy : m.unhealthy = false := by simpa [Holds] using hfresh
        have hany : m.outstanding.any (·.deadline ≤ t) = true := by simpa [Holds, hhealthy] using h
        obtain ⟨p, hp, hle⟩ := (Option.any_eq_true _ _).mp hany
        exact .pingTimeout p hp (of_decide_eq_true hle)
    | idleTimeout =>
        have hdue : due m.idleAt t = true := by
          cases hg : m.graceful <;> cases hi : due m.idleAt t <;> simp_all [Holds]
        obtain ⟨d, hd, hle⟩ := due_iff.mp hdue
        exact .idleTimeout d hd hle
    | maxAge =>
        have hdue : due m.ageAt t = true := by
          cases hg : m.graceful <;> cases hi : due m.idleAt t <;> simp_all [Holds]
        obtain ⟨d, hd, hle⟩ := due_iff.mp hdue
        exact .maxAge d hd hle
    | maxRequests =>
        cases hg : m.graceful <;> cases hi : due m.idleAt t <;> simp_all [Holds]
  · rw [fired_inactive ha] at h
    exact absurd h hfresh

theorem Change.latching (hx : m.Change x n) (h : n.Holds v) (hfresh : ¬ m.Holds v) :
    (∃ t, x.look? = some t ∧ m.stage = .active ∧ m.Expires t v) ∨
      v = .maxRequests ∧ x = .openStream ∧
        ∃ max, m.limits.maxRequests? = some max ∧ max ≤ m.requests + 1 := by
  cases hx with
  | armed | rearmed | restarted | overheard | acked | unexpected =>
      exact absurd (h.congr rfl rfl) hfresh
  | opened =>
      rw [openStream_state] at h
      by_cases hmax : m.limits.maxRequests?.any (· ≤ m.requests + 1) = true
      · rw [if_pos hmax] at h
        obtain ⟨max, hm, hle⟩ := (Option.any_eq_true _ _).mp hmax
        refine .inr ⟨?_, rfl, max, hm, of_decide_eq_true hle⟩
        cases v <;> cases hg : m.graceful <;> simp_all [Holds]
      · rw [if_neg hmax] at h
        exact absurd (h.congr rfl rfl) hfresh
  | looked x now hlook => exact .inl ⟨now, hlook, fired_expires h hfresh⟩
  | sent payload now =>
      have hfired : (m.fired now).Holds v := h.congr rfl rfl
      exact .inl ⟨now, rfl, fired_expires hfired hfresh⟩
  | destroyed now =>
      rw [destroy_state] at h
      exact absurd (h.congr rfl rfl) hfresh

theorem Reported.latched (h : Reported k xs v) :
    ∃ past, past <+: xs ∧ ((fresh k).run past).latched = some v := by
  rcases h with h | ⟨past, now, hpast, hv⟩
  · exact h
  · refine ⟨past ++ [.verdict now], hpast, ?_⟩
    rw [verdict_result] at hv
    split at hv
    · contradiction
    · rw [run_concat]
      exact hv

/-- What a call latches on the way has its reason in what came before. -/
theorem latching_warranted (k : KeepAlive) (past : List Call) (x : Call) (rest : List Call)
    (hordered : Ordered past) (hquiet : v ≠ .pingTimeout → ((fresh k).run past).unhealthy = false)
    (h : (((fresh k).run past).after x).Holds v) (hfresh : ¬ ((fresh k).run past).Holds v) :
    Warranted k past x rest v := by
  have hx := after_change ((fresh k).run past) x
  rcases hx.latching h hfresh with ⟨t, hlook, -, hexpires⟩ | ⟨rfl, rfl, max, hmax, hle⟩
  · cases hexpires with
    | maxAge d hd hle => exact ⟨t, hlook, (run_age k past d hd).mono hle⟩
    | idleTimeout d hd hle =>
        have hnone : ((fresh k).run past).graceful = none := by
          cases hg : ((fresh k).run past).graceful with
          | none => rfl
          | some w =>
              have hw := hx.verdicts.1 w hg
              exact absurd (hg.trans (hw.symm.trans h)) hfresh
        have hlatched : ((fresh k).run past).latched = none := by
          rw [latched, hquiet (by simp), hnone]
          rfl
        exact ⟨t, hlook, (run_idle k past hordered hlatched d hd).mono hle⟩
    | pingTimeout p hp hle =>
        obtain ⟨hdeadline, hsent⟩ := run_ping k past p hp
        refine ⟨t, p.sentAt, p.payload, hlook, hdeadline ▸ hle, hsent.append ⟨?_, ?_⟩⟩
        · rintro now rfl
          contradiction
        · exact unacked_unhealthy h rest
  · rw [run_limits, fresh_limits] at hmax
    obtain ⟨hpos, rfl⟩ := KeepAlive.maxRequests?_eq_some hmax
    have hcount : ((fresh k).run past).requests = past.count .openStream := by
      rw [run_requests]
      exact Nat.zero_add _
    refine ⟨rfl, hpos, ?_⟩
    rw [List.count_append, ← hcount]
    exact hle

theorem disabled_inactive (hk : k.enabled = false) (xs : List Call) :
    ((fresh k).run xs).stage ≠ .active := by
  intro ha
  obtain ⟨s, before, later, rfl, hr⟩ := active_armed k xs ha
  have hnoop : ((fresh k).run before).isNoop = true := by
    rw [isNoop, run_limits, fresh_limits, hk]
    rfl
  simp [arm, hnoop] at hr

theorem disabled_holds (hk : k.enabled = false) (xs : List Call) (v : Verdict) :
    ¬ ((fresh k).run xs).Holds v := by
  intro h
  obtain ⟨past, x, rest, -, hfresh, hlatched⟩ :=
    exists_latching h (by cases v <;> simp [Holds, fresh])
  rcases (after_change _ x).latching hlatched hfresh with ⟨t, -, ha, -⟩ | ⟨-, -, max, hmax, -⟩
  · exact disabled_inactive hk past ha
  · rw [run_limits, fresh_limits] at hmax
    simp [KeepAlive.enabled, hmax] at hk

/-- A verdict has been latched by one call, and what happened before that call
is reason enough. Without limits there is nothing to wait for. -/
theorem verdicts_warranted (k : KeepAlive) (xs : List Call) :
    (Ordered xs → ∀ v, Reported k xs v → ∃ past x rest, xs = past ++ x :: rest ∧
        ¬ ((fresh k).run past).Holds v ∧ ((fresh k).run (past ++ [x])).Holds v ∧
        Warranted k past x rest v) ∧
      (k.idleTimeoutMillis = 0 → k.pingIntervalMillis = 0 → k.maxAgeMillis = 0 →
        k.maxRequests = 0 →
          (∀ v, ¬ Reported k xs v) ∧ ((fresh k).run xs).nextDeadline = none ∧
            ∀ now, (((fresh k).run xs).poll now).result = none ∧
              (((fresh k).run xs).verdict now).result = none) := by
  constructor
  · intro hordered v hv
    obtain ⟨seen, ⟨unseen, rfl⟩, hlatched⟩ := hv.latched
    have hvigilant : Vigilant ((fresh k).run seen) := (vigilant_fresh k).run seen
    obtain ⟨past, x, rest, rfl, hfresh, hholds⟩ :=
      exists_latching (hvigilant.holds hlatched) (by cases v <;> simp [Holds, fresh])
    refine ⟨past, x, rest ++ unseen, by simp, hfresh, by rwa [run_concat], ?_⟩
    refine latching_warranted k past x _ hordered.append.1.append.1 (fun hne => ?_) hholds hfresh
    cases hu : ((fresh k).run past).unhealthy with
    | false => rfl
    | true =>
        have hlost : ((fresh k).run (past ++ x :: rest)).unhealthy = true := by
          rw [run_append]
          exact Holds.run (v := .pingTimeout) hu (x :: rest)
        rw [latched, if_pos hlost] at hlatched
        exact absurd (Option.some.inj hlatched).symm hne
  · intro hidle hping hage hrequests
    have hk : k.enabled = false := by
      simp [KeepAlive.enabled, KeepAlive.idleTimeout?, KeepAlive.pingInterval?, KeepAlive.maxAge?,
        KeepAlive.maxRequests?, millis?, hidle, hping, hage, hrequests]
    have hinactive := disabled_inactive hk xs
    have hnone (xs : List Call) : ((fresh k).run xs).latched = none := by
      have hvigilant : Vigilant ((fresh k).run xs) := (vigilant_fresh k).run xs
      refine Option.eq_none_iff_forall_ne_some.mpr fun v hv => ?_
      exact disabled_holds hk xs v (hvigilant.holds hv)
    refine ⟨fun v hv => ?_, by simp [nextDeadline, timers, hinactive], fun now => ⟨?_, ?_⟩⟩
    · obtain ⟨past, -, hlatched⟩ := hv.latched
      rw [hnone] at hlatched
      contradiction
    · simp [poll, hinactive]
    · rw [verdict_result, fired_inactive hinactive, hnone, ite_self]

theorem verdicts_warranted_idle :
    let k : KeepAlive := { idleTimeoutMillis := 10000, maxRequests := 2 }
    let xs : List Call :=
      [.arm 0, .openStream, .activity 5000000000 .data, .verdict 15000000000, .openStream]
    Ordered xs ∧ Reported k xs .idleTimeout ∧
      (∃ past x rest, xs = past ++ x :: rest ∧ Warranted k past x rest .idleTimeout) ∧
      ((fresh .disabled).run xs).nextDeadline = none := by
  intro k xs
  have hordered : Ordered xs := by decide
  have hreported : Reported k xs .idleTimeout :=
    .inr ⟨xs.take 3, 15000000000, ⟨[.openStream], rfl⟩, by decide⟩
  obtain ⟨past, x, rest, hxs, -, -, hwarranted⟩ :=
    (verdicts_warranted k xs).1 hordered .idleTimeout hreported
  have hdisabled := (verdicts_warranted .disabled xs).2 rfl rfl rfl rfl
  exact ⟨hordered, hreported, ⟨past, x, rest, hxs, hwarranted⟩, hdisabled.2.1⟩

end HttpLifecycle.Monitor
