import HttpLifecycle.Proofs.Monitor.Probes

namespace HttpLifecycle.Monitor

variable {k : KeepAlive} {m : Monitor} {xs ys : List Call} {x : Call} {s t : Instant}

theorem Heeds.now? (h : m.Heeds x s) : x.now? = some s := by
  cases h <;> rfl

def Heeded (k : KeepAlive) (xs : List Call) (s : Instant) : Prop :=
  ∃ before x later, xs = before ++ x :: later ∧ ((fresh k).run before).Heeds x s

theorem heeded_concat :
    Heeded k (xs ++ [x]) s ↔ Heeded k xs s ∨ ((fresh k).run xs).Heeds x s := by
  constructor
  · rintro ⟨before, y, later, hxs, hy⟩
    rcases List.eq_nil_or_concat later with rfl | ⟨rest, z, rfl⟩
    · obtain ⟨rfl, hxy⟩ := List.append_inj' hxs rfl
      obtain rfl := (List.cons.inj hxy).1
      exact .inr hy
    · rw [List.concat_eq_append, ← List.cons_append, ← List.append_assoc] at hxs
      exact .inl ⟨before, y, rest, (List.append_inj' hxs rfl).1, hy⟩
  · rintro (⟨before, y, later, rfl, hy⟩ | hx)
    · exact ⟨before, y, later ++ [x], by simp, hy⟩
    · exact ⟨xs, x, [], rfl, hx⟩

theorem Heeded.le (h : Heeded k xs s) (hordered : Ordered (xs ++ [x])) (hx : x.now? = some t) :
    s ≤ t := by
  obtain ⟨before, y, later, rfl, hy⟩ := h
  exact hordered.append.2 y (by simp) s hy.now? x List.mem_cons_self t hx

theorem active_or_heeds (ha : (m.after x).stage = .active) :
    m.stage = .active ∨ ∃ now, m.Heeds x now := by
  rcases (m.after_change x).stage with hs | ⟨now, rfl, hr, -⟩ | ⟨-, -, hs⟩
  · exact .inl (hs.symm.trans ha)
  · exact .inr ⟨now, .armed now hr⟩
  · rw [hs] at ha
    contradiction

/-- While no ping is out the next one is due an interval after the peer was
last heeded. -/
theorem run_scheduled (k : KeepAlive) (xs : List Call) (hpos : 0 < k.pingIntervalMillis)
    (hordered : Ordered xs) (ha : ((fresh k).run xs).stage = .active)
    (hout : ((fresh k).run xs).outstanding = none) :
    ∃ last, ((fresh k).run xs).pingAt = some (last + Duration.ofMillis k.pingIntervalMillis) ∧
      Heeded k xs last ∧ ∀ s, Heeded k xs s → s ≤ last := by
  induction xs using List.reverseRecOn with
  | nil => contradiction
  | append_singleton xs x ih =>
      have hinterval : ((fresh k).run xs).limits.pingInterval? =
          some (Duration.ofMillis k.pingIntervalMillis) := by
        rw [run_limits]
        exact KeepAlive.pingInterval?_eq hpos
      rw [run_concat] at ha hout ⊢
      have anew (now : Instant) (hx : ((fresh k).run xs).Heeds x now)
          (hat : (((fresh k).run xs).after x).pingAt =
            some (now + Duration.ofMillis k.pingIntervalMillis)) :
          ∃ last, (((fresh k).run xs).after x).pingAt =
              some (last + Duration.ofMillis k.pingIntervalMillis) ∧
            Heeded k (xs ++ [x]) last ∧ ∀ s, Heeded k (xs ++ [x]) s → s ≤ last := by
        refine ⟨now, hat, heeded_concat.mpr (.inr hx), fun s hs => ?_⟩
        rcases heeded_concat.mp hs with hs | hs
        · exact hs.le hordered hx.now?
        · exact Nat.le_of_eq (Option.some.inj (hs.now?.symm.trans hx.now?))
      have hx := after_probing ((fresh k).run xs) x
      generalize hp : (((fresh k).run xs).after x).probes = p at hx
      have hat : (((fresh k).run xs).after x).pingAt = p.pingAt := congrArg Probes.pingAt hp
      have hnone : p.outstanding = none := (congrArg Probes.outstanding hp).symm.trans hout
      cases hx with
      | still _ _ _ hheeds =>
          have hidle : ∀ now, ¬ ((fresh k).run xs).Heeds x now := fun now hnow => by
            have hsome := hheeds now hnow
            rw [show ((fresh k).run xs).outstanding = none from hnone] at hsome
            contradiction
          have hactive := (active_or_heeds ha).resolve_right fun ⟨now, hnow⟩ => hidle now hnow
          obtain ⟨last, hlast, hheeded, hall⟩ := ih hordered.append.1 hactive hnone
          refine ⟨last, hat.trans hlast, heeded_concat.mpr (.inl hheeded), fun s hs => ?_⟩
          exact hall s ((heeded_concat.mp hs).resolve_right (hidle s))
      | armed now hd hr => exact anew now (.armed now hr) (by rw [hat, hinterval]; rfl)
      | heard now frame hh => exact anew now hh (by rw [hat, hinterval]; rfl)
      | sent => contradiction
      | acked ping now hr => exact anew now (.acked _ now hr) (by rw [hat, hinterval]; rfl)
      | dropped now =>
          rw [after, destroy_stage] at ha
          contradiction

theorem run_active_or_heeds (ha : (m.run ys).stage = .active) :
    m.stage = .active ∨
      ∃ before x later now, ys = before ++ x :: later ∧ (m.run before).Heeds x now := by
  induction ys generalizing m with
  | nil => exact .inl ha
  | cons y rest ih =>
      rcases ih ha with hy | ⟨before, x, later, now, rfl, hx⟩
      · refine (active_or_heeds hy).imp_right ?_
        rintro ⟨now, hx⟩
        exact ⟨[], y, rest, now, rfl, hx⟩
      · exact .inr ⟨y :: before, x, later, now, rfl, hx⟩

theorem heeded_after_frame {before later : List Call} {frame : Frame} {u : Instant}
    (hordered : Ordered (before ++ .activity u frame :: later)) (hc : k.Counts frame)
    (hl : ((fresh k).run before).latched = none)
    (ha : ((fresh k).run (before ++ .activity u frame :: later)).stage = .active) :
    ∃ s, Heeded k (before ++ .activity u frame :: later) s ∧ u ≤ s := by
  have hlimits : ((fresh k).run before).limits = k := by rw [run_limits, fresh_limits]
  by_cases hactive : ((fresh k).run before).stage = .active
  · have hc' : ((fresh k).run before).limits.Counts frame := by rwa [hlimits]
    exact ⟨u, ⟨before, _, later, rfl, .heard u frame hactive hl hc'⟩, Nat.le_refl u⟩
  · rw [run_append] at ha
    obtain ⟨mid, x, rest, s, hmid, hx⟩ := (run_active_or_heeds ha).resolve_left hactive
    rw [← run_append] at hx
    refine ⟨s, ⟨before ++ mid, x, rest, by rw [hmid, List.append_assoc], hx⟩, ?_⟩
    cases mid with
    | nil =>
        obtain ⟨rfl, -⟩ := List.cons.inj hmid
        exact Nat.le_of_eq (Option.some.inj hx.now?)
    | cons y mid =>
        obtain ⟨rfl, rfl⟩ := List.cons.inj hmid
        rw [List.append_cons] at hordered
        exact hordered.append.2 (.activity u frame) (by simp) u rfl x (by simp) s hx.now?

/-- A ping is sent just if none is out and an interval has passed since the peer
was last heeded. Frames that came in since then were those that are not heeded:
pings that do not count, and whatever comes in once a limit was hit. -/
theorem pinged_when_quiet (k : KeepAlive) (xs : List Call) (t : Instant)
    (hpos : 0 < k.pingIntervalMillis) (hordered : Ordered (xs ++ [.poll t])) :
    ((((fresh k).run xs).poll t).result.isSome ↔
        ((fresh k).run xs).stage = .active ∧ ((fresh k).run xs).outstanding = none ∧
          ∀ s, Heeded k xs s → s + Duration.ofMillis k.pingIntervalMillis ≤ t) ∧
      ((((fresh k).run xs).poll t).result.isSome → ∀ before u frame later,
        xs = before ++ .activity u frame :: later →
          t < u + Duration.ofMillis k.pingIntervalMillis →
            frame = .ping ∧ k.onPing = false ∨ ((fresh k).run before).latched ≠ none) := by
  have hlimits : ((fresh k).run xs).limits = k := by rw [run_limits, fresh_limits]
  have hiff : (((fresh k).run xs).poll t).result.isSome ↔
      ((fresh k).run xs).stage = .active ∧ ((fresh k).run xs).outstanding = none ∧
        ∀ s, Heeded k xs s → s + Duration.ofMillis k.pingIntervalMillis ≤ t := by
    rw [poll_isSome_iff, hlimits]
    constructor
    · rintro ⟨ha, -, -, hout, at_, hat, hle⟩
      obtain ⟨last, hlast, -, hall⟩ := run_scheduled k xs hpos hordered.append.1 ha hout
      obtain rfl := Option.some.inj (hat.symm.trans hlast)
      exact ⟨ha, hout, fun s hs => Nat.le_trans (Nat.add_le_add_right (hall s hs) _) hle⟩
    · rintro ⟨ha, hout, hall⟩
      obtain ⟨last, hlast, hheeded, -⟩ := run_scheduled k xs hpos hordered.append.1 ha hout
      exact ⟨ha, hpos, (keepsLost_run k xs).healthy ha hout, hout, _, hlast, hall last hheeded⟩
  refine ⟨hiff, fun hsent before u frame later hxs hlate => ?_⟩
  obtain ⟨ha, -, hall⟩ := hiff.mp hsent
  by_contra hheed
  obtain ⟨hc, hl⟩ := not_or.mp hheed
  subst hxs
  obtain ⟨s, hs, hle⟩ := heeded_after_frame hordered.append.1
    (fun hf => by simpa [hf] using hc) (not_not.mp hl) ha
  exact Nat.not_le.mpr hlate (Nat.le_trans (Nat.add_le_add_right hle _) (hall s hs))

theorem pinged_when_quiet_acked :
    let k : KeepAlive := { idleTimeoutMillis := 0, pingIntervalMillis := 1000 }
    let xs : List Call :=
      [.arm 0, .activity 700000000 .data, .poll 1700000000, .activity 1900000000 .headers,
        .ack 1 2000000000, .activity 2500000000 .ping]
    0 < k.pingIntervalMillis ∧ Ordered (xs ++ [.poll 3000000000]) ∧
      (((fresh k).run xs).poll 3000000000).result.isSome ∧
      (∀ s, Heeded k xs s → s + Duration.ofMillis k.pingIntervalMillis ≤ 3000000000) ∧
      (Frame.ping = .ping ∧ k.onPing = false ∨ ((fresh k).run (xs.take 5)).latched ≠ none) := by
  intro k xs
  have hpos : 0 < k.pingIntervalMillis := by decide
  have hordered : Ordered (xs ++ [.poll 3000000000]) := by decide
  have hsent : (((fresh k).run xs).poll 3000000000).result.isSome := by decide
  obtain ⟨hiff, hunheeded⟩ := pinged_when_quiet k xs 3000000000 hpos hordered
  exact ⟨hpos, hordered, hsent, (hiff.mp hsent).2.2,
    hunheeded hsent (xs.take 5) 2500000000 .ping [] rfl (by decide)⟩

/-- Half an interval after a frame the ping goes out all the same: after a ping
of the peer, and after data that came in when the request limit was hit. -/
theorem pinged_despite_frame :
    let k : KeepAlive := { idleTimeoutMillis := 0, pingIntervalMillis := 1000 }
    let xs : List Call := [.arm 0, .activity 500000000 .ping]
    let ys : List Call := [.arm 0, .openStream, .activity 500000000 .data]
    Ordered (xs ++ [.poll 1000000000]) ∧ Ordered (ys ++ [.poll 1000000000]) ∧
      1000000000 < 500000000 + Duration.ofMillis k.pingIntervalMillis ∧
      (((fresh k).run xs).poll 1000000000).result = some 1 ∧
      (((fresh { k with maxRequests := 1 }).run ys).poll 1000000000).result = some 1 := by
  decide

end HttpLifecycle.Monitor
