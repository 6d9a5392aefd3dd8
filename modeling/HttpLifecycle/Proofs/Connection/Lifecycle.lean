import HttpLifecycle.Proofs.Connection.Forward
import HttpLifecycle.Proofs.Connection.Steady
import Mathlib.Data.List.Induction

namespace HttpLifecycle.Connection

def Input.reports (e : Lifecycle) (i : Input) : Bool := i.report? == some e

def Input.comes (i : Input) : Bool := i.reports .registered || i.reports .active

/-- The transport was active before it was gone. -/
def came : List Call → Bool
  | [] => false
  | x :: rest => !x.input.ends && (x.input.reports .active || came rest)

def gone (xs : List Call) : Bool := xs.any (·.input.ends)

def seen (xs : List Call) : Bool :=
  xs.any (·.input.reports .registered) && xs.any (·.input.reports .active)

/-- The times at which the monitor starts to watch. -/
def armings (c : Connection) : List Call → List Instant
  | [] => []
  | x :: rest =>
    (if c.monitor.stage ≠ .active ∧ (c.after x).monitor.stage = .active then [x.now] else []) ++
      (c.after x).armings rest

variable {c d e : Connection} {x : Call} {n : Nat}

theorem armings_concat (c : Connection) (xs : List Call) (x : Call) :
    c.armings (xs ++ [x]) = c.armings xs ++
      if (c.run xs).monitor.stage ≠ .active ∧ ((c.run xs).after x).monitor.stage = .active
      then [x.now] else [] := by
  induction xs generalizing c with
  | nil => exact List.append_nil _
  | cons y rest ih =>
      have hrest := ih (c.after y)
      rw [List.cons_append, armings, armings, hrest, List.append_assoc]
      rfl

theorem comes_ends {i : Input} (h : i.comes = true) : i.ends = false := by
  cases i with
  | event f =>
      cases f with
      | lifecycle f => cases f <;> first | rfl | contradiction
      | _ => rfl
  | _ => rfl

theorem reports_active_ends {i : Input} (h : i.reports .active = true) : i.ends = false :=
  comes_ends (by simp [Input.comes, h])

theorem gone_cons (x : Call) (xs : List Call) : gone (x :: xs) = (x.input.ends || gone xs) := rfl

theorem came_concat (xs : List Call) (x : Call) :
    came (xs ++ [x]) = (came xs || (!gone xs && x.input.reports .active)) := by
  induction xs with
  | nil =>
      cases hr : x.input.reports .active with
      | false => simp [came, gone, hr]
      | true => simp [came, gone, hr, reports_active_ends hr]
  | cons y rest ih =>
      rw [List.cons_append, came, came, ih, gone_cons]
      cases y.input.ends <;> cases y.input.reports .active <;> simp

theorem gone_concat (xs : List Call) (x : Call) : gone (xs ++ [x]) = (gone xs || x.input.ends) := by
  simp [gone]

theorem came_any {xs : List Call} (h : gone xs = false) :
    came xs = xs.any (·.input.reports .active) := by
  induction xs with
  | nil => rfl
  | cons y rest ih =>
      rw [gone_cons, Bool.or_eq_false_iff] at h
      rw [came, ih h.2, h.1]
      rfl

def passage (c d : Connection) : List Landmark :=
  (if !c.active && d.active then [.opened] else []) ++
    if !c.tornDown && d.tornDown && c.active then [.closed] else []

/-- What one call makes of the transport and of the monitor. -/
structure Passed (c : Connection) (x : Call) (d : Connection) : Prop where
  protocol : d.protocol = c.protocol
  registered : d.registered = (c.registered || x.input.reports .registered)
  active : d.active = (c.active || (x.input.reports .active && !c.tornDown))
  tornDown : d.tornDown = (c.tornDown || x.input.ends)
  watch : c.monitor.stage = .dormant ∧ d.monitor.stage = .active ∧
        d.monitor.startedAt = some x.now ∧ c.monitor.limits.enabled = true ∧
        d.registered = true ∧ d.active = true ∧ d.tornDown = false ∨
      d.monitor.startedAt = c.monitor.startedAt ∧
        (d.monitor.stage = c.monitor.stage ∨ d.monitor.stage = .destroyed ∧ x.input.comes = false)
  idle : c.arms = false → d.arms = false
  journal : Adds Effect.landmark? (c.parting d ++ c.passage d) c d

namespace Passed

theorem of_steady (h : Steady n c d) (hl : d.monitor.limits = c.monitor.limits)
    (hr : x.input.reports .registered = false)
    (ha : x.input.reports .active = true → d.monitor.stage = c.monitor.stage)
    (hopen : (c.active || (x.input.reports .active && !c.tornDown)) = c.active)
    (hends : x.input.ends = true → c.tornDown = true) : Passed c x d := by
  have hdown : (c.tornDown || x.input.ends) = c.tornDown := by
    cases hx : x.input.ends with
    | false => simp
    | true => simp [hends hx]
  refine ⟨h.protocol, by simp [h.registered, hr], h.active.trans hopen.symm,
    h.tornDown.trans hdown.symm, .inr ⟨h.startedAt, ?_⟩, fun hidle => ?_, ?_⟩
  · cases hx : x.input.reports .active with
    | false => exact h.stage.imp_right fun hs => ⟨hs, by simp [Input.comes, hr, hx]⟩
    | true => exact .inl (ha hx)
  · rw [arms, h.registered, h.active, h.tornDown, hl]
    rcases h.stage with hs | hs
    · rw [hs]
      exact hidle
    · simp [hs]
  · have hnone : c.passage d = [] := by simp [passage, h.active, h.tornDown]
    rw [hnone, List.append_nil]
    exact h.journal

theorem establish (hm : e.monitor = c.monitor) (hp : e.protocol = c.protocol)
    (hr : e.registered = (c.registered || x.input.reports .registered))
    (ha : e.active = (c.active || (x.input.reports .active && !c.tornDown)))
    (ht : e.tornDown = (c.tornDown || x.input.ends))
    (hj : Adds Effect.landmark? (c.passage e) c e) : Passed c x (e.establish x.now) := by
  cases harms : e.arms with
  | false =>
      have hstage : e.monitor.stage = c.monitor.stage := by rw [hm]
      rw [establish_idle x.now harms]
      refine ⟨hp, hr, ha, ht, .inr ⟨by rw [hm], .inl hstage⟩, fun _ => harms, ?_⟩
      rw [parting_same hstage]
      exact hj
  | true =>
      obtain ⟨es, hes, he, hactive, hstarted⟩ := establish_armed x.now harms
      simp only [arms, Bool.and_eq_true, Bool.not_eq_true', beq_iff_eq] at harms
      obtain ⟨⟨⟨⟨hregistered, hcame⟩, htorn⟩, hdormant⟩, henabled⟩ := harms
      rw [he]
      rw [hm] at hdormant henabled
      refine ⟨hp, hr, ha, ht, .inl ⟨hdormant, hactive, hstarted, henabled, hregistered, hcame,
        htorn⟩, fun _ => by simp [arms, hactive], ?_⟩
      have hwhole := hj.trans (e := { e with
        monitor := (e.monitor.arm x.now).state, journal := e.journal ++ es }) ⟨es, rfl, hes⟩
      rw [List.append_nil] at hwhole
      have hquiet : c.parting { e with
          monitor := (e.monitor.arm x.now).state, journal := e.journal ++ es } = [] := by
        simp [parting, Monitor.spent, hdormant]
      rw [hquiet]
      exact hwhole

end Passed

theorem after_limits (hc : Coherent c) (x : Call) :
    (c.after x).monitor.limits = c.monitor.limits :=
  (invariant_limits c.monitor.limits).after hc rfl x

def noticed (c : Connection) (e : Lifecycle) : Connection :=
  c.log .debug "lifecycle event" [("connection_id", .num c.id), ("event", .text e.text)]

theorem noticed_adds (c : Connection) (e : Lifecycle) :
    Adds Effect.landmark? [] c (c.noticed e) :=
  ⟨[.note ⟨.debug, "lifecycle event", [("connection_id", .num c.id), ("event", .text e.text)]⟩],
    rfl, rfl⟩

theorem passed_registered (c : Connection) (now : Instant) :
    Passed c ⟨.event (.lifecycle .registered), now⟩ (c.onLifecycle .registered now) := by
  have hstep : c.onLifecycle .registered now =
      ({ c.noticed .registered with registered := true } : Connection).establish now := rfl
  have hnone : c.passage { c.noticed .registered with registered := true } = [] := by
    simp [passage, noticed, log, emit]
  rw [hstep]
  refine .establish (x := ⟨.event (.lifecycle .registered), now⟩) rfl rfl ?_ ?_ ?_ ?_
  · exact (Bool.or_true _).symm
  · exact (Bool.or_false _).symm
  · exact (Bool.or_false _).symm
  · rw [hnone]
    exact noticed_adds c .registered

theorem passed_active (c : Connection) (now : Instant) :
    Passed c ⟨.event (.lifecycle .active), now⟩ (c.onLifecycle .active now) := by
  have hstep : c.onLifecycle .active now =
      (if c.active || c.tornDown then c.noticed .active
        else ({ c.noticed .active with active := true } : Connection).count
          .connectionsOpened).establish now := rfl
  have hreports : (Input.event (.lifecycle .active)).reports .active = true := rfl
  rw [hstep]
  split
  · rename_i h
    have hnone : c.passage (c.noticed .active) = [] := by
      simp [passage, noticed, log, emit]
    refine .establish (x := ⟨.event (.lifecycle .active), now⟩) rfl rfl ?_ ?_ ?_ ?_
    · exact (Bool.or_false _).symm
    · rw [hreports]
      cases hc : c.active <;> cases ht : c.tornDown <;> simp_all [noticed, log, emit]
    · exact (Bool.or_false _).symm
    · rw [hnone]
      exact noticed_adds c .active
  · rename_i h
    obtain ⟨hactive, htorn⟩ : c.active = false ∧ c.tornDown = false := by simpa using h
    refine .establish (x := ⟨.event (.lifecycle .active), now⟩) rfl rfl ?_ ?_ ?_ ?_
    · exact (Bool.or_false _).symm
    · rw [hreports, hactive, htorn]
      rfl
    · exact (Bool.or_false _).symm
    · have hone : c.passage (({ c.noticed .active with active := true } : Connection).count
          .connectionsOpened) = [.opened] := by
        simp [passage, noticed, log, emit, count, hactive]
      rw [hone]
      exact (noticed_adds c .active).trans ⟨[.count .connectionsOpened], rfl, rfl⟩

theorem passed_ends {e : Lifecycle} (he : e.ends = true) (now : Instant)
    (hl : (c.onLifecycle e now).monitor.limits = c.monitor.limits) :
    Passed c ⟨.event (.lifecycle e), now⟩ (c.onLifecycle e now) := by
  have hr : (Input.event (.lifecycle e)).reports .registered = false := by
    cases e <;> first | rfl | contradiction
  have ha : (Input.event (.lifecycle e)).reports .active = false := by
    cases e <;> first | rfl | contradiction
  have hends : (Input.event (.lifecycle e)).ends = true := he
  have hstep : c.onLifecycle e now = (c.noticed e).teardown now := onLifecycle_ends he now
  have hlog : Steady 0 c (c.noticed e) := Steady.log c _ _ _
  rw [hstep] at hl ⊢
  cases ht : c.tornDown with
  | true =>
      have hstopped : Steady 0 (c.noticed e) ((c.noticed e).teardown now) := by
        rw [teardown_later (c := c.noticed e) now ht]
        exact (Steady.observe _ (Monitor.steady_destroy _ now) (Monitor.modest_destroy _ now)).trans
          (.steer _ _)
      refine .of_steady (hlog.trans hstopped) hl hr (fun h => ?_) ?_ fun _ => ht
      · rw [ha] at h
        contradiction
      · rw [ha]
        exact Bool.or_false _
  | false =>
      obtain ⟨hprotocol, hregistered, hactive, htorn, hmonitor, hjournal⟩ :=
        teardown_passed (c := c.noticed e) now ht
      have hpassage : c.passage ((c.noticed e).teardown now) =
          if c.active then [.closed] else [] := by
        rw [passage, hactive, htorn, ht]
        cases hc : c.active <;> simp [noticed, log, emit, hc]
      refine ⟨hprotocol, ?_, ?_, ?_, .inr ⟨?_, .inr ⟨?_, ?_⟩⟩, fun _ => ?_, ?_⟩
      · rw [hregistered, hr]
        exact (Bool.or_false _).symm
      · rw [hactive, ha]
        exact (Bool.or_false _).symm
      · rw [htorn, hends]
        exact (Bool.or_true _).symm
      · rw [hmonitor]
        exact Monitor.destroy_startedAt _ now
      · rw [hmonitor]
        exact Monitor.destroy_stage _ now
      · rw [Input.comes, hr, ha]
        rfl
      · simp [arms, htorn]
      · rw [hpassage]
        exact (noticed_adds c e).trans hjournal

theorem after_passed (hc : Coherent c) (x : Call) : Passed c x (c.after x) := by
  have hlimits := after_limits hc x
  obtain ⟨input, now⟩ := x
  cases hx : input.report? with
  | none =>
      have hnever (e : Lifecycle) : input.reports e = false := by rw [Input.reports, hx]; rfl
      refine .of_steady (after_steady hx) hlimits (hnever .registered) (fun h => ?_) ?_ fun h => ?_
      · rw [hnever] at h
        contradiction
      · rw [hnever]
        exact Bool.or_false _
      · cases input with
        | event f => cases f <;> contradiction
        | _ => contradiction
  | some e =>
      cases input with
      | event f =>
          cases f with
          | lifecycle f =>
              cases f with
              | added =>
                  exact .of_steady (Steady.log c _ _ _) rfl rfl (fun _ => rfl) (Bool.or_false _)
                    fun h => by contradiction
              | registered => exact passed_registered c now
              | active => exact passed_active c now
              | inactive => exact passed_ends rfl now hlimits
              | removed => exact passed_ends rfl now hlimits
          | _ => contradiction
      | _ => contradiction

theorem spent_armed {m n : Monitor} (h : n.startedAt = m.startedAt)
    (hs : n.stage = m.stage ∨ n.stage = .destroyed)
    (hdormant : m.stage = .dormant → m.startedAt = none) :
    (if m.stage = .destroyed then m.startedAt.toList.length else 0) + m.spent n =
      if n.stage = .destroyed then n.startedAt.toList.length else 0 := by
  rw [Monitor.spent, h]
  rcases hs with hs | hs <;> cases hm : m.stage <;> simp_all

theorem passage_count (c d : Connection) :
    (c.passage d).count .opened = (!c.active && d.active).toNat ∧
      (c.passage d).count .closed = (!c.tornDown && d.tornDown && c.active).toNat ∧
      ∀ p, (c.passage d).count (.lifespan p) = 0 := by
  rw [passage]
  cases !c.active && d.active <;> cases !c.tornDown && d.tornDown && c.active <;> simp

/-- What is known of a connection from what the transport said so far. -/
structure Chronicle (fresh : Connection) (xs : List Call) (c : Connection) : Prop where
  protocol : c.protocol = fresh.protocol
  registered : c.registered = xs.any (·.input.reports .registered)
  active : c.active = came xs
  tornDown : c.tornDown = gone xs
  idle : c.arms = false
  dormant : c.monitor.stage = .dormant → c.monitor.startedAt = none
  watching : c.monitor.stage = .active → c.registered = true ∧ c.active = true
  armings : fresh.armings xs = c.monitor.startedAt.toList
  opened : (c.journal.filterMap Effect.landmark?).count .opened = (came xs).toNat
  closed : (c.journal.filterMap Effect.landmark?).count .closed = (came xs && gone xs).toNat
  lifespans : ∀ p, (c.journal.filterMap Effect.landmark?).count (.lifespan p) =
    if p = fresh.protocol ∧ c.monitor.stage = .destroyed then c.monitor.startedAt.toList.length
    else 0

theorem chronicle_create (id : ConnectionId) (protocol : Protocol) (config : Config)
    (routes : Resolver) (handler : Handler) (start : Instant) :
    Chronicle (create id protocol config routes handler start) []
      (create id protocol config routes handler start) := by
  constructor <;> simp [create, arms, came, gone, Connection.armings]

variable {fresh : Connection} {xs : List Call}

theorem Chronicle.passed (hrun : fresh.run xs = c) (h : Chronicle fresh xs c)
    (hp : Passed c x (c.after x)) : Chronicle fresh (xs ++ [x]) (c.after x) := by
  have hcame : (c.after x).active = came (xs ++ [x]) := by
    rw [hp.active, h.active, h.tornDown, came_concat, Bool.and_comm]
  have hgone : (c.after x).tornDown = gone (xs ++ [x]) := by
    rw [hp.tornDown, h.tornDown, gone_concat]
  have hcount (m : Landmark) : ((c.after x).journal.filterMap Effect.landmark?).count m =
      (c.journal.filterMap Effect.landmark?).count m + ((c.parting (c.after x)).count m +
        (c.passage (c.after x)).count m) := by
    rw [hp.journal.run, List.count_append, List.count_append]
  have hparting (m : Landmark) (hm : ∀ p, m ≠ .lifespan p) :
      (c.parting (c.after x)).count m = 0 := by
    rw [parting, List.count_replicate, if_neg]
    simpa using (hm c.protocol).symm
  obtain ⟨hopened, hclosed, hnone⟩ := passage_count c (c.after x)
  rw [h.active, hcame] at hopened
  rw [h.active, h.tornDown, hgone] at hclosed
  have hrise := came_concat xs x
  have hfall := gone_concat xs x
  refine ⟨hp.protocol.trans h.protocol, ?_, hcame, hgone, hp.idle h.idle, ?_, ?_, ?_, ?_, ?_, ?_⟩
  · rw [hp.registered, h.registered, List.any_append, List.any_cons, List.any_nil, Bool.or_false]
  · intro hs
    rcases hp.watch with ⟨-, hactive, -⟩ | ⟨hstart, hsame | ⟨hdead, -⟩⟩
    · rw [hactive] at hs
      contradiction
    · rw [hstart]
      exact h.dormant (hsame.symm.trans hs)
    · rw [hdead] at hs
      contradiction
  · intro hs
    rcases hp.watch with ⟨-, -, -, -, hr, ha, -⟩ | ⟨-, hsame | ⟨hdead, -⟩⟩
    · exact ⟨hr, ha⟩
    · obtain ⟨hr, ha⟩ := h.watching (hsame.symm.trans hs)
      exact ⟨by rw [hp.registered, hr]; rfl, by rw [hp.active, ha]; rfl⟩
    · rw [hdead] at hs
      contradiction
  · rw [armings_concat, hrun, h.armings]
    rcases hp.watch with ⟨hdormant, hactive, hstart, -⟩ | ⟨hstart, hs⟩
    · rw [h.dormant hdormant, hstart, if_pos ⟨by simp [hdormant], hactive⟩]
      rfl
    · rw [hstart, if_neg, List.append_nil]
      rintro ⟨hno, hyes⟩
      rcases hs with hsame | ⟨hdead, -⟩
      · exact hno (hsame.symm.trans hyes)
      · rw [hdead] at hyes
        contradiction
  · rw [hcount, h.opened, hparting .opened (by simp), hopened, hrise]
    cases came xs <;> cases gone xs <;> cases x.input.reports .active <;> rfl
  · rw [hcount, h.closed, hparting .closed (by simp), hclosed, hrise, hfall]
    cases hr : x.input.reports .active with
    | false => cases came xs <;> cases gone xs <;> cases x.input.ends <;> rfl
    | true =>
        rw [reports_active_ends hr]
        cases came xs <;> cases gone xs <;> rfl
  · intro p
    have hspent : (if c.monitor.stage = .destroyed then c.monitor.startedAt.toList.length else 0) +
        c.monitor.spent (c.after x).monitor = if (c.after x).monitor.stage = .destroyed
          then (c.after x).monitor.startedAt.toList.length else 0 := by
      rcases hp.watch with ⟨hdormant, hactive, -⟩ | ⟨hstart, hs⟩
      · simp [hdormant, hactive, Monitor.spent]
      · exact spent_armed hstart (hs.imp_right And.left) h.dormant
    rw [hcount, h.lifespans, hnone, parting, List.count_replicate, h.protocol]
    by_cases hsame : p = fresh.protocol
    · simpa [hsame] using hspent
    · have hother : ¬ fresh.protocol = p := fun he => hsame he.symm
      simp [hsame, hother]

theorem chronicle_run (id : ConnectionId) (protocol : Protocol) (config : Config)
    (routes : Resolver) (handler : Handler) (start : Instant) (xs : List Call) :
    Chronicle (create id protocol config routes handler start) xs
      ((create id protocol config routes handler start).run xs) := by
  induction xs using List.reverseRecOn with
  | nil => exact chronicle_create id protocol config routes handler start
  | append_singleton ys x ih =>
      have hc := coherent_run id protocol config routes handler start ys
      rw [run_concat]
      exact ih.passed rfl (after_passed hc x)

theorem Chronicle.seen_eq (h : Chronicle fresh xs c) (ht : c.tornDown = false) :
    seen xs = (c.registered && c.active) := by
  rw [seen, h.registered, h.active, came_any (h.tornDown ▸ ht)]

theorem Coherent.below_iff (h : Coherent c) :
    c.state.rank < State.closing.rank ↔ c.monitor.stage ≠ .destroyed := by
  rw [Ne, h.destroyed_iff, h.over_iff]
  cases c.state <;> simp [State.rank]

theorem seen_comes {xs : List Call} {x : Call} (hno : seen xs = false)
    (hyes : seen (xs ++ [x]) = true) : x.input.comes = true := by
  cases hr : x.input.reports .registered with
  | true => simp [Input.comes, hr]
  | false =>
      cases ha : x.input.reports .active with
      | true => simp [Input.comes, ha]
      | false =>
          have hsame : seen (xs ++ [x]) = seen xs := by simp [seen, hr, ha]
          rw [hsame, hno] at hyes
          contradiction

/-- The monitor starts to watch with the second of the two events, if it is to
watch at all and the connection is still below closing. -/
theorem Chronicle.starts (hrun : fresh.run xs = c) (hc : Coherent c) (h : Chronicle fresh xs c) :
    c.monitor.stage ≠ .active ∧ (c.after x).monitor.stage = .active ↔
      seen xs = false ∧ seen (xs ++ [x]) = true ∧ c.monitor.limits.enabled = true ∧
        c.state.rank < State.closing.rank := by
  have hp := after_passed hc x
  have hnext := h.passed hrun hp
  have hidle := h.idle
  rw [hc.below_iff]
  constructor
  · rintro ⟨hno, hyes⟩
    rcases hp.watch with ⟨hdormant, -, -, henabled, hr, ha, ht⟩ | ⟨-, hsame | ⟨hdead, -⟩⟩
    · have hup : c.tornDown = false := by
        rw [hp.tornDown, Bool.or_eq_false_iff] at ht
        exact ht.1
      refine ⟨?_, ?_, henabled, by simp [hdormant]⟩
      · rw [h.seen_eq hup]
        rw [arms, hup, hdormant, henabled] at hidle
        simpa using hidle
      · rw [hnext.seen_eq ht, hr, ha]
        rfl
    · exact absurd (hsame.symm.trans hyes) hno
    · rw [hdead] at hyes
      contradiction
  · rintro ⟨hnot, hseen, henabled, hlive⟩
    have hup : c.tornDown = false := by
      cases ht : c.tornDown with
      | false => rfl
      | true => exact absurd (hc.stage.mpr (.inl ht)) hlive
    have hcomes := seen_comes hnot hseen
    have hstays : (c.after x).tornDown = false := by
      rw [hp.tornDown, hup, comes_ends hcomes]
      rfl
    have hdormant : c.monitor.stage = .dormant := by
      cases hs : c.monitor.stage with
      | dormant => rfl
      | active =>
          obtain ⟨hr, ha⟩ := h.watching hs
          rw [h.seen_eq hup, hr, ha] at hnot
          contradiction
      | destroyed => exact absurd hs hlive
    refine ⟨by simp [hdormant], ?_⟩
    rcases hp.watch with ⟨-, hactive, -⟩ | ⟨-, hsame | ⟨-, hquiet⟩⟩
    · exact hactive
    · have harms := hnext.idle
      rw [hnext.seen_eq hstays] at hseen
      rw [arms, hseen, hstays, hsame, hdormant, after_limits hc x, henabled] at harms
      contradiction
    · rw [hcomes] at hquiet
      contradiction

end HttpLifecycle.Connection
