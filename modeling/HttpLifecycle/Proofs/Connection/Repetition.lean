import HttpLifecycle.Proofs.Connection.Lifecycle
import HttpLifecycle.Proofs.Connection.Reordering
import HttpLifecycle.Proofs.Connection.Sleep
import HttpLifecycle.Proofs.Connection.Window

namespace HttpLifecycle

theorem Metrics.recordAll_notes (m : Metrics) (notes : List Note) :
    m.recordAll (notes.map .note) = m := by
  induction notes with
  | nil => rfl
  | cons n rest ih => exact ih

namespace Monitor

variable {m : Monitor} {now : Instant}

theorem activity_inactive (h : m.stage ≠ .active) (frame : Frame) : m.activity now frame = m :=
  if_pos (.inl h)

theorem activity_heard {frame : Frame} (h : ¬ (m.stage ≠ .active ∨ m.latched.isSome))
    (hping : ¬ (frame = .ping ∧ !m.limits.onPing)) :
    m.activity now frame =
      { m with
        idleAt := (m.limits.idleTimeout?.map (now + ·)).or m.idleAt
        pingAt :=
          if m.outstanding.isSome then m.pingAt
          else (m.limits.pingInterval?.map (now + ·)).or m.pingAt } :=
  (if_neg h).trans (if_neg hping)

theorem activity_activity (m : Monitor) (now : Instant) (frame : Frame) :
    (m.activity now frame).activity now frame = m.activity now frame := by
  by_cases hdeaf : m.stage ≠ .active ∨ m.latched.isSome
  · have hsame : m.activity now frame = m := if_pos hdeaf
    rw [hsame, hsame]
  · by_cases hping : frame = .ping ∧ !m.limits.onPing
    · have hsame : m.activity now frame = m := (if_neg hdeaf).trans (if_pos hping)
      rw [hsame, hsame]
    · rw [activity_heard hdeaf hping]
      refine Eq.trans (activity_heard (m := { m with idleAt := _, pingAt := _ }) hdeaf hping) ?_
      cases m.limits.idleTimeout? <;> cases m.limits.pingInterval? <;>
        cases m.outstanding <;> simp

theorem destroy_destroy (m : Monitor) (now : Instant) :
    ((m.destroy now).state.destroy now).state = (m.destroy now).state := by
  simp only [destroy_state]

theorem destroy_silent (h : m.stage = .destroyed) (now : Instant) :
    (m.destroy now).events = [] := by
  simp [destroy, h]

end Monitor

theorem Drain.Decided.begun {d : Drain} (h : d.Decided) : d.phase ≠ .idle := by
  rcases h with hclosed | ⟨hphase, -⟩
  · simp [hclosed]
  · exact hphase

namespace Connection

variable {c d e : Connection} {now : Instant}

/-- One connection follows another, and all it did on the way was to leave notes. -/
def OnlyNotes (c d : Connection) : Prop := ∃ notes : List Note, d = c.emit (notes.map .note)

namespace OnlyNotes

theorem refl (c : Connection) : OnlyNotes c c := ⟨[], by simp [emit]⟩

theorem of_eq (h : d = c) : OnlyNotes c d := h ▸ refl c

theorem log (c : Connection) (level : HttpLifecycle.Level) (message : String)
    (fields : List (String × Note.Value)) : OnlyNotes c (c.log level message fields) :=
  ⟨[⟨level, message, fields⟩], rfl⟩

theorem trans (h : OnlyNotes c d) (g : OnlyNotes d e) : OnlyNotes c e := by
  obtain ⟨ns, rfl⟩ := h
  obtain ⟨ms, rfl⟩ := g
  exact ⟨ns ++ ms, by simp [emit]⟩

theorem coherent (h : OnlyNotes c d) (hc : Coherent c) : Coherent d := by
  obtain ⟨ns, rfl⟩ := h
  exact { hc with }

theorem metrics (h : OnlyNotes c d) (m : Metrics) :
    m.recordAll d.journal = m.recordAll c.journal := by
  obtain ⟨ns, rfl⟩ := h
  rw [emit, Metrics.recordAll_append, Metrics.recordAll_notes]

end OnlyNotes

/-- What may shut a connection down, or what the transport says of itself. -/
def Input.triggers (i : Input) : Bool := i.shuts || i.report?.isSome

/-- All that a trigger asks for at a time has been done. -/
def Obeyed (c : Connection) (now : Instant) : Input → Prop
  | .timers => c.Ahead now ∧ (c.Open → ¬ c.Urgent now ∧
      ((c.monitor.verdict now).result.isSome → c.closeRequested = true))
  | .event .close => c.Open → ¬ c.Urgent now ∧ c.monitor.Current now ∧ c.drain.Decided
  | .event (.shutdown _) => c.tornDown = true ∨ c.drain.phase ≠ .idle
  | .event (.goAway code _) =>
    c.monitor.activity now .control = c.monitor ∧
      if code = ErrorCode.noError then c.tornDown = true ∨ c.drain.Decided
      else c.drain.phase = .closed ∧ c.peerError.isSome
  | .event (.lifecycle .added) => True
  | .event (.lifecycle .registered) => c.registered = true ∧ c.arms = false
  | .event (.lifecycle .active) => (c.active = true ∨ c.tornDown = true) ∧ c.arms = false
  | .event (.lifecycle _) => c.tornDown = true ∧ (c.monitor.destroy now).state = c.monitor
  | _ => False

section Drain

variable (now) (reason : Reason) (wait : Duration)

theorem startDrain_drain (c : Connection) :
    (c.startDrain reason wait now).drain =
      (c.drain.startOn c.clock reason wait now).state := by
  simp only [startDrain]
  cases (c.drain.startOn c.clock reason wait now).result with
  | none => rfl
  | some answer =>
      simp only
      rw [afterDrain_drain]
      cases answer <;> rfl

theorem startDrain_begun (c : Connection) : (c.startDrain reason wait now).drain.phase ≠ .idle := by
  rw [startDrain_drain, Drain.startOn]
  split
  · rename_i hphase
    simp only [Drain.race]
    split <;> exact hphase
  · simp only
    split
    · simp [Drain.finish]
    · split <;> simp

theorem startDrain_waits (h : Coherent c) (ho : c.Open) :
    (c.startDrain reason wait now).drain.phase = .closed ∨
      ∃ state drain es, c.startDrain reason wait now =
        { c with state := state, drain := drain, journal := c.journal ++ es } := by
  by_cases hphase : c.drain.phase = .idle
  · by_cases hw : wait = 0
    · obtain ⟨es, fs, -, -, he⟩ := startDrain_zero reason now h ho.2 hphase
      rw [hw, he]
      exact .inl rfl
    · obtain ⟨es, -, he⟩ := startDrain_idle reason now h ho.2 hphase hw
      exact .inr ⟨_, _, es, he⟩
  · obtain ⟨es, -, he⟩ := startDrain_later reason now wait h hphase
    exact .inr ⟨c.state, _, es, he⟩

theorem startDrain_ignored (h : Coherent c) (hphase : c.drain.phase ≠ .idle)
    (hweak : c.drain.Decided ∨ reason.required = false) :
    OnlyNotes c (c.startDrain reason wait now) := by
  obtain ⟨current, hcurrent⟩ := Option.isSome_iff_exists.mp (h.reason.mpr hphase)
  have hkept : ¬ (c.drain.phase ≠ .closed ∧ current = .appRequested ∧ reason.required) := by
    rintro ⟨hopen, rfl, hreq⟩
    rcases hweak with (hclosed | ⟨-, hname⟩) | happ
    · exact hopen hclosed
    · exact hname hcurrent
    · rw [happ] at hreq
      contradiction
  have hrace : c.drain.startOn c.clock reason wait now =
      ⟨c.drain, [], some (.error (.shutdownRace current))⟩ := by
    simp [Drain.startOn, Drain.race, hphase, hcurrent, hkept]
  simp only [startDrain, onStarted, hrace]
  have hlog : OnlyNotes c (c.log .debug "ignoring drain trigger"
      [("connection_id", .num c.id), ("err", .text (Error.shutdownRace current).message)]) :=
    .log _ _ _ _
  refine hlog.trans (.of_eq ?_)
  rw [afterDrain_settled]
  · simp [steer, emit, log]
  · exact h.rank

end Drain

theorem urgent_fire (c : Connection) (now : Instant) : (c.fire now).Urgent now ↔ c.Urgent now := by
  rw [Urgent, Urgent, isUnhealthy_result, isUnhealthy_result, verdict_fire]
  rfl

theorem startDrain_obeyed {reason : Reason} (hreq : reason.required = true) (wait : Duration)
    (h : Coherent c) (ho : c.Open) (hcalm : ¬ c.Urgent now) (hcurrent : c.monitor.Current now) :
    (c.startDrain reason wait now).Obeyed now (.event .close) := by
  intro hopen
  have hdecided := startDrain_decided reason now wait h ho.2 hreq
  rcases startDrain_waits now reason wait h ho with hclosed | ⟨state, drain, es, he⟩
  · exact absurd hclosed hopen.1
  · rw [he] at hdecided ⊢
    exact ⟨hcalm, hcurrent, hdecided⟩

theorem close_obeyed (h : Coherent c) : (c.close now).Obeyed now (.event .close) := by
  by_cases ho : c.Open
  · by_cases hu : c.Urgent now
    · exact fun hopen => absurd (close_closed ho hu) hopen.1
    · rw [close_calm ho hu]
      have hcalm : ¬ (c.fire now).Urgent now := fun hn => hu ((urgent_fire c now).mp hn)
      exact startDrain_obeyed (drainReason_required _) c.drainFor ((moves_fire c now).coherent h)
        ho hcalm (c.monitor.fired_current now)
  · rw [close_over ho]
    exact fun hopen => absurd hopen ho

theorem Obeyed.close (h : Coherent c) (hx : c.Obeyed now (.event .close)) :
    OnlyNotes c (c.close now) := by
  by_cases ho : c.Open
  · obtain ⟨hcalm, hcurrent, hdecided⟩ := hx ho
    rw [close_calm ho hcalm, fire_of_current hcurrent]
    exact startDrain_ignored now _ _ h hdecided.begun (.inl hdecided)
  · exact .of_eq (close_over ho)

theorem checkDisconnection_obeyed (h : Coherent c) (ha : c.Ahead now) :
    (c.checkDisconnection now).Obeyed now .timers := by
  refine ⟨checkDisconnection_ahead h ha, fun hopen => ?_⟩
  by_cases ho : c.Open
  · by_cases hu : c.Urgent now
    · exact absurd (checkDisconnection_closed ho hu) hopen.1
    · rw [checkDisconnection_calm ho hu, fire_ahead ha] at hopen ⊢
      split
      · rename_i hlatched
        rw [if_pos hlatched, startDrain_flag] at hopen
        rw [startDrain_flag]
        refine ⟨?_, fun _ => rfl⟩
        rcases startDrain_waits now (drainReason (c.monitor.verdict now).result) c.drainFor h ho
          with hclosed | ⟨state, drain, es, he⟩
        · exact absurd hclosed hopen.1
        · rw [he]
          exact hu
      · rename_i hquiet
        refine ⟨hu, fun hsome => ?_⟩
        exact (Bool.not_eq_false _).mp fun hno => hquiet ⟨hno, hsome⟩
  · rw [checkDisconnection_over ho] at hopen
    exact absurd hopen ho

theorem pollTimers_obeyed (h : Coherent c) (hv : c.monitor.Vigilant) :
    (c.pollTimers now).Obeyed now .timers := by
  cases ht : c.tornDown with
  | true =>
      rw [pollTimers_eq, if_pos ht]
      have hover : ¬ c.Open := fun ho => by simp [ho.2] at ht
      exact ⟨ahead_over h hover, fun ho => absurd ho hover⟩
  | false =>
      rw [pollTimers_eq, if_neg (by simp [ht])]
      have hprobed := (moves_probed c now).coherent h
      have hdrain := (moves_pollDrain (b := true) now hprobed).coherent hprobed
      exact checkDisconnection_obeyed hdrain (pollDrain_ahead hprobed (probed_ahead hv))

theorem Obeyed.pollTimers (hx : c.Obeyed now .timers) : c.pollTimers now = c := by
  obtain ⟨hahead, hheard⟩ := hx
  rw [pollTimers_early hahead]
  by_cases ho : c.Open
  · obtain ⟨hcalm, hdone⟩ := hheard ho
    rw [checkDisconnection_calm ho hcalm, if_neg, fire_ahead hahead]
    rintro ⟨hno, hsome⟩
    rw [hdone hsome] at hno
    contradiction
  · exact checkDisconnection_over ho

theorem shutdownRequested_obeyed (c : Connection) (wait : Option Duration) :
    (c.shutdownRequested wait now).Obeyed now (.event (.shutdown wait)) := by
  rw [shutdownRequested]
  split
  · rename_i ht
    exact .inl ht
  · exact .inr (startDrain_begun now _ _ c)

theorem Obeyed.shutdownRequested (h : Coherent c) (wait : Option Duration)
    (hx : c.Obeyed now (.event (.shutdown wait))) : OnlyNotes c (c.shutdownRequested wait now) := by
  rw [Connection.shutdownRequested]
  split
  · exact .refl c
  · rename_i ht
    exact startDrain_ignored now _ _ h (hx.resolve_left ht) (.inr rfl)

theorem onGoAway_obeyed (h : Coherent c) (code : Nat) (last : StreamId) :
    (c.onGoAway code last now).Obeyed now (.event (.goAway code last)) := by
  have hcoh := (moves_onGoAway (b := false) now h code last).coherent h
  have hnoted := (moves_noted (b := false) c code last now).coherent h
  have hheard : (c.noted code last now).monitor.activity now .control =
      (c.noted code last now).monitor :=
    Monitor.activity_activity c.monitor now .control
  have hover (d : Connection) (hd : Coherent d) (hclosed : d.drain.phase = .closed) :
      d.monitor.activity now .control = d.monitor :=
    Monitor.activity_inactive (by simp [hd.stage.mpr (.inr hclosed)]) .control
  by_cases hcode : code = ErrorCode.noError
  · subst hcode
    rw [onGoAway_graceful] at hcoh ⊢
    rw [Obeyed, if_pos rfl]
    split
    · rename_i hlate
      refine ⟨hheard, ?_⟩
      rw [Bool.or_eq_true] at hlate
      exact hlate.imp_right fun hclosed => .inl (beq_iff_eq.mp hclosed)
    · rename_i hopen
      rw [if_neg hopen] at hcoh
      have ho : (c.noted ErrorCode.noError last now).Open :=
        (isOpen_iff c).mp (by rwa [Bool.or_comm])
      refine ⟨?_, .inr (startDrain_decided _ now _ hnoted ho.2 rfl)⟩
      rcases startDrain_waits now .peerGoAway c.drainFor hnoted ho
        with hclosed | ⟨state, drain, es, he⟩
      · exact hover _ hcoh hclosed
      · rw [he]
        exact hheard
  · have hclosed : (c.onGoAway code last now).drain.phase = .closed := by
      rw [onGoAway_error now hcode]
      exact conclude_phase .peerGoAway now (c.noted code last now)
    refine ⟨hover _ hcoh hclosed, ?_⟩
    rw [if_neg hcode]
    refine ⟨hclosed, ?_⟩
    rw [onGoAway_error now hcode]
    cases c.peerError <;> rfl

theorem Obeyed.onGoAway (h : Coherent c) (code : Nat) (last : StreamId)
    (hx : c.Obeyed now (.event (.goAway code last))) : OnlyNotes c (c.onGoAway code last now) := by
  obtain ⟨hheard, hdone⟩ := hx
  have hnoted : OnlyNotes c (c.noted code last now) := by
    rw [noted, activity, hheard]
    exact .log _ _ _ _
  have hcoh := hnoted.coherent h
  by_cases hcode : code = ErrorCode.noError
  · subst hcode
    rw [if_pos rfl] at hdone
    rw [onGoAway_graceful]
    split
    · exact hnoted
    · rename_i hopen
      have ho : c.Open := (isOpen_iff c).mp (by rwa [Bool.or_comm])
      have hdecided : c.drain.Decided := hdone.resolve_left (by simp [ho.2])
      exact hnoted.trans (startDrain_ignored now _ _ hcoh hdecided.begun (.inl hdecided))
  · rw [if_neg hcode] at hdone
    obtain ⟨hclosed, herror⟩ := hdone
    obtain ⟨error, herror⟩ := Option.isSome_iff_exists.mp herror
    rw [onGoAway_error now hcode, conclude_closed _ now hcoh hclosed]
    refine hnoted.trans (.of_eq ?_)
    rw [herror]
    exact congrArg (fun p => { c.noted code last now with peerError := p }) herror.symm

theorem teardown_monitor (c : Connection) (now : Instant) :
    (c.teardown now).monitor = (c.monitor.destroy now).state := by
  cases ht : c.tornDown with
  | true =>
      obtain ⟨es, -, he⟩ := stopped_eq c now
      rw [teardown_later now ht, he]
  | false =>
      obtain ⟨-, -, -, -, hmonitor, -⟩ := teardown_passed now ht
      exact hmonitor

theorem stopped_spent (h : Coherent c) (ht : c.tornDown = true)
    (hm : (c.monitor.destroy now).state = c.monitor) : c.stopped now = c := by
  have hstage : c.monitor.stage = .destroyed := h.stage.mpr (.inl ht)
  rw [stopped, observe_idle hm (Monitor.destroy_silent hstage now), cancel_gone h ht]
  simp [steer, emit]

theorem onLifecycle_obeyed (h : Coherent c) (hidle : c.arms = false) (event : Lifecycle) :
    (c.onLifecycle event now).Obeyed now (.event (.lifecycle event)) := by
  have hpassed : Passed c ⟨.event (.lifecycle event), now⟩ (c.onLifecycle event now) :=
    after_passed h _
  have hended (he : event.ends = true) : (c.onLifecycle event now).tornDown = true ∧
      ((c.onLifecycle event now).monitor.destroy now).state =
        (c.onLifecycle event now).monitor := by
    refine ⟨?_, ?_⟩
    · rw [hpassed.tornDown]
      simp [Input.ends, he]
    · rw [onLifecycle_ends he, teardown_monitor]
      exact Monitor.destroy_destroy _ now
  cases event with
  | added => trivial
  | registered => exact ⟨hpassed.registered.trans (Bool.or_true _), hpassed.idle hidle⟩
  | active =>
      refine ⟨?_, hpassed.idle hidle⟩
      rw [hpassed.active, hpassed.tornDown]
      cases c.active <;> cases c.tornDown <;> simp [Input.reports, Input.report?]
  | inactive => exact hended rfl
  | removed => exact hended rfl

theorem Obeyed.onLifecycle (h : Coherent c) (event : Lifecycle)
    (hx : c.Obeyed now (.event (.lifecycle event))) : OnlyNotes c (c.onLifecycle event now) := by
  have hnoticed : OnlyNotes c (c.noticed event) := .log _ _ _ _
  have hcoh := hnoticed.coherent h
  have hended (he : event.ends = true) (htorn : c.tornDown = true)
      (hspent : (c.monitor.destroy now).state = c.monitor) :
      OnlyNotes c (c.onLifecycle event now) := by
    have hstopped := stopped_spent (c := c.noticed event) hcoh htorn hspent
    rw [onLifecycle_ends he]
    exact hnoticed.trans (.of_eq ((teardown_later (c := c.noticed event) now htorn).trans hstopped))
  cases event with
  | added => exact hnoticed
  | registered =>
      obtain ⟨hregistered, hidle⟩ := hx
      have hsame : ({ c.noticed .registered with registered := true } : Connection) =
          c.noticed .registered :=
        congrArg (fun b => { c.noticed .registered with registered := b }) hregistered.symm
      have hstep : c.onLifecycle .registered now =
          ({ c.noticed .registered with registered := true } : Connection).establish now := rfl
      rw [hstep, hsame, establish_idle (c := c.noticed .registered) now hidle]
      exact hnoticed
  | active =>
      obtain ⟨hover, hidle⟩ := hx
      have hstep : c.onLifecycle .active now =
          (if c.active || c.tornDown then c.noticed .active
            else ({ c.noticed .active with active := true } : Connection).count
              .connectionsOpened).establish now := rfl
      rw [hstep, if_pos (by simpa using hover), establish_idle (c := c.noticed .active) now hidle]
      exact hnoticed
  | inactive => exact hended rfl hx.1 hx.2
  | removed => exact hended rfl hx.1 hx.2

/-- What is known of a connection at any time that a trigger may come. -/
structure ReadyForTrigger (c : Connection) : Prop where
  coherent : Coherent c
  vigilant : c.monitor.Vigilant
  idle : c.arms = false

theorem readyForTrigger_create (id : ConnectionId) (protocol : Protocol) (config : Config)
    (routes : Resolver) (handler : Handler) (start : Instant) :
    ReadyForTrigger (create id protocol config routes handler start) where
  coherent := coherent_create id protocol config routes handler start
  vigilant := Monitor.vigilant_fresh config.keepAlive
  idle := rfl

theorem ReadyForTrigger.act (h : ReadyForTrigger c) (a : Act) : ReadyForTrigger (c.act a) := by
  cases a with
  | call x =>
      exact ⟨invariant_coherent.after h.coherent h.coherent x,
        invariant_vigilant.after h.coherent h.vigilant x, (after_passed h.coherent x).idle h.idle⟩
  | _ => exact ⟨{ h.coherent with }, h.vigilant, h.idle⟩

theorem ReadyForTrigger.obeyed (h : ReadyForTrigger c) (x : Call) (hx : x.input.triggers = true) :
    (c.after x).Obeyed x.now x.input := by
  obtain ⟨input, now⟩ := x
  cases input with
  | timers => exact pollTimers_obeyed h.coherent h.vigilant
  | event f =>
      cases f with
      | lifecycle event => exact onLifecycle_obeyed h.coherent h.idle event
      | goAway code last => exact onGoAway_obeyed h.coherent code last
      | close => exact close_obeyed h.coherent
      | shutdown wait => exact shutdownRequested_obeyed c wait
      | _ => contradiction
  | _ => contradiction

/-- A trigger that was obeyed already is only noted. -/
theorem Obeyed.after (h : Coherent c) {x : Call} (hx : c.Obeyed x.now x.input) :
    OnlyNotes c (c.after x) := by
  obtain ⟨input, now⟩ := x
  cases input with
  | timers => exact .of_eq hx.pollTimers
  | event f =>
      cases f with
      | lifecycle event => exact hx.onLifecycle h event
      | goAway code last => exact hx.onGoAway h code last
      | close => exact hx.close h
      | shutdown wait => exact hx.shutdownRequested h wait
      | _ => exact hx.elim
  | _ => exact hx.elim

/-- A trigger that comes twice at one time does no more than one that comes
once. The first call has all done that it asks for, and the second leaves nothing
but notes: no command, no record, no word to a handler or a producer, no count. -/
theorem triggers_idempotent (id : ConnectionId) (protocol : Protocol) (config : Config)
    (routes : Resolver) (handler : Handler) (start : Instant) (acts : List Act) (x : Call)
    (hx : x.input.triggers = true) :
    let once := ((create id protocol config routes handler start).live acts).after x
    let twice := once.after x
    once.Obeyed x.now x.input ∧ OnlyNotes once twice ∧
      ∀ m : Metrics, m.recordAll twice.journal = m.recordAll once.journal := by
  intro once twice
  have hready : ReadyForTrigger ((create id protocol config routes handler start).live acts) :=
    live_kept ReadyForTrigger.act (readyForTrigger_create id protocol config routes handler start)
      acts
  have hobeyed : once.Obeyed x.now x.input := hready.obeyed x hx
  have hnotes : OnlyNotes once twice := hobeyed.after (hready.act (.call x)).coherent
  exact ⟨hobeyed, hnotes, hnotes.metrics⟩

/-- The idle time runs out while the application has a drain under way. The first
close latches the limit and names the drain for it, and the second is noted as a
trigger that came too late. -/
theorem triggers_idempotent_renamed :
    let acts : List Act := [.call ⟨.event (.lifecycle .registered), 0⟩,
      .call ⟨.event (.lifecycle .active), 0⟩, .call ⟨.event (.headers 1 {} false), 1⟩,
      .call ⟨.event (.shutdown none), 9500000000⟩]
    let c := (create 1 .h2 {} (fun _ => none) (fun _ _ => []) 0).live acts
    let x : Call := ⟨.event .close, 10000000001⟩
    let once := c.after x
    x.input.triggers = true ∧ c.drain.reason = some .appRequested ∧ c.monitor.graceful = none ∧
      once.drain.reason = some .idleTimeout ∧ once.monitor.graceful = some .idleTimeout ∧
      (once.after x).journal ≠ once.journal ∧ once.Obeyed x.now x.input ∧
      OnlyNotes once (once.after x) := by
  intro acts c x once
  have h := triggers_idempotent 1 .h2 {} (fun _ => none) (fun _ _ => []) 0 acts x rfl
  exact ⟨rfl, by decide +kernel, by decide +kernel, by decide +kernel, by decide +kernel,
    by decide +kernel, h.1, h.2.1⟩

end Connection

end HttpLifecycle
