import HttpLifecycle.Proofs.Connection.Forward
import HttpLifecycle.Proofs.Connection.Outcome
import HttpLifecycle.Proofs.Connection.Transcript
import Mathlib.Data.List.Induction

namespace HttpLifecycle

namespace Monitor

variable {m : Monitor}

theorem isUnhealthy_iff (h : Vigilant m) (now : Instant) :
    (m.isUnhealthy now).result = true ↔
      m.stage ≠ .destroyed ∧ (m.fired now).unhealthy = true := by
  have hresult : (m.isUnhealthy now).result = (m.verdict now).result.any (·.unhealthy) := rfl
  rw [hresult, ← verdict_lost_iff h]
  cases hv : (m.verdict now).result with
  | none => simp
  | some v => cases v <;> simp [Verdict.unhealthy]

theorem poll_isUnhealthy (h : Vigilant m) (now : Instant)
    (hu : (m.isUnhealthy now).result = true) :
    ((m.poll now).state.isUnhealthy now).result = true := by
  obtain ⟨hs, hf⟩ := (isUnhealthy_iff h now).mp hu
  refine (isUnhealthy_iff (h.poll now) now).mpr ⟨by rwa [poll_stage], ?_⟩
  rw [fired_unhealthy, poll_unhealthy, hf]
  rfl

theorem counted_isUnhealthy (h : Vigilant m) (now : Instant)
    (hu : (m.isUnhealthy now).result = true) :
    ((m.activity now .headers).openStream.state.isUnhealthy now).result = true := by
  obtain ⟨hs, hf⟩ := (isUnhealthy_iff h now).mp hu
  have hsame : (m.activity now .headers).stage = m.stage ∧
      (m.activity now .headers).unhealthy = m.unhealthy ∧
      (m.activity now .headers).outstanding = m.outstanding := by
    rw [activity]
    split
    · exact ⟨rfl, rfl, rfl⟩
    · split <;> exact ⟨rfl, rfl, rfl⟩
  obtain ⟨hstage, hlost, hout⟩ := hsame
  refine (isUnhealthy_iff (h.activity now .headers).openStream now).mpr ⟨?_, ?_⟩
  · rwa [openStream_state, hstage]
  · rw [fired_unhealthy] at hf ⊢
    rw [openStream_state, hstage, hlost, hout]
    exact hf

end Monitor

namespace Connection

/-- There is no waiting for a drain: the server shuts down, the peer has failed
or a ping was lost. -/
def Forced (c : Connection) : Prop :=
  c.serverClosing = true ∨ c.peerError.isSome ∨ c.monitor.unhealthy = true

/-- The time that a drain gets if this input starts it. The application may
bring its own. -/
def Input.window (usual : Duration) : Input → Duration
  | .event (.shutdown (some wait)) => wait
  | _ => usual

/-- The first input to end the idle phase: when it came, and the time it gave. -/
def trigger? (c : Connection) (usual : Duration) : List Call → Option (Instant × Duration)
  | [] => none
  | x :: rest =>
    if c.drain.phase = .idle ∧ (c.after x).drain.phase ≠ .idle then
      some (x.now, x.input.window usual)
    else (c.after x).trigger? usual rest

/-- Inputs that a shutdown may come of, short of new streams. -/
def Input.shuts : Input → Bool
  | .timers | .event .close | .event (.shutdown _) | .event (.goAway ..) => true
  | _ => false

/-- The drain stays in its phase, and neither is its end put off nor is the
transport closed. -/
structure Still (c d : Connection) : Prop where
  phase : d.drain.phase = c.drain.phase
  deadline : d.drain.deadline = c.drain.deadline ∨ d.drain.deadline = none
  quiet : ∃ ks, d.commands = c.commands ++ ks ∧ .close ∉ ks

/-- A drain that starts is given its time, and one that ends had its time or
could not wait. -/
structure Timely (now : Instant) (wait : Duration) (c d : Connection) : Prop where
  begins : c.drain.phase = .idle → d.drain.phase = .wait → d.drain.deadline = some (now + wait)
  ends : c.drain.phase ≠ .closed → d.drain.phase = .closed →
    d.Forced ∨ (∃ at_, c.drain.deadline = some at_ ∧ at_ ≤ now) ∨ c.drain.phase = .idle ∧ wait = 0

variable {b : Bool} {c d e : Connection} {now : Instant} {wait : Duration}

namespace Still

theorem silent (hd : d.drain = c.drain) (hk : d.commands = c.commands) : Still c d :=
  ⟨by rw [hd], .inl (by rw [hd]), [], by rw [hk, List.append_nil], List.not_mem_nil⟩

theorem trans (h : Still c d) (g : Still d e) : Still c e := by
  obtain ⟨ks, hks, hno⟩ := h.quiet
  obtain ⟨ls, hls, hnone⟩ := g.quiet
  refine ⟨g.phase.trans h.phase, ?_, ks ++ ls, by rw [hls, hks, List.append_assoc], ?_⟩
  · rcases g.deadline with hg | hg
    · rw [hg]
      exact h.deadline
    · exact .inr hg
  · rintro hmem
    rcases List.mem_append.mp hmem with hmem | hmem
    · exact hno hmem
    · exact hnone hmem

theorem emit {es : List Effect} (hd : d.drain = c.drain) (hj : d.journal = c.journal ++ es)
    (hes : .close ∉ commandsOf es) : Still c d := by
  refine ⟨by rw [hd], .inl (by rw [hd]), commandsOf es, ?_, hes⟩
  rw [commands, hj, commands_append]

end Still

theorem Move.still (m : Move b c d) (hphase : d.drain.phase = c.drain.phase) : Still c d := by
  cases m with
  | serve ha =>
      obtain ⟨streams, intake, dispatched, es, hes⟩ := ha
      exact .emit rfl rfl (close_not_mem hes.commands.1)
  | tally es hes => exact .emit rfl rfl (by simp [hes])
  | probe payload hstage => exact .emit rfl rfl (by rw [commandsOf_sinks]; simp)
  | announce reason wait now es htorn hidle hes =>
      rw [hidle] at hphase
      contradiction
  | finish reason now es ho hreason hes => exact absurd hphase.symm ho.1
  | finishLate reason es htorn hopen hreason hes => exact absurd hphase.symm hopen
  | supersede => exact ⟨rfl, .inl rfl, [], (List.append_nil _).symm, List.not_mem_nil⟩
  | tearDown => exact ⟨rfl, .inr rfl, [], (List.append_nil _).symm, List.not_mem_nil⟩
  | attach | watch | latch | decide | peerFails => exact .silent rfl rfl

theorem ShutdownKept.drain (h : ShutdownKept c d) : d.drain = c.drain := by
  cases h
  rfl

theorem ShutdownKept.drainFor (h : ShutdownKept c d) : d.drainFor = c.drainFor := by
  cases h
  rfl

theorem counted_drain (c : Connection) (now : Instant) : (c.counted now).drain = c.drain := rfl

theorem counted_drainFor (c : Connection) (now : Instant) :
    (c.counted now).drainFor = c.drainFor := rfl

theorem rank_inj {p q : Drain.Phase} (h : p.rank = q.rank) : p = q := by
  cases p <;> cases q <;> first | rfl | contradiction

theorem Moves.still (h : Coherent c) (m : Moves b c d) (hphase : d.drain.phase = c.drain.phase) :
    Still c d := by
  induction m with
  | refl => exact .silent rfl rfl
  | @tail e f m n ih =>
      have hbefore := (Moves.forward h m).phase
      have hafter := (n.forward (Moves.coherent h m)).phase
      have hmid : e.drain.phase = c.drain.phase := by
        rw [hphase] at hafter
        exact rank_inj (Nat.le_antisymm hafter hbefore)
      exact (ih hmid).trans (n.still (hphase.trans hmid.symm))

theorem after_still (h : Coherent c) (x : Call)
    (hphase : (c.after x).drain.phase = c.drain.phase) : Still c (c.after x) := by
  rcases after_cases h x with ⟨-, -, he⟩ | hl
  · rw [he]
    exact .silent rfl rfl
  · generalize c.after x = d at hl hphase
    generalize c.admission? x = s at hl
    cases hl with
    | plain m => exact m.still h hphase
    | @admits e f stream m hrank n =>
        have hm := m.coherent h
        have hbefore := (m.forward h).phase
        have hafter : e.drain.phase.rank ≤ d.drain.phase.rank :=
          (n.forward (hm.admitStream stream)).phase
        have hmid : e.drain.phase = c.drain.phase := by
          rw [hphase] at hafter
          exact rank_inj (Nat.le_antisymm hafter hbefore)
        have hseated : Still (e.admitStream stream) d :=
          n.still (hm.admitStream stream) (hphase.trans hmid.symm)
        exact (m.still h hmid).trans ⟨hseated.phase, hseated.deadline, hseated.quiet⟩

namespace Timely

theorem still (h : d.drain.phase = c.drain.phase) : Timely now wait c d where
  begins hidle hwait := by
    rw [h, hidle] at hwait
    contradiction
  ends hopen hclosed := absurd (h.symm.trans hclosed) hopen

theorem after (hd : d.drain = c.drain) (h : Timely now wait d e) : Timely now wait c e where
  begins := by
    rw [← hd]
    exact h.begins
  ends := by
    rw [← hd]
    exact h.ends

theorem startDrain (h : Coherent c) (ht : c.tornDown = false) (reason : Reason) :
    Timely now wait c (c.startDrain reason wait now) := by
  by_cases hphase : c.drain.phase = .idle
  · by_cases hw : wait = 0
    · refine ⟨fun _ hwait => ?_, fun _ _ => .inr (.inr ⟨hphase, hw⟩)⟩
      obtain ⟨es, fs, -, -, he⟩ := startDrain_zero reason now h ht hphase
      rw [hw, he] at hwait
      contradiction
    · obtain ⟨es, -, he⟩ := startDrain_idle reason now h ht hphase hw
      rw [he]
      exact ⟨fun _ _ => rfl, fun _ hclosed => by contradiction⟩
  · obtain ⟨es, -, he⟩ := startDrain_later reason now wait h hphase
    rw [he]
    exact .still rfl

theorem conclude (h : Coherent c) (hf : c.Forced) (reason : Reason) :
    Timely now wait c (c.conclude reason now) := by
  by_cases hphase : c.drain.phase = .closed
  · rw [conclude_closed reason now h hphase]
    exact .still rfl
  · cases ht : c.tornDown with
    | false =>
        obtain ⟨es, -, he⟩ := conclude_open reason now h ht hphase
        rw [he]
        refine ⟨fun _ hwait => by contradiction, fun _ _ => .inl ?_⟩
        have hsame := (c.monitor.destroy_verdicts now).2
        exact hf.imp_right (.imp_right hsame.trans)
    | true =>
        obtain ⟨es, -, he⟩ := conclude_late reason now (h.state_closed ht) hphase
        rw [he]
        exact ⟨fun _ hwait => by contradiction, fun _ _ => .inl hf⟩

end Timely

theorem Forced.fire (h : c.Forced) (now : Instant) : (c.fire now).Forced := by
  refine h.imp_right (.imp_right fun hu => ?_)
  show (c.monitor.fired now).unhealthy = true
  rw [Monitor.fired_unhealthy, hu]
  rfl

theorem Timely.forceClose (h : Coherent c) (hf : c.Forced) :
    Timely now wait c (c.forceClose now) := by
  rw [forceClose_eq]
  rcases forceReason_state c now with hs | hs
  · rw [hs]
    exact .conclude h hf _
  · rw [hs]
    have hfired : Timely now wait (c.fire now) _ :=
      .conclude ((moves_fire c now).coherent h) (hf.fire now) (c.forceReason now).2
    exact .after (d := c.fire now) rfl hfired

theorem needsImmediate_forced (hv : c.monitor.Vigilant) (hu : c.Urgent now) :
    (c.needsImmediate now).1.Forced := by
  rw [needsImmediate]
  split
  · rename_i hset
    rw [Bool.or_eq_true] at hset
    exact hset.imp_right .inl
  · rename_i hclear
    rw [Bool.or_eq_true] at hclear
    rcases hu with hs | hp | hh
    · exact absurd (.inl hs) hclear
    · exact absurd (.inr hp) hclear
    · exact .inr (.inr ((Monitor.isUnhealthy_iff hv now).mp hh).2)

theorem needsImmediate_drain (c : Connection) (now : Instant) :
    (c.needsImmediate now).1.drain = c.drain := by
  rcases needsImmediate_state c now with hs | hs
  · rw [hs]
  · rw [hs]
    rfl

theorem Timely.forced (h : Coherent c) (hv : c.monitor.Vigilant) (hu : c.Urgent now) :
    Timely now wait c ((c.needsImmediate now).1.forceClose now) := by
  have hforced := needsImmediate_forced hv hu
  have hcoh : (c.needsImmediate now).1.Coherent := by
    rcases needsImmediate_state c now with hs | hs <;> rw [hs]
    · exact h
    · exact (moves_fire c now).coherent h
  exact .after (needsImmediate_drain c now) (.forceClose hcoh hforced)

namespace Timely

theorem close (h : Coherent c) (hv : c.monitor.Vigilant) :
    Timely now c.drainFor c (c.close now) := by
  by_cases ho : c.Open
  · by_cases hu : c.Urgent now
    · rw [close_forced ho hu]
      exact .forced h hv hu
    · rw [close_calm ho hu]
      have hstart : Timely now c.drainFor (c.fire now) _ :=
        .startDrain ((moves_fire c now).coherent h) ho.2
          (drainReason (c.monitor.verdict now).result)
      exact .after (d := c.fire now) rfl hstart
  · rw [close_over ho]
    exact .still rfl

theorem checkDisconnection (h : Coherent c) (hv : c.monitor.Vigilant) :
    Timely now c.drainFor c (c.checkDisconnection now) := by
  by_cases ho : c.Open
  · by_cases hu : c.Urgent now
    · rw [checkDisconnection_forced ho hu]
      exact .forced h hv hu
    · rw [checkDisconnection_calm ho hu]
      split
      · rw [startDrain_flag]
        have hstart : Timely now c.drainFor (c.fire now) _ :=
          .startDrain ((moves_fire c now).coherent h) ho.2
            (drainReason (c.monitor.verdict now).result)
        exact .after (d := c.fire now) rfl ⟨hstart.begins, hstart.ends⟩
      · exact .still rfl
  · rw [checkDisconnection_over ho]
    exact .still rfl

theorem pollDrain (h : Coherent c) : Timely now wait c (c.pollDrain now) := by
  by_cases hdue : ∃ at_, c.drain.deadline = some at_ ∧ at_ ≤ now
  · refine ⟨fun hidle => ?_, fun _ _ => .inr (.inl hdue)⟩
    obtain ⟨at_, hat, -⟩ := hdue
    have hwait := (h.deadline.mp (by simp [hat])).2
    rw [hidle] at hwait
    contradiction
  · rw [pollDrain_early now fun at_ hat => Nat.lt_of_not_le fun hle => hdue ⟨at_, hat, hle⟩]
    exact .still rfl

theorem pollTimers (h : Coherent c) (hv : c.monitor.Vigilant) :
    Timely now c.drainFor c (c.pollTimers now) := by
  rw [pollTimers_eq]
  split
  · exact .still rfl
  · have hprobed := moves_probed c now
    have hcoh := hprobed.coherent h
    have hdrain : (c.probed now).drain = c.drain := by
      rw [probed]
      split <;> rfl
    refine .after hdrain ?_
    by_cases hclosed : ((c.probed now).pollDrain now).drain.phase = .closed
    · rw [checkDisconnection_over fun ho => ho.1 hclosed]
      exact .pollDrain hcoh
    · have hearly : (c.probed now).pollDrain now = c.probed now := by
        rcases pollDrain_cases now hcoh with ⟨he, -⟩ | ⟨reason, es, -, -, -, he⟩
        · exact he
        · rw [he] at hclosed
          contradiction
      have hfor : (c.probed now).drainFor = c.drainFor := by
        rw [probed]
        split <;> rfl
      rw [hearly, ← hfor]
      exact .checkDisconnection hcoh (invariant_vigilant.moves h hv hprobed)

theorem onHeaders (h : Coherent c) (hv : c.monitor.Vigilant) (stream : StreamId)
    (headers : Headers) (endOfStream : Bool) :
    Timely now c.drainFor c (c.onHeaders stream headers endOfStream now).1 := by
  by_cases hlate : State.closing.rank ≤ c.state.rank
  · rw [onHeaders_late now stream headers endOfStream hlate]
    exact .still rfl
  · have hcounted := moves_counted c now
    have hcoh := hcounted.coherent h
    have hvig := invariant_vigilant.moves h hv hcounted
    cases hr : (c.activity now .headers).monitor.openStream.result with
    | false =>
        rw [onHeaders_beyond now stream headers endOfStream hlate hr]
        have hrefused : Moves true (c.counted now) ((c.counted now).refuse stream .maxRequests) :=
          (ShutdownKept.refuse _ _ _).moves
        have hrefusal := ShutdownKept.refuse (c.counted now) stream .maxRequests
        refine .after (hrefusal.drain.trans (counted_drain c now)) ?_
        rw [← counted_drainFor c now, ← hrefusal.drainFor]
        exact .checkDisconnection (hrefused.coherent hcoh)
          (invariant_vigilant.moves hcoh hvig hrefused)
    | true =>
        obtain ⟨e, hseat, he⟩ := onHeaders_opens now stream headers endOfStream hlate hr
        rw [he]
        have hattend := hcoh.admitStream stream
        have hmoves : Moves true ((c.counted now).admitStream stream) e := hseat.moves
        have hvige : e.monitor.Vigilant := invariant_vigilant.moves hattend hvig hmoves
        have hfor : e.drainFor = (c.counted now).drainFor := hseat.drainFor
        refine .after (hseat.drain.trans (counted_drain c now)) ?_
        rw [← counted_drainFor c now, ← hfor]
        exact .checkDisconnection (hmoves.coherent hattend) hvige

theorem onGoAway (h : Coherent c) (code : Nat) (last : StreamId) :
    Timely now c.drainFor c (c.onGoAway code last now) := by
  have hnoted : Moves false c (c.noted code last now) := moves_noted c code last now
  have hdrain : (c.noted code last now).drain = c.drain := rfl
  by_cases hcode : code = ErrorCode.noError
  · subst hcode
    rw [onGoAway_graceful]
    refine .after hdrain ?_
    split
    · exact .still rfl
    · rename_i hover
      have ht : c.tornDown = false := by
        cases ht : c.tornDown with
        | false => rfl
        | true => simp [ht] at hover
      exact .startDrain (hnoted.coherent h) ht .peerGoAway
  · rw [onGoAway_error now hcode]
    refine .after hdrain ⟨fun _ hwait => ?_, fun _ _ => .inl (.inr (.inl ?_))⟩
    · have hclosed := conclude_phase .peerGoAway now (c.noted code last now)
      have hboth : Drain.Phase.closed = .wait := hclosed.symm.trans hwait
      contradiction
    · show (c.peerError.or (some code)).isSome = true
      cases c.peerError <;> rfl

end Timely

theorem parted_phase (c : Connection) (now : Instant) :
    (c.parted now).drain.phase = c.drain.phase := by
  obtain ⟨es, -, he⟩ := stopped_eq c now
  have hserved := ShutdownKept.closeStreams { c.stopped now with tornDown := true } now
    (c.stopped now).streams
  show Drain.phase (Connection.drain (List.foldl _ _ _)) = _
  rw [hserved.drain, he]

theorem teardown_phase (c : Connection) (now : Instant) :
    (c.teardown now).drain.phase = c.drain.phase := by
  cases ht : c.tornDown with
  | true =>
      obtain ⟨es, -, he⟩ := stopped_eq c now
      rw [teardown_later now ht, he]
  | false =>
      rw [teardown_first now ht, ← parted_phase c now]
      simp only
      split <;> rfl

theorem onLifecycle_phase (c : Connection) (e : Lifecycle) (now : Instant) :
    (c.onLifecycle e now).drain.phase = c.drain.phase := by
  have hestablish (d : Connection) : (d.establish now).drain = d.drain := by
    rw [establish]
    split
    · simp only
      split <;> rfl
    · rfl
  cases e with
  | added => rfl
  | registered =>
      rw [onLifecycle]
      simp only [hestablish]
      rfl
  | active =>
      rw [onLifecycle]
      simp only [hestablish]
      split <;> rfl
  | inactive => exact teardown_phase _ now
  | removed => exact teardown_phase _ now

theorem StreamSteps.phase (m : StreamSteps (fun _ _ => True) false c d) :
    d.drain.phase = c.drain.phase := by
  rw [m.shutdownKept.drain]

theorem after_timely (h : Coherent c) (hv : c.monitor.Vigilant) (x : Call) :
    Timely x.now (x.input.window c.drainFor) c (c.after x) := by
  obtain ⟨input, now⟩ := x
  cases input with
  | timers => exact .pollTimers h hv
  | query =>
      exact .still (congrArg Drain.phase (needsImmediate_drain c now))
  | serve stream demand allowance =>
      exact .still (StreamSteps.phase (.serve stream demand allowance))
  | serverCloses => exact .still rfl
  | event e =>
      cases e with
      | lifecycle e => exact .still (onLifecycle_phase c e now)
      | headers stream headers endOfStream => exact .onHeaders h hv stream headers endOfStream
      | data stream bytes endOfStream =>
          exact .still (StreamSteps.phase (c := c.activity now .data)
            (.onData stream bytes endOfStream now fun _ _ _ => trivial))
      | ping payload => exact .still rfl
      | pingAck payload => exact .still rfl
      | reset stream code =>
          exact .still (StreamSteps.phase (c := c.activity now .control) (.onReset stream code now))
      | goAway code last => exact .onGoAway h code last
      | setResponse stream tag => exact .still (StreamSteps.phase (.setResponse stream tag))
      | complete stream => exact .still (StreamSteps.phase (.completeResponse stream now))
      | abort stream cause => exact .still (StreamSteps.phase (.abortStream stream cause now))
      | close => exact .close h hv
      | shutdown wait =>
          show Timely now _ c (c.shutdownRequested wait now)
          rw [shutdownRequested]
          split
          · exact .still rfl
          · rename_i ht
            have ht : c.tornDown = false := by simpa using ht
            cases wait with
            | none => exact .startDrain h ht .appRequested
            | some wait => exact .startDrain h ht .appRequested

theorem after_drainFor (h : Coherent c) (x : Call) : (c.after x).drainFor = c.drainFor := by
  have hkept : Invariant fun d => d.drainFor = c.drainFor :=
    { move := fun _ hd m => by
        cases m with
        | serve ha => exact ha.drainFor.trans hd
        | _ => exact hd
      admits := fun _ _ _ hd => hd
      server := fun hd => hd }
  exact hkept.after h rfl x

/-- The first trigger has settled when a drain ends, unless it cannot wait. -/
structure Scheduled (c : Connection) (trigger : Option (Instant × Duration)) : Prop where
  idle : trigger = none ↔ c.drain.phase = .idle
  wait : ∀ at_, c.drain.deadline = some at_ → trigger.map (fun w => w.1 + w.2) = some at_

theorem Scheduled.after (h : Coherent c) (hv : c.monitor.Vigilant)
    {trigger : Option (Instant × Duration)} (hs : Scheduled c trigger) (x : Call) :
    Scheduled (c.after x) (trigger.or
      (if c.drain.phase = .idle ∧ (c.after x).drain.phase ≠ .idle then
        some (x.now, x.input.window c.drainFor) else none)) := by
  have hcoh := invariant_coherent.after h h x
  by_cases hidle : c.drain.phase = .idle
  · obtain rfl := hs.idle.mpr hidle
    by_cases hstays : (c.after x).drain.phase = .idle
    · rw [if_neg fun hno => hno.2 hstays]
      refine ⟨iff_of_true rfl hstays, fun at_ hat => ?_⟩
      have hwait := (hcoh.deadline.mp (by simp [hat])).2
      rw [hstays] at hwait
      contradiction
    · rw [if_pos ⟨hidle, hstays⟩]
      refine ⟨iff_of_false (by simp) hstays, fun at_ hat => ?_⟩
      have hwait := (hcoh.deadline.mp (by simp [hat])).2
      have hstart := (after_timely h hv x).begins hidle hwait
      exact hstart.symm.trans hat
  · obtain ⟨first, rfl⟩ := Option.ne_none_iff_exists'.mp fun hnone => hidle (hs.idle.mp hnone)
    rw [Option.some_or]
    have hforward := (after_forward h x).phase
    refine ⟨iff_of_false (by simp) fun hback => ?_, fun at_ hat => hs.wait at_ ?_⟩
    · rw [hback] at hforward
      cases hp : c.drain.phase <;> simp_all [Drain.Phase.rank]
    · have hwait := (hcoh.deadline.mp (by simp [hat])).2
      have hsame : (c.after x).drain.phase = c.drain.phase := by
        have hstart := h.phase
        rw [hwait] at hforward ⊢
        cases hp : c.drain.phase <;> simp_all [Drain.Phase.rank]
      rcases (after_still h x hsame).deadline with hd | hd
      · exact hd.symm.trans hat
      · rw [hd] at hat
        contradiction

theorem trigger?_append (c : Connection) (usual : Duration) (xs : List Call) (x : Call) :
    c.trigger? usual (xs ++ [x]) = (c.trigger? usual xs).or
      (if (c.run xs).drain.phase = .idle ∧ ((c.run xs).after x).drain.phase ≠ .idle then
        some (x.now, x.input.window usual) else none) := by
  induction xs generalizing c with
  | nil => rfl
  | cons y rest ih =>
      rw [List.cons_append, trigger?, trigger?, ih]
      split
      · rfl
      · rfl

section Reachable

variable (id : ConnectionId) (protocol : Protocol) (config : Config) (routes : Resolver)
  (handler : Handler) (start : Instant)

theorem drainFor_run (xs : List Call) :
    ((create id protocol config routes handler start).run xs).drainFor = config.drain := by
  induction xs using List.reverseRecOn with
  | nil => rfl
  | append_singleton xs x ih =>
      rw [run_concat, after_drainFor (coherent_run id protocol config routes handler start xs), ih]

theorem scheduled_run (xs : List Call) :
    let c := create id protocol config routes handler start
    Scheduled (c.run xs) (c.trigger? config.drain xs) := by
  intro c
  induction xs using List.reverseRecOn with
  | nil => exact ⟨iff_of_true rfl rfl, fun at_ hat => by contradiction⟩
  | append_singleton xs x ih =>
      have hcoh := coherent_run id protocol config routes handler start xs
      have hvig := vigilant_run id protocol config routes handler start xs
      have hfor := drainFor_run id protocol config routes handler start xs
      have hnext := ih.after hcoh hvig x
      rw [hfor] at hnext
      rw [run_concat, trigger?_append]
      exact hnext

theorem close_due (xs : List Call) (x : Call) (ks : List Command)
    (hks : ((create id protocol config routes handler start).run (xs ++ [x])).commands =
      ((create id protocol config routes handler start).run xs).commands ++ ks)
    (hclose : .close ∈ ks) :
    let c := create id protocol config routes handler start
    ∃ s wait, c.trigger? config.drain (xs ++ [x]) = some (s, wait) ∧
      (s + wait ≤ x.now ∨ (c.run (xs ++ [x])).Forced) := by
  intro c
  have hfresh : Coherent c := coherent_create id protocol config routes handler start
  have hcoh : Coherent (c.run xs) := coherent_run id protocol config routes handler start xs
  have hvig := vigilant_run id protocol config routes handler start xs
  have hfor := drainFor_run id protocol config routes handler start xs
  have hbefore := scheduled_run id protocol config routes handler start xs
  have hafter := scheduled_run id protocol config routes handler start (xs ++ [x])
  have hwired : Wired (c.run (xs ++ [x])) :=
    invariant_wired.run hfresh (fun k hk => by contradiction) (xs ++ [x])
  have hclosed : (c.run (xs ++ [x])).drain.phase = .closed :=
    hwired.close_mem (by rw [hks]; exact List.mem_append_right _ hclose)
  have hopen : (c.run xs).drain.phase ≠ .closed := by
    intro hold
    rw [run_concat] at hks hclosed
    obtain ⟨ls, hls, hno⟩ := (after_still hcoh x (hclosed.trans hold.symm)).quiet
    exact hno (List.append_cancel_left (hls.symm.trans hks) ▸ hclose)
  obtain ⟨first, hfirst⟩ := Option.ne_none_iff_exists'.mp fun hnone => by
    rw [hafter.idle.mp hnone] at hclosed
    contradiction
  refine ⟨first.1, first.2, hfirst, ?_⟩
  rw [run_concat] at hclosed ⊢
  rw [trigger?_append] at hfirst
  rcases (after_timely hcoh hvig x).ends hopen hclosed with hf | ⟨at_, hat, hdue⟩ | ⟨hidle, hzero⟩
  · exact .inr hf
  · have hset := hbefore.wait at_ hat
    obtain ⟨w, hw, hend⟩ := Option.map_eq_some_iff.mp hset
    rw [hw, Option.some_or] at hfirst
    obtain rfl := Option.some.inj hfirst
    exact .inl (hend ▸ hdue)
  · have hends : (c.run xs).drain.phase = .idle ∧ ((c.run xs).after x).drain.phase ≠ .idle :=
      ⟨hidle, by simp [hclosed]⟩
    rw [hbefore.idle.mpr hidle, if_pos hends] at hfirst
    obtain rfl := Option.some.inj hfirst
    rw [hfor] at hzero
    exact .inl (by rw [hzero]; exact Nat.le_refl _)

end Reachable

theorem Urgent.keep (hu : c.Urgent now) (hs : d.serverClosing = c.serverClosing)
    (hp : d.peerError = c.peerError)
    (hm : (c.monitor.isUnhealthy now).result = true →
      (d.monitor.isUnhealthy now).result = true) : d.Urgent now := by
  rw [Urgent, hs, hp]
  exact hu.imp_right (.imp_right hm)

theorem ShutdownKept.urgent (h : ShutdownKept c d) (hu : c.Urgent now) : d.Urgent now := by
  cases h
  exact hu

theorem ShutdownKept.open (h : ShutdownKept c d) (ho : c.Open) : d.Open := by
  cases h
  exact ho

theorem pollTimers_closed (h : Coherent c) (hv : c.monitor.Vigilant) (ho : c.Open)
    (hu : c.Urgent now) : (c.pollTimers now).drain.phase = .closed := by
  have hcoh := (moves_probed c now).coherent h
  have hstill : (c.probed now).Open ∧ (c.probed now).Urgent now := by
    rw [probed]
    split <;> exact ⟨ho, hu.keep rfl rfl (Monitor.poll_isUnhealthy hv now)⟩
  rw [pollTimers_eq, if_neg (by simp [ho.2])]
  rcases pollDrain_cases now hcoh with ⟨he, -⟩ | ⟨reason, es, -, -, -, he⟩
  · rw [he]
    exact checkDisconnection_closed hstill.1 hstill.2
  · rw [he, checkDisconnection_over fun hopen => hopen.1 rfl]

theorem onHeaders_closed (h : Coherent c) (hv : c.monitor.Vigilant) (ho : c.Open)
    (hu : c.Urgent now) (stream : StreamId) (headers : Headers) (endOfStream : Bool) :
    (c.onHeaders stream headers endOfStream now).1.drain.phase = .closed := by
  have hearly : ¬ State.closing.rank ≤ c.state.rank := by
    have hrank := h.state_open ho
    exact Nat.not_le_of_lt (Nat.lt_succ_of_le hrank)
  have hcounted : (c.counted now).Urgent now :=
    hu.keep rfl rfl (Monitor.counted_isUnhealthy hv now)
  have hopen : (c.counted now).Open := ho
  cases hr : (c.activity now .headers).monitor.openStream.result with
  | false =>
      rw [onHeaders_beyond now stream headers endOfStream hearly hr]
      have hrefused := ShutdownKept.refuse (c.counted now) stream .maxRequests
      exact checkDisconnection_closed (hrefused.open hopen) (hrefused.urgent hcounted)
  | true =>
      obtain ⟨e, hseat, he⟩ := onHeaders_opens now stream headers endOfStream hearly hr
      rw [he]
      exact checkDisconnection_closed (hseat.open hopen) (hseat.urgent hcounted)

theorem streamsKept_shuts {x : Call} (h : x.input.shuts = true) : StreamsKept c (c.after x) := by
  obtain ⟨input, now⟩ := x
  cases input with
  | timers => exact .pollTimers c now
  | event e =>
      cases e with
      | close => exact .close c now
      | shutdown wait => exact .shutdownRequested c now wait
      | goAway code last => exact .onGoAway c now code last
      | _ => contradiction
  | _ => contradiction

/-- The drain window. The first trigger settles when the drain ends, and until
then the transport is ended only by what cannot wait. What cannot wait is not
kept waiting either, and nothing on the way touches a stream. -/
theorem drain_window (id : ConnectionId) (protocol : Protocol) (config : Config)
    (routes : Resolver) (handler : Handler) (start : Instant) (xs : List Call) :
    let fresh := create id protocol config routes handler start
    let c := fresh.run xs
    (c.tornDown = false → c.drain.phase = .wait → ∃ s wait,
      fresh.trigger? config.drain xs = some (s, wait) ∧ c.drain.deadline = some (s + wait)) ∧
    (∀ x ks, (c.after x).commands = c.commands ++ ks → .close ∈ ks → ∃ s wait,
      fresh.trigger? config.drain (xs ++ [x]) = some (s, wait) ∧
        (s + wait ≤ x.now ∨ (c.after x).Forced)) ∧
    (c.tornDown = false → ∀ now, (c.needsImmediate now).2 = true →
      (c.pollTimers now).state = .closing ∧ (c.close now).state = .closing ∧
        ∀ stream headers endOfStream,
          (c.onHeaders stream headers endOfStream now).1.state = .closing) ∧
    ∀ x, x.input.shuts = true →
      (c.after x).streams = c.streams ∧ (c.after x).intake = c.intake ∧
        ∃ es, (c.after x).journal = c.journal ++ es ∧ Upkeep es := by
  intro fresh c
  have hcoh : Coherent c := coherent_run id protocol config routes handler start xs
  have hvig : c.monitor.Vigilant := vigilant_run id protocol config routes handler start xs
  have hdistinct : Distinct c :=
    run_distinct (distinct_create id protocol config routes handler start) xs
  refine ⟨fun ht hwait => ?_, fun x ks hks hclose => ?_, fun ht now hasked => ?_, fun x hx => ?_⟩
  · obtain ⟨at_, hat⟩ := Option.isSome_iff_exists.mp (hcoh.deadline.mpr ⟨ht, hwait⟩)
    have hscheduled : Scheduled c (fresh.trigger? config.drain xs) :=
      scheduled_run id protocol config routes handler start xs
    obtain ⟨w, hw, rfl⟩ := Option.map_eq_some_iff.mp (hscheduled.wait at_ hat)
    exact ⟨w.1, w.2, hw, hat⟩
  · have hdue := close_due id protocol config routes handler start xs x ks
    rw [run_concat] at hdue
    obtain ⟨s, wait, htrigger, hend⟩ := hdue hks hclose
    rw [run_concat] at hend
    exact ⟨s, wait, htrigger, hend⟩
  · have hu := (needsImmediate_result c now).mp hasked
    have hclosing {x : Call} (hx : x.input.ends = false)
        (hopen : c.Open → (c.after x).drain.phase = .closed) : (c.after x).state = .closing := by
      have hafter := invariant_coherent.after hcoh hcoh x
      have hattached := (after_outcome (R := fun _ _ => True) hdistinct x trivial).attached hx
      have hphase : (c.after x).drain.phase = .closed := by
        by_cases hp : c.drain.phase = .closed
        · exact (after_closed hcoh hp x).2
        · exact hopen ⟨hp, ht⟩
      rw [hafter.state, hattached, ht, hphase]
      rfl
    exact ⟨hclosing (x := ⟨.timers, now⟩) rfl fun ho => pollTimers_closed hcoh hvig ho hu,
      hclosing (x := ⟨.event .close, now⟩) rfl fun ho => close_closed ho hu,
      fun stream headers endOfStream =>
        hclosing (x := ⟨.event (.headers stream headers endOfStream), now⟩) rfl fun ho =>
          onHeaders_closed hcoh hvig ho hu stream headers endOfStream⟩
  · have huntouched := streamsKept_shuts (c := c) hx
    refine ⟨huntouched.streams, huntouched.intake, ?_⟩
    generalize c.after x = d at huntouched
    obtain ⟨_, _, _, _, _, _, _, _, es, hes⟩ := huntouched
    exact ⟨es, rfl, hes⟩

end Connection

end HttpLifecycle
