import HttpLifecycle.Proofs.Connection.Window

namespace HttpLifecycle

def Command.ping? : Command → Option Nat
  | .ping payload => some payload
  | _ => none

def pingsOf (ks : List Command) : List Nat := ks.filterMap Command.ping?

@[simp] theorem pingsOf_append (ks ls : List Command) :
    pingsOf (ks ++ ls) = pingsOf ks ++ pingsOf ls := List.filterMap_append

theorem pingsOf_eq_nil {ks : List Command} (h : ∀ n, .ping n ∉ ks) : pingsOf ks = [] := by
  refine List.filterMap_eq_nil_iff.mpr fun k hk => ?_
  cases k with
  | ping n => exact absurd hk (h n)
  | _ => rfl

theorem mem_pingsOf {ks : List Command} {n : Nat} : n ∈ pingsOf ks ↔ .ping n ∈ ks := by
  constructor
  · intro hn
    obtain ⟨k, hk, hkn⟩ := List.mem_filterMap.mp hn
    cases k with
    | ping m =>
        obtain rfl := Option.some.inj hkn
        exact hk
    | _ => contradiction
  · intro hn
    exact List.mem_filterMap.mpr ⟨_, hn, rfl⟩

namespace Monitor

structure Pingless (m : Monitor) : Prop where
  off : m.limits.pingInterval? = none
  out : m.outstanding = none
  healthy : m.unhealthy = false

variable {m n : Monitor}

theorem Pingless.turn (h : Pingless m) (t : m.Turn n) : Pingless n := by
  refine ⟨by rw [t.limits, h.off], ?_, by rw [t.verdicts.2, h.healthy]⟩
  have hout := h.out
  cases t with
  | arm now => unfold Monitor.arm; split <;> exact hout
  | activity now frame =>
      rw [Monitor.activity]
      split
      · exact hout
      · split <;> exact hout
  | ack payload now =>
      rw [Monitor.ack, hout]
      exact hout

theorem Pingless.fired (h : Pingless m) (now : Instant) : Pingless (m.fired now) := by
  refine ⟨by rw [fired_limits, h.off], ?_, ?_⟩
  · by_cases ha : m.stage = .active
    · rw [fired_active ha, expire_state]
      exact h.out
    · rw [fired_inactive ha, h.out]
  · rw [fired_unhealthy, h.healthy, h.out]
    simp

theorem Pingless.poll_result (h : Pingless m) (now : Instant) : (m.poll now).result = none := by
  have hoff : m.limits.pingTimeout? = none := by rw [KeepAlive.pingTimeout?, h.off]; rfl
  rcases poll_cases m now with ⟨hnone, -, -⟩ | ⟨timeout, -, ht, -, -, -⟩
  · exact hnone
  · rw [hoff] at ht
    contradiction

theorem Pingless.latch (h : Pingless m) (l : m.Latch n) : Pingless n := by
  cases l with
  | openStream =>
      rw [openStream_state]
      exact ⟨h.off, h.out, h.healthy⟩
  | verdict now => exact h.fired now
  | poll now =>
      have hnone := h.poll_result now
      rcases poll_cases m now with ⟨-, hs, -⟩ | ⟨timeout, -, -, -, hsome, -⟩
      · rw [hs]
        exact h.fired now
      · rw [hnone] at hsome
        contradiction

theorem Pingless.destroy (h : Pingless m) (now : Instant) : Pingless (m.destroy now).state := by
  rw [Monitor.destroy]
  split <;> exact ⟨h.off, rfl, h.healthy⟩

end Monitor

namespace Connection

def pings (c : Connection) : List Nat := pingsOf c.commands

variable {c d : Connection} (now : Instant)

theorem pings_append (c : Connection) {es : List Effect} (h : pingsOf (commandsOf es) = []) :
    pingsOf (commandsOf (c.journal ++ es)) = c.pings := by
  rw [commands_append, pingsOf_append, h, List.append_nil]
  rfl

theorem pingsOf_announcement (p : Protocol) (r : Reason) : pingsOf (announcement p r) = [] := by
  cases p <;> rfl

theorem pingsOf_farewell (p : Protocol) (last : StreamId) (r : Reason) :
    pingsOf (farewell p last r) = [] := by
  cases p <;> rfl

theorem Move.pings (m : Move false c d) : d.pings = c.pings := by
  cases m with
  | serve ha =>
      obtain ⟨streams, intake, dispatched, es, hes⟩ := ha
      exact pings_append c (pingsOf_eq_nil hes.commands.2)
  | tally es hes => exact pings_append c (by rw [hes]; rfl)
  | announce reason wait now es htorn hphase hes =>
      exact pings_append c (by rw [hes, pingsOf_announcement])
  | finish reason now es ho hreason hes =>
      exact pings_append c (by rw [hes, pingsOf_farewell])
  | finishLate reason es htorn hphase hreason hes =>
      exact pings_append c (by rw [hes, pingsOf_farewell])
  | attach | watch | supersede | decide | peerFails | tearDown => rfl

theorem Moves.pings (m : Moves false c d) : d.pings = c.pings := by
  induction m with
  | refl => rfl
  | tail _ m ih => exact m.pings.trans ih

theorem Leads.pings {s : Option StreamId} (l : Leads false c s d) : d.pings = c.pings := by
  cases l with
  | plain m => exact Moves.pings m
  | admits stream m hrank n =>
      have hm := Moves.pings m
      exact (Moves.pings n).trans hm

theorem observe_pings {α : Type} (c : Connection) (s : Step Monitor Monitor.Event α) :
    (c.observe s).pings = c.pings :=
  pings_append c (by rw [commandsOf_ofMonitor]; rfl)

theorem fire_pings (c : Connection) : (c.fire now).pings = c.pings := observe_pings c _

theorem needsImmediate_pings (c : Connection) : (c.needsImmediate now).1.pings = c.pings := by
  rcases needsImmediate_state c now with he | he
  · rw [he]
  · rw [he, fire_pings]

theorem conclude_pings (h : Coherent c) (hd : d = c ∨ d = c.fire now) (reason : Reason) :
    (d.conclude reason now).pings = c.pings := by
  rcases hd with rfl | rfl
  · exact (moves_conclude reason now h).pings
  · rw [(moves_conclude reason now ((moves_fire c now).coherent h)).pings, fire_pings]

theorem close_pings (h : Coherent c) : (c.close now).pings = c.pings := by
  by_cases ho : c.Open
  · by_cases hu : c.Urgent now
    · obtain ⟨d, reason, hd, he⟩ := close_urgent ho hu
      rw [he, conclude_pings now h hd]
    · rw [close_calm ho hu,
        (moves_startDrain _ now _ ((moves_fire c now).coherent h) ho.2).pings, fire_pings]
  · rw [close_over ho]

theorem checkDisconnection_pings (h : Coherent c) :
    (c.checkDisconnection now).pings = c.pings := by
  by_cases ho : c.Open
  · by_cases hu : c.Urgent now
    · obtain ⟨d, reason, hd, he⟩ := checkDisconnection_urgent ho hu
      rw [he, conclude_pings now h hd]
    · rw [checkDisconnection_calm ho hu]
      split
      · rw [startDrain_flag]
        exact (moves_startDrain _ now _ ((moves_fire c now).coherent h) ho.2).pings.trans
          (fire_pings now c)
      · exact fire_pings now c
  · rw [checkDisconnection_over ho]

theorem onHeaders_pings (h : Coherent c) (stream : StreamId) (headers : Headers)
    (endOfStream : Bool) : (c.onHeaders stream headers endOfStream now).1.pings = c.pings := by
  by_cases hlate : State.closing.rank ≤ c.state.rank
  · rw [onHeaders_late now stream headers endOfStream hlate]
    exact ((moves_activity c now .headers).trans (ShutdownKept.refuse _ _ _).moves).pings
  · have hcounted := (moves_counted c now).coherent h
    have hpings : (c.counted now).pings = c.pings := observe_pings (c.activity now .headers) _
    cases hr : (c.activity now .headers).monitor.openStream.result with
    | false =>
        rw [onHeaders_beyond now stream headers endOfStream hlate hr]
        have hrefused : Moves false _ _ :=
          (ShutdownKept.refuse (c.counted now) stream .maxRequests).moves
        rw [checkDisconnection_pings now (hrefused.coherent hcounted), hrefused.pings, hpings]
    | true =>
        obtain ⟨e, hseat, he⟩ := onHeaders_opens now stream headers endOfStream hlate hr
        rw [he]
        have hmoves : Moves false _ e := hseat.moves
        rw [checkDisconnection_pings now (hmoves.coherent (hcounted.admitStream stream)),
          hmoves.pings]
        exact hpings

def pinged? (c : Connection) (x : Call) : Option Nat :=
  match x.input with
  | .timers => if c.tornDown then none else (c.monitor.poll x.now).result
  | _ => none

theorem probed_pings (c : Connection) :
    (c.probed now).pings = c.pings ++ (c.monitor.poll now).result.toList := by
  rw [probed]
  cases (c.monitor.poll now).result with
  | none => exact (observe_pings c _).trans (List.append_nil _).symm
  | some payload =>
      show pingsOf (commandsOf ((c.observe (c.monitor.poll now)).journal ++ _)) = _
      rw [commands_append, pingsOf_append]
      exact congrArg (· ++ [payload]) (observe_pings c _)

theorem pollTimers_pings (h : Coherent c) :
    (c.pollTimers now).pings = c.pings ++ (c.pinged? ⟨.timers, now⟩).toList := by
  rw [pollTimers_eq, pinged?]
  split
  · exact (List.append_nil _).symm
  · have hprobed := (moves_probed c now).coherent h
    have hdrain : Moves false (c.probed now) ((c.probed now).pollDrain now) :=
      moves_pollDrain now hprobed
    rw [checkDisconnection_pings now (hdrain.coherent hprobed), hdrain.pings, probed_pings]

theorem after_unpinged (h : Coherent c) (x : Call) (hx : x.input.latches = false) :
    (c.after x).pings = c.pings := by
  rcases after_cases h x with ⟨-, -, he⟩ | hl
  · rw [he]
    rfl
  · rw [hx] at hl
    exact hl.pings

theorem after_pings (h : Coherent c) (x : Call) :
    (c.after x).pings = c.pings ++ (c.pinged? x).toList := by
  obtain ⟨input, now⟩ := x
  have hsilent (hnone : c.pinged? ⟨input, now⟩ = none)
      (hsame : (c.after ⟨input, now⟩).pings = c.pings) :
      (c.after ⟨input, now⟩).pings = c.pings ++ (c.pinged? ⟨input, now⟩).toList := by
    rw [hsame, hnone, Option.toList_none, List.append_nil]
  cases input with
  | timers => exact pollTimers_pings now h
  | query => exact hsilent rfl (needsImmediate_pings now c)
  | serve stream demand allowance => exact hsilent rfl (after_unpinged h _ rfl)
  | serverCloses => exact hsilent rfl rfl
  | event e =>
      refine hsilent rfl ?_
      cases e with
      | headers stream headers endOfStream =>
          exact onHeaders_pings now h stream headers endOfStream
      | close => exact close_pings now h
      | _ => exact after_unpinged h _ rfl

theorem invariant_pingless : Invariant fun c => c.monitor.Pingless where
  move _ h m := by
    cases m with
    | serve ha => cases ha; exact h
    | watch ht => exact h.turn ht
    | latch hl => exact h.latch hl
    | finish => exact h.destroy _
    | tearDown => exact h.destroy _
    | tally | attach | probe | announce | supersede | finishLate | decide | peerFails => exact h
  admits _ _ _ h := h
  server h := h

theorem run_unpinged (h : Coherent c) (hm : c.monitor.Pingless) (hnone : c.pings = [])
    (xs : List Call) : (c.run xs).pings = [] := by
  induction xs generalizing c with
  | nil => exact hnone
  | cons x rest ih =>
      refine ih (invariant_coherent.after h h x) (invariant_pingless.after h hm x) ?_
      rw [after_pings h x, hnone, pinged?]
      cases x.input with
      | timers => simp [hm.poll_result x.now]
      | _ => rfl

end Connection

end HttpLifecycle
