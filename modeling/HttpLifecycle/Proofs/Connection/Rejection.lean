import HttpLifecycle.Proofs.Connection.Marks
import HttpLifecycle.Proofs.Connection.Owners
import HttpLifecycle.Proofs.Connection.Traffic
import HttpLifecycle.Proofs.Metrics.Totals

namespace HttpLifecycle

def Connection.tallied (c : Connection) (k : Counter) : Nat :=
  (Metrics.recordAll {} c.journal).counts k

namespace Connection

variable {c d : Connection} {r : Request} {stream : StreamId} {now : Instant}

/-- Nothing has changed but when the monitor runs out of patience and when it
pings next. -/
def Retimed (c d : Connection) : Prop :=
  ∃ idleAt pingAt, d = { c with monitor := { c.monitor with idleAt := idleAt, pingAt := pingAt } }

/-- A stream was refused. It is reset and counted, and not opened. -/
structure TurnedAway (stream : StreamId) (c d : Connection) : Prop where
  streams : d.streams = c.streams
  intake : d.intake = c.intake
  dispatched : d.dispatched = c.dispatched
  lastStream : d.lastStream = c.lastStream
  reset : d.story stream = c.story stream ++ [.sink (.reset stream ErrorCode.refusedStream)]
  others : ∀ s, s ≠ stream → d.story s = c.story s
  opened : d.tallied .streamsOpened = c.tallied .streamsOpened
  refused : d.tallied .streamsRefused = c.tallied .streamsRefused + 1

theorem tallied_eq (c : Connection) (k : Counter) : c.tallied k = c.journal.count (.count k) :=
  (Metrics.counts_recordAll {} c.journal k).trans (Nat.zero_add _)

theorem StreamsKept.dispatched (h : StreamsKept c d) : d.dispatched = c.dispatched := by
  cases h
  rfl

theorem StreamsKept.lastStream (h : StreamsKept c d) : d.lastStream = c.lastStream := by
  cases h
  rfl

theorem Retimed.refl (c : Connection) : Retimed c c := ⟨_, _, rfl⟩

theorem retimed_activity (c : Connection) (now : Instant) (frame : Frame) :
    Retimed c (c.activity now frame) := by
  rw [activity, Monitor.activity]
  split
  · exact .refl c
  · split
    · exact .refl c
    · exact ⟨_, _, rfl⟩

theorem StreamsKept.tallied {k : Counter} (h : StreamsKept c d)
    (hk : (Effect.count k).upkeep = false) :
    d.tallied k = c.tallied k := by
  obtain ⟨_, _, _, _, _, _, _, _, es, hes⟩ := h
  have hnone : es.count (.count k) = 0 := by
    refine List.count_eq_zero.mpr fun hmem => ?_
    have hupkeep := hes _ hmem
    rw [hk] at hupkeep
    contradiction
  rw [tallied_eq, tallied_eq]
  show (c.journal ++ es).count _ = _
  rw [List.count_append, hnone, Nat.add_zero]

theorem turnedAway_refuse (c : Connection) (stream : StreamId) (why : Refusal) :
    TurnedAway stream c (c.refuse stream why) := by
  have ht := Touches.refuse (c := c) stream why
  obtain ⟨n, hjournal⟩ : ∃ n, (c.refuse stream why).journal = c.journal ++
      [.note n, .sink (.reset stream ErrorCode.refusedStream), .count .streamsRefused] := by
    refine ⟨⟨.debug, "refusing stream",
      [("connection_id", .num c.id), ("stream_id", .num stream), ("reason", .text why.text)]⟩, ?_⟩
    simp [refuse, log, write, count, emit]
  refine ⟨rfl, rfl, rfl, rfl, ht.story, fun s hs => (ht.others s hs).2, ?_, ?_⟩
  · rw [tallied_eq, tallied_eq, hjournal, List.count_append]
    rfl
  · rw [tallied_eq, tallied_eq, hjournal, List.count_append]
    rfl

theorem StreamsKept.story (h : StreamsKept c d) (s : StreamId) : d.story s = c.story s :=
  have hquiet : Touches s [] (c.find? s) c d := .streamsKept h
  hquiet.story.trans (List.append_nil _)

theorem TurnedAway.between {a b : Connection} (h : TurnedAway stream c d) (before : StreamsKept a c)
    (after : StreamsKept d b) : TurnedAway stream a b where
  streams := by rw [after.streams, h.streams, before.streams]
  intake := by rw [after.intake, h.intake, before.intake]
  dispatched := by rw [after.dispatched, h.dispatched, before.dispatched]
  lastStream := by rw [after.lastStream, h.lastStream, before.lastStream]
  reset := by rw [after.story, h.reset, before.story]
  others s hs := by rw [after.story, h.others s hs, before.story]
  opened := by rw [after.tallied rfl, h.opened, before.tallied rfl]
  refused := by rw [after.tallied rfl, h.refused, before.tallied rfl]

/-- How a call is answered, and what is left of it where it was rejected. -/
inductive Returns (c : Connection) (x : Call) : Connection → Except Error Unit → Prop
  | done {d : Connection} : Returns c x d (.ok ())
  | exceeded {d : Connection} (limit total : Nat) :
      Returns c x d (.error (.limitExceeded limit total))
  | unknown {d : Connection} (stream : StreamId) (h : Retimed c d) :
      Returns c x d (.error (.unknownStream stream))
  | taken {d : Connection} (stream : StreamId) (h : Retimed c d) :
      Returns c x d (.error (.alreadyBound stream))
  | refused {d : Connection} (stream : StreamId) (why : Refusal) (h : TurnedAway stream c d) :
      Returns c x d (.error (.refused stream why))

theorem retimed_vacant {e : Event} (hwanted : e.wanted? = some stream)
    (h : c.find? stream = none) (now : Instant) :
    (c.perform ⟨.event e, now⟩).2 = .error (.unknownStream stream) ∧
      Retimed c (c.after ⟨.event e, now⟩) := by
  obtain ⟨d, hperform, hd⟩ := perform_vacant hwanted h now
  rw [after, hperform]
  refine ⟨rfl, ?_⟩
  rcases hd with rfl | ⟨frame, rfl⟩
  · exact .refl d
  · exact retimed_activity c now frame

theorem onHeaders_returns (stream : StreamId) (headers : Headers) (endOfStream : Bool) :
    Returns c ⟨.event (.headers stream headers endOfStream), now⟩
      (c.onHeaders stream headers endOfStream now).1
      (c.onHeaders stream headers endOfStream now).2 := by
  have hactivity : StreamsKept c (c.activity now .headers) := .activity c now .headers
  by_cases hlate : State.closing.rank ≤ c.state.rank
  · rw [onHeaders_late now stream headers endOfStream hlate]
    exact .refused stream .closing ((turnedAway_refuse _ stream _).between hactivity (.refl _))
  · cases hr : (c.activity now .headers).monitor.openStream.result with
    | false =>
        have hcounted : StreamsKept c (c.counted now) :=
          hactivity.trans (.observe _ (Monitor.modest_openStream _))
        rw [onHeaders_beyond now stream headers endOfStream hlate hr]
        exact .refused stream .maxRequests
          ((turnedAway_refuse _ stream _).between hcounted (.checkDisconnection _ now))
    | true =>
        rw [onHeaders_within now stream headers endOfStream hlate hr]
        exact .done

theorem onData_returns (hr : c.find? stream = some r) (bytes : Bytes) (last : Bool) :
    Returns c ⟨.event (.data stream bytes last), now⟩ (c.onData stream bytes last now).1
      (c.onData stream bytes last now).2 := by
  rw [onData_eq hr]
  simp only
  rcases r.onData_result c.intake bytes last with hresult | hresult
  · rw [hresult]
    simp only
    split <;> exact .done
  · rw [hresult]
    exact .exceeded _ _

theorem update_self (hd : Distinct c) (hr : c.find? r.stream = some r) : c.update r = c := by
  have hsame : c.streams.map (fun s => if s.stream == r.stream then r else s) = c.streams := by
    refine (List.map_congr_left fun s hs => ?_).trans (List.map_id _)
    split
    · rename_i hid
      have hfound := find?_mem hd hs
      rw [beq_iff_eq.mp hid, hr] at hfound
      exact Option.some.inj hfound
    · rfl
  rw [update, hsame]

theorem setResponse_returns (hd : Distinct c) (hr : c.find? stream = some r) (tag : String) :
    Returns c ⟨.event (.setResponse stream tag), now⟩ (c.setResponse stream tag).1
      (c.setResponse stream tag).2 := by
  obtain rfl := find?_stream hr
  have hset : c.setResponse r.stream tag =
      ((c.update (r.bind tag).state).emit (r.bind tag).events, (r.bind tag).result) := by
    rw [setResponse, hr]
  rw [hset, Request.bind]
  split
  · rw [update_self hd hr, emit, List.append_nil]
    exact .taken r.stream (.refl c)
  · exact .done

theorem perform_returns (hd : Distinct c) (x : Call) :
    Returns c x (c.after x) (c.perform x).2 := by
  obtain ⟨input, now⟩ := x
  cases input with
  | event e =>
      cases hwanted : e.wanted? with
      | none =>
          cases e with
          | headers stream headers endOfStream => exact onHeaders_returns stream headers endOfStream
          | lifecycle | ping | pingAck | goAway | close | shutdown => exact .done
          | _ => contradiction
      | some stream =>
          cases hr : c.find? stream with
          | none =>
              obtain ⟨hresult, hretimed⟩ := retimed_vacant hwanted hr now
              rw [hresult]
              exact .unknown stream hretimed
          | some r =>
              cases e with
              | data s bytes last =>
                  obtain rfl := Option.some.inj hwanted
                  exact onData_returns hr bytes last
              | setResponse s tag =>
                  obtain rfl := Option.some.inj hwanted
                  exact setResponse_returns hd hr tag
              | reset s code =>
                  obtain rfl := Option.some.inj hwanted
                  have hopen : (c.activity now .control).find? s = some r := hr
                  have hok : (c.onReset s code now).2 = .ok () := by
                    rw [onReset]
                    simp only [hopen]
                  have hresult : (c.perform ⟨.event (.reset s code), now⟩).2 = .ok () := hok
                  rw [hresult]
                  exact .done
              | complete s =>
                  obtain rfl := Option.some.inj hwanted
                  have hok : (c.perform ⟨.event (.complete s), now⟩).2 = .ok () := by
                    show (c.completeResponse s now).2 = _
                    rw [completeResponse, hr]
                  rw [hok]
                  exact .done
              | abort s cause =>
                  obtain rfl := Option.some.inj hwanted
                  have hok : (c.perform ⟨.event (.abort s cause), now⟩).2 = .ok () := by
                    show (c.abortStream s cause now).2 = _
                    rw [abortStream, hr]
                  rw [hok]
                  exact .done
              | _ => contradiction
  | timers | query | serve | serverCloses => exact .done

/-- A call that is rejected leaves no trace. Where there is no such stream, or
where it has a response already, all that may come of it is that the monitor
waits longer. A stream that is refused is reset and counted, and not opened. -/
theorem rejected_without_trace (id : ConnectionId) (protocol : Protocol) (config : Config)
    (routes : Resolver) (handler : Handler) (start : Instant) (acts : List Act) (x : Call) :
    let c := (create id protocol config routes handler start).live acts
    (∀ stream, (c.perform x).2 = .error (.unknownStream stream) ∨
        (c.perform x).2 = .error (.alreadyBound stream) → Retimed c (c.after x)) ∧
      ∀ stream why, (c.perform x).2 = .error (.refused stream why) →
        TurnedAway stream c (c.after x) := by
  intro c
  have hreturns : Returns c x (c.after x) (c.perform x).2 :=
    perform_returns (live_distinct (distinct_create id protocol config routes handler start) acts) x
  constructor
  · intro stream hrejected
    rcases hrejected with h | h
    · rw [h] at hreturns
      cases hreturns
      assumption
    · rw [h] at hreturns
      cases hreturns
      assumption
  · intro stream why h
    rw [h] at hreturns
    cases hreturns
    assumption

/-- A connection whose drain was over at once lets nobody in and knows nobody. -/
theorem rejected_without_trace_closing :
    let acts : List Act := [.call ⟨.event .close, 1⟩]
    let c := (create 1 .h2 { drainMicros := 0 } (fun _ => none) (fun _ _ => []) 0).live acts
    let x : Call := ⟨.event (.headers 3 {} false), 2⟩
    let y : Call := ⟨.event (.data 5 [7] false), 2⟩
    (c.perform x).2 = .error (.refused 3 .closing) ∧ TurnedAway 3 c (c.after x) ∧
      (c.perform y).2 = .error (.unknownStream 5) ∧ Retimed c (c.after y) := by
  intro acts c x y
  have hx : (c.perform x).2 = .error (.refused 3 .closing) := by decide +kernel
  have hy : (c.perform y).2 = .error (.unknownStream 5) := by decide +kernel
  obtain ⟨-, hrefused⟩ :=
    rejected_without_trace 1 .h2 { drainMicros := 0 } (fun _ => none) (fun _ _ => []) 0 acts x
  obtain ⟨hunknown, -⟩ :=
    rejected_without_trace 1 .h2 { drainMicros := 0 } (fun _ => none) (fun _ _ => []) 0 acts y
  exact ⟨hx, hrefused 3 .closing hx, hy, hunknown 5 (.inl hy)⟩

end Connection

end HttpLifecycle
