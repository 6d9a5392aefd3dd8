import HttpLifecycle.Proofs.Connection.Admission

namespace HttpLifecycle.Connection

/-- The transport is gone with this input. -/
def Input.ends : Input → Bool
  | .event (.lifecycle e) => e.ends
  | _ => false

/-- Payload that a call puts into a body. -/
def inflow (c : Connection) (x : Call) : Bytes :=
  match x.input with
  | .event (.data stream bytes _) =>
    if (c.find? stream).any fun r => r.feeds c.intake bytes then bytes else []
  | _ => []

def arrival? (c : Connection) (x : Call) : Option Admission :=
  match x.input, (c.perform x).2 with
  | .event (.headers stream headers _), .ok () =>
    some ⟨stream, x.now, headers.path, (c.routes headers).map (·.name)⟩
  | _, _ => none

/-- What a call does to the table: a stream may come in, streams may leave, and
with the first end of the transport all of them do. -/
inductive Outcome (R : Intake → Bytes → Prop) (c : Connection) (x : Call) : Connection → Prop
  | stays {d : Connection} (harrival : c.arrival? x = none)
      (hends : x.input.ends = true → c.tornDown = true) (m : StreamSteps R true c d) :
      Outcome R c x d
  | ends {d : Connection} (harrival : c.arrival? x = none) (hends : x.input.ends = true)
      (m : StreamSteps R true c d) (hnone : d.streams = []) :
      Outcome R c x { d with tornDown := true }
  | admits {r : Request} {d e : Connection} (harrival : c.arrival? x = some r.admission)
      (hends : x.input.ends = false) (hrank : ¬ State.closing.rank ≤ c.state.rank)
      (m : Opens R c r d) (n : StreamsKept (d.put r) e) : Outcome R c x e

variable {R : Intake → Bytes → Prop} {c d : Connection} {x : Call} (now : Instant)

theorem Outcome.inert (harrival : c.arrival? x = none) (hends : x.input.ends = false)
    (m : StreamSteps R true c d) : Outcome R c x d :=
  .stays harrival (fun h => absurd h (by simp [hends])) m

theorem outcome_onHeaders (stream : StreamId) (headers : Headers) (endOfStream : Bool) :
    Outcome R c ⟨.event (.headers stream headers endOfStream), now⟩
      (c.onHeaders stream headers endOfStream now).1 := by
  have hrefused {why : Refusal}
      (h : (c.onHeaders stream headers endOfStream now).2 = .error (.refused stream why)) :
      c.arrival? ⟨.event (.headers stream headers endOfStream), now⟩ = none := by
    simp only [arrival?, perform, handle, h]
  by_cases hlate : State.closing.rank ≤ c.state.rank
  · have heq := onHeaders_late now stream headers endOfStream hlate
    refine .inert (hrefused (by rw [heq])) rfl ?_
    rw [heq]
    exact (StreamSteps.upkeep (.activity c now .headers)).trans (.refuse stream .closing)
  · cases hr : (c.activity now .headers).monitor.openStream.result with
    | false =>
        have heq := onHeaders_beyond now stream headers endOfStream hlate hr
        refine .inert (hrefused (by rw [heq])) rfl ?_
        rw [heq]
        have hcounted : StreamsKept c (c.counted now) :=
          (StreamsKept.activity c now .headers).trans (.observe _ (Monitor.modest_openStream _))
        exact ((StreamSteps.upkeep hcounted).trans (.refuse stream .maxRequests)).trans
          (.upkeep (.checkDisconnection _ now))
    | true =>
        obtain ⟨r, d, hopens, -, hadmission, heq⟩ :=
          opens_onHeaders (R := R) now stream headers endOfStream hlate hr
        rw [heq]
        refine .admits ?_ rfl hlate hopens (.checkDisconnection _ now)
        rw [hadmission]
        simp only [arrival?, perform, handle, heq]

theorem outcome_onLifecycle (hd : Distinct c) (e : Lifecycle) :
    Outcome R c ⟨.event (.lifecycle e), now⟩ (c.onLifecycle e now) := by
  by_cases h : e.ends = true → c.tornDown = true
  · exact .stays rfl h (.onLifecycle e now h)
  · obtain ⟨hends, ht⟩ := Classical.not_imp.mp h
    have hlog : StreamSteps R true c (c.log .debug "lifecycle event"
        [("connection_id", .num c.id), ("event", .text e.text)]) := .log _ _ _
    obtain ⟨d, hsteps, hnone, heq⟩ := StreamSteps.teardown (R := R) (hlog.distinct hd)
      (by simpa using hlog.attached.trans (by simpa using ht)) now
    rw [onLifecycle_ends hends, heq]
    exact .ends rfl hends (hlog.trans hsteps) hnone

theorem outcome_onData (stream : StreamId) (bytes : Bytes) (endOfStream : Bool)
    (h : c.inflow ⟨.event (.data stream bytes endOfStream), now⟩ ≠ [] →
      R c.intake (c.inflow ⟨.event (.data stream bytes endOfStream), now⟩)) :
    Outcome R c ⟨.event (.data stream bytes endOfStream), now⟩
      (c.onData stream bytes endOfStream now).1 := by
  refine .inert rfl rfl ((StreamSteps.upkeep (.activity c now .data)).trans
    (.onData stream bytes endOfStream now fun r hr hfeeds => ?_))
  have hall : c.inflow ⟨.event (.data stream bytes endOfStream), now⟩ = bytes := by
    simp only [inflow, hr, Option.any_some, hfeeds, if_true]
  rw [hall] at h
  exact h (Request.feeds_some hfeeds)

theorem outcome_handle (hd : Distinct c) (e : Event)
    (h : c.inflow ⟨.event e, now⟩ ≠ [] → R c.intake (c.inflow ⟨.event e, now⟩)) :
    Outcome R c ⟨.event e, now⟩ (c.handle e now).1 := by
  cases e with
  | lifecycle e => exact outcome_onLifecycle now hd e
  | headers stream headers endOfStream => exact outcome_onHeaders now stream headers endOfStream
  | data stream bytes endOfStream => exact outcome_onData now stream bytes endOfStream h
  | ping payload =>
      exact .inert rfl rfl (.upkeep (.activity c now .ping))
  | pingAck payload =>
      exact .inert rfl rfl (.upkeep (.onPingAck c now payload))
  | reset stream code =>
      exact .inert rfl rfl
        ((StreamSteps.upkeep (.activity c now .control)).trans (.onReset stream code now))
  | goAway code last =>
      exact .inert rfl rfl (.upkeep (.onGoAway c now code last))
  | setResponse stream tag => exact .inert rfl rfl (.setResponse stream tag)
  | complete stream => exact .inert rfl rfl (.completeResponse stream now)
  | abort stream cause => exact .inert rfl rfl (.abortStream stream cause now)
  | close => exact .inert rfl rfl (.upkeep (.close c now))
  | shutdown wait =>
      exact .inert rfl rfl (.upkeep (.shutdownRequested c now wait))

theorem fed_outcome (hd : Distinct c) (x : Call) (h : c.inflow x ≠ [] → R c.intake (c.inflow x)) :
    Outcome R c x (c.after x) := by
  obtain ⟨input, now⟩ := x
  cases input with
  | event e => exact outcome_handle now hd e h
  | timers => exact .inert rfl rfl (.upkeep (.pollTimers c now))
  | query => exact .inert rfl rfl (.upkeep (.needsImmediate c now))
  | serve stream demand allowance =>
      exact .inert rfl rfl (.serve stream demand allowance)
  | serverCloses => exact .inert rfl rfl (.upkeep (.silent ..))

theorem after_outcome (hd : Distinct c) (x : Call) (h : R c.intake (c.inflow x)) :
    Outcome R c x (c.after x) := fed_outcome hd x fun _ => h

theorem put_free {r : Request} (h : c.find? r.stream = none) :
    c.put r = { c with streams := c.streams ++ [r] } := by
  rw [put, h]

theorem put_taken {r old : Request} (h : c.find? r.stream = some old) :
    c.put r = (c.update r).absorb (old.discard c.intake) := by
  rw [put, h]

theorem distinct_create (id : ConnectionId) (protocol : Protocol) (config : Config)
    (routes : Resolver) (handler : Handler) (start : Instant) :
    Distinct (create id protocol config routes handler start) := List.nodup_nil

theorem Distinct.put (h : Distinct c) (r : Request) : Distinct (c.put r) := by
  cases hf : c.find? r.stream with
  | none =>
      rw [put_free hf, Distinct, List.map_append]
      refine List.nodup_append.mpr ⟨h, List.pairwise_singleton _ _, fun id hid a ha => ?_⟩
      obtain rfl := List.mem_singleton.mp ha
      obtain ⟨s, hs, rfl⟩ := List.mem_map.mp hid
      simpa using List.find?_eq_none.mp hf s hs
  | some old =>
      rw [put_taken hf]
      show ((c.update r).streams.map (·.stream)).Nodup
      rw [update_ids]
      exact h

theorem moves_put (c : Connection) (r : Request) : c.intake.Moves R (c.put r).intake := by
  cases hf : c.find? r.stream with
  | none =>
      rw [put_free hf]
      exact .refl _
  | some old =>
      rw [put_taken hf]
      exact old.moves_discard c.intake

theorem put_tornDown (c : Connection) (r : Request) : (c.put r).tornDown = c.tornDown := by
  rw [put]
  split <;> rfl

namespace Outcome

theorem distinct (h : Distinct c) (o : Outcome R c x d) : Distinct d := by
  cases o with
  | stays harrival hends m => exact m.distinct h
  | ends harrival hends m hnone =>
      rw [Distinct, hnone]
      exact List.nodup_nil
  | admits harrival hends hrank m n =>
      rw [Distinct, n.streams]
      apply Distinct.put
      rw [Distinct, m.streams]
      exact h

theorem intake (o : Outcome R c x d) : c.intake.Moves R d.intake := by
  cases o with
  | stays harrival hends m => exact m.intake
  | ends harrival hends m hnone => exact m.intake
  | admits harrival hends hrank m n =>
      rw [n.intake]
      exact m.intake.trans (moves_put _ _)

theorem tornDown (o : Outcome R c x d) (ht : c.tornDown = true) : d.tornDown = true := by
  cases o with
  | stays harrival hends m => exact m.attached.trans ht
  | ends harrival hends m hnone => rfl
  | admits harrival hends hrank m n =>
      exact ((n.tornDown.trans (put_tornDown _ _)).trans m.tornDown).trans ht

theorem attached (o : Outcome R c x d) (hx : x.input.ends = false) :
    d.tornDown = c.tornDown := by
  cases o with
  | stays harrival hends m => exact m.attached
  | ends harrival hends m hnone =>
      rw [hends] at hx
      contradiction
  | admits harrival hends hrank m n => exact (n.tornDown.trans (put_tornDown _ _)).trans m.tornDown

theorem ended (o : Outcome R c x d) (hx : x.input.ends = true) : d.tornDown = true := by
  cases o with
  | stays harrival hends m => exact m.attached.trans (hends hx)
  | ends harrival hends m hnone => rfl
  | admits harrival hends hrank m n =>
      rw [hends] at hx
      contradiction

theorem ends_of_tornDown (o : Outcome R c x d) (ht : c.tornDown = false)
    (h : d.tornDown = true) : x.input.ends = true := by
  rw [← Bool.not_eq_false]
  intro hx
  rw [o.attached hx, ht] at h
  contradiction

end Outcome

theorem after_distinct (h : Distinct c) (x : Call) : Distinct (c.after x) :=
  (after_outcome (R := fun _ _ => True) h x trivial).distinct h

theorem run_distinct (h : Distinct c) (xs : List Call) : Distinct (c.run xs) := by
  induction xs generalizing c with
  | nil => exact h
  | cons x rest ih => exact ih (after_distinct h x)

end HttpLifecycle.Connection
