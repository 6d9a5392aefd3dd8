import HttpLifecycle.Proofs.Connection.Marks
import HttpLifecycle.Proofs.Metrics.Totals

namespace HttpLifecycle

def AccessRecord.exceeded (a : AccessRecord) : Bool := a.cause.any (·.exceeds)

namespace Connection

variable {c d : Connection} {stream : StreamId} {r : Request} (now : Instant)

def Spotless (c : Connection) : Prop := ∀ s r, c.find? s = some r → r.cause = none

theorem spotless_create (id : ConnectionId) (protocol : Protocol) (config : Config)
    (routes : Resolver) (handler : Handler) (start : Instant) :
    Spotless (create id protocol config routes handler start) := fun _ _ h => by contradiction

theorem Touches.spotless {es : List Effect} {new : Option Request} (ht : Touches stream es new c d)
    (h : Spotless c) (hnew : ∀ t, new = some t → t.cause = none) : Spotless d := by
  intro s q hq
  by_cases hs : s = stream
  · subst hs
    exact hnew q (ht.find.symm.trans hq)
  · rw [(ht.others s hs).1] at hq
    exact h s q hq

theorem Touches.kept {es : List Effect} {t : Request} (ht : Touches stream es (some t) c d)
    (h : Spotless c) (hcause : t.cause = none) : Spotless d :=
  ht.spotless h fun _ hq => Option.some.inj hq ▸ hcause

theorem Touches.cleared {es : List Effect} (ht : Touches stream es none c d) (h : Spotless c) :
    Spotless d :=
  ht.spotless h fun t ht => by contradiction

theorem Spotless.same (h : Spotless c) (hs : d.streams = c.streams) : Spotless d := by
  intro s r hr
  rw [find?, hs] at hr
  exact h s r hr

theorem StreamsKept.handler (ha : StreamsKept c d) : d.handler = c.handler := by
  cases ha
  rfl

theorem StreamsKept.spotless (ha : StreamsKept c d) (h : Spotless c) : Spotless d :=
  h.same ha.streams

theorem Touches.rejectBody {cause : AbortCause} (h : c.find? r.stream = some r)
    (hr : r.cause = some cause) (e : Error) :
    ∃ es, Touches r.stream es none c (c.rejectBody r e now) := by
  cases hmode : r.needsAggregation with
  | false => exact ⟨_, .rejectBody_streaming h (by simp [hr]) hmode e now⟩
  | true =>
      obtain ⟨a, i, j, actions, -, hrejected⟩ :=
        Touches.rejectBody_gathering (c := c) hr hmode e now
      exact ⟨_, hrejected⟩

theorem spotless_onData (h : Spotless c) (htame : c.handler.Tame) (stream : StreamId)
    (bytes : Bytes) (last : Bool) : Spotless (c.onData stream bytes last now).1 := by
  cases hf : c.find? stream with
  | none =>
      have hopen : (c.activity now .data).find? stream = none := hf
      simp only [onData, hopen]
      exact h
  | some r =>
      obtain rfl := find?_stream hf
      have hr := h r.stream r hf
      have hcases := r.onData_cases c.intake bytes last
      have hid := (r.sameOpening_onData c.intake bytes last).stream
      have hfed := Touches.feed (c := c.activity now .data) hf bytes last
      rw [onData_eq hf]
      simp only
      change Touches r.stream _ (some (r.onData c.intake bytes last).state.1) (c.activity now .data)
        (((c.activity now .data).follow (r.onData c.intake bytes last)).update
          (r.onData c.intake bytes last).state.1) at hfed
      generalize hd : ((c.activity now .data).follow (r.onData c.intake bytes last)).update
        (r.onData c.intake bytes last).state.1 = d at hfed
      have hhandler : d.handler.Tame := hd ▸ htame
      have hfound : d.find? (r.onData c.intake bytes last).state.1.stream =
          some (r.onData c.intake bytes last).state.1 := hid ▸ hfed.find
      have hbefore : Spotless (c.activity now .data) := h
      rcases hcases with htaken | ⟨cause, hover⟩
      · have hcause := htaken.cause.trans hr
        have hspotless : Spotless d := hfed.kept hbefore hcause
        rw [htaken.result]
        simp only
        split
        · exact (Touches.serve hfound).kept hspotless
            ((Request.cause_performAll _ _ (hhandler d.dispatched _)).trans hcause)
        · exact hspotless
      · cases hresult : (r.onData c.intake bytes last).result with
        | ok u => exact absurd hresult hover.result
        | error e =>
            obtain ⟨es, hrejected⟩ := Touches.rejectBody now hfound hover.cause e
            rw [hid] at hrejected
            exact (hfed.trans hrejected).cleared hbefore

theorem spotless_seat (h : Spotless c) (htame : c.handler.Tame) (hr : r.cause = none) :
    Spotless (c.seat r) := by
  rw [seat]
  split
  · exact (Touches.seat c r).kept h
      ((r.cause_performAll c.intake (htame c.dispatched r)).trans hr)
  · exact (Touches.put r).kept h hr

theorem spotless_onHeaders (h : Spotless c) (htame : c.handler.Tame) (stream : StreamId)
    (headers : Headers) (endOfStream : Bool) :
    Spotless (c.onHeaders stream headers endOfStream now).1 := by
  have hrefused (d : Connection) (hd : Spotless d) (why : Refusal) :
      Spotless (d.refuse stream why) :=
    (Touches.refuse stream why).spotless hd (hd stream)
  by_cases hlate : State.closing.rank ≤ c.state.rank
  · rw [onHeaders_late now stream headers endOfStream hlate]
    exact hrefused _ (h.same rfl) .closing
  · cases hr : (c.activity now .headers).monitor.openStream.result with
    | false =>
        have hbeyond :=
          hrefused (c.counted now) ((StreamsKept.counted c now).spotless h) .maxRequests
        rw [onHeaders_beyond now stream headers endOfStream hlate hr]
        exact (StreamsKept.checkDisconnection _ now).spotless hbeyond
    | true =>
        rw [onHeaders_within now stream headers endOfStream hlate hr]
        refine (StreamsKept.checkDisconnection _ now).spotless (spotless_seat ?_ ?_ ?_)
        · exact ((StreamsKept.counted c now).spotless h).same rfl
        · simp only [count, emit, admitStream]
          rw [(StreamsKept.counted c now).handler]
          exact htame
        · exact (Request.ofOpening_fills _ c.intake).1

theorem after_spotless (hd : Distinct c) (h : Spotless c) (htame : c.handler.Tame) (x : Call) :
    Spotless (c.after x) := by
  cases hsubject : x.input.subject? with
  | none =>
      by_cases hends : x.input.ends = true → c.tornDown = true
      · intro s
        exact (touches_plain hsubject hends s).spotless h (h s) s
      · obtain ⟨hx, hattached⟩ := Classical.not_imp.mp hends
        obtain ⟨fields, heq⟩ := after_ends (c := c) hx
        have htorn : c.tornDown = false := by simpa using hattached
        intro s r hr
        rw [heq, (teardown_story (c := c.log .debug "lifecycle event" fields) hd htorn x.now s).2]
          at hr
        contradiction
  | some s =>
      cases hf : c.find? s with
      | none =>
          rcases streamsKept_vacant hsubject hf with ⟨headers, last, hinput⟩ | ⟨-, huntouched⟩
          · obtain ⟨input, now⟩ := x
            obtain rfl : input = .event (.headers s headers last) := hinput
            exact spotless_onHeaders now h htame s headers last
          · exact huntouched.spotless h
      | some r =>
          obtain ⟨input, now⟩ := x
          cases input with
          | event e =>
              cases e with
              | headers stream headers last =>
                  exact spotless_onHeaders now h htame stream headers last
              | data stream bytes last => exact spotless_onData now h htame stream bytes last
              | reset stream code =>
                  obtain rfl := Option.some.inj hsubject
                  exact (Touches.onReset hf code now).cleared h
              | setResponse stream tag =>
                  obtain rfl := Option.some.inj hsubject
                  exact (Touches.setResponse hf tag).kept h
                    ((r.cause_bind tag).trans (h stream r hf))
              | complete stream =>
                  obtain rfl := Option.some.inj hsubject
                  exact (Touches.completeResponse hf now).cleared h
              | abort stream cause =>
                  obtain rfl := Option.some.inj hsubject
                  exact (Touches.abortStream hf cause now).cleared h
              | _ => contradiction
          | _ => contradiction

theorem invariant_handler (handler : Handler) : Invariant fun c => c.handler = handler where
  move _ h m := by
    cases m with
    | serve ha => cases ha; exact h
    | _ => exact h
  admits _ _ _ h := h
  server h := h

def blame (c : Connection) (x : Call) : List Mark :=
  match x.input with
  | .event (.data stream bytes last) =>
    (c.find? stream).toList.flatMap fun r =>
      (r.onData c.intake bytes last).state.1.cause.toList.flatMap fun cause =>
        [.rejected, .failed cause]
  | .event (.reset stream code) =>
    (c.find? stream).toList.flatMap fun r =>
      .aborted :: if r.completed then [] else [.failed (.peerReset code)]
  | .event (.abort stream cause) => (c.find? stream).toList.flatMap (·.toll cause)
  | input =>
    if input.ends && !c.tornDown then c.streams.flatMap (·.toll .connectionClosed) else []

theorem blame_vacant {x : Call} (hsubject : x.input.subject? = some stream)
    (h : c.find? stream = none) : c.blame x = [] := by
  obtain ⟨input, now⟩ := x
  cases input with
  | event e =>
      cases e with
      | lifecycle e => contradiction
      | _ => simp_all [blame, Input.subject?, Input.ends]
  | _ => rfl

theorem blame_plain {x : Call} (hsubject : x.input.subject? = none) :
    c.blame x = if x.input.ends && !c.tornDown then c.streams.flatMap (·.toll .connectionClosed)
      else [] := by
  obtain ⟨input, now⟩ := x
  cases input with
  | event e =>
      cases e with
      | data | reset | abort => contradiction
      | _ => rfl
  | _ => rfl

theorem plain_marks {x : Call} (hsubject : x.input.subject? = none)
    (hends : x.input.ends = true → c.tornDown = true) :
    Adds Effect.mark? [] c (c.after x) := by
  cases hserves : x.input.serves with
  | false => exact .streamsKept Effect.mark_overlooked (streamsKept_plain hsubject hends hserves)
  | true =>
      obtain ⟨input, now⟩ := x
      cases input with
      | serve stream demand allowance =>
          exact .inner Effect.mark_overlooked rfl (ofGate_inner _)
      | _ => contradiction

theorem after_marks (hd : Distinct c) (h : Spotless c) (htame : c.handler.Tame) (x : Call) :
    Adds Effect.mark? (c.blame x) c (c.after x) := by
  cases hsubject : x.input.subject? with
  | none =>
      rw [blame_plain hsubject]
      by_cases hends : x.input.ends = true → c.tornDown = true
      · have hnot : ¬ (x.input.ends && !c.tornDown) = true := by
          simpa using hends
        rw [if_neg hnot]
        exact plain_marks hsubject hends
      · obtain ⟨hx, hattached⟩ := Classical.not_imp.mp hends
        obtain ⟨fields, heq⟩ := after_ends (c := c) hx
        have htorn : c.tornDown = false := by simpa using hattached
        have hlog : Adds Effect.mark? [] c (c.log .debug "lifecycle event" fields) :=
          .streamsKept Effect.mark_overlooked (.log c _ _ _)
        rw [if_pos (by simp [hx, htorn]), heq]
        exact hlog.trans (teardown_marks (c := c.log .debug "lifecycle event" fields) x.now
          (fun r hr => h r.stream r (find?_mem hd hr)) htorn)
  | some s =>
      cases hf : c.find? s with
      | none =>
          rw [blame_vacant hsubject hf]
          rcases streamsKept_vacant hsubject hf with ⟨headers, last, hinput⟩ | ⟨-, huntouched⟩
          · obtain ⟨input, now⟩ := x
            obtain rfl : input = .event (.headers s headers last) := hinput
            exact onHeaders_marks now s headers last
          · exact .streamsKept Effect.mark_overlooked huntouched
      | some r =>
          have hr := h s r hf
          obtain ⟨input, now⟩ := x
          cases input with
          | event e =>
              cases e with
              | headers stream headers last => exact onHeaders_marks now stream headers last
              | data stream bytes last =>
                  obtain rfl := Option.some.inj hsubject
                  simp only [blame, hf, Option.toList_some, List.flatMap_singleton]
                  exact onData_marks now hf hr htame bytes last
              | reset stream code =>
                  obtain rfl := Option.some.inj hsubject
                  simp only [blame, hf, Option.toList_some, List.flatMap_singleton]
                  exact onReset_marks now hf hr code
              | setResponse stream tag =>
                  obtain rfl := Option.some.inj hsubject
                  exact setResponse_marks hf tag
              | complete stream =>
                  obtain rfl := Option.some.inj hsubject
                  exact completeResponse_marks now hf hr
              | abort stream cause =>
                  obtain rfl := Option.some.inj hsubject
                  simp only [blame, hf, Option.toList_some, List.flatMap_singleton]
                  exact abortStream_marks now hf hr cause
              | _ => contradiction
          | _ => contradiction

/-- The peer resets a stream whose response is complete. -/
def resetsComplete (c : Connection) (x : Call) : Bool :=
  match x.input with
  | .event (.reset stream _) => (c.find? stream).any (·.completed)
  | _ => false

def written (c : Connection) (x : Call) : List AccessRecord :=
  recordsOf ((c.after x).journal.drop c.journal.length)

def Input.isData : Input → Bool
  | .event (.data ..) => true
  | _ => false

def lateResets (c : Connection) : List Call → Nat
  | [] => 0
  | x :: rest => (c.resetsComplete x).toNat + (c.after x).lateResets rest

/-- How many records of a body that was too long came of DATA. -/
def overruns (c : Connection) : List Call → Nat
  | [] => 0
  | x :: rest =>
    (if x.input.isData then (c.written x).countP (·.exceeded) else 0) + (c.after x).overruns rest

/-- As many failures are counted as go on record. -/
def Level (ms : List Mark) : Prop :=
  ms.count .aborted + ms.count .rejected = ms.countP Mark.isFailed

theorem level_flatMap {α : Type} {f : α → List Mark} (h : ∀ a, Level (f a)) (as : List α) :
    Level (as.flatMap f) := by
  induction as with
  | nil => rfl
  | cons a rest ih =>
      have ha := h a
      rw [Level] at *
      rw [List.flatMap_cons, List.count_append, List.count_append, List.countP_append]
      omega

theorem level_toll (cause : AbortCause) (r : Request) : Level (r.toll cause) := by
  rw [Request.toll]
  cases r.completed <;> rfl

theorem unrejected_flatMap {α : Type} {f : α → List Mark} (h : ∀ a, (f a).count .rejected = 0)
    (as : List α) : (as.flatMap f).count .rejected = 0 := by
  induction as with
  | nil => rfl
  | cons a rest ih => rw [List.flatMap_cons, List.count_append, h, ih]

theorem unrejected_toll (cause : AbortCause) (r : Request) :
    (r.toll cause).count .rejected = 0 := by
  rw [Request.toll]
  cases r.completed <;> rfl

theorem plain_failures (c : Connection) {x : Call} (h : x.input.subject? = none) :
    c.resetsComplete x = false ∧ x.input.isData = false := by
  obtain ⟨input, now⟩ := x
  cases input with
  | event e => cases e <;> first | exact ⟨rfl, rfl⟩ | contradiction
  | _ => exact ⟨rfl, rfl⟩

theorem blame_total (c : Connection) (x : Call) :
    (c.blame x).count .aborted + (c.blame x).count .rejected =
      (c.blame x).countP Mark.isFailed + (c.resetsComplete x).toNat := by
  cases hsubject : x.input.subject? with
  | none =>
      rw [blame_plain hsubject, (plain_failures c hsubject).1]
      split
      · exact level_flatMap (level_toll _) _
      · rfl
  | some s =>
      obtain ⟨input, now⟩ := x
      cases input with
      | event e =>
          cases e with
          | data stream bytes last =>
              have hone (cause : AbortCause) : Level [.rejected, .failed cause] := rfl
              exact level_flatMap (fun r => level_flatMap hone _) _
          | abort stream cause => exact level_flatMap (level_toll cause) _
          | reset stream code =>
              simp only [blame, resetsComplete]
              cases hf : c.find? stream with
              | none => rfl
              | some r => cases hdone : r.completed <;> simp [hdone] <;> rfl
          | headers | setResponse | complete => rfl
          | _ => contradiction
      | _ => contradiction

theorem blame_rejected (h : Spotless c) (x : Call) :
    (c.blame x).count .rejected =
      if x.input.isData then (c.blame x).countP Mark.exceeded else 0 := by
  cases hsubject : x.input.subject? with
  | none =>
      rw [blame_plain hsubject, (plain_failures c hsubject).2]
      split
      · exact unrejected_flatMap (unrejected_toll _) _
      · rfl
  | some s =>
      obtain ⟨input, now⟩ := x
      cases input with
      | event e =>
          cases e with
          | data stream bytes last =>
              simp only [blame, Input.isData, if_true]
              cases hf : c.find? stream with
              | none => rfl
              | some r =>
                  rw [Option.toList_some, List.flatMap_singleton]
                  rcases r.onData_cases c.intake bytes last with htaken | ⟨cause, hover⟩
                  · rw [htaken.cause, h stream r hf]
                    rfl
                  · have hexceeds := Request.receive_exceeds r hover.exceeds
                    rw [hover.cause]
                    simp [Mark.exceeded, hexceeds]
          | abort stream cause => exact unrejected_flatMap (unrejected_toll cause) _
          | reset stream code =>
              refine unrejected_flatMap (fun r => ?_) _
              cases r.completed <;> rfl
          | headers | setResponse | complete => rfl
          | _ => contradiction
      | _ => contradiction

theorem count_aborted_marks (es : List Effect) : (es.filterMap Effect.mark?).count .aborted =
    es.count (.count .requestsAborted) := by
  refine count_shown (fun e => ?_) es
  cases e with
  | count k => cases k <;> simp [Effect.mark?]
  | _ => simp [Effect.mark?]

theorem count_rejected_marks (es : List Effect) : (es.filterMap Effect.mark?).count .rejected =
    es.count (.count .aggregationFailures) := by
  refine count_shown (fun e => ?_) es
  cases e with
  | count k => cases k <;> simp [Effect.mark?]
  | _ => simp [Effect.mark?]

theorem countP_marks (p : AbortCause → Bool) (q : Mark → Bool) (haborted : q .aborted = false)
    (hrejected : q .rejected = false) (hfailed : ∀ cause, q (.failed cause) = p cause)
    (es : List Effect) :
    (es.filterMap Effect.mark?).countP q = (recordsOf es).countP (·.cause.any p) := by
  rw [recordsOf, List.countP_filterMap, List.countP_filterMap]
  apply List.countP_congr
  intro e _
  cases e with
  | count k => cases k <;> simp [Effect.mark?, Effect.record?, haborted, hrejected]
  | record a => cases hc : a.cause <;> simp [Effect.mark?, Effect.record?, hc, hfailed]
  | _ => simp [Effect.mark?, Effect.record?]

/-- What holds of a connection whose handler leaves aborting to others. -/
structure WithTameHandler (c : Connection) : Prop where
  coherent : Coherent c
  distinct : Distinct c
  spotless : Spotless c
  tame : c.handler.Tame

namespace WithTameHandler

theorem create (id : ConnectionId) (protocol : Protocol) (config : Config) (routes : Resolver)
    {handler : Handler} (start : Instant) (h : handler.Tame) :
    WithTameHandler (create id protocol config routes handler start) where
  coherent := coherent_create id protocol config routes handler start
  distinct := distinct_create id protocol config routes handler start
  spotless := spotless_create id protocol config routes handler start
  tame := h

theorem after (h : WithTameHandler c) (x : Call) : WithTameHandler (c.after x) where
  coherent := invariant_coherent.after h.coherent h.coherent x
  distinct := after_distinct h.distinct x
  spotless := after_spotless h.distinct h.spotless h.tame x
  tame := (invariant_handler c.handler).after h.coherent rfl x ▸ h.tame

theorem written (h : WithTameHandler c) (x : Call) :
    (c.written x).countP (·.exceeded) = (c.blame x).countP Mark.exceeded := by
  obtain ⟨es, hjournal, hmarks⟩ := after_marks h.distinct h.spotless h.tame x
  rw [Connection.written, hjournal, List.drop_left, ← hmarks]
  exact (countP_marks AbortCause.exceeds Mark.exceeded rfl rfl (fun _ => rfl) es).symm

theorem run (h : WithTameHandler c) (xs : List Call) :
    ∃ ms, Adds Effect.mark? ms c (c.run xs) ∧
      ms.count .aborted + ms.count .rejected = ms.countP Mark.isFailed + c.lateResets xs ∧
      ms.count .rejected = c.overruns xs := by
  induction xs generalizing c with
  | nil => exact ⟨[], .same rfl, rfl, rfl⟩
  | cons x rest ih =>
      obtain ⟨ms, hadds, htotal, hrejected⟩ := ih (h.after x)
      have hone := blame_total c x
      have hrefused := blame_rejected h.spotless x
      rw [← h.written] at hrefused
      refine ⟨c.blame x ++ ms, (after_marks h.distinct h.spotless h.tame x).trans hadds, ?_, ?_⟩
      · rw [List.count_append, List.count_append, List.countP_append, lateResets]
        omega
      · rw [List.count_append, overruns, hrefused, hrejected]

end WithTameHandler

theorem recordAll_fresh (es : List Effect) (k : Counter) :
    (({} : Metrics).recordAll es).counts k = es.count (.count k) :=
  (Metrics.counts_recordAll {} es k).trans (Nat.zero_add _)

/-- Where the handler leaves aborting to others, as many failures are counted as
go on record, and one more for each stream that the peer resets after its
response is complete. Bodies that were turned away are counted as often as DATA
put them on record. -/
theorem failures_counted (id : ConnectionId) (protocol : Protocol) (config : Config)
    (routes : Resolver) (handler : Handler) (start : Instant) (xs : List Call)
    (htame : handler.Tame) :
    let fresh := create id protocol config routes handler start
    let c := fresh.run xs
    let m := ({} : Metrics).recordAll c.journal
    m.counts .requestsAborted + m.counts .aggregationFailures =
      (recordsOf c.journal).countP (·.cause.isSome) + fresh.lateResets xs ∧
    m.counts .aggregationFailures = fresh.overruns xs := by
  intro fresh c m
  obtain ⟨ms, hadds, htotal, hrejected⟩ :=
    (WithTameHandler.create id protocol config routes start htame).run xs
  have hmarks : c.journal.filterMap Effect.mark? = ms := hadds.run
  have hfailed : ms.countP Mark.isFailed = (recordsOf c.journal).countP (·.cause.isSome) := by
    rw [← hmarks, countP_marks (fun _ => true) _ rfl rfl fun _ => rfl]
    refine List.countP_congr fun a _ => ?_
    cases a.cause <;> simp
  rw [recordAll_fresh, recordAll_fresh, ← count_aborted_marks, ← count_rejected_marks, hmarks,
    ← hfailed]
  exact ⟨htotal, hrejected⟩

/-- One body is too long, one stream is reset under way, and a third only after
its handler completed it. -/
theorem failures_counted_mixed :
    let handler : Handler := fun n _ => if n = 2 then [.complete] else [.bind "handler"]
    let xs : List Call := [⟨.event (.headers 1 { path := "/up" } false), 0⟩,
      ⟨.event (.data 1 [97, 98, 99, 100] true), 1⟩, ⟨.event (.headers 3 {} true), 2⟩,
      ⟨.event (.reset 3 8), 3⟩, ⟨.event (.headers 5 {} true), 4⟩, ⟨.event (.reset 5 8), 5⟩]
    handler.Tame ∧
      let fresh := create 1 .h2 {} (Routes.resolver [("/up", ⟨"up", .unary, some 3, false⟩)])
        handler 0
      let c := fresh.run xs
      let m := ({} : Metrics).recordAll c.journal
      ((recordsOf c.journal).countP (·.cause.isSome) = 2 ∧ fresh.lateResets xs = 1 ∧
        fresh.overruns xs = 1) ∧
      m.counts .requestsAborted + m.counts .aggregationFailures =
        (recordsOf c.journal).countP (·.cause.isSome) + fresh.lateResets xs ∧
      m.counts .aggregationFailures = fresh.overruns xs := by
  intro handler xs
  have htame : handler.Tame := by
    intro n r a ha
    by_cases hn : n = 2 <;> simp_all [handler, Action.aborts]
  refine ⟨htame, ⟨by decide +kernel, by decide +kernel, by decide +kernel⟩, ?_⟩
  exact failures_counted 1 .h2 {} (Routes.resolver [("/up", ⟨"up", .unary, some 3, false⟩)])
    handler 0 xs htame

/-- The handler completes the request at once, the peer resets it, and it counts
as aborted while its record shows no failure. -/
theorem reset_of_complete_counted :
    let handler : Handler := fun _ _ => [.complete]
    let c := (create 1 .h2 {} (fun _ => none) handler 0).run
      [⟨.event (.headers 1 {} true), 0⟩, ⟨.event (.reset 1 8), 1⟩]
    let m := ({} : Metrics).recordAll c.journal
    handler.Tame ∧ m.counts .requestsAborted + m.counts .aggregationFailures ≠
      (recordsOf c.journal).countP (·.cause.isSome) := by
  intro handler c m
  have htame : handler.Tame := fun n r => List.forall_mem_singleton.mpr rfl
  have haborted : c.journal.count (.count .requestsAborted) = 1 := by decide +kernel
  have hrecords : (recordsOf c.journal).countP (·.cause.isSome) = 0 := by decide +kernel
  refine ⟨htame, ?_⟩
  rw [recordAll_fresh, haborted, hrecords]
  exact Nat.ne_of_gt (Nat.lt_of_lt_of_le Nat.one_pos (Nat.le_add_right _ _))

end Connection

end HttpLifecycle
