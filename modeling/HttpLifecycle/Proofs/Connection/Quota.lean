import HttpLifecycle.Proofs.Connection.Steady
import HttpLifecycle.Proofs.Connection.Verdicts
import HttpLifecycle.Proofs.Connection.Forward
import Mathlib.Data.List.Induction

namespace HttpLifecycle

def Effect.reset? : Effect → Option (StreamId × Nat)
  | .sink (.reset stream code) => some (stream, code)
  | _ => none

theorem Effect.reset_overlooked : Overlooked Effect.reset? where
  upkeep e h := by
    cases e with
    | sink k => cases k <;> first | rfl | contradiction
    | _ => rfl
  inner e h := by
    cases e with
    | sink k => cases k <;> first | rfl | contradiction
    | _ => rfl
  dispatch _ := rfl
  opened := rfl

namespace KeepAlive

def Allows (k : KeepAlive) (n : Nat) : Prop := k.maxRequests = 0 ∨ n ≤ k.maxRequests

instance (k : KeepAlive) (n : Nat) : Decidable (k.Allows n) :=
  inferInstanceAs (Decidable (_ ∨ _))

end KeepAlive

namespace Connection

variable {c d : Connection} {x : Call} (now : Instant)

/-- How many streams were asked for below closing. -/
def asked (c : Connection) : List Call → Nat
  | [] => 0
  | x :: rest => (c.asking x).toNat + (c.after x).asked rest

theorem asked_concat (c : Connection) (xs : List Call) (x : Call) :
    c.asked (xs ++ [x]) = c.asked xs + ((c.run xs).asking x).toNat := by
  induction xs generalizing c with
  | nil => exact Nat.add_comm _ _
  | cons y rest ih =>
      show (c.asking y).toNat + (c.after y).asked (rest ++ [x]) = _
      rw [ih, ← Nat.add_assoc]
      rfl

theorem establish_requests (c : Connection) :
    (c.establish now).monitor.requests = c.monitor.requests := by
  cases h : c.arms with
  | false => rw [establish_idle now h]
  | true =>
      obtain ⟨es, -, he, -⟩ := establish_armed now h
      rw [he, Monitor.arm]
      split <;> rfl

theorem teardown_requests (c : Connection) :
    (c.teardown now).monitor.requests = c.monitor.requests := by
  have hdestroyed := (Monitor.steady_destroy c.monitor now).requests
  cases ht : c.tornDown with
  | false =>
      obtain ⟨-, -, -, -, hmonitor, -⟩ := teardown_passed now ht
      rw [hmonitor]
      exact hdestroyed
  | true =>
      obtain ⟨es, -, he⟩ := stopped_eq c now
      rw [teardown_later now ht, he]
      exact hdestroyed

theorem onLifecycle_requests (c : Connection) (e : Lifecycle) :
    (c.onLifecycle e now).monitor.requests = c.monitor.requests := by
  cases e with
  | added => rfl
  | registered => exact establish_requests now _
  | active =>
      refine (establish_requests now _).trans ?_
      split <;> rfl
  | inactive => exact teardown_requests now _
  | removed => exact teardown_requests now _

theorem after_requests (c : Connection) (x : Call) :
    (c.after x).monitor.requests = c.monitor.requests + (c.asking x).toNat := by
  cases h : x.input.report? with
  | none => exact (after_steady h).requests
  | some e =>
      obtain ⟨input, now⟩ := x
      cases input with
      | event f =>
          cases f with
          | lifecycle f => exact onLifecycle_requests now c f
          | _ => contradiction
      | _ => contradiction

theorem run_requests (c : Connection) (xs : List Call) :
    (c.run xs).monitor.requests = c.monitor.requests + c.asked xs := by
  induction xs generalizing c with
  | nil => rfl
  | cons x rest ih =>
      show ((c.after x).run rest).monitor.requests = _
      rw [ih, after_requests, Nat.add_assoc]
      rfl

theorem openStream_result (m : Monitor) :
    m.openStream.result = true ↔ m.limits.Allows (m.requests + 1) := by
  rw [Monitor.openStream, KeepAlive.Allows]
  by_cases hzero : m.limits.maxRequests = 0
  · simp [KeepAlive.maxRequests?, hzero]
  · simp only [KeepAlive.maxRequests?, hzero, if_false, false_or]
    split <;> simp

theorem activity_monitor (m : Monitor) (frame : Frame) :
    (m.activity now frame).requests = m.requests ∧ (m.activity now frame).limits = m.limits := by
  rw [Monitor.activity]
  split
  · exact ⟨rfl, rfl⟩
  · split <;> exact ⟨rfl, rfl⟩

theorem onHeaders_answer (stream : StreamId) (headers : Headers) (endOfStream : Bool) :
    let x : Call := ⟨.event (.headers stream headers endOfStream), now⟩
    if c.asking x = true ∧ c.monitor.limits.Allows (c.monitor.requests + 1) then
      (c.perform x).2 = .ok () ∧ Adds Effect.reset? [] c (c.after x)
    else
      (c.perform x).2 =
          .error (.refused stream (if c.asking x then .maxRequests else .closing)) ∧
        Adds Effect.reset? [(stream, ErrorCode.refusedStream)] c (c.after x) := by
  intro x
  have hadds := Adds.onHeaders Effect.reset_overlooked c stream headers endOfStream now
  obtain ⟨hrequests, hlimits⟩ := activity_monitor now c.monitor .headers
  have hresult : (c.activity now .headers).monitor.openStream.result = true ↔
      c.monitor.limits.Allows (c.monitor.requests + 1) := by
    rw [← hrequests, ← hlimits]
    exact openStream_result _
  by_cases hlate : State.closing.rank ≤ c.state.rank
  · have hasking : c.asking x = false := by simp [asking, Nat.not_lt.mpr hlate]
    have hanswer := congrArg Prod.snd (onHeaders_late now stream headers endOfStream hlate)
    rw [hanswer] at hadds
    rw [hasking, if_neg (by simp)]
    exact ⟨hanswer, hadds⟩
  · have hasking : c.asking x = true := by simpa [x, asking, Input.opens] using hlate
    rw [hasking]
    cases hr : (c.activity now .headers).monitor.openStream.result with
    | false =>
        have hanswer := congrArg Prod.snd (onHeaders_beyond now stream headers endOfStream hlate hr)
        rw [hanswer] at hadds
        rw [hr] at hresult
        rw [if_neg (by simpa using hresult)]
        exact ⟨hanswer, hadds⟩
    | true =>
        have hanswer := congrArg Prod.snd (onHeaders_within now stream headers endOfStream hlate hr)
        rw [hanswer] at hadds
        rw [hr] at hresult
        rw [if_pos ⟨rfl, hresult.mp rfl⟩]
        exact ⟨hanswer, hadds⟩

theorem opens_iff {x : Call} (h : x.input.opens = true) : ∃ stream headers endOfStream now,
    x = ⟨.event (.headers stream headers endOfStream), now⟩ := by
  obtain ⟨input, now⟩ := x
  cases input with
  | event e =>
      cases e with
      | headers stream headers endOfStream => exact ⟨stream, headers, endOfStream, now, rfl⟩
      | _ => contradiction
  | _ => contradiction

theorem admission?_asking (x : Call) :
    (c.admission? x).isSome = true ↔
      c.asking x = true ∧ c.monitor.limits.Allows (c.monitor.requests + 1) := by
  cases hx : x.input.opens with
  | true =>
      obtain ⟨stream, headers, endOfStream, now, rfl⟩ := opens_iff hx
      have hanswer := onHeaders_answer (c := c) now stream headers endOfStream
      simp only at hanswer
      split at hanswer
      · rename_i hroom
        simp [admission?, hanswer.1, hroom]
      · rename_i hroom
        simp [admission?, hanswer.1, hroom]
  | false =>
      have hnone : c.admission? x = none := by
        obtain ⟨input, now⟩ := x
        cases input with
        | event e => cases e <;> first | rfl | contradiction
        | _ => rfl
      simp [hnone, asking, hx]

theorem Coherent.active_idle (h : Coherent c) (hs : c.state = .active) :
    c.tornDown = false ∧ c.drain.phase = .idle := by
  have hstate := h.state
  have hphase := h.phase
  cases ht : c.tornDown <;> cases hp : c.drain.phase <;> simp_all [stateFor]

section Limited

variable (id : ConnectionId) (protocol : Protocol) (config : Config) (routes : Resolver)
  (handler : Handler) (start : Instant)

theorem requests_asked (xs : List Call) :
    ((create id protocol config routes handler start).run xs).monitor.requests =
      (create id protocol config routes handler start).asked xs :=
  (run_requests _ xs).trans (Nat.zero_add _)

theorem admission?_room (xs : List Call) (x : Call) :
    let fresh := create id protocol config routes handler start
    ((fresh.run xs).admission? x).isSome = true ↔
      (fresh.run xs).asking x = true ∧ config.keepAlive.Allows (fresh.asked xs + 1) := by
  intro fresh
  rw [admission?_asking, limits_run, requests_asked]

theorem admitted_asked (xs : List Call) (h : 0 < config.keepAlive.maxRequests) :
    let fresh := create id protocol config routes handler start
    (fresh.admitted xs).length = min (fresh.asked xs) config.keepAlive.maxRequests := by
  intro fresh
  induction xs using List.reverseRecOn with
  | nil => exact (Nat.zero_min _).symm
  | append_singleton ys x ih =>
      have hroom : ((fresh.run ys).admission? x).isSome = true ↔
          (fresh.run ys).asking x = true ∧ (config.keepAlive.maxRequests = 0 ∨
            fresh.asked ys + 1 ≤ config.keepAlive.maxRequests) :=
        admission?_room id protocol config routes handler start ys x
      have hone : (fresh.admitted (ys ++ [x])).length =
          (fresh.admitted ys).length + ((fresh.run ys).admission? x).toList.length := by
        rw [admitted_append, List.length_append]
        simp [admitted]
      rw [hone, ih, asked_concat]
      cases ha : (fresh.run ys).asking x <;> cases hs : (fresh.run ys).admission? x <;>
        simp_all <;> omega

/-- The request that uses the limit up starts a drain before its call is over. -/
theorem limit_drains (xs : List Call) (h : 0 < config.keepAlive.maxRequests)
    (hxs : config.keepAlive.maxRequests ≤
      (create id protocol config routes handler start).asked xs) :
    ((create id protocol config routes handler start).run xs).state ≠ .active := by
  induction xs using List.reverseRecOn with
  | nil => exact absurd (Nat.lt_of_lt_of_le h hxs) (Nat.lt_irrefl 0)
  | append_singleton ys x ih =>
      have hc := coherent_run id protocol config routes handler start ys
      have hrequests := requests_asked id protocol config routes handler start (ys ++ [x])
      have hlimits := limits_run id protocol config routes handler start (ys ++ [x])
      have hv := vigilant_run id protocol config routes handler start (ys ++ [x])
      have hafter := coherent_run id protocol config routes handler start (ys ++ [x])
      rw [run_concat] at hrequests hlimits hv hafter ⊢
      generalize hd : (create id protocol config routes handler start).run ys = c at *
      intro hstate
      by_cases hbefore : config.keepAlive.maxRequests ≤
          (create id protocol config routes handler start).asked ys
      · have hforward := (after_forward hc x).state
        rw [hstate] at hforward
        have hactive : c.state.rank = State.active.rank := Nat.le_zero.mp hforward
        cases hs : c.state with
        | active => exact ih hbefore hs
        | draining => rw [hs] at hactive; contradiction
        | closing => rw [hs] at hactive; contradiction
        | closed => rw [hs] at hactive; contradiction
      · have hasking : c.asking x = true := by
          rw [asked_concat, hd] at hxs
          cases ha : c.asking x with
          | true => rfl
          | false =>
              rw [ha] at hxs
              exact absurd hxs hbefore
        obtain ⟨hopens, hrank⟩ := Bool.and_eq_true_iff.mp hasking
        have hlate : ¬ State.closing.rank ≤ c.state.rank := by simpa using hrank
        obtain ⟨stream, headers, endOfStream, now, rfl⟩ := opens_iff hopens
        obtain ⟨e, hsteady, hcoh, he⟩ := onHeaders_checked now stream headers endOfStream hlate
        have hwhole : c.after ⟨.event (.headers stream headers endOfStream), now⟩ =
            e.checkDisconnection now := he
        have hanswered : Answered (e.checkDisconnection now) :=
          checkDisconnection_answered (hcoh hc) (hsteady.tornDown.trans (hc.attached hlate))
        rw [hwhole] at hrequests hlimits hv hafter hstate
        obtain ⟨htorn, hidle⟩ := hafter.active_idle hstate
        have hgraceful : (e.checkDisconnection now).monitor.graceful.isSome := by
          rw [Option.isSome_iff_ne_none]
          intro hnone
          have hlt := hv.requests config.keepAlive.maxRequests
            (by rw [hlimits, KeepAlive.maxRequests?, if_neg (Nat.pos_iff_ne_zero.mp h)]) hnone
          rw [hrequests] at hlt
          exact absurd hxs (Nat.not_le.mpr hlt)
        rcases hanswered.graceful htorn hgraceful with hclosed | ⟨hphase, -⟩
        · rw [hidle] at hclosed
          contradiction
        · exact hphase hidle

/-- Of the streams that are asked for below closing the first are opened, as
many as the limit says, and every one if there is none. All others are refused,
each with one reset. The call that uses the limit up leaves a connection that
takes its leave. -/
theorem request_limit_kept (xs : List Call) :
    let fresh := create id protocol config routes handler start
    let c := fresh.run xs
    let limit := config.keepAlive.maxRequests
    (∀ stream headers endOfStream now,
      let x : Call := ⟨.event (.headers stream headers endOfStream), now⟩
      let number := fresh.asked (xs ++ [x])
      if c.state.rank < State.closing.rank ∧ (limit = 0 ∨ number ≤ limit) then
        (c.perform x).2 = .ok () ∧ Adds Effect.reset? [] c (c.after x)
      else
        (c.perform x).2 = .error (.refused stream
            (if c.state.rank < State.closing.rank then .maxRequests else .closing)) ∧
          Adds Effect.reset? [(stream, ErrorCode.refusedStream)] c (c.after x)) ∧
    (0 < limit → (fresh.admitted xs).length = min (fresh.asked xs) limit) ∧
    (0 < limit → limit ≤ fresh.asked xs →
      c.state = .draining ∨ c.state = .closing ∨ c.state = .closed) := by
  intro fresh c limit
  refine ⟨fun stream headers endOfStream now => ?_, ?_, fun hlimit hasked => ?_⟩
  · intro x number
    have hanswer := onHeaders_answer (c := c) now stream headers endOfStream
    have hlimits : c.monitor.limits = config.keepAlive :=
      limits_run id protocol config routes handler start xs
    have hrequests : c.monitor.requests = fresh.asked xs :=
      requests_asked id protocol config routes handler start xs
    have hnumber : number = fresh.asked xs + (c.asking x).toNat := asked_concat fresh xs x
    simp only [hlimits, hrequests] at hanswer
    by_cases hrank : c.state.rank < State.closing.rank
    · have hasking : c.asking x = true := by simpa [x, asking, Input.opens] using hrank
      rw [hasking] at hnumber
      simpa [hasking, hrank, hnumber, KeepAlive.Allows, limit, x] using hanswer
    · have hasking : c.asking x = false := by simpa [x, asking, Input.opens] using hrank
      simpa [hasking, hrank, x] using hanswer
  · exact admitted_asked id protocol config routes handler start xs
  · have hne := limit_drains id protocol config routes handler start xs hlimit hasked
    cases hs : c.state with
    | active => exact absurd hs hne
    | draining => exact .inl rfl
    | closing => exact .inr (.inl rfl)
    | closed => exact .inr (.inr rfl)

end Limited

end Connection

end HttpLifecycle
