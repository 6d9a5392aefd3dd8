import HttpLifecycle.Proofs.Connection.Fate
import Mathlib.Data.List.Induction

namespace HttpLifecycle

/-- What a handler finds in a request that it is given. -/
inductive Handout where
  | atOnce
  | whole (body : Bytes)
  | failed (cause : AbortCause)
  deriving DecidableEq, Repr

/-- Content is waited for only where a service wants it in one piece. -/
def servedAtOnce (service : Option Service) (endOfStream : Bool) : Bool :=
  endOfStream || service.all (·.exchange.streamsRequest)

/-- What there is to hand over when one more frame comes in, with its bytes and
whether it is the last. -/
def due (limit : Nat) (body : Bytes) : Option (Bytes × Bool) → List Handout
  | none => []
  | some (bytes, last) =>
    let total := Word.saturate (body.length + bytes.length)
    if 0 < limit ∧ limit < total then [.failed (.limitExceeded limit total)]
    else if last then [.whole (body ++ bytes)]
    else []

/-- The content of frames, each of which may be the last one. -/
def contentOf (frames : List (Bytes × Bool)) : Bytes := frames.flatMap (·.1)

def isComplete (frames : List (Bytes × Bool)) : Bool := frames.any (·.2)

def Effect.handed? : Effect → Option Request
  | .dispatch r => some r
  | _ => none

def handedOf (es : List Effect) : List Request := es.filterMap Effect.handed?

variable {es fs : List Effect}

theorem contentOf_append (fs gs : List (Bytes × Bool)) :
    contentOf (fs ++ gs) = contentOf fs ++ contentOf gs := List.flatMap_append

theorem isComplete_append (fs gs : List (Bytes × Bool)) :
    isComplete (fs ++ gs) = (isComplete fs || isComplete gs) := List.any_append

theorem handedOf_append : handedOf (es ++ fs) = handedOf es ++ handedOf fs := List.filterMap_append

theorem handedOf_nil (h : ∀ r, .dispatch r ∉ es) : handedOf es = [] := by
  refine List.filterMap_eq_nil_iff.mpr fun e he => ?_
  cases e with
  | dispatch r => exact absurd he (h r)
  | _ => rfl

theorem Inner.handedOf (h : Inner es) : handedOf es = [] := handedOf_nil h.no_dispatch

namespace Request

def handout? (r : Request) : Option Handout :=
  match r.cause, r.mode with
  | none, .empty => some .atOnce
  | none, .streaming _ true => some .atOnce
  | none, .aggregating body true false => some (.whole body)
  | some cause, .streaming _ true => some (.failed cause)
  | _, _ => none

structure Waits (limit : Nat) (body : Bytes) (r : Request) : Prop where
  mode : r.mode = .aggregating body false false
  live : r.terminal = false
  received : r.received = Word.saturate body.length
  limit : r.limit = limit

variable {r t : Request} {limit : Nat} {body : Bytes}

theorem ofOpening_atOnce (o : Opening) (i : Intake)
    (h : servedAtOnce o.service o.endOfStream = true) :
    (ofOpening o i).1.ready = true ∧ (ofOpening o i).1.handout? = some .atOnce := by
  rw [ofOpening]
  cases hs : o.service with
  | none => exact ⟨rfl, rfl⟩
  | some service =>
      rw [servedAtOnce, hs] at h
      cases hlast : o.endOfStream with
      | true => exact ⟨rfl, rfl⟩
      | false =>
          have hstreams : service.exchange.streamsRequest = true := by simpa [hlast] using h
          simp only [hstreams]
          exact ⟨rfl, rfl⟩

theorem ofOpening_waits (o : Opening) (i : Intake)
    (h : servedAtOnce o.service o.endOfStream = false) :
    Waits ((o.service.map (·.limit o.defaultLimit)).getD o.defaultLimit) []
      (ofOpening o i).1 := by
  rw [ofOpening]
  cases hs : o.service with
  | none =>
      rw [servedAtOnce, hs] at h
      simp at h
  | some service =>
      rw [servedAtOnce, hs] at h
      obtain ⟨hlast, hstreams⟩ :
          o.endOfStream = false ∧ service.exchange.streamsRequest = false := by
        simpa using h
      simp only [hlast, hstreams]
      exact ⟨rfl, rfl, rfl, rfl⟩

namespace Waits

theorem ready (h : r.Waits limit body) : r.ready = false := by
  have hlive := h.live
  rw [terminal] at hlive
  rw [Request.ready, h.mode]
  simp_all

theorem gathers (h : r.Waits limit body) : r.needsAggregation = true := by
  rw [needsAggregation, h.mode]

theorem bind (h : r.Waits limit body) (tag : String) : (r.bind tag).state.Waits limit body := by
  obtain ⟨hmode, hlive, hreceived, hlimit⟩ := h
  rw [Request.bind]
  split <;> exact ⟨hmode, hlive, hreceived, hlimit⟩

theorem receive (h : r.Waits limit body) (n : Nat) :
    (r.receive n).2 = if 0 < limit ∧ limit < Word.saturate (body.length + n) then
      some (.limitExceeded limit (Word.saturate (body.length + n))) else none := by
  rw [Request.receive, h.received, h.limit, Word.saturate_add]

theorem onData (h : r.Waits limit body) (i : Intake) (bytes : Bytes) (last : Bool)
    (hroom : ¬ (0 < limit ∧ limit < Word.saturate (body.length + bytes.length))) :
    (r.onData i bytes last).state.1 =
      { r with
        received := Word.saturate (body.length + bytes.length)
        mode := .aggregating (body ++ bytes) last false } := by
  have hnone : (r.receive bytes.length).2 = none := by rw [h.receive, if_neg hroom]
  rw [Request.onData, h.mode]
  simp only [h.live, Bool.or_false, Bool.false_eq_true, if_false]
  rw [receive_eq, hnone, h.received, Word.saturate_add]

theorem cause (h : r.Waits limit body) : r.cause = none := by
  have hlive := h.live
  rw [terminal] at hlive
  simp_all

theorem takenIn (h : r.Waits limit body) {i : Intake} {bytes : Bytes} {last : Bool}
    (htaken : r.TakenIn (r.onData i bytes last)) :
    ¬ (0 < limit ∧ limit < Word.saturate (body.length + bytes.length)) ∧
      (r.onData i bytes last).state.1 =
        { r with
          received := Word.saturate (body.length + bytes.length)
          mode := .aggregating (body ++ bytes) last false } := by
  have hroom : ¬ (0 < limit ∧ limit < Word.saturate (body.length + bytes.length)) := by
    intro hover
    have hresult := htaken.result
    have hsome := h.receive bytes.length
    rw [if_pos hover] at hsome
    rw [Request.onData, h.mode] at hresult
    simp only [h.live, Bool.or_false, Bool.false_eq_true, if_false] at hresult
    rw [receive_eq, hsome] at hresult
    contradiction
  exact ⟨hroom, h.onData i bytes last hroom⟩

theorem tooMuch (h : r.Waits limit body) {s : Step (Request × Intake) Effect (Except Error Unit)}
    {n : Nat} {cause : AbortCause} (hover : r.TooMuch n s cause) :
    (0 < limit ∧ limit < Word.saturate (body.length + n)) ∧
      cause = .limitExceeded limit (Word.saturate (body.length + n)) := by
  have hsome := hover.exceeds
  rw [h.receive] at hsome
  split at hsome
  · rename_i hlong
    exact ⟨hlong, (Option.some.inj hsome).symm⟩
  · contradiction

end Waits

theorem handout?_toAborted {i j : Intake} {cause : AbortCause}
    (h : r.toAborted? i cause = some (t, j)) : t.handout? = some (.failed cause) := by
  rw [toAborted?] at h
  split at h
  · obtain ⟨rfl, -⟩ := Prod.mk.inj (Option.some.inj h)
    rfl
  · contradiction

theorem TooMuch.waits {i : Intake} {bytes : Bytes} {last : Bool} {cause : AbortCause}
    (h : r.TooMuch bytes.length (r.onData i bytes last) cause) (hmode : r.needsAggregation = true) :
    r.ready = false := by
  have hresult := h.result
  have hlive := h.live
  rw [Request.onData] at hresult
  rw [needsAggregation] at hmode
  rw [ready]
  cases hm : r.mode with
  | aggregating body complete taken =>
      rw [hm] at hresult
      cases complete with
      | false =>
          rw [terminal] at hlive
          simp_all
      | true =>
          simp at hresult
  | _ => simp [hm] at hmode

theorem ready_of_cause (h : r.cause.isSome = true) : r.ready = true := by
  rw [ready]
  split
  · rw [h, Bool.or_true]
  · rfl

theorem ready_of_streaming {channel : BodyId} {untaken : Bool}
    (h : r.mode = .streaming channel untaken) :
    r.ready = true := by
  rw [ready, h]

theorem ready_onData (h : r.ready = true) (i : Intake) (bytes : Bytes) (last : Bool) :
    (r.onData i bytes last).state.1.ready = true := by
  rw [Request.onData]
  cases hm : r.mode with
  | empty => rfl
  | aggregating body complete taken =>
      have hover : (r.terminal || complete) = true := by
        rw [ready, hm] at h
        rw [terminal]
        cases complete <;> simp_all
      simp only [if_pos hover]
      exact h
  | streaming channel untaken =>
      simp only
      split
      · exact h
      · rw [receive_eq]
        cases (r.receive bytes.length).2 with
        | none => exact ready_of_streaming hm
        | some cause => exact ready_of_streaming ((mode_fail _ cause true).trans hm)

theorem ready_bind (h : r.ready = true) (tag : String) : (r.bind tag).state.ready = true := by
  rw [Request.bind]
  split <;> exact h

theorem ready_abort (h : r.ready = true) (i : Intake) (cause : AbortCause) (reset : Bool) :
    (r.abort i cause reset).state.1.ready = true := by
  cases hlive : r.terminal with
  | true =>
      rw [abort, fail_over hlive]
      exact h
  | false =>
      obtain ⟨mode, hs⟩ := r.abort_state i cause reset
      rw [hs, (fail_open hlive cause reset).1]
      exact ready_of_cause rfl

theorem ready_perform (h : r.ready = true) (i : Intake) (action : Action) :
    (r.perform i action).state.1.ready = true := by
  cases action with
  | bind tag => exact ready_bind h tag
  | takeBody =>
      rw [perform, takeBody]
      cases hm : r.mode with
      | streaming channel untaken =>
          cases untaken with
          | true => exact ready_of_streaming rfl
          | false => exact ready_of_streaming hm
      | _ => exact h
  | takeAggregated =>
      show r.takeAggregated.1.ready = true
      rw [takeAggregated]
      split
      · split
        · rfl
        · exact h
      · exact h
  | abort cause reset => exact ready_abort h i cause reset
  | complete =>
      obtain ⟨completed, hs⟩ := r.complete_state
      show r.complete.1.ready = true
      rw [hs]
      exact h

theorem ready_performAll (h : r.ready = true) (i : Intake) (actions : List Action) :
    (r.performAll i actions).state.1.ready = true := by
  induction actions generalizing r i with
  | nil => exact h
  | cons action rest ih => exact ih (ready_perform h i action) _

end Request

namespace Connection

def Call.frame? (x : Call) (stream : StreamId) : Option (Bytes × Bool) :=
  match x.input with
  | .event (.data s bytes last) => if s = stream then some (bytes, last) else none
  | _ => none

def frames (stream : StreamId) (xs : List Call) : List (Bytes × Bool) :=
  xs.filterMap (·.frame? stream)

variable {c : Connection} {x : Call} {s : StreamId} {r : Request} {new : Option Request}
  {limit : Nat} {body : Bytes}

theorem frames_cons (x : Call) (xs : List Call) :
    frames s (x :: xs) = (x.frame? s).toList ++ frames s xs := by
  rw [frames, List.filterMap_cons]
  cases x.frame? s <;> rfl

theorem frame?_none (h : ∀ bytes last, x.input ≠ .event (.data s bytes last)) :
    x.frame? s = none := by
  rw [Call.frame?]
  split
  · rename_i t bytes last hx
    rw [if_neg]
    rintro rfl
    exact h bytes last hx
  · rfl

theorem frame?_data {bytes : Bytes} {last : Bool} (h : x.input = .event (.data s bytes last)) :
    x.frame? s = some (bytes, last) := by
  rw [Call.frame?, h]
  exact if_pos rfl

theorem handedOf_served (i : Intake) (actions : List Action) :
    handedOf (.dispatch r :: storyOf s (r.performAll i actions).events) = [r] := by
  have hnone := ((r.inner_performAll i actions).storyOf s).handedOf
  show r :: handedOf _ = [r]
  rw [hnone]

theorem handedOf_record (h : Inner es) (now : Instant) :
    handedOf (es ++ [.record (.ofRequest r now)]) = [] := by
  rw [handedOf_append, h.handedOf]
  rfl

theorem handedOf_parting (h : Inner es) (now : Instant) : handedOf (es ++ r.parting now) = [] := by
  rw [handedOf_append, h.handedOf, Request.parting]
  split <;> rfl

/-- A frame may come with a call, and finds a request that waits. -/
structure Awaits (limit : Nat) (body : Bytes) (frame : Option (Bytes × Bool)) (es : List Effect)
    (new : Option Request) : Prop where
  handed : (handedOf es).map (·.handout?) = (due limit body frame).map some
  next : ∀ t, new = some t →
    isComplete frame.toList = true ∧ t.ready = true ∧ (handedOf es).length = 1 ∨
    isComplete frame.toList = false ∧ t.Waits limit (body ++ contentOf frame.toList) ∧
      handedOf es = []

theorem Awaits.idle (h : handedOf es = []) (hnew : ∀ t, new = some t → t.Waits limit body) :
    Awaits limit body none es new := by
  refine ⟨by rw [h]; rfl, fun t ht => .inr ⟨rfl, ?_, h⟩⟩
  rw [Option.toList_none, contentOf, List.flatMap_nil, List.append_nil]
  exact hnew t ht

theorem Fate.ready (hf : Fate c s x es new) (h : c.find? s = some r) (hr : r.ready = true)
    (hopen : c.admission? x ≠ some s) :
    handedOf es = [] ∧ ∀ t, new = some t → t.ready = true := by
  have hsame {q : Request} (hq : c.find? s = some q) : q = r := Option.some.inj (hq.symm.trans h)
  have hkept : ∀ t, c.find? s = some t → t.ready = true := fun t ht => hsame ht ▸ hr
  cases hf with
  | spared hsubject => exact ⟨rfl, hkept⟩
  | refused hx hnone => exact ⟨rfl, hkept⟩
  | opened hx hsome hq hready => exact absurd hsome hopen
  | served i actions hx hsome hq hready => exact absurd hsome hopen
  | @bound tag q hx hq =>
      obtain rfl := hsame hq
      refine ⟨(q.inner_bind tag).handedOf, fun t ht => ?_⟩
      obtain rfl := Option.some.inj ht
      exact Request.ready_bind hr tag
  | @fed bytes last q t hx hq ht htaken hready =>
      obtain rfl := hsame hq
      refine ⟨rfl, fun u hu => ?_⟩
      obtain rfl := Option.some.inj hu
      rw [ht]
      exact Request.ready_onData hr _ _ _
  | gathered i actions hx hq ht htaken hwaits hready =>
      rw [hsame hq, hr] at hwaits
      contradiction
  | @burst bytes last q t cause hx hq ht hover hmode =>
      exact ⟨handedOf_parting (q.inner_tells cause) _, fun u hu => by contradiction⟩
  | overrun i j actions hx hq ht hover hmode ha =>
      have hwaits := hover.waits hmode
      rw [hsame hq, hr] at hwaits
      contradiction
  | completed hx hq => exact ⟨rfl, fun u hu => by contradiction⟩
  | @cancelled cause q hx hq =>
      have hinner := (q.inner_fail cause true).storyOf s
      exact ⟨handedOf_parting hinner _, fun u hu => by contradiction⟩
  | @ended cause q hx hq =>
      have hinner := (q.inner_fail cause false).storyOf q.stream
      exact ⟨handedOf_record hinner _, fun u hu => by contradiction⟩

theorem Fate.awaits (hf : Fate c s x es new) (h : c.find? s = some r) (hw : r.Waits limit body)
    (hopen : c.admission? x ≠ some s) : Awaits limit body (x.frame? s) es new := by
  have hsame {q : Request} (hq : c.find? s = some q) : q = r := Option.some.inj (hq.symm.trans h)
  have hstill (hnone : ∀ bytes last, x.input ≠ .event (.data s bytes last))
      (hes : handedOf es = []) (hnew : ∀ t, new = some t → t.Waits limit body) :
      Awaits limit body (x.frame? s) es new := by
    rw [frame?_none hnone]
    exact .idle hes hnew
  cases hf with
  | spared hsubject =>
      refine hstill (fun bytes last hx => ?_) rfl fun t ht => hsame ht ▸ hw
      obtain ⟨hnone, -⟩ := hsubject (by rw [hx]; rfl)
      rw [h] at hnone
      contradiction
  | refused hx hnone => exact hstill (by simp [hx]) rfl fun t ht => hsame ht ▸ hw
  | opened hx hsome hq hready => exact absurd hsome hopen
  | served i actions hx hsome hq hready => exact absurd hsome hopen
  | @bound tag q hx hq =>
      obtain rfl := hsame hq
      refine hstill (by simp [hx]) (q.inner_bind tag).handedOf fun t ht => ?_
      obtain rfl := Option.some.inj ht
      exact hw.bind tag
  | @fed bytes last q t hx hq ht htaken hready =>
      obtain rfl := hsame hq
      obtain ⟨hroom, hstate⟩ := hw.takenIn htaken
      rw [← ht] at hstate
      have hlast : last = false := by
        have hwaits := hready.resolve_left (by simp [hw.ready])
        rw [hstate, Request.ready] at hwaits
        simp_all
      subst hlast
      rw [frame?_data hx]
      refine ⟨by rw [due, if_neg hroom]; rfl, fun u hu => .inr ⟨rfl, ?_, rfl⟩⟩
      obtain rfl := Option.some.inj hu
      have hcontent : contentOf [(bytes, false)] = bytes := by simp [contentOf]
      rw [Option.toList_some, hcontent, hstate]
      exact ⟨rfl, hw.live, congrArg Word.saturate List.length_append.symm, hw.limit⟩
  | @gathered bytes last q t i actions hx hq ht htaken hwaits hready =>
      obtain rfl := hsame hq
      obtain ⟨hroom, hstate⟩ := hw.takenIn htaken
      rw [← ht] at hstate
      have hcause : q.cause = none := hw.cause
      have hlast : last = true := by
        rw [hstate, Request.ready] at hready
        simp_all
      subst hlast
      have hwhole : t.handout? = some (.whole (body ++ bytes)) := by
        rw [hstate, Request.handout?, hcause]
      rw [frame?_data hx]
      refine ⟨?_, fun u hu => .inl ⟨rfl, ?_, by rw [handedOf_served]; rfl⟩⟩
      · rw [due, if_neg hroom, handedOf_served, List.map_singleton, hwhole]
        rfl
      · obtain rfl := Option.some.inj hu
        exact Request.ready_performAll hready i actions
  | burst hx hq ht hover hmode =>
      rw [hsame hq, hw.gathers] at hmode
      contradiction
  | @overrun bytes last q t a cause i j actions hx hq ht hover hmode ha =>
      obtain rfl := hsame hq
      obtain ⟨hlong, hcause⟩ := hw.tooMuch hover
      have hinner := (a.inner_performAll j actions).storyOf s
      have hes : handedOf (q.tells cause ++ (.dispatch a ::
          storyOf s (a.performAll j actions).events ++
          (a.performAll j actions).state.1.parting x.now)) = [a] := by
        rw [handedOf_append, (q.inner_tells cause).handedOf]
        show a :: handedOf (storyOf s (a.performAll j actions).events ++ _) = [a]
        rw [handedOf_parting hinner]
      rw [frame?_data hx]
      refine ⟨?_, fun u hu => by contradiction⟩
      rw [due, if_pos hlong, hes, List.map_singleton, Request.handout?_toAborted ha, hcause]
      rfl
  | completed hx hq => exact hstill (by simp [hx]) rfl fun t ht => by contradiction
  | @cancelled cause q hx hq =>
      have hinner := (q.inner_fail cause true).storyOf s
      exact hstill (by simp [hx]) (handedOf_parting hinner _) fun t ht => by contradiction
  | @ended cause q hx hq =>
      have hinner := (q.inner_fail cause false).storyOf q.stream
      exact hstill (fun bytes last => hx.ne rfl (by simp)) (handedOf_record hinner _)
        fun t ht => by contradiction

/-- The requests of a stream that a call hands to the handler. -/
def handed (c : Connection) (stream : StreamId) (x : Call) : List Request :=
  handedOf (c.news stream x)

def handedOver (c : Connection) (stream : StreamId) : List Call → List Request
  | [] => []
  | x :: rest => c.handed stream x ++ (c.after x).handedOver stream rest

/-- A stream that is open stays so, and its request is the same all the time. -/
def Tenure (stream : StreamId) : Connection → List Call → Prop
  | c, [] => (c.find? stream).isSome
  | c, x :: rest =>
    (c.find? stream).isSome ∧ c.admission? x ≠ some stream ∧ Tenure stream (c.after x) rest

theorem handed_eq (h : (c.after x).story s = c.story s ++ es) : c.handed s x = handedOf es := by
  rw [handed, news_eq h]

theorem Tenure.opened {xs : List Call} (h : Tenure s c xs) : ∃ r, c.find? s = some r := by
  cases xs with
  | nil => exact Option.isSome_iff_exists.mp h
  | cons x rest => exact Option.isSome_iff_exists.mp h.1

theorem tenure_concat (xs : List Call) (x : Call) : Tenure s c (xs ++ [x]) ↔
    Tenure s c xs ∧ (c.run xs).admission? x ≠ some s ∧ ((c.run (xs ++ [x])).find? s).isSome := by
  induction xs generalizing c with
  | nil => exact Iff.rfl
  | cons y rest ih =>
      show _ ∧ _ ∧ Tenure s (c.after y) (rest ++ [x]) ↔ _
      rw [ih]
      exact ⟨fun ⟨h, hy, hrest, hx⟩ => ⟨⟨h, hy, hrest⟩, hx⟩,
        fun ⟨⟨h, hy, hrest⟩, hx⟩ => ⟨h, hy, hrest, hx⟩⟩

theorem tenure_ready (hd : Distinct c) {xs : List Call} (hxs : Tenure s c xs)
    (h : c.find? s = some r) (hr : r.ready = true) :
    ∃ t, (c.run xs).find? s = some t ∧ t.ready = true ∧ c.handedOver s xs = [] := by
  induction xs generalizing c r with
  | nil => exact ⟨r, h, hr, rfl⟩
  | cons x rest ih =>
      obtain ⟨-, hopen, hrest⟩ := hxs
      obtain ⟨es, hstory, hf⟩ := after_fate hd s x
      obtain ⟨hnone, hnew⟩ := hf.ready h hr hopen
      obtain ⟨q, hq⟩ := hrest.opened
      obtain ⟨t, ht, hready, hover⟩ := ih (after_distinct hd x) hrest hq (hnew q hq)
      refine ⟨t, ht, hready, ?_⟩
      rw [handedOver, handed_eq hstory, hnone, hover]
      rfl

theorem tenure_waits (hd : Distinct c) {xs : List Call} (hxs : Tenure s c xs)
    (h : c.find? s = some r) (hw : r.Waits limit body) :
    ∃ t, (c.run xs).find? s = some t ∧
      (isComplete (frames s xs) = true ∧ t.ready = true ∧ (c.handedOver s xs).length = 1 ∨
        isComplete (frames s xs) = false ∧ t.Waits limit (body ++ contentOf (frames s xs)) ∧
          c.handedOver s xs = []) := by
  induction xs generalizing c r body with
  | nil =>
      refine ⟨r, h, .inr ⟨rfl, ?_, rfl⟩⟩
      show r.Waits limit (body ++ [])
      rw [List.append_nil]
      exact hw
  | cons x rest ih =>
      obtain ⟨-, hopen, hrest⟩ := hxs
      obtain ⟨es, hstory, hf⟩ := after_fate hd s x
      obtain ⟨-, hnext⟩ := hf.awaits h hw hopen
      obtain ⟨q, hq⟩ := hrest.opened
      have hdistinct := after_distinct hd x
      rw [frames_cons, isComplete_append, contentOf_append, handedOver, handed_eq hstory]
      rcases hnext q hq with ⟨hlast, hready, hone⟩ | ⟨hlast, hwaits, hnone⟩
      · obtain ⟨t, ht, hdone, hover⟩ := tenure_ready hdistinct hrest hq hready
        rw [hlast, hover, List.append_nil]
        exact ⟨t, ht, .inl ⟨rfl, hdone, hone⟩⟩
      · obtain ⟨t, ht, hcases⟩ := ih hdistinct hrest hq hwaits
        rw [hlast, hnone, Bool.false_or, List.nil_append, ← List.append_assoc]
        exact ⟨t, ht, hcases⟩

/-- The request that a call brings in is handed over once at most: at once
where no content is waited for, else with the frame that completes its content
or makes it too long, if that comes while it is open. -/
structure HandedOnce (c : Connection) (s : StreamId) (x : Call) (atOnce : Bool) (limit : Nat) :
    Prop where
  first : (c.handed s x).map (·.handout?) = if atOnce then [some .atOnce] else []
  later : ∀ ys y, Tenure s (c.after x) ys → ((c.after x).run ys).admission? y ≠ some s →
    (((c.after x).run ys).handed s y).map (·.handout?) =
      if atOnce || isComplete (frames s ys) then []
      else (due limit (contentOf (frames s ys)) (y.frame? s)).map some
  once : ∀ ys y, Tenure s (c.after x) ys → ((c.after x).run ys).admission? y ≠ some s →
    (c.handed s x ++ (c.after x).handedOver s (ys ++ [y])).length ≤ 1

theorem due_length (limit : Nat) (body : Bytes) (frame : Option (Bytes × Bool)) :
    (due limit body frame).length ≤ 1 := by
  cases frame with
  | none => exact Nat.zero_le 1
  | some f =>
      rw [due]
      split
      · exact Nat.le_refl 1
      · split <;> simp

theorem handedOver_append (c : Connection) (s : StreamId) (xs ys : List Call) :
    c.handedOver s (xs ++ ys) = c.handedOver s xs ++ (c.run xs).handedOver s ys := by
  induction xs generalizing c with
  | nil => rfl
  | cons x rest ih =>
      rw [List.cons_append, handedOver, handedOver, ih, ← List.append_assoc]
      rfl

theorem handed_ready (hd : Distinct c) (h : c.find? s = some r) (hr : r.ready = true)
    (hopen : c.admission? x ≠ some s) : c.handed s x = [] := by
  obtain ⟨es, hstory, hf⟩ := after_fate hd s x
  rw [handed_eq hstory]
  exact (hf.ready h hr hopen).1

theorem handedOnce_atOnce (hd : Distinct c)
    (hfirst : (c.handed s x).map (·.handout?) = [some .atOnce])
    (h : (c.after x).find? s = some r) (hr : r.ready = true) (limit : Nat) :
    HandedOnce c s x true limit where
  first := hfirst
  later ys y hys hopen := by
    have hlater := run_distinct (after_distinct hd x) ys
    obtain ⟨t, ht, hready, -⟩ := tenure_ready (after_distinct hd x) hys h hr
    rw [handed_ready hlater ht hready hopen]
    rfl
  once ys y hys hopen := by
    have hlater := run_distinct (after_distinct hd x) ys
    obtain ⟨t, ht, hready, hnone⟩ := tenure_ready (after_distinct hd x) hys h hr
    have hone : (c.handed s x).length = 1 := by
      rw [← List.length_map (·.handout?), hfirst]
      rfl
    rw [handedOver_append, hnone, handedOver, handed_ready hlater ht hready hopen]
    simp [handedOver, hone]

theorem handedOnce_waits (hd : Distinct c) (hfirst : c.handed s x = [])
    (h : (c.after x).find? s = some r) (hw : r.Waits limit []) :
    HandedOnce c s x false limit where
  first := by
    rw [hfirst]
    rfl
  later ys y hys hopen := by
    have hlater := run_distinct (after_distinct hd x) ys
    obtain ⟨t, ht, hcases⟩ := tenure_waits (after_distinct hd x) hys h hw
    rcases hcases with ⟨hlast, hready, -⟩ | ⟨hlast, hwaits, -⟩
    · rw [handed_ready hlater ht hready hopen, hlast]
      rfl
    · obtain ⟨es, hstory, hf⟩ := after_fate hlater s y
      rw [handed_eq hstory, hlast]
      exact (hf.awaits ht hwaits hopen).handed
  once ys y hys hopen := by
    have hlater := run_distinct (after_distinct hd x) ys
    obtain ⟨t, ht, hcases⟩ := tenure_waits (after_distinct hd x) hys h hw
    rw [hfirst, handedOver_append, List.nil_append, List.length_append]
    rcases hcases with ⟨-, hready, hone⟩ | ⟨-, hwaits, hnone⟩
    · rw [handedOver, handedOver, handed_ready hlater ht hready hopen, hone]
      exact Nat.le_refl 1
    · obtain ⟨es, hstory, hf⟩ := after_fate hlater s y
      have hdue := congrArg List.length (hf.awaits ht hwaits hopen).handed
      rw [List.length_map, List.length_map, ← handed_eq hstory] at hdue
      have hmost := due_length limit ([] ++ contentOf (frames s ys)) (y.frame? s)
      rw [hnone, handedOver, handedOver, List.append_nil, hdue, List.length_nil, Nat.zero_add]
      exact hmost

theorem Fate.unhanded (hf : Fate c s x es new) (hopen : c.admission? x ≠ some s)
    (h : x.frame? s = none) : handedOf es = [] := by
  cases hf with
  | spared hsubject | refused hx hnone | completed hx hq => rfl
  | opened hx hsome | served i actions hx hsome => exact absurd hsome hopen
  | @bound tag q hx hq => exact (q.inner_bind tag).handedOf
  | fed hx | gathered i actions hx | burst hx | overrun i j actions hx =>
      rw [frame?_data hx] at h
      contradiction
  | @cancelled cause q hx hq => exact handedOf_parting ((q.inner_fail cause true).storyOf s) _
  | @ended cause q hx hq => exact handedOf_record ((q.inner_fail cause false).storyOf q.stream) _

theorem admission_handedOnce (hd : Distinct c) {headers : Headers} {last : Bool}
    (hx : x.input = .event (.headers s headers last)) (hopen : c.admission? x = some s) :
    let service := c.routes headers
    HandedOnce c s x (servedAtOnce service last)
      ((service.map (·.limit c.defaultLimit)).getD c.defaultLimit) := by
  intro service
  obtain ⟨es, hstory, hf⟩ := after_fate hd s x
  have hhanded := handed_eq hstory
  generalize hnew : (c.after x).find? s = new at hf
  have hinput {t : Headers} {b : Bool} (ht : x.input = .event (.headers s t b)) :
      t = headers ∧ b = last := by
    rw [hx] at ht
    cases ht
    exact ⟨rfl, rfl⟩
  cases hf with
  | spared hsubject =>
      obtain ⟨-, hnone⟩ := hsubject (by rw [hx]; rfl)
      rw [hopen] at hnone
      contradiction
  | refused ht hnone =>
      rw [hopen] at hnone
      contradiction
  | @opened t b r ht hsome hr hready =>
      obtain ⟨rfl, rfl⟩ := hinput ht
      cases hat : servedAtOnce service b with
      | true =>
          obtain ⟨hnow, -⟩ := Request.ofOpening_atOnce (c.opening s t b x.now) c.intake hat
          rw [← hr, hready] at hnow
          contradiction
      | false =>
          have hwaits := Request.ofOpening_waits (c.opening s t b x.now) c.intake hat
          rw [← hr] at hwaits
          exact handedOnce_waits hd hhanded hnew hwaits
  | @served t b r i actions ht hsome hr hready =>
      obtain ⟨rfl, rfl⟩ := hinput ht
      cases hat : servedAtOnce service b with
      | true =>
          obtain ⟨-, hhandout⟩ := Request.ofOpening_atOnce (c.opening s t b x.now) c.intake hat
          rw [handedOf_served] at hhanded
          refine handedOnce_atOnce hd ?_ hnew (Request.ready_performAll hready i actions) _
          rw [hhanded, List.map_singleton, hr, hhandout]
      | false =>
          have hwaits := (Request.ofOpening_waits (c.opening s t b x.now) c.intake hat).ready
          rw [← hr, hready] at hwaits
          contradiction
  | bound ht | fed ht | gathered i actions ht | burst ht | overrun i j actions ht | completed ht
  | cancelled ht =>
      rw [hx] at ht
      cases ht
  | ended ht =>
      rw [hx] at ht
      cases ht
      contradiction

theorem tenure_of_opened (hd : Distinct c) (h : c.find? s = none) {xs : List Call}
    (hopen : ((c.run xs).find? s).isSome) :
    ∃ before x ys, xs = before ++ x :: ys ∧ (c.run before).admission? x = some s ∧
      Tenure s ((c.run before).after x) ys := by
  induction xs using List.reverseRecOn with
  | nil =>
      rw [run, List.foldl_nil, h] at hopen
      contradiction
  | append_singleton xs x ih =>
      rw [run_concat] at hopen
      by_cases hin : (c.run xs).admission? x = some s
      · exact ⟨xs, x, [], rfl, hin, hopen⟩
      · obtain ⟨es, -, hf⟩ := after_fate (run_distinct hd xs) s x
        cases hbefore : (c.run xs).find? s with
        | none =>
            rw [(hf.vacant hbefore hin).1] at hopen
            contradiction
        | some r =>
            obtain ⟨before, w, ys, rfl, hw, hys⟩ := ih (by rw [hbefore]; rfl)
            refine ⟨before, w, ys ++ [x], by simp, hw, (tenure_concat ys x).mpr ⟨hys, ?_⟩⟩
            have hrun : c.run (before ++ w :: ys) = ((c.run before).after w).run ys :=
              List.foldl_append
            rw [hrun] at hin hopen
            rw [run_concat]
            exact ⟨hin, hopen⟩

theorem invariant_served (routes : Resolver) (limit : Nat) :
    Invariant fun c => c.routes = routes ∧ c.defaultLimit = limit where
  move _ h m := by
    cases m with
    | serve ha =>
        cases ha
        exact h
    | _ => exact h
  admits _ _ _ h := h
  server h := h

/-- A request is handed to the handler once at most, and never one that was
refused: when it comes in, or with the frame that its content is complete with
or too long. Whatever is handed over is of a request that came in. -/
theorem handed_over_once (id : ConnectionId) (protocol : Protocol) (config : Config)
    (routes : Resolver) (handler : Handler) (start : Instant) (xs : List Call) (x : Call)
    (s : StreamId) :
    let fresh := create id protocol config routes handler start
    let c := fresh.run xs
    (c.admission? x ≠ some s → c.find? s = none ∨ x.frame? s = none → c.handed s x = []) ∧
    (∀ headers last, x.input = .event (.headers s headers last) → c.admission? x = some s →
      let service := routes headers
      HandedOnce c s x (servedAtOnce service last)
        ((service.map (·.limit config.maxRequestLength)).getD config.maxRequestLength)) ∧
    ((c.find? s).isSome → ∃ before w ys, xs = before ++ w :: ys ∧
      (fresh.run before).admission? w = some s ∧ Tenure s ((fresh.run before).after w) ys) := by
  intro fresh c
  have hd : Distinct fresh := distinct_create id protocol config routes handler start
  have hfresh : Coherent fresh := coherent_create id protocol config routes handler start
  have hrun : Distinct c := run_distinct hd xs
  refine ⟨fun hopen hnone => ?_, fun headers last hx hopen => ?_, tenure_of_opened hd rfl⟩
  · obtain ⟨es, hstory, hf⟩ := after_fate hrun s x
    rw [handed_eq hstory]
    exact hnone.elim (fun hvacant => handedOf_nil (hf.vacant hvacant hopen).2) (hf.unhanded hopen)
  · obtain ⟨hroutes, hlimit⟩ : c.routes = routes ∧ c.defaultLimit = config.maxRequestLength :=
      (invariant_served routes config.maxRequestLength).run hfresh ⟨rfl, rfl⟩ xs
    have honce := admission_handedOnce hrun hx hopen
    rw [hroutes, hlimit] at honce
    exact honce

example :
    let c := create 1 .h2 {} (Routes.resolver [("/up", ⟨"up", .unary, some 3, false⟩)])
      (fun _ _ => []) 0
    let x : Call := ⟨.event (.headers 1 { path := "/up" } false), 1⟩
    let y : Call := ⟨.event (.data 1 [7] false), 2⟩
    let z : Call := ⟨.event (.data 1 [8, 9] true), 3⟩
    c.handed 1 x = [] ∧ (c.after x).handed 1 y = [] ∧
      ((c.run [x, y]).handed 1 z).map (·.handout?) = [some (.whole [7, 8, 9])] := by
  decide +kernel

end Connection

end HttpLifecycle
