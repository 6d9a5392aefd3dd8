import HttpLifecycle.Proofs.Request.Delivery

namespace HttpLifecycle

def Reading.atOnce : Reading → Reading
  | .pending => .ended
  | reading => reading

theorem Reading.atOnce_chunks (reading : Reading) : reading.atOnce.chunks = reading.chunks := by
  cases reading <;> rfl

namespace Request

/-- What is asked of a request, by its connection, its handler and the reader of
its body. -/
inductive Call where
  | frame (bytes : Bytes) (last : Bool)
  | bind (tag : String)
  | abort (cause : AbortCause) (reset : Bool)
  | complete
  | takeBody
  | takeAggregated
  | read (waits : Bool)
  deriving DecidableEq, Repr

def Call.payload : Call → Bytes
  | .frame bytes _ => bytes
  | _ => []

def volume (xs : List Call) : Nat := (xs.flatMap Call.payload).length

inductive Answer where
  | reply (r : Reply)
  | reading (r : Reading)
  deriving DecidableEq, Repr

namespace Answer

def chunks : Answer → List Chunk
  | .reply _ => []
  | .reading r => r.chunks

def bytes? : Answer → Option Bytes
  | .reply (.bytes bytes) => bytes
  | _ => none

end Answer

/-- Who asks for the body of a request that has none to be read waits in vain. -/
def call (r : Request) (i : Intake) : Call → Step (Request × Intake) Effect Answer
  | .frame bytes last =>
    let s := r.onData i bytes last
    ⟨s.state, s.events, .reply (.ofResult s.result)⟩
  | .bind tag =>
    let s := r.bind tag
    ⟨(s.state, i), s.events, .reply (.ofResult s.result)⟩
  | .abort cause reset =>
    let s := r.abort i cause reset
    ⟨s.state, s.events, .reply (.cause s.result)⟩
  | .complete => ⟨(r.complete.1, i), [], .reply (.flag r.complete.2)⟩
  | .takeBody => ⟨(r.takeBody.1, i), [], .reply (.flag r.takeBody.2.isSome)⟩
  | .takeAggregated => ⟨(r.takeAggregated.1, i), [], .reply (.bytes r.takeAggregated.2)⟩
  | .read waits =>
    match r.body? with
    | some b =>
      let s := i.read b
      ⟨(r, s.state), s.events.map .ofGate,
        .reading (if waits then s.result else s.result.atOnce)⟩
    | none => ⟨(r, i), [], .reading .pending⟩

def run (r : Request) (i : Intake) : List Call → Step (Request × Intake) Effect (List Answer)
  | [] => ⟨(r, i), [], []⟩
  | x :: rest =>
    let s := r.call i x
    let t := run s.state.1 s.state.2 rest
    ⟨t.state, s.events ++ t.events, s.result :: t.result⟩

inductive Close where
  | whole
  | failed (cause : AbortCause)
  | abandoned
  deriving DecidableEq, Repr

/-- What comes of a body by the calls alone: the frames that are accepted, and
what put an end to it. -/
structure Course where
  accepted : List Bytes := []
  close : Option Close := none
  deriving DecidableEq, Repr

namespace Course

def content (c : Course) : Bytes := c.accepted.flatten

def total (c : Course) (bytes : Bytes) : Nat := Word.saturate (c.content.length + bytes.length)

def advance (limit : Nat) (c : Course) : Call → Course
  | .frame bytes last =>
    if 0 < limit ∧ limit < c.total bytes then
      { c with close := some (.failed (.limitExceeded limit (c.total bytes))) }
    else
      { accepted := c.accepted ++ [bytes], close := if last then some .whole else none }
  | .abort cause _ => { c with close := some (.failed cause) }
  | .complete => { c with close := some .abandoned }
  | .bind _ | .takeBody | .takeAggregated | .read _ => c

/-- The first call that puts an end to a body does so for good. -/
def next (limit : Nat) (c : Course) (x : Call) : Course :=
  if c.close.isSome then c else c.advance limit x

def after (limit : Nat) (c : Course) (xs : List Call) : Course := xs.foldl (next limit) c

def failure? (c : Course) : Option AbortCause :=
  match c.close with
  | some (.failed cause) => some cause
  | _ => none

/-- What there is to read: the payload of each frame that has any, and the
failure. -/
def chunks (c : Course) : List Chunk :=
  (c.accepted.filter fun bytes => !bytes.isEmpty).map .data ++ c.failure?.toList.map .failed

def shut (c : Course) : Bool := c.close == some .whole || c.failure?.isSome

variable {c : Course} {limit : Nat}

theorem shut_iff : c.shut = true ↔
    c.close = some .whole ∨ ∃ cause, c.close = some (.failed cause) := by
  rw [shut, failure?]
  cases c.close with
  | none => simp
  | some close => cases close <;> simp

theorem next_closed (h : c.close.isSome = true) (x : Call) : c.next limit x = c := if_pos h

theorem next_open (h : c.close = none) (x : Call) : c.next limit x = c.advance limit x :=
  if_neg (by simp [h])

theorem next_idle {x : Call} (h : c.advance limit x = c) : c.next limit x = c := by
  rw [next, h, ite_self]

theorem next_whole (h : c.close = some .whole) (x : Call) : c.next limit x = c :=
  next_closed (by rw [h]; rfl) x

theorem after_closed (h : c.close.isSome = true) (xs : List Call) : c.after limit xs = c := by
  induction xs with
  | nil => rfl
  | cons x rest ih =>
      show (c.next limit x).after limit rest = c
      rw [next_closed h]
      exact ih

theorem total_eq (c : Course) (bytes : Bytes) :
    c.total bytes = Word.saturate (c.content ++ bytes).length := by
  rw [List.length_append]
  rfl

theorem content_append (c : Course) (bytes : Bytes) (close : Option Close) :
    content { accepted := c.accepted ++ [bytes], close := close } = c.content ++ bytes := by
  simp [content]

end Course

/-- A request stands where the course of its body does. -/
inductive Status (c : Course) (r : Request) : Prop
  | ongoing (hclose : c.close = none) (hlive : r.terminal = false)
      (hreceived : r.received = Word.saturate c.content.length)
  | whole (hclose : c.close = some .whole) (hreceived : r.received = Word.saturate c.content.length)
  | failed (cause : AbortCause) (hclose : c.close = some (.failed cause))
      (hcause : r.cause = some cause)
  | abandoned (hclose : c.close = some .abandoned) (hcause : r.cause = none)
      (hcompleted : r.completed = true)

variable {c : Course} {r s : Request} {i : Intake} {b : BodyId} {limit : Nat}

theorem terminal_of_cause {cause : AbortCause} (h : r.cause = some cause) : r.terminal = true := by
  rw [terminal, h]
  exact Bool.or_true _

theorem terminal_of_completed (h : r.completed = true) : r.terminal = true := by
  rw [terminal, h]
  rfl

theorem cause_of_live (h : r.terminal = false) : r.cause = none := by
  have hcause := (Bool.or_eq_false_iff.mp h).2
  simpa using hcause

theorem Status.congr (h : Status c r) (hcause : s.cause = r.cause)
    (hcompleted : s.completed = r.completed) (hreceived : s.received = r.received) :
    Status c s := by
  cases h with
  | ongoing hclose hlive hr =>
      refine .ongoing hclose ?_ (hreceived.trans hr)
      rw [terminal, hcause, hcompleted]
      exact hlive
  | whole hclose hr => exact .whole hclose (hreceived.trans hr)
  | failed cause hclose hc => exact .failed cause hclose (hcause.trans hc)
  | abandoned hclose hc hd => exact .abandoned hclose (hcause.trans hc) (hcompleted.trans hd)

theorem Status.fresh (o : Opening) (i : Intake) : Status {} (ofOpening o i).1 := by
  obtain ⟨hreceived, hcause, -, hcompleted⟩ := ofOpening_new o i
  refine .ongoing rfl ?_ hreceived
  rw [terminal, hcause, hcompleted]
  rfl

theorem Status.received_eq (h : Status c r)
    (hclose : c.close = none ∨ c.close = some .whole) :
    r.received = Word.saturate c.content.length := by
  cases h with
  | ongoing _ _ hreceived | whole _ hreceived => exact hreceived
  | failed cause hfailed => simp [hfailed] at hclose
  | abandoned habandoned => simp [habandoned] at hclose

/-- Where a call can still change something: everywhere, at the request but not
at its body, nowhere. -/
inductive Stage (c : Course) (r : Request) : Prop
  | ongoing (hclose : c.close = none) (hlive : r.terminal = false)
      (hreceived : r.received = Word.saturate c.content.length)
  | whole (hclose : c.close = some .whole) (hreceived : r.received = Word.saturate c.content.length)
  | finished (hclosed : c.close.isSome = true) (hover : r.terminal = true)

theorem Status.stage (h : Status c r) : Stage c r := by
  cases h with
  | ongoing hclose hlive hreceived => exact .ongoing hclose hlive hreceived
  | whole hclose hreceived => exact .whole hclose hreceived
  | failed cause hclose hcause => exact .finished (by rw [hclose]; rfl) (terminal_of_cause hcause)
  | abandoned hclose _ hcompleted =>
      exact .finished (by rw [hclose]; rfl) (terminal_of_completed hcompleted)

theorem Status.live_close (h : Status c r) (hlive : r.terminal = false) :
    c.close = none ∨ c.close = some .whole := by
  cases h.stage with
  | ongoing hclose => exact .inl hclose
  | whole hclose => exact .inr hclose
  | finished _ hover =>
      rw [hlive] at hover
      contradiction

theorem Status.next_over (h : Status c r) (hover : r.terminal = true) (x : Call) :
    c.next limit x = c := by
  cases h.stage with
  | ongoing _ hlive =>
      rw [hover] at hlive
      contradiction
  | whole hclose => exact Course.next_whole hclose x
  | finished hclosed => exact Course.next_closed hclosed x

theorem Status.grown {bytes : Bytes} (last : Bool) (hlive : r.terminal = false)
    (hreceived : r.received = Word.saturate (c.content ++ bytes).length) :
    Status
      { accepted := c.accepted ++ [bytes], close := if last then some .whole else none } r := by
  rw [← c.content_append bytes (if last then some .whole else none)] at hreceived
  cases last with
  | false => exact .ongoing rfl hlive hreceived
  | true => exact .whole rfl hreceived

theorem receive_course (hlimit : r.limit = limit)
    (hreceived : r.received = Word.saturate c.content.length) (bytes : Bytes) :
    Word.saturate (r.received + bytes.length) = c.total bytes ∧
      (r.receive bytes.length).2 =
        if 0 < limit ∧ limit < c.total bytes then some (.limitExceeded limit (c.total bytes))
        else none := by
  have htotal : Word.saturate (r.received + bytes.length) = c.total bytes := by
    rw [hreceived, Word.saturate_add]
    rfl
  refine ⟨htotal, ?_⟩
  rw [receive, htotal, hlimit]

theorem bind_state (r : Request) (tag : String) :
    ∃ response, (r.bind tag).state = { r with response := response } := by
  rw [bind]
  split
  · exact ⟨r.response, rfl⟩
  · exact ⟨_, rfl⟩

theorem abort_over (h : r.terminal = true) (cause : AbortCause) (reset : Bool) :
    r.abort i cause reset = ⟨(r, i), [], r.cause⟩ := by
  rw [abort, fail_over h]
  rfl

theorem complete_over (h : r.terminal = true) : r.complete = (r, false) := if_pos h

theorem complete_live (h : r.terminal = false) :
    r.complete = ({ r with completed := true }, true) :=
  if_neg (by simp [h])

theorem call_bytes (r : Request) (i : Intake) (x : Call) :
    (r.call i x).result.bytes? = if x = .takeAggregated then r.takeAggregated.2 else none := by
  cases x with
  | frame bytes last =>
      show (Answer.reply (.ofResult (r.onData i bytes last).result)).bytes? = none
      cases (r.onData i bytes last).result <;> rfl
  | bind tag =>
      show (Answer.reply (.ofResult (r.bind tag).result)).bytes? = none
      cases (r.bind tag).result <;> rfl
  | read waits =>
      rw [call]
      split <;> rfl
  | takeAggregated => rfl
  | abort | complete | takeBody => rfl

theorem bytes_cons (a : Answer) (rest : List Answer) :
    (a :: rest).filterMap Answer.bytes? = a.bytes?.toList ++ rest.filterMap Answer.bytes? := by
  cases h : a.bytes? <;> simp [h]

theorem run_append (r : Request) (i : Intake) (xs ys : List Call) :
    (r.run i (xs ++ ys)).state =
      ((r.run i xs).state.1.run (r.run i xs).state.2 ys).state := by
  induction xs generalizing r i with
  | nil => rfl
  | cons x rest ih => exact ih _ _

theorem call_cause {cause : AbortCause} (h : r.cause = some cause) (i : Intake) (x : Call) :
    (r.call i x).state.1.cause = some cause := by
  have hover := terminal_of_cause h
  cases x with
  | frame bytes last =>
      show (r.onData i bytes last).state.1.cause = some cause
      cases hmode : r.mode with
      | empty =>
          rw [onData, hmode]
          exact h
      | aggregating buffer complete taken =>
          rw [onData_over hmode (.inl hover)]
          exact h
      | streaming body untaken =>
          rw [onData_shut hmode (.inl hover)]
          exact h
  | bind tag =>
      obtain ⟨response, hbind⟩ := r.bind_state tag
      show (r.bind tag).state.cause = some cause
      rw [hbind]
      exact h
  | abort next reset =>
      show (r.abort i next reset).state.1.cause = some cause
      rw [abort_over hover]
      exact h
  | complete =>
      show r.complete.1.cause = some cause
      rw [complete_over hover]
      exact h
  | takeBody => exact r.takeBody_cause.trans h
  | takeAggregated =>
      show r.takeAggregated.1.cause = some cause
      rw [takeAggregated]
      split
      · split <;> exact h
      · exact h
  | read waits =>
      rw [call]
      split <;> exact h

theorem run_cause {cause : AbortCause} (h : r.cause = some cause) (i : Intake) (xs : List Call) :
    (r.run i xs).state.1.cause = some cause := by
  induction xs generalizing r i with
  | nil => exact h
  | cons x rest ih => exact ih (call_cause h i x) _

theorem run_unfailed (r : Request) (i : Intake) (xs : List Call) :
    (r.run i xs).state.1.cause = none ↔
      ∀ ys, ys <+: xs → (r.run i ys).state.1.cause = none := by
  constructor
  · intro h ys ⟨zs, hzs⟩
    rw [← hzs, run_append] at h
    cases hcause : (r.run i ys).state.1.cause with
    | none => rfl
    | some cause =>
        rw [run_cause hcause] at h
        contradiction
  · intro h
    exact h xs (List.prefix_refl xs)

end Request

end HttpLifecycle
