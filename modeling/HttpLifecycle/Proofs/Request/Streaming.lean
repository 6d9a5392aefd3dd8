import HttpLifecycle.Proofs.Request.Course
import Mathlib.Data.List.Infix

namespace HttpLifecycle

namespace Channel

open Request

variable {c : Course} {d : Channel} {read : List Chunk} {bytes : Bytes}

theorem filed_queue (h : d.held = true) (bytes : Bytes) :
    (d.filed bytes).queue = d.queue ++ ([bytes].filter fun bytes => !bytes.isEmpty).map .data := by
  rw [filed, h]
  cases bytes with
  | nil => exact (List.append_nil _).symm
  | cons byte rest => rfl

theorem fed_queue (h : d.held = true) (bytes : Bytes) (last : Bool) :
    (d.fed bytes last).queue =
      d.queue ++ ([bytes].filter fun bytes => !bytes.isEmpty).map .data := by
  cases last with
  | false => exact filed_queue h bytes
  | true =>
      show ((d.filed bytes).ended none).queue = _
      rw [ended_none_queue]
      exact filed_queue h bytes

theorem ended_closed (h : d.writable = false) (cause : Option AbortCause) : d.ended cause = d := by
  rw [ended, h]
  rfl

/-- What was read and what waits is what there is to read. -/
structure Conveys (c : Course) (read : List Chunk) (d : Channel) : Prop where
  held : d.held = true
  writable : d.writable = !c.shut
  whole : read ++ d.queue = c.chunks

namespace Conveys

theorem opened (h : Conveys c read d) (hclose : c.close = none) : d.writable = true := by
  rw [h.writable, Course.shut, Course.failure?, hclose]
  rfl

theorem queue (h : Conveys c read d) (hclose : c.close = none) :
    read ++ d.queue = (c.accepted.filter fun bytes => !bytes.isEmpty).map .data := by
  rw [h.whole, Course.chunks, Course.failure?, hclose]
  exact List.append_nil _

theorem fails (h : Conveys c read d) (hclose : c.close = none) (cause : AbortCause) :
    Conveys { c with close := some (.failed cause) } read (d.ended (some cause)) := by
  have hended : d.ended (some cause) =
      { d with writable := false, queue := d.queue ++ [.failed cause] } := by
    simp [ended, h.opened hclose, h.held]
  rw [hended]
  refine ⟨h.held, rfl, ?_⟩
  show read ++ (d.queue ++ [.failed cause]) = _
  rw [← List.append_assoc, h.queue hclose]
  rfl

theorem grows (h : Conveys c read d) (hclose : c.close = none) (bytes : Bytes) (last : Bool) :
    Conveys { accepted := c.accepted ++ [bytes], close := if last then some .whole else none } read
      (d.fed bytes last) := by
  refine ⟨(fed_held d bytes last).trans h.held, ?_, ?_⟩
  · rw [fed_writable (h.opened hclose)]
    cases last <;> rfl
  · have hnone : Course.failure?
        { accepted := c.accepted ++ [bytes], close := if last then some .whole else none } =
          none := by
      cases last <;> rfl
    rw [fed_queue h.held, ← List.append_assoc, h.queue hclose, Course.chunks, hnone,
      ← List.map_append, ← List.filter_append]
    exact (List.append_nil _).symm

theorem abandoned (h : Conveys c read d) (hclose : c.close = none) :
    Conveys { c with close := some .abandoned } read d :=
  ⟨h.held, h.opened hclose, (h.queue hclose).trans (List.append_nil _).symm⟩

theorem taken (h : Conveys c read d) {chunk : Chunk} {rest : List Chunk}
    (hq : d.queue = chunk :: rest) : Conveys c (read ++ [chunk]) { d with queue := rest } := by
  refine ⟨h.held, h.writable, ?_⟩
  rw [← h.whole, hq, List.append_assoc]
  rfl

end Conveys

end Channel

namespace Intake

variable {i : Intake} {b : BodyId} {d : Channel}

theorem read_empty (hd : i.channels[b]? = some d) (hq : d.queue = []) :
    i.read b = ⟨i, [], if d.writable then .pending else .ended⟩ := by
  rw [read, hd]
  simp only [hq]

theorem read_waiting {chunk : Chunk} {rest : List Chunk} (hd : i.channels[b]? = some d)
    (hq : d.queue = chunk :: rest) :
    (i.read b).result = .item chunk ∧
      (i.read b).state.channels[b]? = some { d with queue := rest } := by
  constructor
  · rw [read, hd]
    simp only [hq]
  · rw [read_next hd hq, consume_channels]
    exact modify_channel hd _

end Intake

namespace Request

open Channel

variable {b : BodyId} {c start : Course} {r : Request} {i : Intake} {p : Request × Intake}
  {limit : Nat} {read : List Chunk}

/-- A request and its body are as far as the calls, and so is the reader. -/
structure Tracks (b : BodyId) (limit : Nat) (c : Course) (read : List Chunk)
    (p : Request × Intake) : Prop where
  limit : p.1.limit = limit
  body : p.1.body? = some b
  status : Status c p.1
  channel : ∃ d, p.2.channels[b]? = some d ∧ Conveys c read d

namespace Tracks

theorem frame (h : Tracks b limit c read (r, i)) (bytes : Bytes) (last : Bool) :
    Tracks b limit (c.next limit (.frame bytes last)) read (r.onData i bytes last).state := by
  obtain ⟨untaken, hmode⟩ := body?_eq_some h.body
  obtain ⟨d, hd, hconveys⟩ := h.channel
  cases h.status.stage with
  | ongoing hclose hlive hreceived =>
      have hw : i.writable b = true := (Intake.writable_eq hd).trans (hconveys.opened hclose)
      obtain ⟨es, hs⟩ := onData_streaming hmode hlive hw bytes last
      obtain ⟨htotal, hover⟩ := receive_course h.limit hreceived bytes
      rw [hs, hover, htotal, Course.next_open hclose, Course.advance]
      by_cases hlimit : 0 < limit ∧ limit < c.total bytes
      · simp only [if_pos hlimit]
        exact ⟨h.limit, rfl, .failed _ rfl rfl, _, Intake.modify_channel hd _,
          hconveys.fails hclose _⟩
      · simp only [if_neg hlimit]
        refine ⟨h.limit, rfl, .grown last hlive ?_, _, Intake.fed_channel hd bytes last,
          hconveys.grows hclose bytes last⟩
        exact c.total_eq bytes
  | whole hclose =>
      have hw : i.writable b = false := by
        rw [Intake.writable_eq hd, hconveys.writable, Course.shut, hclose]
        rfl
      rw [onData_shut hmode (.inr hw), Course.next_whole hclose]
      exact h
  | finished hclosed hover =>
      rw [onData_shut hmode (.inl hover), Course.next_closed hclosed]
      exact h

theorem abort (h : Tracks b limit c read (r, i)) (cause : AbortCause) (reset : Bool) :
    Tracks b limit (c.next limit (.abort cause reset)) read (r.abort i cause reset).state := by
  obtain ⟨untaken, hmode⟩ := body?_eq_some h.body
  obtain ⟨d, hd, hconveys⟩ := h.channel
  cases hover : r.terminal with
  | true =>
      rw [abort_over hover, h.status.next_over hover]
      exact h
  | false =>
      rw [abort_streaming hmode hover]
      rcases h.status.live_close hover with hclose | hclose
      · rw [Course.next_open hclose]
        exact ⟨h.limit, h.body, .failed cause rfl rfl, _, Intake.modify_channel hd _,
          hconveys.fails hclose cause⟩
      · have hshut : d.writable = false := by
          rw [hconveys.writable, Course.shut, hclose]
          rfl
        have hreceived := h.status.received_eq (.inr hclose)
        rw [Course.next_whole hclose]
        refine ⟨h.limit, h.body, .whole hclose hreceived, d, ?_, hconveys⟩
        exact (Intake.modify_channel hd _).trans (congrArg some (ended_closed hshut _))

theorem complete (h : Tracks b limit c read (r, i)) :
    Tracks b limit (c.next limit .complete) read (r.complete.1, i) := by
  obtain ⟨d, hd, hconveys⟩ := h.channel
  cases hover : r.terminal with
  | true =>
      rw [complete_over hover, h.status.next_over hover]
      exact h
  | false =>
      have hcause := cause_of_live hover
      rw [complete_live hover]
      rcases h.status.live_close hover with hclose | hclose
      · rw [Course.next_open hclose]
        exact ⟨h.limit, h.body, .abandoned rfl hcause rfl, d, hd, hconveys.abandoned hclose⟩
      · have hreceived := h.status.received_eq (.inr hclose)
        rw [Course.next_whole hclose]
        exact ⟨h.limit, h.body, .whole hclose hreceived, d, hd, hconveys⟩

theorem taken (h : Tracks b limit c read (r, i)) :
    Tracks b limit c (read ++ (i.read b).result.chunks) (r, (i.read b).state) := by
  obtain ⟨d, hd, hconveys⟩ := h.channel
  cases hq : d.queue with
  | nil =>
      have hnone : (i.read b).result.chunks = [] := by
        rw [Intake.read_empty hd hq]
        cases d.writable <;> rfl
      rw [hnone, List.append_nil, Intake.read_empty hd hq]
      exact h
  | cons chunk rest =>
      obtain ⟨hresult, hchannel⟩ := Intake.read_waiting hd hq
      rw [hresult]
      exact ⟨h.limit, h.body, h.status, _, hchannel, hconveys.taken hq⟩

theorem amended (h : Tracks b limit c read (r, i)) {s : Request} (hlimit : s.limit = r.limit)
    (hbody : s.body? = r.body?) (hcause : s.cause = r.cause)
    (hcompleted : s.completed = r.completed)
    (hreceived : s.received = r.received) : Tracks b limit c read (s, i) :=
  ⟨hlimit.trans h.limit, hbody.trans h.body, h.status.congr hcause hcompleted hreceived, h.channel⟩

theorem call (h : Tracks b limit c read p) (x : Call) :
    Tracks b limit (c.next limit x) (read ++ (p.1.call p.2 x).result.chunks)
      (p.1.call p.2 x).state := by
  obtain ⟨r, i⟩ := p
  obtain ⟨untaken, hmode⟩ := body?_eq_some h.body
  cases x with
  | frame bytes last =>
      rw [Request.call, Answer.chunks, List.append_nil]
      exact h.frame bytes last
  | abort cause reset =>
      rw [Request.call, Answer.chunks, List.append_nil]
      exact h.abort cause reset
  | complete =>
      rw [Request.call, Answer.chunks, List.append_nil]
      exact h.complete
  | bind tag =>
      rw [Request.call, Answer.chunks, List.append_nil, Course.next_idle rfl]
      obtain ⟨response, hbind⟩ := r.bind_state tag
      rw [hbind]
      exact h.amended rfl rfl rfl rfl rfl
  | takeBody =>
      rw [Request.call, Answer.chunks, List.append_nil, Course.next_idle rfl]
      have hbody := r.body?_takeBody
      rw [takeBody, hmode] at hbody ⊢
      cases untaken with
      | true => exact h.amended rfl hbody rfl rfl rfl
      | false => exact h
  | takeAggregated =>
      rw [Request.call, Answer.chunks, List.append_nil, Course.next_idle rfl, takeAggregated, hmode]
      exact h
  | read waits =>
      have hbody : r.body? = some b := h.body
      rw [Course.next_idle rfl]
      simp only [Request.call, hbody]
      cases waits with
      | true => exact h.taken
      | false =>
          rw [if_neg Bool.false_ne_true, Answer.chunks, Reading.atOnce_chunks]
          exact h.taken

theorem run (h : Tracks b limit c read p) (xs : List Call) :
    Tracks b limit (c.after limit xs) (read ++ (p.1.run p.2 xs).result.flatMap Answer.chunks)
      (p.1.run p.2 xs).state := by
  induction xs generalizing c read p with
  | nil =>
      rw [Request.run, List.flatMap_nil, List.append_nil]
      exact h
  | cons x rest ih =>
      have hrest := ih (h.call x)
      rw [List.append_assoc] at hrest
      exact hrest

theorem next (h : Tracks b limit c read p) :
    read <+: c.chunks ∧
      (∀ chunk, (p.2.read b).result = .item chunk ↔ read ++ [chunk] <+: c.chunks) ∧
      ((p.2.read b).result = .ended ↔ read = c.chunks ∧ c.shut = true) := by
  obtain ⟨d, hd, hconveys⟩ := h.channel
  have hwhole := hconveys.whole
  refine ⟨⟨d.queue, hwhole⟩, fun chunk => ?_, ?_⟩
  · rw [← hwhole, List.prefix_append_right_inj]
    cases hq : d.queue with
    | nil =>
        rw [Intake.read_empty hd hq]
        cases d.writable <;> simp
    | cons first rest =>
        rw [(Intake.read_waiting hd hq).1]
        simp [eq_comm]
  · rw [← hwhole]
    cases hq : d.queue with
    | nil =>
        rw [Intake.read_empty hd hq, hconveys.writable]
        cases c.shut <;> simp
    | cons first rest =>
        rw [(Intake.read_waiting hd hq).1]
        simp

theorem bytes (h : Tracks b limit c read p) (xs : List Call) :
    (p.1.run p.2 xs).result.filterMap Answer.bytes? = [] := by
  induction xs generalizing c read p with
  | nil => rfl
  | cons x rest ih =>
      obtain ⟨untaken, hmode⟩ := body?_eq_some h.body
      have hnone : p.1.takeAggregated.2 = none := by rw [takeAggregated, hmode]
      rw [Request.run, bytes_cons, call_bytes, hnone, ite_self]
      exact ih (h.call x)

theorem failed_iff (h : Tracks b limit c read p) (cause : AbortCause) :
    c.close = some (.failed cause) ↔ c.close ≠ some .whole ∧ p.1.cause = some cause := by
  cases h.status with
  | ongoing hclose hlive => simp [hclose, cause_of_live hlive]
  | whole hclose => simp [hclose]
  | failed first hclose hcause => simp [hclose, hcause]
  | abandoned hclose hcause => simp [hclose, hcause]

end Tracks

/-- A streaming request as it comes into being: one to be filled, or what is
left of a gathering one, with nothing in its body but the failure. -/
inductive Opened (b : BodyId) : Course → Request × Intake → Prop
  | fresh (o : Opening) (i : Intake) (h : (ofOpening o i).1.body? = some b) :
      Opened b {} (ofOpening o i)
  | converted (r : Request) (i : Intake) (cause : AbortCause) {p : Request × Intake}
      (h : r.toAborted? i cause = some p) (hbody : p.1.body? = some b) :
      Opened b { close := some (.failed cause) } p

theorem Opened.tracks (h : Opened b start p) : Tracks b p.1.limit start [] p := by
  cases h with
  | fresh o i hbody =>
      have hchannel : (ofOpening o i).2.channels[b]? = some {} := by
        obtain ⟨-, ⟨hnone, -⟩ | ⟨hb, hi⟩⟩ := ofOpening_fills o i
        · rw [hbody] at hnone
          contradiction
        · obtain rfl := Option.some.inj (hbody.symm.trans hb)
          rw [hi]
          exact List.getElem?_concat_length
      exact ⟨rfl, hbody, .fresh o i, {}, hchannel, ⟨rfl, rfl, rfl⟩⟩
  | converted r i cause h hbody =>
      obtain ⟨hcause, hb, hi⟩ := toAborted_fills (s := p.1) (j := p.2) h
      obtain rfl := Option.some.inj (hbody.symm.trans hb)
      refine ⟨rfl, hbody, .failed cause rfl hcause,
        { queue := [.failed cause], writable := false }, ?_, ⟨rfl, rfl, rfl⟩⟩
      rw [hi]
      exact List.getElem?_concat_length

/-- Whoever reads a streaming body reads the payload of the accepted frames and
then the failure, if the request fails before the body ends; and reads its end
only behind all of it. -/
theorem streamed_in_order (h : Opened b start p) (xs : List Call) :
    let t := p.1.run p.2 xs
    let c := start.after p.1.limit xs
    let read := t.result.flatMap Answer.chunks
    let next := (t.state.2.read b).result
    read <+: c.chunks ∧
      (∀ chunk, next = .item chunk ↔ read ++ [chunk] <+: c.chunks) ∧
      (next = .ended ↔
        read = c.chunks ∧ (c.close = some .whole ∨ ∃ cause, c.close = some (.failed cause))) ∧
      ∀ cause, c.close = some (.failed cause) ↔
        c.close ≠ some .whole ∧ t.state.1.cause = some cause := by
  intro t c read next
  have htracks := h.tracks.run xs
  rw [List.nil_append] at htracks
  obtain ⟨hread, hitem, hended⟩ := htracks.next
  rw [Course.shut_iff] at hended
  exact ⟨hread, hitem, hended, htracks.failed_iff⟩

theorem streamed_in_order_overrun :
    let service : Service := { name := "upload", exchange := .bidiStreaming, maxLength := some 3 }
    let o : Opening :=
      { connection := 1
        stream := 1
        headers := {}
        endOfStream := false
        keepAlive := true
        service := some service
        defaultLimit := 0
        now := 0 }
    let p := ofOpening o { gate := .disabled }
    let xs : List Call :=
      [.takeBody, .frame [1, 2] false, .read true, .frame [] false, .frame [3, 4] true, .read false]
    Opened 0 {} p ∧
      (p.1.run p.2 xs).result.flatMap Answer.chunks = [.data [1, 2], .failed (.limitExceeded 3 4)] ∧
      ((p.1.run p.2 xs).state.2.read 0).result = .ended := by
  intro service o p xs
  have hopened : Opened 0 {} p := .fresh o { gate := .disabled } rfl
  obtain ⟨-, -, hended, -⟩ := streamed_in_order hopened xs
  exact ⟨hopened, by decide, hended.mpr ⟨by decide, .inr ⟨.limitExceeded 3 4, by decide⟩⟩⟩

end Request

end HttpLifecycle
