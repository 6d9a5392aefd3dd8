import HttpLifecycle.Proofs.Intake.Account
import HttpLifecycle.Proofs.Request.Filling

namespace HttpLifecycle

namespace Channel

def filed (bytes : Bytes) (c : Channel) : Channel :=
  if bytes.isEmpty || !c.held then c else c.filled bytes

def fed (bytes : Bytes) (last : Bool) (c : Channel) : Channel :=
  if last then (c.filed bytes).ended none else c.filed bytes

variable {c : Channel} {read bytes : Bytes} {chunks : List Chunk}

theorem gather_append (h : gather false read chunks = .complete bytes) (more : Bytes) :
    gather false read (chunks ++ [.data more]) = .complete (bytes ++ more) := by
  induction chunks generalizing read with
  | nil =>
      obtain rfl : read = bytes := Content.complete.inj h
      rfl
  | cons chunk rest ih =>
      cases chunk with
      | data first => exact ih h
      | failed cause => contradiction

theorem gather_open (h : ∀ chunk ∈ chunks, chunk.isData = true) :
    gather true read chunks = .pending := by
  induction chunks generalizing read with
  | nil => rfl
  | cons chunk rest ih =>
      obtain ⟨hchunk, hrest⟩ := List.forall_mem_cons.mp h
      cases chunk with
      | data first => exact ih hrest
      | failed cause => contradiction

theorem filed_writable (c : Channel) (bytes : Bytes) :
    (c.filed bytes).writable = c.writable := by
  rw [filed]
  split <;> rfl

theorem filed_held (c : Channel) (bytes : Bytes) : (c.filed bytes).held = c.held := by
  rw [filed]
  split <;> rfl

theorem filed_gather (hheld : c.held = true) (h : gather false [] c.queue = .complete read)
    (bytes : Bytes) : gather false [] (c.filed bytes).queue = .complete (read ++ bytes) := by
  cases bytes with
  | nil =>
      rw [List.append_nil]
      exact h
  | cons byte rest =>
      have hfiled : c.filed (byte :: rest) = c.filled (byte :: rest) := by simp [filed, hheld]
      rw [hfiled]
      exact gather_append h _

theorem fed_writable (h : c.writable = true) (bytes : Bytes) (last : Bool) :
    (c.fed bytes last).writable = !last := by
  have hopen : (c.filed bytes).writable = true := (c.filed_writable bytes).trans h
  cases last with
  | false => exact hopen
  | true =>
      show (ended none _).writable = false
      rw [ended, hopen]
      rfl

theorem fed_held (c : Channel) (bytes : Bytes) (last : Bool) :
    (c.fed bytes last).held = c.held := by
  cases last with
  | false => exact c.filed_held bytes
  | true => exact (ended_held none _).trans (c.filed_held bytes)

theorem ended_none_queue (c : Channel) : (c.ended none).queue = c.queue := by
  rw [ended]
  split
  · rfl
  · simp

theorem fed_gather (hheld : c.held = true) (h : gather false [] c.queue = .complete read)
    (bytes : Bytes) (last : Bool) :
    gather false [] (c.fed bytes last).queue = .complete (read ++ bytes) := by
  have hfiled := filed_gather hheld h bytes
  cases last with
  | false => exact hfiled
  | true =>
      show gather false [] (ended none _).queue = _
      rw [ended_none_queue]
      exact hfiled

end Channel

namespace Intake

variable {i : Intake} {b : BodyId} {c : Channel}

def fed (i : Intake) (b : BodyId) (bytes : Bytes) (last : Bool) : Intake :=
  let j := if bytes.isEmpty then i else (i.push b bytes).state
  if last then j.finish b none else j

theorem writable_eq (hc : i.channels[b]? = some c) : i.writable b = c.writable := by
  rw [writable, hc]
  rfl

theorem modify_channel (hc : i.channels[b]? = some c) (f : Channel → Channel) :
    (i.modify b f).channels[b]? = some (f c) := by
  show (i.channels.modify b f)[b]? = some (f c)
  rw [List.getElem?_modify_eq, hc]
  rfl

theorem push_channel (hc : i.channels[b]? = some c) (bytes : Bytes) :
    (i.push b bytes).state.channels[b]? = some (if c.held then c.filled bytes else c) := by
  have heq : i.held b = c.held := by
    rw [held, hc]
    rfl
  cases hheld : c.held with
  | true =>
      rw [push_held (heq.trans hheld)]
      exact modify_channel hc _
  | false =>
      rw [push_gone (by simp [heq, hheld]), consume_channels]
      exact hc

theorem fed_channel (hc : i.channels[b]? = some c) (bytes : Bytes) (last : Bool) :
    (i.fed b bytes last).channels[b]? = some (c.fed bytes last) := by
  have hfiled : (if bytes.isEmpty then i else (i.push b bytes).state).channels[b]? =
      some (c.filed bytes) := by
    rw [Channel.filed]
    cases bytes.isEmpty with
    | true => exact hc
    | false =>
        refine (push_channel hc bytes).trans ?_
        cases c.held <;> rfl
  cases last with
  | false => exact hfiled
  | true =>
      show (finish _ b none).channels[b]? = _
      rw [finish_eq]
      exact modify_channel hfiled _

end Intake

namespace Request

/-- What reaches a request and its body: a frame, or somebody who takes the
body, reads from it, gives it up or collects the rest. -/
inductive Delivery where
  | frame (bytes : Bytes) (last : Bool)
  | take
  | next
  | drop
  | collect (allowance : Option Nat)
  deriving DecidableEq, Repr

def Delivery.leaves : Delivery → Bool
  | .frame .. | .take => true
  | .next | .drop | .collect _ => false

/-- Nobody can read a body that is gathered. -/
def deliver (r : Request) (i : Intake) (x : Delivery) :
    Step (Request × Intake) Effect (Option (Except Error Unit)) :=
  match x, r.body? with
  | .frame bytes last, _ =>
    let s := r.onData i bytes last
    ⟨s.state, s.events, some s.result⟩
  | .take, _ => ⟨(r.takeBody.1, i), [], none⟩
  | .next, some b =>
    let s := i.read b
    ⟨(r, s.state), s.events.map .ofGate, none⟩
  | .drop, some b =>
    let s := i.drop b
    ⟨(r, s.state), s.events.map .ofGate, none⟩
  | .collect allowance, some b =>
    let s := i.collect b allowance
    ⟨(r, s.state), s.events.map .ofGate, none⟩
  | _, none => ⟨(r, i), [], none⟩

def deliverAll (r : Request) (i : Intake) :
    List Delivery → Step (Request × Intake) Effect (List (Except Error Unit))
  | [] => ⟨(r, i), [], []⟩
  | x :: rest =>
    let s := r.deliver i x
    let t := deliverAll s.state.1 s.state.2 rest
    ⟨t.state, s.events ++ t.events, s.result.toList ++ t.result⟩

/-- What has been gathered is what waits in the channel, and both have been
ended in the same way. -/
inductive Mirrors (r : Request) (c : Channel) : Prop
  | gathered (buffer : Bytes) (complete : Bool) (hcause : r.cause = none)
      (hmode : r.mode = .aggregating buffer complete false) (hw : c.writable = !complete)
      (hq : Channel.gather false [] c.queue = .complete buffer)
  | failed (cause : AbortCause) (hcause : r.cause = some cause) (hw : c.writable = false)
      (hq : Channel.gather false [] c.queue = .failed cause)

/-- One request gathers and the other streams, and they are in step. The flag
says that nobody has read from the body. -/
structure Twins (b : BodyId) (unread : Bool) (r s : Request) (j : Intake) : Prop where
  limit : s.limit = r.limit
  received : s.received = r.received
  cause : s.cause = r.cause
  reset : s.resetRequested = r.resetRequested
  completed : s.completed = false ∧ r.completed = false
  body : s.body? = some b
  channel : ∃ buffer complete c, r.mode = .aggregating buffer complete false ∧
    j.channels[b]? = some c ∧ (r.cause = none → c.writable = !complete) ∧
    (unread = true → c.held = true ∧ Mirrors r c)

variable {b : BodyId} {r s : Request} {i j : Intake} {c : Channel} {buffer bytes : Bytes}
  {complete taken untaken last unread : Bool}

theorem receive_cause (hlimit : s.limit = r.limit) (hreceived : s.received = r.received) (n : Nat) :
    (s.receive n).2 = (r.receive n).2 := by
  simp only [receive, hlimit, hreceived]

theorem onData_gathering (hmode : r.mode = .aggregating buffer false taken)
    (hlive : r.terminal = false) (bytes : Bytes) (last : Bool) : ∃ es,
    r.onData i bytes last =
      match (r.receive bytes.length).2 with
      | some cause =>
        ⟨({ r with
            received := Word.saturate (r.received + bytes.length)
            cause := some cause
            resetRequested := true
            mode := .aggregating [] false taken }, i), es, .error (Error.ofCause r.stream cause)⟩
      | none =>
        ⟨({ r with
            received := Word.saturate (r.received + bytes.length)
            mode := .aggregating (buffer ++ bytes) last taken }, i), es, .ok ()⟩ := by
  have hopen : ¬ (r.terminal || false) = true := by simp [hlive]
  simp only [onData, hmode]
  rw [if_neg hopen, receive_eq]
  cases (r.receive bytes.length).2 with
  | none => exact ⟨_, rfl⟩
  | some cause =>
      obtain ⟨es, hfail⟩ := fail_live (r := { r with
        received := Word.saturate (r.received + bytes.length)
        mode := .aggregating [] false taken }) hlive cause true
      simp only
      rw [hfail]
      exact ⟨_, rfl⟩

theorem onData_streaming (hmode : r.mode = .streaming b untaken) (hlive : r.terminal = false)
    (hw : i.writable b = true) (bytes : Bytes) (last : Bool) : ∃ es,
    r.onData i bytes last =
      match (r.receive bytes.length).2 with
      | some cause =>
        ⟨({ r with
            received := Word.saturate (r.received + bytes.length)
            cause := some cause
            resetRequested := true
            mode := .streaming b untaken }, i.finish b (some cause)), es,
          .error (Error.ofCause r.stream cause)⟩
      | none =>
        ⟨({ r with
            received := Word.saturate (r.received + bytes.length)
            mode := .streaming b untaken }, i.fed b bytes last), es, .ok ()⟩ := by
  have hopen : ¬ (r.terminal || !i.writable b) = true := by simp [hlive, hw]
  simp only [onData, hmode]
  rw [if_neg hopen, receive_eq]
  cases (r.receive bytes.length).2 with
  | none =>
      simp only [Intake.fed, hmode]
      cases bytes.isEmpty <;> exact ⟨_, rfl⟩
  | some cause =>
      obtain ⟨es, hfail⟩ := fail_live (r := { r with
        received := Word.saturate (r.received + bytes.length) }) hlive cause true
      simp only
      rw [hfail, ← hmode]
      exact ⟨_, rfl⟩

theorem onData_over (hmode : r.mode = .aggregating buffer complete taken)
    (hover : r.terminal = true ∨ complete = true) (bytes : Bytes) (last : Bool) :
    r.onData i bytes last = ⟨(r, i), [], .ok ()⟩ := by
  have hclosed : (r.terminal || complete) = true := Bool.or_eq_true_iff.mpr hover
  simp only [onData, hmode]
  exact if_pos hclosed

theorem onData_shut (hmode : r.mode = .streaming b untaken)
    (hover : r.terminal = true ∨ i.writable b = false) (bytes : Bytes) (last : Bool) :
    r.onData i bytes last = ⟨(r, i), [], .ok ()⟩ := by
  have hclosed : (r.terminal || !i.writable b) = true := by
    rcases hover with h | h <;> simp [h]
  simp only [onData, hmode]
  exact if_pos hclosed

theorem receive_error {cause : AbortCause} {n : Nat} (h : (r.receive n).2 = some cause)
    (first second : StreamId) : Error.ofCause first cause = Error.ofCause second cause := by
  rw [receive] at h
  simp only at h
  split at h
  · obtain rfl := Option.some.inj h
    rfl
  · contradiction

namespace Mirrors

theorem fails (h : r.Mirrors c) (hlive : r.cause = none) (hw : c.writable = true)
    (hheld : c.held = true) {cause : AbortCause} (hs : s.cause = some cause) :
    s.Mirrors (c.ended (some cause)) := by
  cases h with
  | failed other hcause => simp [hlive] at hcause
  | gathered buffer complete _ _ _ hq =>
      have hended : c.ended (some cause) =
          { c with writable := false, queue := c.queue ++ [.failed cause] } := by
        simp [Channel.ended, hw, hheld]
      rw [hended]
      exact .failed cause hs rfl (Channel.gather_failed (Channel.gather_complete hq).2)

theorem grows (h : r.Mirrors c) (hmode : r.mode = .aggregating buffer complete taken)
    (hlive : r.cause = none) (hw : c.writable = true) (hheld : c.held = true)
    (hcause : s.cause = none) (hs : s.mode = .aggregating (buffer ++ bytes) last false) :
    s.Mirrors (c.fed bytes last) := by
  cases h with
  | failed other hother => simp [hlive] at hother
  | gathered _ _ _ hmode' _ hq =>
      obtain ⟨rfl, -⟩ := Mode.aggregating.inj (hmode'.symm.trans hmode)
      exact .gathered _ last hcause hs (Channel.fed_writable hw bytes last)
        (Channel.fed_gather hheld hq bytes last)

end Mirrors

namespace Twins

theorem terminal (h : Twins b unread r s j) :
    r.terminal = r.cause.isSome ∧ s.terminal = r.cause.isSome := by
  rw [Request.terminal, Request.terminal, h.completed.1, h.completed.2, h.cause]
  exact ⟨rfl, rfl⟩

theorem frame (h : Twins b unread r s j) (i : Intake) (bytes : Bytes) (last : Bool) :
    (s.onData j bytes last).result = (r.onData i bytes last).result ∧
      Twins b unread (r.onData i bytes last).state.1 (s.onData j bytes last).state.1
        (s.onData j bytes last).state.2 := by
  obtain ⟨untaken, hstreaming⟩ := body?_eq_some h.body
  obtain ⟨buffer, complete, c, hmode, hc, hw, hmirrors⟩ := h.channel
  obtain ⟨hr, hs⟩ := h.terminal
  cases hcause : r.cause with
  | some cause =>
      rw [hcause] at hr hs
      rw [onData_over hmode (.inl hr), onData_shut hstreaming (.inl hs)]
      exact ⟨rfl, h⟩
  | none =>
      rw [hcause] at hr hs
      have hwritable : j.writable b = !complete := (Intake.writable_eq hc).trans (hw hcause)
      cases complete with
      | true =>
          rw [onData_over hmode (.inr rfl), onData_shut hstreaming (.inr hwritable)]
          exact ⟨rfl, h⟩
      | false =>
          obtain ⟨es, hgathering⟩ := onData_gathering (i := i) hmode hr bytes last
          obtain ⟨fs, hstreamed⟩ := onData_streaming hstreaming hs hwritable bytes last
          rw [receive_cause h.limit h.received] at hstreamed
          rw [hgathering, hstreamed, h.received]
          cases hreceive : (r.receive bytes.length).2 with
          | some cause =>
              refine ⟨congrArg Except.error (receive_error hreceive _ _), ?_⟩
              refine ⟨h.limit, rfl, rfl, rfl, h.completed, rfl, ?_⟩
              refine ⟨[], false, _, rfl, Intake.modify_channel hc _, fun hnone => by contradiction,
                fun hu => ?_⟩
              obtain ⟨hheld, hm⟩ := hmirrors hu
              exact ⟨(Channel.ended_held _ c).trans hheld, hm.fails hcause (hw hcause) hheld rfl⟩
          | none =>
              refine ⟨rfl, h.limit, rfl, h.cause, h.reset, h.completed, rfl, ?_⟩
              refine ⟨buffer ++ bytes, last, _, rfl, Intake.fed_channel hc bytes last,
                fun _ => Channel.fed_writable (hw hcause) bytes last, fun hu => ?_⟩
              obtain ⟨hheld, hm⟩ := hmirrors hu
              exact ⟨(Channel.fed_held c bytes last).trans hheld,
                hm.grows hmode hcause (hw hcause) hheld hcause rfl⟩

theorem served {taken : BodyId → List Chunk} {k : Intake} (h : Twins b unread r s j)
    (hk : j.Serves taken k) : Twins b false r s k := by
  obtain ⟨buffer, complete, c, hmode, hc, hw, -⟩ := h.channel
  obtain ⟨d, hd, hy⟩ := hk.yields hc
  refine ⟨h.limit, h.received, h.cause, h.reset, h.completed, h.body, ?_⟩
  exact ⟨buffer, complete, d, hmode, hd, fun hcause => hy.writable.trans (hw hcause), nofun⟩

theorem took (h : Twins b unread r s j) : Twins b unread r.takeBody.1 s.takeBody.1 j := by
  obtain ⟨buffer, complete, c, hmode, -⟩ := h.channel
  have hr : r.takeBody.1 = r := by rw [takeBody, hmode]
  have hs : ∃ mode, s.takeBody.1 = { s with mode := mode } := by
    rw [takeBody]
    split
    · exact ⟨_, rfl⟩
    · exact ⟨s.mode, rfl⟩
  have hbody := (body?_takeBody s).trans h.body
  obtain ⟨mode, hs⟩ := hs
  rw [hs] at hbody ⊢
  rw [hr]
  exact ⟨h.limit, h.received, h.cause, h.reset, h.completed, hbody, h.channel⟩

theorem deliver (h : Twins b unread r s j) (i : Intake) (x : Delivery) :
    (s.deliver j x).result = (r.deliver i x).result ∧
      Twins b (unread && x.leaves) (r.deliver i x).state.1 (s.deliver j x).state.1
        (s.deliver j x).state.2 := by
  obtain ⟨buffer, complete, c, hmode, -⟩ := h.channel
  have hnone : r.body? = none := by rw [body?, hmode]
  cases x with
  | frame bytes last =>
      obtain ⟨hresult, htwins⟩ := h.frame i bytes last
      rw [Delivery.leaves, Bool.and_true]
      exact ⟨congrArg some hresult, htwins⟩
  | take =>
      rw [Delivery.leaves, Bool.and_true]
      exact ⟨rfl, h.took⟩
  | next =>
      rw [Delivery.leaves, Bool.and_false]
      simp only [Request.deliver, hnone, h.body]
      exact ⟨trivial, h.served (j.serves_read b)⟩
  | drop =>
      rw [Delivery.leaves, Bool.and_false]
      simp only [Request.deliver, hnone, h.body]
      exact ⟨trivial, h.served (j.serves_drop b)⟩
  | collect allowance =>
      rw [Delivery.leaves, Bool.and_false]
      simp only [Request.deliver, hnone, h.body]
      exact ⟨trivial, h.served (j.serves_drop b)⟩

theorem deliverAll (h : Twins b unread r s j) (i : Intake) (xs : List Delivery) :
    (s.deliverAll j xs).result = (r.deliverAll i xs).result ∧
      Twins b (unread && xs.all Delivery.leaves) (r.deliverAll i xs).state.1
        (s.deliverAll j xs).state.1 (s.deliverAll j xs).state.2 := by
  induction xs generalizing unread r s i j with
  | nil =>
      rw [List.all_nil, Bool.and_true]
      exact ⟨rfl, h⟩
  | cons x rest ih =>
      obtain ⟨hx, hnext⟩ := h.deliver i x
      obtain ⟨hrest, htwins⟩ := ih hnext (r.deliver i x).state.2
      rw [List.all_cons, ← Bool.and_assoc]
      refine ⟨?_, htwins⟩
      show (s.deliver j x).result.toList ++ _ = (r.deliver i x).result.toList ++ _
      rw [hx, hrest]

end Twins

/-- A reader who asks for everything is told what became of the gathered body. -/
theorem Mirrors.content (h : r.Mirrors c) :
    (∀ bytes, c.content none = .complete bytes ↔ r.takeAggregated.2 = some bytes) ∧
      (∀ cause, c.content none = .failed cause ↔ r.cause = some cause) ∧
      (r.cause.isSome → r.takeAggregated.2 = none) ∧
      (c.content none = .pending ↔ r.ready = false) := by
  rw [Intake.content_none]
  cases h with
  | gathered buffer complete hcause hmode hw hq =>
      cases complete with
      | true =>
          have htaken : r.takeAggregated.2 = some buffer := by simp [takeAggregated, hmode, hcause]
          have hready : r.ready = true := by simp [ready, hmode]
          rw [hw, Bool.not_true, hq, htaken, hready, hcause]
          simp
      | false =>
          have htaken : r.takeAggregated.2 = none := by simp [takeAggregated, hmode]
          have hready : r.ready = false := by simp [ready, hmode, hcause]
          rw [hw, Bool.not_false, Channel.gather_open (Channel.gather_complete hq).2, htaken,
            hready,
            hcause]
          simp
  | failed cause hcause hw hq =>
      have htaken : r.takeAggregated.2 = none := by
        rw [takeAggregated]
        split
        · simp [hcause]
        · rfl
      have hready : r.ready = true := by
        rw [ready]
        split
        · simp [hcause]
        · rfl
      rw [hw, hq, htaken, hready, hcause]
      simp

theorem ofOpening_new (o : Opening) (i : Intake) :
    (ofOpening o i).1.received = 0 ∧ (ofOpening o i).1.cause = none ∧
      (ofOpening o i).1.resetRequested = false ∧ (ofOpening o i).1.completed = false := by
  rw [ofOpening]
  cases o.service with
  | none => exact ⟨rfl, rfl, rfl, rfl⟩
  | some service =>
      simp only
      split
      · exact ⟨rfl, rfl, rfl, rfl⟩
      · split <;> exact ⟨rfl, rfl, rfl, rfl⟩

theorem ofOpening_gathering {o : Opening} (h : (ofOpening o i).1.needsAggregation = true) :
    (ofOpening o i).1.mode = .aggregating [] false false := by
  rw [ofOpening] at h ⊢
  cases hs : o.service with
  | none => simp [hs, needsAggregation] at h
  | some service =>
      simp only [hs] at h ⊢
      split
      · rename_i hend
        simp [hend, needsAggregation] at h
      · rename_i hend
        split
        · rename_i hstream
          simp [hend, hstream, needsAggregation] at h
        · rfl

theorem twins_fresh {o q : Opening} (hgather : (ofOpening o i).1.needsAggregation = true)
    (hbody : (ofOpening q j).1.body? = some b)
    (hlimit : (ofOpening q j).1.limit = (ofOpening o i).1.limit) :
    Twins b true (ofOpening o i).1 (ofOpening q j).1 (ofOpening q j).2 := by
  have hmode := ofOpening_gathering hgather
  obtain ⟨hreceived, hcause, hreset, hcompleted⟩ := ofOpening_new o i
  obtain ⟨hreceived', hcause', hreset', hcompleted'⟩ := ofOpening_new q j
  have hchannel : (ofOpening q j).2.channels[b]? = some {} := by
    obtain ⟨-, ⟨hnone, -⟩ | ⟨hb, hj⟩⟩ := ofOpening_fills q j
    · rw [hbody] at hnone
      contradiction
    · obtain rfl := Option.some.inj (hbody.symm.trans hb)
      rw [hj]
      exact List.getElem?_concat_length
  exact ⟨hlimit, hreceived'.trans hreceived.symm, hcause'.trans hcause.symm,
    hreset'.trans hreset.symm, ⟨hcompleted', hcompleted⟩, hbody, [], false, {}, hmode, hchannel,
    fun _ => rfl, fun _ => ⟨rfl, .gathered [] false hcause hmode rfl rfl⟩⟩

/-- Whether a body is gathered or streamed, its frames fare alike, whatever the
reader of the streamed one does. One that nobody has read ends as the other. -/
theorem delivery_agrees (o q : Opening) (i j : Intake) (b : BodyId)
    (hgather : (ofOpening o i).1.needsAggregation = true)
    (hbody : (ofOpening q j).1.body? = some b)
    (hlimit : (ofOpening q j).1.limit = (ofOpening o i).1.limit) (xs : List Delivery) :
    let gathered := (ofOpening o i).1.deliverAll (ofOpening o i).2 xs
    let streamed := (ofOpening q j).1.deliverAll (ofOpening q j).2 xs
    let r := gathered.state.1
    let s := streamed.state.1
    streamed.result = gathered.result ∧ s.received = r.received ∧ s.cause = r.cause ∧
      s.resetRequested = r.resetRequested ∧ s.terminal = r.terminal ∧
      (xs.all Delivery.leaves = true →
        let content := (streamed.state.2.collect b none).result
        (∀ bytes, content = .complete bytes ↔ r.takeAggregated.2 = some bytes) ∧
          (∀ cause, content = .failed cause ↔ r.cause = some cause) ∧
          (r.cause.isSome → r.takeAggregated.2 = none) ∧
          (content = .pending ↔ r.ready = false)) := by
  intro gathered streamed r s
  obtain ⟨hresult, htwins⟩ := (twins_fresh hgather hbody hlimit).deliverAll (ofOpening o i).2 xs
  obtain ⟨hr, hs⟩ := htwins.terminal
  refine ⟨hresult, htwins.received, htwins.cause, htwins.reset, hs.trans hr.symm, fun hleft => ?_⟩
  obtain ⟨buffer, complete, c, -, hc, -, hmirrors⟩ := htwins.channel
  have hcontent := (hmirrors (by rw [hleft]; rfl)).2.content
  rw [← Intake.collect_result hc none] at hcontent
  exact hcontent

theorem delivery_agrees_whole :
    let service : Service := { name := "upload", exchange := .unary, maxLength := some 3 }
    let o : Opening :=
      { connection := 1
        stream := 1
        headers := {}
        endOfStream := false
        keepAlive := true
        service := some service
        defaultLimit := 0
        now := 0 }
    let q : Opening := { o with service := some { service with exchange := .bidiStreaming } }
    let i : Intake := { gate := .disabled }
    let xs : List Delivery := [.frame [1, 2] false, .take, .frame [3] true, .frame [4] true]
    (ofOpening o i).1.needsAggregation = true ∧ (ofOpening q i).1.body? = some 0 ∧
      (ofOpening q i).1.limit = (ofOpening o i).1.limit ∧ xs.all Delivery.leaves = true ∧
      (((ofOpening q i).1.deliverAll (ofOpening q i).2 xs).state.2.collect 0 none).result =
        .complete [1, 2, 3] := by
  intro service o q i xs
  have hgather : (ofOpening o i).1.needsAggregation = true := rfl
  have hbody : (ofOpening q i).1.body? = some 0 := rfl
  have hlimit : (ofOpening q i).1.limit = (ofOpening o i).1.limit := rfl
  have hleft : xs.all Delivery.leaves = true := rfl
  obtain ⟨-, -, -, -, -, hread⟩ := delivery_agrees o q i i 0 hgather hbody hlimit xs
  exact ⟨hgather, hbody, hlimit, hleft, ((hread hleft).1 [1, 2, 3]).mpr (by decide)⟩

end Request

end HttpLifecycle
