import HttpLifecycle.Proofs.Connection.Fate
import HttpLifecycle.Proofs.Connection.Ledger
import HttpLifecycle.Proofs.Request.Filling

namespace HttpLifecycle

namespace Intake

inductive Grows (i : Intake) : Intake → Prop
  | same : Grows i i
  | opened : Grows i (i.add {}).1
  | failed (cause : AbortCause) :
      Grows i (i.add { queue := [.failed cause], writable := false }).1

variable {i j : Intake} {b : BodyId}

theorem Grows.channels (h : i.Grows j) : ∃ more, j.channels = i.channels ++ more := by
  cases h with
  | same => exact ⟨[], (List.append_nil _).symm⟩
  | opened => exact ⟨_, rfl⟩
  | failed cause => exact ⟨_, rfl⟩

theorem Grows.getElem? (h : i.Grows j) (hb : b < i.channels.length) :
    j.channels[b]? = i.channels[b]? := by
  obtain ⟨more, hmore⟩ := h.channels
  rw [hmore, List.getElem?_append_left hb]

theorem Grows.size (h : i.Grows j) : i.channels.length ≤ j.channels.length := by
  obtain ⟨more, hmore⟩ := h.channels
  rw [hmore, List.length_append]
  exact Nat.le_add_right _ _

theorem Grows.writable (h : i.Grows j) (hb : b < i.channels.length) :
    j.writable b = i.writable b := by
  rw [Intake.writable, Intake.writable, h.getElem? hb]

theorem add_writable {c : Channel} (hb : i.channels.length ≤ b)
    (hw : (i.add c).1.writable b = true) : b = i.channels.length ∧ c.writable = true := by
  have hlt : b < (i.channels ++ [c]).length := writable_lt hw
  rw [List.length_append, List.length_singleton] at hlt
  obtain rfl : b = i.channels.length := Nat.le_antisymm (Nat.le_of_lt_succ hlt) hb
  obtain ⟨d, hd, hopen⟩ := writable_iff.mp hw
  have hlast : (i.channels ++ [c])[i.channels.length]? = some c := List.getElem?_concat_length
  obtain rfl := Option.some.inj (hlast.symm.trans hd)
  exact ⟨rfl, hopen⟩

theorem add_failed {cause : AbortCause} (hb : i.channels.length ≤ b) :
    (i.add { queue := [.failed cause], writable := false }).1.writable b = false := by
  cases hw : (i.add { queue := [.failed cause], writable := false }).1.writable b with
  | false => rfl
  | true => exact absurd (add_writable hb hw).2 Bool.false_ne_true

end Intake

namespace Connection

/-- The request that still fills a body. -/
def owner? (c : Connection) (b : BodyId) : Option Request :=
  if c.intake.writable b then c.streams.find? (·.body? == some b) else none

/-- The last frame of its content comes for a request and is taken in. -/
def concludes (c : Connection) (x : Call) (r : Request) : Bool :=
  match x.input with
  | .event (.data stream _ last) =>
    stream == r.stream && !r.terminal && last && (c.perform x).2.isOk
  | _ => false

/-- A request goes while nothing is wrong with it, however much of its content
came: its response is complete, or was before it is told to go, or another
request comes in under its id. -/
def cuts (c : Connection) (x : Call) (r : Request) : Bool :=
  match x.input with
  | .event (.complete stream) => stream == r.stream
  | .event (.headers ..) => c.admission? x == some r.stream
  | .event (.reset stream _) | .event (.abort stream _) => stream == r.stream && r.completed
  | input => input.ends && !c.tornDown && r.completed

def endsClean (c : Connection) (x : Call) (b : BodyId) : Bool :=
  (c.owner? b).any fun r => c.concludes x r || c.cuts x r

/-- Every body that is open is filled by one request, which is under way. -/
structure Owned (c : Connection) : Prop where
  distinct : Distinct c
  bound : ∀ {s : StreamId} {r : Request} {b : BodyId}, c.find? s = some r → r.body? = some b →
    b < c.intake.channels.length
  sole : ∀ {s t : StreamId} {r q : Request} {b : BodyId}, c.find? s = some r →
    c.find? t = some q → r.body? = some b → q.body? = some b → s = t
  sealed : ∀ {s : StreamId} {r : Request}, c.find? s = some r → r.Sealed c.intake
  live : ∀ {b : BodyId}, c.intake.writable b = true →
    ∃ s r, c.find? s = some r ∧ r.body? = some b

/-- What a call does to the bodies, where the flag says which of them it ends
cleanly. -/
structure Handled (c : Connection) (clean : BodyId → Bool) (d : Connection) : Prop where
  intake : ∃ i, c.intake.Grows i ∧ i.Conducts clean d.intake
  shut : ∀ b, clean b = true → d.intake.writable b = false
  owned : Owned d

variable {c d : Connection} {x : Call} {s : StreamId} {r t : Request} {b : BodyId} {i : Intake}
  {clean : BodyId → Bool} {es : List Effect}

theorem owned_create (id : ConnectionId) (protocol : Protocol) (config : Config)
    (routes : Resolver) (handler : Handler) (start : Instant) :
    Owned (create id protocol config routes handler start) where
  distinct := List.nodup_nil
  bound h := by contradiction
  sole h := by contradiction
  sealed h := by contradiction
  live h := by
    have hlt := Intake.writable_lt h
    exact absurd hlt (Nat.not_lt_zero _)

theorem find?_mem (h : Distinct c) (hr : r ∈ c.streams) : c.find? r.stream = some r := by
  have hsome : (c.find? r.stream).isSome := by
    rw [find?, List.find?_isSome]
    exact ⟨r, hr, beq_self_eq_true _⟩
  obtain ⟨q, hq⟩ := Option.isSome_iff_exists.mp hsome
  rw [hq, h.unique (List.mem_of_find?_eq_some hq) hr (find?_stream hq)]

namespace Owned

theorem owner?_iff (h : Owned c) : c.owner? b = some r ↔
    c.intake.writable b = true ∧ c.find? r.stream = some r ∧ r.body? = some b := by
  rw [owner?]
  constructor
  · intro ho
    split at ho
    · rename_i hw
      have hbody : r.body? = some b := by simpa using List.find?_some ho
      exact ⟨hw, find?_mem h.distinct (List.mem_of_find?_eq_some ho), hbody⟩
    · contradiction
  · rintro ⟨hw, hr, hbody⟩
    rw [if_pos hw]
    have hsome : (c.streams.find? (·.body? == some b)).isSome := by
      rw [List.find?_isSome]
      exact ⟨r, List.mem_of_find?_eq_some hr, by simp [hbody]⟩
    obtain ⟨q, hq⟩ := Option.isSome_iff_exists.mp hsome
    have hown : q.body? = some b := by simpa using List.find?_some hq
    have hin := find?_mem h.distinct (List.mem_of_find?_eq_some hq)
    have hid := h.sole hr hin hbody hown
    rw [hid] at hr
    rw [hq, Option.some.inj (hin.symm.trans hr)]

theorem endsClean_eq (h : Owned c) (hr : c.find? s = some r) (hb : r.body? = some b)
    (hw : c.intake.writable b = true) (x : Call) :
    c.endsClean x b = (c.concludes x r || c.cuts x r) := by
  obtain rfl := find?_stream hr
  rw [endsClean, h.owner?_iff.mpr ⟨hw, hr, hb⟩]
  rfl

theorem endsClean_owner (h : Owned c) (hc : c.endsClean x b = true) :
    ∃ r, c.find? r.stream = some r ∧ r.body? = some b ∧ c.intake.writable b = true ∧
      (c.concludes x r || c.cuts x r) = true := by
  obtain ⟨r, ho, hr⟩ := (Option.any_eq_true _ _).mp hc
  obtain ⟨hw, hopen, hb⟩ := h.owner?_iff.mp ho
  exact ⟨r, hopen, hb, hw, hr⟩

theorem endsClean_stream {q : Request} (hx : x.input.subject? = some s)
    (hc : (c.concludes x q || c.cuts x q) = true) : q.stream = s := by
  obtain ⟨input, now⟩ := x
  rw [concludes, cuts] at hc
  cases input with
  | event e =>
      cases e with
      | headers stream headers last =>
          obtain rfl := Option.some.inj hx
          have hsome : c.admission? ⟨.event (.headers stream headers last), now⟩ =
              some q.stream := by simpa using hc
          rw [admission?] at hsome
          split at hsome
          · rename_i hinput hok
            cases hinput
            exact (Option.some.inj hsome).symm
          · contradiction
      | _ => simp_all [Input.subject?, Input.ends]
  | _ => contradiction

theorem endsClean_subject (h : Owned c) (hx : x.input.subject? = some s)
    (hc : c.endsClean x b = true) : ∃ r, c.find? s = some r ∧ r.body? = some b ∧
      c.intake.writable b = true ∧ (c.concludes x r || c.cuts x r) = true := by
  obtain ⟨r, hr, hb, hw, hcond⟩ := h.endsClean_owner hc
  have hs : r.stream = s := endsClean_stream hx hcond
  exact ⟨r, hs ▸ hr, hb, hw, hcond⟩

theorem endsClean_vacant (h : Owned c) (hx : x.input.subject? = some s) (hr : c.find? s = none)
    (b : BodyId) : c.endsClean x b = false := by
  cases hc : c.endsClean x b with
  | false => rfl
  | true =>
      obtain ⟨r, hopen, -⟩ := h.endsClean_subject hx hc
      rw [hr] at hopen
      contradiction

theorem endsClean_open (h : Owned c) (hx : x.input.subject? = some s) (hr : c.find? s = some r)
    (hc : c.endsClean x b = true) : r.body? = some b := by
  obtain ⟨q, hq, hb, -⟩ := h.endsClean_subject hx hc
  rwa [Option.some.inj (hr.symm.trans hq)]

theorem endsClean_bound (h : Owned c) (hc : c.endsClean x b = true) :
    b < c.intake.channels.length := by
  obtain ⟨r, -, -, hw, -⟩ := h.endsClean_owner hc
  exact Intake.writable_lt hw

theorem fresh (h : Owned c) (x : Call) : c.endsClean x c.intake.channels.length = false := by
  cases hc : c.endsClean x c.intake.channels.length with
  | false => rfl
  | true => exact absurd (h.endsClean_bound hc) (Nat.lt_irrefl _)

theorem touched (h : Owned c) (hd : Distinct d) {new : Option Request}
    (ht : Touches s es new c d) (hi : c.intake.Grows i) (hj : i.Conducts clean d.intake)
    (hbody : ∀ t b, new = some t → t.body? = some b →
      (∃ r, c.find? s = some r ∧ r.body? = some b) ∨
        c.intake.channels.length ≤ b ∧ b < i.channels.length)
    (hsealed : ∀ t, new = some t → t.Sealed d.intake)
    (hlive : ∀ b, d.intake.writable b = true →
      (∃ r, c.find? s = some r ∧ r.body? = some b) ∨ c.intake.channels.length ≤ b →
      ∃ t, new = some t ∧ t.body? = some b) : Owned d where
  distinct := hd
  bound {q r b} hr hb := by
    rw [hj.size]
    by_cases hq : q = s
    · subst hq
      rcases hbody r b (ht.find.symm.trans hr) hb with ⟨o, ho, hob⟩ | ⟨-, hlt⟩
      · exact Nat.lt_of_lt_of_le (h.bound ho hob) hi.size
      · exact hlt
    · rw [(ht.others q hq).1] at hr
      exact Nat.lt_of_lt_of_le (h.bound hr hb) hi.size
  sole {p q r o b} hr ho hb hob := by
    have hmixed : ∀ {q r o}, q ≠ s → d.find? s = some r → c.find? q = some o →
        r.body? = some b → o.body? = some b → False := by
      intro q r o hq hr ho hb hob
      rcases hbody r b (ht.find.symm.trans hr) hb with ⟨old, hold, holdb⟩ | ⟨hle, -⟩
      · exact hq (h.sole ho hold hob holdb)
      · exact absurd (h.bound ho hob) (Nat.not_lt_of_le hle)
    by_cases hp : p = s
    · by_cases hq : q = s
      · exact hp.trans hq.symm
      · rw [(ht.others q hq).1] at ho
        exact (hmixed hq (hp ▸ hr) ho hb hob).elim
    · rw [(ht.others p hp).1] at hr
      by_cases hq : q = s
      · exact (hmixed hp (hq ▸ ho) hr hob hb).elim
      · rw [(ht.others q hq).1] at ho
        exact h.sole hr ho hb hob
  sealed {q r} hr := by
    by_cases hq : q = s
    · subst hq
      exact hsealed r (ht.find.symm.trans hr)
    · rw [(ht.others q hq).1] at hr
      intro b hb hcause
      refine hj.unwritable ?_
      rw [hi.writable (h.bound hr hb)]
      exact h.sealed hr b hb hcause
  live {b} hw := by
    by_cases hlt : b < c.intake.channels.length
    · have hopen := hj.writable hw
      rw [hi.writable hlt] at hopen
      obtain ⟨q, r, hr, hb⟩ := h.live hopen
      by_cases hq : q = s
      · subst hq
        obtain ⟨t, hnew, htb⟩ := hlive b hw (.inl ⟨r, hr, hb⟩)
        exact ⟨q, t, ht.find.trans hnew, htb⟩
      · exact ⟨q, r, (ht.others q hq).1.trans hr, hb⟩
    · obtain ⟨t, hnew, htb⟩ := hlive b hw (.inr (Nat.le_of_not_lt hlt))
      exact ⟨s, t, ht.find.trans hnew, htb⟩

theorem amended (h : Owned c) (hd : Distinct d) (hr : c.find? s = some r)
    (ht : Touches s es (some t) c d) (hf : r.Fills clean c.intake (t, d.intake))
    (hshut : ∀ b, clean b = true → d.intake.writable b = false) : Handled c clean d where
  intake := ⟨c.intake, .same, hf.intake⟩
  shut := hshut
  owned := by
    refine h.touched hd ht .same hf.intake (fun q b hq hb => .inl ⟨r, hr, ?_⟩) (fun q hq => ?_)
      fun b hw hold => ?_
    · obtain rfl := Option.some.inj hq
      exact hf.body ▸ hb
    · obtain rfl := Option.some.inj hq
      exact hf.sealed (h.sealed hr)
    · rcases hold with ⟨o, ho, hob⟩ | hle
      · obtain rfl := Option.some.inj (hr.symm.trans ho)
        exact ⟨t, rfl, hf.body.trans hob⟩
      · have hlt := Intake.writable_lt (hf.intake.writable hw)
        exact absurd hlt (Nat.not_lt_of_le hle)

theorem left (h : Owned c) (hd : Distinct d) (hr : c.find? s = some r)
    (ht : Touches s es none c d) (hi : c.intake.Grows i) (hj : i.Conducts clean d.intake)
    (hshut : ∀ b, r.body? = some b ∨ c.intake.channels.length ≤ b → d.intake.writable b = false)
    (honly : ∀ b, clean b = true → r.body? = some b) : Handled c clean d where
  intake := ⟨i, hi, hj⟩
  shut b hb := hshut b (.inl (honly b hb))
  owned := by
    refine h.touched hd ht hi hj (fun t b ht => by contradiction) (fun t ht => by contradiction)
      fun b hw hold => ?_
    have hclosed : d.intake.writable b = false := by
      refine hshut b (hold.imp_left fun ⟨o, ho, hob⟩ => ?_)
      rwa [Option.some.inj (hr.symm.trans ho)]
    rw [hw] at hclosed
    contradiction

theorem congr (h : Owned c) (hs : d.streams = c.streams)
    (hsize : d.intake.channels.length = c.intake.channels.length)
    (hw : ∀ b, d.intake.writable b = c.intake.writable b) : Owned d := by
  have hfind (s : StreamId) : d.find? s = c.find? s := by rw [find?, find?, hs]
  constructor
  · rw [Distinct, hs]
    exact h.distinct
  · intro s r b hr
    rw [hsize]
    exact h.bound (hfind s ▸ hr)
  · intro s t r q b hr hq
    exact h.sole (hfind s ▸ hr) (hfind t ▸ hq)
  · intro s r hr b hb hcause
    rw [hw]
    exact h.sealed (hfind s ▸ hr) b hb hcause
  · intro b hopen
    rw [hw] at hopen
    obtain ⟨s, r, hr, hb⟩ := h.live hopen
    exact ⟨s, r, (hfind s).trans hr, hb⟩

theorem quiet (h : Owned c) (hs : d.streams = c.streams)
    (hi : d.intake = c.intake) (hclean : ∀ b, clean b = false) : Handled c clean d where
  intake := ⟨c.intake, .same, .of_channels (congrArg _ hi)⟩
  shut b hb := by
    rw [hclean b] at hb
    contradiction
  owned := h.congr hs (by rw [hi]) fun b => by rw [hi]

end Owned

theorem finishStream_intake (h : c.find? s = some r) (now : Instant) :
    (c.finishStream s now).intake = (r.discard c.intake).state := by
  rw [finishStream, h]
  rfl

theorem depart_intake (h : c.find? s = some r) (code : Nat) (now : Instant) (p : Prop)
    [Decidable p] :
    ((if p then c.write [.reset s code] else c).finishStream s now).intake =
      (r.discard c.intake).state := by
  split
  · exact finishStream_intake (c := c.write _) h now
  · exact finishStream_intake h now

theorem put_intake_taken {old : Request} (h : c.find? t.stream = some old) :
    (c.put t).intake = (old.discard c.intake).state := by
  rw [put_taken h]
  rfl

theorem onReset_intake (h : c.find? s = some r) (code : Nat) (now : Instant) :
    (c.onReset s code now).1.intake = r.dismiss c.intake (.peerReset code) false := by
  obtain rfl := find?_stream h
  have hopen : (c.activity now .control).find? r.stream = some r := h
  rw [onReset]
  simp only [hopen]
  by_cases hcause : r.cause.isSome = true
  · have hover : r.terminal = true := by simp [Request.terminal, hcause]
    rw [if_pos hcause, finishStream_intake hopen, Request.dismiss_over hover]
    rfl
  · have hfailed := Touches.fail hopen (.peerReset code) false (Touches.count .requestsAborted)
    rw [if_neg hcause]
    exact finishStream_intake hfailed.find now

theorem abortStream_intake (h : c.find? s = some r) (cause : AbortCause) (now : Instant) :
    (c.abortStream s cause now).1.intake = r.dismiss c.intake cause true := by
  obtain rfl := find?_stream h
  rw [abortStream, h]
  simp only
  by_cases hcause : r.cause.isSome = true
  · have hover : r.terminal = true := by simp [Request.terminal, hcause]
    rw [if_pos hcause, Request.dismiss_over hover]
    exact depart_intake h _ now _
  · rw [if_neg hcause]
    by_cases hcounted : (r.abort c.intake cause true).result.isSome = true
    · have hfailed := Touches.fail h cause true (Touches.count .requestsAborted)
      rw [if_pos hcounted]
      exact depart_intake hfailed.find _ now _
    · have hfailed := Touches.fail h cause true (.silent rfl rfl)
      rw [if_neg hcounted]
      exact depart_intake hfailed.find _ now _

theorem completeResponse_intake (h : c.find? s = some r) (now : Instant) :
    (c.completeResponse s now).1.intake = (r.discard c.intake).state := by
  obtain rfl := find?_stream h
  have hstream : r.complete.1.stream = r.stream := r.sameOpening_complete.stream
  have hfound := find?_update (r := r.complete.1) (hstream ▸ h)
  rw [hstream] at hfound
  have hsame : r.complete.1.discard c.intake = r.discard c.intake := by
    obtain ⟨completed, hs⟩ := r.complete_state
    rw [hs]
    rfl
  rw [completeResponse, h, ← hsame]
  exact finishStream_intake hfound now

theorem rejectBody_streaming_intake (h : c.find? r.stream = some r) (hcause : r.cause.isSome)
    (hmode : r.needsAggregation = false) (e : Error) (now : Instant) :
    (c.rejectBody r e now).intake = (r.discard c.intake).state := by
  obtain ⟨cause, hc⟩ := Option.isSome_iff_exists.mp hcause
  rw [rejectBody]
  simp only [hc, r.toAborted?_streaming _ hmode]
  exact depart_intake ((Touches.rejected c r e).find.trans h) _ now _

theorem rejectBody_gathering_intake (h : c.find? r.stream = some r) {cause : AbortCause}
    (hc : r.cause = some cause) (hmode : r.needsAggregation = true) (e : Error) (now : Instant) :
    ∃ a j actions, r.toAborted? c.intake cause = some (a, j) ∧
      let p := (a.performAll j actions).state
      (c.rejectBody r e now).intake = (p.1.discard p.2).state := by
  have hlog := Touches.rejected c r e
  have hi : ((c.count .aggregationFailures).log .warn "request body rejected"
      [("connection_id", .num c.id), ("stream_id", .num r.stream),
        ("err", .text e.message)]).intake = c.intake := rfl
  rw [rejectBody]
  simp only [hc]
  generalize (c.count .aggregationFailures).log .warn "request body rejected" _ = d at hlog hi
  obtain ⟨a, j, ha, hstream⟩ := r.toAborted?_gathering d.intake hmode cause
  refine ⟨a, j, d.handler d.dispatched a, hi ▸ ha, ?_⟩
  have hseat := Touches.seat { d with intake := j } a
  rw [hstream] at hseat
  rw [ha]
  refine (depart_intake hseat.find _ now _).trans ?_
  have hput : ((({ d with intake := j } : Connection).dispatch a).1.put
      (({ d with intake := j } : Connection).dispatch a).2).intake =
        (a.performAll j (d.handler d.dispatched a)).state.2 := by
    have hkept := (a.sameOpening_performAll j (d.handler d.dispatched a)).stream
    have hold : (({ d with intake := j } : Connection).dispatch a).1.find?
        (a.performAll j (d.handler d.dispatched a)).state.1.stream = some r := by
      rw [hkept, hstream]
      exact hlog.find.trans h
    exact (put_intake_taken hold).trans (Request.discard_bodiless (Request.body?_gathering hmode) _)
  exact congrArg (fun i => (Request.discard _ i).state) hput

end Connection

end HttpLifecycle
