import HttpLifecycle.Proofs.Connection.Outcome

namespace HttpLifecycle

/-- The effect concerns a stream and the request that is open under it. -/
def Effect.about (stream : StreamId) : Effect → Bool
  | .sink (.reset t _) | .action t .. | .abortResponse t .. => t == stream
  | .dispatch r => r.stream == stream
  | .record a => a.stream == stream
  | _ => false

def storyOf (stream : StreamId) (es : List Effect) : List Effect := es.filter (·.about stream)

/-- No stream but this one is concerned. -/
def Within (stream : StreamId) (es : List Effect) : Prop :=
  ∀ e ∈ es, ∀ s, e.about s = true → s = stream

variable {stream s : StreamId} {es fs : List Effect}

@[simp] theorem storyOf_append : storyOf s (es ++ fs) = storyOf s es ++ storyOf s fs :=
  List.filter_append es fs

theorem storyOf_cons {e : Effect} (h : e.about s = true) :
    storyOf s (e :: es) = e :: storyOf s es :=
  List.filter_cons_of_pos h

theorem about_dispatch (r : Request) : (Effect.dispatch r).about r.stream = true :=
  beq_self_eq_true r.stream

theorem about_record (r : Request) (now : Instant) :
    (Effect.record (.ofRequest r now)).about r.stream = true := beq_self_eq_true r.stream

theorem mem_storyOf {e : Effect} (h : e ∈ storyOf s es) : e ∈ es := (List.mem_filter.mp h).1

theorem storyOf_eq_nil (h : ∀ e ∈ es, e.about s = false) : storyOf s es = [] :=
  List.filter_eq_nil_iff.mpr fun e he => by simp [h e he]

theorem Upkeep.storyOf (h : Upkeep es) : storyOf s es = [] := by
  apply storyOf_eq_nil
  intro e he
  have hupkeep := h e he
  cases e with
  | sink k => cases k <;> first | rfl | contradiction
  | note n => rfl
  | count k => rfl
  | lifespan p d => rfl
  | _ => contradiction

theorem Inner.storyOf (h : Inner es) (s : StreamId) : Inner (storyOf s es) :=
  fun e he => h e (mem_storyOf he)

theorem Inner.no_dispatch (h : Inner es) (r : Request) : .dispatch r ∉ es :=
  fun he => by
    have hinner := h _ he
    contradiction

theorem storyOf_ofGate (es : List Gate.Event) : storyOf s (es.map .ofGate) = [] := by
  apply storyOf_eq_nil
  intro e he
  obtain ⟨g, -, rfl⟩ := List.mem_map.mp he
  cases g with
  | note n => rfl
  | signal k => cases k <;> rfl

theorem within_nil : Within stream [] := List.forall_mem_nil _

theorem within_append (h : Within stream es) (g : Within stream fs) : Within stream (es ++ fs) :=
  List.forall_mem_append.mpr ⟨h, g⟩

theorem within_cons {e : Effect} (h : ∀ s, e.about s = true → s = stream)
    (g : Within stream es) : Within stream (e :: es) :=
  List.forall_mem_cons.mpr ⟨h, g⟩

theorem within_of_storyOf (h : ∀ s, storyOf s es = []) : Within stream es := by
  intro e he s hs
  have hmem : e ∈ storyOf s es := List.mem_filter.mpr ⟨he, hs⟩
  rw [h s] at hmem
  contradiction

theorem Within.storyOf (h : Within stream es) (hne : s ≠ stream) : storyOf s es = [] := by
  apply storyOf_eq_nil
  intro e he
  cases hs : e.about s with
  | false => rfl
  | true => exact absurd (h e he s hs) hne

namespace Request

variable (r : Request) (i : Intake)

theorem sameOpening_abort (cause : AbortCause) (reset : Bool) :
    r.SameOpening (r.abort i cause reset).state.1 :=
  (r.ownStep_abort (R := fun _ _ => True) i cause reset).sameOpening

theorem sameOpening_onData (bytes : Bytes) (endOfStream : Bool) :
    r.SameOpening (r.onData i bytes endOfStream).state.1 :=
  (r.ownStep_onData (R := fun _ _ => True) i bytes endOfStream fun _ => trivial).sameOpening

theorem sameOpening_perform (a : Action) : r.SameOpening (r.perform i a).state.1 :=
  (r.ownStep_perform (R := fun _ _ => True) i a).sameOpening

theorem sameOpening_performAll (actions : List Action) :
    r.SameOpening (r.performAll i actions).state.1 :=
  (r.ownStep_performAll (R := fun _ _ => True) i actions).sameOpening

theorem inner_performAll (actions : List Action) : Inner (r.performAll i actions).events :=
  (r.ownStep_performAll (R := fun _ _ => True) i actions).inner

theorem sameOpening_toAborted {r s : Request} {i j : Intake} {cause : AbortCause}
    (h : r.toAborted? i cause = some (s, j)) : r.SameOpening s :=
  (ownStep_toAborted (R := fun _ _ => True) h).1

def tells (cause : AbortCause) : List Effect :=
  r.response.toList.map fun tag => .abortResponse r.stream tag cause

theorem inner_tells (cause : AbortCause) : Inner (r.tells cause) := by
  intro e he
  obtain ⟨tag, -, rfl⟩ := List.mem_map.mp he
  rfl

theorem within_fail (cause : AbortCause) (reset : Bool) :
    Within r.stream (r.fail cause reset).events := by
  rw [fail]
  split
  · exact within_nil
  · refine within_cons (fun s hs => by contradiction) fun e he s hs => ?_
    obtain ⟨tag, -, rfl⟩ := List.mem_map.mp he
    exact (beq_iff_eq.mp hs).symm

theorem within_bind (tag : String) : Within r.stream (r.bind tag).events := by
  rw [bind]
  split
  · exact within_nil
  · intro e he s hs
    obtain ⟨cause, -, rfl⟩ := List.mem_map.mp he
    exact (beq_iff_eq.mp hs).symm

theorem storyOf_bind (tag : String) :
    storyOf r.stream (r.bind tag).events = (r.bind tag).events := by
  refine List.filter_eq_self.mpr fun e he => ?_
  rw [bind] at he
  split at he
  · contradiction
  · obtain ⟨cause, -, rfl⟩ := List.mem_map.mp he
    exact beq_self_eq_true r.stream

theorem within_perform (a : Action) : Within r.stream (r.perform i a).events := by
  cases a with
  | bind tag => exact r.within_bind tag
  | takeBody =>
      rw [perform]
      split
      · exact within_of_storyOf fun s => storyOf_ofGate _
      · exact within_nil
  | takeAggregated => exact within_nil
  | abort cause reset =>
      show Within r.stream (r.abort i cause reset).events
      rw [abort_events]
      exact r.within_fail cause reset
  | complete => exact within_nil

theorem within_performAll (actions : List Action) :
    Within r.stream (r.performAll i actions).events := by
  induction actions generalizing r i with
  | nil => exact within_nil
  | cons a rest ih =>
      have hrest := ih (r.perform i a).state.1 (r.perform i a).state.2
      rw [(r.sameOpening_perform i a).stream] at hrest
      refine within_append (r.within_perform i a) (within_cons (fun s hs => ?_) hrest)
      exact (beq_iff_eq.mp hs).symm

theorem fail_open {r : Request} (h : r.terminal = false) (cause : AbortCause) (reset : Bool) :
    (r.fail cause reset).state = { r with cause := some cause, resetRequested := reset } ∧
      storyOf r.stream (r.fail cause reset).events = r.tells cause := by
  have hopen : ¬ r.terminal = true := by simp [h]
  rw [fail, if_neg hopen]
  refine ⟨rfl, ?_⟩
  show storyOf r.stream (r.tells cause) = r.tells cause
  refine List.filter_eq_self.mpr fun e he => ?_
  obtain ⟨tag, -, rfl⟩ := List.mem_map.mp he
  exact beq_self_eq_true r.stream

theorem abort_state (cause : AbortCause) (reset : Bool) :
    ∃ mode, (r.abort i cause reset).state.1 =
      { (r.fail cause reset).state with mode := mode } := by
  rw [abort]
  simp only
  split
  · split
    · exact ⟨_, rfl⟩
    · exact ⟨_, rfl⟩
    · exact ⟨_, rfl⟩
  · exact ⟨_, rfl⟩

theorem perform_takeBody : ∃ mode, (r.perform i .takeBody).state.1 = { r with mode := mode } := by
  rw [perform, takeBody]
  cases r.mode with
  | streaming body untaken => cases untaken <;> exact ⟨_, rfl⟩
  | _ => exact ⟨_, rfl⟩

theorem takeAggregated_state : ∃ mode, r.takeAggregated.1 = { r with mode := mode } := by
  rw [takeAggregated]
  split
  · split <;> exact ⟨_, rfl⟩
  · exact ⟨_, rfl⟩

theorem complete_state : ∃ completed, r.complete.1 = { r with completed := completed } := by
  rw [complete]
  split <;> exact ⟨_, rfl⟩

theorem ofOpening_state (o : Opening) : ∃ exchange limit mode, (ofOpening o i).1 =
    { connection := o.connection, stream := o.stream, headers := o.headers,
      keepAlive := o.keepAlive, exchange := exchange, service := o.service, limit := limit,
      startedAt := o.now, mode := mode } := by
  rw [ofOpening]
  cases o.service with
  | none => exact ⟨_, _, _, rfl⟩
  | some service =>
      simp only
      split
      · exact ⟨_, _, _, rfl⟩
      · split <;> exact ⟨_, _, _, rfl⟩

theorem storyOf_discard : storyOf s (r.discard i).events = [] := by
  rw [discard]
  split
  · simp only
    split
    · exact storyOf_ofGate _
    · rfl
  · rfl

structure TakenIn (s : Step (Request × Intake) Effect (Except Error Unit)) : Prop where
  result : s.result = .ok ()
  silent : ∀ t, storyOf t s.events = []
  response : s.state.1.response = r.response
  cause : s.state.1.cause = r.cause
  reset : s.state.1.resetRequested = r.resetRequested
  completed : s.state.1.completed = r.completed

structure TooMuch (n : Nat) (s : Step (Request × Intake) Effect (Except Error Unit))
    (cause : AbortCause) : Prop where
  exceeds : (r.receive n).2 = some cause
  live : r.terminal = false
  result : s.result ≠ .ok ()
  within : Within r.stream s.events
  told : storyOf r.stream s.events = r.tells cause
  response : s.state.1.response = r.response
  cause : s.state.1.cause = some cause
  reset : s.state.1.resetRequested = true
  gathers : s.state.1.needsAggregation = r.needsAggregation

theorem tooMuch_fail {s : Step (Request × Intake) Effect (Except Error Unit)} {n : Nat}
    {cause : AbortCause} (received : Nat) (mode : Mode) (hover : (r.receive n).2 = some cause)
    (hlive : r.terminal = false) (hresult : s.result ≠ .ok ())
    (hs : s.state.1 = (Request.fail { r with received := received, mode := mode } cause true).state)
    (he : s.events = (Request.fail { r with received := received, mode := mode } cause true).events)
    (hmode : ({ r with mode := mode } : Request).needsAggregation = r.needsAggregation) :
    r.TooMuch n s cause := by
  have hopen : ({ r with received := received, mode := mode } : Request).terminal = false := hlive
  obtain ⟨hstate, htold⟩ := fail_open hopen cause true
  refine ⟨hover, hlive, hresult, ?_, ?_, ?_, ?_, ?_, ?_⟩
  · rw [he]
    exact within_fail _ cause true
  · rw [he]
    exact htold
  · rw [hs, hstate]
  · rw [hs, hstate]
  · rw [hs, hstate]
  · rw [hs, hstate]
    exact hmode

theorem onData_cases (bytes : Bytes) (endOfStream : Bool) :
    r.TakenIn (r.onData i bytes endOfStream) ∨
      ∃ cause, r.TooMuch bytes.length (r.onData i bytes endOfStream) cause := by
  rw [onData]
  cases hmode : r.mode with
  | empty => exact .inl ⟨rfl, fun t => rfl, rfl, rfl, rfl, rfl⟩
  | aggregating buffer complete taken =>
      simp only
      by_cases hover : (r.terminal || complete) = true
      · rw [if_pos hover]
        exact .inl ⟨rfl, fun t => rfl, rfl, rfl, rfl, rfl⟩
      · obtain ⟨hlive, -⟩ : r.terminal = false ∧ complete = false := by simpa using hover
        rw [if_neg hover, receive_eq]
        cases hcause : (r.receive bytes.length).2 with
        | none => exact .inl ⟨rfl, fun t => rfl, rfl, rfl, rfl, rfl⟩
        | some cause =>
            refine .inr ⟨cause, r.tooMuch_fail _ (.aggregating [] complete taken) hcause hlive
              (by simp) rfl rfl ?_⟩
            rw [needsAggregation, needsAggregation, hmode]
  | streaming body untaken =>
      simp only
      by_cases hover : (r.terminal || !i.writable body) = true
      · rw [if_pos hover]
        exact .inl ⟨rfl, fun t => rfl, rfl, rfl, rfl, rfl⟩
      · obtain ⟨hlive, -⟩ : r.terminal = false ∧ i.writable body = true := by simpa using hover
        rw [if_neg hover, receive_eq]
        cases hcause : (r.receive bytes.length).2 with
        | none => exact .inl ⟨rfl, fun t => storyOf_ofGate _, rfl, rfl, rfl, rfl⟩
        | some cause =>
            exact .inr ⟨cause, r.tooMuch_fail _ r.mode hcause hlive (by simp) rfl rfl rfl⟩

end Request

namespace Connection

def story (c : Connection) (stream : StreamId) : List Effect := storyOf stream c.journal

def news (c : Connection) (stream : StreamId) (x : Call) : List Effect :=
  ((c.after x).story stream).drop (c.story stream).length

theorem news_eq {c : Connection} {x : Call} (h : (c.after x).story s = c.story s ++ es) :
    c.news s x = es := by
  rw [news, h, List.drop_left]

/-- One connection follows another, and no stream but this one is concerned:
what the journal tells of it since, and the request that is open under it then. -/
structure Touches (stream : StreamId) (es : List Effect) (new : Option Request)
    (c d : Connection) : Prop where
  story : d.story stream = c.story stream ++ es
  find : d.find? stream = new
  others : ∀ s, s ≠ stream → d.find? s = c.find? s ∧ d.story s = c.story s

variable {c d : Connection}

theorem find?_update_ne {r : Request} (h : s ≠ r.stream) : (c.update r).find? s = c.find? s := by
  have hids : ((fun t => t.stream == s) ∘ fun t => if t.stream == r.stream then r else t) =
      fun t : Request => t.stream == s := by
    funext t
    by_cases ht : t.stream = r.stream <;> simp [ht]
  rw [find?, find?, update, List.find?_map, hids]
  cases hf : c.streams.find? fun t => t.stream == s with
  | none => rfl
  | some t =>
      have hid : t.stream = s := by simpa using List.find?_some hf
      rw [Option.map_some, if_neg (by simp [hid, h])]

theorem find?_remove (c : Connection) (stream : StreamId) :
    (c.remove stream).find? stream = none := by
  rw [find?, remove, List.find?_filter]
  exact List.find?_eq_none.mpr fun t _ => by simp

theorem find?_remove_ne (h : s ≠ stream) : (c.remove stream).find? s = c.find? s := by
  rw [find?, find?, remove, List.find?_filter]
  congr 1
  funext t
  by_cases ht : t.stream = s <;> simp [ht, h]

namespace Touches

variable {new : Option Request}

theorem trans {e : Connection} {mid : Option Request} (h : Touches stream es mid c d)
    (g : Touches stream fs new d e) : Touches stream (es ++ fs) new c e where
  story := by rw [g.story, h.story, List.append_assoc]
  find := g.find
  others s hs := ⟨(g.others s hs).1.trans (h.others s hs).1,
    (g.others s hs).2.trans (h.others s hs).2⟩

theorem speak (hs : d.streams = c.streams) (hj : d.journal = c.journal ++ es)
    (h : Within stream es) : Touches stream (storyOf stream es) (c.find? stream) c d := by
  have hfind (s : StreamId) : d.find? s = c.find? s := by rw [find?, find?, hs]
  have hstory (s : StreamId) : d.story s = c.story s ++ storyOf s es := by
    rw [Connection.story, Connection.story, hj, storyOf_append]
  refine ⟨hstory stream, hfind stream, fun s hne => ⟨hfind s, ?_⟩⟩
  rw [hstory, h.storyOf hne, List.append_nil]

theorem mute (hs : d.streams = c.streams) (hj : d.journal = c.journal ++ es)
    (h : ∀ s, storyOf s es = []) : Touches stream [] (c.find? stream) c d := by
  have hwithin : Within stream es := within_of_storyOf h
  have hspeak := speak hs hj hwithin
  rwa [h stream] at hspeak

theorem silent (hs : d.streams = c.streams) (hj : d.journal = c.journal) :
    Touches stream [] (c.find? stream) c d :=
  mute hs (hj.trans (List.append_nil _).symm) fun _ => rfl

theorem streamsKept (h : StreamsKept c d) : Touches stream [] (c.find? stream) c d := by
  obtain ⟨_, _, _, _, _, _, _, _, es, hes⟩ := h
  exact mute rfl rfl fun s => hes.storyOf

theorem update {old r : Request} (h : c.find? r.stream = some old) :
    Touches r.stream [] (some r) c (c.update r) :=
  ⟨(List.append_nil _).symm, find?_update h, fun _ hs => ⟨find?_update_ne hs, rfl⟩⟩

theorem remove (stream : StreamId) (c : Connection) :
    Touches stream [] none c (c.remove stream) :=
  ⟨(List.append_nil _).symm, find?_remove c stream, fun _ hs => ⟨find?_remove_ne hs, rfl⟩⟩

theorem discard (r : Request) :
    Touches stream [] (c.find? stream) c (c.absorb (r.discard c.intake)) :=
  mute rfl rfl fun _ => r.storyOf_discard _

theorem retire (r : Request) (now : Instant) :
    Touches r.stream [.record (.ofRequest r now)] (c.find? r.stream) c (c.retire r now) := by
  have hrecord : Within r.stream [.record (.ofRequest r now)] :=
    within_cons (fun s hs => (beq_iff_eq.mp hs).symm) within_nil
  have hspeak : Touches r.stream (storyOf r.stream [.record (.ofRequest r now)]) _
      (c.absorb (r.discard c.intake)) (c.retire r now) := speak rfl rfl hrecord
  rw [storyOf_cons (about_record r now)] at hspeak
  exact (discard r).trans hspeak

theorem finishStream {r : Request} (h : c.find? stream = some r) (now : Instant) :
    Touches stream [.record (.ofRequest r now)] none c (c.finishStream stream now) := by
  obtain rfl := find?_stream h
  have hretire := (remove r.stream c).trans (retire r now)
  rw [find?_remove] at hretire
  rw [Connection.finishStream, h]
  exact hretire

theorem dispatch (r : Request) :
    Touches r.stream
      (.dispatch r :: storyOf r.stream (r.performAll c.intake (c.handler c.dispatched r)).events)
      (c.find? r.stream) c (c.dispatch r).1 := by
  have hwithin : Within r.stream
      (.dispatch r :: (r.performAll c.intake (c.handler c.dispatched r)).events) :=
    within_cons (fun s hs => (beq_iff_eq.mp hs).symm) (r.within_performAll _ _)
  have hspeak := speak (c := c) (d := (c.dispatch r).1) rfl rfl hwithin
  rwa [storyOf_cons (about_dispatch r)] at hspeak

theorem put (r : Request) : Touches r.stream [] (some r) c (c.put r) := by
  cases hf : c.find? r.stream with
  | none =>
      rw [put_free hf]
      have hfind (s : StreamId) : Connection.find? { c with streams := c.streams ++ [r] } s =
          (c.find? s).or (if r.stream == s then some r else none) := by
        rw [find?, find?, List.find?_append, List.find?_singleton]
      refine ⟨(List.append_nil _).symm, ?_, fun s hs => ⟨?_, rfl⟩⟩
      · rw [hfind, hf]
        simp
      · rw [hfind]
        simp [hs.symm]
  | some old =>
      rw [put_taken hf]
      have hgone : Touches r.stream [] ((c.update r).find? r.stream) (c.update r)
          ((c.update r).absorb (old.discard (c.update r).intake)) := discard old
      have hboth := (update hf).trans hgone
      rwa [find?_update hf] at hboth

end Touches

end Connection

end HttpLifecycle
