import HttpLifecycle.Proofs.Connection.Fate
import HttpLifecycle.Proofs.Connection.Ledger
import Mathlib.Data.List.Induction

namespace HttpLifecycle

def Action.ends : Action → Bool
  | .abort .. | .complete => true
  | _ => false

/-- A handler ended the request it was given, which had not ended yet. -/
def Abandoned (stream : StreamId) (es : List Effect) : Prop :=
  ∃ r a reply, .dispatch r ∈ es ∧ r.terminal = false ∧ .action stream a reply ∈ es ∧ a.ends = true

variable {stream : StreamId} {es fs : List Effect}

theorem Inner.recordsOf (h : Inner es) : recordsOf es = [] := h.tending.unbooked.recordsOf

theorem Inner.no_reset (h : Inner es) (code : Nat) : .sink (.reset stream code) ∉ es :=
  fun he => by
    have hinner := h _ he
    contradiction

theorem not_abandoned (h : ∀ r, .dispatch r ∈ es → r.terminal = true) :
    ¬ Abandoned stream es := by
  rintro ⟨r, a, reply, hr, hlive, -⟩
  rw [h r hr] at hlive
  contradiction

namespace Request

variable (r : Request) (i : Intake)

def Sound (r : Request) : Prop := r.resetRequested = true → r.cause.isSome = true

structure SameEnd (r s : Request) : Prop where
  cause : s.cause = r.cause
  reset : s.resetRequested = r.resetRequested
  completed : s.completed = r.completed

variable {r}

theorem SameEnd.terminal {s : Request} (h : SameEnd r s) : s.terminal = r.terminal := by
  rw [Request.terminal, Request.terminal, h.cause, h.completed]

theorem SameEnd.sound {s : Request} (h : SameEnd r s) (hr : r.Sound) : s.Sound := by
  rw [Sound, h.cause, h.reset]
  exact hr

theorem TakenIn.sameEnd {s : Step (Request × Intake) Effect (Except Error Unit)}
    (h : r.TakenIn s) : SameEnd r s.state.1 := ⟨h.cause, h.reset, h.completed⟩

variable (r)

theorem sameEnd_bind (tag : String) : SameEnd r (r.bind tag).state := by
  rw [bind]
  split <;> exact ⟨rfl, rfl, rfl⟩

theorem sameEnd_perform (a : Action) (h : a.ends = false ∨ r.terminal = true) :
    SameEnd r (r.perform i a).state.1 := by
  cases a with
  | bind tag => exact r.sameEnd_bind tag
  | takeBody =>
      obtain ⟨mode, hs⟩ := r.perform_takeBody i
      rw [hs]
      exact ⟨rfl, rfl, rfl⟩
  | takeAggregated =>
      obtain ⟨mode, hs⟩ := r.takeAggregated_state
      show SameEnd r r.takeAggregated.1
      rw [hs]
      exact ⟨rfl, rfl, rfl⟩
  | abort cause reset =>
      have hover := h.resolve_left (by simp [Action.ends])
      obtain ⟨mode, hs⟩ := r.abort_state i cause reset
      show SameEnd r (r.abort i cause reset).state.1
      rw [hs, fail_over hover]
      exact ⟨rfl, rfl, rfl⟩
  | complete =>
      have hover := h.resolve_left (by simp [Action.ends])
      show SameEnd r r.complete.1
      rw [complete, if_pos hover]
      exact ⟨rfl, rfl, rfl⟩

theorem terminal_fail (cause : AbortCause) (reset : Bool) :
    (r.fail cause reset).state.terminal = true := by
  cases h : r.terminal with
  | true => rw [fail_over h, h]
  | false => simp [(fail_open h cause reset).1, terminal]

theorem terminal_complete : r.complete.1.terminal = true := by
  cases h : r.terminal with
  | true => rw [complete, if_pos h, h]
  | false =>
      rw [complete, if_neg (by simp [h])]
      simp [terminal]

theorem terminal_perform (a : Action) :
    (r.perform i a).state.1.terminal = (r.terminal || a.ends) := by
  by_cases h : a.ends = false ∨ r.terminal = true
  · rw [(r.sameEnd_perform i a h).terminal]
    rcases h with h | h <;> simp [h]
  · obtain ⟨hends, hlive⟩ := not_or.mp h
    have hends : a.ends = true := by simpa using hends
    rw [hends, Bool.or_true]
    cases a with
    | abort cause reset =>
        obtain ⟨mode, hs⟩ := r.abort_state i cause reset
        show (r.abort i cause reset).state.1.terminal = true
        rw [hs]
        exact r.terminal_fail cause reset
    | complete => exact r.terminal_complete
    | _ => contradiction

theorem terminal_performAll (actions : List Action) :
    (r.performAll i actions).state.1.terminal = (r.terminal || actions.any (·.ends)) := by
  induction actions generalizing r i with
  | nil => exact (Bool.or_false _).symm
  | cons a rest ih => rw [performAll, ih, terminal_perform, List.any_cons, Bool.or_assoc]

theorem sound_fail (cause : AbortCause) (reset : Bool) (h : r.Sound) :
    (r.fail cause reset).state.Sound := by
  cases hlive : r.terminal with
  | true => rwa [fail_over hlive]
  | false =>
      rw [(fail_open hlive cause reset).1]
      exact fun _ => rfl

theorem sound_complete (h : r.Sound) : r.complete.1.Sound := by
  rw [complete]
  split <;> exact h

theorem sound_perform (a : Action) (h : r.Sound) : (r.perform i a).state.1.Sound := by
  cases a with
  | abort cause reset =>
      obtain ⟨mode, hs⟩ := r.abort_state i cause reset
      show (r.abort i cause reset).state.1.Sound
      rw [hs]
      exact r.sound_fail cause reset h
  | complete => exact r.sound_complete h
  | bind tag => exact (r.sameEnd_perform i (.bind tag) (.inl rfl)).sound h
  | takeBody => exact (r.sameEnd_perform i .takeBody (.inl rfl)).sound h
  | takeAggregated => exact (r.sameEnd_perform i .takeAggregated (.inl rfl)).sound h

theorem sound_performAll (actions : List Action) (h : r.Sound) :
    (r.performAll i actions).state.1.Sound := by
  induction actions generalizing r i with
  | nil => exact h
  | cons a rest ih => exact ih _ _ (r.sound_perform i a h)

theorem action_perform (a : Action) {s : StreamId} {b : Action} {reply : Reply}
    (h : .action s b reply ∈ (r.perform i a).events) : False := by
  have hgate {es : List Gate.Event} (h : .action s b reply ∈ es.map Effect.ofGate) : False := by
    have hstory : .action s b reply ∈ storyOf s (es.map .ofGate) :=
      List.mem_filter.mpr ⟨h, beq_self_eq_true s⟩
    rw [storyOf_ofGate] at hstory
    contradiction
  cases a with
  | bind tag =>
      have hbind : .action s b reply ∈ (r.bind tag).events := h
      rw [bind] at hbind
      split at hbind
      · contradiction
      · obtain ⟨cause, -, he⟩ := List.mem_map.mp hbind
        contradiction
  | takeBody =>
      rw [perform] at h
      split at h
      · exact hgate h
      · contradiction
  | takeAggregated => contradiction
  | abort cause reset =>
      have hfail : .action s b reply ∈ (r.abort i cause reset).events := h
      rw [abort_events, fail] at hfail
      split at hfail
      · contradiction
      · rcases List.mem_cons.mp hfail with he | hfail
        · contradiction
        · obtain ⟨tag, -, he⟩ := List.mem_map.mp hfail
          contradiction
  | complete => contradiction

theorem action_performAll (actions : List Action) (a : Action) :
    (∃ reply, .action r.stream a reply ∈ (r.performAll i actions).events) ↔ a ∈ actions := by
  induction actions generalizing r i with
  | nil => simp [performAll]
  | cons b rest ih =>
      have hrest := ih (r.perform i b).state.1 (r.perform i b).state.2
      rw [(r.sameOpening_perform i b).stream] at hrest
      rw [performAll, List.mem_cons, ← hrest]
      constructor
      · rintro ⟨reply, h⟩
        rcases List.mem_append.mp h with h | h
        · exact (r.action_perform i b h).elim
        · rcases List.mem_cons.mp h with he | h
          · exact .inl (Effect.action.inj he).2.1
          · exact .inr ⟨reply, h⟩
      · rintro (rfl | ⟨reply, h⟩)
        · exact ⟨_, List.mem_append_right _ List.mem_cons_self⟩
        · exact ⟨reply, List.mem_append_right _ (List.mem_cons_of_mem _ h)⟩

theorem abandoned_iff (actions : List Action) :
    Abandoned r.stream (.dispatch r :: storyOf r.stream (r.performAll i actions).events) ↔
      r.terminal = false ∧ actions.any (·.ends) = true := by
  have hinner := (r.inner_performAll i actions).storyOf r.stream
  constructor
  · rintro ⟨t, a, reply, ht, hlive, ha, hends⟩
    have hsame : t = r := by
      rcases List.mem_cons.mp ht with he | he
      · exact Effect.dispatch.inj he
      · exact (hinner.no_dispatch t he).elim
    subst hsame
    have hmem := mem_storyOf ((List.mem_cons.mp ha).resolve_left (by simp))
    exact ⟨hlive,
      List.any_eq_true.mpr ⟨a, (t.action_performAll i actions a).mp ⟨reply, hmem⟩, hends⟩⟩
  · rintro ⟨hlive, hany⟩
    obtain ⟨a, ha, hends⟩ := List.any_eq_true.mp hany
    obtain ⟨reply, hmem⟩ := (r.action_performAll i actions a).mpr ha
    exact ⟨r, a, reply, List.mem_cons_self, hlive,
      List.mem_cons_of_mem _ (List.mem_filter.mpr ⟨hmem, beq_self_eq_true r.stream⟩), hends⟩

theorem terminal_served (actions : List Action) :
    (r.performAll i actions).state.1.terminal = true ↔ r.terminal = true ∨
      Abandoned r.stream (.dispatch r :: storyOf r.stream (r.performAll i actions).events) := by
  rw [terminal_performAll, abandoned_iff]
  cases r.terminal <;> simp

theorem ofOpening_live (o : Opening) (i : Intake) :
    (ofOpening o i).1.terminal = false ∧ (ofOpening o i).1.Sound ∧
      (ofOpening o i).1.stream = o.stream := by
  obtain ⟨exchange, limit, mode, hr⟩ := ofOpening_state i o
  rw [hr]
  exact ⟨rfl, fun h => by contradiction, rfl⟩

theorem terminal_toAborted {r a : Request} {i j : Intake} {cause : AbortCause}
    (h : r.toAborted? i cause = some (a, j)) : a.terminal = true := by
  rw [toAborted?] at h
  split at h
  · obtain ⟨rfl, -⟩ := Prod.mk.inj (Option.some.inj h)
    rfl
  · contradiction

theorem recordsOf_parting (now : Instant) :
    recordsOf (r.parting now) = [.ofRequest r now] := by
  rw [parting]
  split <;> rfl

theorem no_dispatch_parting (now : Instant) (q : Request) : .dispatch q ∉ r.parting now := by
  rw [parting]
  split <;> simp

theorem resets_parting (now : Instant) :
    (r.parting now).count (.sink (.reset r.stream ErrorCode.cancel)) = r.resetRequested.toNat := by
  rw [parting]
  cases r.resetRequested <;> simp

end Request

namespace Connection

/-- The request under a stream gets on, and has ended only if it had before or
was abandoned. -/
structure Stays (stream : StreamId) (r s : Request) (es : List Effect) : Prop where
  sameOpening : r.SameOpening s
  sound : s.Sound
  terminal : s.terminal = true ↔ r.terminal = true ∨ Abandoned stream es
  records : recordsOf es = []
  resets : .sink (.reset stream ErrorCode.cancel) ∉ es

def Input.aborts (stream : StreamId) : Input → Bool
  | .event (.abort s _) => s == stream
  | _ => false

/-- The request under a stream has ended and leaves with a record. The peer
hears of it if that is asked for, once. A request that had ended before is
looked at again only if the application aborts it. -/
structure Leaves (stream : StreamId) (x : Call) (r s : Request) (es : List Effect) : Prop where
  sameOpening : r.SameOpening s
  terminal : s.terminal = true
  kept : ¬ Abandoned stream es
  records : recordsOf es = [.ofRequest s x.now]
  resets : es.count (.sink (.reset stream ErrorCode.cancel)) =
    (s.resetRequested && (!r.terminal || x.input.aborts stream)).toNat

variable {c : Connection} {s : StreamId} {x : Call} {es : List Effect} {r : Request}
  {new : Option Request}

theorem Input.Fails.aborts {x : Input} {cause : AbortCause} (h : x.Fails s cause) :
    x.aborts s = false := by
  cases h with
  | reset code => rfl
  | ends h =>
      cases x with
      | event e => cases e <;> first | rfl | contradiction
      | _ => contradiction

theorem Leaves.parting {r t : Request} (hstays : r.SameOpening t) (hid : r.stream = s)
    (hended : t.terminal = true) (hgiven : ∀ q, .dispatch q ∈ es → q.terminal = true)
    (hrecords : recordsOf es = []) (hresets : .sink (.reset s ErrorCode.cancel) ∉ es)
    (hlive : r.terminal = true → x.input.aborts s = true) :
    Leaves s x r t (es ++ t.parting x.now) := by
  obtain rfl : t.stream = s := hstays.stream.trans hid
  refine ⟨hstays, hended, not_abandoned fun q hq => ?_, ?_, ?_⟩
  · rcases List.mem_append.mp hq with hq | hq
    · exact hgiven q hq
    · exact (t.no_dispatch_parting x.now q hq).elim
  · rw [recordsOf_append, hrecords, t.recordsOf_parting]
    rfl
  · rw [List.count_append, List.count_eq_zero.mpr hresets, t.resets_parting, Nat.zero_add]
    cases hr : r.terminal with
    | false => simp
    | true => simp [hlive hr]

theorem Leaves.silent {r t : Request} (hstays : r.SameOpening t) (hended : t.terminal = true)
    (hinner : Inner es) (hover : t.resetRequested = true → r.terminal = true)
    (hx : x.input.aborts s = false) :
    Leaves s x r t (es ++ [.record (.ofRequest t x.now)]) := by
  have hrecords := hinner.recordsOf
  have hresets : .sink (.reset s ErrorCode.cancel) ∉ es := hinner.no_reset _
  refine ⟨hstays, hended, not_abandoned fun q hq => ?_, ?_, ?_⟩
  · simp [hinner.no_dispatch] at hq
  · rw [recordsOf_append, hrecords]
    rfl
  · have hnone : .sink (.reset s ErrorCode.cancel) ∉ es ++ [.record (.ofRequest t x.now)] := by
      simp [hresets]
    rw [List.count_eq_zero.mpr hnone, hx, Bool.or_false]
    cases ht : t.resetRequested with
    | false => rfl
    | true => simp [hover ht]

theorem recordsOf_dispatch (r : Request) (es : List Effect) :
    recordsOf (.dispatch r :: es) = recordsOf es := rfl

theorem Fate.settles (hf : Fate c s x es new) {r : Request} (h : c.find? s = some r)
    (hsound : r.Sound) (hopen : c.admission? x ≠ some s) :
    (∃ t, new = some t ∧ Stays s r t es) ∨ new = none ∧ ∃ t, Leaves s x r t es := by
  have hsame {t : Request} (ht : c.find? s = some t) : t = r := Option.some.inj (ht.symm.trans h)
  have hid : r.stream = s := find?_stream h
  cases hf with
  | spared hsubject =>
      exact .inl ⟨r, h, .refl r, hsound, by simp [not_abandoned], rfl, List.not_mem_nil⟩
  | refused hx hnone =>
      exact .inl ⟨r, h, .refl r, hsound, by simp [not_abandoned], rfl,
        by simp [ErrorCode.refusedStream, ErrorCode.cancel]⟩
  | opened hx hsome hr hready => exact absurd hsome hopen
  | served i actions hx hsome hr hready => exact absurd hsome hopen
  | @bound tag t hx ht =>
      obtain rfl := hsame ht
      have hend := t.sameEnd_bind tag
      have hinner := t.inner_bind tag
      refine .inl ⟨_, rfl, t.sameOpening_bind tag, hend.sound hsound, ?_, hinner.recordsOf,
        hinner.no_reset _⟩
      rw [hend.terminal]
      simp [not_abandoned fun q hq => (hinner.no_dispatch q hq).elim]
  | @fed bytes endOfStream q t hx hq ht htaken hready =>
      obtain rfl := hsame hq
      have hstays : q.SameOpening t := ht ▸ q.sameOpening_onData c.intake bytes endOfStream
      have hend : q.SameEnd t := ht ▸ htaken.sameEnd
      refine .inl ⟨t, rfl, hstays, hend.sound hsound, ?_, rfl, List.not_mem_nil⟩
      rw [hend.terminal]
      simp [not_abandoned]
  | @gathered bytes endOfStream q t i actions hx hq ht htaken hwaits hready =>
      obtain rfl := hsame hq
      have hstays : q.SameOpening t := ht ▸ q.sameOpening_onData c.intake bytes endOfStream
      have hend : q.SameEnd t := ht ▸ htaken.sameEnd
      obtain rfl : t.stream = s := hstays.stream.trans hid
      have hinner := (t.inner_performAll i actions).storyOf t.stream
      refine .inl ⟨_, rfl, hstays.trans (t.sameOpening_performAll i actions),
        t.sound_performAll i actions (hend.sound hsound), ?_,
        hinner.recordsOf, ?_⟩
      · rw [t.terminal_served, hend.terminal]
      · simp [hinner.no_reset]
  | @burst bytes endOfStream q t cause hx hq ht hover hmode =>
      obtain rfl := hsame hq
      have hstays : q.SameOpening t := ht ▸ q.sameOpening_onData c.intake bytes endOfStream
      have hcause : t.cause = some cause := ht ▸ hover.cause
      have hinner := q.inner_tells cause
      exact .inr ⟨rfl, t, .parting hstays hid (by simp [Request.terminal, hcause])
        (fun p hp => (hinner.no_dispatch p hp).elim) hinner.recordsOf (hinner.no_reset _)
        (by simp [hover.live])⟩
  | @overrun bytes endOfStream q t a cause i j actions hx hq ht hover hmode ha =>
      obtain rfl := hsame hq
      have hstays : q.SameOpening t := ht ▸ q.sameOpening_onData c.intake bytes endOfStream
      have hconverted := Request.sameOpening_toAborted ha
      have hdone := a.sameOpening_performAll j actions
      have htells := q.inner_tells cause
      have hinner := (a.inner_performAll j actions).storyOf s
      have hended : a.terminal = true := Request.terminal_toAborted ha
      refine .inr ⟨rfl, (a.performAll j actions).state.1, ?_⟩
      rw [← List.append_assoc]
      refine .parting ((hstays.trans hconverted).trans hdone) hid ?_ (fun p hp => ?_) ?_ ?_
        (by simp [hover.live])
      · rw [a.terminal_performAll, hended, Bool.true_or]
      · obtain rfl : p = a := by simpa [htells.no_dispatch, hinner.no_dispatch] using hp
        exact hended
      · rw [recordsOf_append, htells.recordsOf, recordsOf_dispatch, hinner.recordsOf]
        rfl
      · simp [htells.no_reset, hinner.no_reset]
  | @completed q hx hq =>
      obtain rfl := hsame hq
      have hover (hreset : q.complete.1.resetRequested = true) : q.terminal = true := by
        have hsame : q.complete.1.resetRequested = q.resetRequested := by
          rw [Request.complete]
          split <;> rfl
        simp [Request.terminal, hsound (hsame.symm.trans hreset)]
      have hleaves : Leaves s x q q.complete.1 ([] ++ [.record (.ofRequest q.complete.1 x.now)]) :=
        .silent q.sameOpening_complete q.terminal_complete inner_nil hover (by rw [hx]; rfl)
      exact .inr ⟨rfl, _, hleaves⟩
  | @cancelled cause q hx hq =>
      obtain rfl := hsame hq
      have hinner := (q.inner_fail cause true).storyOf s
      exact .inr ⟨rfl, _, .parting (q.sameOpening_fail cause true) hid (q.terminal_fail cause true)
        (fun p hp => (hinner.no_dispatch p hp).elim) hinner.recordsOf (hinner.no_reset _)
        fun _ => by rw [hx]; exact beq_self_eq_true s⟩
  | @ended cause q hx hq =>
      obtain rfl := hsame hq
      have hinner := (q.inner_fail cause false).storyOf q.stream
      have hover (hreset : (q.fail cause false).state.resetRequested = true) :
          q.terminal = true := by
        cases hlive : q.terminal with
        | true => rfl
        | false =>
            rw [(Request.fail_open hlive cause false).1] at hreset
            contradiction
      exact .inr ⟨rfl, _, .silent (q.sameOpening_fail cause false) (q.terminal_fail cause false)
        hinner hover
        hx.aborts⟩

theorem admission?_headers (h : c.admission? x = some s) :
    ∃ headers endOfStream, x.input = .event (.headers s headers endOfStream) := by
  rw [admission?] at h
  split at h
  · rename_i t headers endOfStream hx hok
    obtain rfl := Option.some.inj h
    exact ⟨headers, endOfStream, hx⟩
  · contradiction

theorem Fate.admits (hf : Fate c s x es new) (hopen : c.admission? x = some s) :
    ∃ r t, r.terminal = false ∧ new = some t ∧ Stays s r t es := by
  obtain ⟨headers, endOfStream, hinput⟩ := admission?_headers hopen
  cases hf with
  | spared hsubject =>
      have hnone := (hsubject (by rw [hinput]; rfl)).2
      rw [hopen] at hnone
      contradiction
  | refused hx hnone =>
      rw [hopen] at hnone
      contradiction
  | @opened headers endOfStream r hx hsome hr hready =>
      obtain ⟨hlive, hsound, -⟩ :=
        Request.ofOpening_live (c.opening s headers endOfStream x.now) c.intake
      rw [← hr] at hlive hsound
      exact ⟨r, r, hlive, rfl, .refl r, hsound, by simp [not_abandoned], rfl, List.not_mem_nil⟩
  | @served headers endOfStream r i actions hx hsome hr hready =>
      obtain ⟨hlive, hsound, hstream⟩ :=
        Request.ofOpening_live (c.opening s headers endOfStream x.now) c.intake
      rw [← hr] at hlive hsound hstream
      obtain rfl : r.stream = s := hstream
      have hinner := (r.inner_performAll i actions).storyOf r.stream
      exact ⟨r, _, hlive, rfl, r.sameOpening_performAll i actions,
        r.sound_performAll i actions hsound,
        r.terminal_served i actions, hinner.recordsOf, by simp [hinner.no_reset]⟩
  | bound hx | fed hx | gathered i actions hx | burst hx | overrun i j actions hx | completed hx
  | cancelled hx =>
      rw [hinput] at hx
      cases hx
  | ended hx =>
      rw [hinput] at hx
      cases hx
      contradiction

theorem Fate.stays (hf : Fate c s x es (some r)) (hsound : ∀ q, c.find? s = some q → q.Sound) :
    ∃ q, (q.terminal = false ∨ c.find? s = some q) ∧ Stays s q r es := by
  by_cases hopen : c.admission? x = some s
  · obtain ⟨q, t, hlive, hnew, hstays⟩ := hf.admits hopen
    obtain rfl := Option.some.inj hnew
    exact ⟨q, .inl hlive, hstays⟩
  · cases hq : c.find? s with
    | none => exact absurd (hf.vacant hq hopen).1 (by simp)
    | some q =>
        rcases hf.settles hq (hsound q hq) hopen with ⟨t, hnew, hstays⟩ | ⟨hnew, -⟩
        · obtain rfl := Option.some.inj hnew
          exact ⟨q, .inr rfl, hstays⟩
        · contradiction

theorem Fate.abandoned (hf : Fate c s x es new) (hsound : ∀ q, c.find? s = some q → q.Sound)
    (h : Abandoned s es) : ∃ r, new = some r ∧ r.terminal = true := by
  by_cases hopen : c.admission? x = some s
  · obtain ⟨q, t, -, hnew, hstays⟩ := hf.admits hopen
    exact ⟨t, hnew, hstays.terminal.mpr (.inr h)⟩
  · cases hq : c.find? s with
    | none =>
        have hnone := (hf.vacant hq hopen).2
        exact absurd h (not_abandoned fun r hr => (hnone r hr).elim)
    | some q =>
        rcases hf.settles hq (hsound q hq) hopen with ⟨t, hnew, hstays⟩ | ⟨-, t, hleaves⟩
        · exact ⟨t, hnew, hstays.terminal.mpr (.inr h)⟩
        · exact absurd h hleaves.kept

def Abandons (c : Connection) (x : Call) (stream : StreamId) : Prop :=
  ∃ es, (c.after x).story stream = c.story stream ++ es ∧ Abandoned stream es

/-- No request that has ended is in the table. -/
def Clean (c : Connection) : Prop := ∀ s r, c.find? s = some r → r.terminal = false

def Soundly (c : Connection) : Prop := ∀ s r, c.find? s = some r → r.Sound

theorem after_soundly (hd : Distinct c) (h : Soundly c) (x : Call) : Soundly (c.after x) := by
  intro s r hr
  obtain ⟨es, -, hf⟩ := after_fate hd s x
  rw [hr] at hf
  obtain ⟨q, -, hstays⟩ := hf.stays (h s)
  exact hstays.sound

theorem run_soundly (hd : Distinct c) (h : Soundly c) (xs : List Call) : Soundly (c.run xs) := by
  induction xs generalizing c with
  | nil => exact h
  | cons x rest ih => exact ih (after_distinct hd x) (after_soundly hd h x)

theorem after_clean (hd : Distinct c) (hs : Soundly c) (h : Clean c) (x : Call) :
    Clean (c.after x) ↔ ∀ s, ¬ c.Abandons x s := by
  constructor
  · rintro hclean s ⟨es, hstory, habandoned⟩
    obtain ⟨fs, hsame, hf⟩ := after_fate hd s x
    obtain rfl := List.append_cancel_left (hstory.symm.trans hsame)
    obtain ⟨r, hr, hended⟩ := hf.abandoned (hs s) habandoned
    rw [hclean s r hr] at hended
    contradiction
  · intro hnone s r hr
    obtain ⟨es, hstory, hf⟩ := after_fate hd s x
    rw [hr] at hf
    obtain ⟨q, hq, hstays⟩ := hf.stays (hs s)
    have hlive : q.terminal = false := hq.elim (fun hlive => hlive) (h s q)
    rw [← Bool.not_eq_true, hstays.terminal, hlive]
    rintro (hover | habandoned)
    · contradiction
    · exact hnone s ⟨es, hstory, habandoned⟩

theorem run_clean (hd : Distinct c) (hs : Soundly c) (h : Clean c) (xs : List Call) :
    (∀ ys, ys <+: xs → (c.run ys).Clean) ↔
      ∀ ys x, ys ++ [x] <+: xs → ∀ s, ¬ (c.run ys).Abandons x s := by
  constructor
  · intro hclean ys x hprefix
    have hnext := hclean _ hprefix
    rw [run_concat, after_clean (run_distinct hd ys) (run_soundly hd hs ys)
      (hclean ys ((List.prefix_append ys [x]).trans hprefix))] at hnext
    exact hnext
  · intro hnone ys hprefix
    induction ys using List.reverseRecOn with
    | nil => exact h
    | append_singleton ys x ih =>
        have hbefore := ih ((List.prefix_append ys [x]).trans hprefix)
        rw [run_concat, after_clean (run_distinct hd ys) (run_soundly hd hs ys) hbefore]
        exact hnone ys x hprefix

/-- What becomes of a request that ends. Ended from outside it leaves the table
at once, with its one record, and the peer hears of it just if that was asked
for. A handler that ends the request it is given leaves it in the table, with
no record and no reset, and nothing else leaves one there. -/
theorem retired_unless_abandoned (id : ConnectionId) (protocol : Protocol) (config : Config)
    (routes : Resolver) (handler : Handler) (start : Instant) (xs : List Call) :
    let fresh := create id protocol config routes handler start
    let c := fresh.run xs
    ((∀ ys, ys <+: xs → (fresh.run ys).Clean) ↔
      ∀ ys x, ys ++ [x] <+: xs → ∀ s, ¬ (fresh.run ys).Abandons x s) ∧
    ∀ x s, ∃ es, (c.after x).story s = c.story s ++ es ∧
      (c.admission? x = some s → ∃ r t, r.terminal = false ∧
        (c.after x).find? s = some t ∧ Stays s r t es) ∧
      (∀ r, c.find? s = some r → c.admission? x ≠ some s →
        (∃ t, (c.after x).find? s = some t ∧ Stays s r t es) ∨
          (c.after x).find? s = none ∧ ∃ t, Leaves s x r t es) := by
  intro fresh c
  have hd : Distinct fresh := distinct_create id protocol config routes handler start
  have hempty (s : StreamId) : fresh.find? s = none := rfl
  have hs : Soundly fresh := fun s r hr => by
    rw [hempty] at hr
    contradiction
  have hclean : Clean fresh := fun s r hr => by
    rw [hempty] at hr
    contradiction
  refine ⟨run_clean hd hs hclean xs, fun x s => ?_⟩
  obtain ⟨es, hstory, hf⟩ := after_fate (run_distinct hd xs) s x
  refine ⟨es, hstory, hf.admits, fun r hr hopen => ?_⟩
  exact hf.settles hr (run_soundly hd hs xs s r hr) hopen

/-- A handler aborts its request and asks for a reset, and neither a reset nor
a record comes of it. -/
theorem handler_abort_lingers :
    let c := (create 1 .h2 {} (fun _ => none)
      (fun _ _ => [.abort (.cancelled "handler") true]) 0).run
      [⟨.event (.headers 1 {} true), 0⟩]
    (∃ r, c.find? 1 = some r ∧ r.terminal = true ∧ r.resetRequested = true) ∧
      recordsOf c.journal = [] ∧ .sink (.reset 1 ErrorCode.cancel) ∉ c.journal := by
  intro c
  have hopen : (c.find? 1).map (fun r => (r.terminal, r.resetRequested)) = some (true, true) := by
    decide +kernel
  have hnone : recordsOf c.journal = [] := by decide +kernel
  have hsilent : .sink (.reset 1 ErrorCode.cancel) ∉ c.journal := by decide +kernel
  obtain ⟨r, hr, hparts⟩ := Option.map_eq_some_iff.mp hopen
  obtain ⟨hended, hreset⟩ := Prod.mk.inj hparts
  exact ⟨⟨r, hr, hended, hreset⟩, hnone, hsilent⟩

end Connection

end HttpLifecycle
