import HttpLifecycle.Proofs.Request.Gathering

namespace HttpLifecycle.Request

inductive Conclusion where
  | completed
  | aborted (cause : AbortCause) (reset : Bool)
  deriving DecidableEq, Repr

namespace Conclusion

def state : Conclusion → State
  | completed => .completed
  | aborted .. => .aborted

def cause? : Conclusion → Option AbortCause
  | completed => none
  | aborted cause _ => some cause

def reset : Conclusion → Bool
  | completed => false
  | aborted _ reset => reset

end Conclusion

def Mode.state : Mode → State
  | .empty => .empty
  | .aggregating .. => .aggregating
  | .streaming .. => .streaming

def bound (r : Request) : Nat := if r.mode = .empty then 0 else r.limit

/-- The end that a call makes of a request that is under way, if it makes one. -/
def Call.conclusion? (limit : Nat) (c : Course) : Call → Option Conclusion
  | .frame bytes _ =>
    if c.close = none ∧ 0 < limit ∧ limit < c.total bytes then
      some (.aborted (.limitExceeded limit (c.total bytes)) true)
    else none
  | .abort cause reset => some (.aborted cause reset)
  | .complete => some .completed
  | .bind _ | .takeBody | .takeAggregated | .read _ => none

/-- What comes of the first call that makes an end. -/
def conclusion? (limit : Nat) : Course → List Call → Option Conclusion
  | _, [] => none
  | c, x :: rest => (x.conclusion? limit c).or (conclusion? limit (c.next limit x) rest)

def Call.tag? : Call → Option String
  | .bind tag => some tag
  | _ => none

def bindings (xs : List Call) (answers : List Answer) : List String :=
  (xs.zip answers).filterMap fun p => if p.2 = .reply .done then p.1.tag? else none

/-- Nothing that is asked from now on makes a difference to how a request ended. -/
def Final (p : Request × Intake) : Prop :=
  ∀ zs, let u := (p.1.run p.2 zs).state
    u.1.state = p.1.state ∧ u.1.cause = p.1.cause ∧
      u.1.resetRequested = p.1.resetRequested ∧
      (∀ cause reset, (u.1.abort u.2 cause reset).result = p.1.cause) ∧
      u.1.complete.2 = false ∧
      ∀ bytes last, (u.1.onData u.2 bytes last).result = .ok ()

/-- What is seen of a request whose calls have made that end of it, or none yet. -/
structure Lives (start : State) (f : Option Conclusion) (xs : List Call)
    (t : Step (Request × Intake) Effect (List Answer)) : Prop where
  state : t.state.1.state = (f.map Conclusion.state).getD start
  cause : t.state.1.cause = f.bind Conclusion.cause?
  reset : t.state.1.resetRequested = f.any Conclusion.reset
  final : f.isSome = true → Final t.state
  bindings : bindings xs t.result = (xs.findSome? Call.tag?).toList
  response : t.state.1.response = xs.findSome? Call.tag?

structure Unmoved (r s : Request) : Prop where
  cause : s.cause = r.cause
  reset : s.resetRequested = r.resetRequested
  completed : s.completed = r.completed
  mode : s.mode.state = r.mode.state

/-- A request is as its calls make it: under way, or ended in that way. -/
structure Stands (start : State) (f : Option Conclusion) (r : Request) : Prop where
  cause : r.cause = f.bind Conclusion.cause?
  reset : r.resetRequested = f.any Conclusion.reset
  completed : r.completed = (f == some .completed)
  mode : r.mode.state = start

variable {r s : Request} {i : Intake} {c : Course} {limit : Nat} {start : State}
  {f : Option Conclusion}

theorem state_eq (r : Request) : r.state =
    if r.cause.isSome then .aborted else if r.completed then .completed else r.mode.state := by
  rw [state]
  cases r.mode <;> rfl

namespace Unmoved

theorem refl (r : Request) : Unmoved r r := ⟨rfl, rfl, rfl, rfl⟩

theorem trans {t : Request} (h : Unmoved r s) (g : Unmoved s t) : Unmoved r t :=
  ⟨g.cause.trans h.cause, g.reset.trans h.reset, g.completed.trans h.completed,
    g.mode.trans h.mode⟩

theorem state (h : Unmoved r s) : s.state = r.state := by
  rw [state_eq, state_eq, h.cause, h.completed, h.mode]

theorem terminal (h : Unmoved r s) : s.terminal = r.terminal := by
  rw [Request.terminal, Request.terminal, h.cause, h.completed]

theorem bind (r : Request) (tag : String) : Unmoved r (r.bind tag).state := by
  obtain ⟨response, hbind⟩ := r.bind_state tag
  rw [hbind]
  exact ⟨rfl, rfl, rfl, rfl⟩

theorem takeBody (r : Request) : Unmoved r r.takeBody.1 := by
  rw [Request.takeBody]
  split
  · rename_i body hmode
    exact ⟨rfl, rfl, rfl, by rw [hmode]; rfl⟩
  · exact refl r

theorem takeAggregated (r : Request) : Unmoved r r.takeAggregated.1 := by
  rw [Request.takeAggregated]
  split
  · rename_i buffer hmode
    split
    · exact ⟨rfl, rfl, rfl, by rw [hmode]; rfl⟩
    · exact refl r
  · exact refl r

theorem read (r : Request) (i : Intake) (waits : Bool) :
    Unmoved r (r.call i (.read waits)).state.1 := by
  rw [call]
  split <;> exact refl r

end Unmoved

theorem onData_empty (hmode : r.mode = .empty) (bytes : Bytes) (last : Bool) :
    (r.onData i bytes last).result = .ok () ∧ Unmoved r (r.onData i bytes last).state.1 := by
  have hdata : r.onData i bytes last =
      ⟨({ r with received := Word.saturate (r.received + bytes.length) }, i), [], .ok ()⟩ := by
    rw [onData, hmode]
  rw [hdata]
  exact ⟨rfl, rfl, rfl, rfl, rfl⟩

theorem onData_terminal (h : r.terminal = true) (i : Intake) (bytes : Bytes) (last : Bool) :
    (r.onData i bytes last).result = .ok () ∧ Unmoved r (r.onData i bytes last).state.1 := by
  cases hmode : r.mode with
  | empty => exact onData_empty hmode bytes last
  | aggregating buffer complete taken =>
      rw [onData_over hmode (.inl h)]
      exact ⟨rfl, .refl r⟩
  | streaming body untaken =>
      rw [onData_shut hmode (.inl h)]
      exact ⟨rfl, .refl r⟩

theorem call_over (h : r.terminal = true) (i : Intake) (x : Call) :
    Unmoved r (r.call i x).state.1 := by
  cases x with
  | frame bytes last => exact (onData_terminal h i bytes last).2
  | bind tag => exact .bind r tag
  | abort cause reset =>
      show Unmoved r (r.abort i cause reset).state.1
      rw [abort_over h]
      exact .refl r
  | complete =>
      show Unmoved r r.complete.1
      rw [complete_over h]
      exact .refl r
  | takeBody => exact .takeBody r
  | takeAggregated => exact .takeAggregated r
  | read waits => exact .read r i waits

theorem run_over (h : r.terminal = true) (i : Intake) (xs : List Call) :
    Unmoved r (r.run i xs).state.1 := by
  induction xs generalizing r i with
  | nil => exact .refl r
  | cons x rest ih =>
      have hx := call_over h i x
      exact hx.trans (ih (hx.terminal.trans h) _)

theorem final_of_terminal {p : Request × Intake} (h : p.1.terminal = true) : Final p := by
  intro zs u
  have hu : Unmoved p.1 u.1 := run_over h p.2 zs
  have hover : u.1.terminal = true := hu.terminal.trans h
  refine ⟨hu.state, hu.cause, hu.reset, fun cause reset => ?_, ?_, fun bytes last => ?_⟩
  · rw [abort_over hover]
    exact hu.cause
  · rw [complete_over hover]
  · exact (onData_terminal hover u.2 bytes last).1

namespace Stands

theorem unmoved (h : Stands start f r) (g : Unmoved r s) : Stands start f s :=
  ⟨g.cause.trans h.cause, g.reset.trans h.reset, g.completed.trans h.completed,
    g.mode.trans h.mode⟩

theorem terminal (h : Stands start f r) : r.terminal = f.isSome := by
  rw [Request.terminal, h.cause, h.completed]
  cases f with
  | none => rfl
  | some conclusion => cases conclusion <;> rfl

theorem state (h : Stands start f r) : r.state = (f.map Conclusion.state).getD start := by
  rw [state_eq, h.cause, h.completed, h.mode]
  cases f with
  | none => rfl
  | some conclusion => cases conclusion <;> rfl

theorem aborted (h : Stands start none r) {cause : AbortCause} {reset : Bool}
    (hcause : s.cause = some cause) (hreset : s.resetRequested = reset)
    (hcompleted : s.completed = r.completed) (hmode : s.mode.state = r.mode.state) :
    Stands start (some (.aborted cause reset)) s :=
  ⟨hcause, hreset, hcompleted.trans h.completed, hmode.trans h.mode⟩

end Stands

inductive Keeping (limit : Nat) (c : Course) (r : Request) (i : Intake) : Prop
  | empty (hmode : r.mode = .empty) (hlimit : limit = 0)
  | gathers (given : List Bytes) (h : Gathers limit c given r)
  | tracks (b : BodyId) (read : List Chunk) (h : Tracks b limit c read (r, i))

theorem onData_stands (h : Keeping limit c r i) (hs : Stands start none r) (bytes : Bytes)
    (last : Bool) :
    Stands start ((Call.frame bytes last).conclusion? limit c) (r.onData i bytes last).state.1 := by
  have hlive : r.terminal = false := hs.terminal
  have hclosed {close : Close} (hclose : c.close = some close) :
      (Call.frame bytes last).conclusion? limit c = none := by
    rw [Call.conclusion?, if_neg]
    simp [hclose]
  cases h with
  | empty hmode hlimit =>
      have hnone : (Call.frame bytes last).conclusion? limit c = none := by
        rw [Call.conclusion?, if_neg]
        omega
      rw [hnone]
      exact hs.unmoved (onData_empty hmode bytes last).2
  | gathers given h =>
      cases h.status.stage with
      | ongoing hclose _ hreceived =>
          obtain ⟨buffer, hmode, -⟩ := h.keeps.filling (by simp [hclose])
          obtain ⟨es, hdata⟩ := onData_gathering (i := i) hmode hlive bytes last
          obtain ⟨-, hover⟩ := receive_course h.limit hreceived bytes
          rw [hdata, hover, Call.conclusion?]
          by_cases hexceeds : 0 < limit ∧ limit < c.total bytes
          · rw [if_pos ⟨hclose, hexceeds⟩, if_pos hexceeds]
            exact hs.aborted rfl rfl rfl (by rw [hmode]; rfl)
          · rw [if_neg fun hall => hexceeds hall.2, if_neg hexceeds]
            exact hs.unmoved ⟨rfl, rfl, rfl, by rw [hmode]; rfl⟩
      | whole hclose =>
          obtain ⟨buffer, taken, hmode⟩ := h.keeps.gathering
          rw [hclosed hclose, onData_over hmode (.inr (by simp [hclose]))]
          exact hs
      | finished _ hover =>
          rw [hlive] at hover
          contradiction
  | tracks b read h =>
      obtain ⟨untaken, hmode⟩ := body?_eq_some h.body
      obtain ⟨d, hd, hconveys⟩ := h.channel
      cases h.status.stage with
      | ongoing hclose _ hreceived =>
          have hw : i.writable b = true := (Intake.writable_eq hd).trans (hconveys.opened hclose)
          obtain ⟨es, hdata⟩ := onData_streaming hmode hlive hw bytes last
          obtain ⟨-, hover⟩ := receive_course h.limit hreceived bytes
          rw [hdata, hover, Call.conclusion?]
          by_cases hexceeds : 0 < limit ∧ limit < c.total bytes
          · rw [if_pos ⟨hclose, hexceeds⟩, if_pos hexceeds]
            exact hs.aborted rfl rfl rfl (by rw [hmode])
          · rw [if_neg fun hall => hexceeds hall.2, if_neg hexceeds]
            exact hs.unmoved ⟨rfl, rfl, rfl, by rw [hmode]⟩
      | whole hclose =>
          have hw : i.writable b = false := by
            rw [Intake.writable_eq hd, hconveys.writable, Course.shut, hclose]
            rfl
          rw [hclosed hclose, onData_shut hmode (.inr hw)]
          exact hs
      | finished _ hover =>
          rw [hlive] at hover
          contradiction

theorem abort_stands (hs : Stands start none r) (i : Intake) (cause : AbortCause) (reset : Bool) :
    Stands start (some (.aborted cause reset)) (r.abort i cause reset).state.1 := by
  obtain ⟨es, hfail⟩ := fail_live hs.terminal cause reset
  rw [abort, hfail]
  simp only [if_true]
  split
  · exact hs.aborted rfl rfl rfl rfl
  · rename_i buffer complete taken hmode
    exact hs.aborted rfl rfl rfl (congrArg Mode.state hmode).symm
  · exact hs.aborted rfl rfl rfl rfl

theorem complete_stands (hs : Stands start none r) :
    Stands start (some .completed) r.complete.1 := by
  rw [complete_live hs.terminal]
  exact ⟨hs.cause, hs.reset, rfl, hs.mode⟩

theorem call_stands (h : Keeping limit c r i) (hs : Stands start f r) (x : Call) :
    Stands start (f.or (x.conclusion? limit c)) (r.call i x).state.1 := by
  cases f with
  | some conclusion => exact hs.unmoved (call_over hs.terminal i x)
  | none =>
      rw [Option.none_or]
      cases x with
      | frame bytes last => exact onData_stands h hs bytes last
      | bind tag => exact hs.unmoved (.bind r tag)
      | abort cause reset => exact abort_stands hs i cause reset
      | complete => exact complete_stands hs
      | takeBody => exact hs.unmoved (.takeBody r)
      | takeAggregated => exact hs.unmoved (.takeAggregated r)
      | read waits => exact hs.unmoved (.read r i waits)

theorem Mode.state_empty {mode : Mode} (h : mode.state = .empty) : mode = .empty := by
  cases mode <;> first | rfl | contradiction

theorem Keeping.call (h : Keeping limit c r i) (hs : Stands start f r) (x : Call) :
    Keeping limit (c.next limit x) (r.call i x).state.1 (r.call i x).state.2 := by
  cases h with
  | empty hmode hlimit =>
      have hstart : start = .empty := by rw [← hs.mode, hmode]; rfl
      have hcall : Stands start _ (r.call i x).state.1 :=
        call_stands (i := i) (c := c) (.empty hmode hlimit) hs x
      exact .empty (Mode.state_empty (hcall.mode.trans hstart)) hlimit
  | gathers given h => exact .gathers _ (h.call i x).1
  | tracks b read h => exact .tracks b _ (h.call x)

theorem run_stands (h : Keeping limit c r i) (hs : Stands start f r) (xs : List Call) :
    Stands start (f.or (conclusion? limit c xs)) (r.run i xs).state.1 := by
  induction xs generalizing c r i f with
  | nil =>
      rw [conclusion?, Option.or_none]
      exact hs
  | cons x rest ih =>
      rw [conclusion?, ← Option.or_assoc]
      exact ih (h.call hs x) (call_stands h hs x)

theorem keeping_fresh (o : Opening) (i : Intake) :
    Keeping (ofOpening o i).1.bound {} (ofOpening o i).1 (ofOpening o i).2 := by
  cases hmode : (ofOpening o i).1.mode with
  | empty => exact .empty hmode (if_pos hmode)
  | aggregating buffer complete taken =>
      have hbound : (ofOpening o i).1.bound = (ofOpening o i).1.limit := if_neg (by simp [hmode])
      have hgather : (ofOpening o i).1.needsAggregation = true := by rw [needsAggregation, hmode]
      rw [hbound]
      exact .gathers [] (gathers_fresh hgather)
  | streaming b untaken =>
      have hbound : (ofOpening o i).1.bound = (ofOpening o i).1.limit := if_neg (by simp [hmode])
      rw [hbound]
      exact .tracks b [] (Opened.fresh o i (body?_streaming hmode)).tracks

theorem stands_fresh (o : Opening) (i : Intake) :
    Stands (ofOpening o i).1.state none (ofOpening o i).1 := by
  obtain ⟨-, hcause, hreset, hcompleted⟩ := ofOpening_new o i
  refine ⟨hcause, hreset, hcompleted, ?_⟩
  rw [state_eq, hcause, hcompleted]
  rfl

theorem onData_response (r : Request) (i : Intake) (bytes : Bytes) (last : Bool) :
    (r.onData i bytes last).state.1.response = r.response := by
  rw [onData]
  split
  · rfl
  · split
    · rfl
    · rw [receive_eq]
      cases (r.receive bytes.length).2 with
      | none => rfl
      | some cause => exact fail_response _ cause true
  · split
    · rfl
    · rw [receive_eq]
      cases (r.receive bytes.length).2 with
      | none => rfl
      | some cause => exact fail_response _ cause true

theorem takeAggregated_response (r : Request) : r.takeAggregated.1.response = r.response := by
  rw [takeAggregated]
  split
  · split <;> rfl
  · rfl

theorem call_response (r : Request) (i : Intake) (x : Call) :
    (r.call i x).state.1.response = r.response.or x.tag? := by
  cases x with
  | bind tag =>
      show (r.bind tag).state.response = _
      rw [bind]
      cases hbound : r.response with
      | none => rfl
      | some first => exact hbound
  | frame bytes last => exact (onData_response r i bytes last).trans (Option.or_none ..).symm
  | abort cause reset => exact (abort_response r i cause reset).trans (Option.or_none ..).symm
  | complete =>
      refine Eq.trans ?_ (Option.or_none ..).symm
      show r.complete.1.response = r.response
      rw [complete]
      split <;> rfl
  | takeBody => exact (takeBody_response r).trans (Option.or_none ..).symm
  | takeAggregated => exact (takeAggregated_response r).trans (Option.or_none ..).symm
  | read waits =>
      refine Eq.trans ?_ (Option.or_none ..).symm
      rw [call]
      split <;> rfl

theorem call_done {tag : String} (r : Request) (i : Intake) :
    (r.call i (.bind tag)).result = .reply .done ↔ r.response = none := by
  show Answer.reply (.ofResult (r.bind tag).result) = _ ↔ _
  rw [bind]
  cases r.response <;> simp [Reply.ofResult]

theorem run_response (r : Request) (i : Intake) (xs : List Call) :
    (r.run i xs).state.1.response = r.response.or (xs.findSome? Call.tag?) := by
  induction xs generalizing r i with
  | nil => exact (Option.or_none ..).symm
  | cons x rest ih =>
      have hrun : (r.run i (x :: rest)).state.1.response = _ := ih _ _
      rw [hrun, call_response, Option.or_assoc, List.findSome?_cons]
      cases x.tag? <;> rfl

theorem run_bindings (r : Request) (i : Intake) (xs : List Call) :
    bindings xs (r.run i xs).result =
      if r.response.isSome then [] else (xs.findSome? Call.tag?).toList := by
  induction xs generalizing r i with
  | nil => simp [bindings]
  | cons x rest ih =>
      have hrest := ih (r.call i x).state.1 (r.call i x).state.2
      rw [call_response] at hrest
      rw [run, bindings, List.zip_cons_cons, List.filterMap_cons, ← bindings, hrest,
        List.findSome?_cons]
      cases htag : x.tag? with
      | none => simp
      | some tag =>
          obtain rfl : x = .bind tag := by
            cases x <;> simp_all [Call.tag?]
          cases hbound : r.response <;> simp [call_done, hbound]

theorem toAborted_stands {cause : AbortCause} {q : Request × Intake}
    (h : r.toAborted? i cause = some q) :
    Stands .streaming (some (.aborted cause r.resetRequested)) q.1 ∧ q.1.response = none := by
  rw [toAborted?] at h
  split at h
  · obtain rfl := Option.some.inj h
    exact ⟨⟨rfl, rfl, rfl, rfl⟩, rfl⟩
  · contradiction

theorem Stands.lives {xs : List Call} (h : Stands start f (r.run i xs).state.1)
    (hfresh : r.response = none) : Lives start f xs (r.run i xs) := by
  have hbindings := run_bindings r i xs
  have hresponse := run_response r i xs
  rw [hfresh] at hbindings hresponse
  exact ⟨h.state, h.cause, h.reset, fun hended => final_of_terminal (h.terminal.trans hended),
    hbindings, hresponse⟩

/-- A request goes on as it was opened until the first call that makes an end of
it, and stays ended in that way. The first response that it is given is bound,
and no other. So it is with a streaming request that is made of a failed one,
which is over from the start. -/
theorem lifecycle_one_way (o : Opening) (i : Intake) (xs : List Call) :
    let r := (ofOpening o i).1
    let t := r.run (ofOpening o i).2 xs
    Lives r.state (conclusion? r.bound {} xs) xs t ∧
      ∀ cause q, t.state.1.toAborted? t.state.2 cause = some q →
        ∀ ys, Lives .streaming (some (.aborted cause t.state.1.resetRequested)) ys
          (q.1.run q.2 ys) := by
  intro r t
  constructor
  · have hs : Stands r.state (conclusion? r.bound {} xs) t.state.1 :=
      run_stands (keeping_fresh o i) (stands_fresh o i) xs
    exact hs.lives (ofOpening_response o i)
  · intro cause q hq ys
    obtain ⟨hs, hfresh⟩ := toAborted_stands hq
    exact (hs.unmoved (run_over hs.terminal q.2 ys)).lives hfresh

end HttpLifecycle.Request
