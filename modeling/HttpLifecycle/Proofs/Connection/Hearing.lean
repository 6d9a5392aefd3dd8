import HttpLifecycle.Proofs.Connection.Fate
import HttpLifecycle.Proofs.Connection.Ledger
import Mathlib.Data.List.Basic

namespace HttpLifecycle

/-- What a stream has in store for the responses that are bound to it. -/
inductive Hearing where
  | bound (tag : String)
  | told (tag : String) (cause : AbortCause)
  | recorded (cause : Option AbortCause)
  deriving DecidableEq, Repr

namespace Hearing

def ofAnswer (tag : String) : Except Error Unit → List Hearing
  | .ok () => [.bound tag]
  | .error _ => []

end Hearing

def Effect.hearing? : Effect → Option Hearing
  | .action _ (.bind tag) .done => some (.bound tag)
  | .abortResponse _ tag cause => some (.told tag cause)
  | .record a => some (.recorded a.cause)
  | _ => none

def hearingsOf (es : List Effect) : List Hearing := es.filterMap Effect.hearing?

/-- The responses that were bound since the last record, and what they were
told since. -/
structure Audience where
  bound : List String := []
  told : List (String × AbortCause) := []
  deriving DecidableEq, Repr

namespace Audience

def note (a : Audience) : Hearing → Audience
  | .bound tag => { a with bound := a.bound ++ [tag] }
  | .told tag cause => { a with told := a.told ++ [(tag, cause)] }
  | .recorded _ => {}

def after (a : Audience) (hs : List Hearing) : Audience := hs.foldl note a

/-- A failure is due to everybody once, and a success to nobody. -/
def due (a : Audience) : Option AbortCause → List (String × AbortCause)
  | none => []
  | some cause => a.bound.map (·, cause)

def Even (a : Audience) (cause : Option AbortCause) : Prop := a.told.Perm (a.due cause)

/-- Whatever goes on record, the audience has heard just that. -/
def Served : Audience → List Hearing → Prop
  | _, [] => True
  | a, h :: rest => (∀ cause, h = .recorded cause → a.Even cause) ∧ (a.note h).Served rest

variable {a : Audience} {hs gs : List Hearing}

theorem after_append : a.after (hs ++ gs) = (a.after hs).after gs := List.foldl_append

theorem served_append : a.Served (hs ++ gs) ↔ a.Served hs ∧ (a.after hs).Served gs := by
  induction hs generalizing a with
  | nil => exact (true_and _).to_iff.symm
  | cons h rest ih =>
      show _ ∧ (a.note h).Served (rest ++ gs) ↔ _
      rw [ih]
      exact and_assoc.symm

theorem served_unrecorded (h : ∀ cause, .recorded cause ∉ hs) : a.Served hs := by
  induction hs generalizing a with
  | nil => trivial
  | cons g rest ih =>
      refine ⟨fun cause hg => ?_, ih fun cause hmem => h cause (List.mem_cons_of_mem g hmem)⟩
      exact absurd (hg ▸ List.mem_cons_self) (h cause)

end Audience

variable {es fs : List Effect} {stream s : StreamId}

theorem hearingsOf_append : hearingsOf (es ++ fs) = hearingsOf es ++ hearingsOf fs :=
  List.filterMap_append

theorem hearingsOf_nil (h : ∀ e ∈ es, e.hearing? = none) : hearingsOf es = [] :=
  List.filterMap_eq_nil_iff.mpr h

theorem hearingsOf_ofGate (es : List Gate.Event) : hearingsOf (es.map .ofGate) = [] := by
  apply hearingsOf_nil
  intro e he
  obtain ⟨g, -, rfl⟩ := List.mem_map.mp he
  cases g with
  | note n => rfl
  | signal k => cases k <;> rfl

theorem hearing?_about {e : Effect} {h : Hearing} (he : e.hearing? = some h) :
    ∃ s, e.about s = true := by
  cases e with
  | action t a r => exact ⟨t, beq_self_eq_true t⟩
  | abortResponse t tag cause => exact ⟨t, beq_self_eq_true t⟩
  | record a => exact ⟨a.stream, beq_self_eq_true a.stream⟩
  | _ => contradiction

theorem hearingsOf_within (h : Within s es) : hearingsOf (storyOf s es) = hearingsOf es := by
  rw [hearingsOf, storyOf, hearingsOf, List.filterMap_filter]
  apply List.filterMap_congr
  intro e he
  cases hheard : e.hearing? with
  | none => exact ite_self none
  | some g =>
      obtain ⟨t, ht⟩ := hearing?_about hheard
      rw [if_pos (h e he t ht ▸ ht)]

theorem Inner.unrecorded (h : Inner es) (cause : Option AbortCause) :
    .recorded cause ∉ hearingsOf es := by
  intro hmem
  obtain ⟨e, he, hheard⟩ := List.mem_filterMap.mp hmem
  have hinner := h e he
  cases e with
  | action t a r => cases a <;> cases r <;> simp [Effect.hearing?] at hheard
  | abortResponse t tag k => simp [Effect.hearing?] at hheard
  | _ => contradiction

namespace Request

/-- A failed request has told all that were bound to it, and one that has not
failed holds the only response that was. -/
structure Heard (r : Request) (a : Audience) : Prop where
  even : a.Even r.cause
  bound : r.cause = none → a.bound = r.response.toList

variable {r t : Request} {a : Audience}

theorem Heard.same (h : r.Heard a) (hcause : t.cause = r.cause)
    (hresponse : t.response = r.response) : t.Heard a := by
  obtain ⟨heven, hbound⟩ := h
  rw [← hcause] at heven hbound
  rw [← hresponse] at hbound
  exact ⟨heven, hbound⟩

theorem Heard.bind (h : r.Heard a) (tag : String) :
    (r.bind tag).state.Heard
      (a.after (hearingsOf (r.bind tag).events ++ Hearing.ofAnswer tag (r.bind tag).result)) := by
  by_cases hsome : r.response.isSome = true
  · rw [Request.bind, if_pos hsome]
    exact h
  · have hnone : r.response = none := by simpa using hsome
    obtain ⟨heven, hbound⟩ := h
    rw [Request.bind, if_neg hsome]
    cases hc : r.cause with
    | none =>
        rw [hc] at heven
        have hbound : a.bound = [] := by rw [hbound hc, hnone]; rfl
        refine ⟨heven, fun _ => ?_⟩
        show a.bound ++ [tag] = [tag]
        rw [hbound]
        rfl
    | some cause =>
        rw [hc] at heven
        have hall : (a.told ++ [(tag, cause)]).Perm ((a.bound ++ [tag]).map (·, cause)) := by
          rw [List.map_append]
          exact heven.append_right _
        exact ⟨hall, fun hopen => by contradiction⟩

theorem Heard.fail (h : r.Heard a) (cause : AbortCause) (reset : Bool) :
    (r.fail cause reset).state.Heard (a.after (hearingsOf (r.fail cause reset).events)) := by
  by_cases hover : r.terminal = true
  · rw [fail_over hover]
    exact h
  · have hopen : r.cause = none := by
      rw [terminal] at hover
      simp_all
    obtain ⟨heven, hbound⟩ := h
    rw [hopen] at heven
    have htold : a.told = [] := List.perm_nil.mp heven
    have hresponse := hbound hopen
    rw [Request.fail, if_neg hover]
    refine ⟨?_, fun hnone => by contradiction⟩
    cases hr : r.response with
    | none =>
        rw [hr] at hresponse
        show a.told.Perm (a.bound.map (·, cause))
        rw [htold, hresponse]
        exact .refl []
    | some tag =>
        rw [hr] at hresponse
        show (a.told ++ [(tag, cause)]).Perm (a.bound.map (·, cause))
        rw [htold, hresponse]
        exact .refl [(tag, cause)]

theorem Heard.abort (h : r.Heard a) (i : Intake) (cause : AbortCause) (reset : Bool) :
    (r.abort i cause reset).state.1.Heard
      (a.after (hearingsOf (r.abort i cause reset).events)) := by
  obtain ⟨mode, hs⟩ := r.abort_state i cause reset
  rw [abort_events, hs]
  exact (h.fail cause reset).same rfl rfl

theorem hearingsOf_bind (stream : StreamId) (tag : String) (result : Except Error Unit) :
    hearingsOf [.action stream (.bind tag) (.ofResult result)] = Hearing.ofAnswer tag result := by
  cases result with
  | ok u => rfl
  | error e => rfl

theorem Heard.complete (h : r.Heard a) : r.complete.1.Heard a := by
  obtain ⟨completed, hs⟩ := r.complete_state
  rw [hs]
  exact h.same rfl rfl

theorem Heard.perform (h : r.Heard a) (i : Intake) (action : Action) :
    (r.perform i action).state.1.Heard (a.after (hearingsOf
      ((r.perform i action).events ++ [.action r.stream action (r.perform i action).result]))) := by
  rw [hearingsOf_append]
  cases action with
  | bind tag =>
      have hbind := h.bind tag
      rw [← hearingsOf_bind r.stream] at hbind
      exact hbind
  | takeBody =>
      obtain ⟨mode, hs⟩ := r.perform_takeBody i
      have hsilent : hearingsOf (r.perform i .takeBody).events = [] := by
        rw [Request.perform]
        split
        · exact hearingsOf_ofGate _
        · rfl
      rw [hsilent, hs]
      exact h.same rfl rfl
  | takeAggregated =>
      obtain ⟨mode, hs⟩ := r.takeAggregated_state
      have hsame : r.takeAggregated.1.Heard a := by
        rw [hs]
        exact h.same rfl rfl
      exact hsame
  | abort cause reset =>
      have habort := h.abort i cause reset
      rw [← List.append_nil (hearingsOf _)] at habort
      exact habort
  | complete => exact h.complete

theorem Heard.performAll (h : r.Heard a) (i : Intake) (actions : List Action) :
    (r.performAll i actions).state.1.Heard
      (a.after (hearingsOf (r.performAll i actions).events)) := by
  induction actions generalizing r i a with
  | nil => exact h
  | cons action rest ih =>
      have hrest := ih (h.perform i action) (r.perform i action).state.2
      rw [← Audience.after_append, ← hearingsOf_append, List.append_assoc] at hrest
      exact hrest

theorem heard_opened (o : Opening) (i : Intake) : (ofOpening o i).1.Heard {} := by
  obtain ⟨exchange, limit, mode, hr⟩ := ofOpening_state i o
  rw [hr]
  exact ⟨.refl [], fun _ => rfl⟩

theorem Heard.tooMuch {s : Step (Request × Intake) Effect (Except Error Unit)} {n : Nat}
    {cause : AbortCause} (h : r.Heard a) (hover : r.TooMuch n s cause) :
    s.state.1.Heard (a.after (hearingsOf (r.tells cause))) := by
  obtain ⟨hstate, htold⟩ := fail_open hover.live cause true
  have hfail := h.fail cause true
  rw [← hearingsOf_within (r.within_fail cause true), htold, hstate] at hfail
  exact hfail.same hover.cause hover.response

theorem Heard.toAborted {i j : Intake} {cause : AbortCause} (h : r.Heard a)
    (hc : r.cause = some cause) (ht : r.toAborted? i cause = some (t, j)) : t.Heard a := by
  have heven := h.even
  rw [hc] at heven
  rw [toAborted?] at ht
  split at ht
  · obtain ⟨rfl, -⟩ := Prod.mk.inj (Option.some.inj ht)
    exact ⟨heven, fun hnone => by contradiction⟩
  · contradiction

theorem hearingsOf_parting (now : Instant) : hearingsOf (r.parting now) = [.recorded r.cause] := by
  rw [parting, hearingsOf_append]
  split <;> rfl

theorem hearingsOf_served (h : r.stream = stream) (i : Intake) (actions : List Action) :
    hearingsOf (.dispatch r :: storyOf stream (r.performAll i actions).events) =
      hearingsOf (r.performAll i actions).events := by
  subst h
  exact hearingsOf_within (r.within_performAll i actions)

end Request

def Audience.Of (a : Audience) : Option Request → Prop
  | none => a = {}
  | some r => r.Heard a

/-- What happens to a stream is right by its audience, and leaves the right
one. -/
structure Hears (a : Audience) (hs : List Hearing) (new : Option Request) : Prop where
  served : a.Served hs
  left : (a.after hs).Of new

namespace Hears

variable {a : Audience} {hs gs : List Hearing} {new last : Option Request} {r : Request}

theorem trans (h : Hears a hs new) (g : Hears (a.after hs) gs last) : Hears a (hs ++ gs) last where
  served := Audience.served_append.mpr ⟨h.served, g.served⟩
  left := by
    rw [Audience.after_append]
    exact g.left

theorem stays (hnone : ∀ cause, .recorded cause ∉ hs) (h : r.Heard (a.after hs)) :
    Hears a hs (some r) :=
  ⟨Audience.served_unrecorded hnone, h⟩

theorem leaves (hnone : ∀ cause, .recorded cause ∉ hs) (h : r.Heard (a.after hs)) :
    Hears a (hs ++ [.recorded r.cause]) none := by
  refine (stays hnone h).trans ⟨⟨fun cause hsame => ?_, trivial⟩, rfl⟩
  obtain rfl := Hearing.recorded.inj hsame
  exact h.even

end Hears

namespace Connection

/-- The application binds a response itself, and what it is answered. -/
def answered (c : Connection) (stream : StreamId) (x : Call) : List Hearing :=
  match x.input with
  | .event (.setResponse s tag) => if s = stream then Hearing.ofAnswer tag (c.perform x).2 else []
  | _ => []

def heard (c : Connection) (stream : StreamId) (x : Call) : List Hearing :=
  hearingsOf (c.news stream x) ++ c.answered stream x

def hearings (c : Connection) (stream : StreamId) : List Call → List Hearing
  | [] => []
  | x :: rest => c.heard stream x ++ (c.after x).hearings stream rest

variable {c : Connection} {x : Call} {a : Audience} {hs : List Hearing} {new : Option Request}

theorem answered_nil (h : ∀ tag, x.input ≠ .event (.setResponse s tag)) : c.answered s x = [] := by
  rw [answered]
  split
  · rename_i t tag hx
    rw [if_neg]
    rintro rfl
    exact h tag hx
  · rfl

theorem answered_vacant (h : x.input.subject? = some s → c.find? s = none) :
    c.answered s x = [] := by
  rw [answered]
  split
  · rename_i t tag hx
    split
    · rename_i hid
      subst hid
      have hnone : c.find? t = none := h (by rw [hx]; rfl)
      have hanswer : (c.perform x).2 = .error (.unknownStream t) := by
        rw [perform, hx]
        simp only [handle, setResponse, hnone]
      rw [hanswer]
      rfl
    · rfl
  · rfl

theorem answered_bound {tag : String} {r : Request} (hx : x.input = .event (.setResponse s tag))
    (h : c.find? s = some r) : c.answered s x = Hearing.ofAnswer tag (r.bind tag).result := by
  have hanswer : (c.perform x).2 = (r.bind tag).result := by
    rw [perform, hx]
    simp only [handle, setResponse, h]
  rw [answered, hx, ← hanswer]
  exact if_pos rfl

theorem Fate.heard (hf : Fate c s x es new) (hfresh : c.reopens x = false)
    (h : a.Of (c.find? s)) : Hears a (hearingsOf es ++ c.answered s x) new := by
  have hopened {headers : Headers} {endOfStream : Bool}
      (hx : x.input = .event (.headers s headers endOfStream)) : a = {} := by
    rw [reopens, hx] at hfresh
    have hfree : c.find? s = none := by simpa using hfresh
    rwa [hfree] at h
  have hheld {r : Request} (hr : c.find? s = some r) : r.Heard a := by rwa [hr] at h
  cases hf with
  | spared hsubject =>
      rw [answered_vacant fun hs => (hsubject hs).1]
      exact ⟨trivial, h⟩
  | refused hx hopen =>
      rw [answered_nil (by simp [hx])]
      exact ⟨trivial, h⟩
  | opened hx hopen hr hready =>
      rw [answered_nil (by simp [hx]), List.append_nil, hopened hx, hr]
      exact .stays (by simp [hearingsOf]) (Request.heard_opened _ _)
  | @served headers endOfStream r i actions hx hopen hr hready =>
      have hstream : r.stream = s := hr ▸ (Request.ofOpening_eq _ _).1
      have hheard : r.Heard {} := hr ▸ Request.heard_opened _ _
      rw [answered_nil (by simp [hx]), List.append_nil, hopened hx, r.hearingsOf_served hstream]
      exact .stays (r.inner_performAll i actions).unrecorded (hheard.performAll i actions)
  | @bound tag r hx hr =>
      rw [answered_bound hx hr]
      refine .stays (fun cause hmem => ?_) ((hheld hr).bind tag)
      rcases List.mem_append.mp hmem with hmem | hmem
      · exact (r.inner_bind tag).unrecorded cause hmem
      · cases hresult : (r.bind tag).result with
        | ok u => simp [hresult, Hearing.ofAnswer] at hmem
        | error e => simp [hresult, Hearing.ofAnswer] at hmem
  | @fed bytes endOfStream r t hx hr ht htaken hready =>
      rw [answered_nil (by simp [hx]), List.append_nil, ht]
      exact .stays (by simp [hearingsOf]) ((hheld hr).same htaken.cause htaken.response)
  | @gathered bytes endOfStream r t i actions hx hr ht htaken hwaits hready =>
      have hstream : t.stream = s :=
        ht ▸ (r.sameOpening_onData _ _ _).stream.trans (find?_stream hr)
      have hheard : t.Heard a := ht ▸ (hheld hr).same htaken.cause htaken.response
      rw [answered_nil (by simp [hx]), List.append_nil, t.hearingsOf_served hstream]
      exact .stays (t.inner_performAll i actions).unrecorded (hheard.performAll i actions)
  | @burst bytes endOfStream r t cause hx hr ht hover hmode =>
      have hheard : t.Heard (a.after (hearingsOf (r.tells cause))) := ht ▸ (hheld hr).tooMuch hover
      rw [answered_nil (by simp [hx]), List.append_nil, hearingsOf_append, t.hearingsOf_parting]
      exact .leaves (r.inner_tells cause).unrecorded hheard
  | @overrun bytes endOfStream r t q cause i j actions hx hr ht hover hmode hq =>
      have hheard : t.Heard (a.after (hearingsOf (r.tells cause))) := ht ▸ (hheld hr).tooMuch hover
      have hcause : t.cause = some cause := ht ▸ hover.cause
      have hstays := (r.sameOpening_onData c.intake bytes endOfStream).trans
        (ht ▸ Request.sameOpening_toAborted hq)
      have hstream : q.stream = s := hstays.stream.trans (find?_stream hr)
      have hdone := (hheard.toAborted hcause hq).performAll j actions
      have hinner := inner_append (r.inner_tells cause) (q.inner_performAll j actions)
      rw [← Audience.after_append, ← hearingsOf_append] at hdone
      rw [answered_nil (by simp [hx]), List.append_nil, hearingsOf_append, hearingsOf_append,
        Request.hearingsOf_parting, q.hearingsOf_served hstream, ← List.append_assoc,
        ← hearingsOf_append]
      exact .leaves hinner.unrecorded hdone
  | @completed r hx hr =>
      have hleaves : Hears a ([] ++ [.recorded r.complete.1.cause]) none :=
        .leaves (by simp) (hheld hr).complete
      rw [answered_nil (by simp [hx]), List.append_nil]
      exact hleaves
  | @cancelled cause r hx hr =>
      obtain rfl := find?_stream hr
      rw [answered_nil (by simp [hx]), List.append_nil, hearingsOf_append,
        Request.hearingsOf_parting,
        hearingsOf_within (r.within_fail cause true)]
      exact .leaves (r.inner_fail cause true).unrecorded ((hheld hr).fail cause true)
  | @ended cause r hx hr =>
      obtain rfl := find?_stream hr
      rw [answered_nil fun tag => hx.ne rfl (by simp), List.append_nil, Request.lost,
        hearingsOf_append,
        hearingsOf_within (r.within_fail cause false)]
      exact .leaves (r.inner_fail cause false).unrecorded ((hheld hr).fail cause false)

theorem run_hears (hd : Distinct c) {xs : List Call} (hfresh : c.Fresh xs)
    (h : a.Of (c.find? s)) : Hears a (c.hearings s xs) ((c.run xs).find? s) := by
  induction xs generalizing c a with
  | nil => exact ⟨trivial, h⟩
  | cons x rest ih =>
      obtain ⟨es, hstory, hf⟩ := after_fate hd s x
      have hcall := hf.heard hfresh.1 h
      rw [← news_eq hstory] at hcall
      exact hcall.trans (ih (after_distinct hd x) hfresh.2 hcall.left)

/-- As long as no stream is asked for again while it is open, every response
that was bound to a stream is told once of the failure that goes on record for
it, whichever came first, and of nothing else. What is still open has told all
of its failure, if it has one. -/
theorem responses_told (id : ConnectionId) (protocol : Protocol) (config : Config)
    (routes : Resolver) (handler : Handler) (start : Instant) (xs : List Call)
    (h : (create id protocol config routes handler start).Fresh xs) (s : StreamId) :
    let fresh := create id protocol config routes handler start
    let hs := fresh.hearings s xs
    ({} : Audience).Served hs ∧
      (({} : Audience).after hs).Even (((fresh.run xs).find? s).bind (·.cause)) := by
  intro fresh hs
  have hd : Distinct fresh := distinct_create id protocol config routes handler start
  obtain ⟨hserved, hlast⟩ : Hears {} hs ((fresh.run xs).find? s) := run_hears hd h rfl
  refine ⟨hserved, ?_⟩
  cases hopen : (fresh.run xs).find? s with
  | none =>
      rw [hopen, Audience.Of] at hlast
      rw [hlast]
      exact .refl []
  | some r =>
      rw [hopen] at hlast
      exact hlast.even

/-- One response is bound before the body goes over its limit and one is turned
away. The service that gets to see the failure binds one more. -/
theorem responses_told_overrun :
    let c := create 1 .h2 {} (Routes.resolver [("/up", ⟨"up", .unary, some 3, false⟩)])
      (fun _ _ => [.bind "late"]) 0
    let xs : List Call := [⟨.event (.headers 1 { path := "/up" } false), 1⟩,
      ⟨.event (.setResponse 1 "early"), 2⟩, ⟨.event (.setResponse 1 "second"), 3⟩,
      ⟨.event (.data 1 [0, 0, 0, 0] false), 4⟩]
    let cause := .limitExceeded 3 4
    c.Fresh xs ∧
      c.hearings 1 xs = [.bound "early", .told "early" cause, .told "late" cause, .bound "late",
        .recorded (some cause)] ∧
      ({} : Audience).Served (c.hearings 1 xs) := by
  intro c xs cause
  have hfresh : c.Fresh xs := by decide +kernel
  have hhearings : c.hearings 1 xs = [.bound "early", .told "early" cause, .told "late" cause,
      .bound "late", .recorded (some cause)] := by decide +kernel
  obtain ⟨hserved, -⟩ := responses_told 1 .h2 {}
    (Routes.resolver [("/up", ⟨"up", .unary, some 3, false⟩)]) (fun _ _ => [.bind "late"]) 0 xs
    hfresh 1
  refine ⟨hfresh, hhearings, ?_⟩
  assumption

end Connection

end HttpLifecycle
