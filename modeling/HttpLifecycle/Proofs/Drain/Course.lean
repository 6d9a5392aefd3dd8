import HttpLifecycle.Drain
import Mathlib.Data.List.Induction

namespace HttpLifecycle.Drain

/-- What is asked of a drain. Times need not go up. -/
inductive Call where
  | start (reason : Reason) (wait : Duration) (now : Instant)
  | force (reason : Reason) (now : Instant)
  | cancel
  | poll (now : Instant)
  deriving DecidableEq, Repr

def Event.isHook : Event → Bool
  | .note _ => false
  | .announce _ | .finalize _ => true

def perform (k : Clock) (d : Drain) : Call → Drain × List Event
  | .start reason wait now =>
    ((d.startOn k reason wait now).state, (d.startOn k reason wait now).events)
  | .force reason now => ((d.force reason now).state, (d.force reason now).events)
  | .cancel => (d.cancel.state, d.cancel.events)
  | .poll now => ((d.poll now).state, (d.poll now).events)

def after (k : Clock) (d : Drain) (x : Call) : Drain := (d.perform k x).1

def hooks (k : Clock) (d : Drain) (x : Call) : List Event :=
  (d.perform k x).2.filter Event.isHook

def run (k : Clock) (d : Drain) (xs : List Call) : Drain := xs.foldl (after k) d

def hooked (k : Clock) (d : Drain) : List Call → List Event
  | [] => []
  | x :: rest => d.hooks k x ++ (d.after k x).hooked k rest

/-- The call sets no end that the clock cannot tell. -/
def Answers (k : Clock) (d : Drain) : Call → Prop
  | .start _ wait now => d.phase = .idle → wait = 0 ∨ k.tells (now + wait) = true
  | _ => True

def Answered (k : Clock) (d : Drain) : List Call → Prop
  | [] => True
  | x :: rest => d.Answers k x ∧ (d.after k x).Answered k rest

instance (k : Clock) (d : Drain) : (x : Call) → Decidable (d.Answers k x)
  | .start _ wait now =>
    inferInstanceAs (Decidable (d.phase = .idle → wait = 0 ∨ k.tells (now + wait) = true))
  | .force .. | .cancel | .poll _ => .isTrue trivial

instance decidableAnswered (k : Clock) : (d : Drain) → (xs : List Call) →
    Decidable (d.Answered k xs)
  | _, [] => .isTrue trivial
  | d, x :: rest => @instDecidableAnd _ _ _ (decidableAnswered k (d.after k x) rest)

namespace Call

def reason? : Call → Option Reason
  | .start reason _ _ | .force reason _ => some reason
  | .cancel | .poll _ => none

def wish? : Call → Option Reason
  | .start reason _ _ => some reason
  | _ => none

end Call

def wishes (xs : List Call) : List Reason := xs.filterMap Call.wish?

/-- The first wish is granted. Only the application's own gives way, to the first
one that the protocol requires. -/
def granted? : List Reason → Option Reason
  | [] => none
  | first :: later =>
    if first = .appRequested then some ((later.find? Reason.required).getD first) else some first

/-- The end that the first start sets, unless it was cancelled since. -/
def window? : List Call → Option Instant
  | [] => none
  | .start _ wait now :: rest => if wait = 0 ∨ .cancel ∈ rest then none else some (now + wait)
  | _ :: rest => window? rest

/-- What ends a drain that is still open: a start with no time to wait, the first
look at the clock past the window, or force. -/
def Ends (past : List Call) : Call → Prop
  | .start _ wait _ => wait = 0 ∧ wishes past = []
  | .force _ _ => True
  | .cancel => False
  | .poll now => ∃ at_, window? past = some at_ ∧ at_ ≤ now

def Over (xs : List Call) : Prop := ∃ past x rest, xs = past ++ x :: rest ∧ Ends past x

variable {k : Clock} {d : Drain} {xs : List Call} {x : Call} {hs : List Event}

theorem run_concat (k : Clock) (d : Drain) (xs : List Call) (x : Call) :
    d.run k (xs ++ [x]) = (d.run k xs).after k x := List.foldl_append

theorem hooked_concat (k : Clock) (d : Drain) (xs : List Call) (x : Call) :
    d.hooked k (xs ++ [x]) = d.hooked k xs ++ (d.run k xs).hooks k x := by
  induction xs generalizing d with
  | nil => exact List.append_nil _
  | cons y rest ih =>
      show d.hooks k y ++ (d.after k y).hooked k (rest ++ [x]) = _
      rw [ih, ← List.append_assoc]
      rfl

theorem answered_append (k : Clock) (d : Drain) (xs ys : List Call) :
    d.Answered k (xs ++ ys) ↔ d.Answered k xs ∧ (d.run k xs).Answered k ys := by
  induction xs generalizing d with
  | nil => simp [Answered, run]
  | cons x rest ih => exact (and_congr_right fun _ => ih (d.after k x)).trans and_assoc.symm

theorem wishes_append (xs ys : List Call) : wishes (xs ++ ys) = wishes xs ++ wishes ys :=
  List.filterMap_append

theorem wishes_concat (h : x.wish? = none) : wishes (xs ++ [x]) = wishes xs := by
  rw [wishes_append, wishes, wishes, List.filterMap_cons, h]
  exact List.append_nil _

theorem window?_unasked (h : wishes xs = []) (ys : List Call) :
    window? (xs ++ ys) = window? ys := by
  induction xs with
  | nil => rfl
  | cons x rest ih =>
      cases x with
      | start reason wait now => contradiction
      | force | cancel | poll => exact ih h

theorem window?_asked (h : wishes xs ≠ []) (ys : List Call) :
    window? (xs ++ ys) = if .cancel ∈ ys then none else window? xs := by
  induction xs with
  | nil => contradiction
  | cons x rest ih =>
      cases x with
      | start reason wait now =>
          show (if wait = 0 ∨ .cancel ∈ rest ++ ys then none else some (now + wait)) =
            if .cancel ∈ ys then none
            else if wait = 0 ∨ .cancel ∈ rest then none else some (now + wait)
          by_cases hys : Call.cancel ∈ ys <;> simp [List.mem_append, hys]
      | force | cancel | poll => exact ih h

theorem window?_none (h : wishes xs = []) : window? xs = none := by
  have hunasked := window?_unasked h []
  rw [List.append_nil] at hunasked
  exact hunasked

theorem granted?_concat {rs : List Reason} {current : Reason} (h : granted? rs = some current)
    (reason : Reason) :
    granted? (rs ++ [reason]) =
      some (if current = .appRequested ∧ reason.required then reason else current) := by
  cases rs with
  | nil => contradiction
  | cons first later =>
      rw [granted?] at h
      show (if first = .appRequested then
        some (((later ++ [reason]).find? Reason.required).getD first) else some first) = _
      by_cases hfirst : first = .appRequested
      · rw [if_pos hfirst] at h ⊢
        rw [List.find?_append]
        cases hlater : later.find? Reason.required with
        | none =>
            rw [hlater] at h
            obtain rfl := Option.some.inj h
            show some (([reason].find? Reason.required).getD first) = _
            cases hreq : reason.required <;> simp [hreq, hfirst]
        | some required =>
            rw [hlater] at h
            obtain rfl := Option.some.inj h
            have hreq := List.find?_some hlater
            have hne : required ≠ .appRequested := by
              rintro rfl
              contradiction
            simp [hne]
      · rw [if_neg hfirst] at h ⊢
        obtain rfl := Option.some.inj h
        simp [hfirst]

theorem over_concat : Over (xs ++ [x]) ↔ Over xs ∨ Ends xs x := by
  constructor
  · rintro ⟨past, y, rest, hxs, hends⟩
    rcases List.eq_nil_or_concat rest with rfl | ⟨before, z, rfl⟩
    · obtain ⟨rfl, hxy⟩ := List.append_inj' hxs rfl
      obtain rfl := List.singleton_inj.mp hxy
      exact .inr hends
    · rw [List.concat_eq_append, ← List.cons_append, ← List.append_assoc] at hxs
      exact .inl ⟨past, y, before, (List.append_inj' hxs rfl).1, hends⟩
  · rintro (⟨past, y, rest, rfl, hends⟩ | hends)
    · exact ⟨past, y, rest ++ [x], by simp, hends⟩
    · exact ⟨xs, x, [], rfl, hends⟩

theorem not_over_nil : ¬ Over [] := by
  rintro ⟨past, x, rest, hnil, -⟩
  simp at hnil

theorem after_rank (k : Clock) (d : Drain) (x : Call) :
    d.phase.rank ≤ (d.after k x).phase.rank := by
  cases x with
  | start reason wait now =>
      show d.phase.rank ≤ (d.startOn k reason wait now).state.phase.rank
      by_cases hidle : d.phase = .idle
      · rw [hidle]
        exact Nat.zero_le _
      · rw [startOn, if_pos hidle]
        show d.phase.rank ≤ (d.race reason).state.phase.rank
        rw [race]
        split <;> exact Nat.le_refl _
  | force reason now =>
      show d.phase.rank ≤ (d.force reason now).state.phase.rank
      rw [force]
      split
      · exact Nat.le_refl _
      · show d.phase.rank ≤ Phase.closed.rank
        cases d.phase <;> decide
  | cancel =>
      show d.phase.rank ≤ d.cancel.state.phase.rank
      rw [cancel]
      split <;> exact Nat.le_refl _
  | poll now =>
      show d.phase.rank ≤ (d.poll now).state.phase.rank
      rw [poll]
      split
      · show d.phase.rank ≤ Phase.closed.rank
        cases d.phase <;> decide
      · exact Nat.le_refl _

theorem start_granted {reason : Reason} {wait : Duration} {now : Instant}
    (h : d.Answers k (.start reason wait now)) :
    (d.startOn k reason wait now).result = some (.ok ()) ↔ d.phase = .idle := by
  rw [startOn]
  by_cases hidle : d.phase = .idle
  · simp only [hidle, ne_eq, not_true_eq_false, if_false, iff_true]
    split
    · rfl
    · rename_i hwait
      rw [if_pos ((h hidle).resolve_left hwait)]
  · rw [if_pos hidle, race]
    split <;> simp [hidle]

theorem unanswered {reason : Reason} {wait : Duration} {now : Instant}
    (h : ¬ d.Answers k (.start reason wait now)) :
    (d.startOn k reason wait now).result = none ∧
      d.after k (.start reason wait now) =
        { d with phase := .wait, reason := some reason, startedAt := some now } ∧
      d.hooks k (.start reason wait now) = [.announce reason] := by
  obtain ⟨hidle, hstop⟩ := Classical.not_imp.mp h
  obtain ⟨hwait, htold⟩ := not_or.mp hstop
  refine ⟨by simp [startOn, hidle, hwait, htold],
    by simp [after, perform, startOn, hidle, hwait, htold],
    by simp [hooks, perform, startOn, hidle, hwait, htold, Event.isHook]⟩

/-- Once a drain has begun no call sets an end, so each has an answer. -/
theorem answers_begun (h : d.phase ≠ .idle) (k : Clock) (x : Call) : d.Answers k x := by
  cases x with
  | start reason wait now => exact fun hidle => absurd hidle h
  | force | cancel | poll => trivial

theorem unanswered_goesOn (h : ¬ d.Answers k x) (xs : List Call) :
    ¬ Ends xs x ∧ ∀ r, .finalize r ∉ d.hooks k x := by
  cases x with
  | start reason wait now =>
      obtain ⟨-, -, hhooks⟩ := unanswered h
      exact ⟨fun hends => h fun _ => .inl hends.1, by simp [hhooks]⟩
  | force | cancel | poll => exact absurd trivial h

theorem force_reason {reason : Reason} (h : d.reason = some reason) (other : Reason)
    (now : Instant) : (d.force other now).state.reason = some reason := by
  rw [force]
  split
  · exact h
  · show some (d.reason.getD other) = _
    rw [h]
    rfl

theorem cancel_after (k : Clock) (d : Drain) :
    d.after k .cancel = { d with deadline := none } ∧ d.hooks k .cancel = [] := by
  cases d with
  | mk phase reason startedAt deadline =>
      cases deadline with
      | none => exact ⟨rfl, rfl⟩
      | some at_ => exact ⟨rfl, rfl⟩

theorem cancel_vain (h : d.cancel.result = false) (k : Clock) : d.after k .cancel = d := by
  rw [cancel] at h
  rw [after, perform, cancel]
  split
  · rename_i hpending
    simp [hpending] at h
  · rfl

theorem closed_after (h : d.phase = .closed) (hd : d.deadline = none) (k : Clock) (x : Call) :
    d.after k x = d ∧ d.hooks k x = [] := by
  cases x with
  | start reason wait now => simp [after, hooks, perform, startOn, race, h]
  | force reason now => simp [after, hooks, perform, force, h]
  | cancel => simp [after, hooks, perform, cancel, hd]
  | poll now => simp [after, hooks, perform, poll, h]

/-- The calls tell where a drain is, which deadline it has, for which reason it
goes, and which hooks it has called. -/
inductive Follows (xs : List Call) : Drain → List Event → Prop
  | idle (hopen : ¬ Over xs) (hnone : wishes xs = []) : Follows xs {} []
  | waiting (first reason : Reason) (startedAt : Option Instant) (hopen : ¬ Over xs)
      (hasked : wishes xs ≠ []) (hreason : granted? (wishes xs) = some reason) :
      Follows xs ⟨.wait, some reason, startedAt, window? xs⟩ [.announce first]
  | closed (announced : Option Reason) (reason : Reason) (startedAt : Option Instant)
      (hover : Over xs) :
      Follows xs ⟨.closed, some reason, startedAt, none⟩
        (announced.toList.map .announce ++ [.finalize reason])

/-- A call either ends an open drain, for the reason that the calls have settled,
or lets it go on. -/
structure Outcome (k : Clock) (xs : List Call) (x : Call) (d : Drain) (hs : List Event) :
    Prop where
  follows : Follows (xs ++ [x]) (d.after k x) (hs ++ d.hooks k x)
  ends : (∃ r, .finalize r ∈ d.hooks k x) ↔ ¬ Over xs ∧ Ends xs x
  reason : ∀ r, .finalize r ∈ d.hooks k x →
    (granted? (wishes (xs ++ [x]))).or x.reason? = some r ∧ (d.after k x).reason = some r

namespace Outcome

theorem goesOn (hf : Follows (xs ++ [x]) (d.after k x) (hs ++ d.hooks k x))
    (hhooks : ∀ r, .finalize r ∉ d.hooks k x) (hx : ¬ (¬ Over xs ∧ Ends xs x)) :
    Outcome k xs x d hs where
  follows := hf
  ends := ⟨fun ⟨r, hr⟩ => absurd hr (hhooks r), fun h => absurd h hx⟩
  reason r hr := absurd hr (hhooks r)

theorem last (announced : Option Reason) (reason : Reason) (startedAt : Option Instant)
    (hopen : ¬ Over xs) (hx : Ends xs x)
    (hafter : d.after k x = ⟨.closed, some reason, startedAt, none⟩)
    (hall : hs ++ d.hooks k x = announced.toList.map .announce ++ [.finalize reason])
    (hhooks : ∀ r, .finalize r ∈ d.hooks k x ↔ r = reason)
    (hreason : (granted? (wishes (xs ++ [x]))).or x.reason? = some reason) :
    Outcome k xs x d hs where
  follows := by
    rw [hafter, hall]
    exact .closed announced reason startedAt (over_concat.mpr (.inr hx))
  ends := ⟨fun _ => ⟨hopen, hx⟩, fun _ => ⟨reason, (hhooks reason).mpr rfl⟩⟩
  reason r hr := by
    obtain rfl := (hhooks r).mp hr
    exact ⟨hreason, by rw [hafter]⟩

end Outcome

theorem granted?_singleton (reason : Reason) : granted? [reason] = some reason := by
  rw [granted?]
  split <;> rfl

theorem outcome_idle (hopen : ¬ Over xs) (hnone : wishes xs = [])
    (hanswers : ({} : Drain).Answers k x) : Outcome k xs x {} [] := by
  have hstays {y : Call} (hy : ¬ Ends xs y) (hwish : y.wish? = none)
      (hafter : ({} : Drain).after k y = {}) (hhooks : ({} : Drain).hooks k y = []) :
      Outcome k xs y {} [] := by
    refine .goesOn ?_ (by simp [hhooks]) fun h => hy h.2
    rw [hafter, hhooks]
    exact .idle (fun h => (over_concat.mp h).elim hopen hy) ((wishes_concat hwish).trans hnone)
  cases x with
  | start reason wait now =>
      have hwishes : wishes (xs ++ [.start reason wait now]) = [reason] := by
        rw [wishes_append, hnone]
        rfl
      by_cases hwait : wait = 0
      · subst hwait
        refine .last (some reason) reason (some now) hopen ⟨rfl, hnone⟩ rfl rfl (fun r => ?_) ?_
        · show Event.finalize r ∈ [.announce reason, .finalize reason] ↔ _
          simp
        · rw [hwishes, granted?_singleton]
          rfl
      · have htold : k.tells (now + wait) = true := (hanswers rfl).resolve_left hwait
        have hx : ¬ Ends xs (.start reason wait now) := fun h => hwait h.1
        have hhooks : ({} : Drain).hooks k (.start reason wait now) = [.announce reason] := by
          simp [hooks, perform, startOn, hwait, htold, Event.isHook]
        have hafter : ({} : Drain).after k (.start reason wait now) =
            ⟨.wait, some reason, some now, some (now + wait)⟩ := by
          simp [after, perform, startOn, hwait, htold]
        have hwindow : window? (xs ++ [.start reason wait now]) = some (now + wait) := by
          rw [window?_unasked hnone]
          simp [window?, hwait]
        refine .goesOn ?_ (by simp [hhooks]) fun h => hx h.2
        rw [hafter, hhooks, ← hwindow]
        exact .waiting reason reason (some now) (fun h => (over_concat.mp h).elim hopen hx)
          (by simp [hwishes]) (by rw [hwishes, granted?_singleton])
  | force reason now =>
      refine .last none reason none hopen trivial rfl rfl (fun r => ?_) ?_
      · show Event.finalize r ∈ [.finalize reason] ↔ _
        simp
      · rw [wishes_concat rfl, hnone]
        rfl
  | cancel => exact hstays id rfl rfl rfl
  | poll now =>
      refine hstays ?_ rfl rfl rfl
      rintro ⟨at_, hat, -⟩
      rw [window?_none hnone] at hat
      contradiction

theorem outcome_waiting {first reason : Reason} {startedAt : Option Instant} (hopen : ¬ Over xs)
    (hasked : wishes xs ≠ []) (hreason : granted? (wishes xs) = some reason) (k : Clock)
    (x : Call) :
    Outcome k xs x ⟨.wait, some reason, startedAt, window? xs⟩ [.announce first] := by
  have hstays {y : Call} (later : Reason) (hy : ¬ Ends xs y)
      (hgranted : granted? (wishes (xs ++ [y])) = some later)
      (hafter : (⟨.wait, some reason, startedAt, window? xs⟩ : Drain).after k y =
        ⟨.wait, some later, startedAt, window? (xs ++ [y])⟩)
      (hhooks : (⟨.wait, some reason, startedAt, window? xs⟩ : Drain).hooks k y = []) :
      Outcome k xs y ⟨.wait, some reason, startedAt, window? xs⟩ [.announce first] := by
    refine .goesOn ?_ (by simp [hhooks]) fun h => hy h.2
    rw [hafter, hhooks]
    refine .waiting first later startedAt (fun h => (over_concat.mp h).elim hopen hy) ?_ hgranted
    simp [wishes_append, hasked]
  cases x with
  | start wish wait now =>
      refine hstays (if reason = .appRequested ∧ wish.required then wish else reason)
        (fun h => hasked h.2) ?_ ?_ ?_
      · rw [wishes_append]
        exact granted?_concat hreason wish
      · have hwindow : window? (xs ++ [.start wish wait now]) = window? xs := by
          rw [window?_asked hasked]
          simp
        rw [hwindow]
        by_cases hgives : reason = .appRequested ∧ wish.required <;>
          simp [after, perform, startOn, race, hgives]
      · by_cases hgives : reason = .appRequested ∧ wish.required <;>
          simp [hooks, perform, startOn, race, hgives, Event.isHook]
  | force wish now =>
      refine .last (some first) reason startedAt hopen trivial rfl rfl (fun r => ?_) ?_
      · show Event.finalize r ∈ [.finalize reason] ↔ _
        simp
      · rw [wishes_concat rfl, hreason]
        rfl
  | cancel =>
      obtain ⟨hafter, hhooks⟩ :=
        cancel_after k (⟨.wait, some reason, startedAt, window? xs⟩ : Drain)
      refine hstays reason id (by rw [wishes_concat rfl, hreason]) ?_ hhooks
      rw [hafter, window?_asked hasked]
      rfl
  | poll now =>
      have hwindow : window? (xs ++ [.poll now]) = window? xs := by
        rw [window?_asked hasked]
        simp
      by_cases hx : Ends xs (.poll now)
      · obtain ⟨at_, hat, hle⟩ := hx
        refine .last (some first) reason startedAt hopen ⟨at_, hat, hle⟩ ?_ ?_ (fun r => ?_) ?_
        · simp [after, perform, poll, hat, hle, finish]
        · simp [hooks, perform, poll, hat, hle, finish, Event.isHook]
        · simp [hooks, perform, poll, hat, hle, finish, Event.isHook]
        · rw [wishes_concat rfl, hreason]
          rfl
      · have hearly : (window? xs).any (· ≤ now) = false := by
          cases hat : window? xs with
          | none => rfl
          | some at_ => simpa using fun hle => hx ⟨at_, hat, hle⟩
        refine hstays reason hx (by rw [wishes_concat rfl, hreason]) ?_ ?_
        · simp [after, perform, poll, hearly, hwindow]
        · simp [hooks, perform, poll, hearly]

theorem Follows.outcome (h : Follows xs d hs) (hanswers : d.Answers k x) :
    Outcome k xs x d hs := by
  cases h with
  | idle hopen hnone => exact outcome_idle hopen hnone hanswers
  | waiting first reason startedAt hopen hasked hreason =>
      exact outcome_waiting hopen hasked hreason k x
  | closed announced reason startedAt hover =>
      obtain ⟨hafter, hhooks⟩ :=
        closed_after (d := ⟨.closed, some reason, startedAt, none⟩) rfl rfl k x
      refine .goesOn ?_ (by simp [hhooks]) fun h => h.1 hover
      rw [hafter, hhooks, List.append_nil]
      exact .closed announced reason startedAt (over_concat.mpr (.inl hover))

theorem follows_run (h : Answered k {} xs) : Follows xs (run k {} xs) (hooked k {} xs) := by
  induction xs using List.reverseRecOn with
  | nil => exact .idle not_over_nil rfl
  | append_singleton xs x ih =>
      obtain ⟨hpast, hx, -⟩ := (answered_append k {} xs [x]).mp h
      rw [run_concat, hooked_concat]
      exact ((ih hpast).outcome hx).follows

namespace Follows

theorem closed_iff (h : Follows xs d hs) : d.phase = .closed ↔ Over xs := by
  cases h with
  | idle hopen | waiting first reason startedAt hopen => simp [hopen]
  | closed announced reason startedAt hover => simp [hover]

theorem deadline (h : Follows xs d hs) :
    d.deadline = if d.phase = .wait then window? xs else none := by
  cases h <;> rfl

theorem hooks_order (h : Follows xs d hs) :
    (∃ r₀ r₁, hs <+: [.announce r₀, .finalize r₁]) ∨ ∃ r, hs <+: [.finalize r] := by
  cases h with
  | idle => exact .inr ⟨.serverShutdown, _, rfl⟩
  | waiting first reason => exact .inl ⟨first, reason, [.finalize reason], rfl⟩
  | closed announced reason =>
      cases announced with
      | none => exact .inr ⟨reason, [], rfl⟩
      | some first => exact .inl ⟨first, reason, [], rfl⟩

theorem after_deadline (h : Follows xs d hs) (hphase : d.phase ≠ .idle) (x : Call) :
    (d.after k x).deadline = d.deadline ∨ (d.after k x).deadline = none := by
  rw [(h.outcome (answers_begun hphase k x)).follows.deadline, h.deadline]
  cases h with
  | idle => contradiction
  | waiting first reason startedAt hopen hasked =>
      rw [window?_asked hasked]
      split
      · split
        · exact .inr rfl
        · exact .inl rfl
      · exact .inr rfl
  | closed announced reason startedAt hover =>
      rw [(closed_after rfl rfl k x).1]
      exact .inr rfl

end Follows

def Unscheduled (d : Drain) : Prop := d.phase ≠ .idle ∧ d.deadline = none

theorem Unscheduled.after (h : d.Unscheduled) (k : Clock) (x : Call) : (d.after k x).Unscheduled ∧
    ∀ r, .finalize r ∈ d.hooks k x → ∃ reason now, x = .force reason now := by
  obtain ⟨hphase, hnone⟩ := h
  cases x with
  | start reason wait now =>
      have hrace : d.after k (.start reason wait now) = (d.race reason).state ∧
          d.hooks k (.start reason wait now) = (d.race reason).events.filter Event.isHook := by
        simp [Drain.after, Drain.hooks, perform, startOn, hphase]
      rw [hrace.1, hrace.2, race]
      split
      · exact ⟨⟨hphase, hnone⟩, by simp [Event.isHook]⟩
      · exact ⟨⟨hphase, hnone⟩, by simp⟩
  | force reason now =>
      refine ⟨?_, fun _ _ => ⟨reason, now, rfl⟩⟩
      show (d.force reason now).state.Unscheduled
      rw [force]
      split
      · exact ⟨hphase, hnone⟩
      · exact ⟨nofun, rfl⟩
  | cancel =>
      obtain ⟨hafter, hhooks⟩ := cancel_after k d
      rw [hafter, hhooks]
      exact ⟨⟨hphase, rfl⟩, by simp⟩
  | poll now => simp [Drain.after, Drain.hooks, perform, poll, hnone, Unscheduled, hphase]

theorem Unscheduled.forced (h : d.Unscheduled) {r : Reason}
    (hr : .finalize r ∈ (d.run k xs).hooks k x) : ∃ reason now, x = .force reason now := by
  induction xs generalizing d with
  | nil => exact (h.after k x).2 r hr
  | cons y rest ih => exact ih (h.after k y).1 hr

theorem Follows.unscheduled (h : Follows xs d hs) (hcancel : d.cancel.result = true) (k : Clock) :
    (d.after k .cancel).Unscheduled := by
  rw [(cancel_after k d).1]
  cases h with
  | idle | closed => contradiction
  | waiting => exact ⟨nofun, rfl⟩

/-- A drain that was stopped in its start has been announced, and ends by force
if at all. -/
theorem Follows.stopped (h : Follows xs d hs) {reason : Reason} {wait : Duration} {now : Instant}
    (hx : ¬ d.Answers k (.start reason wait now)) :
    (d.startOn k reason wait now).result = none ∧
      hs ++ d.hooks k (.start reason wait now) = [.announce reason] ∧
      (d.after k (.start reason wait now)).Unscheduled := by
  obtain ⟨hresult, hafter, hhooks⟩ := unanswered hx
  rw [hhooks, hafter]
  cases h with
  | idle => exact ⟨hresult, rfl, nofun, rfl⟩
  | waiting | closed => exact absurd (answers_begun (by simp) k _) hx

/-- The course of a drain, from the calls alone. -/
structure Course (k : Clock) (xs : List Call) (d : Drain) (hs : List Event) : Prop where
  started : ∀ reason wait now, d.Answers k (.start reason wait now) →
    ((d.startOn k reason wait now).result = some (.ok ()) ↔ d.phase = .idle)
  /-- A start without an answer has announced the drain, and only force ends it. -/
  stopped : ∀ reason wait now, ¬ d.Answers k (.start reason wait now) →
    (d.startOn k reason wait now).result = none ∧
      hs ++ d.hooks k (.start reason wait now) = [.announce reason] ∧
      ∀ ys x r, .finalize r ∈ ((d.after k (.start reason wait now)).run k ys).hooks k x →
        ∃ reason now, x = .force reason now
  hooks : (∃ r₀ r₁, hs <+: [.announce r₀, .finalize r₁]) ∨ ∃ r, hs <+: [.finalize r]
  forward : ∀ x, d.phase.rank ≤ (d.after k x).phase.rank
  /-- There is a deadline only while the drain waits, and then the one that the
  first start set. -/
  deadline : d.deadline = if d.phase = .wait then window? xs else none
  /-- A deadline is not moved and none is set again. -/
  unmoved : d.phase ≠ .idle → ∀ x,
    (d.after k x).deadline = d.deadline ∨ (d.after k x).deadline = none
  closed : d.phase = .closed ↔ Over xs
  /-- The first call that may end the drain does. -/
  ends : ∀ x, (∃ r, .finalize r ∈ d.hooks k x) ↔ ¬ Over xs ∧ Ends xs x
  /-- Once the pending end was cancelled only force brings one. With nothing
  pending there is nothing to cancel. -/
  cancelled : d.cancel.result = true → ∀ ys x r,
    .finalize r ∈ ((d.after k .cancel).run k ys).hooks k x → ∃ reason now, x = .force reason now
  vain : d.cancel.result = false → d.after k .cancel = d
  /-- The drain ends for the reason that was granted. Only where none was, force
  brings its own. -/
  reason : ∀ x r, .finalize r ∈ d.hooks k x →
    (granted? (wishes (xs ++ [x]))).or x.reason? = some r ∧ (d.after k x).reason = some r
  forced : ∀ reason, d.reason = some reason →
    ∀ other now, (d.force other now).state.reason = some reason
  done : d.phase = .closed → ∀ x, d.after k x = d ∧ d.hooks k x = []

/-- Every run of a drain takes the course that its calls prescribe, as long as
each of them has an answer. -/
theorem course_run (k : Clock) (xs : List Call) (h : Answered k {} xs) :
    Course k xs (run k {} xs) (hooked k {} xs) where
  started _ _ _ := start_granted
  stopped _ _ _ hx := by
    obtain ⟨hresult, hhooks, hafter⟩ := (follows_run h).stopped hx
    exact ⟨hresult, hhooks, fun _ _ _ => hafter.forced⟩
  hooks := (follows_run h).hooks_order
  forward := after_rank k _
  deadline := (follows_run h).deadline
  unmoved := (follows_run h).after_deadline
  closed := (follows_run h).closed_iff
  ends x := by
    by_cases hanswers : (run k {} xs).Answers k x
    · exact ((follows_run h).outcome hanswers).ends
    · obtain ⟨hx, hhooks⟩ := unanswered_goesOn hanswers xs
      exact ⟨fun ⟨r, hr⟩ => absurd hr (hhooks r), fun hends => absurd hends.2 hx⟩
  cancelled hcancel _ _ _ := ((follows_run h).unscheduled hcancel k).forced
  vain hcancel := cancel_vain hcancel k
  reason x r hr := by
    by_cases hanswers : (run k {} xs).Answers k x
    · exact ((follows_run h).outcome hanswers).reason r hr
    · exact absurd hr ((unanswered_goesOn hanswers xs).2 r)
  forced _ h := force_reason h
  done hclosed x := by
    refine closed_after hclosed ?_ k x
    rw [(follows_run h).deadline, hclosed]
    rfl

/-- A wait that the clock cannot tell comes too late to stop the drain. -/
theorem course_run_superseded :
    let k : Clock := ⟨some 20⟩
    let xs : List Call := [.cancel, .start .appRequested 5 10, .start .peerGoAway 90 11,
      .start .maxAge 0 12, .poll 14, .poll 15, .force .idleTimeout 16]
    Answered k {} xs ∧ hooked k {} xs = [.announce .appRequested, .finalize .peerGoAway] ∧
      Course k xs (run k {} xs) (hooked k {} xs) := by
  intro k xs
  have hanswered : Answered k {} xs := by decide
  exact ⟨hanswered, by decide, course_run k xs hanswered⟩

/-- There is nothing to cancel before the start, so a drain that was cancelled
then ends by the clock. A start whose end the clock cannot tell is not granted,
though the drain was idle. -/
theorem vain_cancel_ends_by_clock :
    hooked .endless {} [.cancel, .start .appRequested 5 10] = [.announce .appRequested] ∧
      (run .endless {} [.cancel, .start .appRequested 5 10]).hooks .endless (.poll 15) =
        [.finalize .appRequested] ∧
      (({} : Drain).startOn ⟨some 9223372036854775808000000000⟩ .appRequested
        18446744073709551615999999999 0).result = none := by
  decide

end HttpLifecycle.Drain
