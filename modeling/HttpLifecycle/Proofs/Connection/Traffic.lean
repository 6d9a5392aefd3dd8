import HttpLifecycle.Proofs.Connection.Outcome
import HttpLifecycle.Proofs.Intake.Balance

namespace HttpLifecycle.Connection

/-- What a connection and those who hold its bodies do. A holder may keep a
body for itself and read it whenever it likes, chunk by chunk or to the end. -/
inductive Act where
  | call (x : Call)
  | carry (stream : StreamId)
  | read (body : BodyId)
  | collect (body : BodyId) (allowance : Option Nat)
  | drop (body : BodyId)

/-- A holder's doings, and what the gate makes of them. -/
def attend {α : Type} (c : Connection) (s : Step Intake Gate.Event α) : Connection :=
  { c with intake := s.state }.emit (s.events.map .ofGate)

def act (c : Connection) : Act → Connection
  | .call x => c.after x
  | .carry stream => { c with intake := c.intake.forget stream }
  | .read body => c.attend (c.intake.read body)
  | .collect body allowance => c.attend (c.intake.collect body allowance)
  | .drop body => c.attend (c.intake.drop body)

def live (c : Connection) (acts : List Act) : Connection := acts.foldl act c

def fed (c : Connection) : Act → Bytes
  | .call x => c.inflow x
  | _ => []

/-- At no time do the bytes that wait in the bodies, with those just coming in,
come to more than a word can count. -/
def Fits (c : Connection) : List Act → Prop
  | [] => True
  | a :: rest => c.intake.buffered + (c.fed a).length < Word.size ∧ (c.act a).Fits rest

instance decidableFits : (c : Connection) → (acts : List Act) → Decidable (c.Fits acts)
  | _, [] => .isTrue trivial
  | c, a :: rest =>
    have := decidableFits (c.act a) rest
    inferInstanceAs (Decidable (_ ∧ _))

variable {c : Connection}

theorem act_distinct (h : Distinct c) (a : Act) : Distinct (c.act a) := by
  cases a with
  | call x => exact after_distinct h x
  | carry stream => exact h
  | read body => exact h
  | collect body allowance => exact h
  | drop body => exact h

theorem live_kept {P : Connection → Prop} (hact : ∀ {c : Connection}, P c → ∀ a, P (c.act a))
    (h : P c) (acts : List Act) : P (c.live acts) := by
  induction acts generalizing c with
  | nil => exact h
  | cons a rest ih => exact ih (hact h a)

theorem live_distinct (h : Distinct c) (acts : List Act) : Distinct (c.live acts) :=
  live_kept act_distinct h acts

theorem act_moves {R : Intake → Bytes → Prop} (hd : Distinct c) (a : Act)
    (h : c.fed a ≠ [] → R c.intake (c.fed a)) : c.intake.Moves R (c.act a).intake := by
  cases a with
  | call x => exact (fed_outcome hd x h).intake
  | carry stream => exact c.intake.moves_forget stream
  | read body => exact c.intake.moves_read body
  | collect body allowance => exact c.intake.moves_collect body allowance
  | drop body => exact c.intake.moves_drop body

theorem live_balanced (hd : Distinct c) (h : c.intake.Balanced) (acts : List Act)
    (hfits : c.Fits acts) : (c.live acts).intake.Balanced := by
  induction acts generalizing c with
  | nil => exact h
  | cons a rest ih =>
      obtain ⟨hroom, hrest⟩ := hfits
      exact ih (act_distinct hd a) ((act_moves hd a fun _ => hroom).balanced h) hrest

/-- Every byte that came in and is not accounted for lies in a body that
somebody holds, so nothing is held back once the bodies are empty or gone. -/
theorem unread_conserved (id : ConnectionId) (protocol : Protocol) (config : Config)
    (routes : Resolver) (handler : Handler) (start : Instant) (acts : List Act)
    (h : (create id protocol config routes handler start).Fits acts) :
    let c := (create id protocol config routes handler start).live acts
    c.intake.gate.unread = c.intake.buffered ∧
      ((∀ body ∈ c.intake.channels, body.Spent) →
        c.intake.gate.unread = 0 ∧ c.intake.gate.suspended = false) := by
  intro c
  have hfresh := distinct_create id protocol config routes handler start
  have hbalanced : c.intake.Balanced :=
    live_balanced hfresh (Intake.balanced_fresh config.marks) acts h
  exact ⟨hbalanced.unread, hbalanced.spent⟩

/-- Five bytes of six wait with a holder, and then it drops the body. -/
theorem unread_conserved_dropped :
    let acts : List Act := [.call ⟨.event (.headers 1 {} false), 0⟩,
      .call ⟨.event (.data 1 [7] false), 1⟩, .call ⟨.event (.data 1 [8, 8, 8, 8, 8] false), 2⟩,
      .carry 1, .read 0]
    let c := create 1 .h2 { marks := ⟨4, 2⟩ }
      (Routes.resolver [("/", ⟨"echo", .bidiStreaming, none, false⟩)]) (fun _ _ => [.takeBody]) 0
    c.Fits (acts ++ [.drop 0]) ∧
      ((c.live acts).intake.gate.unread = 5 ∧ (c.live acts).intake.gate.suspended = true) ∧
      (c.live (acts ++ [.drop 0])).intake.gate.unread = 0 ∧
      (c.live (acts ++ [.drop 0])).intake.gate.suspended = false := by
  intro acts c
  have hfits : c.Fits (acts ++ [.drop 0]) := by decide +kernel
  have h := unread_conserved 1 .h2 { marks := ⟨4, 2⟩ }
    (Routes.resolver [("/", ⟨"echo", .bidiStreaming, none, false⟩)]) (fun _ _ => [.takeBody]) 0 _
    hfits
  have hchannels : (c.live (acts ++ [.drop 0])).intake.channels = [⟨[], true, false⟩] := by
    decide +kernel
  dsimp only [c] at hchannels ⊢
  refine ⟨hfits, by decide +kernel, h.2 fun body hbody => ?_⟩
  rw [hchannels] at hbody
  obtain rfl := List.mem_singleton.mp hbody
  simp [Channel.Spent]

end HttpLifecycle.Connection
