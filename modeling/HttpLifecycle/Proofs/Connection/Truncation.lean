import HttpLifecycle.Proofs.Connection.Handling
import HttpLifecycle.Proofs.Connection.Traffic
import HttpLifecycle.Proofs.Intake.Account

namespace HttpLifecycle.Connection

def Act.asks? (c : Connection) : Act → Option BodyId
  | .read body => some body
  | .call ⟨.serve stream .next _, _⟩ | .call ⟨.serve stream .nextIfAny _, _⟩ =>
    c.intake.taken.lookup stream
  | _ => none

def gives (c : Connection) (b : BodyId) (a : Act) : List Chunk :=
  if a.asks? c = some b then (c.intake.read b).result.chunks else []

def given (c : Connection) (b : BodyId) : List Act → List Chunk
  | [] => []
  | a :: rest => c.gives b a ++ (c.act a).given b rest

def Act.call? : Act → Option Call
  | .call x => some x
  | _ => none

def ever (p : Connection → Call → Bool) (c : Connection) : List Act → Bool
  | [] => false
  | a :: rest => a.call?.any (p c) || ever p (c.act a) rest

/-- The last frame of the content that goes into a body came and was taken in. -/
def concluded (c : Connection) (b : BodyId) (acts : List Act) : Bool :=
  c.ever (fun c x => (c.owner? b).any (c.concludes x)) acts

/-- The request that fills a body went while nothing was wrong with it, and
before its content was complete. -/
def cutShort (c : Connection) (b : BodyId) (acts : List Act) : Bool :=
  c.ever (fun c x => (c.owner? b).any (c.cuts x)) acts

variable {c d : Connection} {b : BodyId} {past : List Chunk} {closed : Bool}

theorem ever_or (p q : Connection → Call → Bool) (acts : List Act) :
    c.ever (fun c x => p c x || q c x) acts = (c.ever p acts || c.ever q acts) := by
  induction acts generalizing c with
  | nil => rfl
  | cons a rest ih =>
      rw [ever, ever, ever, ih]
      cases a.call? with
      | none => rfl
      | some x =>
          show (p c x || q c x || _) = (p c x || _ || (q c x || _))
          rw [Bool.or_assoc, Bool.or_assoc, Bool.or_left_comm (q c x)]

theorem ever_endsClean (acts : List Act) :
    c.ever (fun c x => c.endsClean x b) acts = (c.concluded b acts || c.cutShort b acts) := by
  rw [concluded, cutShort, ← ever_or]
  congr 1
  funext c x
  rw [endsClean]
  cases c.owner? b <;> rfl

/-- What came of a body so far, for whoever holds it. -/
structure Account (c : Connection) (b : BodyId) (past : List Chunk) (closed : Bool) : Prop where
  told : ∀ ch, c.intake.channels[b]? = some ch → ch.held = true → ch.Told past closed
  unborn : c.intake.channels.length ≤ b → past = [] ∧ closed = false

theorem serves_serve (c : Connection) (stream : StreamId) (demand : Demand)
    (allowance : Option Nat) (now : Instant) :
    c.intake.Serves (fun b => c.gives b (.call ⟨.serve stream demand allowance, now⟩))
      (c.intake.serve stream demand allowance).state := by
  rw [Intake.serve]
  cases hl : c.intake.taken.lookup stream with
  | none =>
      refine Intake.serves_still rfl fun b ch _ => ?_
      cases demand <;> simp [gives, Act.asks?, hl]
  | some body =>
      cases demand with
      | next | nextIfAny =>
          have hread := c.intake.serves_read body
          rw [← hl] at hread
          exact hread
      | rest | drop => exact c.intake.serves_forget stream body
      | describe => exact Intake.serves_still rfl fun _ _ _ => rfl

theorem gives_unborn (h : c.intake.channels.length ≤ b) (a : Act) : c.gives b a = [] := by
  rw [gives]
  split
  · rw [Intake.read, List.getElem?_eq_none_iff.mpr h]
    rfl
  · rfl

theorem act_cases (c : Connection) (a : Act) :
    (∃ x, a = .call x ∧ x.input.serves = false) ∨
      c.intake.Serves (fun b => c.gives b a) (c.act a).intake ∧ (c.act a).streams = c.streams ∧
        ∀ b, a.call?.any (fun x => c.endsClean x b) = false := by
  cases a with
  | call x =>
      obtain ⟨input, now⟩ := x
      cases input with
      | serve stream demand allowance =>
          refine .inr ⟨c.serves_serve stream demand allowance now, rfl, fun b => ?_⟩
          show (c.owner? b).any _ = false
          simp [concludes, cuts, Input.ends]
      | _ => exact .inl ⟨_, rfl, rfl⟩
  | carry stream =>
      exact .inr ⟨Intake.serves_still rfl fun b ch _ => rfl, rfl, fun b => rfl⟩
  | read body => exact .inr ⟨c.intake.serves_read body, rfl, fun b => rfl⟩
  | collect body allowance => exact .inr ⟨c.intake.serves_drop body, rfl, fun b => rfl⟩
  | drop body => exact .inr ⟨c.intake.serves_drop body, rfl, fun b => rfl⟩

theorem act_owned (h : Owned c) (a : Act) : Owned (c.act a) := by
  rcases act_cases c a with ⟨x, rfl, hserves⟩ | ⟨hserved, hstreams, -⟩
  · exact (h.after hserves).owned
  · exact h.congr hstreams hserved.size hserved.writable

theorem grows_told {i j : Intake} {ch : Channel} (h : i.Grows j) (hb : i.channels.length ≤ b)
    (hc : j.channels[b]? = some ch) : ch.Told [] false := by
  have hadded {new : Channel} (hnew : (i.add new).1.channels[b]? = some ch) : ch = new := by
    have hlast : (i.channels ++ [new])[b]? = some ch := hnew
    rw [List.getElem?_append_right hb] at hlast
    exact List.mem_singleton.mp (List.mem_of_getElem? hlast)
  cases h with
  | same => exact absurd (List.getElem?_eq_some_iff.mp hc).1 (Nat.not_lt_of_le hb)
  | opened =>
      rw [hadded hc]
      exact .ongoing rfl (List.forall_mem_nil _)
  | failed cause =>
      rw [hadded hc]
      exact .failed [] cause rfl (List.forall_mem_nil _) rfl

theorem Account.handled (h : Account c b past closed) {clean : BodyId → Bool}
    (hd : Handled c clean d) (hopen : clean b = true → c.intake.writable b = true) :
    Account d b past (closed || clean b) := by
  obtain ⟨i, hgrows, hconducts⟩ := hd.intake
  have hnew (hle : c.intake.channels.length ≤ b) :
      past = [] ∧ closed = false ∧ clean b = false := by
    obtain ⟨hpast, hclosed⟩ := h.unborn hle
    refine ⟨hpast, hclosed, ?_⟩
    cases hc : clean b with
    | false => rfl
    | true => exact absurd (Intake.writable_lt (hopen hc)) (Nat.not_lt_of_le hle)
  refine ⟨fun e he hheld => ?_, fun hle => ?_⟩
  · have hlt : b < i.channels.length := hconducts.size ▸ (List.getElem?_eq_some_iff.mp he).1
    obtain ⟨e', he', hfares⟩ := hconducts.fares (List.getElem?_eq_getElem hlt)
    obtain rfl := Option.some.inj (he'.symm.trans he)
    have hshut (hc : clean b = true) : e'.writable = false := by
      have hw := hd.shut b hc
      rw [Intake.writable, he] at hw
      exact hw
    by_cases hold : b < c.intake.channels.length
    · have hsame := hgrows.getElem? hold
      rw [List.getElem?_eq_getElem hlt] at hsame
      refine (h.told _ hsame.symm (hfares.held hheld)).fares hfares hheld (fun hc => ?_) hshut
      obtain ⟨ch, hch, hw⟩ := Intake.writable_iff.mp (hopen hc)
      rwa [Option.some.inj (hsame.trans hch)]
    · obtain ⟨rfl, rfl, hclean⟩ := hnew (Nat.le_of_not_lt hold)
      have htold := grows_told hgrows (Nat.le_of_not_lt hold) (List.getElem?_eq_getElem hlt)
      refine htold.fares hfares hheld (fun hc => ?_) hshut
      rw [hclean] at hc
      contradiction
  · rw [hconducts.size] at hle
    obtain ⟨hpast, hclosed, hclean⟩ := hnew (Nat.le_trans hgrows.size hle)
    exact ⟨hpast, by rw [hclosed, hclean]; rfl⟩

theorem Account.served (h : Account c b past closed) {taken : BodyId → List Chunk}
    (hd : c.intake.Serves taken d.intake) (hnone : c.intake.channels.length ≤ b → taken b = []) :
    Account d b (past ++ taken b) closed := by
  refine ⟨fun e he hheld => ?_, fun hle => ?_⟩
  · have hlt : b < c.intake.channels.length := hd.size ▸ (List.getElem?_eq_some_iff.mp he).1
    obtain ⟨e', he', hyields⟩ := hd.yields (List.getElem?_eq_getElem hlt)
    obtain rfl := Option.some.inj (he'.symm.trans he)
    exact (h.told _ (List.getElem?_eq_getElem hlt) (hyields.held hheld).1).yields hyields hheld
  · rw [hd.size] at hle
    obtain ⟨rfl, hclosed⟩ := h.unborn hle
    exact ⟨hnone hle, hclosed⟩

theorem Account.act (h : Account c b past closed) (hc : Owned c) (a : Act) :
    Account (c.act a) b (past ++ c.gives b a)
      (closed || a.call?.any fun x => c.endsClean x b) := by
  rcases act_cases c a with ⟨x, rfl, hserves⟩ | ⟨hserved, -, hquiet⟩
  · have hnothing : c.gives b (.call x) = [] := by
      obtain ⟨input, now⟩ := x
      cases input with
      | serve => contradiction
      | _ => exact if_neg (by simp [Act.asks?])
    rw [hnothing, List.append_nil]
    refine h.handled (hc.after hserves) fun hclean => ?_
    obtain ⟨r, -, -, hw, -⟩ := hc.endsClean_owner hclean
    exact hw
  · rw [hquiet, Bool.or_false]
    exact h.served hserved fun hle => gives_unborn hle a

/-- What comes of a body over a run: what was read, what is left to read, and
whether it was ended cleanly. -/
theorem Account.live (h : Account c b past closed) (hc : Owned c) (acts : List Act) :
    Owned (c.live acts) ∧ Account (c.live acts) b (past ++ c.given b acts)
      (closed || c.ever (fun c x => c.endsClean x b) acts) := by
  induction acts generalizing c past closed with
  | nil =>
      rw [given, ever, List.append_nil, Bool.or_false]
      exact ⟨hc, h⟩
  | cons a rest ih =>
      rw [given, ever, ← List.append_assoc, ← Bool.or_assoc]
      exact ih (h.act hc a) (act_owned hc a)

/-- A reader who finds that a body is complete, chunk by chunk or all at once,
and who found no failure in it, has its request to thank for it: either the last
frame of its content came, or it went while nothing was wrong with it. Any other
body that is shut fails its reader, sooner or later, and it is shut once its
request is gone or has failed. -/
theorem clean_end_concluded_or_cut (id : ConnectionId) (protocol : Protocol) (config : Config)
    (routes : Resolver) (handler : Handler) (start : Instant) (acts : List Act) (b : BodyId)
    (h : ((create id protocol config routes handler start).live acts).intake.held b = true) :
    let fresh := create id protocol config routes handler start
    let c := fresh.live acts
    let ended := fresh.concluded b acts || fresh.cutShort b acts
    ((∀ chunk ∈ fresh.given b acts, chunk.isData = true) →
      ((c.intake.read b).result = .ended ∨
        ∃ allowance bytes, (c.intake.collect b allowance).result = .complete bytes) →
      ended = true) ∧
    (ended = true → (∀ chunk ∈ fresh.given b acts, chunk.isData = true) ∧
      ∃ bytes, (c.intake.collect b none).result = .complete bytes) ∧
    (ended = false → (∀ r ∈ c.streams, r.body? = some b → r.cause.isSome = true) →
      ∃ cause, .failed cause ∈ fresh.given b acts ∨
        (c.intake.collect b none).result = .failed cause) := by
  intro fresh c ended
  have hfresh : Account fresh b [] false := ⟨fun ch hch => by contradiction, fun _ => ⟨rfl, rfl⟩⟩
  obtain ⟨howned, haccount⟩ :=
    hfresh.live (owned_create id protocol config routes handler start) acts
  rw [List.nil_append, Bool.false_or, ever_endsClean] at haccount
  obtain ⟨ch, hch, hheld⟩ := (Option.any_eq_true _ _).mp h
  have htold : ch.Told (fresh.given b acts) ended := haccount.told ch hch hheld
  refine ⟨fun hgiven hreport => ?_, fun hended => ?_, fun hended hgone => ?_⟩
  · obtain ⟨hw, hqueue⟩ : ch.writable = false ∧ ∀ chunk ∈ ch.queue, chunk.isData = true := by
      rcases hreport with hread | ⟨allowance, bytes, hcollect⟩
      · obtain ⟨hw, hq⟩ := Intake.read_ended hch hread
        exact ⟨hw, by rw [hq]; exact List.forall_mem_nil _⟩
      · rw [Intake.collect_result hch] at hcollect
        exact Intake.content_complete hcollect
    exact htold.complete hw hgiven hqueue
  · rw [hended] at htold
    obtain ⟨hw, hgiven, hqueue⟩ := htold.data
    rw [Intake.collect_result hch, Intake.content_none, hw]
    exact ⟨hgiven, Channel.gather_data hqueue⟩
  · rw [hended] at htold
    rw [Intake.collect_result hch, Intake.content_none]
    refine htold.failure ?_
    cases hw : ch.writable with
    | false => rfl
    | true =>
        have hopen : c.intake.writable b = true := Intake.writable_iff.mpr ⟨ch, hch, hw⟩
        obtain ⟨s, r, hr, hb⟩ := howned.live hopen
        have hlive := (howned.sealed hr).live hb hopen
        have hfailed := hgone r (List.mem_of_find?_eq_some hr) hb
        rw [hlive] at hfailed
        contradiction

/-- The content is not over when the response is, and its reader is told that
it is. -/
theorem clean_end_concluded_or_cut_completed :
    let fresh := create 1 .h2 {}
      (Routes.resolver [("/chat", ⟨"chat", .bidiStreaming, none, false⟩)])
      (fun _ _ => [.bind "handler", .takeBody]) 0
    let acts : List Act := [.call ⟨.event (.headers 1 { path := "/chat" } false), 0⟩,
      .call ⟨.event (.data 1 [97, 98] false), 1⟩, .call ⟨.event (.complete 1), 2⟩,
      .call ⟨.serve 1 .next none, 3⟩]
    (fresh.live acts).intake.held 0 = true ∧ fresh.cutShort 0 acts = true ∧
      fresh.given 0 acts = [.data [97, 98]] ∧
      ∃ bytes, ((fresh.live acts).intake.collect 0 none).result = .complete bytes := by
  intro fresh acts
  have hheld : (fresh.live acts).intake.held 0 = true := by decide +kernel
  have hcut : fresh.cutShort 0 acts = true := by decide +kernel
  obtain ⟨-, hwhole, -⟩ := clean_end_concluded_or_cut 1 .h2 {}
    (Routes.resolver [("/chat", ⟨"chat", .bidiStreaming, none, false⟩)])
    (fun _ _ => [.bind "handler", .takeBody]) 0 acts 0 hheld
  refine ⟨hheld, hcut, by decide +kernel, (hwhole ?_).2⟩
  show (fresh.concluded 0 acts || fresh.cutShort 0 acts) = true
  rw [hcut, Bool.or_true]

/-- The response is complete before the content is: the reader gets two bytes
and then a clean end, where no last frame ever came. -/
theorem truncated_body_looks_complete :
    let fresh := create 1 .h2 {}
      (Routes.resolver [("/chat", ⟨"chat", .bidiStreaming, none, false⟩)])
      (fun _ _ => [.bind "handler", .takeBody]) 0
    let acts : List Act := [.call ⟨.event (.headers 1 { path := "/chat" } false), 0⟩,
      .call ⟨.event (.data 1 [97, 98] false), 1⟩, .call ⟨.event (.complete 1), 2⟩,
      .call ⟨.serve 1 .next none, 3⟩]
    let c := fresh.live acts
    c.intake.taken = [(1, 0)] ∧ fresh.given 0 acts = [.data [97, 98]] ∧
      (c.intake.read 0).result = .ended ∧
      ¬ ∃ before rest s bytes now,
        acts = before ++ .call ⟨.event (.data s bytes true), now⟩ :: rest := by
  intro fresh acts c
  refine ⟨by decide +kernel, by decide +kernel, by decide +kernel, ?_⟩
  rintro ⟨before, rest, s, bytes, now, heq⟩
  have hmem : Act.call ⟨.event (.data s bytes true), now⟩ ∈ acts := by simp [heq]
  simp [acts] at hmem

end HttpLifecycle.Connection
