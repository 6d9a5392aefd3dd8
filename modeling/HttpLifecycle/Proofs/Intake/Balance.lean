import HttpLifecycle.Proofs.Intake.Move

namespace HttpLifecycle

namespace Gate

variable (g : Gate)

def Fair (g : Gate) : Prop := g.suspended = true → g.marks.high ≠ 0 ∧ 0 < g.unread

theorem settle_unread : g.settle.state.unread = g.unread := by
  rw [settle]
  split
  · rfl
  · split
    · rfl
    · split <;> rfl

theorem settle_fair (h : g.marks.high = 0 → g.suspended = false) : g.settle.state.Fair := by
  rw [settle]
  split
  · rename_i hoff
    intro hs
    rw [h hoff] at hs
    contradiction
  · rename_i hon
    split
    · rename_i hfull
      intro _
      simp only [Bool.and_eq_true, decide_eq_true_eq] at hfull
      exact ⟨hon, Nat.lt_of_lt_of_le (Nat.pos_of_ne_zero hon) hfull.2⟩
    · split
      · intro hs
        contradiction
      · rename_i hlow
        intro hs
        have hs' : g.suspended = true := hs
        simp only [hs', Bool.true_and, decide_eq_true_eq] at hlow
        exact ⟨hon, Nat.lt_of_le_of_lt (Nat.zero_le _) (Nat.lt_of_not_le hlow)⟩

variable {g}

theorem Fair.off (h : g.Fair) (hoff : g.marks.high = 0) : g.suspended = false := by
  cases hs : g.suspended with
  | false => rfl
  | true => exact absurd hoff (h hs).1

theorem Fair.arrive (h : g.Fair) (n : Nat) : (g.arrive n).state.Fair :=
  settle_fair _ h.off

theorem Fair.release (h : g.Fair) (n : Nat) : (g.release n).state.Fair :=
  settle_fair _ h.off

theorem arrive_unread {n : Nat} (h : g.unread + n < Word.size) :
    (g.arrive n).state.unread = g.unread + n :=
  (settle_unread _).trans (Word.wrap_of_lt h)

theorem release_unread (g : Gate) (n : Nat) : (g.release n).state.unread = g.unread - n :=
  settle_unread _

end Gate

namespace Channel

def weigh (chunks : List Chunk) : Nat := chunks.foldr (fun chunk n => chunk.size + n) 0

theorem weigh_append (chunks more : List Chunk) :
    weigh (chunks ++ more) = weigh chunks + weigh more := by
  induction chunks with
  | nil => exact (Nat.zero_add _).symm
  | cons chunk rest ih =>
      show chunk.size + weigh (rest ++ more) = chunk.size + weigh rest + weigh more
      rw [ih, Nat.add_assoc]

def weight (c : Channel) : Nat := if c.held then c.unread else 0

def load (cs : List Channel) : Nat := cs.foldr (fun c n => c.weight + n) 0

theorem load_append (cs ds : List Channel) : load (cs ++ ds) = load cs + load ds := by
  induction cs with
  | nil => exact (Nat.zero_add _).symm
  | cons c rest ih =>
      show c.weight + load (rest ++ ds) = c.weight + load rest + load ds
      rw [ih, Nat.add_assoc]

theorem load_modify {cs : List Channel} {k : Nat} {c : Channel} (h : cs[k]? = some c)
    (f : Channel → Channel) : load (cs.modify k f) + c.weight = load cs + (f c).weight := by
  induction cs generalizing k with
  | nil => contradiction
  | cons d rest ih =>
      cases k with
      | zero =>
          obtain rfl := Option.some.inj h
          show (f d).weight + load rest + d.weight = d.weight + load rest + (f d).weight
          omega
      | succ k =>
          have hrest := ih (k := k) h
          show d.weight + load (rest.modify k f) + c.weight = d.weight + load rest + (f c).weight
          omega

def filled (bytes : Bytes) (c : Channel) : Channel := { c with queue := c.queue ++ [.data bytes] }

theorem filled_weight {c : Channel} (h : c.held = true) (bytes : Bytes) :
    (c.filled bytes).weight = c.weight + bytes.length := by
  have hmore : (c.filled bytes).weight = weigh (c.queue ++ [.data bytes]) := if_pos h
  rw [hmore, weigh_append, weight, if_pos h]
  rfl

def ended (cause : Option AbortCause) (c : Channel) : Channel :=
  if !c.writable then c
  else
    { c with
      writable := false
      queue := if c.held then c.queue ++ cause.toList.map .failed else c.queue }

theorem ended_held (cause : Option AbortCause) (c : Channel) : (c.ended cause).held = c.held := by
  rw [ended]
  split <;> rfl

theorem ended_queue {c : Channel} (cause : Option AbortCause) (hq : c.queue = [])
    (h : c.held = false) : (c.ended cause).queue = [] := by
  rw [ended]
  split
  · exact hq
  · simp [h, hq]

theorem ended_weight (cause : Option AbortCause) (c : Channel) :
    (c.ended cause).weight = c.weight := by
  rw [ended]
  split
  · rfl
  · cases hh : c.held with
    | false =>
        rw [weight, weight, hh]
        rfl
    | true =>
        have hfailed : weigh (cause.toList.map .failed) = 0 := by cases cause <;> rfl
        show weigh (c.queue ++ cause.toList.map .failed) = weight c
        rw [weigh_append, hfailed, weight, if_pos hh]
        rfl

/-- No payload can come out of a channel any more: it is empty, or nothing but
the failure that ends it is left, or nobody reads it. -/
def Spent (c : Channel) : Prop := c.held = true → ∀ chunk ∈ c.queue, chunk.isData = false

theorem weigh_failures {chunks : List Chunk} (h : ∀ chunk ∈ chunks, chunk.isData = false) :
    weigh chunks = 0 := by
  induction chunks with
  | nil => rfl
  | cons chunk rest ih =>
      have hrest := ih fun d hd => h d (List.mem_cons_of_mem _ hd)
      cases chunk with
      | data bytes => exact absurd (h _ List.mem_cons_self) (by simp [Chunk.isData])
      | failed cause =>
          show 0 + weigh rest = 0
          rw [hrest]

theorem Spent.weight {c : Channel} (h : c.Spent) : c.weight = 0 := by
  rw [Channel.weight]
  split
  · rename_i hheld
    exact weigh_failures (h hheld)
  · rfl

theorem load_spent {cs : List Channel} (h : ∀ c ∈ cs, c.Spent) : load cs = 0 := by
  induction cs with
  | nil => rfl
  | cons c rest ih =>
      have hrest := ih fun d hd => h d (List.mem_cons_of_mem c hd)
      have hc := (h c List.mem_cons_self).weight
      show c.weight + load rest = 0
      rw [hc, hrest]

end Channel

namespace Intake

open Channel

variable {i : Intake}

/-- The gate counts what is waiting in the bodies that somebody holds, and what
nobody holds is empty. -/
structure Balanced (i : Intake) : Prop where
  unread : i.gate.unread = i.buffered
  fair : i.gate.Fair
  gone : ∀ c ∈ i.channels, c.held = false → c.queue = []

theorem buffered_eq (i : Intake) : i.buffered = load i.channels := rfl

theorem balanced_fresh (marks : Marks) : Balanced { gate := { marks := marks } } where
  unread := rfl
  fair h := by contradiction
  gone c h := by contradiction

theorem consume_channels (i : Intake) (c : Chunk) : (i.consume c).state.channels = i.channels := by
  cases c <;> rfl

theorem consume_unread (i : Intake) (c : Chunk) :
    (i.consume c).state.gate.unread = i.gate.unread - c.size := by
  cases c with
  | data bytes => exact Gate.release_unread _ _
  | failed cause => rfl

theorem consume_fair (h : i.gate.Fair) (c : Chunk) : (i.consume c).state.gate.Fair := by
  cases c with
  | data bytes => exact h.release _
  | failed cause => exact h

theorem consumeAll_channels (i : Intake) (chunks : List Chunk) :
    (i.consumeAll chunks).state.channels = i.channels := by
  induction chunks generalizing i with
  | nil => rfl
  | cons c rest ih => exact (ih _).trans (consume_channels i c)

theorem consumeAll_unread (i : Intake) (chunks : List Chunk) :
    (i.consumeAll chunks).state.gate.unread = i.gate.unread - weigh chunks := by
  induction chunks generalizing i with
  | nil => rfl
  | cons c rest ih =>
      have hrest := ih (i.consume c).state
      rw [consume_unread, Nat.sub_sub] at hrest
      exact hrest

theorem consumeAll_fair (h : i.gate.Fair) (chunks : List Chunk) :
    (i.consumeAll chunks).state.gate.Fair := by
  induction chunks generalizing i with
  | nil => exact h
  | cons c rest ih => exact ih (consume_fair h c)

theorem modify_none {body : BodyId} (h : i.channels[body]? = none) (f : Channel → Channel) :
    i.modify body f = i := by
  rw [modify, List.modify_eq_self (List.getElem?_eq_none_iff.mp h)]

theorem mem_modify {body : BodyId} {f : Channel → Channel} {d : Channel}
    (h : d ∈ (i.modify body f).channels) :
    d ∈ i.channels ∨ ∃ c, i.channels[body]? = some c ∧ d = f c := by
  obtain ⟨k, hk⟩ := List.mem_iff_getElem?.mp h
  have hk' : (i.channels.modify body f)[k]? = some d := hk
  rw [List.getElem?_modify] at hk'
  obtain ⟨c, hc, hd⟩ := Option.map_eq_some_iff.mp hk'
  by_cases hb : body = k
  · rw [if_pos hb] at hd
    subst hb
    exact .inr ⟨c, hc, hd.symm⟩
  · rw [if_neg hb] at hd
    subst hd
    exact .inl (List.mem_of_getElem? hc)

theorem Balanced.gone_modify (h : Balanced i) {body : BodyId} {f : Channel → Channel}
    (hf : ∀ c, i.channels[body]? = some c → (f c).held = false → (f c).queue = []) :
    ∀ d ∈ (i.modify body f).channels, d.held = false → d.queue = [] := by
  intro d hd
  rcases mem_modify hd with hd | ⟨c, hc, rfl⟩
  · exact h.gone d hd
  · exact hf c hc

theorem Balanced.add (h : Balanced i) {c : Channel} (hheld : c.held = true)
    (hunread : c.unread = 0) : Balanced (i.add c).1 := by
  refine ⟨?_, h.fair, fun d hd hgone => ?_⟩
  · have hload : load (i.channels ++ [c]) = load i.channels := by
      rw [load_append]
      show load i.channels + (c.weight + 0) = load i.channels
      rw [weight, if_pos hheld, hunread]
      rfl
    exact h.unread.trans hload.symm
  · rcases List.mem_append.mp hd with hd | hd
    · exact h.gone d hd hgone
    · obtain rfl := List.mem_singleton.mp hd
      rw [hheld] at hgone
      contradiction

theorem finish_eq (i : Intake) (body : BodyId) (cause : Option AbortCause) :
    i.finish body cause = i.modify body (Channel.ended cause) := rfl

theorem Balanced.finish (h : Balanced i) (body : BodyId) (cause : Option AbortCause) :
    Balanced (i.finish body cause) := by
  rw [finish_eq]
  cases hc : i.channels[body]? with
  | none =>
      rw [modify_none hc]
      exact h
  | some c =>
      refine ⟨?_, h.fair, h.gone_modify fun d hd hgone => ?_⟩
      · have hload := load_modify hc (Channel.ended cause)
        rw [ended_weight] at hload
        exact h.unread.trans (Nat.add_right_cancel hload).symm
      · rw [ended_held] at hgone
        exact ended_queue cause (h.gone d (List.mem_of_getElem? hd) hgone) hgone

theorem push_held {body : BodyId} (h : i.held body = true) (bytes : Bytes) :
    (i.push body bytes).state =
      { gate := (i.gate.arrive bytes.length).state
        channels := i.channels.modify body (Channel.filled bytes)
        taken := i.taken } := by
  rw [Intake.push]
  exact congrArg Step.state (if_pos h)

theorem push_gone {body : BodyId} (h : ¬ i.held body = true) (bytes : Bytes) :
    (i.push body bytes).state =
      (consume { i with gate := (i.gate.arrive bytes.length).state } (.data bytes)).state := by
  rw [Intake.push]
  simp only
  split
  · rename_i hheld
    exact absurd hheld h
  · rfl

theorem Balanced.push (h : Balanced i) {bytes : Bytes}
    (hroom : i.buffered + bytes.length < Word.size) (body : BodyId) :
    Balanced (i.push body bytes).state := by
  rw [← h.unread] at hroom
  have hcame := Gate.arrive_unread hroom
  rw [h.unread] at hcame
  have hfair := h.fair.arrive bytes.length
  by_cases hheld : i.held body = true
  · obtain ⟨c, hc, hch⟩ := (Option.any_eq_true _ _).mp hheld
    rw [push_held hheld]
    refine ⟨?_, hfair, h.gone_modify fun d hd hgone => ?_⟩
    · have hload := load_modify hc (Channel.filled bytes)
      rw [filled_weight hch] at hload
      have hfilled : load (i.channels.modify body (Channel.filled bytes)) =
          load i.channels + bytes.length := by omega
      exact hcame.trans hfilled.symm
    · obtain rfl := Option.some.inj (hc.symm.trans hd)
      have hgone' : c.held = false := hgone
      rw [hch] at hgone'
      contradiction
  · rw [push_gone hheld]
    refine ⟨?_, consume_fair hfair _, h.gone⟩
    rw [consume_unread]
    show (i.gate.arrive bytes.length).state.unread - bytes.length = i.buffered
    rw [hcame, Nat.add_sub_cancel]

theorem Balanced.held (h : Balanced i) {body : BodyId} {c : Channel}
    (hc : i.channels[body]? = some c) (hq : c.queue ≠ []) : c.held = true := by
  cases hh : c.held with
  | true => rfl
  | false => exact absurd (h.gone c (List.mem_of_getElem? hc) hh) hq

theorem Balanced.weight (h : Balanced i) {body : BodyId} {c : Channel}
    (hc : i.channels[body]? = some c) : c.weight = weigh c.queue := by
  rw [Channel.weight]
  split
  · rfl
  · rename_i hh
    rw [h.gone c (List.mem_of_getElem? hc) (by simpa using hh)]
    rfl

theorem read_next {body : BodyId} {c : Channel} {chunk : Chunk} {rest : List Chunk}
    (hc : i.channels[body]? = some c) (hq : c.queue = chunk :: rest) :
    (i.read body).state =
      ((i.modify body fun ch => { ch with queue := rest }).consume chunk).state := by
  rw [Intake.read, hc]
  simp only [hq]

theorem Balanced.read (h : Balanced i) (body : BodyId) : Balanced (i.read body).state := by
  cases hc : i.channels[body]? with
  | none =>
      rw [Intake.read, hc]
      exact h
  | some c =>
      cases hq : c.queue with
      | nil =>
          rw [Intake.read, hc]
          simp only [hq]
          exact h
      | cons chunk rest =>
          have hheld : c.held = true := h.held hc (by simp [hq])
          rw [read_next hc hq]
          refine ⟨?_, consume_fair (i := i.modify body _) h.fair chunk, ?_⟩
          · have hload := load_modify hc fun ch => { ch with queue := rest }
            have hleft : Channel.weight { c with queue := rest } = weigh rest := if_pos hheld
            rw [h.weight hc, hq, hleft] at hload
            rw [consume_unread, buffered_eq, consume_channels]
            show i.gate.unread - chunk.size = load (i.channels.modify body _)
            rw [h.unread, buffered_eq]
            show load i.channels - chunk.size = _
            have hsplit : weigh (chunk :: rest) = chunk.size + weigh rest := rfl
            omega
          · rw [consume_channels]
            refine h.gone_modify fun d hd hgone => ?_
            obtain rfl := Option.some.inj (hc.symm.trans hd)
            have hgone' : c.held = false := hgone
            rw [hheld] at hgone'
            contradiction

theorem drop_some {body : BodyId} {c : Channel} (hc : i.channels[body]? = some c) :
    (i.drop body).state =
      ((i.modify body fun c => { c with queue := [], held := false }).consumeAll
        c.queue).state := by
  rw [Intake.drop, hc]

theorem Balanced.drop (h : Balanced i) (body : BodyId) : Balanced (i.drop body).state := by
  cases hc : i.channels[body]? with
  | none =>
      rw [Intake.drop, hc]
      exact h
  | some c =>
      rw [drop_some hc]
      refine ⟨?_, consumeAll_fair (i := i.modify body _) h.fair c.queue, ?_⟩
      · have hload := load_modify hc fun c => { c with queue := [], held := false }
        have hleft : Channel.weight { c with queue := [], held := false } = 0 := rfl
        rw [h.weight hc, hleft] at hload
        rw [consumeAll_unread, buffered_eq, consumeAll_channels]
        show i.gate.unread - weigh c.queue = load (i.channels.modify body _)
        rw [h.unread, buffered_eq]
        omega
      · rw [consumeAll_channels]
        exact h.gone_modify fun d hd hgone => rfl

def Room (i : Intake) (bytes : Bytes) : Prop := i.buffered + bytes.length < Word.size

theorem Move.balanced {j : Intake} (h : Balanced i) (m : Move Room i j) : Balanced j := by
  cases m with
  | add c hheld hempty => exact h.add hheld (weigh_failures hempty)
  | push body bytes hroom => exact h.push hroom body
  | finish body cause => exact h.finish body cause
  | read body => exact h.read body
  | drop body => exact h.drop body
  | file taken => exact ⟨h.unread, h.fair, h.gone⟩

theorem Moves.balanced {j : Intake} (h : Balanced i) (m : Moves Room i j) : Balanced j := by
  induction m with
  | refl => exact h
  | tail _ m ih => exact m.balanced ih

theorem Balanced.spent (h : Balanced i) (hs : ∀ c ∈ i.channels, Spent c) :
    i.gate.unread = 0 ∧ i.gate.suspended = false := by
  have hbuffered : i.buffered = 0 := load_spent hs
  have hunread : i.gate.unread = 0 := h.unread.trans hbuffered
  refine ⟨hunread, ?_⟩
  cases hsus : i.gate.suspended with
  | false => rfl
  | true =>
      have := (h.fair hsus).2
      omega

end Intake

end HttpLifecycle
