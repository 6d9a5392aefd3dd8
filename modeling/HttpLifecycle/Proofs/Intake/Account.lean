import HttpLifecycle.Proofs.Intake.Conduct

namespace HttpLifecycle

def Reading.chunks : Reading → List Chunk
  | .item c => [c]
  | _ => []

namespace Channel

variable {c d : Channel} {past taken payload : List Chunk} {closed clean writable : Bool}
  {read bytes : Bytes} {cause : AbortCause}

theorem gather_complete (h : gather writable read payload = .complete bytes) :
    writable = false ∧ ∀ chunk ∈ payload, chunk.isData = true := by
  induction payload generalizing read with
  | nil =>
      cases writable with
      | false => exact ⟨rfl, List.forall_mem_nil _⟩
      | true => contradiction
  | cons chunk rest ih =>
      cases chunk with
      | data more =>
          obtain ⟨hw, hrest⟩ := ih h
          exact ⟨hw, List.forall_mem_cons.mpr ⟨rfl, hrest⟩⟩
      | failed cause => contradiction

theorem gather_data (h : ∀ chunk ∈ payload, chunk.isData = true) :
    ∃ bytes, gather false read payload = .complete bytes := by
  induction payload generalizing read with
  | nil => exact ⟨read, rfl⟩
  | cons chunk rest ih =>
      obtain ⟨hchunk, hrest⟩ := List.forall_mem_cons.mp h
      cases chunk with
      | data more => exact ih hrest
      | failed cause => contradiction

theorem gather_failed (h : ∀ chunk ∈ payload, chunk.isData = true) :
    gather writable read (payload ++ [.failed cause]) = .failed cause := by
  induction payload generalizing read with
  | nil => rfl
  | cons chunk rest ih =>
      obtain ⟨hchunk, hrest⟩ := List.forall_mem_cons.mp h
      cases chunk with
      | data more => exact ih hrest
      | failed cause => contradiction

structure Yields (taken : List Chunk) (c d : Channel) : Prop where
  writable : d.writable = c.writable
  held : d.held = true → c.held = true ∧ c.queue = taken ++ d.queue

/-- What comes through a channel, in the past and from now on: payload, and a
failure after it unless the channel is open or was closed cleanly. -/
inductive Told (past : List Chunk) (c : Channel) : Bool → Prop
  | ongoing (hw : c.writable = true) (hdata : ∀ chunk ∈ past ++ c.queue, chunk.isData = true) :
      Told past c false
  | whole (hw : c.writable = false) (hdata : ∀ chunk ∈ past ++ c.queue, chunk.isData = true) :
      Told past c true
  | failed (payload : List Chunk) (cause : AbortCause) (hw : c.writable = false)
      (hdata : ∀ chunk ∈ payload, chunk.isData = true)
      (hall : past ++ c.queue = payload ++ [.failed cause]) : Told past c false

namespace Told

theorem yields (h : c.Told past closed) (hy : c.Yields taken d) (hd : d.held = true) :
    d.Told (past ++ taken) closed := by
  have hq : past ++ taken ++ d.queue = past ++ c.queue := by
    rw [(hy.held hd).2, List.append_assoc]
  cases h with
  | ongoing hw hdata => exact .ongoing (hy.writable.trans hw) (hq ▸ hdata)
  | whole hw hdata => exact .whole (hy.writable.trans hw) (hq ▸ hdata)
  | failed payload cause hw hdata hall =>
      exact .failed payload cause (hy.writable.trans hw) hdata (hq.trans hall)

theorem ongoing_data (h : c.Told past closed) (hw : c.writable = true) :
    closed = false ∧ ∀ chunk ∈ past ++ c.queue, chunk.isData = true := by
  cases h with
  | ongoing _ hdata => exact ⟨rfl, hdata⟩
  | whole hshut | failed payload cause hshut =>
      rw [hw] at hshut
      contradiction

theorem ended (h : c.Told past closed) (hw : c.writable = true) {more : List Chunk}
    (hmore : ∀ chunk ∈ more, chunk.isData = true) (cause : Option AbortCause) :
    Told past { c with
      queue := c.queue ++ more ++ cause.toList.map .failed
      writable := false } (closed || cause.isNone) := by
  obtain ⟨rfl, hdata⟩ := h.ongoing_data hw
  have hpayload : ∀ chunk ∈ past ++ (c.queue ++ more), chunk.isData = true := by
    rw [← List.append_assoc]
    exact List.forall_mem_append.mpr ⟨hdata, hmore⟩
  cases cause with
  | none =>
      refine .whole rfl ?_
      rw [← List.append_nil (c.queue ++ more)] at hpayload
      exact hpayload
  | some cause => exact .failed _ cause rfl hpayload (List.append_assoc ..).symm

theorem fares (h : c.Told past closed) (hf : c.Fares clean d) (hd : d.held = true)
    (hopen : clean = true → c.writable = true) (hshut : clean = true → d.writable = false) :
    d.Told past (closed || clean) := by
  have hfalse (hw : d.writable = true ∨ c.writable = false) : clean = false := by
    cases hc : clean with
    | false => rfl
    | true => simp [hopen hc, hshut hc] at hw
  cases hf with
  | stays =>
      have hc : clean = false := hfalse (by cases c.writable <;> simp)
      rw [hc, Bool.or_false]
      exact h
  | fills more hw hmore =>
      obtain ⟨rfl, hdata⟩ := h.ongoing_data hw
      rw [hfalse (.inl hw)]
      refine .ongoing hw ?_
      rw [← List.append_assoc]
      exact List.forall_mem_append.mpr ⟨hdata, hmore⟩
  | ends more cause hw hmore hcause => exact hcause ▸ h.ended hw hmore cause
  | lost hlost =>
      rw [hlost] at hd
      contradiction

theorem complete (h : c.Told past closed) (hw : c.writable = false)
    (hpast : ∀ chunk ∈ past, chunk.isData = true)
    (hqueue : ∀ chunk ∈ c.queue, chunk.isData = true) : closed = true := by
  cases h with
  | ongoing hopen =>
      rw [hopen] at hw
      contradiction
  | whole => rfl
  | failed payload cause _ _ hall =>
      have hmem : Chunk.failed cause ∈ past ++ c.queue := by simp [hall]
      have hdata := (List.forall_mem_append.mpr ⟨hpast, hqueue⟩) _ hmem
      contradiction

theorem data (h : c.Told past true) :
    c.writable = false ∧ (∀ chunk ∈ past, chunk.isData = true) ∧
      ∀ chunk ∈ c.queue, chunk.isData = true := by
  cases h with
  | whole hw hdata => exact ⟨hw, List.forall_mem_append.mp hdata⟩

theorem failure (h : c.Told past false) (hw : c.writable = false) :
    ∃ cause, .failed cause ∈ past ∨ gather c.writable [] c.queue = .failed cause := by
  cases h with
  | ongoing hopen =>
      rw [hopen] at hw
      contradiction
  | failed payload cause _ hdata hall =>
      refine ⟨cause, ?_⟩
      rcases List.eq_nil_or_concat c.queue with hq | ⟨first, final, hq⟩
      · rw [hq, List.append_nil] at hall
        exact .inl (by simp [hall])
      · rw [List.concat_eq_append] at hq
        rw [hq, ← List.append_assoc] at hall
        obtain ⟨rfl, hfinal⟩ := List.append_inj' hall rfl
        rw [hq, List.singleton_inj.mp hfinal]
        exact .inr (gather_failed fun chunk hchunk => hdata chunk (List.mem_append_right _ hchunk))

end Told

end Channel

namespace Intake

open Channel

structure Serves (taken : BodyId → List Chunk) (i j : Intake) : Prop where
  size : j.channels.length = i.channels.length
  yields : ∀ {b : BodyId} {c : Channel}, i.channels[b]? = some c →
    ∃ d, j.channels[b]? = some d ∧ c.Yields (taken b) d

variable {i j : Intake} {b : BodyId} {c : Channel}

theorem yields_none (c : Channel) : c.Yields [] c := ⟨rfl, fun h => ⟨h, rfl⟩⟩

theorem Serves.writable {taken : BodyId → List Chunk} (h : i.Serves taken j) (b : BodyId) :
    j.writable b = i.writable b := by
  rw [Intake.writable, Intake.writable]
  cases hc : i.channels[b]? with
  | none =>
      have hle : j.channels.length ≤ b := h.size ▸ List.getElem?_eq_none_iff.mp hc
      rw [List.getElem?_eq_none_iff.mpr hle]
  | some c =>
      obtain ⟨d, hd, hy⟩ := h.yields hc
      rw [hd]
      exact hy.writable

theorem serves_still {taken : BodyId → List Chunk} (h : j.channels = i.channels)
    (ht : ∀ b c, i.channels[b]? = some c → taken b = []) : i.Serves taken j := by
  refine ⟨congrArg List.length h, fun {b c} hc => ⟨c, h ▸ hc, ?_⟩⟩
  rw [ht b c hc]
  exact yields_none c

theorem serves_modify {taken : BodyId → List Chunk} (body : BodyId) {f : Channel → Channel}
    (hj : j.channels = i.channels.modify body f)
    (h : ∀ c, i.channels[body]? = some c → c.Yields (taken body) (f c))
    (ht : ∀ b, b ≠ body → taken b = []) : i.Serves taken j := by
  refine ⟨by rw [hj, List.length_modify], fun {b c} hc => ?_⟩
  rw [hj, List.getElem?_modify, hc]
  by_cases hb : body = b
  · subst hb
    exact ⟨f c, by simp, h c hc⟩
  · refine ⟨c, by simp [hb], ?_⟩
    rw [ht b (Ne.symm hb)]
    exact yields_none c

theorem serves_read (i : Intake) (body : BodyId) :
    i.Serves (fun b => if some body = some b then (i.read b).result.chunks else [])
      (i.read body).state := by
  have hothers (b : BodyId) (hb : b ≠ body) :
      (if some body = some b then (i.read b).result.chunks else []) = [] :=
    if_neg fun h => hb (Option.some.inj h).symm
  cases hc : i.channels[body]? with
  | none =>
      refine serves_still (by rw [read, hc]) fun b c hb => hothers b fun hsame => ?_
      rw [hsame, hc] at hb
      contradiction
  | some c =>
      cases hq : c.queue with
      | nil =>
          refine serves_still (by rw [read, hc]; simp only [hq]) fun b d hb => ?_
          by_cases hsame : b = body
          · subst hsame
            rw [if_pos rfl, read, hc]
            simp only [hq]
            cases c.writable <;> rfl
          · exact hothers b hsame
      | cons chunk rest =>
          have hchunk : (i.read body).result.chunks = [chunk] := by
            rw [read, hc]
            simp only [hq]
            rfl
          refine serves_modify body (by rw [read_next hc hq, consume_channels]; rfl)
            (fun d hd => ?_)
            hothers
          obtain rfl := Option.some.inj (hc.symm.trans hd)
          rw [if_pos rfl, hchunk]
          exact ⟨rfl, fun hheld => ⟨hheld, hq⟩⟩

theorem serves_drop (i : Intake) (body : BodyId) :
    i.Serves (fun _ => []) (i.drop body).state := by
  cases hc : i.channels[body]? with
  | none => exact serves_still (by rw [drop, hc]) fun _ _ _ => rfl
  | some c =>
      refine serves_modify body (by rw [drop_some hc, consumeAll_channels]; rfl)
        (fun d _ => ?_) fun _ _ => rfl
      exact ⟨rfl, fun hheld => by contradiction⟩

theorem serves_forget (i : Intake) (stream : StreamId) (body : BodyId) :
    i.Serves (fun _ => []) ((i.forget stream).drop body).state :=
  ⟨((i.forget stream).serves_drop body).size, ((i.forget stream).serves_drop body).yields⟩

theorem collect_result (hc : i.channels[b]? = some c) (allowance : Option Nat) :
    (i.collect b allowance).result = c.content allowance := by
  rw [collect, hc]
  rfl

theorem content_none (c : Channel) :
    c.content none = gather c.writable [] c.queue := if_neg (by simp)

theorem content_complete {allowance : Option Nat} {bytes : Bytes}
    (h : c.content allowance = .complete bytes) :
    c.writable = false ∧ ∀ chunk ∈ c.queue, chunk.isData = true := by
  rw [content] at h
  split at h
  · contradiction
  · exact gather_complete h

theorem read_ended (hc : i.channels[b]? = some c) (h : (i.read b).result = .ended) :
    c.writable = false ∧ c.queue = [] := by
  rw [read, hc] at h
  cases hq : c.queue with
  | nil =>
      cases hw : c.writable with
      | false => exact ⟨rfl, rfl⟩
      | true => simp [hq, hw] at h
  | cons chunk rest => simp [hq] at h

end Intake

end HttpLifecycle
