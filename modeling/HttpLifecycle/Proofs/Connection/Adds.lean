import HttpLifecycle.Proofs.Connection.Outcome

namespace HttpLifecycle

structure Effect.Overlooked {α : Type} (f : Effect → Option α) : Prop where
  upkeep : ∀ e : Effect, e.upkeep = true → f e = none
  inner : ∀ e : Effect, e.inner = true → f e = none
  dispatch : ∀ r, f (.dispatch r) = none
  opened : f (.count .streamsOpened) = none

theorem count_shown {α : Type} [BEq α] [LawfulBEq α] {f : Effect → Option α} {a : α} {e : Effect}
    (h : ∀ e', f e' = some a ↔ e' = e) (es : List Effect) :
    (es.filterMap f).count a = es.count e := by
  rw [List.count_filterMap, List.count]
  refine List.countP_congr fun e' _ => ?_
  rw [beq_iff_eq, beq_iff_eq, h]

namespace Connection

/-- What a stretch of the journal comes to, looked at through `f`. -/
def Adds {α : Type} (f : Effect → Option α) (xs : List α) (c d : Connection) : Prop :=
  ∃ es, d.journal = c.journal ++ es ∧ es.filterMap f = xs

theorem StreamsKept.counted (c : Connection) (now : Instant) : StreamsKept c (c.counted now) :=
  (activity c now .headers).trans (observe _ (Monitor.modest_openStream _))

def refusal (stream : StreamId) : List Effect :=
  [.sink (.reset stream ErrorCode.refusedStream), .count .streamsRefused]

namespace Adds

variable {α : Type} {f : Effect → Option α} {xs ys : List α} {es : List Effect}
  {c d e : Connection}

theorem same (h : d.journal = c.journal) : Adds f [] c d := ⟨[], by simp [h], rfl⟩

theorem trans (h : Adds f xs c d) (g : Adds f ys d e) : Adds f (xs ++ ys) c e := by
  obtain ⟨es, hj, rfl⟩ := h
  obtain ⟨fs, hk, rfl⟩ := g
  exact ⟨es ++ fs, by rw [hk, hj, List.append_assoc], List.filterMap_append⟩

theorem run (h : Adds f xs c d) : d.journal.filterMap f = c.journal.filterMap f ++ xs := by
  obtain ⟨es, hj, rfl⟩ := h
  rw [hj, List.filterMap_append]

theorem hush (h : Adds f xs c d) (g : Adds f [] d e) : Adds f xs c e := by
  have hboth := h.trans g
  rwa [List.append_nil] at hboth

theorem past (hj : d.journal = c.journal ++ es) (h : ∀ e ∈ es, f e = none) : Adds f [] c d :=
  ⟨es, hj, List.filterMap_eq_nil_iff.mpr h⟩

section Overlooked

variable (hf : Effect.Overlooked f)
include hf

theorem inner (hj : d.journal = c.journal ++ es) (h : Inner es) : Adds f [] c d :=
  past hj fun e he => hf.inner e (h e he)

theorem streamsKept (h : StreamsKept c d) : Adds f [] c d := by
  obtain ⟨_, _, _, _, _, _, _, _, es, hes⟩ := h
  exact past rfl fun e he => hf.upkeep e (hes e he)

theorem dispatch (c : Connection) (r : Request) : Adds f [] c (c.dispatch r).1 := by
  refine past rfl (List.forall_mem_cons.mpr ⟨hf.dispatch r, fun e he => hf.inner e ?_⟩)
  exact (r.ownStep_performAll (R := fun _ _ => True) c.intake _).inner e he

theorem put (c : Connection) (r : Request) : Adds f [] c (c.put r) := by
  rw [Connection.put]
  split
  · exact same rfl
  · exact inner hf rfl (Request.inner_discard _ _)

theorem seat (c : Connection) (r : Request) : Adds f [] c (c.seat r) := by
  rw [Connection.seat]
  split
  · exact (dispatch hf c r).trans (put hf _ _)
  · exact put hf c r

theorem refuse (c : Connection) (stream : StreamId) (why : Refusal) :
    Adds f ((refusal stream).filterMap f) c (c.refuse stream why) := by
  have hnote : f (.note ⟨.debug, "refusing stream", [("connection_id", .num c.id),
      ("stream_id", .num stream), ("reason", .text why.text)]⟩) = none := hf.upkeep _ rfl
  refine ⟨.note _ :: refusal stream, ?_, List.filterMap_cons_none hnote⟩
  simp [Connection.refuse, refusal, log, write, Connection.count, emit]

theorem onHeaders (c : Connection) (stream : StreamId) (headers : Headers) (endOfStream : Bool)
    (now : Instant) :
    Adds f (if (c.onHeaders stream headers endOfStream now).2.isOk then []
        else (refusal stream).filterMap f) c (c.onHeaders stream headers endOfStream now).1 := by
  by_cases hlate : State.closing.rank ≤ c.state.rank
  · rw [onHeaders_late now stream headers endOfStream hlate]
    exact (streamsKept hf (.activity c now .headers)).trans (refuse hf _ stream .closing)
  · have hcounted := streamsKept hf (.counted c now)
    cases hr : (c.activity now .headers).monitor.openStream.result with
    | false =>
        rw [onHeaders_beyond now stream headers endOfStream hlate hr]
        exact (hcounted.trans (refuse hf _ stream .maxRequests)).hush
          (streamsKept hf (.checkDisconnection _ now))
    | true =>
        rw [onHeaders_within now stream headers endOfStream hlate hr]
        have hopened : Adds f [] (c.counted now)
            { ((c.counted now).admitStream stream).count .streamsOpened with
              intake :=
                (Request.ofOpening (c.opening stream headers endOfStream now) c.intake).2 } :=
          past rfl (List.forall_mem_singleton.mpr hf.opened)
        exact ((hcounted.trans hopened).trans (seat hf _ _)).trans
          (streamsKept hf (.checkDisconnection _ now))

end Overlooked

end Adds

end Connection

end HttpLifecycle
