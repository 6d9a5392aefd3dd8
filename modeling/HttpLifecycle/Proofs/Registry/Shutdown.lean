import HttpLifecycle.Proofs.Connection.Fate
import HttpLifecycle.Proofs.Connection.Forward
import HttpLifecycle.Proofs.Connection.Ledger
import HttpLifecycle.Proofs.Registry.Schedule

namespace HttpLifecycle

/-- No stream was admitted, and none was handed over. -/
def Barren (es : List Effect) : Prop := .count .streamsOpened ∉ es ∧ ∀ r, .dispatch r ∉ es

theorem barren_append {es fs : List Effect} (h : Barren es) (g : Barren fs) : Barren (es ++ fs) :=
  ⟨fun hmem => (List.mem_append.mp hmem).elim h.1 g.1,
    fun r hmem => (List.mem_append.mp hmem).elim (h.2 r) (g.2 r)⟩

theorem Barren.subset {es fs : List Effect} (h : Barren es) (hfs : fs ⊆ es) : Barren fs :=
  ⟨fun hmem => h.1 (hfs hmem), fun r hmem => h.2 r (hfs hmem)⟩

namespace Connection

variable {c : Connection}

theorem arrival?_none {x : Call} (h : c.admission? x = none) : c.arrival? x = none := by
  rw [arrival?]
  split
  · rename_i stream headers endOfStream hx hok
    rw [admission?, hx, hok] at h
    contradiction
  · rfl

theorem after_barren (hv : c.streams = []) (hclean : c.journal = []) {x : Call}
    (hnone : c.admission? x = none) :
    (c.after x).streams = [] ∧ Barren (c.after x).journal := by
  have hd : Distinct c := by
    rw [Distinct, hv]
    exact List.nodup_nil
  have harrival := arrival?_none hnone
  have hposted := (after_outcome (R := fun _ _ => True) hd x trivial).posted hd
  rw [displaced?, harrival] at hposted
  obtain ⟨es, hj, hopenings, hperm⟩ := hposted
  rw [hclean, List.nil_append] at hj
  have htable : (c.after x).table = [] := by
    have hempty : c.table = [] := by rw [table, hv]; rfl
    rw [hempty] at hperm
    have hnil := hperm.eq_nil
    rw [List.append_eq_nil_iff, List.append_eq_nil_iff] at hnil
    exact hnil.1.2
  refine ⟨List.map_eq_nil_iff.mp htable, ?_, fun r hr => ?_⟩
  · rw [hj]
    exact List.count_eq_zero.mp hopenings
  · obtain ⟨fs, hstory, hfate⟩ := after_fate hd r.stream x
    have hvacant : c.find? r.stream = none := by rw [find?, hv]; rfl
    have hsilent := (hfate.vacant hvacant (by simp [hnone])).2 r
    have hmem : .dispatch r ∈ (c.after x).story r.stream :=
      List.mem_filter.mpr ⟨hr, about_dispatch r⟩
    have hnothing : c.story r.stream = [] := by rw [story, hclean]; rfl
    rw [hstory, hnothing] at hmem
    exact hsilent hmem

theorem invariant_serverClosing : Invariant fun c => c.serverClosing = true where
  move _ h m := m.frame.2.1.trans h
  admits _ _ _ h := h
  server _ := rfl

theorem close_shuts (hs : c.serverClosing = true) (now : Instant) (ht : c.tornDown = false) :
    (c.close now).drain.phase = .closed := by
  by_cases ho : c.Open
  · exact close_closed ho (.inl hs)
  · rw [close_over ho]
    exact (over_of_not_open ho).resolve_left (by simp [ht])

end Connection

namespace Registry

namespace Member

variable {T : Influence → Prop} {m n : Member}

def effects (m : Member) : List Effect := m.history.map (·.2)

/-- The task has nothing to do but to wait for an event or a timer. -/
def Idle (m : Member) : Prop := m.finished = true ∨ m.queue = [] ∧ 0 < m.handles

/-- The shutdown has reached a connection, or it is on its way, or nobody is
left to be told. -/
structure Heeds (m : Member) : Prop where
  server : m.connection.serverClosing = true
  close : m.finished = true ∨ m.connection.drain.phase = .closed ∨ .close ∈ m.queue ∨ m.handles = 0

theorem turned_over {x : Connection.Call} (h : m.Sound) (hlive : m.finished = false)
    (queue : List Connection.Event) :
    let n := { m with queue := queue }.turn x.now fun c => c.after x
    n.finished = true ∨ n.finished = false ∧ n.queue = queue ∧
      n.connection.tornDown = false := by
  have hcoh := Connection.invariant_coherent.after h.coherent h.coherent x
  by_cases hs : (m.connection.after x).halted = true
  · exact .inl (by simp [turn_eq, hs])
  · refine .inr ⟨by simp [turn_eq, hs, hlive], by simp [turn_eq, hs], ?_⟩
    rw [turn_eq]
    exact Bool.eq_false_iff.mpr fun ht => hs (hcoh.halted_iff.mpr ht)

theorem Heeds.turn (h : Heeds m) (hm : m.Sound) {x : Connection.Call}
    {queue : List Connection.Event} (hdue : m.Due x queue) (hlive : m.finished = false) :
    Heeds ({ m with queue := queue }.turn x.now fun c => c.after x) := by
  have ht : m.connection.tornDown = false := hm.ended.symm.trans hlive
  have hserver := Connection.invariant_serverClosing.after hm.coherent h.server x
  refine ⟨by rw [turn_eq]; exact hserver, ?_⟩
  rcases turned_over (x := x) hm hlive queue with hend | ⟨-, hqueue, htorn⟩
  · exact .inl hend
  · rw [hqueue]
    have hclosed (hp : m.connection.drain.phase = .closed) :
        (m.connection.after x).drain.phase = .closed :=
      (Connection.after_closed hm.coherent hp x).2
    rw [turn_eq]
    rcases h.close with hend | hp | hq | hnone
    · rw [hend] at hlive
      contradiction
    · exact .inr (.inl (hclosed hp))
    · cases hdue with
      | event e rest now hwaits =>
          rw [hwaits] at hq
          rcases List.mem_cons.mp hq with rfl | hq
          · exact .inr (.inl (Connection.close_shuts h.server now ht))
          · exact .inr (.inr (.inl hq))
      | gone now hempty hnone => exact .inr (.inr (.inr hnone))
      | timer d now hd hle => exact .inr (.inr (.inl hq))
    · exact .inr (.inr (.inr hnone))

theorem Heeds.step (h : Heeds m) (hm : m.Sound) (s : Step T m n) : Heeds n := by
  cases s with
  | enqueue e he hlive =>
      exact ⟨h.server, h.close.imp_right (.imp_right (.imp_left (List.mem_append_left _)))⟩
  | clone hh =>
      refine ⟨h.server, h.close.imp_right (.imp_right (.imp_right fun hnone => ?_))⟩
      rw [hnone] at hh
      contradiction
  | drop hh =>
      refine ⟨h.server, h.close.imp_right (.imp_right (.imp_right fun hnone => ?_))⟩
      rw [hnone] at hh
      contradiction
  | detach => exact ⟨h.server, h.close⟩
  | closing => exact ⟨rfl, h.close⟩
  | serve stream demand allowance now => exact ⟨h.server, h.close⟩
  | turn hdue hlive => exact h.turn hm hdue hlive

/-- A connection that came too late: a close is the first thing that it finds. -/
structure Barred (m : Member) : Prop where
  vacant : m.connection.streams = []
  barren : Barren m.effects
  shut : m.finished = true ∨ m.connection.drain.phase = .closed ∨
    m.connection.nextDeadline = none ∧ ∃ rest, m.queue = .close :: rest

theorem stamped_subset (attached : Bool) (now : Instant) (es : List Effect) :
    (stamped attached now es).map (·.2) ⊆ es := by
  rw [stamped_effects]
  exact List.filter_subset_self _

theorem Barred.after (h : Barred m) (hm : m.Sound) {x : Connection.Call} (now : Instant)
    (hnone : m.connection.admission? x = none) :
    (m.connection.after x).streams = [] ∧
      Barren ((m.history ++ stamped m.attached now (m.connection.after x).journal).map (·.2)) := by
  obtain ⟨hvacant, hbarren⟩ := Connection.after_barren h.vacant hm.clean hnone
  refine ⟨hvacant, ?_⟩
  rw [List.map_append]
  exact barren_append h.barren (hbarren.subset (stamped_subset _ _ _))

theorem Barred.turn (h : Barred m) (hheeds : Heeds m) (hm : m.Sound) {x : Connection.Call}
    {queue : List Connection.Event} (hdue : m.Due x queue) (hlive : m.finished = false) :
    Barred ({ m with queue := queue }.turn x.now fun c => c.after x) := by
  have ht : m.connection.tornDown = false := hm.ended.symm.trans hlive
  have hshut : m.connection.admission? x = none ∧
      (m.connection.after x).drain.phase = .closed := by
    rcases h.shut with hend | hp | ⟨hnone, rest, hq⟩
    · rw [hend] at hlive
      contradiction
    · exact Connection.after_closed hm.coherent hp x
    · cases hdue with
      | event e rest now hwaits =>
          obtain ⟨rfl, -⟩ := List.cons.inj (hwaits.symm.trans hq)
          exact ⟨rfl, Connection.close_shuts hheeds.server now ht⟩
      | gone now hempty hzero =>
          rw [hempty] at hq
          contradiction
      | timer d now hd hle =>
          rw [hnone] at hd
          contradiction
  obtain ⟨hvacant, hbarren⟩ := h.after hm x.now hshut.1
  rw [turn_eq]
  exact ⟨hvacant, hbarren, .inr (.inl hshut.2)⟩

theorem Barred.step (h : Barred m) (hheeds : Heeds m) (hm : m.Sound) (s : Step T m n) :
    Barred n := by
  cases s with
  | enqueue e he hlive =>
      refine ⟨h.vacant, h.barren, h.shut.imp_right (.imp_right fun ⟨hnone, rest, hq⟩ => ?_)⟩
      exact ⟨hnone, rest ++ [e], by rw [hq]; rfl⟩
  | clone | drop | detach => exact ⟨h.vacant, h.barren, h.shut⟩
  | closing => exact ⟨h.vacant, h.barren, h.shut⟩
  | serve stream demand allowance now =>
      rw [stamp_eq]
      obtain ⟨hvacant, hbarren⟩ :=
        h.after hm (x := ⟨.serve stream demand allowance, now⟩) now rfl
      exact ⟨hvacant, hbarren, h.shut⟩
  | turn hdue hlive => exact h.turn hheeds hm hdue hlive

/-- A connection ends because it was told so, or nobody is left to tell it
anything, and its sink is there for as long as nobody gives it up. -/
structure Parted (told cut : Prop) (m : Member) : Prop where
  queue : ∀ e ∈ m.queue, (Connection.Input.event e).ends = true → told
  finished : m.finished = true → m.handles = 0 ∨ told
  attached : m.attached = true ∨ cut

variable {told cut : Prop}

theorem Parted.turn (h : Parted told cut m) (hm : m.Sound) {x : Connection.Call}
    {queue : List Connection.Event} (hdue : m.Due x queue) (hlive : m.finished = false) :
    Parted told cut ({ m with queue := queue }.turn x.now fun c => c.after x) := by
  have ht : m.connection.tornDown = false := hm.ended.symm.trans hlive
  have hqueue : ∀ e ∈ queue, (Connection.Input.event e).ends = true → told := by
    cases hdue with
    | event e rest now hwaits =>
        exact fun f hf => h.queue f (hwaits ▸ List.mem_cons_of_mem e hf)
    | gone now hempty hzero => exact h.queue
    | timer d now hd hle => exact h.queue
  rw [turn_eq]
  refine ⟨fun e he => hqueue e ?_, fun hend => ?_, h.attached⟩
  · simp only at he
    split at he
    · contradiction
    · exact he
  · simp only [hlive, Bool.false_or] at hend
    have hcoh := Connection.invariant_coherent.after hm.coherent hm.coherent x
    have hends : x.input.ends = true :=
      (Connection.after_outcome (R := fun _ _ => True) hm.distinct x trivial).ends_of_tornDown ht
        (hcoh.halted_iff.mp hend)
    cases hdue with
    | event e rest now hwaits =>
        exact .inr (h.queue e (hwaits ▸ List.mem_cons_self) hends)
    | gone now hempty hzero => exact .inl hzero
    | timer d now hd hle => contradiction

theorem Parted.step (h : Parted told cut m) (hm : m.Sound)
    (htold : ∀ e, T (.event e) → (Connection.Input.event e).ends = true → told)
    (hcut : T .detach → cut) (s : Step T m n) : Parted told cut n := by
  cases s with
  | enqueue e he hlive =>
      refine ⟨fun f hf hends => ?_, h.finished, h.attached⟩
      rcases List.mem_append.mp hf with hf | hf
      · exact h.queue f hf hends
      · obtain rfl := List.mem_singleton.mp hf
        exact htold f he hends
  | clone hh =>
      refine ⟨h.queue, fun hend => .inr ((h.finished hend).resolve_left ?_), h.attached⟩
      exact Nat.ne_of_gt hh
  | drop hh =>
      refine ⟨h.queue, fun hend => .inr ((h.finished hend).resolve_left ?_), h.attached⟩
      exact Nat.ne_of_gt hh
  | detach hgiven => exact ⟨h.queue, h.finished, .inr (hcut hgiven)⟩
  | closing => exact ⟨h.queue, h.finished, h.attached⟩
  | serve stream demand allowance now => exact ⟨h.queue, h.finished, h.attached⟩
  | turn hdue hlive => exact h.turn hm hdue hlive

end Member

open Member

variable {r : Registry}

def Member.summoned (m : Member) : Member :=
  let m := { m with connection := { m.connection with serverClosing := true } }
  if m.reachable then (m.enqueue .close).1 else m

theorem shutdownAll_members (h : Orderly r) :
    r.shutdownAll.1.members = r.members.map Member.summoned := by
  rw [shutdownAll, broadcast, List.map_map]
  refine List.map_congr_left fun m hm => ?_
  have hreached : r.yields m = true ↔ m.reachable = true := by rw [h.yields_eq hm]
  exact if_congr hreached rfl rfl

theorem shutdownAll_get (h : Orderly r) (k : Nat) :
    r.shutdownAll.1.members[k]? = r.members[k]?.map Member.summoned := by
  rw [shutdownAll_members h, List.getElem?_map]

theorem Member.Heeds.settled {m : Member} (h : m.Heeds) (hm : m.Sound) (hidle : m.Idle)
    (hlive : m.finished = false) :
    m.connection.drain.phase = .closed ∧ m.connection.state = .closing := by
  obtain ⟨hq, hh⟩ := hidle.resolve_left (by simp [hlive])
  have hphase : m.connection.drain.phase = .closed := by
    rcases h.close with hend | hp | hwaits | hnone
    · rw [hend] at hlive
      contradiction
    · exact hp
    · rw [hq] at hwaits
      contradiction
    · rw [hnone] at hh
      contradiction
  refine ⟨hphase, ?_⟩
  rw [hm.coherent.state, hphase, ← hm.ended, hlive]
  rfl

section Settling

variable {m : Member} {now target : Instant}

theorem Member.Idle.turn (h : m.Idle) (f : Connection → Connection) : (m.turn now f).Idle := by
  rw [turn_eq]
  by_cases hs : (f m.connection).halted = true
  · exact .inl (by simp [hs])
  · rcases h with hend | ⟨hq, hh⟩
    · exact .inl (by simp [hend])
    · exact .inr ⟨by simp [hs, hq], hh⟩

theorem Member.Idle.fireTimers (h : m.Idle) (turns : Nat) :
    (m.fireTimers now target turns).Idle := by
  induction turns generalizing m now with
  | zero => exact h
  | succ turns ih =>
      rw [Member.fireTimers]
      split
      · exact h
      · split
        · exact h
        · simp only
          split
          · exact ih (h.turn _)
          · exact h

theorem run_idle (hm : m.Sound) : (m.run now target).Idle := by
  rw [Member.run]
  split
  · rename_i hend
    exact .inl hend
  · rename_i hlive
    apply Member.Idle.fireTimers
    have hq := drainQueue_queue m now m.queue (by simpa using hlive)
    have hsound :=
      (steps_drainQueue (T := fun _ => True) m now m.queue (by simpa using hlive)).sound
      hm
    generalize m.drainQueue now m.queue = n at hq hsound
    rw [release]
    split
    · have hgone := (Connection.after_outcome (R := fun _ _ => True) hsound.distinct
        ⟨.event (.lifecycle .removed), now⟩ trivial).ended rfl
      have hcoh := Connection.invariant_coherent.after hsound.coherent hsound.coherent
        ⟨.event (.lifecycle .removed), now⟩
      have hs : (n.connection.onLifecycle .removed now).halted = true :=
        hcoh.halted_iff.mpr hgone
      exact .inl (by simp [turn_eq, hs])
    · rename_i hheld
      cases hend : n.finished with
      | true => exact .inl hend
      | false =>
          refine .inr ⟨hq, Nat.pos_of_ne_zero fun hnone => hheld ?_⟩
          simp [live, hend, hnone]

def Fresh (now : Instant) (m n : Member) : Prop := ∀ p ∈ n.history, p ∈ m.history ∨ p.1 = now

theorem Fresh.refl (m : Member) : Fresh now m m := fun _ hp => .inl hp

theorem Fresh.trans {n o : Member} (h : Fresh now m n) (g : Fresh now n o) : Fresh now m o :=
  fun p hp => (g p hp).elim (h p) .inr

end Settling

end Registry

end HttpLifecycle
