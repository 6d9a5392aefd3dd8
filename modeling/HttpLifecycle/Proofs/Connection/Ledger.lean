import HttpLifecycle.Proofs.Connection.Outcome
import Mathlib.Data.List.Nodup

namespace HttpLifecycle

def AccessRecord.admission (a : AccessRecord) : Admission :=
  ⟨a.stream, a.startedAt, a.path, a.service⟩

def Effect.record? : Effect → Option AccessRecord
  | .record a => some a
  | _ => none

def recordsOf (es : List Effect) : List AccessRecord := es.filterMap Effect.record?

def openings (es : List Effect) : Nat := es.count (.count .streamsOpened)

theorem recordsOf_append (es fs : List Effect) :
    recordsOf (es ++ fs) = recordsOf es ++ recordsOf fs := List.filterMap_append

theorem openings_append (es fs : List Effect) : openings (es ++ fs) = openings es + openings fs :=
  List.count_append

def Effect.booked : Effect → Bool
  | .count .streamsOpened | .record _ => true
  | _ => false

def Unbooked (es : List Effect) : Prop := ∀ e ∈ es, e.booked = false

theorem unbooked_nil : Unbooked [] := List.forall_mem_nil _

theorem Tending.unbooked {es : List Effect} (h : Tending es) : Unbooked es := by
  intro e he
  have htending := h e he
  cases e with
  | count k => cases k <;> first | rfl | contradiction
  | record a => contradiction
  | _ => rfl

theorem Upkeep.unbooked {es : List Effect} (h : Upkeep es) : Unbooked es := by
  intro e he
  have hupkeep := h e he
  cases e with
  | count k => cases k <;> first | rfl | contradiction
  | record a => contradiction
  | _ => rfl

theorem Unbooked.recordsOf {es : List Effect} (h : Unbooked es) : recordsOf es = [] := by
  refine List.filterMap_eq_nil_iff.mpr fun e he => ?_
  have hbooked := h e he
  cases e with
  | record a => contradiction
  | _ => rfl

theorem Unbooked.openings {es : List Effect} (h : Unbooked es) : openings es = 0 := by
  refine List.count_eq_zero.mpr fun he => ?_
  have hbooked := h _ he
  contradiction

namespace Connection

def table (c : Connection) : List Admission := c.streams.map (·.admission)

def displaced? (c : Connection) (x : Call) : Option Admission :=
  (c.arrival? x).bind fun a => (c.find? a.stream).map (·.admission)

def admissions (c : Connection) : List Call → List Admission
  | [] => []
  | x :: rest => (c.arrival? x).toList ++ (c.after x).admissions rest

def displaced (c : Connection) : List Call → List Admission
  | [] => []
  | x :: rest => (c.displaced? x).toList ++ (c.after x).displaced rest

/-- From one connection to another the books were kept: what came in was
counted, and what left the table went on record, but for what was lost. -/
def Posted (c d : Connection) (came lost : List Admission) : Prop :=
  ∃ es, d.journal = c.journal ++ es ∧ openings es = came.length ∧
    ((recordsOf es).map (·.admission) ++ d.table ++ lost).Perm (c.table ++ came)

variable {R : Intake → Bytes → Prop} {c d : Connection} {x : Call}

namespace Posted

theorem unbooked {es : List Effect} (h : Unbooked es) (hj : d.journal = c.journal ++ es)
    (ht : d.table.Perm c.table) : Posted c d [] [] := by
  refine ⟨es, hj, h.openings, ?_⟩
  rw [h.recordsOf, List.append_nil, List.append_nil]
  exact ht

theorem trans {e : Connection} {came more lost gone : List Admission} (h : Posted c d came lost)
    (g : Posted d e more gone) : Posted c e (came ++ more) (lost ++ gone) := by
  obtain ⟨es, hj, hn, hp⟩ := h
  obtain ⟨fs, hk, hm, hq⟩ := g
  refine ⟨es ++ fs, by rw [hk, hj, List.append_assoc], ?_, ?_⟩
  · rw [openings_append, hn, hm, List.length_append]
  · rw [recordsOf_append, List.map_append]
    simp only [List.perm_iff_count, List.count_append] at hp hq ⊢
    intro a
    have hbefore := hp a
    have hlater := hq a
    omega

end Posted

theorem Distinct.unique (h : Distinct c) {r s : Request} (hr : r ∈ c.streams) (hs : s ∈ c.streams)
    (hid : r.stream = s.stream) : r = s :=
  List.inj_on_of_nodup_map h hr hs hid

theorem table_remove (h : Distinct c) {old : Request} (hr : c.find? old.stream = some old) :
    c.table.Perm (old.admission :: (c.remove old.stream).table) := by
  have hmem := List.mem_of_find?_eq_some hr
  have hnodup : c.streams.Nodup := List.Nodup.of_map _ h
  have hrest : c.streams.filter (fun s => s.stream != old.stream) = c.streams.erase old := by
    rw [hnodup.erase_eq_filter]
    refine List.filter_congr fun s hs => ?_
    by_cases hid : s.stream = old.stream
    · obtain rfl := h.unique hs hmem hid
      rw [bne_self_eq_false, bne_self_eq_false]
    · have hne : s ≠ old := fun he => hid (congrArg _ he)
      rw [bne_iff_ne.mpr hid, bne_iff_ne.mpr hne]
  have hperm := (List.perm_cons_erase hmem).map (·.admission)
  rw [← hrest] at hperm
  exact hperm

theorem update_remove (c : Connection) (r : Request) :
    (c.update r).remove r.stream = c.remove r.stream := by
  simp only [update, remove]
  congr 1
  induction c.streams with
  | nil => rfl
  | cons s rest ih =>
      rw [List.map_cons, List.filter_cons, List.filter_cons, ih]
      by_cases hid : s.stream = r.stream <;> simp [hid]

theorem table_update (h : Distinct c) {old r : Request} (hr : c.find? r.stream = some old) :
    ((c.update r).table ++ [old.admission]).Perm (c.table ++ [r.admission]) := by
  have hdistinct : Distinct (c.update r) := by rwa [Distinct, update_ids]
  have hnew := table_remove hdistinct (find?_update hr)
  rw [update_remove] at hnew
  have hid := find?_stream hr
  rw [← hid] at hr
  have hold := table_remove h hr
  rw [hid] at hold
  simp only [List.perm_iff_count, List.count_append, List.count_cons, List.count_nil] at hnew hold ⊢
  intro a
  have ha := hnew a
  have hb := hold a
  omega

theorem StreamsKept.posted (h : StreamsKept c d) : Posted c d [] [] := by
  obtain ⟨_, _, _, _, _, _, _, _, es, hes⟩ := h
  exact .unbooked hes.unbooked rfl (.refl _)

theorem StreamStep.posted (h : Distinct c) (m : StreamStep R true c d) : Posted c d [] [] := by
  cases m with
  | upkeep ha => exact ha.posted
  | serve i dispatched es hi hes => exact .unbooked hes.unbooked rfl (.refl _)
  | amend old r hr hstays =>
      rw [← hstays.stream] at hr
      have hsame := table_update h hr
      rw [hstays.admission] at hsame
      exact .unbooked unbooked_nil (List.append_nil _).symm
        ((List.perm_append_right_iff _).mp hsame)
  | leave old r now hr hstays =>
      refine ⟨[.record (.ofRequest r now)], rfl, rfl, ?_⟩
      have hleft := table_remove h hr
      rw [← hstays.admission, ← hstays.stream] at hleft
      rw [List.append_nil, List.append_nil]
      exact hleft.symm

theorem StreamSteps.posted (h : Distinct c) (m : StreamSteps R true c d) : Posted c d [] [] := by
  induction m with
  | refl => exact .unbooked unbooked_nil (List.append_nil _).symm (.refl _)
  | tail m n ih => exact ih.trans (n.posted (StreamSteps.distinct h m))

theorem Opens.counted {r : Request} (m : Opens R c r d) :
    ∃ es, d.journal = c.journal ++ es ∧ openings es = 1 ∧ recordsOf es = [] ∧ Own r.stream es := by
  obtain ⟨_, _, _, before, rest, -, hbefore, hrest, hown⟩ := m
  refine ⟨before ++ .count .streamsOpened :: rest, rfl, ?_, ?_, ?_⟩
  · have hone : openings (.count .streamsOpened :: rest) = openings rest + 1 :=
      List.count_cons_self
    rw [openings_append, hone, hbefore.unbooked.openings, hrest.unbooked.openings]
  · have hnone : recordsOf (.count .streamsOpened :: rest) = recordsOf rest := rfl
    rw [recordsOf_append, hnone, hbefore.unbooked.recordsOf, hrest.unbooked.recordsOf]
    rfl
  · exact own_append (hbefore.own _) (own_cons (fun s tag cause h => by contradiction) hown)

theorem Opens.posted {r : Request} (h : Distinct c) (m : Opens R c r d) :
    Posted c (d.put r) [r.admission] ((c.find? r.stream).map (·.admission)).toList := by
  obtain ⟨es, hj, hone, hnone, -⟩ := m.counted
  have hfind : d.find? r.stream = c.find? r.stream := by rw [find?, find?, m.streams]
  have htable : d.table = c.table := by rw [table, table, m.streams]
  cases hf : c.find? r.stream with
  | none =>
      rw [put_free (hfind.trans hf)]
      refine ⟨es, hj, hone, ?_⟩
      rw [hnone, table, List.map_append, m.streams]
      exact .of_eq (List.append_nil _)
  | some old =>
      have hfound := hfind.trans hf
      have hgone := (old.inner_discard d.intake).tending.unbooked
      rw [put_taken hfound]
      refine ⟨es ++ (old.discard d.intake).events, by rw [← List.append_assoc, ← hj]; rfl, ?_, ?_⟩
      · rw [openings_append, hone, hgone.openings]
        rfl
      · rw [recordsOf_append, hnone, hgone.recordsOf, ← htable]
        exact table_update (by rwa [Distinct, m.streams]) hfound

def reopens (c : Connection) (x : Call) : Bool :=
  match x.input with
  | .event (.headers stream _ _) => (c.find? stream).isSome
  | _ => false

/-- No stream is asked for again while it is open. -/
def Fresh (c : Connection) : List Call → Prop
  | [] => True
  | x :: rest => c.reopens x = false ∧ (c.after x).Fresh rest

instance decidableFresh : (c : Connection) → (xs : List Call) → Decidable (c.Fresh xs)
  | _, [] => .isTrue trivial
  | c, x :: rest =>
    have := decidableFresh (c.after x) rest
    inferInstanceAs (Decidable (_ ∧ _))

theorem displaced?_fresh (h : c.reopens x = false) : c.displaced? x = none := by
  rw [displaced?]
  cases ha : c.arrival? x with
  | none => rfl
  | some a =>
      rw [arrival?] at ha
      split at ha
      · rename_i stream headers endOfStream hinput hok
        obtain rfl := Option.some.inj ha
        rw [reopens, hinput] at h
        have hfree : c.find? stream = none := Option.isNone_iff_eq_none.mp (by simpa using h)
        rw [Option.bind_some, hfree]
        rfl
      · contradiction

theorem Fresh.displaced {xs : List Call} (h : c.Fresh xs) : c.displaced xs = [] := by
  induction xs generalizing c with
  | nil => rfl
  | cons x rest ih =>
      rw [Connection.displaced, displaced?_fresh h.1, ih h.2]
      rfl

theorem Outcome.posted (h : Distinct c) (o : Outcome R c x d) :
    Posted c d (c.arrival? x).toList (c.displaced? x).toList := by
  cases o with
  | stays harrival hends m =>
      rw [displaced?, harrival]
      exact m.posted h
  | ends harrival hends m hnone =>
      have hended := m.posted h
      rw [displaced?, harrival]
      exact hended
  | admits harrival hends hrank m n =>
      have hopened := (m.posted h).trans n.posted
      rw [List.append_nil, List.append_nil] at hopened
      rw [displaced?, harrival]
      exact hopened

theorem run_posted (h : Distinct c) (xs : List Call) :
    Posted c (c.run xs) (c.admissions xs) (c.displaced xs) := by
  induction xs generalizing c with
  | nil => exact .unbooked unbooked_nil (List.append_nil _).symm (.refl _)
  | cons x rest ih =>
      have ho := after_outcome (R := fun _ _ => True) h x trivial
      exact (ho.posted h).trans (ih (ho.distinct h))

def Settled (c : Connection) : Prop := c.tornDown = true → c.streams = []

theorem Outcome.settled (hcoh : Coherent c) (h : Settled c) (o : Outcome R c x d) : Settled d := by
  intro ht
  cases o with
  | stays harrival hends m => exact m.vacant (h (m.attached.symm.trans ht))
  | ends harrival hends m hnone => exact hnone
  | admits harrival hends hrank m n =>
      have hgone := (m.tornDown.symm.trans (put_tornDown _ _).symm).trans (n.tornDown.symm.trans ht)
      rw [hcoh.attached hrank] at hgone
      contradiction

theorem run_settled (hcoh : Coherent c) (hd : Distinct c) (h : Settled c) (xs : List Call) :
    Settled (c.run xs) := by
  induction xs generalizing c with
  | nil => exact h
  | cons x rest ih =>
      have ho := after_outcome (R := fun _ _ => True) hd x trivial
      exact ih (invariant_coherent.after hcoh hcoh x) (ho.distinct hd) (ho.settled hcoh h)

theorem run_ended (hd : Distinct c) (xs : List Call)
    (h : c.tornDown = true ∨ ∃ x ∈ xs, x.input.ends = true) : (c.run xs).tornDown = true := by
  induction xs generalizing c with
  | nil => exact h.elim (fun ht => ht) fun ⟨y, hy, _⟩ => absurd hy List.not_mem_nil
  | cons x rest ih =>
      have ho := after_outcome (R := fun _ _ => True) hd x trivial
      refine ih (ho.distinct hd) ?_
      rcases h with ht | ⟨y, hy, hends⟩
      · exact .inl (ho.tornDown ht)
      · rcases List.mem_cons.mp hy with rfl | hy
        · exact .inl (ho.ended hends)
        · exact .inr ⟨y, hy, hends⟩

theorem displaced_append (c : Connection) (xs ys : List Call) :
    c.displaced (xs ++ ys) = c.displaced xs ++ (c.run xs).displaced ys := by
  induction xs generalizing c with
  | nil => rfl
  | cons x rest ih =>
      show (c.displaced? x).toList ++ (c.after x).displaced (rest ++ ys) = _
      rw [ih, ← List.append_assoc]
      rfl

/-- Whatever was admitted is on record, or open, or was displaced. -/
theorem books_kept (hj : c.journal = []) (hs : c.streams = []) (xs : List Call) :
    openings (c.run xs).journal = (c.admissions xs).length ∧
      ((recordsOf (c.run xs).journal).map (·.admission) ++ (c.run xs).table ++
        c.displaced xs).Perm (c.admissions xs) := by
  have hdistinct : Distinct c := by
    rw [Distinct, hs]
    exact List.nodup_nil
  obtain ⟨es, hes, hn, hp⟩ := run_posted hdistinct xs
  rw [hj, List.nil_append] at hes
  have htable : c.table = [] := by rw [table, hs, List.map_nil]
  rw [htable, List.nil_append] at hp
  rw [hes]
  exact ⟨hn, hp⟩

theorem openings_run (hj : c.journal = []) (hs : c.streams = []) (xs : List Call) :
    openings (c.run xs).journal = (c.run xs).streams.length +
      (recordsOf (c.run xs).journal).length + (c.displaced xs).length := by
  obtain ⟨hn, hp⟩ := books_kept hj hs xs
  have hlength := hp.length_eq
  rw [List.length_append, List.length_append, List.length_map, table, List.length_map] at hlength
  omega

/-- As long as no stream is asked for again while it is open, whatever was
admitted is open or has its record, and never both. A call puts on record just
what it takes from the table, and the end of the transport takes everything. -/
theorem admissions_accounted (id : ConnectionId) (protocol : Protocol) (config : Config)
    (routes : Resolver) (handler : Handler) (start : Instant) (xs : List Call)
    (h : (create id protocol config routes handler start).Fresh xs) :
    let admitted := (create id protocol config routes handler start).admissions xs
    let c := (create id protocol config routes handler start).run xs
    openings c.journal = admitted.length ∧
      openings c.journal = c.streams.length + (recordsOf c.journal).length ∧
      ((recordsOf c.journal).map (·.admission) ++ c.table).Perm admitted ∧
      (∀ x, c.reopens x = false → Posted c (c.after x) (c.arrival? x).toList []) ∧
      ((∃ x ∈ xs, x.input.ends = true) →
        c.streams = [] ∧ ((recordsOf c.journal).map (·.admission)).Perm admitted) := by
  intro admitted c
  have hcoherent := coherent_create id protocol config routes handler start
  have hdistinct := distinct_create id protocol config routes handler start
  obtain ⟨hcount, hbooks⟩ :=
    books_kept (c := create id protocol config routes handler start) rfl rfl xs
  have hopenings := openings_run (c := create id protocol config routes handler start) rfl rfl xs
  rw [h.displaced, List.append_nil] at hbooks
  rw [h.displaced] at hopenings
  refine ⟨hcount, hopenings, hbooks, fun x hx => ?_, fun hends => ?_⟩
  · have ho := after_outcome (R := fun _ _ => True) (run_distinct hdistinct xs) x trivial
    have hposted := ho.posted (run_distinct hdistinct xs)
    rw [displaced?_fresh hx] at hposted
    exact hposted
  · have hsettled := run_settled hcoherent hdistinct (fun ht => by contradiction) xs
    have hnone : c.streams = [] := hsettled (run_ended hdistinct xs (.inr hends))
    have htable : c.table = [] := by rw [table, hnone, List.map_nil]
    have hall : ((recordsOf c.journal).map (·.admission) ++ c.table).Perm admitted := hbooks
    rw [htable, List.append_nil] at hall
    exact ⟨hnone, hall⟩

/-- Two streams and then the first id once more. -/
theorem admissions_accounted_reused :
    let c := create 1 .h2 {} (Routes.resolver [("/chat", ⟨"chat", .bidiStreaming, none, false⟩)])
      (fun _ _ => []) 0
    let xs : List Call := [⟨.event (.headers 1 { path := "/chat" } false), 1⟩,
      ⟨.event (.headers 3 {} true), 2⟩, ⟨.event (.complete 1), 3⟩, ⟨.event (.headers 1 {} true), 4⟩]
    let ys := xs ++ [⟨.event (.lifecycle .inactive), 5⟩, ⟨.event (.headers 5 {} true), 6⟩]
    c.Fresh ys ∧ openings (c.run xs).journal = 3 ∧ (c.run xs).streams.length = 2 ∧
      c.admissions ys = [⟨1, 1, "/chat", some "chat"⟩, ⟨3, 2, "/", none⟩, ⟨1, 4, "/", none⟩] ∧
      (c.run ys).streams = [] ∧
      ((recordsOf (c.run ys).journal).map (·.admission)).Perm (c.admissions ys) := by
  intro c xs ys
  have hfresh : c.Fresh ys := by decide +kernel
  have hends : ∃ y ∈ ys, y.input.ends = true :=
    ⟨_, List.mem_append_right xs List.mem_cons_self, rfl⟩
  have hxs : openings (c.run xs).journal = 3 ∧ (c.run xs).streams.length = 2 := by decide +kernel
  have hys : c.admissions ys =
      [⟨1, 1, "/chat", some "chat"⟩, ⟨3, 2, "/", none⟩, ⟨1, 4, "/", none⟩] := by decide +kernel
  obtain ⟨-, -, -, -, hgone⟩ := admissions_accounted 1 .h2 {}
    (Routes.resolver [("/chat", ⟨"chat", .bidiStreaming, none, false⟩)]) (fun _ _ => []) 0 ys hfresh
  exact ⟨hfresh, hxs.1, hxs.2, hys, hgone hends⟩

end Connection

end HttpLifecycle
