-- The ledger of a session, from the start to the end. Each frame puts in what it is
-- due, each answer settles one number, and the end settles all that are left.
import Fuse.Proofs.Ledger
import Fuse.Proofs.Runs

namespace Fuse.Session

variable {σ : Type} {srv : Server σ}

/-! ## Who holds what -/

/-- The ledger of the session, with the requests that are held in it. -/
def Ledger (received : List UInt64) (s : Session σ) : Prop := s.hub.Ledger received s.held

theorem Ledger.alike {received : List UInt64} {s s' : Session σ} (l : Ledger received s)
    (a : Alike s s') : Ledger received s' := by
  unfold Ledger
  rw [a.held]
  exact Hub.Ledger.alike l a.hub

theorem perm_kept {kept : List (Option Request)} {place : Nat} {r : Request}
    (h : kept[place]? = some (some r)) :
    (r :: (kept.set place none).filterMap id).Perm (kept.filterMap id) := by
  induction kept generalizing place with
  | nil => cases h
  | cons o kept ih =>
    cases place with
    | zero =>
      obtain rfl : o = some r := Option.some.inj h
      exact .refl _
    | succ place =>
      have hp := @ih place h
      cases o with
      | none => exact hp
      | some r' => exact (List.Perm.swap _ _ _).trans (hp.cons r')

theorem perm_tasks {tasks : List Task} {handle : Nat} {t : Task}
    (h : tasks.find? (·.request.handle == handle) = some t) :
    (t :: tasks.eraseP (·.request.handle == handle)).Perm tasks := by
  obtain ⟨ht, front, back, rfl, hfront⟩ := List.find?_eq_some_iff_append.mp h
  have he : (t :: back).eraseP (·.request.handle == handle) = back := List.eraseP_cons_of_pos ht
  rw [List.eraseP_append_right _ (fun u hu => by simpa using hfront u hu), he]
  exact List.perm_middle.symm

theorem perm_afterKept (srv : Server σ) {s : Session σ} {place : Nat} {r : Request}
    (h : s.kept[place]? = some (some r)) (a : Answer) :
    s.held.Perm (r :: (s.afterKept srv place r a).held) :=
  ((perm_kept h).symm.append_right _).trans (.refl _)

theorem perm_afterTask (srv : Server σ) {s : Session σ} {handle : Nat} {t : Task}
    (h : s.tasks.find? (·.request.handle == handle) = some t) :
    s.held.Perm (t.request :: (s.afterTask srv handle t).held) :=
  (((perm_tasks h).symm.map _).append_left _).trans List.perm_middle

theorem perm_keep (s : Session σ) (r : Request) : (s.keep r).held.Perm (r :: s.held) := by
  show ((s.kept ++ [some r]).filterMap id ++ s.tasks.map (·.request)).Perm (r :: s.held)
  rw [List.filterMap_append, List.append_assoc]
  exact List.perm_middle

theorem perm_onInterrupt (s : Session σ) (r : Request) (a : Answer) :
    (s.use srv r (.onInterrupt a)).1.held.Perm (r :: s.held) := by
  show (s.kept.filterMap id ++ (s.tasks ++ [Task.mk r a]).map Task.request).Perm (r :: s.held)
  rw [List.map_append, ← List.append_assoc]
  exact List.perm_append_singleton _ _

/-! ## Answers -/

/-- An answer from outside moves nothing but the request that it answers. -/
theorem ledger_answerKept (srv : Server σ) {received : List UInt64} {s : Session σ}
    (l : Ledger received s) (ho : s.hub.queueOpen = true) (hr : s.hub.reachable = true)
    (place : Nat) (a : Answer) :
    Ledger received (s.answerKept srv place a).1 ∧
      ∀ u, (s.answerKept srv place a).1.hub.tally u = s.hub.tally u := by
  rcases answerKept_cases srv s place a with h | ⟨r, hk, h⟩
  · rw [h]
    exact ⟨l, fun _ => rfl⟩
  · rw [h]
    exact (Hub.Ledger.perm l (perm_afterKept srv hk a).symm).answer ho hr srv.profile a

theorem ledger_runTask (srv : Server σ) {received : List UInt64} {s : Session σ}
    (l : Ledger received s) (ho : s.hub.queueOpen = true) (hr : s.hub.reachable = true)
    (handle : Nat) :
    Ledger received (s.runTask srv handle) ∧
      ∀ u, (s.runTask srv handle).hub.tally u = s.hub.tally u := by
  rcases runTask_cases srv s handle with h | ⟨t, ht, h⟩
  · rw [h]
    exact ⟨l, fun _ => rfl⟩
  · rw [h]
    exact (Hub.Ledger.perm l (perm_afterTask srv ht).symm).answer ho hr srv.profile t.answer

/-- Without frames, every number keeps what it has had and is still to get. -/
theorem Course.ledger_idle {received : List UInt64} {s s' : Session σ}
    (c : Course srv s [] s') (l : Ledger received s) (ho : s.hub.queueOpen = true)
    (hr : s.hub.reachable = true) :
    Ledger received s' ∧ ∀ u, s'.hub.tally u = s.hub.tally u := by
  generalize hxs : ([] : List (Receipt σ)) = xs at c
  induction c with
  | refl => exact ⟨l, fun _ => rfl⟩
  | frame => exact absurd hxs (by simp)
  | answer d place a ih =>
    have hs := (d.onward ho).1
    obtain ⟨l', ht⟩ := ih hxs
    obtain ⟨l'', ht'⟩ := ledger_answerKept srv l' (hs.queueOpen.trans ho)
      (hs.reachable.trans hr) place a
    exact ⟨l'', fun u => (ht' u).trans (ht u)⟩
  | task d handle ih =>
    have hs := (d.onward ho).1
    obtain ⟨l', ht⟩ := ih hxs
    obtain ⟨l'', ht'⟩ := ledger_runTask srv l' (hs.queueOpen.trans ho)
      (hs.reachable.trans hr) handle
    exact ⟨l'', fun u => (ht' u).trans (ht u)⟩
  | quiet _ h ih =>
    obtain ⟨l', ht⟩ := ih hxs
    exact ⟨l'.alike h, fun u => (h.hub.tally u).trans (ht u)⟩

/-! ## Frames -/

/-- Whatever a handler does with its request: either it is held from then on, or it
is settled. -/
theorem ledger_use (srv : Server σ) {received : List UInt64} {s : Session σ} {r : Request}
    (l : s.hub.Ledger received (r :: s.held)) (ho : s.hub.queueOpen = true)
    (hr : s.hub.reachable = true) (use : Use) :
    Ledger received (s.use srv r use).1 ∧
      ∀ u, (s.use srv r use).1.hub.tally u = s.hub.tally u := by
  cases use with
  | answer a => exact l.answer ho hr srv.profile a
  | keep => exact ⟨l.perm (perm_keep s r), fun _ => rfl⟩
  | onInterrupt a =>
    have hw := Hub.alike_wake s.hub (.task r.handle)
    exact ⟨(l.alike hw).perm (perm_onInterrupt s r a), hw.tally⟩

theorem ledger_dispatch (srv : Server σ) {received : List UInt64} {s : Session σ}
    (l : Ledger received s) (ho : s.hub.queueOpen = true) (hr : s.hub.reachable = true)
    {header : Kernel.InHeader} {op : Operation} (hu : header.unique ∈ received)
    (hn : s.hub.pending.get? header.unique = none)
    (hf : op.kind.expectsReply = true → ∀ r ∈ s.held, r.unique ≠ header.unique) :
    Ledger received (s.dispatch srv header op) ∧
      ∀ u, (s.dispatch srv header op).hub.tally u =
        s.hub.tally u + if op.kind.expectsReply ∧ u = header.unique then 1 else 0 := by
  obtain ⟨l', ht⟩ := Hub.Ledger.enrol l hu hn hf
  have hs := Hub.steady_enrol s.hub header op
  rcases dispatch_cases srv s header op with ⟨a, h⟩ | ⟨t, use, hcalled, huse⟩
  · rw [h]
    obtain ⟨l'', ht'⟩ := l'.answer (hs.queueOpen.trans ho) (hs.reachable.trans hr) srv.profile a
    exact ⟨l'', fun u => (ht' u).trans (ht u)⟩
  · have hheld : t.held = s.held := hcalled.held
    have lt : t.hub.Ledger received ((s.hub.enrol header op).2 :: t.held) := by
      rw [hheld]
      exact l'.congr hcalled.hub.slots hcalled.hub.pending
    obtain ⟨l'', ht'⟩ := ledger_use srv lt
      (hcalled.hub.queueOpen.trans (hs.queueOpen.trans ho))
      (hcalled.hub.reachable.trans (hs.reachable.trans hr)) use
    refine ⟨l''.alike huse, ?_⟩
    intro u
    rw [huse.hub.tally, ht', ← ht, hcalled.hub.tally]
    have hq := Hub.queue_record (s.hub.enrol header op).1 (.called (s.hub.enrol header op).2 op)
    exact Hub.tally_congr (hq.trans (List.append_nil _)) rfl u

/-- A number that has no answer, and waits for none, is not pending. -/
theorem pending_of_tally {h : Hub} {u : UInt64} (ht : h.tally u = 0) :
    h.pending.get? u = none := by
  unfold Hub.tally at ht
  cases hg : h.pending.get? u with
  | none => rfl
  | some i =>
    rw [hg] at ht
    simp at ht

theorem ledger_dispatchForgets (srv : Server σ) {received : List UInt64} {s : Session σ}
    (l : Ledger received s) (ho : s.hub.queueOpen = true) (hr : s.hub.reachable = true)
    {header : Kernel.InHeader} (hu : header.unique ∈ received)
    (ht : s.hub.tally header.unique = 0) (items : List Kernel.ForgetOne) :
    Ledger received (s.dispatchForgets srv header items) ∧
      ∀ u, (s.dispatchForgets srv header items).hub.tally u = s.hub.tally u := by
  induction items generalizing s with
  | nil => exact ⟨l, fun _ => rfl⟩
  | cons i items ih =>
    have hs := steady_dispatch srv s header (.forget i.nodeid i.nlookup)
    have hsilent : (Operation.forget i.nodeid i.nlookup).kind.expectsReply = true →
        ∀ r ∈ s.held, r.unique ≠ header.unique := fun hk => by cases hk
    obtain ⟨l', ht'⟩ := ledger_dispatch srv l ho hr hu (pending_of_tally ht) hsilent
    have hsame : ∀ u, (s.dispatch srv header (.forget i.nodeid i.nlookup)).hub.tally u =
        s.hub.tally u := by
      intro u
      rw [ht' u]
      simp [Operation.kind, OpKind.expectsReply]
    obtain ⟨l'', ht''⟩ := ih l' (hs.queueOpen.trans ho) (hs.reachable.trans hr)
      ((hsame _).trans ht)
    exact ⟨l'', fun u => (ht'' u).trans (hsame u)⟩

/-- What a frame puts into the ledger: its number is new, and what it is due it has
had, or waits for, or gets at the very end. -/
theorem ledger_handled {received : List UInt64} {x : Receipt σ} {s' : Session σ}
    {ending : Option Ending} (hx : Handled srv x s' ending) (l : Ledger received x.session)
    (ho : x.session.hub.queueOpen = true) (hr : x.session.hub.reachable = true)
    (hnew : ∀ u, x.unique? = some u → u ∉ received)
    (hzero : ∀ u, x.unique? = some u → x.session.hub.tally u = 0) :
    Ledger (received ++ x.unique?.toList) s' ∧
      ∀ u, s'.hub.tally u + (ending.elim [] lastAnswer).countP (fun f => decide (f.unique = u)) =
        x.session.hub.tally u + if x.unique? = some u then x.due else 0 := by
  have hmore : Ledger (received ++ x.unique?.toList) x.session := by
    cases x.unique? with
    | none => rwa [Option.toList_none, List.append_nil]
    | some u => exact Hub.Ledger.more l u
  have hsent {header : Kernel.InHeader} {h : Hub} {t : Session σ} {f : Frame}
      (hh : x.header? = some header) (hd : x.due = 1) (hf : f.unique = header.unique)
      (hb : ∀ u, h.tally u = x.session.hub.tally u)
      (ha : Hub.Alike (h.record (.sent f)) t.hub) (u : UInt64) :
      t.hub.tally u = x.session.hub.tally u + if x.unique? = some u then x.due else 0 := by
    have hu := unique?_of_header? hh
    rw [ha.tally, Hub.tally_record_sent, hb, hf, hu, hd]
    simp
  cases hx with
  | dropped hd ha =>
    refine ⟨hmore.alike ha, ?_⟩
    intro u
    rw [ha.hub.tally, hd]
    simp
  | @refused t header e hh hd _ ha _ =>
    have hs := Hub.alike_send (ha.hub.queueOpen.trans ho) (.ofErrno header.unique e)
    have hl : t.hub.Ledger (received ++ x.unique?.toList) t.held := hmore.alike ha
    refine ⟨hl.congr (Hub.send_slots _ _) (Hub.send_pending _ _), ?_⟩
    exact hsent (t := t.sendErrno header.unique e) hh hd rfl ha.hub.tally hs
  | @forgotten header items hh hf _ =>
    have hu := unique?_of_header? hh
    have hin : header.unique ∈ received ++ x.unique?.toList := by simp [hu]
    have hd : x.due = 0 := by simp [Receipt.due, hf]
    obtain ⟨l', ht⟩ := ledger_dispatchForgets srv hmore ho hr hin (hzero _ hu) items
    refine ⟨l', ?_⟩
    intro u
    rw [ht u, hd]
    simp
  | @dispatched header op hh hd _ _ hk _ =>
    have hu := unique?_of_header? hh
    have hin : header.unique ∈ received ++ x.unique?.toList := by simp [hu]
    have hapart : op.kind.expectsReply = true →
        ∀ r ∈ x.session.held, r.unique ≠ header.unique := by
      intro _ r hr' he
      exact hnew _ hu (he ▸ l.received r hr')
    obtain ⟨l', ht⟩ := ledger_dispatch srv hmore ho hr hin
      (pending_of_tally (hzero _ hu)) hapart
    refine ⟨l', ?_⟩
    intro u
    rw [ht u, hk, hu, hd]
    simp [eq_comm]
  | @interrupted target handle hi _ =>
    have hd : x.due = 0 := by simp [Receipt.due, hi]
    refine ⟨Hub.Ledger.interrupt hmore handle, ?_⟩
    intro u
    rw [Hub.tally_interrupt, hd]
    simp
  | @dismissed header hh hd _ _ =>
    have hu := unique?_of_header? hh
    refine ⟨hmore, ?_⟩
    intro u
    rw [hu, hd]
    simp [lastAnswer, Frame.success]
  | @greeted header init hh hd _ _ =>
    obtain ⟨state, connection, f, ha, hf, -, -⟩ := handshake_spec srv header.unique init ho
    refine ⟨?_, ?_⟩
    · unfold Ledger
      rw [ha.held]
      exact Hub.Ledger.congr hmore ha.hub.slots ha.hub.pending
    · intro u
      have ht := hsent hh hd hf (h := { x.session.hub with state, connection })
        (fun _ => rfl) ha.hub u
      rw [ht]
      cases (x.session.handshake srv header.unique init).2 <;> simp [lastAnswer]

/-! ## Courses -/

/-- How many answers a number is due, by the frames that were received. -/
def dueTo (xs : List (Receipt σ)) (u : UInt64) : Nat :=
  xs.countP fun x => decide (x.unique? = some u ∧ x.due = 1)

theorem dueTo_concat (xs : List (Receipt σ)) (x : Receipt σ) (u : UInt64) :
    dueTo (xs ++ [x]) u = dueTo xs u + if x.unique? = some u then x.due else 0 := by
  have hd : x.due = 0 ∨ x.due = 1 := by
    unfold Receipt.due
    split <;> simp
  unfold dueTo
  rw [List.countP_append, List.countP_singleton]
  rcases hd with hd | hd <;> simp [hd]

theorem dueTo_of_not_mem {xs : List (Receipt σ)} {u : UInt64}
    (hu : u ∉ xs.filterMap Receipt.unique?) : dueTo xs u = 0 := by
  refine List.countP_eq_zero.mpr ?_
  intro x hx hp
  have hp' := (of_decide_eq_true hp).1
  exact hu (List.mem_filterMap.mpr ⟨x, hx, hp'⟩)

theorem nodup_front {xs ys : List (Receipt σ)}
    (h : ((xs ++ ys).filterMap Receipt.unique?).Nodup) :
    (xs.filterMap Receipt.unique?).Nodup := by
  rw [List.filterMap_append] at h
  exact (List.nodup_append.mp h).1

/-- The books are in order: the ledger agrees with the frames that were received,
and each number has had, or is still to get, what it is due. The last answer stands
apart, since nothing waits for it in the ledger. -/
structure Balanced (xs : List (Receipt σ)) (s : Session σ) (last : List Frame) : Prop where
  ledger : Ledger (xs.filterMap Receipt.unique?) s
  tally : ∀ u, s.hub.tally u + last.countP (fun f => decide (f.unique = u)) = dueTo xs u

theorem balanced_start (user : σ) : Balanced [] (start user) [] := by
  refine ⟨⟨.nil, .nil, ?_, ?_, ?_, ?_⟩, fun _ => rfl⟩
  · intro r hr
    cases hr
  · intro r hr
    cases hr
  · intro u i hg
    cases hg
  · intro r hr
    cases hr

theorem Balanced.frame {xs : List (Receipt σ)} {x : Receipt σ} {s' : Session σ}
    {ending : Option Ending} (b : Balanced xs x.session [])
    (ho : x.session.hub.queueOpen = true) (hr : x.session.hub.reachable = true)
    (h : x.session.handleFrame srv x.frame = (s', ending))
    (hn : ((xs ++ [x]).filterMap Receipt.unique?).Nodup) :
    Balanced (xs ++ [x]) s' (ending.elim [] lastAnswer) := by
  have hx := handled srv x.session x.frame
  rw [h] at hx
  have hmap : (xs ++ [x]).filterMap Receipt.unique? =
      xs.filterMap Receipt.unique? ++ x.unique?.toList := by
    rw [List.filterMap_append]
    congr 1
  rw [hmap] at hn
  have hnew : ∀ u, x.unique? = some u → u ∉ xs.filterMap Receipt.unique? := by
    intro u hu hm
    rw [hu] at hn
    exact (List.nodup_append.mp hn).2.2 u hm u List.mem_cons_self rfl
  have hzero : ∀ u, x.unique? = some u → x.session.hub.tally u = 0 := by
    intro u hu
    have ht := b.tally u
    rw [dueTo_of_not_mem (hnew u hu)] at ht
    exact ht
  obtain ⟨l, ht⟩ := ledger_handled hx b.ledger ho hr hnew hzero
  refine ⟨hmap ▸ l, ?_⟩
  intro u
  rw [ht u, dueTo_concat, ← b.tally u]
  rfl

/-- Along every course from the start the books are in order. -/
theorem Course.balanced {user : σ} {xs : List (Receipt σ)} {s : Session σ}
    (c : Course srv (start user) xs s) (hn : (xs.filterMap Receipt.unique?).Nodup) :
    Balanced xs s [] := by
  induction c with
  | refl => exact balanced_start user
  | @frame xs s' s'' frame d h ih =>
    have hd := d.open (open_start user)
    exact Balanced.frame (x := ⟨s', frame⟩) (ih (nodup_front hn)) hd.queueOpen hd.reachable h hn
  | answer d place a ih =>
    have hd := d.open (open_start user)
    have b := ih hn
    obtain ⟨l, ht⟩ := ledger_answerKept srv b.ledger hd.queueOpen hd.reachable place a
    exact ⟨l, fun u => (congrArg (· + 0) (ht u)).trans (b.tally u)⟩
  | task d handle ih =>
    have hd := d.open (open_start user)
    have b := ih hn
    obtain ⟨l, ht⟩ := ledger_runTask srv b.ledger hd.queueOpen hd.reachable handle
    exact ⟨l, fun u => (congrArg (· + 0) (ht u)).trans (b.tally u)⟩
  | quiet _ h ih =>
    have b := ih hn
    exact ⟨b.ledger.alike h, fun u => (congrArg (· + 0) (h.hub.tally u)).trans (b.tally u)⟩

theorem Ends.balanced {user : σ} {xs : List (Receipt σ)} {s : Session σ} {ending : Ending}
    (e : Ends srv (start user) xs s ending) (hn : (xs.filterMap Receipt.unique?).Nodup) :
    Balanced xs s (lastAnswer ending) := by
  cases e with
  | outside c hd =>
    have hl : lastAnswer ending = [] := by
      unfold lastAnswer
      split
      · rename_i unique
        exact absurd rfl (hd unique)
      · rfl
    rw [hl]
    exact c.balanced hn
  | @frame xs s' s'' frame _ c h =>
    have hd := c.open (open_start user)
    exact Balanced.frame (x := ⟨s', frame⟩) (c.balanced (nodup_front hn)) hd.queueOpen
      hd.reachable h hn

/-! ## The end -/

/-- Whether there is someone to be told about the end. -/
def HasFarewell (srv : Server σ) (s : Session σ) : Prop :=
  s.hub.connection.isSome = true ∧ srv.table.onDestroy.isSome = true

/-- The farewell is a course of answers, after the file system was told about the
end. -/
theorem course_farewell (srv : Server σ) (s : Session σ) :
    ¬HasFarewell srv s ∧ s.farewell srv = s ∨
      HasFarewell srv s ∧ Course srv (s.record .dismissed) [] (s.farewell srv) := by
  unfold farewell HasFarewell
  split
  · rename_i handler hconnection hdestroy
    refine Or.inr ⟨by simp [hconnection, hdestroy], ?_⟩
    dsimp only
    have c := course_answerAllKept srv (s.record .dismissed)
      (handler s.user s.hub.state).answers
    split
    · exact c.quiet ⟨Hub.alike_note _ _, rfl, rfl, rfl⟩
    · exact c.quiet ⟨.refl _, rfl, rfl, rfl⟩
  · rename_i hnone
    refine Or.inl ⟨?_, rfl⟩
    intro ⟨hconnection, hdestroy⟩
    obtain ⟨c, hc⟩ := Option.isSome_iff_exists.mp hconnection
    obtain ⟨handler, hd⟩ := Option.isSome_iff_exists.mp hdestroy
    exact hnone c handler hc hd

/-- The session when the file system has said goodbye, before the rest is closed. -/
def dismissed (srv : Server σ) (s : Session σ) : Session σ := (s.enter .destroying).farewell srv

/-- The session before the farewell: another state, and perhaps one more deed. -/
structure Parting (s t : Session σ) : Prop where
  later : Hub.Later s.hub t.hub
  state : t.hub.state = .destroying
  connection : t.hub.connection = s.hub.connection
  slots : t.hub.slots = s.hub.slots
  pending : t.hub.pending = s.hub.pending
  queue : t.hub.queue = s.hub.queue
  calls : t.hub.calls = s.hub.calls
  queueOpen : t.hub.queueOpen = s.hub.queueOpen
  reachable : t.hub.reachable = s.hub.reachable
  held : t.held = s.held

/-- The end begins with a parting, and then only answers are given. -/
theorem parting (srv : Server σ) (s : Session σ) :
    ∃ t, Parting s t ∧ Course srv t [] (s.dismissed srv) := by
  have hlater : Hub.Later s.hub (s.enter .destroying).hub :=
    (Hub.onward_stand s.hub .destroying s.hub.connection).toLater.trans
      (Hub.alike_enter s.hub .destroying).steady.toLater
  have hqueue : (s.enter .destroying).hub.queue = s.hub.queue :=
    (Hub.queue_record { s.hub with state := .destroying } _).trans (List.append_nil _)
  have hcalls : (s.enter .destroying).hub.calls = s.hub.calls :=
    (Hub.calls_record { s.hub with state := .destroying } _).trans (List.append_nil _)
  have hentered : Parting s (s.enter .destroying) :=
    ⟨hlater, rfl, rfl, rfl, rfl, hqueue, hcalls, rfl, rfl, rfl⟩
  rcases course_farewell srv (s.enter .destroying) with ⟨-, h⟩ | ⟨-, c⟩
  · refine ⟨_, hentered, ?_⟩
    unfold dismissed
    rw [h]
    exact .refl
  · have hq := (Hub.queue_record (s.enter .destroying).hub .dismissed).trans (List.append_nil _)
    have hc := (Hub.calls_record (s.enter .destroying).hub .dismissed).trans (List.append_nil _)
    have hrecord := Hub.later_record (s.enter .destroying).hub (d := .dismissed) rfl
    exact ⟨(s.enter .destroying).record .dismissed, ⟨hlater.trans hrecord, rfl, rfl, rfl, rfl,
      hq.trans hqueue, hc.trans hcalls, rfl, rfl, rfl⟩, c⟩

/-- The farewell leaves the books in order. -/
theorem ledger_dismissed (srv : Server σ) {received : List UInt64} {s : Session σ}
    (l : Ledger received s) (ho : s.hub.queueOpen = true) (hr : s.hub.reachable = true) :
    Ledger received (s.dismissed srv) ∧ ∀ u, (s.dismissed srv).hub.tally u = s.hub.tally u := by
  obtain ⟨t, ht, c⟩ := parting srv s
  have lt : Ledger received t := by
    unfold Ledger
    rw [ht.held]
    exact Hub.Ledger.congr l ht.slots ht.pending
  obtain ⟨l', htally⟩ := c.ledger_idle lt (ht.queueOpen.trans ho) (ht.reachable.trans hr)
  exact ⟨l', fun u => (htally u).trans (Hub.tally_congr ht.queue ht.pending u)⟩

theorem queueOpen_dismissed (srv : Server σ) (s : Session σ) :
    (s.dismissed srv).hub.queueOpen = s.hub.queueOpen := by
  obtain ⟨t, ht, c⟩ := parting srv s
  exact c.steady.1.queueOpen.trans ht.queueOpen

/-- The end closes what is still pending, and then says the last word. -/
theorem queue_windDown_closing {s : Session σ} (ho : s.hub.queueOpen = true) (ending : Ending) :
    (s.windDown srv ending).hub.queue =
      ((s.dismissed srv).hub.closePending srv.drain).queue ++ lastAnswer ending := by
  have hopen := (Hub.steady_closePending srv.drain (s.dismissed srv).hub).queueOpen.trans
    ((queueOpen_dismissed srv s).trans ho)
  rcases ending with e | exit
  · exact (List.append_nil _).symm
  · cases exit with
    | destroy unique => exact Hub.send_queue _ (.success unique) hopen
    | unmounted => exact (List.append_nil _).symm
    | shutdown => exact (List.append_nil _).symm

/-- The end answers what is still pending. -/
theorem queue_windDown {received : List UInt64} {s : Session σ} (l : Ledger received s)
    (ho : s.hub.queueOpen = true) (hr : s.hub.reachable = true) (ending : Ending) :
    (s.windDown srv ending).hub.queue = (s.dismissed srv).hub.queue ++
      ((srv.drain.order (s.dismissed srv).hub.pending).map fun p => .ofErrno p.1 .enotconn) ++
        lastAnswer ending := by
  have l' := (ledger_dismissed srv l ho hr).1
  rw [queue_windDown_closing ho, Hub.queue_closePending srv.drain l'.sorted
    (fun _ => l'.slot_of_pending) ((queueOpen_dismissed srv s).trans ho)]

/-- A number is answered in the end if it is pending then, whenever its turn comes. -/
theorem count_closing (drain : Drain) {received : List UInt64} {s : Session σ}
    (l : Ledger received s) (u : UInt64) :
    ((drain.order s.hub.pending).map fun p => Frame.ofErrno p.1 .enotconn).countP
        (fun f => decide (f.unique = u)) =
      if (s.hub.pending.get? u).isSome then 1 else 0 := by
  rw [List.countP_map, drain.countP_order]
  exact KeyedList.countP_key l.sorted u

/-- When the end is complete, each number has had as many answers as it was due. -/
theorem count_windDown {xs : List (Receipt σ)} {s : Session σ} {ending : Ending}
    (b : Balanced xs s (lastAnswer ending)) (ho : s.hub.queueOpen = true)
    (hr : s.hub.reachable = true) (u : UInt64) :
    (s.windDown srv ending).hub.queue.countP (fun f => decide (f.unique = u)) = dueTo xs u := by
  obtain ⟨l', ht⟩ := ledger_dismissed srv b.ledger ho hr
  rw [queue_windDown b.ledger ho hr, List.countP_append, List.countP_append,
    count_closing srv.drain l', ← b.tally u, ← ht u]
  rfl

end Fuse.Session
