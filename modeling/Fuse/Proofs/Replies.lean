-- Every request gets its answer, and gets it once. Whatever the handlers do, in
-- whatever order things happen, and however the session ends: when it is over, each
-- number was answered as often as it was due, and nothing else was sent.
import Fuse.Operation.Encoding
import Fuse.Proofs.Layout
import Fuse.Proofs.Roll

namespace Fuse.Session

variable {σ : Type} {srv : Server σ}

/-! ## From one moment of a run to a later one -/

theorem later_dismissed (srv : Server σ) (s : Session σ) :
    Hub.Later s.hub (s.dismissed srv).hub := by
  obtain ⟨t, ht, c⟩ := parting srv s
  exact ht.later.trans c.steady.1.toLater

theorem later_windDown (srv : Server σ) (s : Session σ) (ending : Ending) :
    Hub.Later s.hub (s.windDown srv ending).hub := by
  have hclose := (later_dismissed srv s).trans
    (Hub.steady_closePending srv.drain (s.dismissed srv).hub).toLater
  have hshut (h : Hub) (l : Hub.Later s.hub h) : Hub.Later s.hub { h with queueOpen := false } := by
    refine l.trans ⟨List.prefix_refl _, fun _ t ht => ⟨t, ht, .refl t⟩, fun _ => ⟨rfl, rfl⟩⟩
  rcases ending with e | exit
  · exact hshut _ hclose
  · cases exit with
    | destroy unique =>
      exact hshut _ (hclose.trans (Hub.steady_send _ (.success unique)).toLater)
    | unmounted => exact hshut _ hclose
    | shutdown => exact hshut _ hclose

/-- The session is one that a run can get to: it is under way, or it is over. -/
def Sound (s : Session σ) : Prop := (s.result = none ∧ s.hub.Open) ∨ Over s s

theorem Over.sound {wound t : Session σ} (o : Over wound t) : Sound t :=
  Or.inr ⟨o.result, o.state, o.queueOpen, .refl _, rfl⟩

theorem sound_run (srv : Server σ) {s : Session σ} (h : Sound s) (inputs : List Input) :
    Sound (s.run srv inputs) ∧ Hub.Later s.hub (s.run srv inputs).hub := by
  rcases h with ⟨hr, o⟩ | o
  · rcases run_cases srv hr o inputs with ⟨-, c⟩ | ⟨s', ending, -, he, ho⟩
    · have hc := c.onward o.queueOpen
      exact ⟨Or.inl ⟨hc.2.trans hr, c.open o⟩, hc.1.toLater⟩
    · have hs := (he.onward o.queueOpen).1
      have hw := later_windDown srv s' ending
      exact ⟨ho.sound, (hs.toLater.trans hw).trans ho.later⟩
  · have ho := over_run srv o inputs
    exact ⟨ho.sound, ho.later⟩

/-! ## No second answer -/

/-- Nothing that is done with the request sends a frame, now or ever again. -/
def Settled (srv : Server σ) (s : Session σ) (r : Request) : Prop :=
  ∀ (inputs : List Input) (a : Answer),
    ((s.run srv inputs).answer srv r a).1.hub.queue = (s.run srv inputs).hub.queue

theorem settled_of_not_pending {s : Session σ} (h : Sound s) {r : Request}
    (hlt : r.handle < s.hub.slots.length) (hp : s.hub.progress r ≠ .pending) :
    Settled srv s r := by
  intro inputs a
  have hl := (sound_run srv h inputs).2
  exact (Hub.alike_answer (hl.progress hlt hp) srv.profile a).queue

theorem settled_of_over {s : Session σ} (o : Over s s) (r : Request) : Settled srv s r := by
  intro inputs a
  have hc := (over_run srv o inputs).queueOpen
  exact ((Hub.steady_answer srv.profile _ r a).closed hc).2

theorem settled_of_answered {s : Session σ} (hr : s.result = none) (o : s.hub.Open)
    {r : Request} (hlt : r.handle < s.hub.slots.length) (a : Answer) :
    Settled srv (s.answer srv r a).1 r := by
  have hs := Hub.steady_answer srv.profile s.hub r a
  have hsound : Sound (s.answer srv r a).1 := Or.inl ⟨hr, o.steady hs⟩
  obtain ⟨t, ht, -⟩ := hs.slot r.handle _ (List.getElem?_eq_getElem hlt)
  exact settled_of_not_pending hsound (List.getElem?_eq_some_iff.mp ht).1
    (Hub.answered_progress _ _ _ _)

/-- Whoever was called with a request can settle it once. After that, and after
the session closed it, nothing is sent for it. -/
theorem settled_once {user : σ} {inputs : List Input} {r : Request} {op : Operation}
    (hc : (r, op) ∈ ((start user).run srv inputs).hub.calls) :
    (((start user).run srv inputs).hub.progress r ≠ .pending →
      Settled srv ((start user).run srv inputs) r) ∧
    ∀ a, Settled srv (((start user).run srv inputs).answer srv r a).1 r := by
  rcases run_cases srv (s := start user) rfl (open_start user) inputs with
    ⟨-, c⟩ | ⟨s', ending, -, -, ho⟩
  · have o := c.open (open_start user)
    have hr := (c.onward (open_start user).queueOpen).2
    have hlt := (c.roll (roll_start user) rfl rfl).handle_lt hc
    exact ⟨settled_of_not_pending (Or.inl ⟨hr, o⟩) hlt, settled_of_answered hr o hlt⟩
  · have ho' : Over ((start user).run srv inputs) ((start user).run srv inputs) :=
      ⟨ho.result, ho.state, ho.queueOpen, .refl _, rfl⟩
    refine ⟨fun _ => settled_of_over ho' r, ?_⟩
    intro a
    have hs := Hub.steady_answer srv.profile ((start user).run srv inputs).hub r a
    refine settled_of_over ?_ r
    exact ⟨ho.result, hs.state.trans ho.state, hs.queueOpen.trans ho.queueOpen, .refl _, rfl⟩

/-! ## One answer for each request -/

theorem unique?_of_le {x : Receipt σ} (h : inHeaderSize ≤ x.frame.length) :
    ∃ u, x.unique? = some u := by
  obtain ⟨header, hh⟩ := Wire.decode?_of_le (α := Kernel.InHeader) h
  refine ⟨header.unique, ?_⟩
  have hd : decodeHeader x.frame = .ok header := by
    unfold decodeHeader Take.struct
    rw [if_neg (Nat.not_lt.mpr h), hh]
    rfl
  simp [Receipt.unique?, Receipt.header?, hd, Except.toOption]

theorem dueTo_of_mem {xs : List (Receipt σ)} {x : Receipt σ} {u : UInt64}
    (hn : (xs.filterMap Receipt.unique?).Nodup) (hx : x ∈ xs) (hu : x.unique? = some u) :
    dueTo xs u = x.due := by
  obtain ⟨front, back, rfl⟩ := List.append_of_mem hx
  rw [List.filterMap_append, List.filterMap_cons_some hu] at hn
  obtain ⟨-, hback, hapart⟩ := List.nodup_append.mp hn
  have hfront : u ∉ front.filterMap Receipt.unique? := fun hm =>
    hapart u hm u List.mem_cons_self rfl
  have hback' : u ∉ back.filterMap Receipt.unique? := (List.nodup_cons.mp hback).1
  have hsplit : dueTo (front ++ x :: back) u = dueTo (front ++ [x]) u + dueTo back u := by
    unfold dueTo
    rw [← List.countP_append, List.append_assoc]
    rfl
  rw [hsplit, dueTo_concat, dueTo_of_not_mem hfront, dueTo_of_not_mem hback', if_pos hu]
  simp

/-- When a run is over, each number had as many answers as it was due. -/
theorem count_run {user : σ} {inputs : List Input}
    (hn : (((start user).receipts srv inputs).filterMap Receipt.unique?).Nodup)
    (ht : ((start user).run srv inputs).hub.state = .terminated) (u : UInt64) :
    ((start user).run srv inputs).hub.queue.countP (fun f => decide (f.unique = u)) =
      dueTo ((start user).receipts srv inputs) u := by
  rcases run_cases srv (s := start user) rfl (open_start user) inputs with
    ⟨-, c⟩ | ⟨s', ending, -, he, ho⟩
  · exact absurd ht (c.open (open_start user)).state
  · have o := he.open (open_start user)
    rw [(ho.later.closed (windDown_closed s' ending)).2]
    exact count_windDown (he.balanced hn) o.queueOpen o.reachable u

/-- At no time had a number more answers than it was due. -/
theorem count_le_dueTo {user : σ} {inputs : List Input}
    (hn : (((start user).receipts srv inputs).filterMap Receipt.unique?).Nodup) (u : UInt64) :
    ((start user).run srv inputs).hub.queue.countP (fun f => decide (f.unique = u)) ≤
      dueTo ((start user).receipts srv inputs) u := by
  rcases run_cases srv (s := start user) rfl (open_start user) inputs with
    ⟨-, c⟩ | ⟨_, _, -, -, ho⟩
  · rw [← (c.balanced hn).tally u]
    exact Nat.le_add_right _ _
  · exact Nat.le_of_eq (count_run hn ho.state u)

/-- In every run whose requests have different numbers, each request gets exactly
one answer by the time the session is over: none if it only forgets or if it
interrupts a pending request, and one otherwise. No answer goes to a number that was
never received. A request that was answered, let go or closed never sends a second
one. -/
theorem each_request_gets_exactly_one_answer (srv : Server σ) (user : σ)
    (inputs : List Input) :
    ((((start user).receipts srv inputs).filterMap Receipt.unique?).Nodup →
      ((start user).run srv inputs).hub.state = .terminated →
      (∀ x ∈ (start user).receipts srv inputs, inHeaderSize ≤ x.frame.length →
        ∃ u, x.unique? = some u ∧
          ((start user).run srv inputs).hub.queue.countP (fun f => decide (f.unique = u)) =
            if x.forgets = true ∨ x.interrupts = true then 0 else 1) ∧
      ∀ f ∈ ((start user).run srv inputs).hub.queue,
        ∃ x ∈ (start user).receipts srv inputs, x.unique? = some f.unique) ∧
    ∀ r op, (r, op) ∈ ((start user).run srv inputs).hub.calls →
      (((start user).run srv inputs).hub.progress r ≠ .pending →
        Settled srv ((start user).run srv inputs) r) ∧
      ∀ a, Settled srv (((start user).run srv inputs).answer srv r a).1 r := by
  refine ⟨?_, fun r op hc => settled_once hc⟩
  intro hn ht
  refine ⟨?_, ?_⟩
  · intro x hx hlen
    obtain ⟨u, hu⟩ := unique?_of_le hlen
    refine ⟨u, hu, ?_⟩
    rw [count_run hn ht u, dueTo_of_mem hn hx hu]
    simp [Receipt.due, hu]
  · intro f hf
    have hcount := count_run hn ht f.unique
    have hpos : 0 < dueTo ((start user).receipts srv inputs) f.unique := by
      rw [← hcount]
      exact List.countP_pos_iff.mpr ⟨f, hf, by simp⟩
    obtain ⟨x, hx, hp⟩ := List.countP_pos_iff.mp hpos
    exact ⟨x, hx, (of_decide_eq_true hp).1⟩

/-! ## A run -/

/-- A message about the root. -/
def aboutRoot (opcode : Opcode) (unique : UInt64) (body : Bytes) : Bytes :=
  Kernel.InHeader.frame
    { len := 0, opcode := opcode.code, unique, nodeid := rootInode, uid := 0, gid := 0, pid := 0 }
    body

/-- The kernel's proposal for a connection. -/
def proposal : Bytes :=
  aboutRoot .init 1
    (Wire.encode ({ major := 7, minor := 19, maxReadahead := 0, flags := 0 } : Kernel.InitIn))

/-- A file system that keeps every request, and lets the first one go at the end. -/
def keeper : Server Unit where
  table :=
    { handler := fun _ => some fun user _ _ => (user, { use := .keep })
      onDestroy := some fun _ _ => { answers := [(0, .drop)], user := fun _ => () } }

/-- Two lookups that are kept, a forget, an interrupt of the first lookup, a message
that cannot be read, and the end. -/
def keptLookups : List Input :=
  [.frames
      [proposal, aboutRoot .lookup 2 [97, 0], aboutRoot .lookup 3 [98, 0],
        aboutRoot .forget 4 (Wire.encode (⟨1⟩ : Kernel.ForgetIn)),
        aboutRoot .interrupt 5 (Wire.encode (⟨2⟩ : Kernel.InterruptIn)),
        aboutRoot .unlink 6 [97]],
    .frames [aboutRoot .destroy 7 []]]

/-- The numbers that are answered, and how often. -/
theorem kept_lookups_are_answered_once :
    (((start ()).receipts keeper keptLookups).filterMap Receipt.unique?).Nodup ∧
      ((start ()).run keeper keptLookups).hub.state = .terminated ∧
      ((start ()).run keeper keptLookups).hub.queue.map (·.unique) = [1, 6, 2, 3, 7] ∧
      ∀ x ∈ (start ()).receipts keeper keptLookups, inHeaderSize ≤ x.frame.length →
        ∃ u, x.unique? = some u ∧
          ((start ()).run keeper keptLookups).hub.queue.countP (fun f => decide (f.unique = u)) =
            if x.forgets = true ∨ x.interrupts = true then 0 else 1 := by
  have hn : (((start ()).receipts keeper keptLookups).filterMap Receipt.unique?).Nodup := by
    decide +kernel
  have ht : ((start ()).run keeper keptLookups).hub.state = .terminated := by decide +kernel
  have hanswers := (each_request_gets_exactly_one_answer keeper () keptLookups).1 hn ht
  exact ⟨hn, ht, by decide +kernel, hanswers.1⟩

end Fuse.Session
