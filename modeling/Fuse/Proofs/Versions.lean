-- Every answer is laid out in the version of the connection. Once there is a connection,
-- whatever a session sends until its last word answers a frame that it received, and the
-- version of the connection is the one in which the answer is laid out.
import Fuse.Proofs.Answers
import Fuse.Proofs.Negotiation
import Fuse.Session.Opening

namespace Fuse

namespace Hub

variable {P Q : Frame → Prop} {h h' h'' : Hub}

/-! ## What is sent -/

/-- All that was sent since has a property. -/
def Says (P : Frame → Prop) (h h' : Hub) : Prop :=
  ∃ new, h'.queue = h.queue ++ new ∧ ∀ f ∈ new, P f

namespace Says

theorem of_queue_eq (hq : h'.queue = h.queue) : Says P h h' := ⟨[], by simp [hq], by simp⟩

theorem trans (a : Says P h h') (b : Says P h' h'') : Says P h h'' := by
  obtain ⟨new, hnew, hp⟩ := a
  obtain ⟨more, hmore, hq⟩ := b
  refine ⟨new ++ more, by simp [hmore, hnew], ?_⟩
  intro f hf
  rcases List.mem_append.mp hf with hf | hf
  · exact hp f hf
  · exact hq f hf

theorem mono (hpq : ∀ f, P f → Q f) (a : Says P h h') : Says Q h h' := by
  obtain ⟨new, hnew, hp⟩ := a
  exact ⟨new, hnew, fun f hf => hpq f (hp f hf)⟩

end Says

theorem says_send (h : Hub) {f : Frame} (hf : P f) : Says P h (h.send f) := by
  cases ho : h.queueOpen with
  | true => exact ⟨[f], send_queue h f ho, by simpa using hf⟩
  | false =>
    rw [send_of_closed ho]
    exact .of_queue_eq rfl

/-- An answer to a request is laid out in the version that the hub has. -/
theorem says_answer (h : Hub) {r : Request}
    (hP : ∀ reply f, r.kind.expectsReply = true → r.check reply = none →
      reply.frame? r.unique h.minor = some f → P f)
    (profile : Profile) (a : Answer) : Says P h (h.answer profile r a).1 := by
  by_cases hp : h.progress r = .pending
  · rcases answer_of_pending hp profile a with ⟨reply, hc, ha⟩ | ⟨-, ha⟩
    · have hdeliver : Says P (h.markAnswered r) ((h.markAnswered r).deliver r reply) := by
        have huntrack : Says P (h.markAnswered r) ((h.markAnswered r).untrack r.unique) :=
          .of_queue_eq rfl
        unfold deliver
        split
        · dsimp only
          split
          · rename_i f hf
            rcases frame_of_check hc r.unique h.minor with ⟨he, -⟩ | ⟨-, hnone⟩
            · exact huntrack.trans (says_send _ (hP reply f he hc hf))
            · exact absurd (hnone.symm.trans hf) (by simp)
          · exact huntrack
        · exact .of_queue_eq rfl
      exact hdeliver.trans (.of_queue_eq ha.queue)
    · exact .of_queue_eq ha.queue
  · exact .of_queue_eq (alike_answer hp profile a).queue

theorem says_closePending (drain : Drain) (h : Hub)
    (hs : ∀ p ∈ h.pending, ∃ s, h.slots[p.2]? = some s ∧ P (.ofErrno s.unique .enotconn)) :
    Says P h (h.closePending drain) := by
  have hone (g : Hub) (i : Nat)
      (hi : ∃ s, g.slots[i]? = some s ∧ P (.ofErrno s.unique .enotconn)) :
      Says P g (g.closeOne i) := by
    obtain ⟨s, hslot, hP⟩ := hi
    let closed := g.updateSlot i fun s => { s with progress := .closed }
    have hquiet : Says P g (closed.interrupt i) :=
      .of_queue_eq (alike_interrupt closed i).queue
    unfold closeOne slot?
    rw [hslot]
    dsimp only
    split
    · exact hquiet.trans (says_send _ hP)
    · exact .of_queue_eq rfl
  let emptied : Hub := { h with pending := [] }
  have hempty : Says P h emptied ∧ Steady emptied emptied := ⟨.of_queue_eq rfl, .refl _⟩
  refine (closePending_keeps drain (motive := fun g => Says P h g ∧ Steady emptied g) hempty ?_).1
  rintro g ⟨htold, hsteady⟩ p hp
  obtain ⟨s, hslot, hP⟩ := hs p hp
  obtain ⟨t, ht, hl⟩ := hsteady.slot p.2 s hslot
  exact ⟨htold.trans (hone g p.2 ⟨t, ht, hl.unique ▸ hP⟩), hsteady.trans (steady_closeOne g p.2)⟩

end Hub

namespace Session

open Hub

variable {σ : Type} {srv : Server σ}

/-! ## Answers -/

/-- An answer that was checked is laid out as the frame takes it. -/
theorem lays_answer {x : Receipt σ} {c : Connection} {r : Request} {op : Operation}
    (hst : Stems x c r op) (hk : r.kind = op.kind) {reply : Reply} {f : Frame}
    (he : r.kind.expectsReply = true) (hc : r.check reply = none)
    (hf : reply.frame? r.unique c.minor = some f) : x.Lays c.minor f := by
  have hu : f.unique = r.unique := by
    rcases frame_of_check hc r.unique c.minor with ⟨-, g, hg, hu⟩ | ⟨hsilent, -⟩
    · rw [hf] at hg
      cases hg
      exact hu
    · rw [he] at hsilent
      cases hsilent
  obtain ⟨-, hop⟩ := hst.due he
  refine ⟨hu ▸ hst.unique, ?_⟩
  rw [hop, hu]
  exact ⟨reply, hk ▸ accepts_of_check hc, hf⟩

theorem lays_refusal {x : Receipt σ} {header : Kernel.InHeader} (hh : x.header? = some header)
    (ho : x.operation? = none) (minor : UInt32) (e : Errno) :
    x.Lays minor (.ofErrno header.unique e) := by
  refine ⟨unique?_of_header? hh, ?_⟩
  rw [ho]
  rfl

section

variable {xs : List (Receipt σ)} {s : Session σ} {c : Connection}

/-- Whatever is done with a request that a handler was called with. -/
theorem says_called (l : Attested xs s) (lr : Roll s) (hc : s.hub.connection = some c)
    {r : Request} {op : Operation} (hcall : (r, op) ∈ s.hub.calls) (a : Answer) :
    Says (fun f => ∃ y ∈ xs, y.Lays c.minor f) s.hub (s.hub.answer srv.profile r a).1 := by
  obtain ⟨-, c', hc', x, hx, hst⟩ := l.called r op hcall
  obtain ⟨-, hk, -⟩ := lr.enrolled r op hcall
  obtain rfl : c = c' := Option.some.inj (hc.symm.trans hc')
  apply says_answer
  intro reply f he hcheck hf
  rw [minor_of_connection hc] at hf
  exact ⟨x, hx, lays_answer hst hk he hcheck hf⟩

theorem says_answerKept (l : Attested xs s) (lr : Roll s) (hc : s.hub.connection = some c)
    (place : Nat) (a : Answer) :
    Says (fun f => ∃ y ∈ xs, y.Lays c.minor f) s.hub (s.answerKept srv place a).1.hub := by
  rcases answerKept_cases srv s place a with h | ⟨r, hkept, h⟩
  · exact .of_queue_eq (congrArg (·.hub.queue) h)
  · obtain ⟨op, hcall⟩ := lr.called r
      ((perm_afterKept srv hkept a).mem_iff.mpr List.mem_cons_self)
    rw [h]
    exact says_called l lr hc hcall a

theorem says_runTask (l : Attested xs s) (lr : Roll s) (hc : s.hub.connection = some c)
    (handle : Nat) :
    Says (fun f => ∃ y ∈ xs, y.Lays c.minor f) s.hub (s.runTask srv handle).hub := by
  rcases runTask_cases srv s handle with h | ⟨t, ht, h⟩
  · exact .of_queue_eq (congrArg (·.hub.queue) h)
  · obtain ⟨op, hcall⟩ := lr.called t.request
      ((perm_afterTask srv ht).mem_iff.mpr List.mem_cons_self)
    rw [h]
    exact says_called l lr hc hcall t.answer

end

/-! ## Operations -/

/-- A message that is handed on: `x` accounts for what is said about it. -/
theorem says_dispatch {s : Session σ} {c : Connection} (hc : s.hub.connection = some c)
    {x : Receipt σ} {header : Kernel.InHeader} {op : Operation}
    (hst : Stems x c (s.hub.enrol header op).2 op) :
    Says (x.Lays c.minor) s.hub (s.dispatch srv header op).hub := by
  have he := steady_enrol s.hub header op
  have hanswer (g : Hub) (hg : g.connection = some c) (a : Answer) :
      Says (x.Lays c.minor) g (g.answer srv.profile (s.hub.enrol header op).2 a).1 := by
    apply says_answer
    intro reply f hexpects hcheck hf
    rw [minor_of_connection hg] at hf
    exact lays_answer hst rfl hexpects hcheck hf
  rcases dispatch_cases srv s header op with ⟨a, h⟩ | ⟨t, use, hcalled, huse⟩
  · rw [h]
    exact hanswer (s.hub.enrol header op).1 (he.connection.trans hc) a
  · have hcall : Says (x.Lays c.minor) s.hub t.hub :=
      .of_queue_eq (hcalled.hub.queue.trans ((queue_record _ _).trans (List.append_nil _)))
    have hused : Says (x.Lays c.minor) t.hub (t.use srv (s.hub.enrol header op).2 use).1.hub := by
      cases use with
      | answer a => exact hanswer t.hub (hcalled.hub.connection.trans (he.connection.trans hc)) a
      | keep => exact .of_queue_eq rfl
      | onInterrupt a => exact .of_queue_eq (alike_wake _ _).queue
    exact (hcall.trans hused).trans (.of_queue_eq huse.hub.queue)

theorem says_dispatchForgets {s : Session σ} {c : Connection} (hc : s.hub.connection = some c)
    {x : Receipt σ} (hx : x.session.hub.connection = some c) {header : Kernel.InHeader}
    (hu : x.unique? = some header.unique) (items : List Kernel.ForgetOne) :
    Says (x.Lays c.minor) s.hub (s.dispatchForgets srv header items).hub := by
  induction items generalizing s with
  | nil => exact .of_queue_eq rfl
  | cons i items ih =>
    have hst : Stems x c (s.hub.enrol header (.forget i.nodeid i.nlookup)).2
        (.forget i.nodeid i.nlookup) := ⟨hu, hx, fun he => Bool.noConfusion he⟩
    have hs := steady_dispatch srv s header (.forget i.nodeid i.nlookup)
    exact (says_dispatch hc hst).trans (ih (hs.connection.trans hc))

/-! ## Frames -/

/-- On a connection, all that is said about a frame is laid out in its version. -/
theorem says_handled {x : Receipt σ} {s' : Session σ} {ending : Option Ending}
    (hx : Handled srv x s' ending) (o : x.session.hub.Open) {c : Connection}
    (hc : x.session.hub.connection = some c) :
    Says (x.Lays c.minor) x.session.hub s'.hub := by
  cases hx with
  | dropped _ ha => exact .of_queue_eq ha.hub.queue
  | refused hh _ ho ha _ =>
    exact Says.trans (.of_queue_eq ha.hub.queue) (says_send _ (lays_refusal hh ho _ _))
  | forgotten hh _ _ _ => exact says_dispatchForgets hc hc (unique?_of_header? hh) _
  | dispatched hh hd ho _ _ _ =>
    exact says_dispatch hc ⟨unique?_of_header? hh, hc, fun _ => ⟨hd, ho⟩⟩
  | @interrupted _ handle _ _ _ => exact .of_queue_eq (alike_interrupt _ handle).queue
  | dismissed _ _ _ _ => exact .of_queue_eq rfl
  | greeted _ _ _ hcreated =>
    -- A proposal is only taken while there is no connection.
    have hrun : x.session.hub.state = .running := o.running.mpr (by simp [hc])
    rw [hcreated] at hrun
    cases hrun

/-! ## Courses -/

/-- Without frames. -/
theorem Course.saying_idle {xs : List (Receipt σ)} {s s' : Session σ} (d : Course srv s [] s')
    (l : Attested xs s) (lr : Roll s) (ho : s.hub.queueOpen = true)
    (hr : s.hub.reachable = true) {c : Connection} (hc : s.hub.connection = some c) :
    Says (fun f => ∃ y ∈ xs, y.Lays c.minor f) s.hub s'.hub := by
  generalize hys : ([] : List (Receipt σ)) = ys at d
  induction d with
  | refl => exact .of_queue_eq rfl
  | frame => exact absurd hys (by simp)
  | answer d place a ih =>
    subst hys
    have hs := d.steady.1
    exact (ih rfl).trans (says_answerKept (d.attested_idle l lr ho hr) (d.roll lr ho hr)
      (hs.connection.trans hc) place a)
  | task d handle ih =>
    subst hys
    have hs := d.steady.1
    exact (ih rfl).trans (says_runTask (d.attested_idle l lr ho hr) (d.roll lr ho hr)
      (hs.connection.trans hc) handle)
  | quiet _ h ih => exact (ih hys).trans (.of_queue_eq h.hub.queue)

/-- From a moment at which there is a connection to a later one. -/
theorem Course.saying {user : σ} {xs ys : List (Receipt σ)} {s s' : Session σ}
    (d₀ : Course srv (start user) xs s) (d : Course srv s ys s') {c : Connection}
    (hc : s.hub.connection = some c) :
    Says (fun f => ∃ y ∈ xs ++ ys, y.Lays c.minor f) s.hub s'.hub := by
  have o := d₀.open (open_start user)
  induction d with
  | refl => exact .of_queue_eq rfl
  | @frame ys s' s'' frame d h ih =>
    have hx := handled srv s' frame
    rw [h] at hx
    have hframe := says_handled hx (d.open o) (d.connection o hc)
    refine (ih.mono ?_).trans (hframe.mono fun f hf => ⟨⟨s', frame⟩, by simp, hf⟩)
    rintro f ⟨y, hy, hf⟩
    exact ⟨y, by simpa [or_assoc] using Or.inl (List.mem_append.mp hy), hf⟩
  | answer d place a ih =>
    have e := d₀.trans d
    exact ih.trans (says_answerKept e.attested (e.roll (roll_start user) rfl rfl)
      (d.connection o hc) place a)
  | task d handle ih =>
    have e := d₀.trans d
    exact ih.trans (says_runTask e.attested (e.roll (roll_start user) rfl rfl)
      (d.connection o hc) handle)
  | quiet _ h ih => exact ih.trans (.of_queue_eq h.hub.queue)

theorem Ends.saying {user : σ} {xs ys : List (Receipt σ)} {s s' : Session σ} {ending : Ending}
    (d₀ : Course srv (start user) xs s) (e : Ends srv s ys s' ending) {c : Connection}
    (hc : s.hub.connection = some c) :
    Says (fun f => ∃ y ∈ xs ++ ys, y.Lays c.minor f) s.hub s'.hub := by
  have o := d₀.open (open_start user)
  cases e with
  | outside d _ => exact d₀.saying d hc
  | @frame ys s' s'' frame _ d h =>
    have hx := handled srv s' frame
    rw [h] at hx
    have hframe := says_handled hx (d.open o) (d.connection o hc)
    refine ((d₀.saying d hc).mono ?_).trans (hframe.mono fun f hf => ⟨⟨s', frame⟩, by simp, hf⟩)
    rintro f ⟨y, hy, hf⟩
    exact ⟨y, by simpa [or_assoc] using Or.inl (List.mem_append.mp hy), hf⟩

/-! ## The end -/

/-- A pending request is closed with a header alone. -/
theorem lays_closing {xs : List (Receipt σ)} {s : Session σ} (l : Attested xs s) (lr : Roll s)
    (minor : UInt32) (p : UInt64 × Nat) (hp : p ∈ s.hub.pending) :
    ∃ t, s.hub.slots[p.2]? = some t ∧ ∃ y ∈ xs, y.Lays minor (.ofErrno t.unique .enotconn) := by
  obtain ⟨r, op, hcall, hh, hk⟩ := l.pending p hp
  obtain ⟨-, c, -, x, hx, hst⟩ := l.called r op hcall
  obtain ⟨⟨t, ht, hu⟩, hkind, -⟩ := lr.enrolled r op hcall
  obtain ⟨-, hop⟩ := hst.due hk
  refine ⟨t, hh ▸ ht, x, hx, hu ▸ hst.unique, ?_⟩
  rw [hop]
  exact ⟨.error .enotconn, hkind ▸ hk, rfl⟩

/-- The last word is a header alone. -/
theorem Ends.lays_lastAnswer {s s' : Session σ} {xs : List (Receipt σ)} {ending : Ending}
    (e : Ends srv s xs s' ending) (minor : UInt32) :
    ∀ f ∈ lastAnswer ending, ∃ y ∈ xs, y.Lays minor f := by
  intro f hf
  cases e with
  | outside _ hd =>
    unfold lastAnswer at hf
    split at hf
    · exact absurd rfl (hd _)
    · cases hf
  | @frame xs s' _ frame _ _ h =>
    have hending := congrArg Prod.snd h
    rcases (ending_handleFrame srv ⟨s', frame⟩ ending).mp hending with
      ⟨u, hu, hm, -, rfl⟩ | ⟨_, -, rfl⟩
    · rw [List.mem_singleton.mp hf]
      refine ⟨⟨s', frame⟩, by simp, hu, ?_⟩
      have hop : (⟨s', frame⟩ : Receipt σ).operation? = none := by simp [Receipt.operation?, hm]
      rw [hop]
      rfl
    · cases hf

/-- The end of a session that had a connection. -/
theorem says_windDown {user : σ} {xs : List (Receipt σ)} {s : Session σ} {ending : Ending}
    (e : Ends srv (start user) xs s ending) {c : Connection} (hc : s.hub.connection = some c) :
    Says (fun f => ∃ y ∈ xs, y.Lays c.minor f) s.hub (s.windDown srv ending).hub := by
  have o := e.open (open_start user)
  have lr := e.roll (roll_start user) rfl rfl
  obtain ⟨t, ht, d⟩ := parting srv s
  have lt : Attested xs t := attested_parting e.attested ht
  have ho := ht.queueOpen.trans o.queueOpen
  have hr := ht.reachable.trans o.reachable
  have hconn := ht.connection.trans hc
  have hgone : Says (fun f => ∃ y ∈ xs, y.Lays c.minor f) s.hub (s.dismissed srv).hub :=
    Says.trans (.of_queue_eq ht.queue) (d.saying_idle lt (roll_parting lr ht) ho hr hconn)
  have hclosed := hgone.trans (says_closePending srv.drain _ (lays_closing
    (attested_dismissed srv e.attested lr o.queueOpen o.reachable)
    (roll_dismissed srv lr o.queueOpen o.reachable) c.minor))
  obtain ⟨new, hnew, hnewP⟩ := hclosed
  refine ⟨new ++ lastAnswer ending, ?_, ?_⟩
  · rw [queue_windDown_closing o.queueOpen, hnew, List.append_assoc]
  · intro f hf
    rcases List.mem_append.mp hf with hf | hf
    · exact hnewP f hf
    · exact e.lays_lastAnswer c.minor f hf

/-! ## Runs -/

/-- The first frame on a course is handled, and the course goes on from there. -/
theorem Course.next {s s' : Session σ} {x : Receipt σ} {ys : List (Receipt σ)}
    (d : Course srv s (x :: ys) s') :
    ∃ t, x.session.handleFrame srv x.frame = (t, none) ∧ Course srv t ys s' := by
  generalize hzs : x :: ys = zs at d
  induction d generalizing ys with
  | refl => cases hzs
  | @frame zs s' s'' frame d h ih =>
    cases zs with
    | nil =>
      obtain ⟨rfl, rfl⟩ := List.cons_eq_cons.mp hzs
      exact ⟨s'', h, .refl⟩
    | cons z zs =>
      obtain ⟨rfl, rfl⟩ := List.cons_eq_cons.mp hzs
      obtain ⟨t, ht, dt⟩ := ih rfl
      exact ⟨t, ht, dt.frame h⟩
  | answer _ place a ih =>
    obtain ⟨t, ht, dt⟩ := ih hzs
    exact ⟨t, ht, dt.answer place a⟩
  | task _ handle ih =>
    obtain ⟨t, ht, dt⟩ := ih hzs
    exact ⟨t, ht, dt.task handle⟩
  | quiet _ hq ih =>
    obtain ⟨t, ht, dt⟩ := ih hzs
    exact ⟨t, ht, dt.quiet hq⟩

/-- The first frame on the way to the end ends the session, or the way goes on. -/
theorem Ends.next {s s' : Session σ} {x : Receipt σ} {ys : List (Receipt σ)} {ending : Ending}
    (e : Ends srv s (x :: ys) s' ending) :
    (ys = [] ∧ x.session.handleFrame srv x.frame = (s', some ending)) ∨
      ∃ t, x.session.handleFrame srv x.frame = (t, none) ∧ Ends srv t ys s' ending := by
  generalize hzs : x :: ys = zs at e
  cases e with
  | outside d hd =>
    subst hzs
    obtain ⟨t, ht, dt⟩ := d.next
    exact Or.inr ⟨t, ht, .outside dt hd⟩
  | @frame zs s' s'' frame _ d h =>
    cases zs with
    | nil =>
      obtain ⟨rfl, rfl⟩ := List.cons_eq_cons.mp hzs
      exact Or.inl ⟨rfl, h⟩
    | cons z zs =>
      obtain ⟨rfl, rfl⟩ := List.cons_eq_cons.mp hzs
      obtain ⟨t, ht, dt⟩ := d.next
      exact Or.inr ⟨t, ht, .frame dt h⟩

/-- From the frame on that brought the connection, every answer of a run is laid out in
its version. -/
theorem says_run {user : σ} {inputs : List Input} {xs ys : List (Receipt σ)} {x : Receipt σ}
    (hxs : (start user).receipts srv inputs = xs ++ x :: ys) {t : Session σ}
    (hf : x.session.handleFrame srv x.frame = (t, none)) {c : Connection}
    (hc : t.hub.connection = some c) :
    Says (fun f => ∃ y ∈ xs ++ x :: ys, y.Lays c.minor f) t.hub
      ((start user).run srv inputs).hub := by
  have d₀ : Course srv (start user) (xs ++ [x]) t := (course_before_receipt hxs).frame hf
  have hsame : (xs ++ [x]) ++ ys = xs ++ x :: ys := by simp
  rw [← hsame]
  rcases run_cases srv (s := start user) rfl (open_start user) inputs with
    ⟨-, d⟩ | ⟨s', ending, -, e, ho⟩
  · obtain ⟨t', ht', d'⟩ := (d.split hxs).2.next
    obtain ⟨rfl, -⟩ := Prod.mk.inj (hf.symm.trans ht')
    exact d₀.saying d' hc
  · rcases (e.split hxs).2.next with ⟨-, hend⟩ | ⟨t', ht', e'⟩
    · rw [hf] at hend
      cases hend
    · obtain ⟨rfl, -⟩ := Prod.mk.inj (hf.symm.trans ht')
      have hend := says_windDown e (e'.connection (d₀.open (open_start user)) hc)
      rw [hxs, ← hsame] at hend
      have hover : Says (fun f => ∃ y ∈ (xs ++ [x]) ++ ys, y.Lays c.minor f)
          (s'.windDown srv ending).hub ((start user).run srv inputs).hub :=
        .of_queue_eq (ho.later.closed (windDown_closed s' ending)).2
      exact ((Ends.saying d₀ e' hc).trans hend).trans hover

end Session

end Fuse
