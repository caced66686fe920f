-- The profile of the build makes no difference to the kernel. Where an answer is wrong,
-- one profile panics and lets the request go as the panic passes, and the other puts an
-- error in the place of the answer. Both come to the same, as long as a request that only
-- forgets shares its number with none that is pending.
import Mathlib.Data.List.Induction
import Fuse.Proofs.Carrying
import Fuse.Proofs.Inertness
import Fuse.Session.Profiles

namespace Fuse

/-! ## One answer -/

namespace Hub

/-- A request that only forgets shares its number with none that is pending. -/
def Unlisted (h : Hub) (r : Request) : Prop :=
  r.kind.expectsReply = false → h.pending.get? r.unique = none

/-- The two hubs differ in the log and in the writer's turn, if in anything. -/
abbrev Same (h h' : Hub) : Prop := Beside true [] [] h h'

variable {h : Hub} {r : Request}

theorem untrack_of_none {unique : UInt64} (hn : h.pending.get? unique = none) :
    h.untrack unique = h := by
  unfold untrack
  rw [KeyedList.erase_of_get?_none hn]

/-- The substitute for a wrong answer does what letting the request go does. -/
theorem same_abandon_substitute (hu : h.Unlisted r) :
    Same (h.abandon r) (h.settle .release r r.substitute).1 := by
  unfold abandon settle Request.substitute
  cases hp : h.progress r with
  | closed => exact .refl h
  | answered => exact .ofNote h _
  | pending =>
    dsimp only
    cases hk : r.kind.expectsReply with
    | true =>
      -- Both send the same error, and one of them writes into the log that it let go.
      have hnoted : Same (h.markAnswered r) ((h.markAnswered r).note (.dropped r.unique r.kind)) :=
        .ofNote _ _
      exact hnoted.symm.deliver r (.error .eio)
    | false =>
      -- Neither sends anything, but the substitute takes the number from the pending.
      have hn : (h.markAnswered r).pending.get? r.unique = none := hu hk
      have hsilent : (h.markAnswered r).deliver r .none = h.markAnswered r := by
        unfold deliver
        rw [untrack_of_none hn]
        split <;> rfl
      simp only [Bool.false_eq_true, if_false]
      rw [hsilent]
      exact .refl _

theorem same_answer (hu : h.Unlisted r) (p p' : Profile) (a : Answer) :
    Same (h.answer p r a).1 (h.answer p' r a).1 := by
  have hpanic : Same (h.answer .dev r a).1 (h.answer .release r a).1 := by
    cases a with
    | drop => exact .refl _
    | reply reply =>
      unfold answer complete
      dsimp only
      split
      · unfold settle
        split <;> exact .refl _
      · rename_i v _
        exact same_abandon_substitute (h := h.note (.violation r.unique r.kind v)) hu
  cases p <;> cases p'
  · exact .refl _
  · exact hpanic
  · exact hpanic.symm
  · exact .refl _

/-- An answer takes numbers from the pending, and puts none there. -/
theorem unnumbered_answer (h : Hub) (p : Profile) (r : Request) (a : Answer) {u : UInt64}
    (hn : h.pending.get? u = none) : (h.answer p r a).1.pending.get? u = none := by
  by_cases hp : h.progress r = .pending
  · rcases answer_of_pending hp p a with ⟨reply, -, ha⟩ | ⟨-, ha⟩
    · rw [ha.pending]
      have herased : ((h.markAnswered r).untrack r.unique).pending.get? u = none := by
        show (h.pending.erase r.unique).get? u = none
        rw [KeyedList.get?_erase, hn, ite_self]
      unfold deliver
      split
      · dsimp only
        split
        · rw [send_pending]
          exact herased
        · exact herased
      · exact hn
    · rw [ha.pending]
      exact hn
  · rw [(alike_answer hp p a).pending]
    exact hn

end Hub

namespace Session

-- A file system that is served in two profiles.
variable {σ : Type} (srv : Server σ) (p p' : Profile) {s s' t : Session σ}

/-! ## Answers from outside and from tasks -/

/-- Requests that only forget, as far as someone still holds them, share their numbers
with none that is pending. -/
def Unlisted (s : Session σ) : Prop := ∀ r ∈ s.held, s.hub.Unlisted r

/-- The two sessions differ in the log, in the channel and in the writer's turn, if in
anything. -/
abbrev Same (s s' : Session σ) : Prop := Beside true [] [] s s'

theorem Same.refl (s : Session σ) : Same s s := Beside.refl nofun

theorem unlisted_afterKept (srv : Server σ) (hu : s.Unlisted) {place : Nat} {r : Request}
    (hk : s.kept[place]? = some (some r)) (a : Answer) :
    s.hub.Unlisted r ∧ (s.afterKept srv place r a).Unlisted := by
  have hperm := perm_afterKept srv hk a
  refine ⟨hu r (hperm.mem_iff.mpr List.mem_cons_self), ?_⟩
  intro q hq hf
  exact Hub.unnumbered_answer _ _ _ _ (hu q (hperm.mem_iff.mpr (List.mem_cons_of_mem _ hq)) hf)

theorem unlisted_afterTask (srv : Server σ) (hu : s.Unlisted) {handle : Nat} {t : Task}
    (ht : s.tasks.find? (·.request.handle == handle) = some t) :
    s.hub.Unlisted t.request ∧ (s.afterTask srv handle t).Unlisted := by
  have hperm := perm_afterTask srv ht
  refine ⟨hu t.request (hperm.mem_iff.mpr List.mem_cons_self), ?_⟩
  intro q hq hf
  exact Hub.unnumbered_answer _ _ _ _ (hu q (hperm.mem_iff.mpr (List.mem_cons_of_mem _ hq)) hf)

/-- Without frames, no number comes to be pending. -/
theorem Course.unlisted {srv : Server σ} (c : Course srv s [] t) (hu : s.Unlisted) :
    t.Unlisted := by
  generalize hxs : ([] : List (Receipt σ)) = xs at c
  induction c with
  | refl => exact hu
  | frame => exact absurd hxs (by simp)
  | @answer xs t _ place a ih =>
    rcases answerKept_cases srv t place a with h | ⟨r, hk, h⟩
    · rw [h]
      exact ih hxs
    · rw [h]
      exact (unlisted_afterKept srv (ih hxs) hk a).2
  | @task xs t _ handle ih =>
    rcases runTask_cases srv t handle with h | ⟨task, ht, h⟩
    · rw [h]
      exact ih hxs
    · rw [h]
      exact (unlisted_afterTask srv (ih hxs) ht).2
  | quiet _ ha ih =>
    intro r hr hf
    rw [ha.hub.pending]
    exact ih hxs r (ha.held ▸ hr) hf

theorem same_answerKept (hu : s.Unlisted) (place : Nat) (a : Answer) :
    Same (s.answerKept (srv.inProfile p) place a).1
      (s.answerKept (srv.inProfile p') place a).1 := by
  unfold answerKept kept?
  cases hk : s.kept[place]? with
  | none => exact .refl s
  | some o =>
    cases o with
    | none => exact .refl s
    | some r =>
      have hr := (unlisted_afterKept (srv.inProfile p) hu hk a).1
      exact (Same.refl { s with kept := s.kept.set place none }).withHub
        (Hub.same_answer hr p p' a)

theorem same_answerAllKept (hu : s.Unlisted) (answers : List (Nat × Answer)) :
    Same (s.answerAllKept (srv.inProfile p) answers).1
      (s.answerAllKept (srv.inProfile p') answers).1 := by
  induction answers generalizing s with
  | nil => exact .refl s
  | cons entry rest ih =>
    obtain ⟨place, a⟩ := entry
    have hone := same_answerKept srv p p' hu place a
    have hcourse : Course (srv.inProfile p) s [] (s.answerKept (srv.inProfile p) place a).1 :=
      Course.refl.answer place a
    exact (ih (hcourse.unlisted hu)).trans (hone.answerAllKept (srv.inProfile p') rest).1

theorem same_runTask (hu : s.Unlisted) (handle : Nat) :
    Same (s.runTask (srv.inProfile p) handle) (s.runTask (srv.inProfile p') handle) := by
  unfold runTask
  split
  · rename_i t ht
    split
    · have hr := (unlisted_afterTask (srv.inProfile p) hu ht).1
      exact (Same.refl { s with tasks := s.tasks.eraseP (·.request.handle == handle) }).withHub
        (Hub.same_answer hr p p' t.answer)
    · exact .refl s
  · exact .refl s

theorem same_comeToRest (hu : s.Unlisted) :
    Same (s.comeToRest (srv.inProfile p)) (s.comeToRest (srv.inProfile p')) := by
  have hturns : ∀ (rs : List Runner) (t : Session σ), t.Unlisted →
      Same (rs.foldl (takeTurn (srv.inProfile p)) t)
        (rs.foldl (takeTurn (srv.inProfile p')) t) := by
    intro rs
    -- After each turn the profile changes in the same session, and then the sessions change
    -- in the same profile: only for the first one is it known that the numbers differ.
    induction rs with
    | nil => exact fun t _ => .refl t
    | cons r rs ih =>
      intro t ht
      have hcourse : Course (srv.inProfile p) t [] (t.takeTurn (srv.inProfile p) r) :=
        course_takeTurn t r
      have hone : Same (t.takeTurn (srv.inProfile p) r) (t.takeTurn (srv.inProfile p') r) := by
        cases r with
        | writer => exact .refl _
        | task handle => exact same_runTask srv p p' ht handle
      exact (ih _ (hcourse.unlisted ht)).trans (hone.takeTurns (srv.inProfile p') rs)
  exact (hturns s.hub.turns s.clearTurns hu).flush.clearTurns

/-! ## Operations -/

/-- A line of the log more or less. -/
theorem Same.reported (b : Same s s') (o o' : Option Panic) (e : Panic → Event) :
    Same (match o with | some p => s.note (e p) | none => s)
      (match o' with | some p => s'.note (e p) | none => s') := by
  have hnoted (t : Session σ) (e : Event) : Same t (t.note e) :=
    (Same.refl t).withHub (.ofNote _ e)
  cases o <;> cases o'
  · exact b
  · exact b.right (hnoted _ _)
  · exact b.left (hnoted _ _)
  · exact (b.right (hnoted _ _)).left (hnoted _ _)

theorem same_use {r : Request} (hr : s.hub.Unlisted r) (u : Use) :
    Same (s.use (srv.inProfile p) r u).1 (s.use (srv.inProfile p') r u).1 := by
  cases u with
  | answer a => exact (Same.refl s).withHub (Hub.same_answer hr p p' a)
  | keep => exact .refl _
  | onInterrupt a => exact .refl _

theorem unlisted_enrol {header : Kernel.InHeader} {op : Operation} {h : Hub}
    (hn : h.pending.get? header.unique = none) :
    (h.enrol header op).1.Unlisted (h.enrol header op).2 := by
  intro hk
  replace hk : op.kind.expectsReply = false := hk
  show (h.enrol header op).1.pending.get? header.unique = none
  rw [Hub.pending_enrol, hk]
  exact hn

theorem same_dispatch {header : Kernel.InHeader}
    (hn : s.hub.pending.get? header.unique = none) (op : Operation) :
    Same (s.dispatch (srv.inProfile p) header op) (s.dispatch (srv.inProfile p') header op) := by
  have hr : (s.hub.enrol header op).1.Unlisted (s.hub.enrol header op).2 := unlisted_enrol hn
  unfold dispatch
  dsimp only
  split
  · rename_i handler _
    let e := s.hub.enrol header op
    let outcome := (handler s.user e.2 op).2
    let called := outcome.notes.foldl note
      ({ s with hub := e.1, user := (handler s.user e.2 op).1 }.record (.called e.2 op))
    have hcalled : called.hub.Unlisted e.2 := by
      intro hk
      rw [(alike_notes _ outcome.notes).hub.pending]
      exact hr hk
    exact (same_use srv p p' hcalled outcome.use).reported _ _ _
  · exact (Same.refl { s with hub := (s.hub.enrol header op).1 }).withHub
      (Hub.same_answer hr p p' (.reply (if op.kind.expectsReply then .error .enosys else .none)))

/-- Of the messages that forget, the number is pending neither before nor after. -/
theorem pending_dispatch_forget (srv : Server σ) {header : Kernel.InHeader}
    (hn : s.hub.pending.get? header.unique = none) (i : Kernel.ForgetOne) :
    (s.dispatch srv header (.forget i.nodeid i.nlookup)).hub.pending.get? header.unique =
      none := by
  have henrol : (s.hub.enrol header (.forget i.nodeid i.nlookup)).1.pending.get?
      header.unique = none := hn
  rcases dispatch_cases srv s header (.forget i.nodeid i.nlookup) with ⟨a, h⟩ | ⟨t, u, ht, hu⟩
  · rw [h]
    exact Hub.unnumbered_answer _ _ _ _ henrol
  · have hcalled : t.hub.pending.get? header.unique = none := by
      rw [ht.hub.pending]
      exact henrol
    rw [hu.hub.pending]
    cases u with
    | answer a => exact Hub.unnumbered_answer _ _ _ _ hcalled
    | keep => exact hcalled
    | onInterrupt a =>
      show (t.hub.wake _).pending.get? _ = none
      rw [(Hub.alike_wake t.hub _).pending]
      exact hcalled

theorem same_dispatchForgets {header : Kernel.InHeader}
    (hn : s.hub.pending.get? header.unique = none) (items : List Kernel.ForgetOne) :
    Same (s.dispatchForgets (srv.inProfile p) header items)
      (s.dispatchForgets (srv.inProfile p') header items) := by
  induction items generalizing s with
  | nil => exact .refl s
  | cons i items ih =>
    have hone := same_dispatch srv p p' hn (.forget i.nodeid i.nlookup)
    exact (ih (pending_dispatch_forget (srv.inProfile p) hn i)).trans
      (hone.dispatchForgets nofun header items)

/-! ## Frames -/

/-- The number of the frame belongs to no request that is pending. -/
def Fresh (x : Receipt σ) : Prop :=
  ∀ u, x.unique? = some u → x.session.hub.pending.get? u = none

theorem same_handleMessage {header : Kernel.InHeader}
    (hn : s.hub.pending.get? header.unique = none) (m : Message) :
    Same (s.handleMessage (srv.inProfile p) header m).1
        (s.handleMessage (srv.inProfile p') header m).1 ∧
      (s.handleMessage (srv.inProfile p') header m).2 =
        (s.handleMessage (srv.inProfile p) header m).2 := by
  cases m with
  | forget items =>
    unfold handleMessage
    dsimp only
    split
    · exact ⟨same_dispatchForgets srv p p' hn items, rfl⟩
    · exact ⟨.refl s, rfl⟩
  | operation op =>
    unfold handleMessage
    dsimp only
    split
    · exact ⟨same_dispatch srv p p' hn op, rfl⟩
    · exact ⟨.refl _, rfl⟩
  | _ => exact ⟨.refl _, rfl⟩

theorem same_handleFrame {x : Receipt σ} (hx : Fresh x) :
    Same (x.session.handleFrame (srv.inProfile p) x.frame).1
        (x.session.handleFrame (srv.inProfile p') x.frame).1 ∧
      (x.session.handleFrame (srv.inProfile p') x.frame).2 =
        (x.session.handleFrame (srv.inProfile p) x.frame).2 := by
  unfold handleFrame
  cases hd : decodeHeader x.frame with
  | error e => exact ⟨.refl _, rfl⟩
  | ok header =>
    dsimp only
    split
    · exact ⟨.refl _, rfl⟩
    · exact same_handleMessage srv p p' (hx _ (unique?_of_header? (header?_of_decoded hd))) _

/-- Sessions that are the same receive the same frames. -/
theorem frames_of_same {srv : Server σ} (b : Same s s') (frames : List Bytes) :
    (s'.receiptsOf srv frames).map (·.frame) = (s.receiptsOf srv frames).map (·.frame) := by
  induction frames generalizing s s' with
  | nil => rfl
  | cons frame frames ih =>
    obtain ⟨hframe, hending⟩ :
        Same (s.handleFrame srv frame).1 (s'.handleFrame srv frame).1 ∧ _ :=
      b.handleFrame nofun frame
    rw [receiptsOf_cons, receiptsOf_cons]
    generalize s.handleFrame srv frame = g at hframe hending
    generalize s'.handleFrame srv frame = g' at hframe hending
    obtain ⟨t, ending⟩ := g
    obtain ⟨t', ending'⟩ := g'
    cases hending
    cases ending with
    | none => exact congrArg (frame :: ·) (ih hframe)
    | some ending => rfl

theorem same_receive {frames : List Bytes}
    (hx : ∀ x ∈ s.receiptsOf (srv.inProfile p) frames, Fresh x) :
    Same (s.receive (srv.inProfile p) frames).1 (s.receive (srv.inProfile p') frames).1 ∧
      (s.receive (srv.inProfile p') frames).2 = (s.receive (srv.inProfile p) frames).2 ∧
      (s.receiptsOf (srv.inProfile p') frames).map (·.frame) =
        (s.receiptsOf (srv.inProfile p) frames).map (·.frame) := by
  induction frames generalizing s with
  | nil => exact ⟨.refl s, rfl, rfl⟩
  | cons frame frames ih =>
    rw [receiptsOf_cons] at hx
    obtain ⟨hframe, hending⟩ := same_handleFrame srv p p' (hx _ List.mem_cons_self)
    rw [receiptsOf_cons, receiptsOf_cons, receive_cons, receive_cons]
    generalize s.handleFrame (srv.inProfile p) frame = g at *
    generalize s.handleFrame (srv.inProfile p') frame = g' at *
    obtain ⟨t, ending⟩ := g
    obtain ⟨t', ending'⟩ := g'
    cases hending
    cases ending with
    | some ending => exact ⟨hframe, rfl, rfl⟩
    | none =>
      obtain ⟨hrest, hends, hframes⟩ := ih fun x hm => hx x (List.mem_cons_of_mem _ hm)
      obtain ⟨hcongr, hcongr'⟩ :
          Same (t.receive (srv.inProfile p') frames).1
            (t'.receive (srv.inProfile p') frames).1 ∧ _ :=
        hframe.receive nofun frames
      refine ⟨hrest.trans hcongr, hcongr'.trans hends, congrArg (frame :: ·) ?_⟩
      exact (frames_of_same hframe frames).trans hframes

/-! ## The end -/

/-- The two sessions are the same, but for what the file system keeps. -/
def Aside (s s' : Session σ) : Prop := ∃ user, Same s { s' with user }

theorem Same.aside (b : Same s s') : Aside s s' := ⟨s'.user, b⟩

theorem Aside.right (b : Aside s s') (c : Same s' t) : Aside s t := by
  obtain ⟨user, b⟩ := b
  have hput : Same { s' with user } { t with user } :=
    ⟨c.hub, rfl, c.kept, c.tasks, c.handleHeld, c.result, nofun⟩
  exact ⟨user, b.trans hput⟩

/-! Whatever goes on after the farewell does not ask the file system for anything. -/

theorem flush_withUser (s : Session σ) (user : σ) :
    ({ s with user } : Session σ).flush = { s.flush with user } := by
  have hcarry (t : Session σ) (f : Frame) :
      ({ t with user } : Session σ).carry f = { t.carry f with user } := by
    unfold carry
    dsimp only
    split <;> rfl
  exact List.foldl_hom (fun t : Session σ => { t with user }) hcarry

theorem runTask_withUser (srv : Server σ) (s : Session σ) (user : σ) (handle : Nat) :
    ({ s with user } : Session σ).runTask srv handle = { s.runTask srv handle with user } := by
  unfold runTask
  dsimp only
  split
  · split <;> rfl
  · rfl

theorem comeToRest_withUser (srv : Server σ) (s : Session σ) (user : σ) :
    ({ s with user } : Session σ).comeToRest srv = { s.comeToRest srv with user } := by
  have hturn (t : Session σ) (r : Runner) :
      ({ t with user } : Session σ).takeTurn srv r = { t.takeTurn srv r with user } := by
    cases r with
    | writer => exact flush_withUser t user
    | task handle => exact runTask_withUser srv t user handle
  have hturns : s.hub.turns.foldl (takeTurn srv) { s.clearTurns with user } =
      { s.hub.turns.foldl (takeTurn srv) s.clearTurns with user } :=
    List.foldl_hom (fun t : Session σ => { t with user }) hturn
  unfold comeToRest
  show ((s.hub.turns.foldl (takeTurn srv) { s.clearTurns with user }).flush).clearTurns = _
  rw [hturns, flush_withUser]
  rfl

theorem outside_withUser (srv : Server σ) (s : Session σ) (user : σ) (input : Input) :
    (({ s with user } : Session σ).outside srv input).1 =
      { (s.outside srv input).1 with user } := by
  cases input with
  | answer place a =>
    show (({ s with user } : Session σ).answerKept srv place a).1 =
      { (s.answerKept srv place a).1 with user }
    unfold answerKept kept?
    dsimp only
    split <;> rfl
  | _ => rfl

theorem Aside.comeToRest (b : Aside s s') (hu : s.Unlisted) :
    Aside (s.comeToRest (srv.inProfile p)) (s'.comeToRest (srv.inProfile p')) := by
  obtain ⟨user, b⟩ := b
  refine ⟨user, ?_⟩
  rw [← comeToRest_withUser]
  exact (same_comeToRest srv p p' hu).trans (b.comeToRest (srv.inProfile p'))

theorem same_outside (hu : s.Unlisted) (input : Input) :
    Same (s.outside (srv.inProfile p) input).1 (s.outside (srv.inProfile p') input).1 := by
  cases input with
  | answer place a => exact same_answerKept srv p p' hu place a
  | _ => exact .refl _

theorem unlisted_outside (srv : Server σ) (hu : s.Unlisted) (input : Input) :
    (s.outside srv input).1.Unlisted := by
  cases input with
  | answer place a =>
    have hcourse : Course srv s [] (s.answerKept srv place a).1 := Course.refl.answer place a
    exact hcourse.unlisted hu
  | _ => exact hu

theorem Aside.outside (b : Aside s s') (hu : s.Unlisted) (input : Input) :
    Aside (s.outside (srv.inProfile p) input).1 (s'.outside (srv.inProfile p') input).1 := by
  obtain ⟨user, b⟩ := b
  refine ⟨user, ?_⟩
  rw [← outside_withUser]
  exact (same_outside srv p p' hu input).trans (b.outside (srv.inProfile p') input).1

theorem pending_windDown (srv : Server σ) (s : Session σ) (ending : Ending) :
    (s.windDown srv ending).hub.pending = [] := by
  have hone (h : Hub) (i : Nat) : (h.closeOne i).pending = h.pending := by
    unfold Hub.closeOne
    split
    · split
      · exact (Hub.send_pending _ _).trans (Hub.alike_interrupt _ i).pending
      · rfl
    · rfl
  have hclosed : ((s.dismissed srv).hub.closePending srv.drain).pending = [] :=
    Hub.closePending_keeps srv.drain (motive := fun g => g.pending = []) rfl
      fun g hg p _ => (hone g p.2).trans hg
  rcases ending with e | exit
  · exact hclosed
  · cases exit with
    | destroy unique => exact (Hub.send_pending _ (.success unique)).trans hclosed
    | unmounted => exact hclosed
    | shutdown => exact hclosed

/-- When a session has wound down, no number is pending. -/
theorem unlisted_windDown (srv : Server σ) (s : Session σ) (ending : Ending) :
    (s.windDown srv ending).Unlisted := by
  intro r _ _
  rw [pending_windDown]
  rfl

theorem aside_windDown (hu : s.Unlisted) (ending : Ending) :
    Aside (s.windDown (srv.inProfile p) ending) (s.windDown (srv.inProfile p') ending) := by
  have hfarewell : Aside ((s.enter .destroying).farewell (srv.inProfile p))
      ((s.enter .destroying).farewell (srv.inProfile p')) := by
    unfold farewell
    dsimp only
    split
    · rename_i handler _ _
      let goodbye := handler (s.enter .destroying).user (s.enter .destroying).hub.state
      have hanswers := same_answerAllKept (s := (s.enter .destroying).record .dismissed)
        srv p p' hu goodbye.answers
      -- The farewell is told whose answers panicked, and may keep what it likes.
      have hput (user user' : σ) : Aside
          { (((s.enter .destroying).record .dismissed).answerAllKept (srv.inProfile p)
            goodbye.answers).1 with user }
          { (((s.enter .destroying).record .dismissed).answerAllKept (srv.inProfile p')
            goodbye.answers).1 with user := user' } :=
        ⟨user, hanswers.hub, rfl, hanswers.kept, hanswers.tasks, hanswers.handleHeld,
          hanswers.result, nofun⟩
      split
      · obtain ⟨user, b⟩ := hput _ _
        exact ⟨user, b.note _⟩
      · exact hput _ _
    · exact (Same.refl _).aside
  obtain ⟨user, b⟩ := hfarewell
  have hclose := b.hub.closePending srv.drain
  have hshut {h h' : Hub} (c : Hub.Same h h') :
      Hub.Same { h with queueOpen := false } { h' with queueOpen := false } :=
    ⟨c.state, c.connection, c.slots, c.pending, rfl, c.reachable, c.turns, c.acts⟩
  refine ⟨user, ?_⟩
  unfold windDown
  dsimp only
  split
  · exact b.withHub (hshut (hclose.send _))
  · exact b.withHub (hshut hclose)

theorem aside_finish (hu : s.Unlisted) (ending : Ending) :
    Aside (s.finish (srv.inProfile p) ending) (s.finish (srv.inProfile p') ending) := by
  obtain ⟨user, b⟩ := (aside_windDown srv p p' hu ending).comeToRest
    srv p p' (unlisted_windDown (srv.inProfile p) s ending)
  have hend := b.enter .terminated
  exact ⟨user, ⟨hend.hub.state, hend.hub.connection, hend.hub.slots, hend.hub.pending,
    hend.hub.queueOpen, hend.handleHeld, hend.hub.turns, hend.hub.acts⟩, hend.user, hend.kept,
    hend.tasks, hend.handleHeld, rfl, nofun⟩

theorem unlisted_finish (srv : Server σ) (s : Session σ) (ending : Ending) :
    (s.finish srv ending).Unlisted :=
  (course_comeToRest srv (s.windDown srv ending)).unlisted (unlisted_windDown srv s ending)

/-! ## One input -/

theorem same_serve (hr : s.result = none) {input : Input}
    (hx : ∀ x ∈ s.received (srv.inProfile p) input, Fresh x) :
    Same (s.serve (srv.inProfile p) input).1 (s.serve (srv.inProfile p') input).1 ∧
      (s.serve (srv.inProfile p') input).2 = (s.serve (srv.inProfile p) input).2 ∧
      (s.received (srv.inProfile p') input).map (·.frame) =
        (s.received (srv.inProfile p) input).map (·.frame) := by
  cases input with
  | frames frames =>
    have hreceived (srv : Server σ) :
        s.received srv (.frames frames) = s.receiptsOf srv frames := by
      simp [received, ended, hr]
    rw [hreceived] at hx
    rw [hreceived, hreceived]
    exact same_receive srv p p' hx
  | _ => exact ⟨.refl s, rfl, rfl⟩

theorem received_of_same {srv : Server σ} (b : Same s s') (input : Input) :
    (s'.received srv input).map (·.frame) = (s.received srv input).map (·.frame) := by
  cases input with
  | frames frames =>
    unfold received
    dsimp only
    rw [b.ended]
    split
    · rfl
    · exact frames_of_same b frames
  | _ => rfl

/-- One input, served in two profiles. -/
theorem stepped_profiles (hr : s.result = none) (hu : s.Unlisted) {input : Input}
    (hx : ∀ x ∈ s.received (srv.inProfile p) input, Fresh x)
    (hserved : ((s.outside (srv.inProfile p) input).1.serve (srv.inProfile p) input).1.Unlisted) :
    Aside (s.step (srv.inProfile p) input).1 (s.step (srv.inProfile p') input).1 ∧
      ((s.step (srv.inProfile p) input).1.result = none →
        Same (s.step (srv.inProfile p) input).1 (s.step (srv.inProfile p') input).1) ∧
      (s.step (srv.inProfile p) input).1.Unlisted ∧
      (s.received (srv.inProfile p') input).map (·.frame) =
        (s.received (srv.inProfile p) input).map (·.frame) := by
  have hout := same_outside srv p p' hu input
  have hr' : (s.outside (srv.inProfile p) input).1.result = none :=
    (result_outside _ s input).trans hr
  have hr'' : (s.outside (srv.inProfile p') input).1.result = none :=
    (result_outside _ s input).trans hr
  rw [← received_outside] at hx
  obtain ⟨hone, hending, hframes⟩ := same_serve srv p p' hr' hx
  obtain ⟨hcongr, hending'⟩ :
      Same ((s.outside (srv.inProfile p) input).1.serve (srv.inProfile p') input).1
        ((s.outside (srv.inProfile p') input).1.serve (srv.inProfile p') input).1 ∧ _ :=
    hout.serve nofun input
  have hserve := hone.trans hcongr
  replace hending := hending'.trans hending
  have hreceived : (s.received (srv.inProfile p') input).map (·.frame) =
      (s.received (srv.inProfile p) input).map (·.frame) := by
    have hout' : (s.outside (srv.inProfile p') input).1.received (srv.inProfile p') input =
        s.received (srv.inProfile p') input := received_outside s input
    rw [← hout', received_of_same hout, hframes, received_outside]
  unfold step progress
  dsimp only
  rw [ended, hr', ended, hr'']
  simp only [Option.isSome_none, Bool.false_eq_true, if_false]
  generalize (s.outside (srv.inProfile p) input).1.serve (srv.inProfile p) input = g at *
  generalize (s.outside (srv.inProfile p') input).1.serve (srv.inProfile p') input = g' at *
  obtain ⟨t, ending⟩ := g
  obtain ⟨t', ending'⟩ := g'
  cases hending
  cases ending with
  | none =>
    have hrest := (same_comeToRest srv p p' hserved).trans
      (hserve.comeToRest (srv.inProfile p'))
    exact ⟨Same.aside hrest, fun _ => hrest, (course_comeToRest _ t).unlisted hserved, hreceived⟩
  | some ending =>
    have hfinished := unlisted_finish (srv.inProfile p) t ending
    have hfinish := (aside_finish srv p p' hserved ending).right
      (hserve.finish (srv.inProfile p') ending)
    refine ⟨hfinish.comeToRest srv p p' hfinished, ?_, (course_comeToRest _ _).unlisted hfinished,
      hreceived⟩
    intro hnone
    rw [(course_comeToRest _ _).steady.2] at hnone
    cases hnone

/-! ## Runs -/

theorem receipts_concat (srv : Server σ) (s : Session σ) (before : List Input) (input : Input) :
    s.receipts srv (before ++ [input]) =
      s.receipts srv before ++ (s.run srv before).received srv input := by
  induction before generalizing s with
  | nil => exact List.append_nil _
  | cons first before ih =>
    rw [List.cons_append, receipts, receipts, ih, List.append_assoc]
    rfl

theorem Ledger.unlisted {received : List UInt64} (l : Ledger received s) : s.Unlisted := by
  intro r hr hk
  rw [l.tracked r hr, if_neg (by rw [hk]; decide)]

/-- As long as no two frames have one number, a new one has a number of its own. -/
theorem fresh_of_nodup {srv : Server σ} {user : σ} {inputs : List Input} {xs ys : List (Receipt σ)}
    {x : Receipt σ} (h : (start user).receipts srv inputs = xs ++ x :: ys)
    (hn : (((start user).receipts srv inputs).filterMap Receipt.unique?).Nodup) : Fresh x := by
  intro u hx
  rw [h] at hn
  have b := (course_before_receipt h).balanced (nodup_front hn)
  rw [List.filterMap_append, List.filterMap_cons_some hx] at hn
  have hnew : u ∉ xs.filterMap Receipt.unique? := fun hm =>
    (List.nodup_append.mp hn).2.2 u hm u List.mem_cons_self rfl
  have ht : x.session.hub.tally u = dueTo xs u := b.tally u
  exact pending_of_tally (ht.trans (dueTo_of_not_mem hnew))

/-- The requests that are held when an input was served have numbers of their own. -/
theorem unlisted_served {srv : Server σ} {user : σ} {before : List Input} {input : Input}
    (hr : ((start user).run srv before).result = none)
    (hn : (((start user).receipts srv (before ++ [input])).filterMap Receipt.unique?).Nodup) :
    ((((start user).run srv before).outside srv input).1.serve srv input).1.Unlisted := by
  have hbefore := course_run hr
  have o := hbefore.open (open_start user)
  have hout := course_outside srv hr o input
  have hserved := served_serve srv _ (hout.steady.2.trans hr) input
  rw [received_outside] at hserved
  rw [receipts_concat] at hn
  generalize (((start user).run srv before).outside srv input).1.serve srv input = g at hserved
  obtain ⟨t, ending⟩ := g
  cases ending with
  | none =>
    have c : Course srv _ _ t := hserved
    exact ((hbefore.transIdle hout).trans c).balanced hn |>.ledger.unlisted
  | some ending =>
    have e : Ends srv _ _ t ending := hserved
    exact (e.after (hbefore.transIdle hout)).balanced hn |>.ledger.unlisted

theorem received_of_ended {srv : Server σ} (he : s.ended = true) (input : Input) :
    s.received srv input = [] := by
  unfold received
  split
  · rw [if_pos he]
  · rfl

/-- Two sessions that served the same inputs in the two profiles. -/
structure Twins (s s' : Session σ) : Prop where
  aside : Aside s s'
  same : s.result = none → Same s s'
  unlisted : s.Unlisted
  link : s'.link = s.link

theorem Aside.queue (b : Aside s s') : s'.hub.queue = s.hub.queue := by
  obtain ⟨user, b⟩ := b
  obtain ⟨later, hp, hq⟩ := b.hub.acts
  rw [queue_of_acts, queue_of_acts, hp]
  exact congrArg (List.filterMap Deed.frame?) hq

/-- Sessions that ended receive nothing, and what they still hold makes no difference. -/
theorem Twins.rest (w : Twins s s') {r : Except SessionError Unit} (hr : s.result = some r)
    (input : Input)
    (hlink : (s'.step (srv.inProfile p') input).1.hub.queue =
        (s.step (srv.inProfile p) input).1.hub.queue →
      (s'.step (srv.inProfile p') input).1.link = (s.step (srv.inProfile p) input).1.link) :
    Twins (s.step (srv.inProfile p) input).1 (s'.step (srv.inProfile p') input).1 ∧
      (s'.received (srv.inProfile p') input).map (·.frame) =
        (s.received (srv.inProfile p) input).map (·.frame) := by
  have he : s.ended = true := by simp [ended, hr]
  have he' : s'.ended = true := by
    obtain ⟨user', b⟩ := w.aside
    exact b.ended.trans he
  have hout := w.aside.outside srv p p' w.unlisted input
  have houtside := unlisted_outside (srv.inProfile p) w.unlisted input
  have haside := hout.comeToRest srv p p' houtside
  rw [← step_of_ended he, ← step_of_ended he'] at haside
  refine ⟨⟨haside, ?_, ?_, hlink haside.queue⟩, ?_⟩
  · intro hnone
    rw [result_step_of_ended he, hr] at hnone
    cases hnone
  · rw [step_of_ended he]
    exact (course_comeToRest _ _).unlisted houtside
  · rw [received_of_ended he, received_of_ended he']

theorem twins_run (user : σ) (inputs : List Input)
    (hn : (((start user).receipts (srv.inProfile p) inputs).filterMap Receipt.unique?).Nodup) :
    Twins ((start user).run (srv.inProfile p) inputs) ((start user).run (srv.inProfile p') inputs) ∧
      ((start user).receipts (srv.inProfile p') inputs).map (·.frame) =
        ((start user).receipts (srv.inProfile p) inputs).map (·.frame) := by
  -- From the last input on, for a number has to differ from all that came before it.
  induction inputs using List.reverseRecOn with
  | nil =>
    have hnone : (start user).Unlisted := fun r hr => (List.not_mem_nil hr).elim
    exact ⟨⟨(Same.refl _).aside, fun _ => .refl _, hnone, rfl⟩, rfl⟩
  | append_singleton before input ih =>
    have hreceipts := receipts_concat (srv.inProfile p) (start user) before input
    obtain ⟨w, hframes⟩ := ih (nodup_front (hreceipts ▸ hn))
    have hsound : Sound (start user) := Or.inl ⟨rfl, open_start user⟩
    have hlink := link_step (srv.inProfile p) (srv.inProfile p')
      (sound_run _ hsound before).1 (sound_run _ hsound before).1 (atRest_run _ user before)
      (atRest_run _ user before) w.link w.aside.queue input
    rw [run_concat, run_concat, hreceipts, receipts_concat, List.map_append, List.map_append,
      hframes]
    cases hr : ((start user).run (srv.inProfile p) before).result with
    | none =>
      have b := w.same hr
      have hfresh : ∀ x ∈ ((start user).run (srv.inProfile p) before).received
          (srv.inProfile p) input, Fresh x := by
        intro x hx
        obtain ⟨xs, ys, hxs⟩ := List.append_of_mem hx
        have hsplit : (start user).receipts (srv.inProfile p) (before ++ [input]) =
            ((start user).receipts (srv.inProfile p) before ++ xs) ++ x :: ys := by
          rw [hreceipts, hxs, List.append_assoc]
        exact fresh_of_nodup hsplit hn
      obtain ⟨haside, hsame, hunlisted, hreceived⟩ :=
        stepped_profiles srv p p' hr w.unlisted hfresh (unlisted_served hr hn)
      obtain ⟨hcongr, -⟩ := b.step (srv.inProfile p') input
      have haside' := haside.right hcongr
      refine ⟨⟨haside', fun h => (hsame h).trans hcongr, hunlisted, hlink haside'.queue⟩, ?_⟩
      rw [received_of_same b, hreceived]
    | some r =>
      obtain ⟨w', hreceived⟩ := w.rest srv p p' hr input hlink
      exact ⟨w', by rw [hreceived]⟩

theorem Twins.indistinct (w : Twins s s') : Indistinct s s' := by
  obtain ⟨user, b⟩ := w.aside
  have hacts : s'.hub.acts = s.hub.acts := by
    obtain ⟨later, hp, hq⟩ := b.hub.acts
    exact hq.trans hp.symm
  refine ⟨congrArg Link.arrived w.link, w.aside.queue, ?_, ?_, hacts, b.result, b.hub.connection,
    b.hub.pending, b.hub.slots_eq, b.kept, b.tasks, fun hr => (w.same hr).user⟩
  · rw [calls_of_acts, calls_of_acts, hacts]
  · unfold Hub.states
    rw [filterMap_acts _ fun _ => rfl, filterMap_acts _ fun _ => rfl, hacts]

/-! ## The law -/

/-- Serve the same inputs in both profiles. As long as no two frames that are received have
one number, the same frames are received and the same frames reach the kernel, in their
order; the same operations are handed to their handlers; the session goes through the same
states and has the same result. The requests that are pending at the end may come out in
any order, as long as it is one order for both profiles. -/
theorem the_profile_makes_no_difference (srv : Server σ) (user : σ) (inputs : List Input)
    (hn : (((start user).receipts (srv.inProfile .dev) inputs).filterMap Receipt.unique?).Nodup) :
    Indistinct ((start user).run (srv.inProfile .dev) inputs)
        ((start user).run (srv.inProfile .release) inputs) ∧
      ((start user).receipts (srv.inProfile .release) inputs).map (·.frame) =
        ((start user).receipts (srv.inProfile .dev) inputs).map (·.frame) := by
  obtain ⟨w, hframes⟩ := twins_run srv .dev .release user inputs hn
  exact ⟨w.indistinct, hframes⟩

/-- A file system that answers in the wrong form, panics, and keeps the rest. At the end the
last numbers come out first. -/
def clumsy : Server Unit where
  table :=
    { handler := fun
        | .statfs => some fun user _ _ => (user, .reply .empty)
        | .readlink => some fun user _ _ => (user, .panicked .other)
        | _ => some fun user _ _ => (user, { use := .keep }) }
  drain := .descending

/-- A lookup and a forget that are kept, a wrong answer and a panic, two lookups that are
kept to the end, wrong answers to the first two that were kept, and the end. -/
def mishaps : List Input :=
  [.frames
      [proposal, aboutRoot .lookup 2 [97, 0],
        aboutRoot .forget 3 (Wire.encode (⟨1⟩ : Kernel.ForgetIn)), aboutRoot .statfs 4 [],
        aboutRoot .readlink 5 [], aboutRoot .lookup 7 [98, 0], aboutRoot .lookup 8 [99, 0]],
    .answer 0 (.reply .empty), .answer 1 (.reply .empty),
    .frames [aboutRoot .destroy 6 []]]

/-- The log tells the profiles apart, and the kernel does not. -/
theorem the_kernel_hears_of_mishaps_alike :
    (((start ()).receipts (clumsy.inProfile .dev) mishaps).filterMap Receipt.unique?).Nodup ∧
      Indistinct ((start ()).run (clumsy.inProfile .dev) mishaps)
        ((start ()).run (clumsy.inProfile .release) mishaps) ∧
      ((start ()).run (clumsy.inProfile .release) mishaps).hub.queue.map
          (fun f => (f.unique, f.error)) =
        [(1, 0), (4, -5), (5, -5), (2, -5), (8, -107), (7, -107), (6, 0)] ∧
      ((start ()).run (clumsy.inProfile .release) mishaps).hub.log ≠
        ((start ()).run (clumsy.inProfile .dev) mishaps).hub.log := by
  have hn : (((start ()).receipts (clumsy.inProfile .dev) mishaps).filterMap
      Receipt.unique?).Nodup := by decide +kernel
  exact ⟨hn, (the_profile_makes_no_difference clumsy () mishaps hn).1, by decide +kernel,
    by decide +kernel⟩

/-- A forget and a lookup with one number are kept, and the forget is answered wrongly. -/
def shared : List Input :=
  [.frames
      [proposal, aboutRoot .forget 2 (Wire.encode (⟨1⟩ : Kernel.ForgetIn)),
        aboutRoot .lookup 2 [97, 0]],
    .answer 0 (.reply .empty), .frames [aboutRoot .destroy 6 []]]

-- The numbers have to differ. Here the error in the place of the wrong answer makes the
-- session forget the lookup, which gets no answer in the end.
example :
    (((start ()).run (clumsy.inProfile .dev) shared).hub.queue.map (·.unique),
      ((start ()).run (clumsy.inProfile .release) shared).hub.queue.map (·.unique)) =
    ([1, 2, 6], [1, 6]) := by
  decide +kernel

end Session

end Fuse
