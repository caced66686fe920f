-- Frames that cannot be read are inert. Wherever such a frame is put into a run, the
-- run goes on as without it: the kernel hears of the frame if it has a number and is
-- not only forgetting, and nothing else comes of it.
import Fuse.Proofs.Beside
import Fuse.Proofs.Moments
import Fuse.Proofs.Replies

namespace Fuse.Session

variable {σ : Type} {srv : Server σ}

/-! ## One frame -/

theorem le_of_header? {x : Receipt σ} {header : Kernel.InHeader}
    (h : x.header? = some header) : inHeaderSize ≤ x.frame.length := by
  unfold Receipt.header? decodeHeader at h
  split at h
  · cases h
  · omega

/-- The session with the frame stands beside the one without it. -/
theorem beside_handleFrame (srv : Server σ) {x : Receipt σ} (ho : x.session.hub.queueOpen = true)
    (h : x.message? = none) :
    Beside true x.session.hub.acts (x.session.hub.acts ++ x.complaint.map .sent) x.session
      (x.session.handleFrame srv x.frame).1 := by
  have hnoted (e : Event) : Hub.Beside true [] [] x.session.hub (x.session.note e).hub :=
    .ofNote _ e
  have hquiet (e : Event) (hc : x.complaint = []) :
      Beside true x.session.hub.acts (x.session.hub.acts ++ x.complaint.map .sent) x.session
        (x.session.note e) := by
    rw [hc, List.map_nil, List.append_nil]
    exact ⟨(hnoted e).since, rfl, rfl, rfl, rfl, rfl, nofun⟩
  unfold handleFrame
  cases hd : decodeHeader x.frame with
  | error e =>
    apply hquiet
    have hshort : x.frame.length < inHeaderSize := by
      apply Nat.lt_of_not_le
      intro hle
      obtain ⟨u, hu⟩ := unique?_of_le hle
      simp [Receipt.unique?, Receipt.header?, hd, Except.toOption] at hu
    simp [Receipt.complaint, hshort]
  | ok header =>
    have hh : x.header? = some header := header?_of_decoded hd
    have hlong := le_of_header? hh
    have hforgets : x.forgets = silentOpcode header.opcode := by simp [Receipt.forgets, hh]
    cases hm : decodeMessage header x.frame x.session.hub.minor with
    | ok m =>
      rw [message?_of_decoded hh hm] at h
      cases h
    | error e =>
      simp only [hm]
      by_cases hs : silentOpcode header.opcode = true
      · rw [if_pos hs]
        apply hquiet
        simp [Receipt.complaint, hforgets, hs]
      · have hc : x.complaint = [.ofErrno header.unique .eio] := by
          simp [Receipt.complaint, hforgets, hs, hlong, unique?_of_header? hh]
        rw [if_neg hs, hc]
        exact ⟨(hnoted _).sent ho _, rfl, rfl, rfl, rfl, rfl, nofun⟩

/-! ## Whole runs -/

theorem turns_run (srv : Server σ) (user : σ) (inputs : List Input) :
    ((start user).run srv inputs).hub.turns = [] := by
  rcases List.eq_nil_or_concat inputs with rfl | ⟨before, input, rfl⟩
  · rfl
  · rw [List.concat_eq_append, run_concat]
    rfl

/-- Whatever is no line of the log is among the acts. -/
theorem filterMap_acts {α : Type} (h : Hub) {view : Deed → Option α}
    (hv : ∀ e, view (.noted e) = none) : h.journal.filterMap view = h.acts.filterMap view := by
  unfold Hub.acts
  rw [List.filterMap_filter]
  congr 1
  funext d
  cases d <;> first | rfl | exact hv _

theorem queue_of_acts (h : Hub) : h.queue = h.acts.filterMap Deed.frame? :=
  filterMap_acts h fun _ => rfl

theorem calls_of_acts (h : Hub) : h.calls = h.acts.filterMap Deed.call? :=
  filterMap_acts h fun _ => rfl

/-- Sessions that stand beside each other since the frame differ in the complaint about
it and in nothing else. -/
theorem inert_of_beside {x : Receipt σ} {s s' : Session σ}
    (b : Beside true x.session.hub.acts (x.session.hub.acts ++ x.complaint.map .sent) s s') :
    Inert x s s' := by
  obtain ⟨later, hp, hq⟩ := b.hub.acts
  have hframes : (x.complaint.map Deed.sent).filterMap Deed.frame? = x.complaint := by
    rw [List.filterMap_map]
    exact List.filterMap_some
  have hcalls : (x.complaint.map Deed.sent).filterMap Deed.call? = [] := by
    rw [List.filterMap_map, List.filterMap_eq_nil_iff]
    exact fun _ _ => rfl
  refine ⟨⟨later, hp, hq⟩, ⟨later.filterMap Deed.frame?, ?_, ?_⟩, ?_, b.hub.state,
    b.hub.connection, b.hub.pending, b.hub.slots_eq, b.kept, b.tasks, b.user, b.result⟩
  · rw [queue_of_acts, queue_of_acts, hp, List.filterMap_append]
  · rw [queue_of_acts, queue_of_acts, hq, List.filterMap_append, List.filterMap_append, hframes]
  · rw [calls_of_acts, calls_of_acts, hp, hq]
    simp only [List.filterMap_append, hcalls, List.append_nil]

/-- Frames that leave the session beside itself, followed by others, do as much beside
the others. -/
theorem beside_front {s t : Session σ} {front : List Bytes} {p q : List Deed}
    (hr : s.result = none) (hf : s.receive srv front = (t, none)) (b : Beside true p q s t)
    (back : List Bytes) :
    Beside true p q (s.step srv (.frames back)).1 (s.step srv (.frames (front ++ back))).1 := by
  rw [step_of_front hr (b.result.trans hr) hf]
  exact (b.step srv (.frames back)).1

/-- A frame that cannot be read, followed by others, does as much as the others. -/
theorem beside_step (srv : Server σ) {x : Receipt σ} (hr : x.session.result = none)
    (o : x.session.hub.Open) (h : x.message? = none) (back : List Bytes) :
    Beside true x.session.hub.acts (x.session.hub.acts ++ x.complaint.map .sent)
      (x.session.step srv (.frames back)).1
      (x.session.step srv (.frames (x.frame :: back))).1 :=
  beside_front hr (receive_singleton (ending_of_unread h)) (beside_handleFrame srv o.queueOpen h)
    back

/-- An input without frames does nothing at rest. -/
theorem beside_idle (srv : Server σ) {s : Session σ} (hr : s.result = none)
    (ht : s.hub.turns = []) : Beside true [] [] s (s.step srv (.frames [])).1 := by
  have hended : s.ended = false := by simp [ended, hr]
  have hstep : (s.step srv (.frames [])).1 = s.comeToRest srv := by
    simp [step, outside, progress, hended, serve, receive]
  rw [hstep]
  exact .ofRest srv (fun h => Bool.noConfusion h) ht

/-! ## The law -/

/-- Put one more frame into a run, among the frames of an input or in an input of its
own, before the session ends. If the session could not read it, the kernel hears of the
frame if it holds a number and does not only forget, and everything else is as without
it, in the same order. The requests that are pending at the end may come out in any order,
as long as it is one order for both runs. While a session runs, a frame ends it just when it
is the kernel's goodbye. -/
theorem frames_that_cannot_be_read_are_inert (srv : Server σ) (user : σ) :
    (∀ (before after : List Input) (front back : List Bytes) (x : Receipt σ),
      ((start user).run srv before).result = none →
      ((start user).run srv before).receive srv front = (x.session, none) →
      x.message? = none →
      Inert x ((start user).run srv (before ++ .frames (front ++ back) :: after))
        ((start user).run srv (before ++ .frames (front ++ x.frame :: back) :: after))) ∧
    (∀ (before after : List Input) (x : Receipt σ),
      ((start user).run srv before).result = none →
      (start user).run srv before = x.session →
      x.message? = none →
      Inert x ((start user).run srv (before ++ after))
        ((start user).run srv (before ++ .frames [x.frame] :: after))) ∧
    (∀ x : Receipt σ, inHeaderSize ≤ x.frame.length → ∃ unique, x.unique? = some unique) ∧
    ∀ (x : Receipt σ) (ending : Ending), x.session.hub.state = .running →
      ((x.session.handleFrame srv x.frame).2 = some ending ↔
        ∃ unique, x.unique? = some unique ∧ x.message? = some .destroy ∧
          ending = .ok (.destroy unique)) := by
  refine ⟨?_, ?_, fun x => unique?_of_le, ?_⟩
  · intro before after front back x hr hfront hm
    obtain ⟨xs, c⟩ := course_front hr hfront
    have o := c.open (open_start user)
    have hr' : x.session.result = none := (c.onward (open_start user).queueOpen).2
    have hbeside := beside_step srv hr' o hm back
    rw [run_append, run_append, run_cons, run_cons, step_of_front hr hr' hfront,
      step_of_front hr hr' hfront]
    exact inert_of_beside (hbeside.run srv after)
  · intro before after x hr hx hm
    have hturns := turns_run srv user before
    have o := (course_run hr).open (open_start user)
    rw [hx] at hr hturns o
    have hbeside := beside_step srv hr o hm []
    rw [run_append, run_append, run_cons, hx]
    exact inert_of_beside ((hbeside.left (beside_idle srv hr hturns).symm).run srv after)
  · intro x ending hrun
    rw [ending_handleFrame]
    have hnever : x.failure? srv = none := by
      unfold Receipt.failure? Receipt.proposal?
      rw [hrun]
      split <;> rfl
    simp [hnever, hrun]

/-- Every request is kept, and at the end the last numbers come out first. -/
def backwards : Server Unit := { keeper with drain := .descending }

/-- Three lookups that are kept. -/
def threeLookups : List Input :=
  [.frames
    [proposal, aboutRoot .lookup 2 [97, 0], aboutRoot .lookup 3 [98, 0],
      aboutRoot .lookup 4 [99, 0]]]

/-- A name without an end, sent while the lookups are pending. -/
def torn : Receipt Unit := ⟨(start ()).run backwards threeLookups, aboutRoot .unlink 6 [97]⟩

/-- The kernel is told that the name is broken, and the session ends as it would have: one
lookup is let go, and the others come out. -/
theorem a_torn_name_is_inert :
    let after : List Input := [.frames [aboutRoot .destroy 7 []]]
    let s := (start ()).run backwards (threeLookups ++ after)
    let s' := (start ()).run backwards (threeLookups ++ .frames [torn.frame] :: after)
    Inert torn s s' ∧ torn.complaint = [.ofErrno 6 .eio] ∧
      s.hub.queue.map (·.unique) = [1, 2, 4, 3, 7] ∧
      s'.hub.queue.map (·.unique) = [1, 6, 2, 4, 3, 7] := by
  intro after s s'
  have hm : torn.message? = none := Option.isNone_iff_eq_none.mp (by decide +kernel)
  have hr : ((start ()).run backwards threeLookups).result = none :=
    Option.isNone_iff_eq_none.mp (by decide +kernel)
  obtain ⟨-, halone, -, -⟩ := frames_that_cannot_be_read_are_inert backwards ()
  exact ⟨halone threeLookups after torn hr rfl hm, by decide +kernel, by decide +kernel,
    by decide +kernel⟩

end Fuse.Session
