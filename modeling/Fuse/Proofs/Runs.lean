-- Whole runs as courses. A run either is a course from the start to its last
-- moment, or it comes to its end on the way: then it is a course up to that end,
-- the end itself, and a time in which nothing is sent any more.
import Fuse.Proofs.Frames

namespace Fuse.Session

variable {σ : Type} {srv : Server σ}

/-! ## The end and what comes after it -/

/-- The session may come to its end from the first moment: this is how it stands
when the end begins, and these are the frames that it received. The last one may
be the one that ends it. -/
inductive Ends (srv : Server σ) (s : Session σ) :
    List (Receipt σ) → Session σ → Ending → Prop where
  | outside {xs : List (Receipt σ)} {s' : Session σ} {ending : Ending} (c : Course srv s xs s')
      (hd : ∀ unique, ending ≠ .ok (.destroy unique)) : Ends srv s xs s' ending
  | frame {xs : List (Receipt σ)} {s' s'' : Session σ} {frame : Bytes} {ending : Ending}
      (c : Course srv s xs s') (h : s'.handleFrame srv frame = (s'', some ending)) :
      Ends srv s (xs ++ [⟨s', frame⟩]) s'' ending

/-- The session is over, and nothing was sent since its end was complete. -/
structure Over (wound t : Session σ) : Prop where
  result : t.result.isSome = true
  state : t.hub.state = .terminated
  queueOpen : t.hub.queueOpen = false
  later : Hub.Later wound.hub t.hub
  dismissals : t.hub.dismissals = wound.hub.dismissals

theorem Ends.after {s s' s'' : Session σ} {xs ys : List (Receipt σ)} {ending : Ending}
    (c : Course srv s xs s') (e : Ends srv s' ys s'' ending) :
    Ends srv s (xs ++ ys) s'' ending := by
  cases e with
  | outside d hd => exact .outside (c.trans d) hd
  | frame d h =>
    rw [← List.append_assoc]
    exact .frame (c.trans d) h

theorem Ends.split {s s' : Session σ} {zs : List (Receipt σ)} {ending : Ending}
    (e : Ends srv s zs s' ending) {xs ys : List (Receipt σ)} {x : Receipt σ}
    (h : zs = xs ++ x :: ys) :
    Course srv s xs x.session ∧ Ends srv x.session (x :: ys) s' ending := by
  cases e with
  | outside c hd =>
    obtain ⟨front, back⟩ := c.split h
    exact ⟨front, .outside back hd⟩
  | @frame zs s' s'' frame _ c hf =>
    rcases List.eq_nil_or_concat ys with rfl | ⟨ys, y, rfl⟩
    · obtain ⟨rfl, hx⟩ := List.append_inj' h rfl
      obtain rfl : ⟨s', frame⟩ = x := List.head_eq_of_cons_eq hx
      exact ⟨c, .frame .refl hf⟩
    · rw [List.concat_eq_append, ← List.cons_append, ← List.append_assoc] at h
      obtain ⟨rfl, hy⟩ := List.append_inj' h rfl
      obtain rfl : ⟨s', frame⟩ = y := List.head_eq_of_cons_eq hy
      obtain ⟨front, back⟩ := c.split rfl
      rw [List.concat_eq_append, ← List.cons_append]
      exact ⟨front, .frame back hf⟩

theorem Ends.onward {s s' : Session σ} {xs : List (Receipt σ)} {ending : Ending}
    (e : Ends srv s xs s' ending) (ho : s.hub.queueOpen = true) :
    Hub.Onward s.hub s'.hub ∧ s'.result = s.result := by
  cases e with
  | outside c _ => exact c.onward ho
  | @frame xs s' s'' frame _ c h =>
    have hc := c.onward ho
    have hf := onward_handleFrame srv (hc.1.queueOpen.trans ho) frame
    rw [h] at hf
    exact ⟨hc.1.trans hf.1, hf.2.trans hc.2⟩

theorem Ends.open {s s' : Session σ} {xs : List (Receipt σ)} {ending : Ending}
    (e : Ends srv s xs s' ending) (o : s.hub.Open) : s'.hub.Open := by
  cases e with
  | outside c _ => exact c.open o
  | @frame xs s' s'' frame _ c h =>
    have hf := open_handleFrame srv (c.open o) frame
    rwa [h] at hf

theorem windDown_closed (s : Session σ) (ending : Ending) :
    (s.windDown srv ending).hub.queueOpen = false := rfl

theorem over_finish (s : Session σ) (ending : Ending) :
    Over (s.windDown srv ending) (s.finish srv ending) := by
  have hrest := (course_comeToRest srv (s.windDown srv ending)).steady.1
  have henter := Hub.alike_enter ((s.windDown srv ending).comeToRest srv).hub .terminated
  have hlater := hrest.toLater.trans
    ((Hub.onward_stand _ .terminated _).trans henter.steady.toOnward).toLater
  refine ⟨rfl, rfl, ?_, ?_, ?_⟩
  · exact hrest.queueOpen.trans (windDown_closed s ending)
  · exact ⟨hlater.deeds, hlater.slot, hlater.closed⟩
  · exact henter.steady.dismissals.trans hrest.dismissals

theorem Over.course {wound t t' : Session σ} (o : Over wound t) (c : Course srv t [] t') :
    Over wound t' := by
  obtain ⟨hs, hr⟩ := c.steady
  exact ⟨hr ▸ o.result, hs.state.trans o.state, hs.queueOpen.trans o.queueOpen,
    o.later.trans hs.toLater, hs.dismissals.trans o.dismissals⟩

theorem over_outside (srv : Server σ) {wound t : Session σ} (o : Over wound t) (input : Input) :
    Over wound (t.outside srv input).1 := by
  cases input with
  | answer place a => exact o.course (course_answerAllKept srv t [(place, a)])
  | dropHandle =>
    exact ⟨o.result, o.state, o.queueOpen, ⟨o.later.deeds, o.later.slot, o.later.closed⟩,
      o.dismissals⟩
  | _ => exact ⟨o.result, o.state, o.queueOpen, o.later, o.dismissals⟩

theorem over_step {wound t : Session σ} (o : Over wound t) (input : Input) :
    Over wound (t.step srv input).1 := by
  have ho := over_outside srv o input
  unfold step
  dsimp only
  have hended : (t.outside srv input).1.ended = true := ho.result
  rw [if_pos hended]
  exact ho.course (course_comeToRest srv _)

theorem over_run (srv : Server σ) {wound t : Session σ} (o : Over wound t) (inputs : List Input) :
    Over wound (t.run srv inputs) := by
  induction inputs generalizing t with
  | nil => exact o
  | cons input inputs ih => exact ih (over_step o input)

theorem receipts_over {wound t : Session σ} (o : Over wound t) (inputs : List Input) :
    t.receipts srv inputs = [] := by
  induction inputs generalizing t with
  | nil => rfl
  | cons input inputs ih =>
    unfold receipts
    rw [ih (over_step o input), List.append_nil]
    cases input with
    | frames frames => exact if_pos o.result
    | _ => rfl

/-! ## One input -/

/-- How a session is after it was served: still on its course, or at its end. -/
def Served (srv : Server σ) (s : Session σ) (xs : List (Receipt σ)) :
    Session σ × Option Ending → Prop
  | (s', none) => Course srv s xs s'
  | (s', some ending) => Ends srv s xs s' ending

theorem served_receive (s : Session σ) (frames : List Bytes) :
    Served srv s (s.receiptsOf srv frames) (s.receive srv frames) := by
  induction frames generalizing s with
  | nil => exact .refl
  | cons frame frames ih =>
    unfold receive receiptsOf
    cases h : s.handleFrame srv frame with
    | mk s' ending =>
      cases ending with
      | some ending => exact .frame .refl h
      | none =>
        have hone : Course srv s [⟨s, frame⟩] s' := Course.refl.frame h
        have hrest := ih s'
        dsimp only
        cases hr : s'.receive srv frames with
        | mk s'' ending =>
          rw [hr] at hrest
          cases ending with
          | none => exact hone.trans hrest
          | some ending => exact hrest.after hone

theorem served_serve (srv : Server σ) (s : Session σ) (hr : s.result = none) (input : Input) :
    Served srv s (s.received srv input) (s.serve srv input) := by
  have hstream : ∀ unique, s.streamEnding ≠ .ok (.destroy unique) := by
    intro unique
    unfold streamEnding
    split <;> simp
  cases input with
  | frames frames =>
    have hended : s.ended = false := by simp [ended, hr]
    unfold received
    rw [hended]
    exact served_receive s frames
  | close => exact .outside .refl hstream
  | hangUp => exact .outside .refl hstream
  | failReceive e => exact .outside .refl (by simp)
  | shutdown =>
    show Served srv s [] (s, if s.handleHeld then _ else none)
    split
    · exact .outside .refl (by simp)
    · exact .refl
  | failSend e => exact .refl
  | dropHandle => exact .refl
  | answer place a => exact .refl

theorem course_outside (srv : Server σ) {s : Session σ} (hr : s.result = none)
    (o : s.hub.Open) (input : Input) : Course srv s [] (s.outside srv input).1 := by
  cases input with
  | answer place a => exact Course.refl.answer place a
  | dropHandle =>
    refine .ofAlike ⟨⟨rfl, rfl, rfl, rfl, rfl, rfl, ?_⟩, rfl, rfl, rfl⟩
    show (!s.ended) = s.hub.reachable
    simp [ended, hr, o.reachable]
  | _ => exact .ofAlike ⟨.refl _, rfl, rfl, rfl⟩

/-- The frames of an input come to the session as it was before. -/
theorem received_outside (s : Session σ) (input : Input) :
    (s.outside srv input).1.received srv input = s.received srv input := by
  cases input <;> rfl

/-- One input: the session stays on its course, or it comes to its end. -/
theorem step_cases (srv : Server σ) {s : Session σ} (hr : s.result = none) (o : s.hub.Open)
    (input : Input) :
    (s.endedBy srv input = none ∧
      Course srv s (s.received srv input) (s.step srv input).1) ∨
    ∃ s' ending, s.endedBy srv input = some (s', ending) ∧
      Ends srv s (s.received srv input) s' ending ∧
      Over (s'.windDown srv ending) (s.step srv input).1 := by
  have hout := course_outside srv hr o input
  have hr' : (s.outside srv input).1.result = none := hout.steady.2.trans hr
  have hserved := served_serve srv _ hr' input
  rw [received_outside] at hserved
  unfold endedBy step progress
  dsimp only
  rw [ended, hr, ended, hr']
  dsimp only [Option.isSome_none]
  simp only [Bool.false_eq_true, if_false]
  cases hs : (s.outside srv input).1.serve srv input with
  | mk s' ending =>
    rw [hs] at hserved
    cases ending with
    | none =>
      have hc := hout.trans hserved
      exact Or.inl ⟨rfl, hc.transIdle (course_comeToRest srv s')⟩
    | some ending =>
      have he := hserved.after hout
      exact Or.inr ⟨s', ending, rfl, he, (over_finish s' ending).course (course_comeToRest srv _)⟩

/-! ## Runs -/

/-- A run either is a course to its last moment, or it comes to its end on the
way. -/
theorem run_cases (srv : Server σ) {s : Session σ} (hr : s.result = none) (o : s.hub.Open)
    (inputs : List Input) :
    (s.endOf srv inputs = none ∧ Course srv s (s.receipts srv inputs) (s.run srv inputs)) ∨
    ∃ s' ending, s.endOf srv inputs = some (s', ending) ∧
      Ends srv s (s.receipts srv inputs) s' ending ∧
      Over (s'.windDown srv ending) (s.run srv inputs) := by
  induction inputs generalizing s with
  | nil => exact Or.inl ⟨rfl, .refl⟩
  | cons input inputs ih =>
    unfold endOf receipts
    rcases step_cases srv hr o input with ⟨hnone, hc⟩ | ⟨s', ending, hsome, he, hover⟩
    · have o' := hc.open o
      have hr' := (hc.onward o.queueOpen).2
      rw [hnone, Option.none_or]
      rcases ih (hr'.trans hr) o' with ⟨hnone', hc'⟩ | ⟨s', ending, hsome, he, hover⟩
      · exact Or.inl ⟨hnone', hc.trans hc'⟩
      · exact Or.inr ⟨s', ending, hsome, he.after hc, hover⟩
    · rw [hsome, Option.some_or, receipts_over hover, List.append_nil]
      exact Or.inr ⟨s', ending, rfl, he, over_run srv hover inputs⟩

theorem open_start (user : σ) : (start user).hub.Open :=
  ⟨rfl, rfl, by simp [start], by simp [start], rfl⟩

end Fuse.Session
