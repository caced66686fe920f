-- The moments of a run. A frame that was received came after some inputs and, within
-- its own, after some frames, and none of these ended the session. What holds of the
-- session at such a moment holds of the run up to there.
import Fuse.Proofs.Handshake
import Fuse.Proofs.Runs

namespace Fuse.Session

variable {σ : Type} {srv : Server σ}

/-! ## Within one input -/

theorem receive_cons (srv : Server σ) (s : Session σ) (frame : Bytes) (frames : List Bytes) :
    s.receive srv (frame :: frames) =
      match s.handleFrame srv frame with
      | (t, none) => t.receive srv frames
      | (t, some ending) => (t, some ending) := rfl

theorem receive_singleton {s : Session σ} {frame : Bytes}
    (h : (s.handleFrame srv frame).2 = none) :
    s.receive srv [frame] = ((s.handleFrame srv frame).1, none) := by
  rw [receive_cons]
  generalize s.handleFrame srv frame = g at h
  obtain ⟨t, ending⟩ := g
  cases h
  rfl

theorem receiptsOf_cons (srv : Server σ) (s : Session σ) (frame : Bytes) (frames : List Bytes) :
    s.receiptsOf srv (frame :: frames) = ⟨s, frame⟩ ::
      match s.handleFrame srv frame with
      | (t, none) => t.receiptsOf srv frames
      | (_, some _) => [] := rfl

theorem receive_append (srv : Server σ) (s : Session σ) (front back : List Bytes) :
    s.receive srv (front ++ back) =
      match s.receive srv front with
      | (t, none) => t.receive srv back
      | (t, some ending) => (t, some ending) := by
  induction front generalizing s with
  | nil => rfl
  | cons frame front ih =>
    rw [List.cons_append, receive_cons, receive_cons]
    cases h : s.handleFrame srv frame with
    | mk t ending =>
      cases ending with
      | none => exact ih t
      | some ending => rfl

/-- The frames that a session comes to are those before which nothing ends it. -/
theorem mem_receiptsOf_iff {s : Session σ} {frames : List Bytes} {x : Receipt σ} :
    x ∈ s.receiptsOf srv frames ↔ ∃ front back, frames = front ++ x.frame :: back ∧
      s.receive srv front = (x.session, none) := by
  induction frames generalizing s with
  | nil => simp [receiptsOf]
  | cons frame frames ih =>
    rw [receiptsOf_cons, List.mem_cons]
    constructor
    · rintro (rfl | hx)
      · exact ⟨[], frames, rfl, rfl⟩
      · cases h : s.handleFrame srv frame with
        | mk t ending =>
          rw [h] at hx
          cases ending with
          | some ending => cases hx
          | none =>
            obtain ⟨front, back, rfl, hr⟩ := ih.mp hx
            refine ⟨frame :: front, back, rfl, ?_⟩
            rw [receive_cons, h]
            exact hr
    · rintro ⟨front, back, hf, hr⟩
      cases front with
      | nil =>
        obtain ⟨rfl, -⟩ := List.cons_eq_cons.mp hf
        cases hr
        exact Or.inl rfl
      | cons frame' front =>
        obtain ⟨rfl, hrest⟩ := List.cons_eq_cons.mp hf
        rw [receive_cons] at hr
        cases h : s.handleFrame srv frame with
        | mk t ending =>
          rw [h] at hr
          cases ending with
          | some ending => cases hr
          | none => exact Or.inr (ih.mpr ⟨front, back, hrest, hr⟩)

/-- Some frames end a session just when one of those that it comes to does. -/
theorem ending_receive {s : Session σ} {frames : List Bytes} {ending : Ending} :
    (s.receive srv frames).2 = some ending ↔
      ∃ x ∈ s.receiptsOf srv frames, (x.session.handleFrame srv x.frame).2 = some ending := by
  induction frames generalizing s with
  | nil => simp [receiptsOf, receive]
  | cons frame frames ih =>
    rw [receiptsOf_cons, receive_cons]
    cases h : s.handleFrame srv frame with
    | mk t e =>
      cases e with
      | none => simp [h, ih]
      | some e => simp [h]

/-! ## Within a run -/

theorem run_cons (srv : Server σ) (s : Session σ) (input : Input) (inputs : List Input) :
    s.run srv (input :: inputs) = (s.step srv input).1.run srv inputs := rfl

theorem run_append (srv : Server σ) (s : Session σ) (before after : List Input) :
    s.run srv (before ++ after) = (s.run srv before).run srv after :=
  List.foldl_append

theorem run_concat (srv : Server σ) (s : Session σ) (before : List Input) (input : Input) :
    s.run srv (before ++ [input]) = ((s.run srv before).step srv input).1 := by
  rw [run_append]
  rfl

/-- A frame was received if it came in an input, and the session was under way. -/
theorem mem_receipts_iff {s : Session σ} {inputs : List Input} {x : Receipt σ} :
    x ∈ s.receipts srv inputs ↔ ∃ before input after, inputs = before ++ input :: after ∧
      x ∈ (s.run srv before).received srv input := by
  induction inputs generalizing s with
  | nil => simp [receipts]
  | cons input inputs ih =>
    unfold receipts
    rw [List.mem_append]
    constructor
    · rintro (hx | hx)
      · exact ⟨[], input, inputs, rfl, hx⟩
      · obtain ⟨before, i, after, hi, hy⟩ := ih.mp hx
        exact ⟨input :: before, i, after, congrArg (input :: ·) hi, hy⟩
    · rintro ⟨before, i, after, hi, hx⟩
      cases before with
      | nil =>
        obtain ⟨rfl, -⟩ := List.cons_eq_cons.mp hi
        exact Or.inl hx
      | cons input' before =>
        obtain ⟨rfl, hrest⟩ := List.cons_eq_cons.mp hi
        exact Or.inr (ih.mpr ⟨before, i, after, hrest, hx⟩)

theorem mem_received_iff {s : Session σ} {input : Input} {x : Receipt σ} :
    x ∈ s.received srv input ↔ s.result = none ∧
      ∃ frames, input = .frames frames ∧ x ∈ s.receiptsOf srv frames := by
  cases input with
  | frames frames =>
    unfold received
    cases hr : s.result <;> simp [ended, hr]
  | _ => simp [received]

/-! ## Sessions that are under way -/

/-- A session that has no result yet got there by a course from the start. -/
theorem course_run {user : σ} {inputs : List Input}
    (h : ((start user).run srv inputs).result = none) :
    Course srv (start user) ((start user).receipts srv inputs) ((start user).run srv inputs) := by
  rcases run_cases srv (s := start user) rfl (open_start user) inputs with
    ⟨-, c⟩ | ⟨s', ending, -, -, ho⟩
  · exact c
  · have hr := ho.result
    rw [h] at hr
    cases hr

/-- A session that was not terminated has no result yet. -/
theorem result_of_state {user : σ} {inputs : List Input}
    (h : ((start user).run srv inputs).hub.state ≠ .terminated) :
    ((start user).run srv inputs).result = none := by
  rcases run_cases srv (s := start user) rfl (open_start user) inputs with
    ⟨-, c⟩ | ⟨_, _, -, -, ho⟩
  · exact (c.onward (open_start user).queueOpen).2
  · exact absurd ho.state h

/-- The states of a session that is under way. -/
def State.UnderWay (s : State) : Prop := s = .created ∨ s = .initializing ∨ s = .running

theorem underWay_handleFrame {s s' : Session σ} {frame : Bytes} {ending : Option Ending}
    (o : s.hub.Open) (h : State.UnderWay s.hub.state)
    (hf : s.handleFrame srv frame = (s', ending)) : State.UnderWay s'.hub.state := by
  have hs := steady_or_handshake srv s frame
  rw [hf] at hs
  rcases hs with ⟨hs, -⟩ | ⟨-, unique, init, he⟩
  · rw [hs.state]
    exact h
  · obtain ⟨state, connection, f, ha, -, -, hstate⟩ := handshake_spec srv unique init o.queueOpen
    replace he : s' = (s.handshake srv unique init).1 := he
    rw [he, ha.hub.state]
    show State.UnderWay state
    rcases hstate with ⟨-, rfl | rfl⟩ | ⟨-, rfl⟩ <;> simp [State.UnderWay]

theorem Course.underWay {s s' : Session σ} {xs : List (Receipt σ)} (c : Course srv s xs s')
    (o : s.hub.Open) (h : State.UnderWay s.hub.state) : State.UnderWay s'.hub.state := by
  induction c with
  | refl => exact h
  | frame c' hf ih => exact underWay_handleFrame (c'.open o) ih hf
  | @answer xs s' _ place a ih =>
    rw [(steady_answerKept srv s' place a).state]
    exact ih
  | @task xs s' _ handle ih =>
    rw [(steady_runTask srv s' handle).state]
    exact ih
  | quiet _ ha ih =>
    rw [ha.hub.state]
    exact ih

theorem Ends.underWay {s s' : Session σ} {xs : List (Receipt σ)} {ending : Ending}
    (e : Ends srv s xs s' ending) (o : s.hub.Open) (h : State.UnderWay s.hub.state) :
    State.UnderWay s'.hub.state := by
  cases e with
  | outside c _ => exact c.underWay o h
  | frame c hf => exact underWay_handleFrame (c.open o) (c.underWay o h) hf

/-! ## One input -/

/-- What an input comes to for a session that is under way: it stays on its course and
comes to rest, or it ends and comes to rest. -/
inductive Stepped (srv : Server σ) (s : Session σ) (input : Input) : Session σ → Prop where
  | onward {t : Session σ} (hs : (s.outside srv input).1.serve srv input = (t, none))
      (c : Course srv s (s.received srv input) t) : Stepped srv s input (t.comeToRest srv)
  | ended {t : Session σ} {ending : Ending}
      (hs : (s.outside srv input).1.serve srv input = (t, some ending))
      (e : Ends srv s (s.received srv input) t ending) :
      Stepped srv s input ((t.finish srv ending).comeToRest srv)

theorem stepped (srv : Server σ) {s : Session σ} (hr : s.result = none) (o : s.hub.Open)
    (input : Input) : Stepped srv s input (s.step srv input).1 := by
  have hout := course_outside srv hr o input
  have hr' : (s.outside srv input).1.result = none := hout.steady.2.trans hr
  have hserved := served_serve srv _ hr' input
  rw [received_outside] at hserved
  unfold step progress
  dsimp only
  rw [ended, hr']
  simp only [Option.isSome_none, Bool.false_eq_true, if_false]
  cases hs : (s.outside srv input).1.serve srv input with
  | mk t ending =>
    rw [hs] at hserved
    cases ending with
    | none => exact .onward hs (hout.trans hserved)
    | some ending => exact .ended hs (hserved.after hout)

/-! ## The result -/

/-- The result of one step says how the input ended the session, if it did. -/
theorem result_step {s : Session σ} (hr : s.result = none) (o : s.hub.Open) (input : Input) :
    (s.step srv input).1.result =
      ((s.outside srv input).1.serve srv input).2.map fun ending => ending.map fun _ => () := by
  have h := stepped srv hr o input
  generalize (s.step srv input).1 = s' at h
  cases h with
  | @onward t hs c =>
    rw [(course_comeToRest srv t).steady.2, (c.onward o.queueOpen).2, hr, hs]
    rfl
  | @ended t ending hs _ =>
    rw [(course_comeToRest srv _).steady.2, hs]
    rfl

/-- A handshake fails for one of three reasons. -/
theorem failure_cases {x : Receipt σ} {e : SessionError} (h : x.failure? srv = some e) :
    (∃ major minor, e = .unsupportedProtocol major minor) ∨ (∃ errno, e = .initRejected errno) ∨
      ∃ missing, e = .capability missing := by
  unfold Receipt.failure? at h
  obtain ⟨init, -, hf⟩ := Option.bind_eq_some_iff.mp h
  unfold Server.refusal? at hf
  split at hf
  · cases hf
    exact Or.inl ⟨_, _, rfl⟩
  · split at hf
    · cases hf
    · split at hf
      · cases hf
        exact Or.inr (Or.inl ⟨_, rfl⟩)
      · split at hf
        · cases hf
        · cases hf
          exact Or.inr (Or.inr ⟨_, rfl⟩)

theorem result_frames {s : Session σ} (hr : s.result = none) (frames : List Bytes)
    (r : Except SessionError Unit) :
    ((s.receive srv frames).2.map fun ending => ending.map fun _ => ()) = some r ↔
      Concludes srv s (.frames frames) r := by
  have hreceived : s.received srv (.frames frames) = s.receiptsOf srv frames := by
    simp [received, ended, hr]
  have hmap : ((s.receive srv frames).2.map fun ending => ending.map fun _ => ()) = some r ↔
      ∃ x ∈ s.receiptsOf srv frames,
        (r = .ok () ∧ x.message? = some .destroy ∧ x.session.hub.state = .running) ∨
        ∃ e, x.failure? srv = some e ∧ r = .error e := by
    rw [Option.map_eq_some_iff]
    constructor
    · rintro ⟨ending, he, rfl⟩
      obtain ⟨x, hx, he⟩ := ending_receive.mp he
      refine ⟨x, hx, ?_⟩
      rcases (ending_handleFrame srv x ending).mp he with ⟨u, -, hm, hrun, rfl⟩ | ⟨e, hf, rfl⟩
      · exact Or.inl ⟨rfl, hm, hrun⟩
      · exact Or.inr ⟨e, hf, rfl⟩
    · rintro ⟨x, hx, ⟨rfl, hm, hrun⟩ | ⟨e, hf, rfl⟩⟩
      · obtain ⟨header, hh, -⟩ := read_of_message? srv hm
        refine ⟨.ok (.destroy header.unique), ?_, rfl⟩
        refine ending_receive.mpr ⟨x, hx, (ending_handleFrame srv x _).mpr (Or.inl ?_)⟩
        exact ⟨_, unique?_of_header? hh, hm, hrun, rfl⟩
      · refine ⟨.error e, ?_, rfl⟩
        exact ending_receive.mpr ⟨x, hx, (ending_handleFrame srv x _).mpr (Or.inr ⟨e, hf, rfl⟩)⟩
  rw [hmap]
  cases r with
  | ok u => simp [Concludes, hreceived]
  | error e =>
    have hnever (x : Receipt σ) (hx : x.failure? srv = some e) :
        (∀ err, e ≠ .io err) ∧ e ≠ .closedBeforeInit := by
      rcases failure_cases hx with ⟨_, _, rfl⟩ | ⟨_, rfl⟩ | ⟨_, rfl⟩ <;> simp
    cases e with
    | io err =>
      have hnone : ∀ x ∈ s.receiptsOf srv frames, x.failure? srv ≠ some (.io err) :=
        fun x _ hx => (hnever x hx).1 err rfl
      simpa [Concludes] using hnone
    | closedBeforeInit =>
      have hnone : ∀ x ∈ s.receiptsOf srv frames, x.failure? srv ≠ some .closedBeforeInit :=
        fun x _ hx => (hnever x hx).2 rfl
      simpa [Concludes] using hnone
    | unsupportedProtocol major minor => simp [Concludes, hreceived]
    | initRejected errno => simp [Concludes, hreceived]
    | capability missing => simp [Concludes, hreceived]

/-- The end of the stream is an error as long as the session does not run. -/
theorem result_stream {s : Session σ} (hu : State.UnderWay s.hub.state) {input : Input}
    (hi : input = .close ∨ input = .hangUp) (r : Except SessionError Unit) :
    some (s.streamEnding.map fun _ => ()) = some r ↔ Concludes srv s input r := by
  have hreceived : s.received srv input = [] := by
    rcases hi with rfl | rfl <;> rfl
  have hother : (∀ e, input ≠ .failReceive e) ∧ input ≠ .shutdown := by
    rcases hi with rfl | rfl <;> simp
  have hending : s.streamEnding.map (fun _ => ()) =
      if s.hub.state = .running then .ok () else .error .closedBeforeInit := by
    unfold streamEnding
    rcases hu with h | h | h <;> simp [h, Except.map]
  rw [hending, Option.some.injEq]
  by_cases hrun : s.hub.state = .running
  · cases r with
    | ok u => simp [Concludes, hreceived, hrun, hi]
    | error e => cases e <;> simp [Concludes, hreceived, hrun, hother]
  · cases r with
    | ok u => simp [Concludes, hreceived, hrun, hother]
    | error e => cases e <;> simp [Concludes, hreceived, hrun, hi, hother]

/-- An input ends a session that is under way just as it should. -/
theorem result_step_iff (srv : Server σ) {s : Session σ} (hr : s.result = none) (o : s.hub.Open)
    (hu : State.UnderWay s.hub.state) (input : Input) (r : Except SessionError Unit) :
    (s.step srv input).1.result = some r ↔ Concludes srv s input r := by
  rw [result_step hr o]
  cases input with
  | frames frames => exact result_frames hr frames r
  | close => exact result_stream hu (Or.inl rfl) r
  | hangUp => exact result_stream hu (Or.inr rfl) r
  | failReceive e =>
    have hending : some (Except.error (SessionError.io e)) = some r ↔
        Concludes srv s (.failReceive e) r := by
      cases r with
      | ok u => simp [Concludes, received]
      | error e' => cases e' <;> simp [Concludes, received]
    exact hending
  | shutdown =>
    have hending :
        ((if s.handleHeld then some (Except.ok Exit.shutdown) else none : Option Ending).map
          fun ending => ending.map fun _ => ()) = some r ↔ Concludes srv s .shutdown r := by
      cases hh : s.handleHeld <;> cases r with
      | ok u => simp [Concludes, received, hh, Except.map]
      | error e' => cases e' <;> simp [Concludes, received, Except.map]
    exact hending
  | failSend e =>
    cases r with
    | ok u => simp [Concludes, received, serve]
    | error e' => cases e' <;> simp [Concludes, received, serve]
  | dropHandle =>
    cases r with
    | ok u => simp [Concludes, received, serve]
    | error e' => cases e' <;> simp [Concludes, received, serve]
  | answer place a =>
    cases r with
    | ok u => simp [Concludes, received, serve]
    | error e' => cases e' <;> simp [Concludes, received, serve]

/-! ## After the end -/

theorem result_outside (srv : Server σ) (s : Session σ) (input : Input) :
    (s.outside srv input).1.result = s.result := by
  cases input with
  | answer place a => exact result_answerKept s place a
  | _ => rfl

theorem step_of_ended {s : Session σ} (he : s.ended = true) (input : Input) :
    (s.step srv input).1 = (s.outside srv input).1.comeToRest srv := by
  have he' : (s.outside srv input).1.ended = true := by
    rw [ended, result_outside]
    exact he
  unfold step
  dsimp only
  rw [if_pos he']

theorem result_step_of_ended {s : Session σ} (he : s.ended = true) (input : Input) :
    (s.step srv input).1.result = s.result := by
  rw [step_of_ended he, (course_comeToRest srv _).steady.2, result_outside]

/-- A result stays. -/
theorem result_run_of_ended {s : Session σ} {r : Except SessionError Unit}
    (hr : s.result = some r) (inputs : List Input) : (s.run srv inputs).result = some r := by
  induction inputs generalizing s with
  | nil => exact hr
  | cons input inputs ih =>
    have hended : s.ended = true := by simp [ended, hr]
    exact ih ((result_step_of_ended hended input).trans hr)

/-- A run that comes to its end goes on after it. -/
theorem run_of_endOf {s t : Session σ} {inputs : List Input} {ending : Ending}
    (he : s.endOf srv inputs = some (t, ending)) :
    ∃ after, s.run srv inputs = ((t.finish srv ending).comeToRest srv).run srv after := by
  induction inputs generalizing s with
  | nil => cases he
  | cons input inputs ih =>
    rw [endOf] at he
    cases hby : s.endedBy srv input with
    | none =>
      rw [hby, Option.none_or] at he
      exact ih he
    | some end' =>
      rw [hby, Option.some_or] at he
      cases he
      refine ⟨inputs, congrArg (run srv · inputs) ?_⟩
      unfold endedBy at hby
      split at hby
      · cases hby
      · rename_i hended
        have hended' : (s.outside srv input).1.ended = false := by
          rw [ended, result_outside]
          exact Bool.eq_false_iff.mpr hended
        cases hserve : (s.outside srv input).1.serve srv input with
        | mk u ending' =>
          rw [hserve] at hby
          cases ending' with
          | none => cases hby
          | some ending' =>
            cases hby
            simp [step, progress, hended', hserve]

/-- A run has the result with which one of its inputs ends it. -/
theorem result_run_iff {s : Session σ} (hr : s.result = none) (o : s.hub.Open)
    (hu : State.UnderWay s.hub.state) (inputs : List Input) (r : Except SessionError Unit) :
    (s.run srv inputs).result = some r ↔
      ∃ before input after, inputs = before ++ input :: after ∧
        (s.run srv before).result = none ∧ Concludes srv (s.run srv before) input r := by
  induction inputs generalizing s with
  | nil => simp [run, hr]
  | cons input inputs ih =>
    have hstep := result_step_iff srv hr o hu input
    cases hr' : (s.step srv input).1.result with
    | none =>
      have hcourse : Course srv s (s.received srv input) (s.step srv input).1 := by
        rcases step_cases srv hr o input with ⟨-, c⟩ | ⟨s', ending, -, -, ho⟩
        · exact c
        · have hsome := ho.result
          rw [hr'] at hsome
          cases hsome
      have hrest := ih hr' (hcourse.open o) (hcourse.underWay o hu)
      refine hrest.trans ⟨?_, ?_⟩
      · rintro ⟨before, i, after, rfl, hn, hc⟩
        exact ⟨input :: before, i, after, rfl, hn, hc⟩
      · rintro ⟨before, i, after, hi, hn, hc⟩
        cases before with
        | nil =>
          obtain ⟨rfl, -⟩ := List.cons_eq_cons.mp hi
          have hsome := (hstep r).mpr hc
          rw [hr'] at hsome
          cases hsome
        | cons input' before =>
          obtain ⟨rfl, hrest⟩ := List.cons_eq_cons.mp hi
          exact ⟨before, i, after, hrest, hn, hc⟩
    | some r' =>
      have hrun : (s.run srv (input :: inputs)).result = some r' :=
        result_run_of_ended hr' inputs
      rw [hrun]
      constructor
      · intro he
        cases he
        exact ⟨[], input, inputs, rfl, hr, (hstep r).mp hr'⟩
      · rintro ⟨before, i, after, hi, hn, hc⟩
        cases before with
        | nil =>
          obtain ⟨rfl, -⟩ := List.cons_eq_cons.mp hi
          rw [← hr']
          exact (hstep r).mpr hc
        | cons input' before =>
          obtain ⟨rfl, -⟩ := List.cons_eq_cons.mp hi
          have hsome : (s.run srv (input :: before)).result = some r' :=
            result_run_of_ended hr' before
          rw [hn] at hsome
          cases hsome

/-! ## The moment of the end -/

/-- Frames that do not end the session might have come in an input of their own. -/
theorem step_of_front {s t : Session σ} {front : List Bytes} (hr : s.result = none)
    (hr' : t.result = none) (hf : s.receive srv front = (t, none)) (back : List Bytes) :
    (s.step srv (.frames (front ++ back))).1 = (t.step srv (.frames back)).1 := by
  have hended : s.ended = false := by simp [ended, hr]
  have hended' : t.ended = false := by simp [ended, hr']
  have hserve : s.serve srv (.frames (front ++ back)) = t.serve srv (.frames back) := by
    show s.receive srv (front ++ back) = t.receive srv back
    rw [receive_append, hf]
  simp [step, outside, progress, hended, hended', hserve]

/-- The moments between the frames of an input lie on a course. -/
theorem course_front {user : σ} {before : List Input} {front : List Bytes} {t : Session σ}
    (hr : ((start user).run srv before).result = none)
    (hf : ((start user).run srv before).receive srv front = (t, none)) :
    ∃ xs, Course srv (start user) xs t := by
  have hserved : Served srv _ _ (((start user).run srv before).receive srv front) :=
    served_receive _ front
  rw [hf] at hserved
  exact ⟨_, (course_run hr).trans hserved⟩

/-- A frame that was received came at the end of a course, on which the session received
the frames before it. -/
theorem course_before_receipt {user : σ} {inputs : List Input} {xs ys : List (Receipt σ)}
    {x : Receipt σ} (h : (start user).receipts srv inputs = xs ++ x :: ys) :
    Course srv (start user) xs x.session := by
  rcases run_cases srv (s := start user) rfl (open_start user) inputs with
    ⟨-, c⟩ | ⟨_, _, -, e, -⟩
  · exact (c.split h).1
  · exact (e.split h).1

/-- A frame that was received came at the end of a course. -/
theorem course_receipt {user : σ} {inputs : List Input} {x : Receipt σ}
    (hx : x ∈ (start user).receipts srv inputs) : ∃ xs, Course srv (start user) xs x.session := by
  obtain ⟨xs, ys, h⟩ := List.append_of_mem hx
  exact ⟨xs, course_before_receipt h⟩

/-- The session at which a run comes to a frame is under way. -/
theorem result_receipt {user : σ} {inputs : List Input} {x : Receipt σ}
    (hx : x ∈ (start user).receipts srv inputs) : x.session.result = none := by
  obtain ⟨xs, c⟩ := course_receipt hx
  exact (c.onward (open_start user).queueOpen).2

/-- A frame that was received splits the run. -/
theorem run_of_receipt {user : σ} {inputs : List Input} {x : Receipt σ}
    (hx : x ∈ (start user).receipts srv inputs) :
    ∃ back after, (start user).run srv inputs =
      x.session.run srv (.frames (x.frame :: back) :: after) := by
  have hr' := result_receipt hx
  obtain ⟨before, input, after, rfl, hreceived⟩ := mem_receipts_iff.mp hx
  obtain ⟨hr, frames, rfl, hreceipt⟩ := mem_received_iff.mp hreceived
  obtain ⟨front, back, rfl, hfront⟩ := mem_receiptsOf_iff.mp hreceipt
  refine ⟨back, after, ?_⟩
  rw [run_append]
  exact congrArg (run srv · after) (step_of_front hr hr' hfront (x.frame :: back))

/-- A frame that ends the session ends it there and then, and only rest follows. -/
theorem run_of_ending {user : σ} {inputs : List Input} {x : Receipt σ} {t : Session σ}
    {ending : Ending} (hx : x ∈ (start user).receipts srv inputs)
    (he : x.session.handleFrame srv x.frame = (t, some ending)) :
    ∃ after, (start user).run srv inputs =
      ((t.finish srv ending).comeToRest srv).run srv after := by
  obtain ⟨back, after, hrun⟩ := run_of_receipt hx
  have hended : x.session.ended = false := by simp [ended, result_receipt hx]
  have hserve : x.session.serve srv (.frames (x.frame :: back)) = (t, some ending) := by
    show x.session.receive srv (x.frame :: back) = _
    rw [receive_cons, he]
  have hstep : (x.session.step srv (.frames (x.frame :: back))).1 =
      (t.finish srv ending).comeToRest srv := by
    simp [step, outside, progress, hended, hserve]
  refine ⟨after, ?_⟩
  rw [hrun, ← hstep]
  rfl

/-- After a frame that does not end the session, the run goes on from there. -/
theorem run_of_onward {user : σ} {inputs : List Input} {x : Receipt σ} {t : Session σ}
    (hx : x ∈ (start user).receipts srv inputs)
    (he : x.session.handleFrame srv x.frame = (t, none)) :
    ∃ rest, (start user).run srv inputs = t.run srv rest := by
  obtain ⟨back, after, hrun⟩ := run_of_receipt hx
  obtain ⟨xs, c⟩ := course_receipt hx
  have honward := onward_handleFrame srv (c.open (open_start user)).queueOpen x.frame
  rw [he] at honward
  have hr := result_receipt hx
  have hfront : x.session.receive srv [x.frame] = (t, none) := by
    rw [receive_singleton (by rw [he]), he]
  have hstep := step_of_front hr (honward.2.trans hr) hfront back
  refine ⟨.frames back :: after, ?_⟩
  rw [hrun]
  exact congrArg (run srv · after) hstep

end Fuse.Session
