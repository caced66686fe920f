-- How frames reach the kernel. Only the writer touches the channel, it carries the frames
-- of the queue over in their order, and when a session is at rest it has left none behind.
-- So what arrived is told by what was queued and by when the channel broke.
import Fuse.Proofs.Moments
import Fuse.Proofs.Replies

namespace Fuse

/-- Carry several frames over, one after the other. -/
def Link.carryAll (l : Link) (fs : List Frame) : Link := fs.foldl (fun l f => (l.carry f).1) l

theorem Link.carryAll_append (l : Link) (fs gs : List Frame) :
    l.carryAll (fs ++ gs) = (l.carryAll fs).carryAll gs := List.foldl_append

namespace Session

variable {σ : Type} {srv : Server σ} {s t u : Session σ}

/-! ## What leaves the channel alone -/

/-- Nothing was carried from one moment to the other. -/
structure Moored (s t : Session σ) : Prop where
  link : t.link = s.link
  carried : t.carried = s.carried

namespace Moored

theorem refl (s : Session σ) : Moored s s := ⟨rfl, rfl⟩

theorem trans (m : Moored s t) (n : Moored t u) : Moored s u :=
  ⟨n.link.trans m.link, n.carried.trans m.carried⟩

theorem note (m : Moored s t) (e : Event) : Moored s (t.note e) := ⟨m.link, m.carried⟩

theorem sendErrno (m : Moored s t) (unique : UInt64) (e : Errno) :
    Moored s (t.sendErrno unique e) := ⟨m.link, m.carried⟩

theorem notes (m : Moored s t) (es : List Event) : Moored s (es.foldl Session.note t) := by
  induction es generalizing t with
  | nil => exact m
  | cons e es ih => exact ih (m.note e)

end Moored

theorem moored_answerKept (srv : Server σ) (s : Session σ) (place : Nat) (a : Answer) :
    Moored s (s.answerKept srv place a).1 := by
  rcases answerKept_cases srv s place a with h | ⟨r, -, h⟩
  · rw [h]
    exact .refl s
  · rw [h]
    exact ⟨rfl, rfl⟩

theorem moored_answerAllKept (srv : Server σ) (s : Session σ) (answers : List (Nat × Answer)) :
    Moored s (s.answerAllKept srv answers).1 := by
  induction answers generalizing s with
  | nil => exact .refl s
  | cons p rest ih => exact (moored_answerKept srv s p.1 p.2).trans (ih _)

theorem moored_runTask (srv : Server σ) (s : Session σ) (handle : Nat) :
    Moored s (s.runTask srv handle) := by
  rcases runTask_cases srv s handle with h | ⟨t, -, h⟩
  · rw [h]
    exact .refl s
  · rw [h]
    exact ⟨rfl, rfl⟩

theorem moored_use (srv : Server σ) (s : Session σ) (r : Request) (use : Use) :
    Moored s (s.use srv r use).1 := by
  cases use <;> exact ⟨rfl, rfl⟩

theorem moored_dispatch (srv : Server σ) (s : Session σ) (header : Kernel.InHeader)
    (op : Operation) : Moored s (s.dispatch srv header op) := by
  unfold dispatch
  dsimp only
  split
  · rename_i handler _
    let e := s.hub.enrol header op
    let outcome := (handler s.user e.2 op).2
    have hcalled : Moored s ({ s with hub := e.1, user := (handler s.user e.2 op).1 }.record
        (.called e.2 op)) := ⟨rfl, rfl⟩
    have hused := (hcalled.notes outcome.notes).trans (moored_use srv _ e.2 outcome.use)
    split
    · exact hused.note _
    · exact hused
  · exact ⟨rfl, rfl⟩

theorem moored_dispatchForgets (srv : Server σ) (s : Session σ) (header : Kernel.InHeader)
    (items : List Kernel.ForgetOne) : Moored s (s.dispatchForgets srv header items) := by
  induction items generalizing s with
  | nil => exact .refl s
  | cons i items ih => exact (moored_dispatch srv s header _).trans (ih _)

theorem moored_greet (srv : Server σ) (s : Session σ) (config : Config) :
    Moored s (s.greet srv config).1 := by
  unfold greet
  split
  · exact .refl s
  · dsimp only
    split <;> exact ⟨rfl, rfl⟩

theorem moored_handshake (srv : Server σ) (s : Session σ) (unique : UInt64)
    (init : Kernel.InitIn) : Moored s (s.handshake srv unique init).1 := by
  unfold handshake
  dsimp only
  split
  · exact ⟨rfl, rfl⟩
  · split
    · exact ⟨rfl, rfl⟩
    · have hinit : Moored s (s.enter .initializing) := ⟨rfl, rfl⟩
      have hgreet := hinit.trans (moored_greet srv (s.enter .initializing)
        (.ofInit init (min init.minor protocolMinor)))
      generalize (s.enter .initializing).greet srv _ = g at hgreet
      obtain ⟨t, config⟩ := g
      cases config with
      | error e => exact (hgreet.note _).sendErrno _ _
      | ok config =>
        dsimp only
        split
        · exact (hgreet.note _).sendErrno _ _
        · exact ⟨hgreet.link, hgreet.carried⟩

theorem moored_handleFrame (srv : Server σ) (s : Session σ) (frame : Bytes) :
    Moored s (s.handleFrame srv frame).1 := by
  have hmessage (header : Kernel.InHeader) (m : Message) :
      Moored s (s.handleMessage srv header m).1 := by
    unfold handleMessage handleMessage.tooEarly
    dsimp only
    cases m with
    | init proposal =>
      dsimp only
      split
      · exact moored_handshake srv s header.unique proposal
      · exact ⟨rfl, rfl⟩
    | forget items =>
      dsimp only
      split
      · exact moored_dispatchForgets srv s header items
      · exact ⟨rfl, rfl⟩
    | destroy =>
      dsimp only
      split <;> exact ⟨rfl, rfl⟩
    | interrupt target =>
      unfold interrupt
      dsimp only
      split
      · cases s.hub.pending.get? target <;> exact ⟨rfl, rfl⟩
      · exact ⟨rfl, rfl⟩
    | operation op =>
      dsimp only
      split
      · exact moored_dispatch srv s header op
      · exact ⟨rfl, rfl⟩
    | unsupported opcode =>
      dsimp only
      split <;> exact ⟨rfl, rfl⟩
  unfold handleFrame
  split
  · exact ⟨rfl, rfl⟩
  · split
    · dsimp only
      split <;> exact ⟨rfl, rfl⟩
    · exact hmessage _ _

theorem moored_serve (srv : Server σ) (s : Session σ) (input : Input) :
    Moored s (s.serve srv input).1 := by
  cases input with
  | frames frames =>
    show Moored s (s.receive srv frames).1
    induction frames generalizing s with
    | nil => exact .refl s
    | cons frame frames ih =>
      have hframe := moored_handleFrame srv s frame
      unfold receive
      generalize s.handleFrame srv frame = g at hframe
      obtain ⟨t, ending⟩ := g
      cases ending with
      | none => exact hframe.trans (ih t)
      | some ending => exact hframe
  | _ => exact .refl s

theorem moored_windDown (srv : Server σ) (s : Session σ) (ending : Ending) :
    Moored s (s.windDown srv ending) := by
  have hfarewell : Moored s ((s.enter .destroying).farewell srv) := by
    unfold farewell
    split
    · rename_i handler _ _
      have hanswers := moored_answerAllKept srv ((s.enter .destroying).record .dismissed)
        (handler (s.enter .destroying).user (s.enter .destroying).hub.state).answers
      dsimp only
      split <;> exact ⟨hanswers.link, hanswers.carried⟩
    · exact ⟨rfl, rfl⟩
  exact ⟨hfarewell.link, hfarewell.carried⟩

/-! ## What the writer does -/

/-- The frames of the queue that have left, whether they arrived or were lost. -/
def gone (s : Session σ) : List Frame := s.hub.queue.take s.carried

/-- No more frames have left than there are. -/
def Bounded (s : Session σ) : Prop := s.carried ≤ s.hub.queue.length

/-- All frames that left in between were carried over, one after the other. -/
structure Carrying (s t : Session σ) : Prop where
  bounded : t.Bounded
  frames : ∃ fs, t.gone = s.gone ++ fs ∧ t.link = s.link.carryAll fs

theorem Carrying.trans (c : Carrying s t) (d : Carrying t u) : Carrying s u := by
  obtain ⟨fs, hfs, hlink⟩ := c.frames
  obtain ⟨gs, hgs, hlink'⟩ := d.frames
  refine ⟨d.bounded, fs ++ gs, ?_, ?_⟩
  · rw [hgs, hfs, List.append_assoc]
  · rw [hlink', hlink, Link.carryAll_append]

/-- More frames in the queue do not make more of them leave. -/
theorem Moored.carrying (m : Moored s t) (hb : s.Bounded) (hq : s.hub.queue <+: t.hub.queue) :
    Carrying s t := by
  have hgone : t.gone = s.gone := by
    obtain ⟨more, hmore⟩ := hq
    unfold gone
    rw [m.carried, ← hmore, List.take_append_of_le_length hb]
  refine ⟨?_, [], ?_, m.link⟩
  · unfold Bounded
    rw [m.carried]
    exact Nat.le_trans hb hq.length_le
  · rw [hgone, List.append_nil]

/-- The writer leaves nothing behind. -/
def AtRest (s : Session σ) : Prop := s.carried = s.hub.queue.length

theorem AtRest.gone (h : s.AtRest) : s.gone = s.hub.queue := by
  unfold Session.gone
  rw [h, List.take_length]

theorem AtRest.bounded (h : s.AtRest) : s.Bounded := Nat.le_of_eq h

theorem carrying_flush (hb : s.Bounded) : Carrying s s.flush ∧ s.flush.AtRest := by
  have hcarry (t : Session σ) (f : Frame) : (t.carry f).link = (t.link.carry f).1 ∧
      (t.carry f).carried = t.carried + 1 := by
    unfold carry
    dsimp only
    split <;> rename_i h <;> rw [h] <;> exact ⟨rfl, rfl⟩
  have hfold : ∀ (fs : List Frame) (t : Session σ),
      (fs.foldl carry t).link = t.link.carryAll fs ∧
        (fs.foldl carry t).carried = t.carried + fs.length := by
    intro fs
    induction fs with
    | nil => exact fun t => ⟨rfl, rfl⟩
    | cons f fs ih =>
      intro t
      obtain ⟨hlink, hcarried⟩ := hcarry t f
      obtain ⟨hlinks, hall⟩ := ih (t.carry f)
      refine ⟨?_, ?_⟩
      · rw [List.foldl_cons, hlinks, hlink]
        rfl
      · rw [List.foldl_cons, hall, hcarried, List.length_cons]
        omega
  obtain ⟨hlink, hcarried⟩ := hfold (s.hub.queue.drop s.carried) s
  have hqueue : s.flush.hub.queue = s.hub.queue := (alike_flush s).hub.queue
  have hrest : s.flush.AtRest := by
    unfold Bounded at hb
    unfold AtRest
    rw [hqueue]
    unfold flush
    rw [hcarried, List.length_drop]
    omega
  refine ⟨⟨hrest.bounded, s.hub.queue.drop s.carried, ?_, hlink⟩, hrest⟩
  rw [hrest.gone, hqueue]
  exact (List.take_append_drop _ _).symm

theorem carrying_comeToRest (srv : Server σ) (hb : s.Bounded) :
    Carrying s (s.comeToRest srv) ∧ (s.comeToRest srv).AtRest := by
  have hturn (t : Session σ) (r : Runner) (hb : t.Bounded) : Carrying t (t.takeTurn srv r) := by
    cases r with
    | writer => exact (carrying_flush hb).1
    | task handle =>
      exact (moored_runTask srv t handle).carrying hb (steady_runTask srv t handle).queue
  have hfold : ∀ (rs : List Runner) (t : Session σ), t.Bounded →
      Carrying t (rs.foldl (takeTurn srv) t) := by
    intro rs
    induction rs with
    | nil => exact fun t hb => (Moored.refl t).carrying hb (List.prefix_refl _)
    | cons r rs ih =>
      intro t hb
      have hone := hturn t r hb
      exact hone.trans (ih _ hone.bounded)
  have hcleared : Carrying s s.clearTurns :=
    Moored.carrying ⟨rfl, rfl⟩ hb (List.prefix_refl _)
  have hturns := hcleared.trans (hfold s.hub.turns s.clearTurns hcleared.bounded)
  obtain ⟨hflush, hrest⟩ := carrying_flush hturns.bounded
  have hlast : Carrying (s.hub.turns.foldl (takeTurn srv) s.clearTurns).flush
      (s.comeToRest srv) := Moored.carrying ⟨rfl, rfl⟩ hrest.bounded (List.prefix_refl _)
  exact ⟨(hturns.trans hflush).trans hlast, hrest⟩

/-! ## Steps -/

/-- What happens outside may break the channel, and leaves what was carried. -/
theorem carried_outside (srv : Server σ) (s : Session σ) (input : Input) :
    (s.outside srv input).1.carried = s.carried ∧
      s.hub.queue <+: (s.outside srv input).1.hub.queue := by
  cases input with
  | answer place a =>
    exact ⟨(moored_answerKept srv s place a).carried, (steady_answerKept srv s place a).queue⟩
  | _ => exact ⟨rfl, List.prefix_refl _⟩

/-- A step carries everything over that was queued in it. -/
theorem carrying_step (srv : Server σ) (hs : s.Sound) (hb : s.Bounded) (input : Input) :
    Carrying (s.outside srv input).1 (s.step srv input).1 ∧ (s.step srv input).1.AtRest := by
  have hb' : (s.outside srv input).1.Bounded := by
    obtain ⟨hcarried, hqueue⟩ := carried_outside srv s input
    unfold Bounded
    rw [hcarried]
    exact Nat.le_trans hb hqueue.length_le
  rcases hs with ⟨hr, o⟩ | ho
  · have hout := course_outside srv hr o input
    have hr' := hout.steady.2.trans hr
    have o' := hout.open o
    have hserve := moored_serve srv (s.outside srv input).1 input
    have hserved := served_serve srv _ hr' input
    unfold step progress
    dsimp only
    rw [ended, hr']
    simp only [Option.isSome_none, Bool.false_eq_true, if_false]
    generalize (s.outside srv input).1.serve srv input = g at hserve hserved
    obtain ⟨t, ending⟩ := g
    cases ending with
    | none =>
      have c : Course srv (s.outside srv input).1 _ t := hserved
      have hfront := hserve.carrying hb' (c.onward o'.queueOpen).1.queue
      obtain ⟨hback, hrest⟩ := carrying_comeToRest srv hfront.bounded
      exact ⟨hfront.trans hback, hrest⟩
    | some ending =>
      have e : Ends srv (s.outside srv input).1 _ t ending := hserved
      have hfront := hserve.carrying hb' (e.onward o'.queueOpen).1.queue
      have hdown := (moored_windDown srv t ending).carrying hfront.bounded
        (later_windDown srv t ending).queue
      have hwound := (carrying_comeToRest srv hdown.bounded).1
      have henter : Carrying ((t.windDown srv ending).comeToRest srv) (t.finish srv ending) := by
        refine Moored.carrying ⟨rfl, rfl⟩ hwound.bounded ?_
        exact (Hub.alike_enter _ .terminated).steady.queue
      obtain ⟨hback, hrest⟩ := carrying_comeToRest srv henter.bounded
      exact ⟨(((hfront.trans hdown).trans hwound).trans henter).trans hback, hrest⟩
  · rw [step_of_ended ho.result]
    exact carrying_comeToRest srv hb'

theorem atRest_run (srv : Server σ) (user : σ) (inputs : List Input) :
    ((start user).run srv inputs).AtRest := by
  have hfold : ∀ (inputs : List Input) (s : Session σ), s.Sound → s.AtRest →
      (s.run srv inputs).AtRest := by
    intro inputs
    induction inputs with
    | nil => exact fun s _ hrest => hrest
    | cons input inputs ih =>
      intro s hs hrest
      exact ih _ (sound_run srv hs [input]).1 (carrying_step srv hs hrest.bounded input).2
  exact hfold inputs (start user) (Or.inl ⟨rfl, open_start user⟩) rfl

/-- Two sessions whose channels are in one state, and who queue the same in a step, leave
their channels in one state. -/
theorem link_step (srv srv' : Server σ) {s' : Session σ} (hs : s.Sound) (hs' : s'.Sound)
    (hrest : s.AtRest) (hrest' : s'.AtRest) (hlink : s'.link = s.link)
    (hqueue : s'.hub.queue = s.hub.queue) (input : Input)
    (hstep : (s'.step srv' input).1.hub.queue = (s.step srv input).1.hub.queue) :
    (s'.step srv' input).1.link = (s.step srv input).1.link := by
  have hout : (s'.outside srv' input).1.link = (s.outside srv input).1.link := by
    cases input with
    | answer place a =>
      exact (moored_answerKept srv' s' place a).link.trans
        (hlink.trans (moored_answerKept srv s place a).link.symm)
    | hangUp => exact congrArg (fun l : Link => { l with hungUp := true }) hlink
    | failSend e => exact congrArg (fun l : Link => { l with failNext := some e }) hlink
    | _ => exact hlink
  have hgone {srv : Server σ} {s : Session σ} (hrest : s.AtRest) :
      (s.outside srv input).1.gone = s.hub.queue := by
    obtain ⟨hcarried, more, hmore⟩ := carried_outside srv s input
    unfold gone
    rw [hcarried, ← hmore, List.take_append_of_le_length hrest.bounded]
    exact hrest.gone
  obtain ⟨⟨-, fs, hfs, hcarry⟩, hdone⟩ := carrying_step srv hs hrest.bounded input
  obtain ⟨⟨-, fs', hfs', hcarry'⟩, hdone'⟩ := carrying_step srv' hs' hrest'.bounded input
  rw [hdone.gone, hgone hrest] at hfs
  rw [hdone'.gone, hgone hrest', hstep, hfs, hqueue] at hfs'
  obtain rfl : fs = fs' := List.append_cancel_left hfs'
  rw [hcarry, hcarry', hout]

end Session

end Fuse
