-- Proposals that are too new. However many of them come before a proposal that the
-- session takes up, the kernel is told our version for each, and the session goes on as
-- if they had not come.
import Fuse.Proofs.Inertness
import Fuse.Session.Opening

namespace Fuse.Session

variable {σ : Type} {srv : Server σ}

/-! ## One proposal -/

/-- The session waits for a proposal. -/
structure Waiting (s : Session σ) : Prop where
  result : s.result = none
  queueOpen : s.hub.queueOpen = true
  state : s.hub.state = .created
  connection : s.hub.connection = none

theorem Waiting.beside {p q : List Deed} {s s' : Session σ} (w : Waiting s)
    (b : Beside true p q s s') : Waiting s' :=
  ⟨b.result.trans w.result, b.hub.queueOpen.trans w.queueOpen, b.hub.state.trans w.state,
    b.hub.connection.trans w.connection⟩

theorem waiting_of_created {user : σ} {xs : List (Receipt σ)} {s : Session σ}
    (c : Course srv (start user) xs s) (hs : s.hub.state = .created) : Waiting s := by
  have o := c.open (open_start user)
  refine ⟨(c.onward (open_start user).queueOpen).2, o.queueOpen, hs, ?_⟩
  cases hc : s.hub.connection with
  | none => rfl
  | some connection =>
    have hrun : s.hub.state = .running := o.running.mpr (by simp [hc])
    rw [hs] at hrun
    cases hrun

theorem read_of_overture? {frame : Bytes} {unique : UInt64} (h : overture? frame = some unique) :
    ∃ header init, decodeHeader frame = .ok header ∧
      decodeMessage header frame protocolMinor = .ok (.init init) ∧
      protocolMajor < init.major ∧ header.unique = unique := by
  unfold overture? at h
  split at h
  · cases h
  · rename_i header hd
    split at h
    · rename_i init hm
      split at h
      · rename_i hv
        exact ⟨header, init, hd, hm, hv, Option.some.inj h⟩
      · cases h
    · cases h

/-- A proposal that is too new is told our version. -/
theorem handshake_of_tooNew (srv : Server σ) (s : Session σ) (unique : UInt64)
    {init : Kernel.InitIn} (hv : protocolMajor < init.major) :
    s.handshake srv unique init =
      (Session.enter { s with
        hub := (s.enter .initializing).hub.send (.versionOnly unique) } .created, none) := by
  have hold : ¬init.major < protocolMajor := UInt32.not_lt.mpr (UInt32.le_of_lt hv)
  unfold handshake
  dsimp only
  rw [if_neg hold, if_pos hv]
  rfl

theorem beside_overture (srv : Server σ) {s : Session σ} (w : Waiting s) {frame : Bytes}
    {unique : UInt64} (hu : overture? frame = some unique) :
    (s.handleFrame srv frame).2 = none ∧
      Beside true s.hub.acts (s.hub.acts ++ retrial unique) s (s.handleFrame srv frame).1 := by
  obtain ⟨header, init, hd, hm, hv, rfl⟩ := read_of_overture? hu
  have hminor : s.hub.minor = protocolMinor := by
    unfold Hub.minor
    rw [w.connection]
    rfl
  have hframe : s.handleFrame srv frame =
      (Session.enter { s with
        hub := (s.enter .initializing).hub.send (.versionOnly header.unique) } .created, none) := by
    unfold handleFrame
    rw [hd, hminor]
    dsimp only
    rw [hm]
    unfold handleMessage
    dsimp only
    rw [if_pos w.state, handshake_of_tooNew srv s header.unique hv]
    rfl
  rw [hframe]
  refine ⟨rfl, ?_⟩
  let opening := s.hub.enter .initializing
  have hinit : opening.acts = s.hub.acts ++ [.entered .initializing] := Hub.acts_record _ _
  have hsame : Hub.Beside true [] [] opening opening := .refl opening
  have hsent := hsame.sent w.queueOpen (.versionOnly header.unique)
  have hacts : ((opening.send (.versionOnly header.unique)).enter .created).acts =
      s.hub.acts ++ retrial header.unique := by
    have hlast : ((opening.send (.versionOnly header.unique)).enter .created).acts =
        (opening.send (.versionOnly header.unique)).acts ++ [.entered .created] :=
      Hub.acts_record _ _
    rw [hlast, hsent.acts_eq, hinit]
    simp [retrial]
  -- The way led back to where the session waited: only the journal and the queue grew.
  exact ⟨⟨w.state.symm, hsent.connection, hsent.slots, hsent.pending, hsent.queueOpen,
    hsent.reachable, hsent.turns, [], (List.append_nil _).symm,
    hacts.trans (List.append_nil _).symm⟩, rfl, rfl, rfl, rfl, rfl, nofun⟩

/-! ## Any number of them -/

theorem flatMap_retrial_cons {frame : Bytes} {frames : List Bytes} {unique : UInt64}
    (hu : overture? frame = some unique) :
    ((frame :: frames).filterMap overture?).flatMap retrial =
      retrial unique ++ (frames.filterMap overture?).flatMap retrial := by
  rw [List.filterMap_cons_some hu, List.flatMap_cons]

theorem beside_overtures (srv : Server σ) {s : Session σ} (w : Waiting s) {frames : List Bytes}
    (h : ∀ frame ∈ frames, (overture? frame).isSome = true) :
    ∃ t, s.receive srv frames = (t, none) ∧
      Beside true s.hub.acts (s.hub.acts ++ (frames.filterMap overture?).flatMap retrial) s t := by
  induction frames generalizing s with
  | nil =>
    rw [List.filterMap_nil, List.flatMap_nil, List.append_nil]
    exact ⟨s, rfl, (Hub.Beside.refl s.hub).since, rfl, rfl, rfl, rfl, rfl, nofun⟩
  | cons frame frames ih =>
    obtain ⟨unique, hu⟩ := Option.isSome_iff_exists.mp (h frame List.mem_cons_self)
    obtain ⟨hending, hone⟩ := beside_overture srv w hu
    obtain ⟨t, ht, hrest⟩ := ih (w.beside hone) fun f hf => h f (List.mem_cons_of_mem _ hf)
    refine ⟨t, ?_, ?_⟩
    · have hfront := receive_append srv s [frame] frames
      rw [receive_singleton hending] at hfront
      exact hfront.trans ht
    · rw [hone.hub.acts_eq, List.append_assoc, ← flatMap_retrial_cons hu] at hrest
      exact hone.trans hrest

/-- The same in inputs of their own. -/
theorem beside_overtureInputs (srv : Server σ) {s : Session σ} (w : Waiting s)
    (ht : s.hub.turns = []) {inputs : List (List Bytes)}
    (h : ∀ frame ∈ inputs.flatten, (overture? frame).isSome = true) :
    Beside true s.hub.acts
      (s.hub.acts ++ (inputs.flatten.filterMap overture?).flatMap retrial) s
      (s.run srv (inputs.map .frames)) := by
  induction inputs generalizing s with
  | nil =>
    rw [List.flatten_nil, List.filterMap_nil, List.flatMap_nil, List.append_nil]
    exact ⟨(Hub.Beside.refl s.hub).since, rfl, rfl, rfl, rfl, rfl, nofun⟩
  | cons frames inputs ih =>
    rw [List.flatten_cons] at h
    obtain ⟨t, hfront, hb⟩ := beside_overtures srv w fun f hf => h f (List.mem_append_left _ hf)
    have hstep := beside_front w.result hfront hb []
    rw [List.append_nil] at hstep
    -- The first session gets an input without frames instead, which does nothing.
    have hone := hstep.left (beside_idle srv w.result ht).symm
    have hrest := ih (w.beside hone) rfl fun f hf => h f (List.mem_append_right _ hf)
    have hall : ((frames :: inputs).flatten.filterMap overture?).flatMap retrial =
        (frames.filterMap overture?).flatMap retrial ++
          (inputs.flatten.filterMap overture?).flatMap retrial := by
      rw [List.flatten_cons, List.filterMap_append, List.flatMap_append]
    rw [hone.hub.acts_eq, List.append_assoc, ← hall] at hrest
    exact hone.trans hrest

/-! ## What differs then -/

theorem filterMap_retrial {α : Type} (view : Deed → Option α) (uniques : List UInt64) :
    (uniques.flatMap retrial).filterMap view =
      uniques.flatMap fun unique => (retrial unique).filterMap view := by
  induction uniques with
  | nil => rfl
  | cons unique uniques ih =>
    rw [List.flatMap_cons, List.filterMap_append, ih, List.flatMap_cons]

/-- Sessions that stand beside each other since the proposals differ in the answers to
them and in nothing else. -/
theorem retried_of_beside {uniques : List UInt64} {before s s' : Session σ}
    (b : Beside true before.hub.acts (before.hub.acts ++ uniques.flatMap retrial) s s') :
    Retried uniques before s s' := by
  obtain ⟨later, hp, hq⟩ := b.hub.acts
  have hsplit {α : Type} {view : Deed → Option α} (hv : ∀ e, view (.noted e) = none) :
      s.hub.journal.filterMap view =
          before.hub.journal.filterMap view ++ later.filterMap view ∧
        s'.hub.journal.filterMap view = before.hub.journal.filterMap view ++
          uniques.flatMap (fun unique => (retrial unique).filterMap view) ++
            later.filterMap view := by
    rw [filterMap_acts s.hub hv, filterMap_acts s'.hub hv, filterMap_acts before.hub hv, hp, hq]
    simp only [List.filterMap_append, filterMap_retrial, and_self]
  have hsame {α : Type} {view : Deed → Option α} (hv : ∀ e, view (.noted e) = none)
      (hr : ∀ unique, (retrial unique).filterMap view = []) :
      s'.hub.journal.filterMap view = s.hub.journal.filterMap view := by
    obtain ⟨hs, hs'⟩ := hsplit hv
    rw [hs, hs']
    simp [hr]
  refine ⟨⟨later, hp, hq⟩, ⟨later.filterMap Deed.frame?, ?_⟩, ⟨later.filterMap Deed.state?, ?_⟩,
    hsame (fun _ => rfl) fun _ => rfl, hsame (fun _ => rfl) fun _ => rfl, b.hub.state,
    b.hub.connection, b.hub.pending, b.hub.slots_eq, b.kept, b.tasks, b.user, b.result⟩
  · have hmap : uniques.map Frame.versionOnly =
        uniques.flatMap fun unique => (retrial unique).filterMap Deed.frame? :=
      List.map_eq_flatMap
    rw [hmap]
    exact hsplit fun _ => rfl
  · have hview (e : Event) : Deed.state? (.noted e) = none := rfl
    obtain ⟨hs, hs'⟩ := hsplit hview
    exact ⟨congrArg (State.created :: ·) hs, congrArg (State.created :: ·) hs'⟩

/-- Proposals that are too new, in inputs of their own, while the session waits for a
proposal. -/
theorem retried_apart (srv : Server σ) (user : σ) {before : List Input} (after : List Input)
    (hs : ((start user).run srv before).hub.state = .created) {inputs : List (List Bytes)}
    (h : ∀ frame ∈ inputs.flatten, (overture? frame).isSome = true)
    (hr : ((start user).run srv before).result = none) :
    Retried (inputs.flatten.filterMap overture?) ((start user).run srv before)
      ((start user).run srv (before ++ after))
      ((start user).run srv (before ++ inputs.map .frames ++ after)) := by
  have hb := beside_overtureInputs srv (waiting_of_created (course_run hr) hs)
    (turns_run srv user before) h
  rw [run_append, run_append, run_append]
  exact retried_of_beside (hb.run srv after)

/-- The same among the frames of an input. -/
theorem retried_among (srv : Server σ) (user : σ) {before : List Input} (after : List Input)
    {front news : List Bytes} (back : List Bytes) {t : Session σ}
    (hr : ((start user).run srv before).result = none)
    (hf : ((start user).run srv before).receive srv front = (t, none))
    (hs : t.hub.state = .created) (h : ∀ frame ∈ news, (overture? frame).isSome = true) :
    Retried (news.filterMap overture?) t
      ((start user).run srv (before ++ .frames (front ++ back) :: after))
      ((start user).run srv (before ++ .frames (front ++ (news ++ back)) :: after)) := by
  obtain ⟨xs, c⟩ := course_front hr hf
  have w := waiting_of_created c hs
  obtain ⟨t', hnews, hb⟩ := beside_overtures srv w h
  have hstep := beside_front w.result hnews hb back
  rw [run_append, run_append, run_cons, run_cons, step_of_front hr w.result hf,
    step_of_front hr w.result hf]
  exact retried_of_beside (hstep.run srv after)

end Fuse.Session
