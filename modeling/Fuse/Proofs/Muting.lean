-- Runs without interrupts. If no handler looks at interrupts, a session that receives
-- them goes on beside one that does not, and only what the kernel hears of the interrupts
-- themselves tells the two apart.
import Fuse.Proofs.Answers
import Fuse.Proofs.Decoding
import Fuse.Proofs.Inertness
import Fuse.Session.Interrupts

namespace Fuse

/-- Whether a deed is heard, if nothing is that is sent to some numbers. -/
def Deed.heard (us : List UInt64) : Deed → Bool
  | .sent f => decide (f.unique ∉ us)
  | _ => true

namespace Session

variable {σ : Type} {srv : Server σ} {us : List UInt64}

/-! ## Sessions that sound the same -/

/-- The sessions stand side by side up to interrupts, and apart from frames to some
numbers they did the same. -/
structure Muted (us : List UInt64) (s s' : Session σ) : Prop where
  beside : Beside false s.hub.acts s'.hub.acts s s'
  acts : s.hub.acts.filter (Deed.heard us) = s'.hub.acts.filter (Deed.heard us)

theorem Beside.restart {p q : List Deed} {s s' : Session σ} (b : Beside false p q s s') :
    Beside false s.hub.acts s'.hub.acts s s' :=
  ⟨⟨b.hub.state, b.hub.connection, b.hub.slots, b.hub.pending, b.hub.queueOpen, b.hub.reachable,
    b.hub.turns, [], (List.append_nil _).symm, (List.append_nil _).symm⟩, b.user, b.kept, b.tasks,
    b.handleHeld, b.result, b.waiting⟩

namespace Muted

variable {s s' s'' t t' : Session σ}

theorem refl (hw : s.tasks = []) : Muted us s s := ⟨(Beside.refl fun _ => hw).restart, rfl⟩

theorem trans (m : Muted us s s') (n : Muted us s' s'') : Muted us s s'' := by
  refine ⟨?_, m.acts.trans n.acts⟩
  have b := m.beside
  have c := n.beside
  exact ⟨⟨c.hub.state.trans b.hub.state, c.hub.connection.trans b.hub.connection,
    c.hub.slots.trans b.hub.slots, c.hub.pending.trans b.hub.pending,
    c.hub.queueOpen.trans b.hub.queueOpen, c.hub.reachable.trans b.hub.reachable,
    c.hub.turns.trans b.hub.turns, [], (List.append_nil _).symm, (List.append_nil _).symm⟩,
    c.user.trans b.user, c.kept.trans b.kept, c.tasks.trans b.tasks,
    c.handleHeld.trans b.handleHeld, c.result.trans b.result, b.waiting⟩

/-- What both do from now on does not tell them apart. -/
theorem onward (m : Muted us s s') (b : Beside false s.hub.acts s'.hub.acts t t') :
    Muted us t t' := by
  obtain ⟨later, hacts, hacts'⟩ := b.hub.acts
  refine ⟨b.restart, ?_⟩
  rw [hacts, hacts', List.filter_append, List.filter_append, m.acts]

theorem ofBeside (b : Beside false [] [] s s') : Muted us s s' := by
  obtain ⟨all, hall, hall'⟩ := b.hub.acts
  exact ⟨b.restart, by rw [hall, hall']⟩

theorem ofNote (hw : s.tasks = []) (e : Event) : Muted us s (s.note e) :=
  ofBeside ⟨.ofNote _ e, rfl, rfl, rfl, rfl, rfl, fun _ => hw⟩

/-- A frame to one of the numbers is not heard. -/
theorem ofSent (hw : s.tasks = []) {u : UInt64} (hu : u ∈ us) (e : Errno) :
    Muted us s (s.sendErrno u e) := by
  cases ho : s.hub.queueOpen with
  | false =>
    have hsame : s.sendErrno u e = s := by
      show { s with hub := s.hub.send _ } = s
      rw [Hub.send_of_closed ho]
    rw [hsame]
    exact refl hw
  | true =>
    have hsame : Hub.Beside false [] [] s.hub s.hub := .refl _
    have hsent := hsame.sent ho (.ofErrno u e)
    obtain ⟨later, hacts, hacts'⟩ := hsent.acts
    have hnil : later = [] := List.self_eq_append_right.mp hacts
    have hbeside : Beside false s.hub.acts (s.hub.acts ++ [.sent (.ofErrno u e)]) s
        (s.sendErrno u e) := ⟨hsent, rfl, rfl, rfl, rfl, rfl, fun _ => hw⟩
    refine ⟨hbeside.restart, ?_⟩
    show _ = (s.hub.send (.ofErrno u e)).acts.filter _
    rw [hacts', hnil, List.append_nil, List.filter_append]
    simp [Deed.heard, Frame.ofErrno, hu]

end Muted

/-! ## Interrupts -/

/-- A message with the opcode of interrupts is an interrupt, if it can be read. -/
theorem interrupt_of_decoded {header : Kernel.InHeader} {frame : Bytes} {minor : UInt32}
    {m : Message} (ho : header.opcode = Opcode.interrupt.code)
    (h : decodeMessage header frame minor = .ok m) : ∃ target, m = .interrupt target := by
  have hlen : header.len.toNat = frame.length := by
    apply Decidable.byContradiction
    intro hne
    unfold decodeMessage at h
    rw [if_pos hne] at h
    cases h
  have hop : Opcode.ofCode? header.opcode = some .interrupt := ho ▸ ofCode?_code _
  obtain ⟨rest, htake⟩ := (decodeMessage_eq_ok hlen hop).mp h
  simp only [Opcode.takeMessage, Take.bind_eq_ok, Take.pure_eq_ok] at htake
  obtain ⟨a, mid, -, hm⟩ := htake
  exact ⟨a.unique, congrArg Prod.fst hm⟩

/-- Of an interrupt only the kernel hears, under its own number. -/
theorem muted_interrupt (srv : Server σ) {s : Session σ} {frame : Bytes} (hw : s.tasks = [])
    (ha : asksToInterrupt frame = true)
    (hus : ∀ u, (Receipt.mk s frame).unique? = some u → u ∈ us) :
    (s.handleFrame srv frame).2 = none ∧ Muted us s (s.handleFrame srv frame).1 := by
  unfold handleFrame
  unfold asksToInterrupt at ha
  cases hd : decodeHeader frame with
  | error e =>
    rw [hd] at ha
    cases ha
  | ok header =>
    have ho : header.opcode = Opcode.interrupt.code := by simpa [hd, Except.toOption] using ha
    have hu : header.unique ∈ us := hus _ (unique?_of_header? (header?_of_decoded hd))
    dsimp only
    have hcomplaint (event : Event) (errno : Errno) :
        Muted us s ((s.note event).sendErrno header.unique errno) :=
      (Muted.ofNote hw event).trans (.ofSent (s := s.note event) hw hu errno)
    cases hm : decodeMessage header frame s.hub.minor with
    | error e =>
      have hloud : silentOpcode header.opcode = false := by
        rw [ho]
        rfl
      dsimp only
      rw [hloud]
      exact ⟨rfl, hcomplaint _ _⟩
    | ok m =>
      obtain ⟨target, rfl⟩ := interrupt_of_decoded ho hm
      show (s.handleMessage srv header (.interrupt target)).2 = none ∧ _
      unfold handleMessage
      dsimp only
      split
      · unfold Session.interrupt
        cases s.hub.pending.get? target with
        | none => exact ⟨rfl, .ofSent hw hu _⟩
        | some handle =>
          have hsame : Hub.Beside false [] [] s.hub s.hub := .refl _
          exact ⟨rfl, .ofBeside ⟨hsame.interrupted handle, rfl, rfl, rfl, rfl, rfl, fun _ => hw⟩⟩
      · exact ⟨rfl, hcomplaint _ _⟩

/-! ## Whole runs -/

theorem interrupters_append (xs ys : List (Receipt σ)) :
    interrupters (xs ++ ys) = interrupters xs ++ interrupters ys := by
  simp [interrupters]

theorem mem_interrupters {xs : List (Receipt σ)} {u : UInt64} : u ∈ interrupters xs ↔
    ∃ x ∈ xs, asksToInterrupt x.frame = true ∧ x.unique? = some u := by
  simp [interrupters, and_assoc]

namespace Muted

variable {s s' : Session σ}

/-- Frames without the interrupts among them do as much as with them. -/
theorem receive (hsrv : srv.Heedless) (m : Muted us s s') (frames : List Bytes)
    (hus : ∀ u ∈ interrupters (s'.receiptsOf srv frames), u ∈ us) :
    let kept := frames.filter fun frame => !asksToInterrupt frame
    Muted us (s.receive srv kept).1 (s'.receive srv frames).1 ∧
      (s'.receive srv frames).2 = (s.receive srv kept).2 ∧
      (s.receiptsOf srv kept).map (·.frame) =
        ((s'.receiptsOf srv frames).map (·.frame)).filter fun frame => !asksToInterrupt frame := by
  induction frames generalizing s s' with
  | nil => exact ⟨m, rfl, rfl⟩
  | cons frame frames ih =>
    have hw : s'.tasks = [] := m.beside.waiting' rfl
    have htail {t' : Session σ} {ending : Option Ending}
        (hf : s'.handleFrame srv frame = (t', ending)) (hnone : ending = none) :
        ∀ u ∈ interrupters (t'.receiptsOf srv frames), u ∈ us := by
      intro u hu
      obtain ⟨x, hx, hask, hux⟩ := mem_interrupters.mp hu
      refine hus u (mem_interrupters.mpr ⟨x, ?_, hask, hux⟩)
      rw [receiptsOf_cons, hf, hnone]
      exact List.mem_cons_of_mem _ hx
    -- an interrupt comes to the second session alone, any other frame to both
    cases ha : asksToInterrupt frame with
    | true =>
      have hnumber : ∀ u, (Receipt.mk s' frame).unique? = some u → u ∈ us := by
        intro u hu
        refine hus u (mem_interrupters.mpr ⟨⟨s', frame⟩, ?_, ha, hu⟩)
        rw [receiptsOf_cons]
        exact List.mem_cons_self
      obtain ⟨hending, hmuted⟩ := muted_interrupt srv hw ha hnumber
      cases hf : s'.handleFrame srv frame with
      | mk t' ending =>
        rw [hf] at hending hmuted
        have hrest := ih (m.trans hmuted) (htail hf hending)
        cases hending
        simpa [ha, hf, receive_cons, receiptsOf_cons] using hrest
    | false =>
      obtain ⟨hframe, hending⟩ := m.beside.handleFrame (fun _ => hsrv) frame
      cases hf : s.handleFrame srv frame with
      | mk t ending =>
        cases hf' : s'.handleFrame srv frame with
        | mk t' ending' =>
          rw [hf, hf'] at hframe hending
          cases hending
          cases ending with
          | none =>
            have hrest := ih (m.onward hframe) (htail hf' rfl)
            simpa [ha, hf, hf', receive_cons, receiptsOf_cons] using hrest
          | some ending =>
            simpa [ha, hf, hf', receive_cons, receiptsOf_cons] using m.onward hframe

/-- One input. -/
theorem step (hsrv : srv.Heedless) (m : Muted us s s') (input : Input)
    (hus : ∀ u ∈ interrupters (s'.received srv input), u ∈ us) :
    Muted us (s.step srv input.uninterrupted).1 (s'.step srv input).1 ∧
      (s.received srv input.uninterrupted).map (·.frame) =
        ((s'.received srv input).map (·.frame)).filter fun frame => !asksToInterrupt frame := by
  cases input with
  | frames frames =>
    have hended := m.beside.ended
    unfold Session.received at hus ⊢
    unfold Session.step
    dsimp only [Session.outside, Input.uninterrupted] at hus ⊢
    rw [hended] at hus ⊢
    cases he : s.ended with
    | true => exact ⟨m.onward (m.beside.comeToRest srv), rfl⟩
    | false =>
      rw [he] at hus
      obtain ⟨hmuted, hending, hframes⟩ := m.receive hsrv frames hus
      have hprogress := Beside.progress_of (.frames _) (.frames frames) hmuted.beside hending
      exact ⟨hmuted.onward (hprogress.comeToRest srv), hframes⟩
  | _ => exact ⟨m.onward (m.beside.step_of (fun _ => hsrv) _).1, rfl⟩

theorem run (hsrv : srv.Heedless) (m : Muted us s s') (inputs : List Input)
    (hus : ∀ u ∈ interrupters (s'.receipts srv inputs), u ∈ us) :
    Muted us (s.run srv (inputs.map Input.uninterrupted)) (s'.run srv inputs) ∧
      (s.receipts srv (inputs.map Input.uninterrupted)).map (·.frame) =
        ((s'.receipts srv inputs).map (·.frame)).filter fun frame => !asksToInterrupt frame := by
  induction inputs generalizing s s' with
  | nil => exact ⟨m, rfl⟩
  | cons input inputs ih =>
    unfold Session.receipts at hus
    rw [interrupters_append] at hus
    obtain ⟨hstep, hnow⟩ := m.step hsrv input fun u hu => hus u (List.mem_append_left _ hu)
    obtain ⟨hrun, hlater⟩ := ih hstep fun u hu => hus u (List.mem_append_right _ hu)
    refine ⟨hrun, ?_⟩
    rw [List.map_cons, receipts, receipts, List.map_append, List.map_append, List.filter_append,
      hnow, hlater]

/-- Where no frame went to the numbers, all that was sent can be told from what is
heard. -/
theorem undisturbed (m : Muted us s s') (hq : ∀ f ∈ s.hub.queue, f.unique ∉ us) :
    Undisturbed us s' s := by
  have hframes (acts : List Deed) : (acts.filter (Deed.heard us)).filterMap Deed.frame? =
      (acts.filterMap Deed.frame?).filter fun f => decide (f.unique ∉ us) := by
    rw [List.filterMap_filter, List.filter_filterMap]
    congr 1
    funext d
    cases d with
    | sent f => by_cases hf : f.unique ∈ us <;> simp [Deed.heard, Deed.frame?, Option.filter, hf]
    | _ => simp [Deed.heard, Deed.frame?]
  have hcalls (acts : List Deed) : (acts.filter (Deed.heard us)).filterMap Deed.call? =
      acts.filterMap Deed.call? := by
    rw [List.filterMap_filter]
    congr 1
    funext d
    cases d <;> simp [Deed.heard, Deed.call?]
  have hall : s.hub.queue.filter (fun f => decide (f.unique ∉ us)) = s.hub.queue :=
    List.filter_eq_self.mpr fun f hf => decide_eq_true (hq f hf)
  have b := m.beside
  refine ⟨?_, ?_, fun r => (b.hub.progress r).symm, b.hub.state.symm, b.hub.connection.symm,
    b.kept.symm, b.user.symm, b.result.symm⟩
  · rw [← hall, queue_of_acts, queue_of_acts, ← hframes, ← hframes, m.acts]
  · rw [calls_of_acts, calls_of_acts, ← hcalls, m.acts, hcalls]

end Muted

/-- Where numbers are not used twice, no other frame has the number of an interrupt. -/
theorem not_mem_interrupters {xs : List (Receipt σ)} {x : Receipt σ} {u : UInt64}
    (hn : (xs.filterMap Receipt.unique?).Nodup) (hx : x ∈ xs)
    (ha : asksToInterrupt x.frame = false) (hu : x.unique? = some u) : u ∉ interrupters xs := by
  have hperm := (List.filter_append_perm (fun x => asksToInterrupt x.frame) xs).filterMap
    Receipt.unique?
  rw [List.filterMap_append] at hperm
  have hapart := (List.nodup_append.mp (hperm.nodup_iff.mpr hn)).2.2
  intro hmem
  exact hapart u hmem u (List.mem_filterMap.mpr ⟨x, by simp [hx, ha], hu⟩) rfl

/-- A run without its interrupts goes as the run with them, if no handler looks at
interrupts. -/
theorem undisturbed_run (hsrv : srv.Heedless) (user : σ) (inputs : List Input)
    (hn : (((start user).receipts srv inputs).filterMap Receipt.unique?).Nodup) :
    Undisturbed (interrupters ((start user).receipts srv inputs)) ((start user).run srv inputs)
      ((start user).run srv (inputs.map Input.uninterrupted)) := by
  obtain ⟨hmuted, hframes⟩ := (Muted.refl (s := start user) rfl).run hsrv inputs fun _ hu => hu
  refine hmuted.undisturbed ?_
  -- a frame of the shorter run answers one that came in both and is no interrupt
  intro f hf
  obtain ⟨y, hy, hu, -⟩ := frames_are_admitted srv user _ f hf
  have hkept : y.frame ∈ ((start user).receipts srv (inputs.map Input.uninterrupted)).map
      (·.frame) := List.mem_map_of_mem hy
  rw [hframes, List.mem_filter] at hkept
  obtain ⟨hmem, ha⟩ := hkept
  obtain ⟨x, hx, hxy⟩ := List.mem_map.mp hmem
  have hxu : x.unique? = some f.unique := by
    unfold Receipt.unique? Receipt.header? at hu ⊢
    rw [hxy, hu]
  refine not_mem_interrupters hn hx ?_ hxu
  rw [hxy]
  simpa using ha

end Session

end Fuse
