-- What the small steps of the hub change, and what they leave alone. A line in
-- the log or a turn given to someone changes nothing for any request, so most laws
-- speak of hubs that are alike up to these. Whatever the order in which pending requests
-- come out, just those come out.
import Fuse.Session.Hub

namespace Fuse

/-- Whether a deed is one that requests take part in, or the end. -/
def Deed.counts : Deed → Bool
  | .called .. | .dismissed | .sent _ => true
  | .entered _ | .greeted _ | .noted _ => false

/-! ## The order at the end -/

namespace Drain

variable (drain : Drain) (pending : KeyedList UInt64 Nat)

@[simp] theorem order_nil : drain.order [] = [] := (drain.perm []).eq_nil

@[simp] theorem mem_order {p : UInt64 × Nat} : p ∈ drain.order pending ↔ p ∈ pending :=
  (drain.perm pending).mem_iff

@[simp] theorem countP_order (P : UInt64 × Nat → Bool) :
    (drain.order pending).countP P = pending.countP P := (drain.perm pending).countP_eq P

theorem handles_order : ((drain.order pending).map (·.2)).Perm (pending.map (·.2)) :=
  (drain.perm pending).map _

end Drain

namespace Hub

/-! ## Records -/

/-- What was done for requests and at the end. -/
def deeds (h : Hub) : List Deed := h.journal.filter Deed.counts

theorem queue_eq (h : Hub) : h.queue = h.deeds.filterMap Deed.frame? := by
  unfold queue deeds
  rw [List.filterMap_filter]
  congr 1
  funext d
  cases d <;> rfl

theorem calls_eq (h : Hub) : h.calls = h.deeds.filterMap Deed.call? := by
  unfold calls deeds
  rw [List.filterMap_filter]
  congr 1
  funext d
  cases d <;> rfl

@[simp] theorem deeds_record (h : Hub) (d : Deed) :
    (h.record d).deeds = h.deeds ++ if d.counts then [d] else [] := by
  cases hd : d.counts <;> simp [deeds, record, hd]

theorem queue_record (h : Hub) (d : Deed) : (h.record d).queue = h.queue ++ d.frame?.toList := by
  cases hd : d.frame? <;> simp [queue, record, hd]

theorem calls_record (h : Hub) (d : Deed) : (h.record d).calls = h.calls ++ d.call?.toList := by
  cases hd : d.call? <;> simp [calls, record, hd]

/-! ## Slots -/

theorem updateSlot_self {h : Hub} {i : Nat} {s : Slot} (hs : h.slots[i]? = some s)
    (f : Slot → Slot) : (h.updateSlot i f).slots[i]? = some (f s) := by
  simp [updateSlot, hs]

theorem updateSlot_of_ne (h : Hub) {i j : Nat} (hij : j ≠ i) (f : Slot → Slot) :
    (h.updateSlot i f).slots[j]? = h.slots[j]? := by
  simp [updateSlot, Ne.symm hij]

/-! ## Hubs that are alike -/

/-- The two differ at most in deeds that no request takes part in, and in whose
turn it is. -/
structure Alike (h h' : Hub) : Prop where
  state : h'.state = h.state
  connection : h'.connection = h.connection
  slots : h'.slots = h.slots
  pending : h'.pending = h.pending
  deeds : h'.deeds = h.deeds
  queueOpen : h'.queueOpen = h.queueOpen
  reachable : h'.reachable = h.reachable

namespace Alike

theorem refl (h : Hub) : Alike h h := ⟨rfl, rfl, rfl, rfl, rfl, rfl, rfl⟩

theorem symm {h h' : Hub} (a : Alike h h') : Alike h' h :=
  ⟨a.state.symm, a.connection.symm, a.slots.symm, a.pending.symm, a.deeds.symm,
    a.queueOpen.symm, a.reachable.symm⟩

theorem trans {h h' h'' : Hub} (a : Alike h h') (b : Alike h' h'') : Alike h h'' :=
  ⟨b.state.trans a.state, b.connection.trans a.connection, b.slots.trans a.slots,
    b.pending.trans a.pending, b.deeds.trans a.deeds, b.queueOpen.trans a.queueOpen,
    b.reachable.trans a.reachable⟩

theorem queue {h h' : Hub} (a : Alike h h') : h'.queue = h.queue := by
  rw [queue_eq, queue_eq, a.deeds]

theorem calls {h h' : Hub} (a : Alike h h') : h'.calls = h.calls := by
  rw [calls_eq, calls_eq, a.deeds]

theorem minor {h h' : Hub} (a : Alike h h') : h'.minor = h.minor := by
  unfold Hub.minor
  rw [a.connection]

theorem progress {h h' : Hub} (a : Alike h h') (r : Request) : h'.progress r = h.progress r := by
  unfold Hub.progress slot?
  rw [a.slots]

end Alike

theorem alike_record (h : Hub) {d : Deed} (hd : d.counts = false) : Alike h (h.record d) :=
  ⟨rfl, rfl, rfl, rfl, by simp [hd], rfl, rfl⟩

theorem alike_note (h : Hub) (e : Event) : Alike h (h.note e) := alike_record h rfl

theorem alike_wake (h : Hub) (r : Runner) : Alike h (h.wake r) := by
  unfold wake
  split
  · exact .refl h
  · exact ⟨rfl, rfl, rfl, rfl, rfl, rfl, rfl⟩

theorem alike_interrupt (h : Hub) (i : Nat) :
    Alike (h.updateSlot i fun s => { s with interrupted := true }) (h.interrupt i) :=
  alike_wake _ _

/-- A frame that is sent is the last deed. -/
theorem alike_send {h : Hub} (ho : h.queueOpen = true) (f : Frame) :
    Alike (h.record (.sent f)) (h.send f) := by
  unfold send
  rw [if_pos ho]
  exact alike_wake _ _

theorem send_of_closed {h : Hub} (hc : h.queueOpen = false) (f : Frame) : h.send f = h := by
  unfold send
  simp [hc]

namespace Alike

variable {h h' : Hub}

theorem record (a : Alike h h') (d : Deed) : Alike (h.record d) (h'.record d) :=
  ⟨a.state, a.connection, a.slots, a.pending, by rw [deeds_record, deeds_record, a.deeds],
    a.queueOpen, a.reachable⟩

theorem send (a : Alike h h') (f : Frame) : Alike (h.send f) (h'.send f) := by
  cases ho : h.queueOpen with
  | true =>
    have hsent := alike_send (a.queueOpen ▸ ho) f
    exact (alike_send ho f).symm.trans ((a.record _).trans hsent)
  | false =>
    rw [send_of_closed ho, send_of_closed (a.queueOpen ▸ ho)]
    exact a

theorem updateSlot (a : Alike h h') (i : Nat) (f : Slot → Slot) :
    Alike (h.updateSlot i f) (h'.updateSlot i f) :=
  ⟨a.state, a.connection, congrArg (·.modify i f) a.slots, a.pending, a.deeds, a.queueOpen,
    a.reachable⟩

theorem untrack (a : Alike h h') (unique : UInt64) :
    Alike (h.untrack unique) (h'.untrack unique) :=
  ⟨a.state, a.connection, a.slots, congrArg (·.erase unique) a.pending, a.deeds, a.queueOpen,
    a.reachable⟩

theorem deliver (a : Alike h h') (r : Request) (reply : Reply) :
    Alike (h.deliver r reply) (h'.deliver r reply) := by
  have hu := a.untrack r.unique
  unfold Hub.deliver
  rw [a.reachable]
  split
  · dsimp only
    rw [hu.minor]
    split
    · exact hu.send _
    · exact hu
  · exact a

end Alike

theorem alike_enter (h : Hub) (state : State) : Alike { h with state } (h.enter state) :=
  alike_record { h with state } rfl

theorem Alike.entered {h h' : Hub} (a : Alike h h') (state : State) :
    Alike { h with state } (h'.enter state) :=
  ⟨rfl, a.connection, a.slots, a.pending, (alike_enter h' state).deeds.trans a.deeds,
    a.queueOpen, a.reachable⟩

theorem Alike.connected {h h' : Hub} (a : Alike h h') (connection : Option Connection) :
    Alike { h with connection } { h' with connection } :=
  ⟨a.state, rfl, a.slots, a.pending, a.deeds, a.queueOpen, a.reachable⟩

theorem Alike.sent {h h' : Hub} (a : Alike h h') (ho : h.queueOpen = true) (f : Frame) :
    Alike (h.record (.sent f)) (h'.send f) := (alike_send ho f).trans (a.send f)

/-! ## Answers -/

/-- Only a forget takes the answer that sends nothing, and it takes no other. -/
theorem shape_of_accepts {k : OpKind} {shape : Reply.Shape} (h : k.accepts shape = true) :
    shape = .none ↔ k.expectsReply = false := by
  by_cases hk : k = .forget
  · subst hk
    cases shape <;> first | decide | cases h
  · have hr : k.expectsReply = true := by simp [OpKind.expectsReply, hk]
    rw [hr]
    constructor
    · intro hs
      subst hs
      rw [OpKind.accepts, hr] at h
      cases h
    · intro hf
      cases hf

theorem accepts_of_check {r : Request} {reply : Reply} (hc : r.check reply = none) :
    r.kind.accepts reply.shape = true := by
  unfold Request.check at hc
  split at hc
  · cases hc
  · rename_i ha
    simpa using ha

/-- An answer that was checked sends one frame, and to a forget it sends none. -/
theorem frame_of_check {r : Request} {reply : Reply} (hc : r.check reply = none)
    (unique : UInt64) (minor : UInt32) :
    r.kind.expectsReply = true ∧ (∃ f, reply.frame? unique minor = some f ∧ f.unique = unique) ∨
      r.kind.expectsReply = false ∧ reply.frame? unique minor = none := by
  have hs := shape_of_accepts (accepts_of_check hc)
  cases hr : r.kind.expectsReply with
  | true =>
    rw [hr] at hs
    refine Or.inl ⟨rfl, ?_⟩
    cases reply
    case none => exact absurd (hs.mp rfl) (by decide)
    all_goals exact ⟨_, rfl, rfl⟩
  | false =>
    rw [hr] at hs
    refine Or.inr ⟨rfl, ?_⟩
    cases reply
    case none => rfl
    all_goals exact absurd (hs.mpr rfl) Reply.Shape.noConfusion

theorem check_substitute (r : Request) : r.check r.substitute = none := by
  unfold Request.check Request.substitute
  cases hr : r.kind.expectsReply with
  | true => simp [Reply.shape, OpKind.accepts, hr, Errno.valid, Errno.eio]
  | false => simp [Reply.shape, OpKind.accepts, hr]

theorem check_eio {r : Request} (hr : r.kind.expectsReply = true) :
    r.check (.error .eio) = none := by
  have h := check_substitute r
  rwa [Request.substitute, if_pos hr] at h

/-- A request that is no longer pending gets no second answer. -/
theorem alike_abandon {h : Hub} {r : Request} (hp : h.progress r ≠ .pending) :
    Alike h (h.abandon r) := by
  unfold abandon
  split
  · contradiction
  · exact .refl h

theorem alike_settle {h : Hub} {r : Request} (hp : h.progress r ≠ .pending) (profile : Profile)
    (reply : Reply) : Alike h (h.settle profile r reply).1 := by
  unfold settle
  split
  · contradiction
  · exact .refl h
  · exact alike_note _ _

theorem alike_answer {h : Hub} {r : Request} (hp : h.progress r ≠ .pending) (profile : Profile)
    (a : Answer) : Alike h (h.answer profile r a).1 := by
  cases a with
  | drop => exact alike_abandon hp
  | reply reply =>
    unfold answer complete
    dsimp only
    split
    · exact alike_settle hp _ _
    · rename_i v _
      have hn := alike_note h (.violation r.unique r.kind v)
      have hp' : (h.note (.violation r.unique r.kind v)).progress r ≠ .pending := by
        rw [hn.progress]
        exact hp
      cases profile with
      | dev => exact hn.trans (alike_abandon hp')
      | release => exact hn.trans (alike_settle hp' _ _)

/-- A pending request that is let go gets an error, and a forget gets nothing. -/
theorem abandon_of_pending {h : Hub} {r : Request} (hp : h.progress r = .pending) :
    if r.kind.expectsReply then
      Alike ((h.markAnswered r).deliver r (.error .eio)) (h.abandon r)
    else h.abandon r = h.markAnswered r := by
  unfold abandon
  rw [hp]
  dsimp only
  split
  · exact (alike_note _ _).deliver _ _
  · rfl

/-- Whatever is done with a pending request, it is answered in a form that it
takes. Only a forget may be let go without a word. -/
theorem answer_of_pending {h : Hub} {r : Request} (hp : h.progress r = .pending)
    (profile : Profile) (a : Answer) :
    (∃ reply, r.check reply = none ∧
      Alike ((h.markAnswered r).deliver r reply) (h.answer profile r a).1) ∨
    (r.kind.expectsReply = false ∧ Alike (h.markAnswered r) (h.answer profile r a).1) := by
  have habandon : ∀ h', Alike h h' →
      (∃ reply, r.check reply = none ∧
        Alike ((h.markAnswered r).deliver r reply) (h'.abandon r)) ∨
      (r.kind.expectsReply = false ∧ Alike (h.markAnswered r) (h'.abandon r)) := by
    intro h' ha
    have hb := abandon_of_pending (h := h') (r := r) (ha.progress r ▸ hp)
    have hm : Alike (h.markAnswered r) (h'.markAnswered r) := ha.updateSlot _ _
    cases hr : r.kind.expectsReply with
    | true =>
      rw [hr, if_pos rfl] at hb
      exact Or.inl ⟨_, check_eio hr, (hm.deliver _ _).trans hb⟩
    | false =>
      simp only [hr, Bool.false_eq_true, if_false] at hb
      exact Or.inr ⟨rfl, hb ▸ hm⟩
  cases a with
  | drop => exact habandon h (.refl h)
  | reply reply =>
    unfold answer complete
    dsimp only
    split
    · rename_i hc
      refine Or.inl ⟨reply, hc, ?_⟩
      unfold settle
      rw [hp]
      exact .refl _
    · rename_i v _
      have hn := alike_note h (.violation r.unique r.kind v)
      cases profile with
      | dev => exact habandon _ hn
      | release =>
        refine Or.inl ⟨r.substitute, check_substitute r, ?_⟩
        unfold settle
        rw [hn.progress, hp]
        exact (hn.updateSlot _ _).deliver _ _

/-- As long as the session is reachable and its queue open, a pending request that
the kernel waits for gets one frame, and one that it does not wait for gets none. -/
theorem answer_cases {h : Hub} {r : Request} (hp : h.progress r = .pending)
    (ho : h.queueOpen = true) (hr : h.reachable = true) (profile : Profile) (a : Answer) :
    (r.kind.expectsReply = true ∧ ∃ reply f, r.check reply = none ∧
      reply.frame? r.unique h.minor = some f ∧ f.unique = r.unique ∧
      Alike (((h.markAnswered r).untrack r.unique).record (.sent f)) (h.answer profile r a).1) ∨
    (r.kind.expectsReply = false ∧
      (Alike (h.markAnswered r) (h.answer profile r a).1 ∨
        Alike ((h.markAnswered r).untrack r.unique) (h.answer profile r a).1)) := by
  rcases answer_of_pending hp profile a with ⟨reply, hc, ha⟩ | ⟨hk, ha⟩
  · unfold deliver at ha
    have hreach : (h.markAnswered r).reachable = true := hr
    rw [if_pos hreach] at ha
    dsimp only at ha
    rcases frame_of_check hc r.unique ((h.markAnswered r).untrack r.unique).minor with
      ⟨hk, f, hf, hu⟩ | ⟨hk, hf⟩
    · rw [hf] at ha
      have hsent := (alike_send (h := (h.markAnswered r).untrack r.unique) ho f).trans ha
      exact Or.inl ⟨hk, reply, f, hc, hf, hu, hsent⟩
    · rw [hf] at ha
      exact Or.inr ⟨hk, Or.inr ha⟩
  · exact Or.inr ⟨hk, Or.inl ha⟩

end Hub

end Fuse
