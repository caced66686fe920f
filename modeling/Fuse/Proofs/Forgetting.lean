-- A batch of forgets is handed out as a whole or not at all, and it gets no answer.
import Fuse.Proofs.Answers
import Fuse.Proofs.Decoding
import Fuse.Session.Forgetting

namespace Fuse

/-! ## Reading a batch -/

namespace Take

variable {α : Type}

/-- What takes the same number of bytes each time reads several in a row just if there are
bytes for all of them, each at its place. -/
theorem times_of_places {one : Take α} {width : Nat} {read : Bytes → α} {e : DecodeError}
    (h : ∀ bs, one bs = if width ≤ bs.length then .ok (read bs, bs.drop width) else .error e)
    (n : Nat) (bs : Bytes) :
    times one n bs =
      if width * n ≤ bs.length then
        .ok ((List.range n).map fun i => read (bs.drop (width * i)), bs.drop (width * n))
      else .error e := by
  induction n generalizing bs with
  | zero =>
    show Except.ok ([], bs) = _
    simp
  | succ n ih =>
    have hstep : times one (n + 1) bs =
        (one bs >>= fun p => times one n p.2 >>= fun q => pure (p.1 :: q.1, q.2)) := rfl
    rw [hstep, h]
    by_cases hone : width ≤ bs.length
    · rw [if_pos hone]
      show (times one n (bs.drop width) >>= _) = _
      rw [ih, List.length_drop]
      have hmul : width * (n + 1) = width * n + width := Nat.mul_succ width n
      by_cases hrest : width * n ≤ bs.length - width
      · rw [if_pos hrest, if_pos (by omega)]
        have hplace (i : Nat) : width + width * i = width * (i + 1) := by
          rw [Nat.mul_succ, Nat.add_comm]
        simp [List.range_succ_eq_map, Function.comp_def, hplace, bind, Except.bind, pure,
          Except.pure]
      · rw [if_neg hrest, if_neg (by omega)]
        rfl
    · have hmul : width ≤ width * (n + 1) := Nat.le_mul_of_pos_right _ n.succ_pos
      rw [if_neg hone, if_neg (by omega)]
      rfl

/-- An item of a batch takes sixteen bytes, eight for each of its numbers. -/
theorem struct_forgetOne (bs : Bytes) :
    struct Kernel.ForgetOne bs =
      if 16 ≤ bs.length then
        .ok (⟨.ofNat (bs.numberAt 0 8), .ofNat (bs.numberAt 8 8)⟩, bs.drop 16)
      else .error .layout := by
  by_cases h : 16 ≤ bs.length
  · rw [if_pos h]
    have hd := Wire.decode?_of_le (α := Kernel.ForgetOne) h
    obtain ⟨⟨nodeid, nlookup⟩, hd⟩ := hd
    have hbs : bs = Bytes.ofNat 8 nodeid.toNat ++ (Bytes.ofNat 8 nlookup.toNat ++ bs.drop 16) := by
      rw [← List.append_assoc]
      exact Wire.eq_append_of_decode? hd
    have hnode : bs.numberAt 0 8 = nodeid.toNat := by
      rw [hbs]
      exact Bytes.numberAt_front nodeid.toNat_lt _
    have hlookup : bs.numberAt 8 8 = nlookup.toNat := by
      rw [hbs]
      exact (Bytes.numberAt_behind 8 _ _ 0 8).trans (Bytes.numberAt_front nlookup.toNat_lt _)
    rw [hnode, hlookup, UInt64.ofNat_toNat, UInt64.ofNat_toNat]
    exact struct_eq_ok.mpr hd
  · have hd : Wire.decode? (α := Kernel.ForgetOne) bs = none :=
      Wire.decode?_eq_none_iff.mpr (Nat.lt_of_not_le h)
    rw [if_neg h]
    unfold struct
    rw [hd]

/-- The head of a batch takes eight bytes, and the first four are the number of items. -/
theorem struct_batchForgetIn {bs : Bytes} (h : 8 ≤ bs.length) :
    ∃ head, struct Kernel.BatchForgetIn bs = .ok (head, bs.drop 8) ∧
      head.count.toNat = Batch.count bs := by
  obtain ⟨⟨count, dummy⟩, hd⟩ := Wire.decode?_of_le (α := Kernel.BatchForgetIn) h
  have hbs : bs = Bytes.ofNat 4 count.toNat ++ (Bytes.ofNat 4 dummy.toNat ++ bs.drop 8) := by
    rw [← List.append_assoc]
    exact Wire.eq_append_of_decode? hd
  refine ⟨_, struct_eq_ok.mpr hd, ?_⟩
  rw [hbs]
  exact (Bytes.numberAt_front count.toNat_lt _).symm

end Take

/-- A batch is read just if it is whole, and then it is read item by item. -/
theorem takeMessage_batchForget (minor : UInt32) (ino : Inode) (body : Bytes) :
    Opcode.batchForget.takeMessage minor ino body =
      if Batch.Whole body then
        .ok (.forget (Batch.items body), body.drop (8 + 16 * Batch.count body))
      else .error .layout := by
  by_cases hhead : 8 ≤ body.length
  · obtain ⟨head, hstruct, hcount⟩ := Take.struct_batchForgetIn hhead
    have hstep : Opcode.batchForget.takeMessage minor ino body =
        (Take.times (Take.struct Kernel.ForgetOne) head.count.toNat (body.drop 8) >>= fun p =>
          pure (.forget p.1, p.2)) := by
      show (Take.struct Kernel.BatchForgetIn body >>= _) = _
      rw [hstruct]
      rfl
    rw [hstep, Take.times_of_places Take.struct_forgetOne, hcount, List.length_drop,
      List.drop_drop]
    by_cases hitems : 16 * Batch.count body ≤ body.length - 8
    · rw [if_pos hitems, if_pos ⟨hhead, by omega⟩]
      have hitem (i : Nat) : (⟨.ofNat (Bytes.numberAt ((body.drop 8).drop (16 * i)) 0 8),
          .ofNat (Bytes.numberAt ((body.drop 8).drop (16 * i)) 8 8)⟩ : Kernel.ForgetOne) =
            Batch.item body i := by
        rw [List.drop_drop, Bytes.numberAt_drop, Bytes.numberAt_drop]
        rfl
      have hitems' : _ = Batch.items body :=
        List.map_congr_left fun i _ => hitem i
      rw [hitems']
      rfl
    · have hnot : ¬Batch.Whole body := by
        rintro ⟨-, h⟩
        omega
      rw [if_neg hitems, if_neg hnot]
      rfl
  · have hnone : Wire.decode? (α := Kernel.BatchForgetIn) body = none :=
      Wire.decode?_eq_none_iff.mpr (Nat.lt_of_not_le hhead)
    rw [if_neg fun h => hhead h.1]
    show (Take.struct Kernel.BatchForgetIn body >>= _) = _
    unfold Take.struct
    rw [hnone]
    rfl

/-! ## Forgetting one after another -/

variable {σ : Type}

namespace Forgot

variable {srv : Server σ} {header : Kernel.InHeader} {items items' : List Kernel.ForgetOne}
  {s s' s'' : Session σ}

theorem nothing (hs : s'.hub.state = s.hub.state) (hq : s'.hub.queue = s.hub.queue)
    (hc : s'.hub.calls = s.hub.calls) (hu : s'.user = s.user) : Forgot srv header [] s s' := by
  refine ⟨hs, hq, [], ?_, ?_, hu, fun _ h => absurd h List.not_mem_nil⟩
  · rw [hc, List.append_nil]
  · exact (ite_self _).symm

theorem trans (a : Forgot srv header items s s') (b : Forgot srv header items' s' s'') :
    Forgot srv header (items ++ items') s s'' := by
  obtain ⟨hstate, hqueue, cs, hcalls, horders, huser, hunheard⟩ := a
  obtain ⟨hstate', hqueue', cs', hcalls', horders', huser', hunheard'⟩ := b
  refine ⟨hstate'.trans hstate, hqueue'.trans hqueue, cs ++ cs', ?_, ?_, ?_, ?_⟩
  · rw [hcalls', hcalls, List.append_assoc]
  · rw [List.map_append, horders, horders']
    split
    · exact List.map_append.symm
    · rfl
  · rw [huser', huser, Table.replay, Table.replay, Table.replay, List.foldl_append]
  · intro c hc
    rcases List.mem_append.mp hc with h | h
    · exact hunheard c h
    · exact hunheard' c h

end Forgot

theorem Request.unheard_of_forget {r : Request} (h : r.kind = .forget) : r.Unheard := by
  have hsilent : r.kind.expectsReply = false := by
    rw [h]
    rfl
  exact fun profile hub a => Hub.queue_answer_of_silent profile hub hsilent a

namespace Session

variable (srv : Server σ) (s : Session σ) (header : Kernel.InHeader)

/-- A handler that is called to forget can send nothing by it, whatever it does. -/
theorem queue_dispatch_forget (ino : Inode) (nlookup : UInt64) :
    (s.dispatch srv header (.forget ino nlookup)).hub.queue = s.hub.queue := by
  have hunheard : (s.hub.enrol header (.forget ino nlookup)).2.Unheard :=
    Request.unheard_of_forget rfl
  rcases dispatch_cases srv s header (.forget ino nlookup) with ⟨a, h⟩ | ⟨t, u, ht, hu⟩
  · rw [h]
    exact hunheard srv.profile _ a
  · have hcalled : t.hub.queue = s.hub.queue :=
      ht.hub.queue.trans ((Hub.queue_record _ _).trans (List.append_nil _))
    refine (hu.hub.queue.trans ?_).trans hcalled
    cases u with
    | answer a => exact hunheard srv.profile t.hub a
    | keep => rfl
    | onInterrupt a => exact (Hub.alike_wake _ _).queue

theorem forgot_dispatch (i : Kernel.ForgetOne) :
    Forgot srv header [i] s (s.dispatch srv header (.forget i.nodeid i.nlookup)) := by
  obtain ⟨hcalls, huser⟩ := calls_dispatch srv s header (.forget i.nodeid i.nlookup)
  refine ⟨(steady_dispatch srv s header _).state, queue_dispatch_forget srv s header _ _, _,
    hcalls, ?_, huser, ?_⟩
  · show List.map Order.ofCall (if (srv.table.resolve .forget).isSome then _ else _) = _
    split <;> rfl
  · intro c hc
    split at hc
    · obtain rfl := List.mem_singleton.mp hc
      exact Request.unheard_of_forget rfl
    · cases hc

theorem forgot_dispatchForgets (items : List Kernel.ForgetOne) :
    Forgot srv header items s (s.dispatchForgets srv header items) := by
  induction items generalizing s with
  | nil => exact .nothing rfl rfl rfl rfl
  | cons i items ih => exact (forgot_dispatch srv s header i).trans (ih _)

/-- A frame of the silent sort that cannot be read leaves an entry in the log, and nothing
else. -/
theorem forgot_of_unread {frame : Bytes} {e : DecodeError} (hh : decodeHeader frame = .ok header)
    (hsilent : silentOpcode header.opcode = true)
    (he : decodeMessage header frame s.hub.minor = .error e) :
    (s.handleFrame srv frame).2 = none ∧ Forgot srv header [] s (s.handleFrame srv frame).1 := by
  let event := Event.malformedRequest header.unique header.opcode e
  have hnote := Hub.alike_note s.hub event
  have hkept : s.handleFrame srv frame = (s.note event, none) := by
    unfold handleFrame
    rw [hh]
    dsimp only
    rw [he]
    dsimp only
    rw [if_pos hsilent]
  rw [hkept]
  exact ⟨rfl, .nothing hnote.state hnote.queue hnote.calls rfl⟩

/-! ## The law -/

/-- A running session hands out a batch of forgets as a whole or not at all. If the body
has as many items as it says, the file system is told to forget each of them, once and in
order, whatever its handler does with the earlier ones; if it has fewer, or if the frame is
not as long as it says, nothing is forgotten. There is never an answer. -/
theorem a_batch_is_forgotten_as_a_whole_or_not_at_all {frame : Bytes}
    (hr : s.hub.state = .running) (hh : decodeHeader frame = .ok header)
    (hop : header.opcode = Opcode.batchForget.code) :
    let body := frame.drop inHeaderSize
    let items := if header.len.toNat = frame.length ∧ Batch.Whole body then Batch.items body else []
    (s.handleFrame srv frame).2 = none ∧ Forgot srv header items s (s.handleFrame srv frame).1 := by
  intro body items
  have hcode : Opcode.ofCode? header.opcode = some .batchForget := by
    rw [hop]
    exact ofCode?_code .batchForget
  have hsilent : silentOpcode header.opcode = true := by
    unfold silentOpcode
    rw [hcode]
    rfl
  by_cases hlen : header.len.toNat = frame.length
  · have hdecode := decodeMessage_eq hlen hcode s.hub.minor
    rw [takeMessage_batchForget] at hdecode
    by_cases hwhole : Batch.Whole body
    · have hitems : items = Batch.items body := if_pos ⟨hlen, hwhole⟩
      rw [if_pos hwhole] at hdecode
      have hforgets : s.handleFrame srv frame =
          (s.dispatchForgets srv header (Batch.items body), none) := by
        rw [handleFrame_of_read srv (readFrame?_eq_some.mpr ⟨hh, hdecode⟩)]
        exact if_pos hr
      rw [hitems, hforgets]
      exact ⟨rfl, forgot_dispatchForgets srv s header _⟩
    · have hitems : items = [] := if_neg fun h => hwhole h.2
      rw [if_neg hwhole] at hdecode
      rw [hitems]
      exact forgot_of_unread srv s header hh hsilent hdecode
  · have hitems : items = [] := if_neg fun h => hlen h.1
    have hdecode : decodeMessage header frame s.hub.minor =
        .error (.wrongLength header.len frame.length) := by
      unfold decodeMessage
      exact if_pos hlen
    rw [hitems]
    exact forgot_of_unread srv s header hh hsilent hdecode

/-- A file system that writes down what it is told to forget, and panics at first. -/
def startled : Server (List (UInt64 × Operation)) where
  table :=
    { handler := fun
        | .forget => some fun told r op =>
          (told ++ [(r.unique, op)],
            if told = [] then .panicked (.text "too sudden") else .reply .none)
        | _ => none }

/-- A batch that says how many items it has. It has two, and three bytes after them. -/
def twoItems (count : UInt32) : Bytes :=
  aboutRoot .batchForget 9 (Wire.encode ({ count } : Kernel.BatchForgetIn) ++
    Wire.encode (⟨5, 1⟩ : Kernel.ForgetOne) ++ Wire.encode (⟨6, 3⟩ : Kernel.ForgetOne) ++ [7, 8, 9])

/-- The second item is forgotten although the first one made the handler panic. Of a batch
that says it has three items, neither is. -/
theorem a_panic_loses_no_item_of_a_batch :
    let s := (start []).run startled [.frames [proposal]]
    let header : Kernel.InHeader :=
      { len := 83, opcode := 42, unique := 9, nodeid := 1, uid := 0, gid := 0, pid := 0 }
    let t := (s.handleFrame startled (twoItems 2)).1
    Forgot startled header [⟨5, 1⟩, ⟨6, 3⟩] s t ∧
    t.user = [(9, .forget 5 1), (9, .forget 6 3)] ∧
    t.hub.log = s.hub.log ++ [.handlerPanicked 9 .forget (.text "too sudden")] ∧
    Forgot startled header [] s (s.handleFrame startled (twoItems 3)).1 := by
  intro s header t
  have hr : s.hub.state = .running := by decide +kernel
  have hread (count : UInt32) : decodeHeader (twoItems count) = .ok header :=
    decodeHeader_frame _ _
  have hwhole := (a_batch_is_forgotten_as_a_whole_or_not_at_all startled s header hr
    (hread 2) rfl).2
  have hshort := (a_batch_is_forgotten_as_a_whole_or_not_at_all startled s header hr
    (hread 3) rfl).2
  have hitems : (if header.len.toNat = (twoItems 2).length ∧
      Batch.Whole ((twoItems 2).drop inHeaderSize) then
        Batch.items ((twoItems 2).drop inHeaderSize) else []) = [⟨5, 1⟩, ⟨6, 3⟩] := by
    decide +kernel
  have hnone : (if header.len.toNat = (twoItems 3).length ∧
      Batch.Whole ((twoItems 3).drop inHeaderSize) then
        Batch.items ((twoItems 3).drop inHeaderSize) else []) = [] := by
    decide +kernel
  rw [hitems] at hwhole
  rw [hnone] at hshort
  exact ⟨hwhole, by decide +kernel, by decide +kernel, hshort⟩

end Session

end Fuse
