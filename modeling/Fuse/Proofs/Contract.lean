-- The two file systems keep to their contract with the session, in every run. What they keep
-- is what their handlers left, and of a tree that they leave all is known that an operation
-- needs.
import Fuse.Operation.Encoding
import Fuse.Proofs.MemFs.Strictness
import Fuse.Proofs.Replaying

namespace Fuse

/-! ## The file system in memory -/

namespace MemFs

theorem table_quiet : table.Quiet := by
  constructor
  · rintro handler ⟨⟩
  · rintro handler ⟨⟩ fs state
    exact ⟨rfl, rfl, fun _ => rfl⟩

/-- What is served is served by one handler, and needs an answer. -/
theorem resolve_eq {kind : OpKind} (h : (table.resolve kind).isSome = true) :
    table.resolve kind = some handle ∧ kind.expectsReply = true := by
  have hexpects : ∀ kind ∈ served, kind.expectsReply = true := by decide
  by_cases hkind : kind ∈ served
  · exact ⟨if_pos hkind, hexpects kind hkind⟩
  · have hnone : table.resolve kind = none := if_neg hkind
    rw [hnone] at h
    cases h

/-- The handlers are called as if by somebody who has the operations served. -/
theorem replay_eq_serveAll (fs : MemFs) (calls : List (Request × Operation))
    (h : ∀ c ∈ calls, table.Calls c) : table.replay fs calls = (fs.serveAll calls).1 := by
  induction calls generalizing fs with
  | nil => rfl
  | cons c calls ih =>
    obtain ⟨r, op⟩ := c
    have hhandler := (resolve_eq (h (r, op) List.mem_cons_self).handler).1
    have hrest := ih (fs.handle r op).1 fun c hc => h c (List.mem_cons_of_mem _ hc)
    rw [serveAll_cons, ← hrest, Table.replay, Table.replay, List.foldl_cons, hhandler]
    rfl

/-- A tree of the right shape is all that the contract needs. -/
theorem contract_handle {fs : MemFs} {given : Nat} (h : fs.tree.Shape given)
    (hg : given + 3 < UInt64.size) {r : Request} {op : Operation} (hc : table.Calls (r, op)) :
    fs.Contract r op := by
  have hexpects : op.kind.expectsReply = true := (resolve_eq hc.handler).2
  refine ⟨?_, ?_, handle_of_tooFar, fun hfew hstored trap =>
    handleStrictly_eq h hg (h.roomy hfew) r hstored trap⟩
  · cases hlong : fs.tree.tooLong op with
    | true => exact Or.inr (handle_of_tooLong h.short hlong)
    | false => exact Or.inl (satisfies_handle hc.kind hc.limit hexpects hlong)
  · constructor
    · intro hpanicked
      cases hlong : fs.tree.tooLong op with
      | true => rfl
      | false =>
        have hsatisfies := satisfies_handle hc.kind hc.limit hexpects hlong
        exact absurd hpanicked (hsatisfies.ne_panicked _)
    · exact handle_of_tooLong h.short

end MemFs

/-! ## The file system with one file -/

namespace HelloFs

theorem table_quiet : table.Quiet := by
  constructor
  · rintro handler ⟨⟩ fs state config
    exact ⟨rfl, rfl⟩
  · rintro handler ⟨⟩ fs state
    exact ⟨rfl, rfl, fun _ => rfl⟩

theorem expectsReply_of_resolve {kind : OpKind} (h : (table.resolve kind).isSome = true) :
    kind.expectsReply = true := by
  have hexpects : ∀ kind ∈ served, kind.expectsReply = true := by decide
  by_cases hkind : kind ∈ served
  · exact hexpects kind hkind
  · have hnone : table.resolve kind = none := if_neg hkind
    rw [hnone] at h
    cases h

/-- No request changes anything. -/
theorem replay_eq (fs : HelloFs) (calls : List (Request × Operation)) :
    table.replay fs calls = fs := by
  induction calls with
  | nil => rfl
  | cons c calls ih =>
    have hone : ((table.resolve c.2.kind).map fun h => (h fs c.1 c.2).1).getD fs = fs := by
      by_cases hkind : c.2.kind ∈ served
      · have hsome : table.resolve c.2.kind = some _ := if_pos hkind
        rw [hsome]
        rfl
      · have hnone : table.resolve c.2.kind = none := if_neg hkind
        rw [hnone]
        rfl
    rw [Table.replay, List.foldl_cons, hone]
    exact ih

end HelloFs

/-! ## The law -/

namespace Session

/-- In every run, with whatever frames and in whatever order, the two file systems keep to
their contract with each request that they are called with. What the file system in memory
keeps is what the calls before have left, as long as there are numbers for its nodes; the
one with one file keeps what it has. -/
theorem the_file_systems_keep_to_their_contract (profile : Profile) (drain : Drain)
    (inputs : List Input) :
    (∀ (clock : Nat → Timestamp) (owner : MemFs.Owner),
      let fs := MemFs.fresh clock owner
      let srv : Server MemFs := { table := MemFs.table, profile, drain }
      let s := (start fs).run srv inputs
      srv.table.Quiet ∧
      s.user = (fs.serveAll s.hub.calls).1 ∧
      (∀ x ∈ (start fs).receipts srv inputs,
        x.session.user = (fs.serveAll x.session.hub.calls).1) ∧
      ∀ before r op after, s.hub.calls = before ++ (r, op) :: after →
        (fs.serveAll before).2.length + 3 < UInt64.size →
        (fs.serveAll before).1.Contract r op) ∧
    ∀ fs : HelloFs,
      let srv : Server HelloFs := { table := HelloFs.table, profile, drain }
      let s := (start fs).run srv inputs
      srv.table.Quiet ∧
      s.user = fs ∧
      (∀ x ∈ (start fs).receipts srv inputs, x.session.user = fs) ∧
      ∀ r op, (r, op) ∈ s.hub.calls → fs.Contract r op := by
  constructor
  · intro clock owner fs srv s
    obtain ⟨huser, hcalls⟩ := (replays_run srv MemFs.table_quiet fs inputs).of_start
    refine ⟨MemFs.table_quiet, ?_, ?_, ?_⟩
    · rw [huser, MemFs.replay_eq_serveAll fs _ hcalls]
    · intro x hx
      obtain ⟨hx', hcalls'⟩ := (replays_receipt srv MemFs.table_quiet hx).of_start
      rw [hx', MemFs.replay_eq_serveAll fs _ hcalls']
    · intro before r op after hsplit hleft
      have hcall : (r, op) ∈ s.hub.calls := by
        rw [hsplit]
        exact List.mem_append_right _ List.mem_cons_self
      have hroot : fs.tree.Shape 0 := MemFs.Tree.shape_root (clock 0) owner
      have hshape := (MemFs.shape_serveAll before hroot (by omega)).1
      rw [Nat.zero_add] at hshape
      exact MemFs.contract_handle hshape hleft (hcalls _ hcall)
  · intro fs srv s
    obtain ⟨huser, hcalls⟩ := (replays_run srv HelloFs.table_quiet fs inputs).of_start
    refine ⟨HelloFs.table_quiet, ?_, ?_, ?_⟩
    · rw [huser]
      exact fs.replay_eq _
    · intro x hx
      obtain ⟨hx', -⟩ := (replays_receipt srv HelloFs.table_quiet hx).of_start
      rw [hx']
      exact fs.replay_eq _
    · intro r op hcall
      have hc := hcalls _ hcall
      exact fs.contract_reply hc.kind hc.limit (HelloFs.expectsReply_of_resolve hc.handler)

/-- The frame in which the kernel asks for an operation. -/
def asking (unique : UInt64) (op : Operation) : Bytes :=
  let p := op.packet 19
  Kernel.InHeader.frame
    { len := 0, opcode := p.opcode.code, unique, nodeid := p.nodeid, uid := 0, gid := 0, pid := 0 }
    p.body

/-- A directory and a file are made. The file is to get too long, and then the directory is
removed. -/
def growing : List Input :=
  [.frames
    [proposal, asking 2 (.mkdir rootInode [97] 0o755 0),
      asking 3 (.create rootInode [98] 0o644 0 0),
      asking 4 (.setattr 3 { size := some 0x8000000000000000 }),
      asking 5 (.rmdir rootInode [97])]]

/-- The session of the file system in memory after these. -/
def grown : Session MemFs :=
  (start (.fresh (fun _ => .epoch) ⟨0, 0⟩)).run { table := MemFs.table } growing

/-- The file system as it was after so many calls. -/
def afterCalls (count : Nat) : MemFs :=
  ((MemFs.fresh (fun _ => .epoch) ⟨0, 0⟩).serveAll (grown.hub.calls.take count)).1

/-- The content of the only file is read past its end. -/
def reading : List Input :=
  [.frames [proposal, asking 2 (.read 2 1 5 { fh := 0, flags := 0 })]]

/-- The length stops a handler. The directory is removed after that, and no count of links
stops it. The other file system gives what there is. -/
theorem a_file_that_gets_too_long_stops_a_handler :
    ((afterCalls 2).handle ⟨2, 4, 0, 0, 0, .setattr, none⟩
      (.setattr 3 { size := some 0x8000000000000000 })).2 =
        .panicked (.fault .capacityOverflow) ∧
    (∀ trap, (afterCalls 3).handleStrictly trap ⟨3, 5, 0, 0, 0, .rmdir, none⟩
      (.rmdir rootInode [97]) =
        (afterCalls 3).handle ⟨3, 5, 0, 0, 0, .rmdir, none⟩ (.rmdir rootInode [97])) ∧
    grown.hub.queue.map (fun f => (f.unique, f.error)) =
      [(1, 0), (2, 0), (3, 0), (4, -5), (5, 0)] ∧
    HelloFs.Contract ⟨[72, 105], .epoch⟩ ⟨0, 2, 0, 0, 0, .read, some 5⟩
      (.read 2 1 5 { fh := 0, flags := 0 }) := by
  obtain ⟨hmem, -⟩ := the_file_systems_keep_to_their_contract .dev .ascending growing
  obtain ⟨-, hhello⟩ := the_file_systems_keep_to_their_contract .dev .ascending reading
  obtain ⟨-, -, -, hcontract⟩ := hmem (fun _ => .epoch) ⟨0, 0⟩
  obtain ⟨-, -, -, hread⟩ := hhello ⟨[72, 105], .epoch⟩
  have hlong : (afterCalls 2).Contract ⟨2, 4, 0, 0, 0, .setattr, none⟩
      (.setattr 3 { size := some 0x8000000000000000 }) :=
    hcontract _ _ _ (grown.hub.calls.drop 3) (by decide +kernel) (by decide +kernel)
  have hgone : (afterCalls 3).Contract ⟨3, 5, 0, 0, 0, .rmdir, none⟩ (.rmdir rootInode [97]) :=
    hcontract _ _ _ (grown.hub.calls.drop 4) (by decide +kernel) (by decide +kernel)
  have hfew : ∀ p ∈ (afterCalls 3).tree.nodes,
      (afterCalls 3).tree.subdirectories p.2 + 3 < UInt32.size := by decide +kernel
  refine ⟨hlong.tooLong.mpr (by decide +kernel), ?_, by decide +kernel,
    hread _ _ (by decide +kernel)⟩
  exact hgone.strict (fun ino n hn => hfew (ino, n) (KeyedList.mem_of_get? hn)) nofun

end Session

end Fuse
