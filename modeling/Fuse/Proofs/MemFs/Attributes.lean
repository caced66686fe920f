-- A request to set attributes, as the kernel sends it, changes just what its mask selects,
-- and is answered with what became of it.
import Fuse.MemFs.Attributes
import Fuse.Proofs.Answers
import Fuse.Proofs.Contract
import Fuse.Proofs.Decoding
import Fuse.Proofs.MemFs.Content
import Mathlib.Data.List.GetD

namespace Fuse

/-! ## The mask -/

namespace Kernel.SetattrIn

variable (a : Kernel.SetattrIn)

/-- A selected value is the one whose bit the mask has. -/
theorem selected_eq {α : Type} {bits : UInt32} {b : SetattrBit} (h : bits.toNat = 1 <<< b.place)
    (v : α) : selected a.valid bits v = if a.sets b then some v else none := by
  unfold selected sets
  rw [hasFlag_eq_testBit a.valid h]

theorem time_eq {now given : UInt32} {bnow bgiven : SetattrBit}
    (hnow : now.toNat = 1 <<< bnow.place) (hgiven : given.toNat = 1 <<< bgiven.place)
    (sec : UInt64) (nsec : UInt32) :
    a.time now given sec nsec =
      if a.sets bnow then some .now
      else if a.sets bgiven then some (.at ⟨sec.toInt64, nsec⟩)
      else none := by
  unfold time
  rw [selected_eq a hgiven, hasFlag_eq_testBit a.valid hnow]
  rfl

theorem changes_eq :
    a.changes.mode = (if a.sets .mode then some a.mode else none) ∧
    a.changes.uid = (if a.sets .uid then some a.uid else none) ∧
    a.changes.gid = (if a.sets .gid then some a.gid else none) ∧
    a.changes.size = (if a.sets .size then some a.size else none) ∧
    a.changes.atime =
      (if a.sets .atimeNow then some .now
        else if a.sets .atime then some (.at a.givenAtime) else none) ∧
    a.changes.mtime =
      (if a.sets .mtimeNow then some .now
        else if a.sets .mtime then some (.at a.givenMtime) else none) ∧
    a.changes.ctime = (if a.sets .ctime then some a.givenCtime else none) :=
  ⟨selected_eq a rfl _, selected_eq a rfl _, selected_eq a rfl _, selected_eq a rfl _,
    time_eq a rfl rfl _ _, time_eq a rfl rfl _ _, selected_eq a rfl _⟩

end Kernel.SetattrIn

namespace MemFs

/-! ## The node -/

/-- Data of another length has the bytes that it had, and zeros behind them. -/
theorem resizeData_eq_map (data : Bytes) (size : Nat) :
    resizeData data size = (List.range size).map fun i => data.getD i 0 := by
  let c : Content := ⟨data.length, fun i => data.getD i 0⟩
  have hdata : data = c.bytes := Content.eq_bytes rfl fun i hi => by
    have hlt : i < data.length := hi
    simp [c, hlt]
  have hpadded : c.padded = c.byte := by
    funext i
    unfold Content.padded
    split
    · rfl
    · rename_i hi
      exact (List.getD_eq_default data 0 (Nat.le_of_not_lt hi)).symm
  calc resizeData data size = resizeData c.bytes size := by rw [← hdata]
    _ = (c.resize size).bytes := c.resizeData_bytes size
    _ = (List.range size).map c.byte := by rw [← hpadded]; rfl

/-- The permissions are the lowest twelve bits of a mode. -/
theorem toNat_perm (mode : UInt32) : ((mode &&& 0o7777).toUInt16).toNat = mode.toNat % 4096 := by
  have hand : (mode &&& 0o7777).toNat = mode.toNat % 2 ^ 12 := by
    rw [UInt32.toNat_and]
    exact Nat.and_two_pow_sub_one_eq_mod mode.toNat 12
  rw [UInt32.toNat_toUInt16, hand]
  omega

/-- The attributes that a request selects are those whose bits its mask has. -/
theorem selected_changes (a : Kernel.SetattrIn) (now : Timestamp) (attr : Attr) :
    Tree.selected now a.changes attr =
      { attr with
        perm := if a.sets .mode then (a.mode &&& 0o7777).toUInt16 else attr.perm
        uid := if a.sets .uid then a.uid else attr.uid
        gid := if a.sets .gid then a.gid else attr.gid
        atime :=
          if a.sets .atimeNow then now else if a.sets .atime then a.givenAtime else attr.atime
        mtime :=
          if a.sets .mtimeNow then now else if a.sets .mtime then a.givenMtime else attr.mtime
        ctime := if a.sets .ctime then a.givenCtime else now } := by
  obtain ⟨hmode, huid, hgid, -, hatime, hmtime, hctime⟩ := a.changes_eq
  have hgiven {α β : Type} (b : Bool) (v : α) (f : α → β) (d : β) :
      ((if b then some v else none).map f).getD d = if b then f v else d := by
    cases b <;> rfl
  have hchosen {α : Type} (b : Bool) (v d : α) :
      (if b then some v else none).getD d = if b then v else d := by
    cases b <;> rfl
  have htime (present given : Bool) (t d : Timestamp) :
      ((if present then some SetTime.now else if given then some (.at t) else none).map
        (resolve now)).getD d = if present then now else if given then t else d := by
    cases present <;> cases given <;> rfl
  unfold Tree.selected
  rw [hmode, huid, hgid, hatime, hmtime, hctime, hgiven, hchosen, hchosen, hchosen, htime, htime]

/-- A node whose attributes were set is what its mask says. -/
theorem resets_withAttrs (a : Kernel.SetattrIn) (now : Timestamp) (n : Node) :
    n.Resets a now (Tree.withAttrs now a.changes n) := by
  have hsize := a.changes_eq.2.2.2.1
  have hperm (p : UInt16) :
      (if a.sets .mode then (a.mode &&& 0o7777).toUInt16 else p).toNat =
        if a.sets .mode then a.mode.toNat % 4096 else p.toNat := by
    rw [apply_ite UInt16.toNat, toNat_perm]
  unfold Tree.withAttrs Tree.withSelected
  rw [hsize, selected_changes]
  constructor
  case perm => cases a.sets .size <;> exact hperm _
  case data =>
    cases a.sets .size with
    | false => rfl
    | true => exact resizeData_eq_map n.data a.size.toNat
  case size =>
    cases a.sets .size with
    | false => rfl
    | true => exact UInt64.ofNat_toNat
  all_goals cases a.sets .size <;> rfl

/-! ## The change -/

namespace Tree

open Change

variable {t : Tree} {ino : Inode} {n : Node}

theorem resize_on (now : Timestamp) {size : UInt64} (hn : t.node? ino = some n)
    (hf : n.isDir = false) (hsize : size.toNat ≤ n.data.length ∨ size.toNat < capacity) :
    (resize now ino size).on t = (.ok (), t.adjust ino (withLength now size.toNat)) := by
  have hfits : ¬(n.data.length < size.toNat ∧ capacity ≤ size.toNat) := by omega
  unfold resize
  rw [on_bind_of_ok (file_on hn hf)]
  dsimp only
  rw [if_neg hfits]
  exact update_on (Option.isSome_of_eq_some hn) _

/-- What a node can take is done, and the attributes that come of it are the result. -/
theorem setattr_on (now : Timestamp) {a : Kernel.SetattrIn} (hn : t.node? ino = some n)
    (htakes : n.Takes a) :
    (setattr now ino a.changes).on t =
      (.ok (withAttrs now a.changes n).attr, t.adjust ino (withAttrs now a.changes)) := by
  have hsize := a.changes_eq.2.2.2.1
  unfold setattr withAttrs
  rw [on_bind_of_ok (node_on hn), hsize]
  cases hset : a.sets .size with
  | false => exact selected_on now a.changes hn
  | true =>
    obtain ⟨hf, hfits⟩ := htakes hset
    have hresized := resize_on now hn hf hfits
    have hselected := selected_on now a.changes
      (node?_adjust_self hn (withLength now a.size.toNat))
    exact (on_bind_of_ok hresized _).trans
      (hselected.trans (congrArg (Prod.mk _) (adjust_adjust ..)))

end Tree

/-! ## The request -/

variable {header : Kernel.InHeader} {frame : Bytes} {a : Kernel.SetattrIn} {n : Node}

/-- A frame that holds the structure is read as what the structure asks for. -/
theorem decode_setattr (hop : header.opcode = Opcode.setattr.code)
    (hlen : header.len.toNat = frame.length) {trailing : Bytes}
    (hbody : frame.drop inHeaderSize = Wire.encode a ++ trailing) (minor : UInt32) :
    decodeMessage header frame minor =
      .ok (.operation (.setattr header.nodeid a.changes)) := by
  have hcode : Opcode.ofCode? header.opcode = some .setattr := by
    rw [hop]
    exact ofCode?_code .setattr
  refine (decodeMessage_eq_ok hlen hcode).mpr ⟨trailing, ?_⟩
  rw [hbody]
  exact Take.bind_eq_ok.mpr
    ⟨a, trailing, Take.struct_eq_ok.mpr (Wire.decode?_encode a trailing), rfl⟩

theorem handle_setattr {fs : MemFs} {ino : Inode} (hn : fs.tree.node? ino = some n)
    (htakes : n.Takes a) (r : Request) :
    let now := fs.clock fs.readings
    fs.handle r (.setattr ino a.changes) =
      ({ fs with
          tree := fs.tree.adjust ino (Tree.withAttrs now a.changes)
          readings := fs.readings + 1 },
        .reply (.attr (Tree.withAttrs now a.changes n).attr ttl)) := by
  intro now
  show fs.answering (Tree.setattr · ino a.changes) (.attr · ttl) = _
  rw [answering_eq, Tree.setattr_on now hn htakes]

/-! ## The law -/

/-- A running session over the tree is asked to set attributes of a node that is there, by
any mask and with any values, as long as no directory is given a length and no file one that
cannot be stored. Then the node becomes what the mask says, every other node stays as it
was, and the answer carries the attributes that came of it. -/
theorem setting_attributes_changes_what_the_mask_selects (profile : Profile) (drain : Drain)
    {s : Session MemFs} (o : s.hub.Open) (hr : s.hub.state = .running)
    {header : Kernel.InHeader} {frame : Bytes} (hh : decodeHeader frame = .ok header)
    (hop : header.opcode = Opcode.setattr.code)
    (hlen : header.len.toNat = frame.length) {a : Kernel.SetattrIn} {trailing : Bytes}
    (hbody : frame.drop inHeaderSize = Wire.encode a ++ trailing) {n : Node}
    (hn : s.user.tree.node? header.nodeid = some n) (htakes : n.Takes a) :
    let s' := (s.handleFrame { table, profile, drain } frame).1
    ∃ n', n.Resets a (s.user.clock s.user.readings) n' ∧
      s.user.tree.SetsOne header.nodeid n' s'.user.tree ∧
      (s.handleFrame { table, profile, drain } frame).2 = none ∧
      s'.hub.queue =
        s.hub.queue ++ ((Reply.attr n'.attr ttl).frame? header.unique s.hub.minor).toList := by
  intro s'
  let srv : Server MemFs := { table, profile, drain }
  let op : Operation := .setattr header.nodeid a.changes
  let now := s.user.clock s.user.readings
  have hdecode := decode_setattr hop hlen hbody s.hub.minor
  have hdispatch : s.handleFrame srv frame = (s.dispatch srv header op, none) := by
    rw [Session.handleFrame_of_read srv (Session.readFrame?_eq_some.mpr ⟨hh, hdecode⟩)]
    exact if_pos hr
  have hs' : s' = s.dispatch srv header op := congrArg Prod.fst hdispatch
  have hresolve : srv.table.resolve op.kind = some handle := rfl
  obtain ⟨huser, hqueue⟩ := Session.dispatch_of_reply o hresolve
    (handle_setattr hn htakes (s.hub.enrol header op).2) (Request.check_plain rfl rfl rfl)
  refine ⟨Tree.withAttrs now a.changes n, resets_withAttrs a now n, ?_,
    congrArg Prod.snd hdispatch, ?_⟩
  · rw [hs', huser]
    exact ⟨Tree.node?_adjust_self hn _, fun i hi => by rw [Tree.node?_adjust, if_neg hi], rfl⟩
  · rw [hs']
    exact hqueue

/-- A file with three bytes is made. The clock counts the requests. -/
def threeBytes : Session MemFs :=
  (Session.start (.fresh (fun i => ⟨.ofNat i, 0⟩) ⟨0, 0⟩)).run { table }
    [.frames
      [Session.proposal, Session.asking 2 (.create rootInode [97] 0o644 0 0),
        Session.asking 3 (.write 2 0 [1, 2, 3] { fh := 0, flags := 0 })]]

/-- A mode, a length of five, and a time of a second before the epoch are given; the mask
does not select the owner. -/
def longAgo : Kernel.SetattrIn where
  valid := 0x29
  fh := 0
  size := 5
  lockOwner := 0
  atime := 0
  mtime := 0xffffffffffffffff
  ctime := 0
  atimensec := 0
  mtimensec := 6
  ctimensec := 0
  mode := 0o100600
  uid := 7
  gid := 7

/-- The header of a request about the file. -/
def aboutFile : Kernel.InHeader where
  len := 128
  opcode := 4
  unique := 4
  nodeid := 2
  uid := 0
  gid := 0
  pid := 0

/-- The file is as long as the request says, its content is as old as that, and only its
attributes changed now. -/
theorem a_file_gets_longer_and_older :
    let s' := (threeBytes.handleFrame { table } (aboutFile.frame (Wire.encode longAgo))).1
    (∃ n n', threeBytes.user.tree.node? 2 = some n ∧ n.Resets longAgo ⟨3, 0⟩ n' ∧
      threeBytes.user.tree.SetsOne 2 n' s'.user.tree) ∧
    (s'.user.tree.node? 2).map (fun n => (n.data, n.attr.perm, n.attr.uid)) =
      some ([1, 2, 3, 0, 0], 0o600, 0) ∧
    (s'.user.tree.node? 2).map (fun n => (n.attr.mtime, n.attr.ctime)) =
      some (⟨-1, 6⟩, ⟨3, 0⟩) := by
  intro s'
  have o : threeBytes.hub.Open :=
    ⟨by decide +kernel, by decide +kernel, by decide +kernel, by decide +kernel,
      by decide +kernel⟩
  have hr : threeBytes.hub.state = .running := by decide +kernel
  have hfile : (threeBytes.user.tree.node? 2).map Node.isDir = some false := by decide +kernel
  have hnow : threeBytes.user.clock threeBytes.user.readings = ⟨3, 0⟩ := by decide +kernel
  obtain ⟨n, hn, hdir⟩ := Option.map_eq_some_iff.mp hfile
  have hread : decodeHeader (aboutFile.frame (Wire.encode longAgo)) = .ok aboutFile :=
    decodeHeader_frame aboutFile (Wire.encode longAgo)
  have hbody : (aboutFile.frame (Wire.encode longAgo)).drop inHeaderSize =
      Wire.encode longAgo ++ [] := (drop_frame _ _).trans (List.append_nil _).symm
  obtain ⟨n', hresets, hone, -⟩ := setting_attributes_changes_what_the_mask_selects .dev
    .ascending o hr hread rfl (by decide +kernel) hbody hn fun _ => ⟨hdir, Or.inr (by decide)⟩
  have hs' : (threeBytes.handleFrame { table } (aboutFile.frame (Wire.encode longAgo))).1 = s' :=
    rfl
  rw [hnow] at hresets
  rw [hs'] at hone
  exact ⟨⟨n, n', hn, hresets, hone⟩, by decide +kernel, by decide +kernel⟩

end MemFs

end Fuse
