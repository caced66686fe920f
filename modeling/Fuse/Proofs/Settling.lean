-- What settling the parameters of a connection comes to. The settings leave alone
-- what is the kernel's, capabilities are compared bit by bit, and what is settled
-- keeps to the proposal.
import Fuse.Agreement
import Fuse.Proofs.Layout
import Fuse.Session.Lifecycle

namespace Fuse

/-! ## Sets of capabilities -/

namespace Capabilities

theorem has_eq (a : Capabilities) (i : Nat) : a.has i = a.bits.toBitVec.getLsbD i := rfl

theorem has_inter (a b : Capabilities) (i : Nat) : (a.inter b).has i = (a.has i && b.has i) := by
  simp [has_eq, inter]

/-- A flag word has 32 bits. -/
theorem has_of_le (a : Capabilities) {i : Nat} (h : 32 ≤ i) : a.has i = false :=
  BitVec.getLsbD_of_ge a.bits.toBitVec i h

theorem ext_has {a b : Capabilities} (h : ∀ i, a.has i = b.has i) : a = b := by
  have hbits : a.bits.toBitVec = b.bits.toBitVec := BitVec.eq_of_getLsbD_eq fun i _ => h i
  have hword : a.bits = b.bits := UInt32.toBitVec_inj.mp hbits
  cases a
  cases b
  simpa using hword

theorem has_diff (a b : Capabilities) (i : Nat) : (a.diff b).has i = (a.has i && !b.has i) := by
  by_cases hi : i < 32
  · simp [has_eq, diff, hi]
  · rw [has_of_le (a.diff b) (by omega), has_of_le a (by omega), Bool.false_and]

theorem contains_iff (a b : Capabilities) :
    a.contains b = true ↔ ∀ i, b.has i = true → a.has i = true := by
  unfold contains
  rw [beq_iff_eq]
  constructor
  · intro h i hb
    rw [← h, has_inter] at hb
    simp_all
  · intro h
    apply ext_has
    intro i
    rw [has_inter]
    cases hb : b.has i with
    | false => simp
    | true => simp [h i hb]

/-- The capabilities with a name are the lowest 27 bits. -/
theorem has_known (i : Nat) : known.has i = decide (i < 27) := by
  have hword : ∀ i < 32, known.has i = decide (i < 27) := by decide
  by_cases hi : i < 32
  · exact hword i hi
  · rw [has_of_le known (by omega), eq_comm, decide_eq_false_iff_not]
    omega

theorem has_ofWord (word : UInt32) (i : Nat) :
    (ofWord word).has i = true ↔ word.toNat.testBit i = true ∧ i < 27 := by
  unfold ofWord
  rw [has_inter, has_known]
  simp [has]

theorem has_maxPages (i : Nat) : maxPages.has i = decide (i = maxPagesBit) := by
  have hword : ∀ i < 32, maxPages.has i = decide (i = maxPagesBit) := by decide
  by_cases hi : i < 32
  · exact hword i hi
  · have hne : i ≠ maxPagesBit := by
      unfold maxPagesBit
      omega
    rw [has_of_le maxPages (by omega), decide_eq_false hne]

theorem contains_maxPages (a : Capabilities) : a.contains maxPages = a.has maxPagesBit := by
  rw [Bool.eq_iff_iff, contains_iff]
  constructor
  · intro h
    exact h maxPagesBit (by simp [has_maxPages])
  · intro h i hi
    have he : i = maxPagesBit := by simpa [has_maxPages] using hi
    exact he ▸ h

end Capabilities

/-! ## Settings -/

namespace Config

/-- The settings leave alone what the kernel said. -/
theorem applyAll_offer (settings : List Setting) (c : Config) :
    (c.applyAll settings).major = c.major ∧ (c.applyAll settings).minor = c.minor ∧
      (c.applyAll settings).capable = c.capable := by
  induction settings generalizing c with
  | nil => exact ⟨rfl, rfl, rfl⟩
  | cons s settings ih =>
    obtain ⟨hmajor, hminor, hcapable⟩ := ih (c.apply s)
    unfold applyAll at *
    rw [List.foldl_cons, hmajor, hminor, hcapable]
    cases s <;> exact ⟨rfl, rfl, rfl⟩

end Config

/-- Whatever the file system thinks of a proposal, the offer is the kernel's. -/
theorem opinion_offer {σ : Type} {srv : Server σ} {user : σ} {init : Kernel.InitIn}
    {config : Config} (h : srv.opinion user init = .ok config) :
    config.minor = min init.minor protocolMinor ∧ config.capable = .ofWord init.flags := by
  unfold Server.opinion at h
  dsimp only at h
  split at h
  · cases h
    exact ⟨rfl, rfl⟩
  · split at h
    · cases h
      obtain ⟨-, hminor, hcapable⟩ := Config.applyAll_offer _ _
      exact ⟨hminor, hcapable⟩
    · cases h
    · cases h

/-! ## What is settled -/

theorem toNat_min (a b : UInt32) : (min a b).toNat = min a.toNat b.toNat := by
  show (if a ≤ b then a else b).toNat = _
  by_cases h : a ≤ b
  · rw [if_pos h, Nat.min_eq_left (UInt32.le_iff_toNat_le.mp h)]
  · rw [if_neg h]
    rw [UInt32.le_iff_toNat_le] at h
    omega

theorem toNat_max (a b : UInt32) : (max a b).toNat = max a.toNat b.toNat := by
  show (if a ≤ b then b else a).toNat = _
  by_cases h : a ≤ b
  · rw [if_pos h, Nat.max_eq_right (UInt32.le_iff_toNat_le.mp h)]
  · rw [if_neg h]
    rw [UInt32.le_iff_toNat_le] at h
    omega

theorem toNat_min16 (a b : UInt16) : (min a b).toNat = min a.toNat b.toNat := by
  show (if a ≤ b then a else b).toNat = _
  by_cases h : a ≤ b
  · rw [if_pos h, Nat.min_eq_left (UInt16.le_iff_toNat_le.mp h)]
  · rw [if_neg h]
    rw [UInt16.le_iff_toNat_le] at h
    omega

theorem toNat_clamp (lo hi n : UInt32) :
    (clamp lo hi n).toNat = max lo.toNat (min hi.toNat n.toNat) := by
  rw [clamp, toNat_max, toNat_min]

theorem clamp_bounds (lo hi n : UInt32) (h : lo.toNat ≤ hi.toNat) :
    lo.toNat ≤ (clamp lo hi n).toNat ∧ (clamp lo hi n).toNat ≤ hi.toNat := by
  rw [toNat_clamp]
  omega

theorem clamp_of_le (lo hi n : UInt32) (hlo : lo.toNat ≤ n.toNat) (hhi : n.toNat ≤ hi.toNat) :
    clamp lo hi n = n := by
  apply UInt32.toNat_inj.mp
  rw [toNat_clamp]
  omega

/-- No smaller number of pages covers a size that the session allows. -/
theorem leastPages_pagesFor {size : UInt32} (h : size.toNat ≤ 1048576) :
    LeastPages size.toNat (pagesFor size).toNat := by
  have hpages : (pagesFor size).toNat = (size.toNat + 4095) / 4096 := by
    have hpage : pageSize.toNat = 4096 := rfl
    unfold pagesFor
    rw [hpage, UInt16.toNat_ofNat_of_lt']
    · omega
    · have hsize : UInt16.size = 65536 := rfl
      omega
  unfold LeastPages
  rw [hpages]
  refine ⟨by omega, ?_⟩
  intro n hn
  omega

/-- What was settled keeps to the proposal and to the settings. -/
theorem keeps_of_finish {init : Kernel.InitIn} {config : Config} {c : Connection}
    (hminor : config.minor = min init.minor protocolMinor)
    (hcapable : config.capable = .ofWord init.flags)
    (h : config.finish init.maxReadahead = .ok c) : c.Keeps init config := by
  unfold Config.finish at h
  split at h
  · rename_i hwant
    cases h
    rw [hcapable, Capabilities.contains_iff] at hwant
    have hwrite : 4096 ≤ (clamp minWriteSize maxWriteSize config.maxWrite).toNat ∧
        (clamp minWriteSize maxWriteSize config.maxWrite).toNat ≤ 1048576 :=
      clamp_bounds minWriteSize maxWriteSize config.maxWrite (by decide)
    constructor
    · rw [hminor, toNat_min]
      rfl
    · rfl
    · intro bit hbit
      exact (Capabilities.has_ofWord _ _).mp (hwant bit hbit)
    · rw [toNat_min, Nat.min_comm]
    · exact hwrite
    · intro hlo hhi
      exact clamp_of_le minWriteSize maxWriteSize config.maxWrite hlo hhi
    · rfl
    · rfl
    · exact toNat_min16 _ _
    · exact clamp_bounds 1 1000000000 config.timeGran (by decide)
    · intro hlo hhi
      exact clamp_of_le 1 1000000000 config.timeGran hlo hhi
    · simp only [Capabilities.contains_maxPages]
      split
      · exact leastPages_pagesFor hwrite.2
      · rfl
  · cases h

/-- The parameters are settled just when everything is offered that is wanted. -/
theorem finish_cases (config : Config) (kernelReadahead : UInt32) :
    config.capable.contains config.want = true ∧
        (∃ c, config.finish kernelReadahead = .ok c ∧ c.minor = config.minor) ∨
      config.capable.contains config.want = false ∧
        config.finish kernelReadahead = .error (config.want.diff config.capable) := by
  unfold Config.finish
  cases config.capable.contains config.want with
  | true => exact Or.inl ⟨rfl, _, rfl, rfl⟩
  | false => exact Or.inr ⟨rfl, rfl⟩

theorem tells_initOut (c : Connection) : c.initOut.Tells c := by
  constructor <;> rfl

theorem payload_ofInit (unique : UInt64) (c : Connection) :
    (Frame.ofInit unique c.initOut c.minor).payload =
      (Wire.encode c.initOut).take (initOutSize c.minor) := by
  have hlength : (Wire.encode c.initOut).length = 64 := Wire.length_encode _
  unfold Frame.ofInit initOutSize
  dsimp only
  split
  · rfl
  · split
    · rfl
    · rw [← hlength, List.take_length]

end Fuse
