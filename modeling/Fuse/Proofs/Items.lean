-- Texts of options are read as they were written if no item of them is taken apart: a comma or a
-- backslash in an item changes what is read, but for a backslash at the end of the whole text.
import Fuse.MountOptions.Reading
import Mathlib.Data.List.Basic

namespace Fuse

namespace MountOptions

/-! ## Bytes of a text -/

theorem toList_loop (bs : ByteArray) (i : Nat) (acc : List UInt8) :
    ByteArray.toList.loop bs i acc = acc.reverse ++ bs.data.toList.drop i := by
  fun_induction ByteArray.toList.loop bs i acc with
  | case1 i acc hlt ih =>
    have hi : i < bs.data.toList.length := by simpa using hlt
    have hget : bs.get! i = bs.data.toList[i] := by
      simp only [ByteArray.get!, Array.getElem_toList]
      exact getElem!_pos bs.data i (by simpa using hlt)
    rw [ih, List.drop_eq_getElem_cons hi, hget]
    simp
  | case2 i acc hge =>
    have hi : bs.data.toList.length ≤ i := by simpa using hge
    simp [List.drop_eq_nil_of_le hi]

theorem toList_toUTF8 (text : String) : text.toUTF8.toList = utf8 text := by
  simp [ByteArray.toList, toList_loop, utf8]

@[simp] theorem utf8_append (s t : String) : utf8 (s ++ t) = utf8 s ++ utf8 t := by
  simp [utf8]

theorem utf8_intercalate (texts : List String) :
    utf8 (",".intercalate texts) = [comma].intercalate (texts.map utf8) := by
  have hcomma : utf8 "," = [comma] := by decide
  induction texts with
  | nil => decide
  | cons text texts ih =>
    cases texts with
    | nil => simp
    | cons next texts =>
      rw [String.intercalate_cons_cons, utf8_append, utf8_append, hcomma, ih]
      simp [List.intercalate_cons_cons]

/-! ## Items that are read back -/

/-- A plain text is taken into the item that goes on behind it. -/
theorem items_append {text : Bytes} (h : Plain text) (rest : Bytes) :
    items (text ++ rest) = (items rest).modifyHead (text ++ ·) := by
  induction text with
  | nil => cases h : items rest <;> simp [h]
  | cons b bs ih =>
    obtain ⟨hcomma, hbackslash⟩ := h
    simp only [List.mem_cons, not_or] at hcomma hbackslash
    rw [List.cons_append, items_other (Ne.symm hcomma.1) (Ne.symm hbackslash.1),
      ih ⟨hcomma.2, hbackslash.2⟩]
    cases items rest <;> simp

theorem items_of_plain {text : Bytes} (h : Plain text) : items text = [text] := by
  have happend := items_append h []
  simpa using happend

theorem items_append_comma {text : Bytes} (h : Plain text) (rest : Bytes) :
    items (text ++ comma :: rest) = text :: items rest := by
  rw [items_append h, items_comma]
  simp

theorem items_of_endsWithBackslash {text : Bytes} (h : EndsWithBackslash text) :
    items text = [text] := by
  obtain ⟨front, hfront, rfl⟩ := h
  rw [items_append hfront]
  simp

/-- An item is read as it is just if it is plain, or the last one with a backslash at its end. -/
def Whole (item rest : Bytes) : Prop := Plain item ∨ rest = [] ∧ EndsWithBackslash item

theorem plain_append {front back : Bytes} (hfront : Plain front) :
    Plain (front ++ back) ↔ Plain back := by
  obtain ⟨hcomma, hbackslash⟩ := hfront
  simp [Plain, hcomma, hbackslash]

theorem endsWithBackslash_append {front back : Bytes} (hfront : Plain front) :
    EndsWithBackslash (front ++ back) ↔ EndsWithBackslash back := by
  constructor
  · rintro ⟨whole, hwhole, heq⟩
    obtain rfl | ⟨init, last, rfl⟩ := List.eq_nil_or_concat back
    · rw [List.append_nil] at heq
      exact absurd (by simp [heq]) hfront.2
    · rw [List.concat_eq_append, ← List.append_assoc] at heq
      obtain ⟨rfl, hlast⟩ := List.append_inj' heq rfl
      refine ⟨init, (plain_append hfront).mp hwhole, ?_⟩
      simp_all
  · rintro ⟨init, hinit, rfl⟩
    exact ⟨front ++ init, (plain_append hfront).mpr hinit, by simp⟩

theorem whole_append {front item rest : Bytes} (hfront : Plain front) :
    Whole (front ++ item) rest ↔ Whole item rest := by
  unfold Whole
  rw [plain_append hfront, endsWithBackslash_append hfront]

theorem replicate_append_cons (n : Nat) (b : UInt8) (bs : Bytes) :
    List.replicate n b ++ b :: bs = b :: (List.replicate n b ++ bs) := by
  rw [← List.singleton_append, ← List.append_assoc, ← List.replicate_succ', List.replicate_succ,
    List.cons_append]

/-- If an item is read as it was written, or with some backslashes more in front, then there are
no such backslashes and the item is whole. For a backslash that is left out has to be made up for
by the next byte, so that one is a backslash too, and all the same one is missing behind it. -/
theorem whole_of_head {text rest : Bytes} (hrest : rest = [] ∨ ∃ more, rest = comma :: more)
    (before : Nat)
    (h : (items (text ++ rest)).head? = some (List.replicate before backslash ++ text)) :
    before = 0 ∧ Whole text rest := by
  have hne : comma ≠ backslash := by decide
  induction hn : text.length using Nat.strongRecOn generalizing text before with
  | ind n ih =>
  match text with
  | [] => obtain rfl | ⟨more, rfl⟩ := hrest <;> simp_all [Whole, Plain]
  | b :: bs =>
    by_cases hcomma : b = comma
    · subst hcomma
      simp at h
    by_cases hbackslash : b = backslash
    · subst hbackslash
      rw [replicate_append_cons] at h
      match bs with
      | [] =>
        obtain rfl | ⟨more, rfl⟩ := hrest
        · have hbefore : before = 0 := by simpa using h
          exact ⟨hbefore, .inr ⟨rfl, [], by simp [Plain], rfl⟩⟩
        · cases hitems : items more <;> simp [hitems, hne] at h
      | c :: bs =>
        cases hitems : items (bs ++ rest) with
        | nil => simp [hitems] at h
        | cons head others =>
          simp only [List.cons_append, items_backslash, hitems, List.modifyHead_cons,
            List.head?_cons, Option.some.injEq, List.cons.injEq] at h
          obtain ⟨rfl, hhead⟩ := h
          rw [replicate_append_cons, ← List.cons_append, ← List.replicate_succ] at hhead
          have hbefore := (ih bs.length (by simp at hn; omega) (before + 1)
            (by rw [hitems, hhead, List.head?_cons]) rfl).1
          omega
    · rw [List.cons_append, items_other hcomma hbackslash] at h
      cases hitems : items (bs ++ rest) with
      | nil => simp [hitems] at h
      | cons head others =>
        cases before with
        | zero =>
          have hhead : head = bs := by simpa [hitems] using h
          have hbs := ih bs.length (by simp at hn; omega) 0 (by simp [hitems, hhead]) rfl
          have hb : Plain [b] := by simp [Plain, Ne.symm hcomma, Ne.symm hbackslash]
          exact ⟨rfl, (whole_append hb).mpr hbs.2⟩
        | succ before =>
          simp [hitems, List.replicate_succ] at h
          exact absurd h.1 hbackslash

/-! ## Numbers that are read back -/

theorem toNat_of_mem_toDigits {base n : Nat} (hbase : 1 < base) (hten : base ≤ 10) {c : Char}
    (h : c ∈ Nat.toDigits base n) : 48 ≤ c.toNat ∧ c.toNat < 48 + base := by
  induction n using Nat.strongRecOn with
  | ind n ih =>
  by_cases hn : n < base
  · rw [Nat.toDigits_of_lt_base hn, List.mem_singleton] at h
    rw [h, Nat.toNat_digitChar_of_lt_ten (by omega)]
    omega
  · have hmod : n % base < base := Nat.mod_lt n (by omega)
    have hdiv : n / base < n := Nat.div_lt_self (by omega) hbase
    rw [Nat.toDigits_of_base_le hbase (by omega), List.mem_append, List.mem_singleton] at h
    obtain h | rfl := h
    · exact ih _ hdiv h
    · rw [Nat.toNat_digitChar_of_lt_ten (by omega)]
      omega

/-- A number to some base, with a sign if it is negative. -/
def numeral (base : Nat) (n : Int) : Bytes :=
  (if n < 0 then [minus] else []) ++ utf8 (String.ofList (Nat.toDigits base n.natAbs))

/-- Characters of one byte each. -/
theorem utf8_ofList {chars : List Char} (h : ∀ c ∈ chars, c.toNat < 128) :
    utf8 (String.ofList chars) = chars.map fun c => UInt8.ofNat c.toNat := by
  have hflat : utf8 (String.ofList chars) = chars.flatMap String.utf8EncodeChar := by
    simp [utf8, List.utf8Encode]
  rw [hflat]
  clear hflat
  induction chars with
  | nil => rfl
  | cons c chars ih =>
    have hc : c.toNat ≤ 127 := Nat.le_of_lt_succ (h c List.mem_cons_self)
    rw [List.flatMap_cons, ih (fun c hc => h c (List.mem_cons_of_mem _ hc)), List.map_cons]
    simp [String.utf8EncodeChar, hc]

theorem utf8_toDigits {base : Nat} (hbase : 1 < base) (hten : base ≤ 10) (n : Nat) :
    utf8 (String.ofList (Nat.toDigits base n)) =
      (Nat.toDigits base n).map fun c => UInt8.ofNat c.toNat := by
  apply utf8_ofList
  intro c hc
  have hbounds := toNat_of_mem_toDigits hbase hten hc
  omega

theorem mem_utf8_toDigits {base : Nat} (hbase : 1 < base) (hten : base ≤ 10) {n : Nat} {d : UInt8}
    (h : d ∈ utf8 (String.ofList (Nat.toDigits base n))) :
    48 ≤ d.toNat ∧ d.toNat < 48 + base := by
  rw [utf8_toDigits hbase hten] at h
  obtain ⟨c, hc, rfl⟩ := List.mem_map.mp h
  have hbounds := toNat_of_mem_toDigits hbase hten hc
  rwa [UInt8.toNat_ofNat_of_lt' (by simp [UInt8.size]; omega)]

theorem natural?_toDigits {base : Nat} (hbase : 1 < base) (hten : base ≤ 10) (n : Nat) :
    natural? base (utf8 (String.ofList (Nat.toDigits base n))) = some n := by
  have hdigits : (utf8 (String.ofList (Nat.toDigits base n))).all
      (fun d => decide (48 ≤ d.toNat ∧ d.toNat < 48 + base)) = true := by
    apply List.all_eq_true.mpr
    intro d hd
    exact decide_eq_true (mem_utf8_toDigits hbase hten hd)
  have hsome : (utf8 (String.ofList (Nat.toDigits base n))).isEmpty = false := by
    rw [utf8_toDigits hbase hten]
    simp [Nat.toDigits_ne_nil]
  have hvalue : (utf8 (String.ofList (Nat.toDigits base n))).foldl
      (fun n d => base * n + (d.toNat - 48)) 0 = n := by
    rw [utf8_toDigits hbase hten, List.foldl_map]
    refine Eq.trans ?_ (Nat.ofDigitChars_toDigits hbase hten)
    apply List.foldl_ext
    intro value c hc
    have hbounds := toNat_of_mem_toDigits hbase hten hc
    rw [UInt8.toNat_ofNat_of_lt' (by simp [UInt8.size]; omega)]
    rfl
  simp only [natural?, hsome, hdigits, hvalue, Bool.false_eq_true, if_false, if_true]

theorem integer?_numeral {base : Nat} (hbase : 1 < base) (hten : base ≤ 10) (n : Int) :
    integer? base (numeral base n) = some n := by
  have hnatural := natural?_toDigits hbase hten n.natAbs
  unfold numeral
  by_cases hn : n < 0
  · have habs : -(n.natAbs : Int) = n := by omega
    rw [if_pos hn, List.singleton_append, integer?, if_pos rfl, hnatural, Option.map_some, habs]
  · have hdigits := fun d => mem_utf8_toDigits (n := n.natAbs) (d := d) hbase hten
    cases htext : utf8 (String.ofList (Nat.toDigits base n.natAbs)) with
    | nil => simp [htext, natural?] at hnatural
    | cons d digits =>
      have hd : d ≠ minus := by
        rintro rfl
        have hbounds := hdigits minus (by simp [htext])
        simp [minus] at hbounds
      have habs : (n.natAbs : Int) = n := by omega
      rw [htext] at hnatural
      rw [if_neg hn, List.nil_append, integer?, if_neg hd, hnatural, Option.map_some, habs]

@[simp] theorem numeral_natCast (base n : Nat) :
    numeral base n = utf8 (String.ofList (Nat.toDigits base n)) := by
  have hnat : ¬(n : Int) < 0 := by omega
  simp [numeral, hnat]

theorem utf8_toString (n : Int) : utf8 (toString n) = numeral 10 n := by
  have hminus : utf8 "-" = [minus] := by decide
  cases n with
  | ofNat n =>
    have htext : toString (Int.ofNat n) = toString n := rfl
    rw [htext, Nat.toString_eq_ofList_toDigits, Int.ofNat_eq_natCast, numeral_natCast]
  | negSucc n =>
    have htext : toString (Int.negSucc n) = "-" ++ toString (n + 1) := rfl
    rw [htext, utf8_append, hminus, Nat.toString_eq_ofList_toDigits]
    simp [numeral, Int.negSucc_lt_zero]

theorem plain_numeral {base : Nat} (hbase : 1 < base) (hten : base ≤ 10) (n : Int) :
    Plain (numeral base n) := by
  have hbytes : ∀ d ∈ numeral base n, d = minus ∨ 48 ≤ d.toNat ∧ d.toNat < 48 + base := by
    intro d hd
    obtain hd | hd := List.mem_append.mp hd
    · left
      split at hd <;> simp_all
    · exact .inr (mem_utf8_toDigits hbase hten hd)
  constructor
  · intro h
    obtain h | h := hbytes comma h <;> simp [comma, minus] at h
  · intro h
    obtain h | h := hbytes backslash h <;> simp [backslash, minus] at h
    omega

/-! ## Items that tell something -/

/-- The value is one of the form. -/
inductive Value.Fits : Value → Form → Prop
  | flag : Fits (.flag true) .flag
  | text (bytes : Bytes) : Fits (.text bytes) .text
  | number (n : Int) {base : Nat} (hbase : 1 < base) (hten : base ≤ 10) :
      Fits (.number n) (.number base)

/-- What stands behind the name of an option with a value. -/
def Form.tail : Form → Value → Bytes
  | .text, .text bytes => equalsSign :: bytes
  | .number base, .number n => equalsSign :: numeral base n
  | _, _ => []

/-- The item that tells an option. -/
def Told.item (t : Told) : Bytes := utf8 t.key.name ++ t.key.form.tail t.value

/-- The name of an option, and the sign behind it. -/
def Key.start (key : Key) : Bytes := utf8 key.name ++ [equalsSign]

theorem item_text {key : Key} (hform : key.form = .text) (text : Bytes) :
    Told.item ⟨key, .text text⟩ = key.start ++ text := by
  simp [Told.item, hform, Form.tail, Key.start]

theorem item_number {key : Key} {base : Nat} (hform : key.form = .number base) (n : Int) :
    Told.item ⟨key, .number n⟩ = key.start ++ numeral base n := by
  simp [Told.item, hform, Form.tail, Key.start]

theorem Form.value?_tail {form : Form} {value : Value} (h : value.Fits form) :
    form.value? (form.tail value) = some value := by
  cases h with
  | flag => rfl
  | text bytes => simp [tail, value?]
  | number n hbase hten => simp [tail, value?, integer?_numeral hbase hten]

theorem Key.equalsSign_not_mem (key : Key) : equalsSign ∉ utf8 key.name := by
  cases key <;> decide

theorem Key.find?_name (key : Key) :
    (Key.all.find? fun other => utf8 other.name = utf8 key.name) = some key := by
  cases key <;> decide

theorem Key.plain_name (key : Key) : Plain (utf8 key.name) := by
  cases key <;> decide

theorem Key.plain_start (key : Key) : Plain key.start := by
  rw [start, plain_append key.plain_name]
  decide

theorem Form.tail_eq (form : Form) (value : Value) :
    form.tail value = [] ∨ ∃ bytes, form.tail value = equalsSign :: bytes := by
  unfold tail
  split <;> simp

/-- A text is written as it was read. (A number may have been read with zeros in front.) -/
theorem Form.eq_tail_of_text {bytes : Bytes} {value : Value}
    (h : Form.text.value? bytes = some value) : bytes = Form.text.tail value := by
  cases bytes with
  | nil => simp [value?] at h
  | cons b bytes =>
    obtain ⟨rfl, rfl⟩ : b = equalsSign ∧ .text bytes = value := by simpa [value?] using h
    rfl

theorem Form.plain_tail {form : Form} {value : Value} (h : value.Fits form)
    (htext : form ≠ .text) : Plain (form.tail value) := by
  cases h with
  | flag => simp [tail, Plain]
  | text bytes => simp at htext
  | number n hbase hten =>
    have hsign : Plain [equalsSign] := by decide
    exact (plain_append hsign).mpr (plain_numeral hbase hten n)

theorem told?_item {t : Told} (h : t.value.Fits t.key.form) : told? t.item = some t := by
  have hname : ∀ b ∈ utf8 t.key.name, decide (b ≠ equalsSign) = true := by
    intro b hb
    have hne : b ≠ equalsSign := fun heq => t.key.equalsSign_not_mem (heq ▸ hb)
    simpa using hne
  have hbefore : t.item.takeWhile (· ≠ equalsSign) = utf8 t.key.name := by
    rw [Told.item, List.takeWhile_append_of_pos hname]
    obtain htail | ⟨bytes, htail⟩ := t.key.form.tail_eq t.value <;> simp [htail]
  have hbehind : t.item.dropWhile (· ≠ equalsSign) = t.key.form.tail t.value := by
    rw [Told.item, List.dropWhile_append_of_pos hname]
    obtain htail | ⟨bytes, htail⟩ := t.key.form.tail_eq t.value <;> simp [htail]
  unfold told?
  rw [hbefore, hbehind, Key.find?_name, Option.bind_some, Form.value?_tail h, Option.map_some]

theorem eq_item_of_told? {item : Bytes} {t : Told} (h : told? item = some t)
    (htext : t.key.form = .text) : item = t.item := by
  unfold told? at h
  obtain ⟨key, hfind, h⟩ := Option.bind_eq_some_iff.mp h
  obtain ⟨value, hvalue, rfl⟩ := Option.map_eq_some_iff.mp h
  have hname : utf8 key.name = item.takeWhile (· ≠ equalsSign) := by
    simpa using List.find?_some hfind
  have htail : item.dropWhile (· ≠ equalsSign) = key.form.tail value := by
    rw [htext] at hvalue ⊢
    exact Form.eq_tail_of_text hvalue
  rw [Told.item, hname, ← htail, List.takeWhile_append_dropWhile]

theorem plain_item {t : Told} (h : t.value.Fits t.key.form) (htext : t.key.form ≠ .text) :
    Plain t.item := by
  rw [Told.item, plain_append t.key.plain_name]
  exact Form.plain_tail h htext

/-! ## Texts that are read back -/

/-- The options, item by item. -/
def textOf (told : List Told) : Bytes := [comma].intercalate (told.map Told.item)

/-- No item is taken apart. -/
def Kept : List Told → Prop
  | [] => True
  | t :: told => (Plain t.item ∨ told = [] ∧ EndsWithBackslash t.item) ∧ Kept told

theorem reads?_of_plain {item : Bytes} (h : Plain item) (rest : Bytes) :
    reads? (item ++ comma :: rest) =
      (told? item).bind fun t => (reads? rest).map fun told => t :: told := by
  unfold reads?
  rw [items_append_comma h, List.mapM_cons]
  cases told? item <;> cases (items rest).mapM told? <;> rfl

theorem whole_of_reads? {t : Told} {told : List Told} {rest : Bytes}
    (hfits : t.value.Fits t.key.form) (hrest : rest = [] ∨ ∃ more, rest = comma :: more)
    (h : reads? (t.item ++ rest) = some (t :: told)) : Whole t.item rest := by
  by_cases htext : t.key.form = .text
  · cases hitems : items (t.item ++ rest) with
    | nil => simp [reads?, hitems] at h
    | cons head others =>
      have hhead : told? head = some t := by
        unfold reads? at h
        rw [hitems, List.mapM_cons] at h
        cases hhead : told? head <;> cases hothers : others.mapM told? <;> simp_all
      have heq := eq_item_of_told? hhead htext
      exact (whole_of_head hrest 0 (by simp [hitems, heq])).2
  · exact .inl (plain_item hfits htext)

/-- A text of options is read as they are just if no item is taken apart. -/
theorem reads?_textOf {told : List Told} (hne : told ≠ [])
    (hfits : ∀ t ∈ told, t.value.Fits t.key.form) :
    reads? (textOf told) = some told ↔ Kept told := by
  induction told with
  | nil => simp at hne
  | cons t told ih =>
    have ht := hfits t List.mem_cons_self
    have htold := told?_item ht
    cases told with
    | nil =>
      have htext : textOf [t] = t.item := by simp [textOf]
      have hkept : Kept [t] ↔ Plain t.item ∨ EndsWithBackslash t.item := by simp [Kept]
      rw [htext, hkept]
      constructor
      · intro h
        have hwhole := whole_of_reads? ht (.inl rfl) (by rwa [List.append_nil])
        exact hwhole.imp_right And.right
      · intro h
        have hitems : items t.item = [t.item] := h.elim items_of_plain items_of_endsWithBackslash
        simp [reads?, hitems, htold]
    | cons next told =>
      have htext : textOf (t :: next :: told) = t.item ++ comma :: textOf (next :: told) := by
        simp [textOf]
      have hkept : Kept (t :: next :: told) ↔ Plain t.item ∧ Kept (next :: told) := by
        simp [Kept]
      have hrest := ih (by simp) fun other hother => hfits other (List.mem_cons_of_mem _ hother)
      rw [htext, hkept, ← hrest]
      constructor
      · intro h
        have hplain : Plain t.item := by
          obtain hplain | ⟨hnil, -⟩ := whole_of_reads? ht (.inr ⟨_, rfl⟩) h
          · exact hplain
          · simp at hnil
        rw [reads?_of_plain hplain, htold] at h
        exact ⟨hplain, by simpa using h⟩
      · rintro ⟨hplain, h⟩
        rw [reads?_of_plain hplain, htold, h]
        rfl

end MountOptions

end Fuse
