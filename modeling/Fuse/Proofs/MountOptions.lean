-- The text for the helper program tells each option in effect once, with the value that was set
-- last, if the texts of the caller are plain; and only then, but for a backslash at its end.
import Fuse.Proofs.Items

namespace Fuse

namespace MountOptions

/-! ## What the options tell -/

/-- The value of an option, if it has one. -/
def held (o : MountOptions) : Key → Option Value
  | .fd => none
  | .fsname => o.fsName.map fun name => .text (utf8 name)
  | .subtype => o.subtype.map fun name => .text (utf8 name)
  | .userId => o.uid.map fun user => .number user.toNat
  | .groupId => o.gid.map fun group => .number group.toNat
  | .rootmode => o.rootmode.map fun bits => .number bits.toNat
  | .ro => some (.flag o.readOnly)
  | .nonempty => some (.flag o.nonempty)
  | .allowOther => some (.flag o.allowOther)
  | .allowRoot => some (.flag o.allowRoot)
  | .defaultPermissions => some (.flag o.defaultPermissions)
  | .maxRead => o.maxRead.map fun size => .number size.toNat

/-- Setting an option gives it the value, and leaves the others. -/
theorem held_set (o : MountOptions) (setting : Setting) (key : Key) :
    (o.set setting).held key = (setting.value? key).or (o.held key) := by
  cases setting <;> cases key <;> rfl

theorem lastSet_cons (setting : Setting) (settings : List Setting) (key : Key) :
    lastSet (setting :: settings) key = (lastSet settings key).or (setting.value? key) := by
  simp [lastSet, List.findSome?_append]

theorem held_setAll (o : MountOptions) (settings : List Setting) (key : Key) :
    (o.setAll settings).held key = (lastSet settings key).or (o.held key) := by
  induction settings generalizing o with
  | nil => rfl
  | cons setting settings ih =>
    have hcons : o.setAll (setting :: settings) = (o.set setting).setAll settings := rfl
    rw [hcons, ih, held_set, lastSet_cons, Option.or_assoc]

theorem customOptions_setAll {settings : List Setting}
    (h : ∀ text, Setting.customOptions text ∉ settings) (o : MountOptions) :
    (o.setAll settings).customOptions = o.customOptions := by
  induction settings generalizing o with
  | nil => rfl
  | cons setting settings ih =>
    have hcons : o.setAll (setting :: settings) = (o.set setting).setAll settings := rfl
    have hset : (o.set setting).customOptions = o.customOptions := by
      cases setting with
      | customOptions text => exact absurd List.mem_cons_self (h text)
      | _ => rfl
    rw [hcons, ih (fun text htext => h text (List.mem_cons_of_mem _ htext)), hset]

/-- The value of an option as it is told. -/
def current (o : MountOptions) (process : Owner) (key : Key) : Option Value :=
  ((o.held key).or (standard process key)).filter (· ≠ .flag false)

/-- The value that was set last is the one that is told. -/
theorem current_setAll (process : Owner) (settings : List Setting) (key : Key) :
    (setAll {} settings).current process key = inEffect process settings key := by
  unfold current inEffect
  rw [held_setAll]
  cases lastSet settings key with
  | some value => rfl
  | none => cases key <;> rfl

theorem fits_of_flag {on : Bool} (h : Value.flag on ≠ .flag false) : (Value.flag on).Fits .flag := by
  cases on with
  | false => exact absurd rfl h
  | true => exact .flag

theorem fits_of_held {o : MountOptions} {key : Key} {value : Value} (h : o.held key = some value)
    (hon : value ≠ .flag false) : value.Fits key.form := by
  cases key with
  | fd => cases h
  | fsname | subtype =>
    obtain ⟨name, -, rfl⟩ := Option.map_eq_some_iff.mp h
    exact .text _
  | userId | groupId | rootmode | maxRead =>
    obtain ⟨n, -, rfl⟩ := Option.map_eq_some_iff.mp h
    exact .number _ (by decide) (by decide)
  | ro | nonempty | allowOther | allowRoot | defaultPermissions =>
    cases h
    exact fits_of_flag hon

theorem fits_of_standard {process : Owner} {key : Key} {value : Value}
    (h : standard process key = some value) : value.Fits key.form := by
  cases key with
  | fsname =>
    cases h
    exact .text _
  | userId | groupId | rootmode =>
    cases h
    exact .number _ (by decide) (by decide)
  | _ => cases h

theorem fits_of_current {o : MountOptions} {process : Owner} {key : Key} {value : Value}
    (h : o.current process key = some value) : value.Fits key.form := by
  obtain ⟨h, hon⟩ := Option.filter_eq_some_iff.mp h
  obtain h | ⟨-, h⟩ := Option.or_eq_some_iff.mp h
  · exact fits_of_held h (by simpa using hon)
  · exact fits_of_standard h

/-! ## What the texts say -/

/-- The options as they are told. -/
def telling (o : MountOptions) (process : Owner) (keys : List Key) : List Told :=
  keys.filterMap fun key => (o.current process key).map fun value => ⟨key, value⟩

theorem telling_setAll (process : Owner) (settings : List Setting) (keys : List Key) :
    (setAll {} settings).telling process keys = effects process settings keys := by
  simp only [telling, effects, current_setAll]

/-- The item of an option that is told, as a list of one. -/
def shown (o : MountOptions) (process : Owner) (key : Key) : List Bytes :=
  (o.current process key).toList.map fun value => Told.item ⟨key, value⟩

theorem map_item_telling (o : MountOptions) (process : Owner) (keys : List Key) :
    (o.telling process keys).map Told.item = keys.flatMap (o.shown process) := by
  rw [telling, List.filterMap_eq_flatMap_toList, List.map_flatMap]
  congr 1
  funext key
  unfold shown
  cases o.current process key <;> rfl

theorem shown_flag {o : MountOptions} {process : Owner} {key : Key} {on : Bool}
    (hform : key.form = .flag) (hheld : o.held key = some (.flag on)) :
    o.shown process key = (whenSet on key.name).map utf8 := by
  unfold shown current
  rw [hheld]
  cases on <;> simp [whenSet, Told.item, hform, Form.tail, Option.filter]

theorem shown_of_current {o : MountOptions} {process : Owner} {key : Key} {value : Value}
    (h : o.current process key = some value) : o.shown process key = [Told.item ⟨key, value⟩] := by
  simp [shown, h]

theorem current_number {o : MountOptions} {process : Owner} {key : Key} {n : Int}
    (h : (o.held key).or (standard process key) = some (.number n)) :
    o.current process key = some (.number n) := by
  simp [current, h, Option.filter]

theorem current_fsname (o : MountOptions) (process : Owner) :
    o.current process .fsname = some (.text (utf8 o.source)) := by
  cases h : o.fsName <;> simp [current, held, standard, source, h, Option.filter]

theorem current_userId (o : MountOptions) (process : Owner) :
    o.current process .userId = some (.number (o.uid.getD process.uid).toNat) := by
  apply current_number
  cases h : o.uid <;> simp [held, standard, h]

theorem map_utf8_ownerOptions (o : MountOptions) (process : Owner) :
    (o.ownerOptions process).map utf8 =
      [Key.userId, .groupId, .rootmode].flatMap (o.shown process) := by
  have huser := o.current_userId process
  have hgroup : o.current process .groupId = some (.number (o.gid.getD process.gid).toNat) := by
    apply current_number
    cases h : o.gid <;> simp [held, standard, h]
  have hmode : o.current process .rootmode = some (.number (o.rootmode.getD 0o40000).toNat) := by
    apply current_number
    cases h : o.rootmode <;> simp [held, standard, h]
  simp only [List.flatMap_cons, List.flatMap_nil, shown_of_current huser, shown_of_current hgroup,
    shown_of_current hmode]
  rw [item_number rfl, item_number rfl, item_number rfl]
  simp only [ownerOptions, rootmodeText, List.map_cons, List.map_nil, utf8_append, numeral_natCast,
    Nat.toString_eq_ofList_toDigits]
  rfl

theorem map_utf8_commonOptions (o : MountOptions) (process : Owner) :
    o.commonOptions.map utf8 =
      [Key.allowOther, .allowRoot, .defaultPermissions, .maxRead].flatMap (o.shown process) := by
  have hread : o.shown process .maxRead =
      (o.maxRead.toList.map fun bytes => "max_read=" ++ toString bytes.toNat).map utf8 := by
    cases h : o.maxRead with
    | none => simp [shown, current, held, standard, h]
    | some bytes =>
      have hcurrent : o.current process .maxRead = some (.number bytes.toNat) := by
        apply current_number
        simp [held, h]
      rw [shown_of_current hcurrent, item_number rfl, numeral_natCast,
        ← Nat.toString_eq_ofList_toDigits, Option.toList_some, List.map_cons, List.map_cons,
        utf8_append]
      rfl
  have hother : o.shown process .allowOther = (whenSet o.allowOther "allow_other").map utf8 :=
    shown_flag rfl rfl
  have hroot : o.shown process .allowRoot = (whenSet o.allowRoot "allow_root").map utf8 :=
    shown_flag rfl rfl
  have hpermissions : o.shown process .defaultPermissions =
      (whenSet o.defaultPermissions "default_permissions").map utf8 :=
    shown_flag rfl rfl
  simp [commonOptions, hother, hroot, hpermissions, hread]

theorem shown_fsname (o : MountOptions) (process : Owner) :
    o.shown process .fsname = [utf8 ("fsname=" ++ o.source)] := by
  rw [shown_of_current (o.current_fsname process), item_text rfl, utf8_append]
  rfl

theorem shown_subtype (o : MountOptions) (process : Owner) :
    o.shown process .subtype =
      (o.subtype.toList.map fun subtype => "subtype=" ++ subtype).map utf8 := by
  cases h : o.subtype with
  | none => simp [shown, current, held, standard, h]
  | some name =>
    have hcurrent : o.current process .subtype = some (.text (utf8 name)) := by
      simp [current, held, h, Option.filter]
    rw [shown_of_current hcurrent, item_text rfl, Option.toList_some, List.map_cons, List.map_cons,
      utf8_append]
    rfl

theorem render_of_no_custom {o : MountOptions} (hcustom : o.customOptions = none)
    (options : List String) : o.render options = [comma].intercalate (options.map utf8) := by
  unfold render
  rw [hcustom, ← utf8_intercalate]
  exact toList_toUTF8 _

theorem helperText_eq {o : MountOptions} (hcustom : o.customOptions = none) (process : Owner) :
    o.helperText process = textOf (o.telling process helperKeys) := by
  rw [helperText, render_of_no_custom hcustom, textOf, map_item_telling]
  simp only [List.map_append, List.map_cons, map_utf8_ownerOptions o process,
    map_utf8_commonOptions o process, ← shown_subtype o process]
  have hro : o.shown process .ro = (whenSet o.readOnly "ro").map utf8 := shown_flag rfl rfl
  have hnonempty : o.shown process .nonempty = (whenSet o.nonempty "nonempty").map utf8 :=
    shown_flag rfl rfl
  simp [helperKeys, closingKeys, shown_fsname, hro, hnonempty]

theorem kernelText_eq {o : MountOptions} (hcustom : o.customOptions = none) (process : Owner)
    (fd : Int32) :
    o.kernelText process fd =
      textOf (⟨.fd, .number fd.toInt⟩ :: o.telling process sharedKeys) := by
  have hfd : utf8 ("fd=" ++ toString fd.toInt) = Told.item ⟨.fd, .number fd.toInt⟩ := by
    rw [item_number rfl, utf8_append, utf8_toString]
    rfl
  rw [kernelText, render_of_no_custom hcustom, textOf, List.map_cons, List.map_cons,
    map_item_telling, hfd]
  simp only [List.map_append, map_utf8_ownerOptions o process, map_utf8_commonOptions o process]
  simp [sharedKeys]

/-! ## Options in effect -/

theorem effects_append (process : Owner) (settings : List Setting) (keys others : List Key) :
    effects process settings (keys ++ others) =
      effects process settings keys ++ effects process settings others := by
  simp [effects]

theorem mem_effects {process : Owner} {settings : List Setting} {keys : List Key} {t : Told} :
    t ∈ effects process settings keys ↔
      t.key ∈ keys ∧ inEffect process settings t.key = some t.value := by
  unfold effects
  rw [List.mem_filterMap]
  constructor
  · rintro ⟨key, hkey, ht⟩
    obtain ⟨value, hvalue, rfl⟩ := Option.map_eq_some_iff.mp ht
    exact ⟨hkey, hvalue⟩
  · rintro ⟨hkey, hvalue⟩
    exact ⟨t.key, hkey, by rw [hvalue]; rfl⟩

theorem map_key_effects (process : Owner) (settings : List Setting) (keys : List Key) :
    (effects process settings keys).map (·.key) =
      keys.filter fun key => (inEffect process settings key).isSome := by
  induction keys with
  | nil => rfl
  | cons key keys ih =>
    unfold effects at ih ⊢
    cases h : inEffect process settings key <;> simp [h, ih]

theorem filter_effects (process : Owner) (settings : List Setting) (keys wanted : List Key) :
    (effects process settings keys).filter (fun t => t.key ∈ wanted) =
      effects process settings (keys.filter (· ∈ wanted)) := by
  induction keys with
  | nil => rfl
  | cons key keys ih =>
    unfold effects at ih ⊢
    by_cases hkey : key ∈ wanted <;>
      cases h : inEffect process settings key <;> simp [h, hkey, ih]

theorem fits_of_inEffect {process : Owner} {settings : List Setting} {key : Key} {value : Value}
    (h : inEffect process settings key = some value) : value.Fits key.form := by
  rw [← current_setAll] at h
  exact fits_of_current h

theorem inEffect_flag {process : Owner} {settings : List Setting} {key : Key}
    (hform : key.form = .flag) {value : Value} :
    inEffect process settings key = some value ↔
      value = .flag true ∧ lastSet settings key = some (.flag true) := by
  have hstandard : standard process key = none := by cases key <;> simp_all [Key.form, standard]
  constructor
  · intro h
    have hfits := fits_of_inEffect h
    rw [hform] at hfits
    cases hfits
    have hset := (Option.filter_eq_some_iff.mp h).1
    exact ⟨rfl, by rwa [hstandard, Option.or_none] at hset⟩
  · rintro ⟨rfl, hset⟩
    simp [inEffect, hset, Option.filter]

/-! ## Texts that are kept -/

theorem kept_append_of_plain {front : List Told} (h : ∀ t ∈ front, Plain t.item)
    (told : List Told) : Kept (front ++ told) ↔ Kept told := by
  induction front with
  | nil => rfl
  | cons t front ih =>
    have ht : Plain t.item := h t List.mem_cons_self
    simp [Kept, ht, ih fun t ht => h t (List.mem_cons_of_mem _ ht)]

theorem kept_of_plain {told : List Told} (h : ∀ t ∈ told, Plain t.item) : Kept told := by
  have happend := (kept_append_of_plain h []).mpr trivial
  rwa [List.append_nil] at happend

theorem fits_of_mem_effects {process : Owner} {settings : List Setting} {keys : List Key}
    {t : Told} (h : t ∈ effects process settings keys) : t.value.Fits t.key.form :=
  fits_of_inEffect (mem_effects.mp h).2

theorem inEffect_fsname (process : Owner) (settings : List Setting) :
    inEffect process settings .fsname = some (.text (utf8 (setAll {} settings).source)) := by
  rw [← current_setAll, current_fsname]

theorem plain_of_mem_effects {process : Owner} {settings : List Setting} {keys : List Key}
    (hkeys : ∀ key ∈ keys, key.form ≠ .text) :
    ∀ t ∈ effects process settings keys, Plain t.item := by
  intro t ht
  exact plain_item (fits_of_mem_effects ht) (hkeys t.key (mem_effects.mp ht).1)

theorem kept_subtype (process : Owner) (settings : List Setting) :
    Kept (effects process settings ([.subtype] ++ closingKeys)) ↔
      ∀ text, inEffect process settings .subtype = some (.text text) →
        Plain text ∨ effects process settings closingKeys = [] ∧ EndsWithBackslash text := by
  have hclosing : Kept (effects process settings closingKeys) :=
    kept_of_plain (plain_of_mem_effects (by decide))
  rw [effects_append]
  cases h : inEffect process settings .subtype with
  | none =>
    have heffects : effects process settings [.subtype] = [] := by simp [effects, h]
    simp [heffects, hclosing]
  | some value =>
    cases fits_of_inEffect h with
    | text text =>
      have heffects : effects process settings [.subtype] = [⟨.subtype, .text text⟩] := by
        simp [effects, h]
      rw [heffects, List.singleton_append, Kept, item_text rfl,
        plain_append (Key.plain_start _), endsWithBackslash_append (Key.plain_start _)]
      simp [hclosing]

theorem kept_effects (process : Owner) (settings : List Setting) :
    Kept (effects process settings helperKeys) ↔
      (∀ text, inEffect process settings .fsname = some (.text text) → Plain text) ∧
      ∀ text, inEffect process settings .subtype = some (.text text) →
        Plain text ∨ effects process settings closingKeys = [] ∧ EndsWithBackslash text := by
  have hkeys : helperKeys =
      [.fsname] ++ ([.userId, .groupId, .rootmode] ++ ([.subtype] ++ closingKeys)) := rfl
  have howner : ∀ t ∈ effects process settings [.userId, .groupId, .rootmode], Plain t.item :=
    plain_of_mem_effects (by decide)
  have hname := inEffect_fsname process settings
  have heffects : effects process settings [.fsname] =
      [⟨.fsname, .text (utf8 (setAll {} settings).source)⟩] := by
    simp [effects, hname]
  have huser := (current_setAll process settings .userId).symm.trans (current_userId _ process)
  have hrest : effects process settings
      ([.userId, .groupId, .rootmode] ++ ([.subtype] ++ closingKeys)) ≠ [] :=
    List.ne_nil_of_mem (mem_effects (t := ⟨.userId, _⟩).mpr ⟨by simp, huser⟩)
  rw [hkeys, effects_append, heffects, List.singleton_append, Kept, item_text rfl,
    plain_append (Key.plain_start _), ← kept_subtype]
  rw [effects_append _ _ [.userId, .groupId, .rootmode]] at hrest ⊢
  simp only [hrest, false_and, or_false]
  rw [kept_append_of_plain howner]
  simp [hname]

/-! ## Reading what was set -/

/-- The text for the helper program is read as one item for each option in effect, with the value
that was set last, if and only if the name and the subtype are plain, but that a backslash at the
end of the whole text does no harm: the texts are written as they are, and a comma in one of them
begins a new option. The kernel is told no text, so it always reads what was set, and it is told
the same as the helper program. -/
theorem the_helper_reads_what_was_set_if_the_texts_are_plain (process : Owner)
    (settings : List Setting) (hcustom : ∀ text, Setting.customOptions text ∉ settings) :
    let o := setAll {} settings
    let told := effects process settings
    (reads? (o.helperText process) = some (told helperKeys) ↔
      (∀ text, inEffect process settings .fsname = some (.text text) → Plain text) ∧
      ∀ text, inEffect process settings .subtype = some (.text text) →
        Plain text ∨ told closingKeys = [] ∧ EndsWithBackslash text) ∧
    (∀ fd : Int32, reads? (o.kernelText process fd) =
      some (⟨.fd, .number fd.toInt⟩ :: told sharedKeys)) ∧
    ((told helperKeys).map (·.key)).Nodup ∧
    (told helperKeys).filter (fun t => t.key ∈ sharedKeys) = told sharedKeys ∧
    ∀ value, ⟨.allowOther, value⟩ ∈ told helperKeys ↔
      value = .flag true ∧ lastSet settings .allowOther = some (.flag true) := by
  intro o told
  have hnone : o.customOptions = none := customOptions_setAll hcustom {}
  have hfits : ∀ keys, ∀ t ∈ told keys, t.value.Fits t.key.form := fun _ _ => fits_of_mem_effects
  refine ⟨?_, fun fd => ?_, ?_, ?_, fun value => ?_⟩
  · have hname := inEffect_fsname process settings
    have hne : told helperKeys ≠ [] :=
      List.ne_nil_of_mem (mem_effects (t := ⟨.fsname, _⟩).mpr ⟨by simp [helperKeys], hname⟩)
    rw [helperText_eq hnone, telling_setAll, reads?_textOf hne (hfits helperKeys), kept_effects]
  · have hshared : ∀ t ∈ told sharedKeys, Plain t.item := plain_of_mem_effects (by decide)
    have hfd : (Value.number fd.toInt).Fits Key.fd.form := .number _ (by decide) (by decide)
    rw [kernelText_eq hnone, telling_setAll, reads?_textOf (by simp)]
    · exact ⟨.inl (plain_item hfd (by simp [Key.form])), kept_of_plain hshared⟩
    · exact List.forall_mem_cons.mpr ⟨hfd, hfits sharedKeys⟩
  · rw [map_key_effects]
    exact List.Pairwise.filter _ (by decide)
  · rw [filter_effects]
    rfl
  · rw [mem_effects, inEffect_flag rfl]
    simp [helperKeys, closingKeys]

/-- A name, a subtype, and two options that are set twice. -/
theorem the_last_settings_are_read :
    let settings : List Setting := [.fsName "old", .uid 1000, .gid 100, .allowOther true,
      .fsName "demo", .subtype "hellofs", .maxRead 65536, .allowOther false]
    (∀ text, Setting.customOptions text ∉ settings) ∧
      reads? ((setAll {} settings).helperText ⟨0, 0⟩) = some [
        ⟨.fsname, .text (utf8 "demo")⟩, ⟨.userId, .number 1000⟩, ⟨.groupId, .number 100⟩,
        ⟨.rootmode, .number 0o40000⟩, ⟨.subtype, .text (utf8 "hellofs")⟩,
        ⟨.maxRead, .number 65536⟩] := by
  intro settings
  have hcustom : ∀ text, Setting.customOptions text ∉ settings := by simp [settings]
  have hlaw := the_helper_reads_what_was_set_if_the_texts_are_plain ⟨0, 0⟩ settings hcustom
  have hfsname : inEffect ⟨0, 0⟩ settings .fsname = some (.text (utf8 "demo")) := by
    decide
  have hsubtype : inEffect ⟨0, 0⟩ settings .subtype = some (.text (utf8 "hellofs")) := by
    decide
  have heffects : effects ⟨0, 0⟩ settings helperKeys = [
      ⟨.fsname, .text (utf8 "demo")⟩, ⟨.userId, .number 1000⟩, ⟨.groupId, .number 100⟩,
      ⟨.rootmode, .number 0o40000⟩, ⟨.subtype, .text (utf8 "hellofs")⟩,
      ⟨.maxRead, .number 65536⟩] := by
    decide
  rw [← heffects]
  refine ⟨hcustom, hlaw.1.mpr ⟨?_, ?_⟩⟩
  · intro text htext
    obtain rfl : utf8 "demo" = text := by simpa [hfsname] using htext
    decide
  · intro text htext
    obtain rfl : utf8 "hellofs" = text := by simpa [hsubtype] using htext
    left
    decide

/-- A name with a comma in it lets all users in, though this was never set. -/
theorem a_comma_in_the_name_sets_an_option :
    let settings : List Setting := [.uid 1000, .gid 100, .fsName "demo,allow_other"]
    lastSet settings .allowOther = none ∧
      effects ⟨0, 0⟩ settings helperKeys = [
        ⟨.fsname, .text (utf8 "demo,allow_other")⟩, ⟨.userId, .number 1000⟩,
        ⟨.groupId, .number 100⟩, ⟨.rootmode, .number 0o40000⟩] ∧
      reads? ((setAll {} settings).helperText ⟨0, 0⟩) = some [
        ⟨.fsname, .text (utf8 "demo")⟩, ⟨.allowOther, .flag true⟩, ⟨.userId, .number 1000⟩,
        ⟨.groupId, .number 100⟩, ⟨.rootmode, .number 0o40000⟩] := by
  intro settings
  have heffects : effects ⟨0, 0⟩ settings helperKeys = [
      ⟨.fsname, .text (utf8 "demo,allow_other")⟩, ⟨.userId, .number 1000⟩,
      ⟨.groupId, .number 100⟩, ⟨.rootmode, .number 0o40000⟩] := by
    decide
  refine ⟨rfl, heffects, ?_⟩
  rw [helperText_eq rfl, telling_setAll, heffects]
  decide +kernel

end MountOptions

end Fuse
