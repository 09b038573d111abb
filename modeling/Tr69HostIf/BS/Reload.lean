import Tr69HostIf.BS.Precedence

/-!
# A firmware reload

* `lastOf_overlay` : the device's items on top of the partner's give the device's value, else the partner's;
* `firmware_reload` : what a load leaves of every parameter, and that a second load changes nothing.
-/

namespace Tr69HostIf.BS
open Store

/-! ## The overlay -/

/-- The names of the items. -/
def names (config : Items) : List Text := config.map fun p => p.1.chars

theorem map_fst_pairs (config : Items) : (pairs config).map Prod.fst = names config := by
  simp [pairs, names]

theorem getObjectItem_isSome (config : Items) (name : Text) :
    (getObjectItem config name).isSome = true ↔ ∃ a ∈ names config, foldCase a = foldCase name := by
  simp [getObjectItem, names, List.find?_isSome]

theorem names_append (c c' : Items) : names (c ++ c') = names c ++ names c' := List.map_append

section
variable {U : Text → Prop} (hU : ∀ a b, U a → U b → foldCase a = foldCase b → a = b)

include hU in
/-- Where names agree up to case only when they are equal, a replaced item keeps its name. -/
theorem names_replaceItem {config : Items} (hc : ∀ a ∈ names config, U a) {key : CString} (hk : U key.chars)
    (value : CString) : names (replaceItem key value config) = names config := by
  induction config with
  | nil => rfl
  | cons p config ih =>
      have hp : U p.1.chars := hc _ List.mem_cons_self
      rw [replaceItem]
      split
      · next hfold =>
        show key.chars :: names config = p.1.chars :: names config
        rw [hU p.1.chars key.chars hp hk hfold]
      · show p.1.chars :: names (replaceItem key value config) = p.1.chars :: names config
        rw [ih fun a ha => hc a (List.mem_cons_of_mem _ ha)]

include hU in
theorem lastOf_replaceItem {config : Items} (hc : ∀ a ∈ names config, U a) (hnodup : (names config).Nodup)
    {key : CString} (hk : U key.chars) (hmem : key.chars ∈ names config) (value : CString) (k : Text) :
    lastOf (pairs (replaceItem key value config)) k =
      if k = key.chars then some value.chars else lastOf (pairs config) k := by
  induction config with
  | nil => cases hmem
  | cons p config ih =>
      have hp : U p.1.chars := hc _ List.mem_cons_self
      have hc' : ∀ a ∈ names config, U a := fun a ha => hc a (List.mem_cons_of_mem _ ha)
      obtain ⟨hnot, hnodup'⟩ : p.1.chars ∉ names config ∧ (names config).Nodup := List.nodup_cons.mp hnodup
      rw [replaceItem]
      split
      · next hfold =>
        have hpk : p.1.chars = key.chars := hU _ _ hp hk hfold
        have hnone : lastOf (pairs config) key.chars = none := by
          rw [lastOf_eq_none, map_fst_pairs, ← hpk]
          exact hnot
        show (lastOf (pairs config) k).or (if k = key.chars then some value.chars else none) =
          if k = key.chars then some value.chars else (lastOf (pairs config) k).or (if k = p.1.chars then _ else none)
        by_cases hkey : k = key.chars
        · rw [if_pos hkey, if_pos hkey, hkey, hnone]
          rfl
        · rw [if_neg hkey, if_neg hkey, hpk, if_neg hkey]
      · next hfold =>
        have hpk : p.1.chars ≠ key.chars := fun h => hfold (by rw [h])
        have hmem' : key.chars ∈ names config := by
          rcases List.mem_cons.mp hmem with h | h
          · exact absurd h.symm hpk
          · exact h
        show (lastOf (pairs (replaceItem key value config)) k).or (if k = p.1.chars then _ else none) =
          if k = key.chars then some value.chars else (lastOf (pairs config) k).or (if k = p.1.chars then _ else none)
        rw [ih hc' hnodup' hmem']
        by_cases hkey : k = key.chars
        · rw [if_pos hkey, if_pos hkey]
          rfl
        · rw [if_neg hkey, if_neg hkey]

include hU in
/-- One turn of the overlay loop. -/
theorem overlayItem_spec {config : Items} (hc : ∀ a ∈ names config, U a) (hnodup : (names config).Nodup)
    (p : CString × CString) (hp : U p.1.chars) :
    (∀ a, a ∈ names (overlayItem config p) ↔ a ∈ names config ∨ a = p.1.chars) ∧
      (names (overlayItem config p)).Nodup ∧
      ∀ k, lastOf (pairs (overlayItem config p)) k =
        if k = p.1.chars then some p.2.chars else lastOf (pairs config) k := by
  unfold overlayItem
  split
  · next hsome =>
    obtain ⟨a, ha, hfold⟩ := (getObjectItem_isSome config _).mp hsome
    have hmem : p.1.chars ∈ names config := by
      rw [← hU a p.1.chars (hc a ha) hp hfold]
      exact ha
    rw [names_replaceItem hU hc hp]
    refine ⟨fun a => ⟨Or.inl, fun h => ?_⟩, hnodup, lastOf_replaceItem hU hc hnodup hp hmem p.2⟩
    rcases h with h | rfl
    · exact h
    · exact hmem
  · next hsome =>
    have hnot : p.1.chars ∉ names config := fun h => hsome ((getObjectItem_isSome config _).mpr ⟨_, h, rfl⟩)
    rw [names_append]
    refine ⟨fun a => by simp [names], ?_, fun k => ?_⟩
    · rw [List.nodup_append]
      refine ⟨hnodup, by simp [names], fun a ha b hb => ?_⟩
      rw [show names [p] = [p.1.chars] from rfl, List.mem_singleton] at hb
      rw [hb]
      rintro rfl
      exact hnot ha
    · rw [pairs, List.map_append]
      exact lastOf_concat _ _ k

include hU in
/-- **The overlay gives the device's value, else the partner's.** -/
theorem overlay_spec {P D : Items} (hP : ∀ a ∈ names P, U a) (hD : ∀ a ∈ names D, U a) (hnodup : (names P).Nodup) :
    (∀ a, a ∈ names (D.foldl overlayItem P) ↔ a ∈ names P ∨ a ∈ names D) ∧
      ∀ k, lastOf (pairs (D.foldl overlayItem P)) k = (lastOf (pairs D) k).or (lastOf (pairs P) k) := by
  induction D generalizing P with
  | nil => exact ⟨fun a => by simp [names], fun k => by simp [pairs, lastOf]⟩
  | cons d D ih =>
      have hd : U d.1.chars := hD _ List.mem_cons_self
      obtain ⟨hmem, hnodup', hlast⟩ := overlayItem_spec hU hP hnodup d hd
      have hP' : ∀ a ∈ names (overlayItem P d), U a := by
        intro a ha
        rcases (hmem a).mp ha with ha | rfl
        · exact hP a ha
        · exact hd
      obtain ⟨hmem', hlast'⟩ := ih hP' (fun a ha => hD a (List.mem_cons_of_mem _ ha)) hnodup'
      refine ⟨fun a => ?_, fun k => ?_⟩
      · rw [List.foldl_cons, hmem' a, hmem a]
        show _ ↔ a ∈ names P ∨ a ∈ d.1.chars :: names D
        rw [List.mem_cons, or_assoc]
      · rw [List.foldl_cons, hlast' k, hlast k]
        show _ = ((lastOf (pairs D) k).or (if k = d.1.chars then some d.2.chars else none)).or _
        rw [Option.or_assoc]
        by_cases hk : k = d.1.chars
        · rw [if_pos hk, if_pos hk]
          rfl
        · rw [if_neg hk, if_neg hk]
          rfl

end

/-! ## What a load keeps of a record -/

/-- What has been set over the firmware's value. -/
def SameOver (r r' : JournalData) : Prop := r'.updatedValue = r.updatedValue ∧ r'.updatedSource = r.updatedSource

section
variable {w : World} {key value : Text} {s t : XBSStore}

theorem RawStep.keeps_over (hs : RawStep w key value .default s t) {k : Text} {r : JournalData}
    (hr : s.journal.dict.lookup k = some r) : ∃ r', t.journal.dict.lookup k = some r' ∧ SameOver r r' := by
  have hnew : ∀ u : XBSStore, u.journal = s.journal →
      ∃ r', (setJournal w.ok key value .default u).journal.dict.lookup k = some r' ∧ SameOver r r' := by
    intro u hu
    show ∃ r', (u.journal.dict.insert key _).lookup k = some r' ∧ SameOver r r'
    rw [hu, lookup_insert_ite]
    by_cases hk : k = key
    · subst hk
      rw [if_pos rfl, hr]
      exact ⟨_, rfl, rfl, rfl⟩
    · rw [if_neg hk]
      exact ⟨r, hr, rfl, rfl⟩
  cases hs with
  | append hi => exact hnew _ rfl
  | same hi hne heq hs => exact ⟨r, hr, rfl, rfl⟩
  | sameJournal hi hne heq hs => exact hnew _ rfl
  | inactive hi hd hj => exact hnew _ rfl
  | rewrite hi hj => exact hnew _ rfl

theorem loadItems_keeps_over (config : Items) {k : Text} {r : JournalData} (hr : s.journal.dict.lookup k = some r) :
    ∃ r', (loadItems w.ok config s).journal.dict.lookup k = some r' ∧ SameOver r r' := by
  induction config generalizing s r with
  | nil => exact ⟨r, hr, rfl, rfl⟩
  | cons p config ih =>
      obtain ⟨r₁, hr₁, hv₁, hs₁⟩ := (setRawValue_rawStep w p.1.chars p.2.chars .default s).keeps_over hr
      obtain ⟨r₂, hr₂, hv₂, hs₂⟩ := ih hr₁
      exact ⟨r₂, hr₂, hv₂.trans hv₁, hs₂.trans hs₁⟩

/-- A record that survives a load keeps what was set over it. -/
theorem loadFromJson_keeps_over {config : Items} (hc : w.config = .items config) (h : Quiet s) {k : Text}
    {r : JournalData} (hr : s.journal.dict.lookup k = some r) (hsome : dropMissing config k (view s k) ≠ none) :
    ∃ r', (loadFromJson w.ok s).2.journal.dict.lookup k = some r' ∧ SameOver r r' := by
  rw [loadFromJson_items hc]
  have hprep := coherent_prepared h
  have hj : (prepared s).journal.dict = s.journal.dict := by
    unfold prepared
    split <;> rfl
  have hr' : (removeDropped w.ok config (prepared s)).2.journal.dict.lookup k = some r := by
    have hview := removeDropped_view (w := w) config hprep k
    unfold view at hview hsome
    rw [hj] at hview
    rw [← hview] at hsome
    unfold viewJournal at hsome
    rw [(removeDropped_ok config).2.2.1, lookup_eraseAll, hj] at hsome ⊢
    split at hsome
    · exact absurd rfl hsome
    · next hmem => rw [if_neg hmem, hr]
  exact loadItems_keeps_over config hr'

end

/-! ## The reload -/

/-- The world's configuration is the partner's `P` with the device's `D` on top. -/
structure Configures (w : World) (P D : Items) : Prop where
  partner : (w.partners.bind fun root => getPartner root w.bootPartnerId) = some (.object P)
  device : (w.device = .missing ∧ D = []) ∨
    ∃ root, w.device = .root root ∧ (getPartner root w.bootPartnerId = some (.object D) ∨
      getPartner root w.bootPartnerId = none ∧ D = [])

theorem Configures.config {w : World} {P D : Items} (h : Configures w P D) :
    w.config = .items (D.foldl overlayItem P) := by
  unfold World.config
  rw [h.partner]
  rcases h.device with ⟨hd, rfl⟩ | ⟨root, hd, hg | ⟨hg, rfl⟩⟩
  · simp [getPartnerDeviceConfig, hd]
  · simp [getPartnerDeviceConfig, hd, hg]
  · simp [getPartnerDeviceConfig, hd, hg]

/-- Names that agree up to case are equal. -/
def CaseDistinct (ns : List Text) : Prop := ∀ a ∈ ns, ∀ b ∈ ns, foldCase a = foldCase b → a = b

/-- The value of the device, else of the partner. -/
def firmwareValue (P D : Items) (k : Text) : Option Text := (lastOf (pairs D) k).or (lastOf (pairs P) k)

/-- What the claim of a second load is about: firmware value, value set over it and its source. -/
def JournalData.content (r : JournalData) : Text × Text × SourceType := (r.fwValue, r.updatedValue, r.updatedSource)

theorem dropMissing_named {config : Items} {k : Text} (hk : k ∈ names config) (t : Option Setting) :
    dropMissing config k t = t := by
  obtain ⟨p, hp, rfl⟩ := List.mem_map.mp hk
  have hsome : (getObjectItem config (cStr p.1.chars)).isSome = true := by
    rw [CString.cStr_chars, getObjectItem_isSome]
    exact ⟨_, List.mem_map_of_mem hp, rfl⟩
  unfold dropMissing
  rw [hsome]
  cases t <;> simp

theorem loadConfig_named {config : Items} {k v : Text} (hl : lastOf (pairs config) k = some v) (t : Option Setting) :
    loadConfig config k t = setDefault v t := by
  have hk : k ∈ names config := by
    rw [← map_fst_pairs, ← lastOf_isSome, hl]
    rfl
  unfold loadConfig setDefaults
  rw [hl, dropMissing_named hk]

theorem loadConfig_unnamed {config : Items} {k : Text} (hl : lastOf (pairs config) k = none) (t : Option Setting) :
    loadConfig config k t = dropMissing config k t := by
  unfold loadConfig setDefaults
  rw [hl]

/-- A second load finds nothing to do. -/
theorem loadConfig_loadConfig (config : Items) (k : Text) (t : Option Setting) :
    loadConfig config k (loadConfig config k t) = loadConfig config k t := by
  cases hl : lastOf (pairs config) k with
  | none =>
      rw [loadConfig_unnamed hl, loadConfig_unnamed hl]
      unfold dropMissing
      rw [Option.filter_filter]
      simp
  | some v => rw [loadConfig_named hl, loadConfig_named hl, setDefault_setDefault]

section
variable {w : World} {s : XBSStore}

/-- Everything a record says, from its setting and what has been set over it. -/
theorem content_of_view {t : XBSStore} {k : Text} {r r' : JournalData} (hr' : t.journal.dict.lookup k = some r')
    (hs : SameOver r r') {x : Setting} (hv : view t k = some x) : r'.content = (x.fw, r.updatedValue, r.updatedSource) := by
  unfold view viewJournal at hv
  rw [hr', Option.map_some, Option.some.injEq] at hv
  rw [JournalData.content, hs.1, hs.2, ← hv]
  rfl

theorem active_eq_of_override {x y : Setting} (h : x.override = y.override) (ho : y.override.isSome = true) :
    x.active = y.active := by
  unfold Setting.active
  rw [h]
  cases hy : y.override with
  | none =>
      rw [hy] at ho
      cases ho
  | some p => rfl

/-- A second load of the same configuration changes neither the values nor what the journal says. -/
theorem reload_idempotent {config : Items} (hc : w.config = .items config) (h : Quiet s) :
    let t := (loadFromJson w.ok s).2
    let u := (loadFromJson w.ok t).2
    u.dict = t.dict ∧
      ∀ k, (u.journal.dict.lookup k).map JournalData.content = (t.journal.dict.lookup k).map JournalData.content := by
  intro t u
  obtain ⟨ht, -, hview⟩ := loadFromJson_spec (w := w) h
  obtain ⟨hu, -, hview'⟩ := loadFromJson_spec (w := w) ht
  have hsame : ∀ k, view u k = view t k := by
    intro k
    rw [hview' k, hview k, hc]
    exact loadConfig_loadConfig config k (view s k)
  refine ⟨Finmap.ext_lookup fun k => ?_, fun k => ?_⟩
  · rw [hu.active k, ht.active k, hsame k]
  · cases hr : t.journal.dict.lookup k with
    | none =>
        have : view u k = none := by
          rw [hsame k]
          exact view_eq_none.mpr hr
        rw [view_eq_none.mp this]
    | some r =>
        have htk : view t k = some r.setting := by
          unfold view viewJournal
          rw [hr]
          rfl
        have hdrop : dropMissing config k (view t k) ≠ none := by
          intro hd
          have hd' := hview' k
          rw [hsame k, htk, hc] at hd'
          rw [htk] at hd
          cases hl : lastOf (pairs config) k with
          | none =>
              rw [applyConfig, loadConfig_unnamed hl, hd] at hd'
              cases hd'
          | some v =>
              have hk : k ∈ names config := by
                rw [← map_fst_pairs, ← lastOf_isSome, hl]
                rfl
              rw [dropMissing_named hk] at hd
              cases hd
        obtain ⟨r', hr', hover⟩ := loadFromJson_keeps_over hc ht hr hdrop
        rw [hr', Option.map_some, Option.map_some, content_of_view hr' hover ((hsame k).trans htk)]
        rfl

/-- A store with its file, between two requests, in which the journal's sources decide. -/
structure Reloadable (s : XBSStore) : Prop where
  precedence : Precedence s.dict s.journal.dict
  source : ∀ k r, s.journal.dict.lookup k = some r → JournalSource r.updatedSource
  noNul : ∀ k v, s.dict.lookup k = some v → '\x00' ∉ k ∧ '\x00' ∉ v
  noNulFw : ∀ k r, s.journal.dict.lookup k = some r → '\x00' ∉ r.fwValue
  notInitial : s.initialUpdate = false ∧ s.journal.initialUpdate = false
  file : s.file.isSome = true

theorem Reloadable.quiet (h : Reloadable s) : Quiet s := by
  refine ⟨⟨h.precedence.active h.source, h.source, fun k v hv => (h.noNul k v hv).2, h.noNulFw, ?_, fun hi => ?_⟩,
    h.notInitial.1, fun hf => ?_⟩
  · rw [h.notInitial.1, h.notInitial.2]
  · rw [h.notInitial.1] at hi
    cases hi
  · have := h.file
    rw [hf] at this
    cases this

theorem view_of_record {k : Text} {r : JournalData} (hr : s.journal.dict.lookup k = some r) :
    view s k = some r.setting := by
  unfold view viewJournal
  rw [hr]
  rfl

theorem record_of_view {k : Text} {x : Setting} (hx : view s k = some x) :
    ∃ r, s.journal.dict.lookup k = some r ∧ r.setting = x := by
  unfold view viewJournal at hx
  exact Option.map_eq_some_iff.mp hx

theorem dropMissing_over (config : Items) (k : Text) {x : Setting} (hx : x.override.isSome = true) :
    dropMissing config k (some x) = some x := by
  simp [dropMissing, hx]

theorem dropMissing_default {config : Items} {k : Text} (hk : '\x00' ∉ k) {x : Setting} (hx : x.override = none) :
    dropMissing config k (some x) =
      if (getObjectItem config k).isSome = true ∨ k = partnerIdKey then some x else none := by
  simp [dropMissing, hx, cStr_of_noNul hk, Option.filter_some]

/-- RFC or WebPA has set the parameter. -/
def Overridden (r : JournalData) : Prop := r.updatedSource = .rfc ∨ r.updatedSource = .webpa

theorem override_of_overridden {r : JournalData} (h : Overridden r) :
    r.setting.override = some (r.updatedSource, r.updatedValue) := override_eq_some.mpr ⟨h, rfl⟩

theorem override_of_default {r : JournalData} (h : r.updatedSource = .default) : r.setting.override = none := by
  rw [override_eq_none, h]
  decide

/-- A parameter that was set over keeps its value; the firmware's value goes to the journal. -/
theorem reload_overridden {config : Items} (hc : w.config = .items config) (h : Quiet s) {k : Text} {r : JournalData}
    (hr : s.journal.dict.lookup k = some r) (ho : Overridden r) :
    let t := (loadFromJson w.ok s).2
    t.dict.lookup k = s.dict.lookup k ∧ ∃ r', t.journal.dict.lookup k = some r' ∧
      r'.content = ((lastOf (pairs config) k).getD r.fwValue, r.updatedValue, r.updatedSource) := by
  intro t
  obtain ⟨ht, -, hview⟩ := loadFromJson_spec (w := w) h
  have hover := override_of_overridden ho
  have hs := view_of_record hr
  have hdrop : dropMissing config k (view s k) = some r.setting := by
    rw [hs]
    exact dropMissing_over config k (by rw [hover]; rfl)
  have hv : view t k = some { r.setting with fw := (lastOf (pairs config) k).getD r.fwValue } := by
    rw [hview k, hc, applyConfig]
    cases hl : lastOf (pairs config) k with
    | none =>
        rw [loadConfig_unnamed hl, hdrop]
        rfl
    | some v =>
        rw [loadConfig_named hl, hs]
        rfl
  obtain ⟨r', hr', hsame⟩ := loadFromJson_keeps_over hc h hr (by rw [hdrop]; simp)
  refine ⟨?_, r', hr', content_of_view hr' hsame hv⟩
  rw [ht.active k, h.active k, hv, hs, Option.map_some, Option.map_some]
  exact congrArg some (active_eq_of_override rfl (by rw [hover]; rfl))

/-- A parameter that only the firmware gives has the firmware's value. -/
theorem reload_named {config : Items} (hc : w.config = .items config) (h : Quiet s) {k v : Text}
    (hl : lastOf (pairs config) k = some v) (hno : ∀ r, s.journal.dict.lookup k = some r → ¬Overridden r) :
    let t := (loadFromJson w.ok s).2
    t.dict.lookup k = some v ∧
      ∃ r', t.journal.dict.lookup k = some r' ∧ r'.fwValue = v ∧ r'.updatedSource = .default := by
  intro t
  obtain ⟨ht, -, hview⟩ := loadFromJson_spec (w := w) h
  have hv : ∃ x, view t k = some x ∧ x.fw = v ∧ x.override = none := by
    rw [hview k, hc, applyConfig, loadConfig_named hl]
    cases hr : s.journal.dict.lookup k with
    | none =>
        rw [view_eq_none.mpr hr]
        exact ⟨_, rfl, rfl, rfl⟩
    | some r =>
        rw [view_of_record hr]
        exact ⟨_, rfl, rfl, override_eq_none.mpr (not_or.mp (hno r hr))⟩
  obtain ⟨x, hx, hfw, hover⟩ := hv
  obtain ⟨r', hr', rfl⟩ := record_of_view hx
  refine ⟨?_, r', hr', hfw, ?_⟩
  · rw [ht.active k, hx, Option.map_some]
    unfold Setting.active
    rw [hover, hfw]
  · have := override_eq_none.mp hover
    exact (ht.source k r' hr').resolve_right (by tauto)

/-- A parameter that the firmware alone gave goes when no item has its name up to case. -/
theorem reload_unnamed {config : Items} (hc : w.config = .items config) (h : Quiet s) {k : Text} {r : JournalData}
    (hk : '\x00' ∉ k) (hl : lastOf (pairs config) k = none) (hr : s.journal.dict.lookup k = some r)
    (hd : r.updatedSource = .default) :
    let t := (loadFromJson w.ok s).2
    ((getObjectItem config k).isSome = true ∨ k = partnerIdKey →
        t.dict.lookup k = s.dict.lookup k ∧ (t.journal.dict.lookup k).map JournalData.content = some r.content) ∧
      (¬((getObjectItem config k).isSome = true ∨ k = partnerIdKey) → k ∉ t.dict ∧ k ∉ t.journal.dict) := by
  intro t
  obtain ⟨ht, -, hview⟩ := loadFromJson_spec (w := w) h
  have hs := view_of_record hr
  have hv : view t k = dropMissing config k (some r.setting) := by
    rw [hview k, hc, applyConfig, loadConfig_unnamed hl, hs]
  rw [dropMissing_default hk (override_of_default hd)] at hv
  refine ⟨fun hkeep => ?_, fun hgone => ?_⟩
  · rw [if_pos hkeep] at hv
    have hdrop : dropMissing config k (view s k) ≠ none := by
      rw [hs, dropMissing_default hk (override_of_default hd), if_pos hkeep]
      simp
    obtain ⟨r', hr', hsame⟩ := loadFromJson_keeps_over hc h hr hdrop
    refine ⟨?_, ?_⟩
    · rw [ht.active k, h.active k, hv, hs]
    · rw [hr', Option.map_some, content_of_view hr' hsame hv]
      rfl
  · rw [if_neg hgone] at hv
    have hj : k ∉ t.journal.dict := by
      rw [← Finmap.lookup_eq_none]
      exact view_eq_none.mp hv
    exact ⟨fun hmem => hj ((ht.mem_iff k).mp hmem), hj⟩

theorem reload_absent {config : Items} (hc : w.config = .items config) (h : Quiet s) {k : Text}
    (hl : lastOf (pairs config) k = none) (hr : s.journal.dict.lookup k = none) :
    k ∉ (loadFromJson w.ok s).2.dict ∧ k ∉ (loadFromJson w.ok s).2.journal.dict := by
  obtain ⟨ht, -, hview⟩ := loadFromJson_spec (w := w) h
  have hv : view (loadFromJson w.ok s).2 k = none := by
    rw [hview k, hc, applyConfig, loadConfig_unnamed hl, view_eq_none.mpr hr]
    rfl
  have hj : k ∉ (loadFromJson w.ok s).2.journal.dict := by
    rw [← Finmap.lookup_eq_none]
    exact view_eq_none.mp hv
  exact ⟨fun hmem => hj ((ht.mem_iff k).mp hmem), hj⟩

end

/-- **A firmware reload**, parameter by parameter, and its repetition. -/
theorem firmware_reload (w : World) (P D : Items) (hw : Configures w P D) (hP : (names P).Nodup)
    (hcase : CaseDistinct (names P ++ names D)) (s : XBSStore) (h : Reloadable s) :
    let t := (loadFromJson w.ok s).2
    let u := (loadFromJson w.ok t).2
    (∀ k r, s.journal.dict.lookup k = some r → Overridden r →
        t.dict.lookup k = s.dict.lookup k ∧ ∃ r', t.journal.dict.lookup k = some r' ∧
          r'.content = ((firmwareValue P D k).getD r.fwValue, r.updatedValue, r.updatedSource)) ∧
      (∀ k v, firmwareValue P D k = some v → (∀ r, s.journal.dict.lookup k = some r → ¬Overridden r) →
        t.dict.lookup k = some v ∧
          ∃ r', t.journal.dict.lookup k = some r' ∧ r'.fwValue = v ∧ r'.updatedSource = .default) ∧
      (∀ k r, s.journal.dict.lookup k = some r → r.updatedSource = .default → firmwareValue P D k = none →
        ((∃ a ∈ names P ++ names D, foldCase a = foldCase k) ∨ k = partnerIdKey →
            t.dict.lookup k = s.dict.lookup k ∧ (t.journal.dict.lookup k).map JournalData.content = some r.content) ∧
          (¬((∃ a ∈ names P ++ names D, foldCase a = foldCase k) ∨ k = partnerIdKey) →
            k ∉ t.dict ∧ k ∉ t.journal.dict)) ∧
      (∀ k, s.journal.dict.lookup k = none → firmwareValue P D k = none → k ∉ t.dict ∧ k ∉ t.journal.dict) ∧
      u.dict = t.dict ∧
      ∀ k, (u.journal.dict.lookup k).map JournalData.content = (t.journal.dict.lookup k).map JournalData.content := by
  intro t u
  have hc := hw.config
  have hq := h.quiet
  obtain ⟨hmem, hlast⟩ := overlay_spec (U := fun a => a ∈ names P ++ names D)
    (fun a b ha hb => hcase a ha b hb) (fun a ha => List.mem_append_left _ ha) (fun a ha => List.mem_append_right _ ha) hP
  have hnamed : ∀ k, (getObjectItem (D.foldl overlayItem P) k).isSome = true ↔
      ∃ a ∈ names P ++ names D, foldCase a = foldCase k := by
    intro k
    rw [getObjectItem_isSome]
    constructor
    · rintro ⟨a, ha, hf⟩
      exact ⟨a, List.mem_append.mpr ((hmem a).mp ha), hf⟩
    · rintro ⟨a, ha, hf⟩
      exact ⟨a, (hmem a).mpr (List.mem_append.mp ha), hf⟩
  refine ⟨fun k r hr ho => ?_, fun k v hv hno => ?_, fun k r hr hd hnone => ?_, fun k hr hnone => ?_,
    reload_idempotent hc hq⟩
  · have := reload_overridden hc hq hr ho
    rwa [hlast k] at this
  · exact reload_named hc hq ((hlast k).trans hv) hno
  · have hk : '\x00' ∉ k := by
      obtain ⟨v, hv⟩ := Finmap.mem_iff.mp ((h.precedence.keys k).mpr (Finmap.mem_of_lookup_eq_some hr))
      exact (h.noNul k v hv).1
    have := reload_unnamed hc hq hk ((hlast k).trans hnone) hr hd
    rwa [hnamed k] at this
  · exact reload_absent hc hq ((hlast k).trans hnone) hr

/-- A store with one parameter, which the firmware gave. -/
def defaultStore (k v : Text) : XBSStore :=
  { initDone := true, initialUpdate := false, rfcUpdateInProgress := false, dict := (∅ : Dict Text Text).insert k v
    file := some (entryLine (k, v))
    journal :=
      { dict := (∅ : Dict Text JournalData).insert k ⟨v, [], dash, dash, .default, false⟩
        file := some (journalLine (k, ⟨v, [], dash, dash, .default, false⟩)), buildTime := [], initialUpdate := false } }

theorem reloadable_defaultStore {k v : Text} (hk : '\x00' ∉ k) (hv : '\x00' ∉ v) : Reloadable (defaultStore k v) := by
  refine ⟨⟨fun a => ?_, fun a r hr ho => ?_, fun a r hr _ => ?_⟩, fun a r hr => ?_, fun a u hu => ?_, fun a r hr => ?_,
    ⟨rfl, rfl⟩, rfl⟩
  · show a ∈ (∅ : Dict Text Text).insert k v ↔ a ∈ (∅ : Dict Text JournalData).insert k _
    rw [Finmap.mem_insert, Finmap.mem_insert]
    exact or_congr_right ⟨fun h => absurd h Finmap.notMem_empty, fun h => absurd h Finmap.notMem_empty⟩
  · obtain ⟨rfl, rfl⟩ := lookup_insert_empty hr
    rcases ho with h | h <;> cases h
  · obtain ⟨rfl, rfl⟩ := lookup_insert_empty hr
    exact Finmap.lookup_insert _
  · obtain ⟨rfl, rfl⟩ := lookup_insert_empty hr
    exact Or.inl rfl
  · obtain ⟨rfl, rfl⟩ := lookup_insert_empty hu
    exact ⟨hk, hv⟩
  · obtain ⟨rfl, rfl⟩ := lookup_insert_empty hr
    exact hv

theorem configures_bootWorld (l : List (String × String)) : Configures (bootWorld l) (literalItems l) [] :=
  ⟨rfl, Or.inl ⟨rfl, rfl⟩⟩

theorem caseDistinct_singleton (a : Text) : CaseDistinct [a] := by
  intro x hx y hy _
  rw [List.mem_singleton] at hx hy
  rw [hx, hy]

theorem firmware_reload_newValue :
    let t := (loadFromJson (bootWorld [("Device.A", "2")]).ok (defaultStore "Device.A".toList "1".toList)).2
    t.dict.lookup "Device.A".toList = some "2".toList ∧
      ∃ r', t.journal.dict.lookup "Device.A".toList = some r' ∧ r'.fwValue = "2".toList ∧ r'.updatedSource = .default := by
  refine (firmware_reload _ _ _ (configures_bootWorld [("Device.A", "2")]) (by decide) (caseDistinct_singleton _) _
    (reloadable_defaultStore (by decide) (by decide))).2.1 "Device.A".toList "2".toList (by decide) ?_
  intro r hr ho
  obtain ⟨-, rfl⟩ := lookup_insert_empty hr
  rcases ho with h | h <;> cases h

/-- A parameter that differs from an item in case only is not removed, although no item names it. -/
theorem reload_keeps_other_case :
    let s := defaultStore "device.a".toList "1".toList
    let P := literalItems [("Device.A", "2")]
    let t := (loadFromJson (bootWorld [("Device.A", "2")]).ok s).2
    Reloadable s ∧ Configures (bootWorld [("Device.A", "2")]) P [] ∧ (names P).Nodup ∧ CaseDistinct (names P ++ names []) ∧
      getJournalSource s.journal "device.a".toList = .default ∧ firmwareValue P [] "device.a".toList = none ∧
      "device.a".toList ≠ partnerIdKey ∧ "device.a".toList ∈ t.dict ∧ "device.a".toList ∈ t.journal.dict :=
  ⟨reloadable_defaultStore (by decide) (by decide), configures_bootWorld _, by decide, caseDistinct_singleton _, by decide,
    by decide, by decide, by decide, by decide⟩

end Tr69HostIf.BS
