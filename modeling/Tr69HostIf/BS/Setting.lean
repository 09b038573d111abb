import Tr69HostIf.BS.Store

/-!
# One bootstrap parameter

What the store and its journal are for, one parameter at a time: a firmware value, a value set over it by
RFC or WebPA, and the mark of an RFC update. The active value is the one set over the firmware's, else the
firmware's own (`Setting.active`). Each operation of the store is a function on `Option Setting`, `none` for
a parameter that is not there; `view` reads the settings off a store's journal.
-/

namespace Tr69HostIf.BS
open Store

/-- What is known of one parameter. -/
structure Setting where
  fw : Text
  override : Option (SourceType × Text)
  marked : Bool
  deriving DecidableEq

/-- The value set over the firmware's, else the firmware's. -/
def Setting.active (t : Setting) : Text :=
  match t.override with
  | some p => p.2
  | none => t.fw

/-- The firmware gives the value `v`. -/
def setDefault (v : Text) : Option Setting → Option Setting
  | none => some ⟨v, none, false⟩
  | some t => some { t with fw := v }

/-- `src` sets the value `v`. -/
def setOver (src : SourceType) (v : Text) : Option Setting → Option Setting
  | none => some ⟨dash, some (src, v), false⟩
  | some t => some { t with override := some (src, v), marked := false }

/-- The parameter `k` goes when only the firmware gave it and the firmware no longer does. -/
def dropMissing (config : Items) (k : Text) (t : Option Setting) : Option Setting :=
  t.filter fun t => (getObjectItem config (cStr k)).isSome || decide (k = partnerIdKey) || t.override.isSome

/-- The items of a configuration as pairs of texts. -/
def pairs (config : Items) : List (Text × Text) := config.map fun p => (p.1.chars, p.2.chars)

/-- The items of `l` in turn, as far as they name `k`. -/
def setDefaults (l : List (Text × Text)) (k : Text) (t : Option Setting) : Option Setting :=
  match lastOf l k with
  | some v => setDefault v t
  | none => t

/-- The firmware's configuration is loaded. -/
def loadConfig (config : Items) (k : Text) (t : Option Setting) : Option Setting :=
  setDefaults (pairs config) k (dropMissing config k t)

/-- An RFC update begins. -/
def mark (t : Option Setting) : Option Setting :=
  t.map fun t => if t.override.any (fun p => p.1 = .rfc) then { t with marked := true } else t

/-- An RFC update ends. -/
def revert (t : Option Setting) : Option Setting :=
  t.map fun t => if t.marked then { t with override := none, marked := false } else t

/-- The mark is taken away, by a set during the update or by a restart. -/
def unmark (t : Option Setting) : Option Setting := t.map fun t => { t with marked := false }

/-- The setting a journal record stands for. -/
def JournalData.setting (r : JournalData) : Setting where
  fw := r.fwValue
  override := if r.updatedSource = .rfc ∨ r.updatedSource = .webpa then some (r.updatedSource, r.updatedValue) else none
  marked := r.clearRfc

/-- The settings of a journal. -/
def viewJournal (d : Dict Text JournalData) (k : Text) : Option Setting := (d.lookup k).map JournalData.setting

/-- The settings of a store. -/
def view (s : XBSStore) (k : Text) : Option Setting := viewJournal s.journal.dict k

theorem setDefault_setDefault (v w : Text) (t : Option Setting) : setDefault w (setDefault v t) = setDefault w t := by
  cases t <;> rfl

theorem setDefaults_cons (p : Text × Text) (l : List (Text × Text)) (k : Text) (t : Option Setting) :
    setDefaults (p :: l) k t = setDefaults l k (if k = p.1 then setDefault p.2 t else t) := by
  unfold setDefaults
  rw [lastOf]
  cases lastOf l k with
  | none => by_cases hk : k = p.1 <;> simp [hk]
  | some v => by_cases hk : k = p.1 <;> simp [hk, setDefault_setDefault]

/-! ## Records and settings -/

theorem setting_updatedRecord_default (bt : Text) (now : Tm) (v : Text) (o : Option JournalData) :
    some (updatedRecord bt now v .default o).setting = setDefault v (o.map JournalData.setting) := by
  cases o <;> rfl

theorem setting_updatedRecord_over (bt : Text) (now : Tm) (v : Text) {src : SourceType}
    (hsrc : src = .rfc ∨ src = .webpa) (o : Option JournalData) :
    some (updatedRecord bt now v src o).setting = setOver src v (o.map JournalData.setting) := by
  have hd : src ≠ .default := by rcases hsrc with rfl | rfl <;> decide
  cases o with
  | none => simp [updatedRecord, hd, JournalData.setting, setOver, hsrc]
  | some r => simp [updatedRecord, hd, JournalData.setting, setOver, hsrc]

theorem setting_marked (r : JournalData) : ((r.marked).getD r).setting =
    if r.setting.override.any (fun p => p.1 = .rfc) then { r.setting with marked := true } else r.setting := by
  by_cases h : r.updatedSource = .rfc
  · simp [JournalData.marked, JournalData.setting, h]
  · by_cases hw : r.updatedSource = .webpa <;> simp [JournalData.marked, JournalData.setting, h, hw]

theorem setting_cleared (r : JournalData) :
    r.cleared.setting = { r.setting with override := none, marked := false } := by
  simp [JournalData.cleared, JournalData.setting]

theorem override_eq_none {r : JournalData} :
    r.setting.override = none ↔ r.updatedSource ≠ .rfc ∧ r.updatedSource ≠ .webpa := by
  simp [JournalData.setting, not_or]

theorem override_eq_some {r : JournalData} {p : SourceType × Text} :
    r.setting.override = some p ↔
      (r.updatedSource = .rfc ∨ r.updatedSource = .webpa) ∧ (r.updatedSource, r.updatedValue) = p := by
  simp [JournalData.setting]

theorem viewJournal_insert (d : Dict Text JournalData) (key : Text) (r : JournalData) (k : Text) :
    viewJournal (d.insert key r) k = if k = key then some r.setting else viewJournal d k := by
  unfold viewJournal
  rw [lookup_insert_ite]
  split <;> rfl

end Tr69HostIf.BS
