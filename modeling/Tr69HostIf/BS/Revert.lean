import Tr69HostIf.BS.Precedence

/-!
# The RFC revert

`ClearDB` marks what RFC has set, sets in the window take the mark away, `ClearDBEnd` reverts what is still
marked to the journal's firmware value.

* `windowAct` : what one request of the window does to one parameter, `view_window` : the window is the fold
  of it;
* `firmware s fw l` : the values the firmware has given by the end of the run `l` from `s`, `FwOk` : the
  journal knows them;
* `rfc_revert` : the window ends as it should exactly when the firmware still gives every parameter that is
  reverted.
-/

namespace Tr69HostIf.BS
open Store

/-! ## Requests to an initialised store -/

section
variable {w : World} {s : XBSStore}

/-- A request of `BS_CLEAR_DB_START` or `BS_CLEAR_DB_END`. -/
def ControlName (name : Text) : Prop :=
  foldCase name = foldCase clearDbStart ∨ foldCase name = foldCase clearDbEnd

instance (name : Text) : Decidable (ControlName name) := inferInstanceAs (Decidable (_ ∨ _))

theorem step_clearDb (hi : s.initDone = true) {msg : MsgData}
    (hn : foldCase msg.paramName.chars = foldCase clearDbStart) :
    step s (w, .overrideValue msg) = clearDb w.ok s := by
  show (overrideValue w.ok msg s).2 = _
  unfold overrideValue
  rw [init_done hi]
  simp only [if_pos, hn]

theorem step_clearDbDone (hi : s.initDone = true) {msg : MsgData}
    (hn : foldCase msg.paramName.chars = foldCase clearDbEnd) :
    step s (w, .overrideValue msg) = clearDbDone w.ok s := by
  have hne : foldCase clearDbEnd ≠ foldCase clearDbStart := by decide
  show (overrideValue w.ok msg s).2 = _
  unfold overrideValue
  rw [init_done hi]
  simp only [if_pos, hn, if_neg hne]

theorem step_override (hi : s.initDone = true) {msg : MsgData} (hn : ¬ControlName msg.paramName.chars) :
    step s (w, .overrideValue msg) = (setOverride w.ok msg s).2 := by
  rw [ControlName, not_or] at hn
  show (overrideValue w.ok msg s).2 = _
  unfold overrideValue
  rw [init_done hi]
  simp only [if_pos, if_neg hn.1, if_neg hn.2]

end

/-! ## The window -/

/-- What may stand between `ClearDB` and `ClearDBEnd`. -/
def WindowRequest : Request → Prop
  | .overrideValue msg =>
      ¬ControlName msg.paramName.chars ∧ (msg.requestor = .rfc ∨ msg.requestor = .webpa)
  | .loadFromJson => True
  | _ => False

instance : DecidablePred WindowRequest
  | .overrideValue _ => inferInstanceAs (Decidable (_ ∧ _))
  | .loadFromJson => inferInstanceAs (Decidable True)
  | .getValue _ | .partnerIdUpdated | .resetCacheAndStore | .restart => inferInstanceAs (Decidable False)

/-- The entry a set carries. -/
def override : Request → List (Text × Text)
  | .overrideValue msg => [(msg.paramName.chars, msg.value.chars)]
  | _ => []

/-- The sets of the window, in order. -/
def overrides (l : List (World × Request)) : List (Text × Text) := l.flatMap fun i => override i.2

def isReload : Request → Bool
  | .loadFromJson => true
  | _ => false

/-- The window without its sets. -/
def reloads (l : List (World × Request)) : List (World × Request) := l.filter fun i => isReload i.2

/-- What one request of the window does to the parameter `k`. -/
def windowAct (k : Text) (t : Option Setting) (i : World × Request) : Option Setting :=
  match i.2 with
  | .overrideValue msg => if k = msg.paramName.chars then setOver msg.requestor msg.value.chars t else t
  | .loadFromJson => applyConfig i.1.config k t
  | _ => t

theorem windowAct_step {s : XBSStore} (h : Settled s) (hi : s.initDone = true) {i : World × Request}
    (hr : WindowRequest i.2) :
    Settled (step s i) ∧ (step s i).initDone = true ∧ ∀ k, view (step s i) k = windowAct k (view s k) i := by
  obtain ⟨w, r⟩ := i
  cases r with
  | overrideValue msg =>
      obtain ⟨hn, hsrc⟩ := hr
      rw [step_override hi hn]
      obtain ⟨hcoh, hmarks, hkept, hfile, hview⟩ :=
        setOverride_spec (w := w) msg hsrc h.toCoherent h.marks h.notInitial
      exact ⟨⟨⟨hcoh, hkept.initialUpdate.trans h.notInitial, hfile h.fileCovers⟩, hmarks⟩, hkept.initDone.trans hi, hview⟩
  | loadFromJson =>
      obtain ⟨-, hkept, hview⟩ := loadFromJson_spec (w := w) h.toQuiet
      exact ⟨settled_loadFromJson h, hkept.initDone.trans hi, hview⟩
  | getValue name => exact hr.elim
  | partnerIdUpdated => exact hr.elim
  | resetCacheAndStore => exact hr.elim
  | restart => exact hr.elim

theorem view_window {s : XBSStore} (h : Settled s) (hi : s.initDone = true) {l : List (World × Request)}
    (hl : ∀ i ∈ l, WindowRequest i.2) :
    Settled (run step s l) ∧ (run step s l).initDone = true ∧
      ∀ k, view (run step s l) k = l.foldl (windowAct k) (view s k) := by
  induction l generalizing s with
  | nil => exact ⟨h, hi, fun k => rfl⟩
  | cons i l ih =>
      obtain ⟨h', hi', hview⟩ := windowAct_step h hi (hl i List.mem_cons_self)
      obtain ⟨h'', hi'', hview'⟩ := ih h' hi' fun j hj => hl j (List.mem_cons_of_mem i hj)
      refine ⟨h'', hi'', fun k => ?_⟩
      rw [run_cons, hview' k, hview k, List.foldl_cons]

/-! ## One parameter through the window -/

theorem applyConfig_over (c : Config) (k : Text) {x : Setting} (hx : x.override.isSome = true) :
    ∃ f, applyConfig c k (some x) = some { x with fw := f } := by
  cases c with
  | items config =>
      have hdrop : dropMissing config k (some x) = some x := by simp [dropMissing, hx]
      show ∃ f, loadConfig config k (some x) = _
      unfold loadConfig setDefaults
      rw [hdrop]
      cases lastOf (pairs config) k with
      | none => exact ⟨x.fw, rfl⟩
      | some v => exact ⟨v, rfl⟩
  | failed => exact ⟨x.fw, rfl⟩
  | skipped => exact ⟨x.fw, rfl⟩

theorem overrides_concat (l : List (World × Request)) (i : World × Request) :
    overrides (l ++ [i]) = overrides l ++ override i.2 := by
  simp [overrides]

/-- A parameter that was set in the window carries the last value set, and no mark. -/
theorem foldl_windowAct_set (k : Text) (t : Option Setting) {l : List (World × Request)}
    (hl : ∀ i ∈ l, WindowRequest i.2) {v : Text} (hv : lastOf (overrides l) k = some v) :
    ∃ x src, l.foldl (windowAct k) t = some x ∧ x.override = some (src, v) ∧ x.marked = false := by
  induction l using List.reverseRecOn generalizing v with
  | nil => cases hv
  | append_singleton l i ih =>
      obtain ⟨w, r⟩ := i
      have hl' : ∀ i ∈ l, WindowRequest i.2 := fun j hj => hl j (List.mem_append_left _ hj)
      have hr : WindowRequest r := hl (w, r) (by simp)
      rw [overrides_concat] at hv
      rw [List.foldl_append]
      show ∃ x src, windowAct k (l.foldl (windowAct k) t) (w, r) = some x ∧ _
      cases r with
      | overrideValue msg =>
          rw [override, lastOf_concat] at hv
          show ∃ x src, (if k = msg.paramName.chars then _ else _) = some x ∧ _
          by_cases hk : k = msg.paramName.chars
          · rw [if_pos hk] at hv ⊢
            rw [← Option.some.inj hv]
            cases l.foldl (windowAct k) t with
            | none => exact ⟨_, msg.requestor, rfl, rfl, rfl⟩
            | some x => exact ⟨_, msg.requestor, rfl, rfl, rfl⟩
          · rw [if_neg hk] at hv ⊢
            exact ih hl' hv
      | loadFromJson =>
          have hv' : lastOf (overrides l) k = some v := by simpa [override] using hv
          obtain ⟨x, src, hx, hover, hmark⟩ := ih hl' hv'
          obtain ⟨f, hf⟩ := applyConfig_over w.config k (x := x) (by rw [hover]; rfl)
          refine ⟨{ x with fw := f }, src, ?_, hover, hmark⟩
          rw [hx]
          exact hf
      | getValue name => exact hr.elim
      | partnerIdUpdated => exact hr.elim
      | resetCacheAndStore => exact hr.elim
      | restart => exact hr.elim

/-- A parameter that was not set sees the reloads only. -/
theorem foldl_windowAct_reloads (k : Text) (t : Option Setting) {l : List (World × Request)}
    (hl : ∀ i ∈ l, WindowRequest i.2) (hv : lastOf (overrides l) k = none) :
    l.foldl (windowAct k) t = (reloads l).foldl (windowAct k) t := by
  induction l generalizing t with
  | nil => rfl
  | cons i l ih =>
      obtain ⟨w, r⟩ := i
      have hl' : ∀ i ∈ l, WindowRequest i.2 := fun j hj => hl j (List.mem_cons_of_mem _ hj)
      have hr : WindowRequest r := hl (w, r) List.mem_cons_self
      rw [overrides, List.flatMap_cons, lastOf_append, Option.or_eq_none_iff] at hv
      cases r with
      | overrideValue msg =>
          have hk : k ≠ msg.paramName.chars := by
            intro hk
            have := hv.2
            simp [override, lastOf, hk] at this
          have hact : windowAct k t (w, .overrideValue msg) = t := by
            show (if k = msg.paramName.chars then _ else t) = t
            rw [if_neg hk]
          rw [List.foldl_cons, hact, ih t hl' hv.1]
          rfl
      | loadFromJson =>
          rw [List.foldl_cons, ih _ hl' hv.1]
          rfl
      | getValue name => exact hr.elim
      | partnerIdUpdated => exact hr.elim
      | resetCacheAndStore => exact hr.elim
      | restart => exact hr.elim

theorem mem_reloads {l : List (World × Request)} {i : World × Request} (h : i ∈ reloads l) : i.2 = .loadFromJson := by
  obtain ⟨w, r⟩ := i
  have := (List.mem_filter.mp h).2
  cases r <;> simp_all [isReload]

/-- Reloads leave a value that was set over the firmware's. -/
theorem foldl_reloads_over (k : Text) {x : Setting} (hx : x.override.isSome = true) {l : List (World × Request)}
    (hl : ∀ i ∈ l, i.2 = .loadFromJson) : ∃ f, l.foldl (windowAct k) (some x) = some { x with fw := f } := by
  induction l generalizing x with
  | nil => exact ⟨x.fw, rfl⟩
  | cons i l ih =>
      obtain ⟨w, r⟩ := i
      have hr : r = .loadFromJson := hl (w, r) List.mem_cons_self
      subst hr
      obtain ⟨f, hf⟩ := applyConfig_over w.config k hx
      obtain ⟨g, hg⟩ := ih (x := { x with fw := f }) hx fun j hj => hl j (List.mem_cons_of_mem _ hj)
      refine ⟨g, ?_⟩
      rw [List.foldl_cons]
      show l.foldl (windowAct k) (applyConfig w.config k (some x)) = _
      rw [hf, hg]

/-- No load puts a mark. -/
def Unmarked (t : Option Setting) : Prop := ∀ x, t = some x → x.marked = false

theorem unmarked_applyConfig (c : Config) (k : Text) {t : Option Setting} (h : Unmarked t) :
    Unmarked (applyConfig c k t) := by
  have hset : ∀ v {t : Option Setting}, Unmarked t → Unmarked (setDefault v t) := by
    intro v t ht x hx
    cases t with
    | none =>
        rw [← Option.some.inj hx]
    | some y =>
        rw [← Option.some.inj hx]
        exact ht y rfl
  cases c with
  | items config =>
      have hdrop : Unmarked (dropMissing config k t) := by
        intro x hx
        exact h x (Option.filter_eq_some_iff.mp hx).1
      show Unmarked (loadConfig config k t)
      unfold loadConfig setDefaults
      cases lastOf (pairs config) k with
      | none => exact hdrop
      | some v => exact hset v hdrop
  | failed => exact h
  | skipped => exact h

theorem unmarked_reloads (k : Text) {t : Option Setting} (h : Unmarked t) {l : List (World × Request)}
    (hl : ∀ i ∈ l, i.2 = .loadFromJson) : Unmarked (l.foldl (windowAct k) t) := by
  induction l generalizing t with
  | nil => exact h
  | cons i l ih =>
      obtain ⟨w, r⟩ := i
      have hr : r = .loadFromJson := hl (w, r) List.mem_cons_self
      subst hr
      exact ih (unmarked_applyConfig w.config k h) fun j hj => hl j (List.mem_cons_of_mem _ hj)

theorem revert_unmarked {t : Option Setting} (h : Unmarked t) : revert t = t := by
  cases t with
  | none => rfl
  | some x => simp [revert, h x rfl]

/-! ## What the firmware gives -/

/-- The partner id is the only value that a load keeps although the configuration does not name it. -/
def keepPartnerId (fw : Dict Text Text) : Dict Text Text :=
  match fw.lookup partnerIdKey with
  | some v => (∅ : Dict Text Text).insert partnerIdKey v
  | none => ∅

/-- The firmware's values after a load. -/
def fwLoad (c : Config) (fw : Dict Text Text) : Dict Text Text :=
  match c with
  | .items config => assign (keepPartnerId fw) (pairs config)
  | _ => fw

/-- The firmware's values after a request. -/
def fwAfter (s : XBSStore) (fw : Dict Text Text) (i : World × Request) : Dict Text Text :=
  match i.2 with
  | .overrideValue _ | .getValue _ => if s.initDone then fw else fwLoad i.1.config fw
  | .loadFromJson | .restart => fwLoad i.1.config fw
  | .partnerIdUpdated =>
      if i.1.partnerId.chars ≠ [] ∧ i.1.partnerId.chars ≠ getRawValue s partnerIdKey then
        fwLoad i.1.config (fw.insert partnerIdKey i.1.partnerId.chars)
      else fw
  | .resetCacheAndStore => ∅

/-- The store and the firmware's values, one request further. -/
def track (p : XBSStore × Dict Text Text) (i : World × Request) : XBSStore × Dict Text Text :=
  (step p.1 i, fwAfter p.1 p.2 i)

/-- The firmware's values at the end of a run. -/
def firmware (s : XBSStore) (fw : Dict Text Text) (l : List (World × Request)) : Dict Text Text :=
  (run track (s, fw) l).2

theorem run_track (s : XBSStore) (fw : Dict Text Text) (l : List (World × Request)) :
    run track (s, fw) l = (run step s l, firmware s fw l) := by
  induction l generalizing s fw with
  | nil => rfl
  | cons i l ih =>
      rw [run_cons, track, ih]
      unfold firmware
      rw [run_cons, run_cons, track]

theorem firmware_append (s : XBSStore) (fw : Dict Text Text) (l l' : List (World × Request)) :
    firmware s fw (l ++ l') = firmware (run step s l) (firmware s fw l) l' := by
  rw [firmware, run_append, run_track s fw l]
  rfl

theorem firmware_overrideValue {s : XBSStore} (hi : s.initDone = true) (fw : Dict Text Text) (w : World) (msg : MsgData)
    (l : List (World × Request)) :
    firmware s fw ((w, .overrideValue msg) :: l) = firmware (step s (w, .overrideValue msg)) fw l := by
  show firmware _ (if s.initDone then fw else _) l = _
  rw [if_pos hi]

/-- The journal knows the firmware's values. -/
def FwOk (fw : Dict Text Text) (s : XBSStore) : Prop :=
  ∀ k v, fw.lookup k = some v → ∃ x, view s k = some x ∧ x.fw = v

section
variable {fw : Dict Text Text} {w : World} {s t : XBSStore}

theorem fwOk_empty (s : XBSStore) : FwOk ∅ s := by
  intro k v hv
  rw [Finmap.lookup_empty] at hv
  cases hv

theorem FwOk.keep (h : FwOk fw s) (hst : ∀ k x, view s k = some x → ∃ y, view t k = some y ∧ y.fw = x.fw) :
    FwOk fw t := by
  intro k v hv
  obtain ⟨x, hx, hfw⟩ := h k v hv
  obtain ⟨y, hy, hyx⟩ := hst k x hx
  exact ⟨y, hy, hyx.trans hfw⟩

theorem lookup_keepPartnerId {k v : Text} (hv : (keepPartnerId fw).lookup k = some v) :
    k = partnerIdKey ∧ fw.lookup k = some v := by
  unfold keepPartnerId at hv
  cases hp : fw.lookup partnerIdKey with
  | none =>
      rw [hp, Finmap.lookup_empty] at hv
      cases hv
  | some u =>
      rw [hp] at hv
      simp only [lookup_insert_ite, Finmap.lookup_empty] at hv
      split at hv
      · next hk =>
        subst hk
        exact ⟨rfl, hp.trans hv⟩
      · cases hv

/-- The journal follows a load. -/
theorem FwOk.load (h : FwOk fw s) {c : Config} (hview : ∀ k, view t k = applyConfig c k (view s k)) :
    FwOk (fwLoad c fw) t := by
  cases c with
  | failed => exact h.keep fun k x hx => ⟨x, (hview k).trans hx, rfl⟩
  | skipped => exact h.keep fun k x hx => ⟨x, (hview k).trans hx, rfl⟩
  | items config =>
      intro k v hv
      have hv' : (lastOf (pairs config) k).or ((keepPartnerId fw).lookup k) = some v := by
        rw [← lookup_assign]
        exact hv
      rw [hview k]
      show ∃ x, setDefaults (pairs config) k (dropMissing config k (view s k)) = some x ∧ _
      unfold setDefaults
      cases hl : lastOf (pairs config) k with
      | some u =>
          rw [hl, Option.some_or] at hv'
          rw [← Option.some.inj hv']
          cases dropMissing config k (view s k) with
          | none => exact ⟨_, rfl, rfl⟩
          | some x => exact ⟨_, rfl, rfl⟩
      | none =>
          rw [hl, Option.none_or] at hv'
          obtain ⟨hk, hfw⟩ := lookup_keepPartnerId hv'
          obtain ⟨x, hx, hxv⟩ := h k v hfw
          refine ⟨x, ?_, hxv⟩
          rw [hx]
          simp [dropMissing, hk]

theorem FwOk.initDone (h : FwOk fw s) (b : Bool) : FwOk fw { s with initDone := b } := h

theorem FwOk.init (h : FwOk fw s) (hs : Good s) :
    FwOk (if s.initDone then fw else fwLoad w.config fw) (init w.ok s).2 := by
  cases hi : s.initDone
  · rw [init_not_done hs.filed hi]
    exact (h.load (loadFromJson_spec hs.toQuiet).2.2).initDone _
  · rw [init_done hi]
    exact h

theorem fw_setOver (src : SourceType) (v : Text) (x : Setting) :
    ∃ y, setOver src v (some x) = some y ∧ y.fw = x.fw := ⟨_, rfl, rfl⟩

theorem FwOk.setOverride (h : FwOk fw s) (hs : Settled s) {msg : MsgData}
    (hsrc : msg.requestor = .rfc ∨ msg.requestor = .webpa) : FwOk fw (setOverride w.ok msg s).2 := by
  obtain ⟨-, -, -, -, hview⟩ := setOverride_spec (w := w) msg hsrc hs.toCoherent hs.marks hs.notInitial
  refine h.keep fun k x hx => ?_
  rw [hview k, hx]
  split
  · exact fw_setOver _ _ x
  · exact ⟨x, rfl, rfl⟩

theorem FwOk.clearDb (h : FwOk fw s) (hs : Settled s) : FwOk fw (clearDb w.ok s) := by
  refine h.keep fun k x hx => ?_
  rw [(clearDb_spec hs).2.2.2 k, hx]
  refine ⟨_, rfl, ?_⟩
  dsimp only
  split <;> rfl

theorem FwOk.clearDbDone (h : FwOk fw s) (hs : Settled s) : FwOk fw (clearDbDone w.ok s) := by
  refine h.keep fun k x hx => ?_
  rw [(clearDbDone_spec hs).2.2.2 k, hx]
  refine ⟨_, rfl, ?_⟩
  dsimp only
  split <;> rfl

theorem FwOk.overrideValue (h : FwOk fw s) (hs : Good s) (hw : CleanWorld w) {msg : MsgData}
    (hsrc : msg.requestor = .rfc ∨ msg.requestor = .webpa) :
    FwOk (if s.initDone then fw else fwLoad w.config fw) (overrideValue w.ok msg s).2 := by
  have hinit := good_init hs hw
  have hok := h.init (w := w) hs
  generalize (if s.initDone then fw else fwLoad w.config fw) = fw' at hok ⊢
  unfold BS.overrideValue
  dsimp only
  split
  · split
    · exact hok.clearDb hinit.toSettled
    · split
      · exact hok.clearDbDone hinit.toSettled
      · exact hok.setOverride hinit.toSettled hsrc
  · exact hok

theorem FwOk.partnerIdUpdated (h : FwOk fw s) (hs : Good s) :
    FwOk (fwAfter s fw (w, .partnerIdUpdated)) (partnerIdUpdated w.ok s) := by
  show FwOk (if w.partnerId.chars ≠ [] ∧ w.partnerId.chars ≠ getRawValue s partnerIdKey then
    fwLoad w.config (fw.insert partnerIdKey w.partnerId.chars) else fw) _
  unfold BS.partnerIdUpdated
  show FwOk _ (if w.partnerId.chars ≠ [] ∧ w.partnerId.chars ≠ getRawValue s partnerIdKey then _ else s)
  by_cases hid : w.partnerId.chars ≠ [] ∧ w.partnerId.chars ≠ getRawValue s partnerIdKey
  · rw [if_pos hid, if_pos hid]
    have hstep := setRawValue_rawStep w partnerIdKey w.partnerId.chars .default s
    have hview := hstep.view_default hs.toCoherent w.partnerId.noNul
    have hq : Quiet (setRawValue w.ok partnerIdKey w.partnerId.chars .default s).2 :=
      ⟨hstep.coherent_default hs.toCoherent w.partnerId.noNul, hstep.kept.initialUpdate.trans hs.notInitial,
        hstep.fileCovers hs.fileCovers⟩
    refine FwOk.load (s := (setRawValue w.ok partnerIdKey w.partnerId.chars .default s).2) (fun k v hv => ?_)
      (loadFromJson_spec hq).2.2
    rw [lookup_insert_ite] at hv
    rw [hview k]
    split at hv
    · next hk =>
      rw [if_pos hk, ← Option.some.inj hv]
      cases view s partnerIdKey with
      | none => exact ⟨_, rfl, rfl⟩
      | some x => exact ⟨_, rfl, rfl⟩
    · next hk =>
      rw [if_neg hk]
      exact h k v hv
  · rw [if_neg hid, if_neg hid]
    exact h

theorem FwOk.restart (h : FwOk fw s) (hs : Good s) (hw : CleanWorld w) :
    FwOk (fwLoad w.config fw) (start w.ok s.file s.journal.file) := by
  rw [start_eq]
  have hfresh : FwOk fw (fresh w s.file s.journal.file) := by
    refine h.keep fun k x hx => ⟨{ x with marked := false }, ?_, rfl⟩
    show viewJournal (loadJournal (s.journal.file.getD [])) k = _
    rw [view_restart hs.filed k, hx]
    rfl
  exact (hfresh.load (loadFromJson_spec (good_fresh_restart hs hw).toQuiet).2.2).initDone _

/-- **The journal follows the firmware's values.** -/
theorem fwOk_track (p : XBSStore × Dict Text Text) (i : World × Request) (h : Good p.1 ∧ FwOk p.2 p.1)
    (hi : CleanWorld i.1 ∧ CleanRequest i.2) : Good (track p i).1 ∧ FwOk (track p i).2 (track p i).1 := by
  obtain ⟨s, fw⟩ := p
  obtain ⟨w, r⟩ := i
  obtain ⟨hs, hok⟩ := h
  refine ⟨good_step s (w, r) hs hi, ?_⟩
  cases r with
  | overrideValue msg => exact hok.overrideValue hs hi.1 hi.2.2
  | getValue name => exact hok.init hs
  | loadFromJson => exact hok.load (loadFromJson_spec hs.toQuiet).2.2
  | partnerIdUpdated => exact hok.partnerIdUpdated hs
  | resetCacheAndStore => exact fwOk_empty _
  | restart => exact hok.restart hs hi.1

/-- The same in the window, whatever the strings. -/
theorem fwOk_window {l : List (World × Request)} (hs : Settled s) (hi : s.initDone = true) (hok : FwOk fw s)
    (hl : ∀ i ∈ l, WindowRequest i.2) : FwOk (firmware s fw l) (run step s l) := by
  induction l generalizing s fw with
  | nil => exact hok
  | cons i l ih =>
      obtain ⟨w, r⟩ := i
      have hr : WindowRequest r := hl (w, r) List.mem_cons_self
      obtain ⟨hs', hi', -⟩ := windowAct_step (i := (w, r)) hs hi hr
      have hok' : FwOk (fwAfter s fw (w, r)) (step s (w, r)) := by
        cases r with
        | overrideValue msg =>
            show FwOk (if s.initDone then fw else _) _
            rw [if_pos hi, step_override hi hr.1]
            exact hok.setOverride hs hr.2
        | loadFromJson => exact hok.load (loadFromJson_spec hs.toQuiet).2.2
        | getValue name => exact hr.elim
        | partnerIdUpdated => exact hr.elim
        | resetCacheAndStore => exact hr.elim
        | restart => exact hr.elim
      exact ih hs' hi' hok' fun j hj => hl j (List.mem_cons_of_mem _ hj)

end

/-! ## The revert -/

theorem source_rfc {s : XBSStore} {k : Text} :
    getJournalSource s.journal k = .rfc ↔ ∃ x v, view s k = some x ∧ x.override = some (.rfc, v) := by
  unfold view viewJournal
  cases hr : s.journal.dict.lookup k with
  | none => simp [getJournalSource_none hr]
  | some r =>
      rw [getJournalSource_some hr]
      constructor
      · intro h
        exact ⟨r.setting, r.updatedValue, rfl, override_eq_some.mpr ⟨Or.inl h, by rw [h]⟩⟩
      · rintro ⟨x, v, hx, hover⟩
        rw [← Option.some.inj hx, override_eq_some] at hover
        exact (Prod.mk.inj hover.2).1

/-- What RFC did not set carries no mark, and gets none. -/
theorem mark_not_rfc {s : XBSStore} (h : Settled s) {k : Text} (hk : getJournalSource s.journal k ≠ .rfc) :
    Unmarked (view s k) ∧ mark (view s k) = view s k := by
  unfold Unmarked view viewJournal
  cases hr : s.journal.dict.lookup k with
  | none => exact ⟨fun x hx => (by cases hx), rfl⟩
  | some r =>
      rw [getJournalSource_some hr] at hk
      constructor
      · intro x hx
        rw [← Option.some.inj hx]
        by_contra hc
        exact hk (h.marks k r hr (Bool.eq_true_of_not_eq_false hc)).1
      · rw [Option.map_some, mark, Option.map_some, ← setting_marked, JournalData.marked, if_neg hk]
        rfl

/-- A value RFC has set is marked. -/
theorem mark_rfc {x : Setting} {v : Text} (hx : x.override = some (.rfc, v)) :
    mark (some x) = some { x with marked := true } := by
  simp [mark, hx]

theorem revert_marked {x : Setting} (hx : x.marked = true) :
    (revert (some x)).map Setting.active = some x.fw := by
  simp [revert, hx, Setting.active]

section
variable {s : XBSStore} {w₁ w₂ : World} {m₁ m₂ : MsgData} {l : List (World × Request)}

/-- The run from `ClearDB` to `ClearDBEnd`. -/
def window (w₁ : World) (m₁ : MsgData) (l : List (World × Request)) (w₂ : World) (m₂ : MsgData) :
    List (World × Request) :=
  (w₁, .overrideValue m₁) :: l ++ [(w₂, .overrideValue m₂)]

/-- **The window on one parameter**: mark, requests, revert. -/
theorem dict_window (h : Settled s) (hi : s.initDone = true) (h₁ : foldCase m₁.paramName.chars = foldCase clearDbStart)
    (h₂ : foldCase m₂.paramName.chars = foldCase clearDbEnd) (hl : ∀ i ∈ l, WindowRequest i.2) (k : Text) :
    (run step s (window w₁ m₁ l w₂ m₂)).dict.lookup k =
      (revert (l.foldl (windowAct k) (mark (view s k)))).map Setting.active := by
  obtain ⟨hs₁, hi₁, -, hview₁⟩ := clearDb_spec (w := w₁) h
  rw [hi] at hi₁
  obtain ⟨hs₂, hi₂, hview₂⟩ := view_window hs₁ hi₁ hl
  obtain ⟨hs₃, -, -, hview₃⟩ := clearDbDone_spec (w := w₂) hs₂
  have hrun : run step s (window w₁ m₁ l w₂ m₂) = clearDbDone w₂.ok (run step (clearDb w₁.ok s) l) := by
    rw [window, run_append, run_cons step s, step_clearDb hi h₁, run_cons, run_nil, step_clearDbDone hi₂ h₂]
  rw [hrun, hs₃.active k, hview₃ k, hview₂ k, hview₁ k]

/-- A value set in the window stays. -/
theorem window_set (h : Settled s) (hi : s.initDone = true) (h₁ : foldCase m₁.paramName.chars = foldCase clearDbStart)
    (h₂ : foldCase m₂.paramName.chars = foldCase clearDbEnd) (hl : ∀ i ∈ l, WindowRequest i.2) {k v : Text}
    (hv : lastOf (overrides l) k = some v) :
    (run step s (window w₁ m₁ l w₂ m₂)).dict.lookup k = some v := by
  obtain ⟨x, src, hx, hover, hmark⟩ := foldl_windowAct_set k (mark (view s k)) hl hv
  rw [dict_window h hi h₁ h₂ hl k, hx]
  simp [revert, hmark, Setting.active, hover]

/-- A value RFC set before the window, and nobody in it, becomes the journal's firmware value. -/
theorem window_revert (w₁ w₂ : World) (h : Settled s) (hi : s.initDone = true)
    (h₁ : foldCase m₁.paramName.chars = foldCase clearDbStart)
    (h₂ : foldCase m₂.paramName.chars = foldCase clearDbEnd) (hl : ∀ i ∈ l, WindowRequest i.2) {k : Text}
    (hv : lastOf (overrides l) k = none) (hk : getJournalSource s.journal k = .rfc) :
    ∃ x, view (run step (clearDb w₁.ok s) l) k = some x ∧
      (run step s (window w₁ m₁ l w₂ m₂)).dict.lookup k = some x.fw := by
  obtain ⟨x, v, hx, hover⟩ := source_rfc.mp hk
  obtain ⟨hs₁, hi₁, -, hview₁⟩ := clearDb_spec (w := w₁) h
  rw [hi] at hi₁
  obtain ⟨f, hf⟩ := foldl_reloads_over k (x := { x with marked := true }) (l := reloads l)
    (by rw [hover]; rfl) fun i hi => mem_reloads hi
  have hfold : l.foldl (windowAct k) (mark (view s k)) = some { x with fw := f, marked := true } := by
    rw [foldl_windowAct_reloads k _ hl hv, hx, mark_rfc hover, hf]
  refine ⟨{ x with fw := f, marked := true }, ?_, ?_⟩
  · rw [(view_window hs₁ hi₁ hl).2.2 k, hview₁ k, hfold]
  · rw [dict_window h hi h₁ h₂ hl k, hfold, revert_marked rfl]

/-- Every other parameter sees the reloads only. -/
theorem window_reloads (h : Settled s) (hi : s.initDone = true)
    (h₁ : foldCase m₁.paramName.chars = foldCase clearDbStart)
    (h₂ : foldCase m₂.paramName.chars = foldCase clearDbEnd) (hl : ∀ i ∈ l, WindowRequest i.2) {k : Text}
    (hv : lastOf (overrides l) k = none) (hk : getJournalSource s.journal k ≠ .rfc) :
    (run step s (window w₁ m₁ l w₂ m₂)).dict.lookup k = (run step s (reloads l)).dict.lookup k := by
  obtain ⟨hun, hmark⟩ := mark_not_rfc h hk
  have hreload : ∀ i ∈ reloads l, WindowRequest i.2 := fun i hi => hl i (List.mem_filter.mp hi).1
  obtain ⟨hs', -, hview'⟩ := view_window h hi hreload
  rw [dict_window h hi h₁ h₂ hl k, hmark, foldl_windowAct_reloads k _ hl hv,
    revert_unmarked (unmarked_reloads k hun fun i hi => mem_reloads hi), hs'.active k, hview' k]

end

/-- **The window ends as it should exactly when the firmware gives every parameter that is reverted.** -/
theorem rfc_revert (file journalFile : Option Text) (hf : Consistent file journalFile) (w : World) (hw : CleanWorld w)
    (pre : List (World × Request)) (hpre : ∀ i ∈ pre, CleanWorld i.1 ∧ CleanRequest i.2)
    (hinit : (run step (start w.ok file journalFile) pre).initDone = true) (w₁ w₂ : World) (m₁ m₂ : MsgData)
    (h₁ : foldCase m₁.paramName.chars = foldCase clearDbStart)
    (h₂ : foldCase m₂.paramName.chars = foldCase clearDbEnd) (l : List (World × Request))
    (hl : ∀ i ∈ l, WindowRequest i.2) :
    let s := run step (start w.ok file journalFile) pre
    let s' := run step s (window w₁ m₁ l w₂ m₂)
    let fw := firmware (start w.ok file journalFile) (fwLoad w.config ∅) (pre ++ window w₁ m₁ l w₂ m₂)
    (∀ k,
      (∀ v, lastOf (overrides l) k = some v → s'.dict.lookup k = some v) ∧
      (lastOf (overrides l) k = none → getJournalSource s.journal k = .rfc → s'.dict.lookup k = fw.lookup k) ∧
      (lastOf (overrides l) k = none → getJournalSource s.journal k ≠ .rfc →
        s'.dict.lookup k = (run step s (reloads l)).dict.lookup k)) ↔
    ∀ k, getJournalSource s.journal k = .rfc → lastOf (overrides l) k = none → k ∈ fw := by
  intro s s' fw
  obtain ⟨hs, hok⟩ : Good s ∧ FwOk (firmware (start w.ok file journalFile) (fwLoad w.config ∅) pre) s := by
    have hstart : Good (start w.ok file journalFile) ∧ FwOk (fwLoad w.config ∅) (start w.ok file journalFile) := by
      have hfresh := good_fresh hf hw
      refine ⟨good_start_of hfresh hw, ?_⟩
      rw [start_eq]
      exact ((fwOk_empty _).load (loadFromJson_spec hfresh.toQuiet).2.2).initDone _
    have := Along.invariant (I := fun p : XBSStore × Dict Text Text => Good p.1 ∧ FwOk p.2 p.1) fwOk_track
      (s := (start w.ok file journalFile, fwLoad w.config ∅)) hstart (along_of_forall hpre)
    rwa [run_track] at this
  have hset := hs.toSettled
  obtain ⟨hs₁, hi₁, -, -⟩ := clearDb_spec (w := w₁) hset
  rw [hinit] at hi₁
  have hwin := fwOk_window hs₁ hi₁ (hok.clearDb hset) hl
  -- the two control requests leave the firmware's values alone
  have hfw : fw = firmware (clearDb w₁.ok s) (firmware (start w.ok file journalFile) (fwLoad w.config ∅) pre) l := by
    have hi₂ := (view_window hs₁ hi₁ hl).2.1
    show firmware _ _ (pre ++ ((w₁, .overrideValue m₁) :: l ++ [(w₂, .overrideValue m₂)])) = _
    rw [firmware_append, firmware_append, firmware_overrideValue hinit, run_cons step, step_clearDb hinit h₁,
      firmware_overrideValue hi₂]
    rfl
  rw [← hfw] at hwin
  constructor
  · intro h k hk hv
    obtain ⟨x, -, hx⟩ := window_revert w₁ w₂ hset hinit h₁ h₂ hl hv hk
    rw [← Finmap.lookup_isSome, ← (h k).2.1 hv hk, hx]
    rfl
  · intro h k
    refine ⟨fun v hv => window_set hset hinit h₁ h₂ hl hv, fun hv hk => ?_,
      fun hv hk => window_reloads hset hinit h₁ h₂ hl hv hk⟩
    obtain ⟨x, hview, hx⟩ := window_revert w₁ w₂ hset hinit h₁ h₂ hl hv hk
    obtain ⟨v, hfwv⟩ := Finmap.mem_iff.mp (h k hk hv)
    obtain ⟨y, hy, hyv⟩ := hwin k v hfwv
    rw [hview] at hy
    rw [hx, hfwv, Option.some.inj hy, hyv]

/-- RFC asks for `ClearDB`. -/
def clearDbMsg : MsgData := ⟨⟨clearDbStart, by decide⟩, .ofLiteral "true", .rfc⟩

/-- RFC asks for `ClearDBEnd`. -/
def clearDbEndMsg : MsgData := ⟨⟨clearDbEnd, by decide⟩, .ofLiteral "true", .rfc⟩

/-- RFC sets a parameter of the firmware; in the next update the firmware changes it and RFC leaves it out. -/
theorem rfc_revert_toNewFirmware :
    let s := run step (start (bootWorld [("Device.A", "1")]).ok none none)
      [(bootWorld [], overrideLiteral "Device.A" "2" .rfc)]
    let l := [(bootWorld [("Device.A", "4")], .loadFromJson), (bootWorld [], overrideLiteral "Device.B" "3" .webpa)]
    let s' := run step s (window (bootWorld []) clearDbMsg l (bootWorld []) clearDbEndMsg)
    s.dict.lookup "Device.A".toList = some "2".toList ∧ s'.dict.lookup "Device.A".toList = some "4".toList := by
  intro s l s'
  have hconsistent : Consistent none none :=
    ⟨⟨fun k => Iff.rfl, fun k r hr => (by cases hr), fun k r hr => (by cases hr)⟩, by simp, by simp⟩
  have hpre : ∀ i ∈ [(bootWorld [], overrideLiteral "Device.A" "2" .rfc)], CleanWorld i.1 ∧ CleanRequest i.2 := by
    intro i hi
    rw [List.mem_singleton] at hi
    subst hi
    exact ⟨cleanWorld_bootWorld (by decide), by decide, Or.inl rfl⟩
  have hkeys : ∀ k ∈ s.journal.dict.keys, k = "Device.A".toList := by decide
  have h := (rfc_revert none none hconsistent (bootWorld [("Device.A", "1")]) (cleanWorld_bootWorld (by decide)) _
    hpre (by decide) (bootWorld []) (bootWorld []) clearDbMsg clearDbEndMsg rfl rfl l (by decide)).mpr (by
      intro k hk hv
      have hmem : k ∈ s.journal.dict := by
        by_contra hn
        rw [getJournalSource_none (Finmap.lookup_eq_none.mpr hn)] at hk
        cases hk
      rw [hkeys k (Finmap.mem_keys.mpr hmem)]
      decide) "Device.A".toList
  refine ⟨by decide, (h.2.1 (by decide) (by decide)).trans (by decide)⟩

/-- RFC sets a parameter that the firmware does not have: after the update it is there with the value `-`. -/
theorem revert_leaves_dash :
    let s := run step (start (bootWorld []).ok none none) [(bootWorld [], overrideLiteral "Device.A" "2" .rfc)]
    let s' := run step s (window (bootWorld []) clearDbMsg [] (bootWorld []) clearDbEndMsg)
    getJournalSource s.journal "Device.A".toList = .rfc ∧ (bootWorld []).config = .items [] ∧
      s'.dict.lookup "Device.A".toList = some dash := by
  refine ⟨by decide, rfl, by decide⟩

end Tr69HostIf.BS
